import Lumencast.Lsml.Readability
import Lumencast.Protocol.RoundTrip
import Lumencast.Protocol.Segments
import Lumencast.Protocol.Template
import Lumencast.Server.Atomic

/-!
# Server/Paths — the paths an input may write

Nothing on the way of an input asks whether its paths are leaf paths: the role asks for a namespace,
the token of a service for a pattern, and a scene that declares inputs for one of them.
`leaves_iff` says for which clients on which scenes that comes to the same.
-/

namespace Lumencast

open Machinery Grammar

/-! ## A path that is none

A blank is no character of a segment.  Under every root there is such a path, so a gate that
opens for a whole root lets one through. -/

/-- A path under `root` that is no leaf path: its last segment is a blank. -/
def blankUnder (root : PyStr) : PyStr := root ++ ". "

theorem hasPrefix_blankUnder (root : PyStr) : hasPrefix (blankUnder root) root = true :=
  hasPrefix_iff.mpr (Or.inr ⟨lit " ", List.append_assoc _ _ _⟩)

/-! ## Patterns -/

/-- The root a pattern stands for. -/
def patternRoot (pattern : PyStr) : PyStr :=
  if pattern.endsWith ".*" then pattern.dropEnd 2 else pattern

theorem exists_of_endsWith {s t : PyStr} (h : s.endsWith t = true) : ∃ r, s = r ++ t := by
  obtain ⟨r, hr⟩ := List.isSuffixOf_iff_suffix.mp h
  exact ⟨⟨r⟩, PyStr.ext hr.symm⟩

theorem dropEnd_append (r t : PyStr) : (r ++ t).dropEnd t.length = r :=
  PyStr.ext (by
    rw [PyStr.dropEnd, PyStr.points_append, List.length_append, PyStr.length,
      Nat.add_sub_cancel, List.take_left])

/-- **A pattern matches what is under its root.** -/
theorem patternMatches_iff {pattern path : PyStr} : patternMatches pattern path = true ↔
    pattern ≠ "" ∧ hasPrefix path (patternRoot pattern) = true := by
  rw [patternMatches]
  by_cases hempty : pattern = ""
  · rw [if_pos hempty]
    exact iff_of_false Bool.false_ne_true fun h => h.1 hempty
  rw [if_neg hempty, and_iff_right hempty, patternRoot]
  by_cases hstar : pattern.endsWith ".*" = true
  · rw [if_pos hstar, if_pos hstar]
    obtain ⟨r, rfl⟩ := exists_of_endsWith hstar
    have hroot : (r ++ ".*").dropEnd 2 = r := dropEnd_append r ".*"
    rw [hroot]
    split
    · rename_i heq
      rw [← heq]
      exact iff_of_true rfl (hasPrefix_iff.mpr (Or.inr ⟨lit "*", List.append_assoc _ _ _⟩))
    · exact Iff.rfl
  · rw [if_neg hstar, if_neg hstar]
    -- the branch for a `*` behind a dot is never taken
    have hdead : (pattern.endsWith "*" && (pattern.dropEnd 1).endsWith ".") = false := by
      rw [Bool.and_eq_false_iff, ← Bool.not_eq_true, ← Bool.not_eq_true, ← not_and_or]
      rintro ⟨hlast, hdot⟩
      obtain ⟨r, rfl⟩ := exists_of_endsWith hlast
      rw [show (r ++ "*").dropEnd 1 = r from dropEnd_append r "*"] at hdot
      obtain ⟨r', rfl⟩ := exists_of_endsWith hdot
      refine hstar (List.isSuffixOf_iff_suffix.mpr ⟨r'.points, ?_⟩)
      exact (List.append_assoc r'.points (lit ".") (lit "*")).symm
    rw [hdead, if_neg Bool.false_ne_true]
    split
    · rename_i heq
      rw [← heq]
      exact iff_of_true rfl (hasPrefix_refl pattern)
    · exact Iff.rfl

/-! ## The gates

`Admits` puts the gates together: the role of the client and the list of a scene.  What is left
to say is when everything admitted is a leaf path. -/

/-- Two namespaces do not overlap. -/
theorem not_inputs_of_test {path : PyStr} (h : hasPrefix path "__test" = true) :
    hasPrefix path "__inputs" = false := by
  by_contra hno
  rw [Bool.not_eq_false] at hno
  rcases hasPrefix_total h hno with hle | hle
  · exact absurd (eq_of_hasPrefix (by decide) hle) (by decide)
  · exact absurd (eq_of_hasPrefix (by decide) hle) (by decide)

/-- What the role of a client lets through. -/
theorem canWrite_iff {identity : Identity} {path : PyStr} : identity.canWrite path = true ↔
    (identity.role = some .operator ∧ hasPrefix path "__inputs" = true) ∨
    (identity.role = some .service ∧ hasPrefix path "__inputs" = true ∧
      (identity.paths = [] ∨ ∃ pattern ∈ identity.paths, pattern ≠ "" ∧
        hasPrefix path (patternRoot pattern) = true)) ∨
    (identity.role = some .test ∧ hasPrefix path "__test" = true) := by
  rw [Identity.canWrite]
  rcases identity.role with _ | _ | _ | _ | _
  · simp
  · simp [roleCanWrite]
  · simp [roleCanWrite]
  · simp [roleCanWrite, patternMatches_iff]
  · simp [roleCanWrite]

namespace Scene

/-- What lets a path through: the role of the client, and the scene. -/
def Admits (sc : Scene) (identity : Identity) (path : PyStr) : Prop :=
  identity.canWrite path = true ∧ sc.acceptsInputPath identity.role path = true

/-- **When everything a client may write on a scene is a leaf path.** -/
def LeavesOnly (sc : Scene) (identity : Identity) : Prop :=
  match identity.role with
  | none => True
  | some .viewer => True
  | some .operator => sc.declaredInputs.isEmpty = false
  | some .service => sc.declaredInputs.isEmpty = false ∨
      identity.paths ≠ [] ∧ ∀ pattern ∈ identity.paths, pattern ≠ "" →
        hasPrefix (patternRoot pattern) "__inputs" = false
  | some .test => False

/-- An input is let through by a scene that declares none, or declares it. -/
theorem accepts_inputs_iff {sc : Scene} {role : Option Role} {path : PyStr}
    (h : hasPrefix path "__inputs" = true) : sc.acceptsInputPath role path = true ↔
      sc.declaredInputs.isEmpty = true ∨ (sc.declaredInputs.get? path).isSome = true := by
  rw [acceptsInputPath, if_pos h, Bool.or_eq_true]

theorem accepts_test {sc : Scene} {path : PyStr} (h : hasPrefix path "__test" = true) :
    sc.acceptsInputPath (some .test) path = true := by
  rw [acceptsInputPath, if_neg (Bool.not_eq_true _ ▸ not_inputs_of_test h), h]
  rfl

/-- **Where the condition holds, only declared paths are let through.** -/
theorem declared_of_admits {sc : Scene} {identity : Identity} (hleaves : sc.LeavesOnly identity)
    {path : PyStr} (h : sc.Admits identity path) :
    (sc.declaredInputs.get? path).isSome = true := by
  obtain ⟨hwrite, haccepts⟩ := h
  rw [LeavesOnly] at hleaves
  rcases canWrite_iff.mp hwrite with ⟨hrole, hinputs⟩ | ⟨hrole, hinputs, hpatterns⟩ | ⟨hrole, -⟩
  · rw [hrole] at hleaves
    have hne : ¬ sc.declaredInputs.isEmpty = true := Bool.not_eq_true _ ▸ hleaves
    exact ((accepts_inputs_iff hinputs).mp haccepts).resolve_left hne
  · rw [hrole] at hleaves
    refine ((accepts_inputs_iff hinputs).mp haccepts).resolve_left fun hempty => ?_
    rcases hleaves with hne | ⟨hpaths, hroots⟩
    · exact absurd (hne.symm.trans hempty) Bool.false_ne_true
    rcases hpatterns with hnone | ⟨pattern, hmem, hne, hmatch⟩
    · exact hpaths hnone
    -- the root of the pattern is not under the namespace, and it cannot be above it
    have hroot := hroots pattern hmem hne
    rcases hasPrefix_total hmatch hinputs with hle | hle
    · exact absurd (hroot.symm.trans hle) Bool.false_ne_true
    · rw [eq_of_hasPrefix (by decide) hle, hasPrefix_refl] at hroot
      cases hroot
  · rw [hrole] at hleaves
    exact hleaves.elim

/-- **Where it fails, some root has everything under it let through.** -/
theorem exists_root_of_not {sc : Scene} {identity : Identity} (h : ¬ sc.LeavesOnly identity) :
    ∃ root, ∀ path, hasPrefix path root = true → sc.Admits identity path := by
  rw [LeavesOnly] at h
  have hadmits {path : PyStr} (hwrite : identity.canWrite path = true)
      (hinputs : hasPrefix path "__inputs" = true) (hempty : sc.declaredInputs.isEmpty = true) :
      sc.Admits identity path := ⟨hwrite, (accepts_inputs_iff hinputs).mpr (Or.inl hempty)⟩
  rcases hrole : identity.role with _ | _ | _ | _ | _ <;> rw [hrole] at h
  · exact absurd trivial h
  · exact absurd trivial h
  · refine ⟨"__inputs", fun path hpath => ?_⟩
    exact hadmits (canWrite_iff.mpr (Or.inl ⟨hrole, hpath⟩)) hpath ((Bool.not_eq_false _).mp h)
  · obtain ⟨hne, hpatterns⟩ := not_or.mp h
    have hempty := (Bool.not_eq_false _).mp hne
    by_cases hpaths : identity.paths = []
    · refine ⟨"__inputs", fun path hpath => ?_⟩
      have hwrite := canWrite_iff.mpr (Or.inr (Or.inl ⟨hrole, hpath, Or.inl hpaths⟩))
      exact hadmits hwrite hpath hempty
    · have hroots := not_and.mp hpatterns hpaths
      push Not at hroots
      obtain ⟨pattern, hmem, hpattern, hroot⟩ := hroots
      have hinputs := (Bool.not_eq_false _).mp hroot
      refine ⟨patternRoot pattern, fun path hpath => ?_⟩
      have hunder := hasPrefix_trans hpath hinputs
      have hwrite := canWrite_iff.mpr
        (Or.inr (Or.inl ⟨hrole, hunder, Or.inr ⟨pattern, hmem, hpattern, hpath⟩⟩))
      exact hadmits hwrite hunder hempty
  · refine ⟨"__test", fun path hpath => ⟨canWrite_iff.mpr (Or.inr (Or.inr ⟨hrole, hpath⟩)), ?_⟩⟩
    rw [hrole]
    exact accepts_test hpath

/-! ## What comes through -/

theorem mem_of_deduplicated {patches : List Patch} {p : Patch} (h : p ∈ deduplicated patches) :
    ∃ q ∈ patches, q.path = p.path := by
  obtain ⟨path, hpath, hp⟩ := List.mem_filterMap.mp h
  obtain ⟨q, hq, rfl⟩ := List.mem_map.mp (List.mem_eraseDups.mp hpath)
  obtain ⟨q', -, rfl⟩ := Option.map_eq_some_iff.mp hp
  exact ⟨q, hq, rfl⟩

/-- An accepted input was let through, path by path, and is committed. -/
theorem admits_of_applyInput {sc sc' : Scene} {subs subs' : Subs} {identity : Identity}
    {patches : List Patch} {cause : Option Cause}
    (h : sc.applyInput subs identity patches cause = .ok (none, sc', subs')) :
    (∀ p ∈ patches, sc.Admits identity p.path) ∧ sc.Committed subs patches cause sc' subs' := by
  have hverdict : sc.verdict identity patches = .ok none := by
    rw [← applyInput_result sc subs identity patches cause, h]
    rfl
  refine ⟨gates_of_verdict hverdict, ?_⟩
  rw [applyInput, hverdict] at h
  dsimp only at h
  rw [emit_eq_ok sc subs cause (isEmpty_asDict_of_verdict hverdict)] at h
  cases h
  exact committed_emitted sc subs patches cause

/-- **A path both gates let through is written**, if nothing is declared of it. -/
theorem applyInput_of_admits {sc : Scene} {identity : Identity} {path : PyStr}
    (hadmits : sc.Admits identity path) (hdeclared : sc.declaredInputs.get? path = none)
    (subs : Subs) (value : Json) (cause : Option Cause) :
    ∃ sc' subs', sc.applyInput subs identity [⟨path, value, none⟩] cause = .ok (none, sc', subs') ∧
      sc'.store.state.get? path = some value := by
  have hverdict : sc.verdict identity [⟨path, value, none⟩] = .ok none := by
    rw [verdict, List.isEmpty_cons, if_neg Bool.false_ne_true, checkPatches, checkPatch,
      hadmits.1, Bool.not_true, if_neg Bool.false_ne_true, hadmits.2, Bool.not_true,
      if_neg Bool.false_ne_true, hdeclared]
    rfl
  let sc' := sc.emitted (asDict [⟨path, value, none⟩]) cause
  refine ⟨sc', subs.modifyAll sc.subscribers (sc'.deliver (asDict [⟨path, value, none⟩]) cause),
    ?_, ?_⟩
  · rw [applyInput, hverdict]
    dsimp only
    rw [emit_eq_ok sc subs cause (isEmpty_asDict_of_verdict hverdict)]
    rfl
  · exact Dict.get?_set_self sc.store.state path value

end Scene

section Leaves

variable [PyUnicode]

theorem not_leaf_blankUnder (root : PyStr) : validatePath (blankUnder root) false ≠ .ok () := by
  intro h
  have hsegs : (blankUnder root).points.splitOn (cp '.')
      = root.points.splitOn (cp '.') ++ (lit " ").splitOn (cp '.') :=
    List.splitOn_append_cons_self ..
  have hblank := validatePath_wire.mp h (lit " ") (by
    rw [hsegs]
    exact List.mem_append_right _ (List.mem_singleton.mpr rfl))
  have hchar : segmentChar (cp ' ') = true := hblank.2 (cp ' ') (List.mem_singleton.mpr rfl)
  rw [segmentChar, Bool.or_eq_true, Bool.or_eq_true, PyUnicode.isAlpha_ascii _ (by decide),
    beq_iff_eq, PyUnicode.isDigit_ascii _ (by decide)] at hchar
  exact absurd hchar (by decide)

namespace Scene

/-- **What an accepted input wrote are leaf paths**: those of the leaves of the store it changed, of
the record kept of it, and of the delta each subscriber is sent. -/
structure LeavesWritten (sc : Scene) (subs : Subs) (sc' : Scene) (subs' : Subs) : Prop where
  stored : ∀ path, sc'.store.state.get? path ≠ sc.store.state.get? path →
    validatePath path false = .ok ()
  remembered : ∃ record, sc'.replay = sc.replay.push record ∧
    ∀ p ∈ record.patches, validatePath p.path false = .ok ()
  sent : ∀ r msg f, (subs'.get r).queue.items = (subs.get r).queue.items ++ [some msg] →
    msg.frame = .delta f → ∀ p ∈ f.patches, validatePath p.path false = .ok ()

/-- **A batch of leaf paths is committed as one.** -/
theorem leavesWritten_of_committed {sc sc' : Scene} {subs subs' : Subs} {patches : List Patch}
    {cause : Option Cause} (h : sc.Committed subs patches cause sc' subs')
    (hleaves : ∀ p ∈ patches, validatePath p.path false = .ok ()) :
    sc.LeavesWritten subs sc' subs' := by
  have hdedup : ∀ p ∈ deduplicated patches, validatePath p.path false = .ok () := by
    intro p hp
    obtain ⟨q, hq, hpath⟩ := mem_of_deduplicated hp
    rw [← hpath]
    exact hleaves q hq
  refine ⟨fun path hne => ?_, ⟨_, h.record, hdedup⟩, fun r msg f hitems hframe => ?_⟩
  · have hmem : path ∈ (patches.map fun p => (p.path, p.value)).map Prod.fst := by
      by_contra hno
      rw [h.store] at hne
      exact hne (Dict.get?_update_of_notMem _ _ hno)
    rw [List.map_map] at hmem
    obtain ⟨p, hp, rfl⟩ := List.mem_map.mp hmem
    exact hleaves p hp
  · have hgrew : (subs'.get r).queue.items ≠ (subs.get r).queue.items := by
      rw [hitems]
      simp
    by_cases hr : r ∈ sc.subscribers
    · by_cases hroom : (subs.get r).HasRoom
      · obtain ⟨msg', hitems', hframe'⟩ := h.sent r hr hroom
        have hmsg := List.append_cancel_left (hitems.symm.trans hitems')
        rw [List.cons.injEq, Option.some.injEq] at hmsg
        rw [hmsg.1, hframe', Frame.delta.injEq] at hframe
        rw [← hframe]
        exact hdedup
      · exact absurd (h.overflow r hr hroom).1 hgrew
    · exact absurd (by rw [h.others r hr]) hgrew

end Scene

/-! ## What reaches the store -/

/-- An input of one path. -/
def oneInput (path : PyStr) (flag : Bool) : Input :=
  { patches := [{ path := path, value := .bool flag }] }

/-- **Accepted paths are leaf paths for exactly the clients and scenes of `LeavesOnly`**, given that
the declared inputs are, and that `json.loads` reads what `json.dumps` writes of an input of one
path. -/
theorem leaves_iff [PyRepr] [PyParse] (sc : Scene) (identity : Identity)
    (hdeclared : ∀ path, (sc.declaredInputs.get? path).isSome = true →
      validatePath path false = .ok ())
    (hloads : ∀ path flag, PyParse.loads (encode (.input (oneInput path flag)))
      = .ok (.obj (frameToDict (.input (oneInput path flag))))) :
    (∀ subs raw f cause sc' subs', decodeClient raw = .ok (.input f) →
      sc.applyInput subs identity f.patches cause = .ok (none, sc', subs') →
        sc.LeavesWritten subs sc' subs') ↔ sc.LeavesOnly identity := by
  constructor
  · intro hall
    by_contra hnot
    obtain ⟨root, hroot⟩ := Scene.exists_root_of_not hnot
    have hbad := not_leaf_blankUnder root
    have hnone : sc.declaredInputs.get? (blankUnder root) = none := by
      rcases hget : sc.declaredInputs.get? (blankUnder root) with _ | spec
      · rfl
      · exact absurd (hdeclared _ (by rw [hget]; rfl)) hbad
    -- a value the leaf does not have already
    obtain ⟨flag, hflag⟩ : ∃ flag, sc.store.state.get? (blankUnder root) ≠ some (.bool flag) := by
      by_cases h : sc.store.state.get? (blankUnder root) = some (.bool true)
      · exact ⟨false, by rw [h]; simp⟩
      · exact ⟨true, h⟩
    obtain ⟨sc', subs', happly, hstored⟩ := Scene.applyInput_of_admits
      (hroot _ (hasPrefix_blankUnder root)) hnone (.blank {}) (.bool flag) none
    have hdecode : decodeClient (.text (encode (.input (oneInput (blankUnder root) flag))))
        = .ok (.input (oneInput (blankUnder root) flag)) :=
      decodeClient_of_loads trivial rfl (hloads _ _)
    refine hbad ((hall _ _ _ none sc' subs' hdecode happly).stored _ ?_)
    rw [hstored]
    exact Ne.symm hflag
  · intro hleaves subs raw f cause sc' subs' _ happly
    obtain ⟨hadmits, hcommitted⟩ := Scene.admits_of_applyInput happly
    refine Scene.leavesWritten_of_committed hcommitted fun p hp => hdeclared p.path ?_
    exact Scene.declared_of_admits hleaves (hadmits p hp)

end Leaves

/-- An operator's input to a path with a blank in it. -/
def spacedInput : Input := oneInput "__inputs.a b" true

/-- **A scene that declares nothing takes it.** -/
theorem spacedInput_written :
    letI := PyRepr.plain
    letI := PyUnicode.ascii
    letI := PyParse.only (encode (.input spacedInput)) (.obj (frameToDict (.input spacedInput)))
    ∃ sc' subs', decodeClient (.text (encode (.input spacedInput))) = .ok (.input spacedInput) ∧
      (Scene.new 0 "main" "v1" []).applyInput (.blank {}) { role := some .operator }
        spacedInput.patches none = .ok (none, sc', subs') ∧
      sc'.store.state.get? "__inputs.a b" = some (.bool true) ∧
      validatePath "__inputs.a b" false = .error (.invalidSegment "a b" 1) := by
  let := PyRepr.plain
  let := PyUnicode.ascii
  let := PyParse.only (encode (.input spacedInput)) (.obj (frameToDict (.input spacedInput)))
  have hadmits : (Scene.new 0 "main" "v1" []).Admits { role := some .operator } "__inputs.a b" :=
    ⟨by decide, by decide⟩
  obtain ⟨sc', subs', happly, hstored⟩ :=
    Scene.applyInput_of_admits hadmits rfl (.blank {}) (.bool true) none
  exact ⟨sc', subs', decodeClient_of_loads trivial rfl (PyParse.loads_only ..), happly, hstored,
    by decide⟩

/-- A `json.loads` that reads the inputs of one path, and nothing else. -/
@[reducible] noncomputable def PyParse.inputsOnly [PyRepr] : PyParse where
  loads := Function.extend (fun probe : PyStr × Bool => encode (.input (oneInput probe.1 probe.2)))
    (fun probe => .ok (.obj (frameToDict (.input (oneInput probe.1 probe.2)))))
    fun _ => .error ""
  utf8Error _ := ""
  int _ := none
  float _ := none

/-- The text of an input of one path: the path in quotes, and the value. -/
theorem encode_onePath [PyRepr] : ∃ head mid tail : Text, ∀ (path : PyStr) (value : Json),
    (encode (.input { patches := [{ path, value }] })).points = head ++ ((Json.quote path).points
      ++ (mid ++ ((value.write Json.pythonNumerals).points ++ tail))) := by
  let head : PyStr := "\x7b" ++ Json.quote "v" ++ ":" ++ Json.pythonNumerals.int VERSION ++ ","
    ++ Json.quote "type" ++ ":" ++ Json.quote FRAME_INPUT ++ "," ++ Json.quote "patches" ++ ":"
    ++ "[" ++ "\x7b" ++ Json.quote "path" ++ ":"
  let mid : PyStr := "," ++ Json.quote "value" ++ ":"
  let tail : PyStr := "\x7d" ++ "]" ++ "\x7d"
  refine ⟨head.points, mid.points, tail.points, fun path value => ?_⟩
  let patch : PyStr := "\x7b" ++ PyStr.join "," [Json.quote "path" ++ ":" ++ Json.quote path,
    Json.quote "value" ++ ":" ++ value.write Json.pythonNumerals] ++ "\x7d"
  change ("\x7b" ++ PyStr.join "," [Json.quote "v" ++ ":" ++ Json.pythonNumerals.int VERSION,
    Json.quote "type" ++ ":" ++ Json.quote FRAME_INPUT,
    Json.quote "patches" ++ ":" ++ ("[" ++ PyStr.join "," [patch] ++ "]")] ++ "\x7d" : PyStr).points
      = _
  simp only [head, mid, tail, patch, PyStr.join_cons_cons, PyStr.join_singleton,
    PyStr.points_append, List.append_assoc]

theorem loads_inputsOnly [PyRepr] (path : PyStr) (flag : Bool) :
    PyParse.inputsOnly.loads (encode (.input (oneInput path flag)))
      = .ok (.obj (frameToDict (.input (oneInput path flag)))) := by
  refine Function.Injective.extend_apply ?_ _ _ (path, flag)
  obtain ⟨head, mid, tail, hshape⟩ := encode_onePath
  rintro ⟨path, flag⟩ ⟨path', flag'⟩ h
  have hpoints := congrArg PyStr.points h
  dsimp only [oneInput] at hpoints
  rw [hshape, hshape] at hpoints
  obtain ⟨rfl, hrest⟩ := quote_inj (List.append_cancel_left hpoints)
  have hvalue := List.append_cancel_right (List.append_cancel_left hrest)
  rcases flag with _ | _ <;> rcases flag' with _ | _
  · rfl
  · change lit "false" = lit "true" at hvalue
    exact absurd hvalue (by decide)
  · change lit "true" = lit "false" at hvalue
    exact absurd hvalue (by decide)
  · rfl

/-- An operator's input to the one path a scene declares. -/
theorem leaves_iff_declared :
    letI := PyRepr.plain
    letI := PyUnicode.ascii
    letI := PyParse.inputsOnly
    letI sc := Scene.new 0 "main" "v1" [{ path := "__inputs.a", type := "boolean" }]
    ∃ sc' subs', decodeClient (.text (encode (.input (oneInput "__inputs.a" true))))
        = .ok (.input (oneInput "__inputs.a" true)) ∧
      sc.applyInput (.blank {}) { role := some .operator } (oneInput "__inputs.a" true).patches none
        = .ok (none, sc', subs') ∧
      sc.LeavesWritten (.blank {}) sc' subs' := by
  let := PyRepr.plain
  let := PyUnicode.ascii
  let := PyParse.inputsOnly
  let sc := Scene.new 0 "main" "v1" [{ path := "__inputs.a", type := "boolean" }]
  have hdeclared : ∀ path, (sc.declaredInputs.get? path).isSome = true →
      validatePath path false = .ok () := by
    intro path hpath
    by_cases h : path = "__inputs.a"
    · rw [h]
      decide
    · have hnone : sc.declaredInputs.get? path = none := if_neg (Ne.symm h)
      rw [hnone] at hpath
      cases hpath
  have hdecode := decodeClient_of_loads (f := .input (oneInput "__inputs.a" true)) trivial rfl
    (loads_inputsOnly _ _)
  obtain ⟨sc', subs', happly⟩ : ∃ sc' subs', sc.applyInput (.blank {}) { role := some .operator }
      (oneInput "__inputs.a" true).patches none = .ok (none, sc', subs') := ⟨_, _, rfl⟩
  exact ⟨sc', subs', hdecode, happly, (leaves_iff sc { role := some .operator } hdeclared
    loads_inputsOnly).mpr rfl _ _ _ none sc' subs' hdecode happly⟩

end Lumencast
