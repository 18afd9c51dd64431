import Lumencast.Conformance.Placeholders
import Lumencast.Interop.ControlPlane

/-!
# Interop/HttpDriver — seeding a server for a scenario

The harness sets a remote server up with the state that the first snapshot of a scenario expects,
less its sentinels, and later compares the snapshot it receives with that state, placeholders
filled in.  `seeding_agrees_iff` says for which scenarios a server that does as it is told passes.
-/

namespace Lumencast

open Machinery

/-! ## Scenarios -/

/-- The verbs of a scenario. -/
inductive StepKind where
  | clientSends
  | serverSends
  | serverEmits
  | expectRuntimeState
  | expectServerState
  | expectNoFrameFor
  | expectClientAction
  | clientAction
  | wait
  | setClock
  | unsupported
  deriving DecidableEq

/-- One step of a scenario: what the driver reads of it.  A frame is whatever the file holds, and
its dicts have each key once. -/
structure Step where
  kind : StepKind
  frame : Json
  distinct : frame.Distinct

/-- One bundle declared on a scenario; one without an id is skipped when the file is read. -/
structure BundleDecl where
  id : PyStr
  inline : List (PyStr × Json)
  hash : PyStr
  id_ne : id ≠ ""

/-- A parsed scenario; a file that does not name its scenario is refused. -/
structure Scenario where
  name : PyStr
  bundles : List BundleDecl
  steps : List Step
  name_ne : name ≠ ""

/-- `bundle_hashes`. -/
def Scenario.bundleHashes (sc : Scenario) : Dict PyStr PyStr :=
  .ofList (sc.bundles.map fun b => (b.id, b.hash))

namespace Step

/-- A frame whose type is `snapshot`. -/
def isSnapshotFrame (frame : List (PyStr × Json)) : Bool :=
  match Json.lookup frame "type" with
  | some (.str t) => t = "snapshot"
  | _ => false

/-- The step expects a snapshot of the server. -/
def isSnapshot (step : Step) : Bool :=
  step.kind = .serverSends && match step.frame with
    | .obj frame => isSnapshotFrame frame
    | _ => false

/-- The state in the frame of a step, if it is an object. -/
def state? (step : Step) : Option (List (PyStr × Json)) :=
  match step.frame with
  | .obj frame =>
      match Json.lookup frame "state" with
      | some (.obj state) => some state
      | _ => none
  | _ => none

end Step

/-- The state the first snapshot of a scenario expects, if that is an object. -/
def Scenario.expectedState (sc : Scenario) : Option (List (PyStr × Json)) :=
  (sc.steps.find? Step.isSnapshot).bind Step.state?

/-! ## The driver

The sentinels are taken out of a state at its top level and nowhere else, so one that is nested
is sent like any value. -/

/-- Why a setup fails: a frame that is no dict has no `get`, the request is not delivered, or the
driver objects to the answer. -/
inductive SetupError where
  | attribute
  | transport
  | runtime (message : PyStr)

/-- `step.frame.get`. -/
def Step.fields (step : Step) : Except SetupError (List (PyStr × Json)) :=
  match step.frame with
  | .obj frame => .ok frame
  | _ => .error .attribute

/-- A field that is a string and not the sentinel; `""` stands for none. -/
def candidate (frame : List (PyStr × Json)) (key sentinel : PyStr) : PyStr :=
  match Json.lookup frame key with
  | some (.str s) => if s = sentinel then "" else s
  | _ => ""

/-- The loop of `_first_scene_id_and_hash`, on what it has found so far. -/
def firstSceneIdAndHash : List Step → PyStr → PyStr → Except SetupError (PyStr × PyStr)
  | [], sid, h => .ok (sid, h)
  | step :: steps, sid, h =>
      if step.kind ≠ .serverSends then firstSceneIdAndHash steps sid h
      else do
        let frame ← step.fields
        let sid := if sid = "" then candidate frame "scene_id" SENTINEL_ANY else sid
        let h := if h = "" then candidate frame "scene_version" SENTINEL_ANY_HASH else h
        if sid ≠ "" ∧ h ≠ "" then return (sid, h) else firstSceneIdAndHash steps sid h

/-- One of the two strings that stand for any value, or any hash. -/
def isSentinel : Json → Bool
  | .str s => s = SENTINEL_ANY || s = SENTINEL_ANY_HASH
  | _ => false

/-- A state without the leaves that are sentinels. -/
def withoutSentinels (state : List (PyStr × Json)) : List (PyStr × Json) :=
  state.filter fun e => !isSentinel e.2

/-- `_extract_initial_state`, from `steps` on. -/
def extractInitialState : List Step → Except SetupError (Option (List (PyStr × Json)))
  | [] => .ok none
  | step :: steps =>
      if step.kind ≠ .serverSends then extractInitialState steps
      else do
        let frame ← step.fields
        if Step.isSnapshotFrame frame then return step.state?.map withoutSentinels
        else extractInitialState steps

/-- The id a declared bundle is set up under: `inline.scene_id` overrides `id`. -/
def BundleDecl.sceneId (b : BundleDecl) : PyStr :=
  match Json.lookup b.inline "scene_id" with
  | some (.str sid) => if sid = "" then b.id else sid
  | _ => b.id

/-- A bundle as the control plane is sent it. -/
def bundlePayload (id hash : PyStr) (inline : List (PyStr × Json)) : List (PyStr × Json) :=
  [("id", .str id), ("hash", .str hash), ("inline", .obj inline)]

/-- The inline part of the bundle that stands in for none: it declares the inputs among the leaves
of the seed. -/
def standInInline (state : List (PyStr × Json)) : List (PyStr × Json) :=
  let inputs := (state.filter fun e => e.1.startsWith "__inputs.").map fun e =>
    Json.obj [("path", .str e.1)]
  if inputs = [] then [] else [("operator_inputs", .arr inputs)]

/-- `_bundles_for`. -/
def bundlesFor (sc : Scenario) : Except SetupError (List Json) :=
  if sc.bundles = [] then do
    let (sid, h) ← firstSceneIdAndHash sc.steps "" ""
    let state ← extractInitialState sc.steps
    return [.obj (bundlePayload (if sid = "" then sc.name else sid)
      (if h = "" then DEFAULT_SCENE_VERSION else h) (standInInline (state.getD [])))]
  else
    return sc.bundles.map fun b => .obj (bundlePayload b.sceneId b.hash b.inline)

/-- `canonical_interop_tokens`. -/
def canonicalInteropTokens : Dict PyStr PyStr :=
  .ofList [("$TOKEN_OPERATOR", "interop-tok-operator-7f3a"),
    ("$TOKEN_VIEWER", "interop-tok-viewer-7f3a"), ("$TOKEN_SERVICE", "interop-tok-service-7f3a"),
    ("$TOKEN_TEST", "interop-tok-test-7f3a"), ("$TOKEN_INVALID", "interop-tok-invalid-7f3a")]

structure HTTPDriver where
  tokens : Dict PyStr PyStr
  /-- A body that is posted, as the handler reads it; `none` when it does not get there. -/
  post : Json → Option Json

namespace HTTPDriver

/-- `__init__`. -/
def new (tokens : Option (Dict PyStr PyStr)) (post : Json → Option Json) : HTTPDriver where
  tokens := (tokens.filter (!·.isEmpty)).getD canonicalInteropTokens
  post := post

variable (d : HTTPDriver)

/-- The body of the request, without what is `None`. -/
def bodyOf (name : PyStr) (bundles : List Json) (state : Option (List (PyStr × Json))) :
    List (PyStr × Json) :=
  let body : List (PyStr × Json) := [("scenario", .str name),
    ("tokens", .obj (d.tokens.entries.map fun e => (e.1, .str e.2))), ("bundles", .arr bundles)]
  match state with
  | some state => body ++ [(("initial_state" : PyStr), Json.obj state)]
  | none => body

def requestBody (name : PyStr) (sc : Scenario) : Except SetupError (List (PyStr × Json)) := do
  let bundles ← bundlesFor sc
  let state ← extractInitialState sc.steps
  return d.bodyOf name bundles state

/-- What the driver makes of the answer. -/
def receive : Response → Except SetupError (PyStr × Dict PyStr PyStr)
  | .ok wsUrl _ _ =>
      if wsUrl = "" then .error (.runtime "harness: setup returned empty ws_url")
      else .ok (wsUrl, d.tokens)
  | .problem status _ detail =>
      .error (.runtime ("harness: setup HTTP " ++ toString status ++ ": " ++ detail))
  | .serverError => .error (.runtime "harness: setup HTTP 500")

/-- `setup`, against the control plane `p`. -/
def setup [PyRepr] (p : ControlPlane) (name : PyStr) (sc : Scenario) :
    Except SetupError (PyStr × Dict PyStr PyStr) × ControlPlane :=
  match d.requestBody name sc with
  | .error e => (.error e, p)
  | .ok body =>
      match d.post (.obj body) with
      | none => (.error .transport, p)
      | some read => ((d.receive (p.setup (.ok read)).1), (p.setup (.ok read)).2)

end HTTPDriver

/-- The snapshot a client is sent that subscribes to the live scene. -/
def Server.firstSnapshot (k : Server) : Option Snapshot :=
  k.activeScene.bind fun c => ((k.objects.get c).resumeAnswer none).1

/-! ## What is set up -/

theorem Step.frame_of_fields {step : Step} {frame : List (PyStr × Json)}
    (h : step.fields = .ok frame) : step.frame = .obj frame := by
  unfold fields at h
  split at h
  · rename_i heq
    cases h
    exact heq
  · cases h

/-- **The seed is what the first snapshot expects**, less its sentinels. -/
theorem extractInitialState_eq : ∀ {steps : List Step} {state : Option (List (PyStr × Json))},
    extractInitialState steps = .ok state →
      state = ((steps.find? Step.isSnapshot).bind Step.state?).map withoutSentinels
  | [], _, h => by
      cases h
      rfl
  | step :: steps, state, h => by
      rw [extractInitialState] at h
      split at h
      · rename_i hkind
        have hnot : step.isSnapshot = false := by
          rw [Step.isSnapshot, decide_eq_false hkind, Bool.false_and]
        rw [List.find?_cons_of_neg (by rw [hnot]; decide)]
        exact extractInitialState_eq h
      · rename_i hkind
        obtain ⟨frame, hframe, h⟩ := bind_eq_ok.mp h
        have his : step.isSnapshot = Step.isSnapshotFrame frame := by
          rw [Step.isSnapshot, Step.frame_of_fields hframe, decide_eq_true (not_not.mp hkind),
            Bool.true_and]
        split at h
        · rename_i hsnapshot
          rw [List.find?_cons_of_pos (his.trans hsnapshot)]
          cases h
          rfl
        · rename_i hsnapshot
          rw [List.find?_cons_of_neg (his ▸ hsnapshot)]
          exact extractInitialState_eq h

namespace Scenario

variable (sc : Scenario)

/-- A later bundle is declared that is set up under the id of the first. -/
def Shadowed : Prop :=
  match sc.bundles with
  | [] => False
  | b :: bs => ∃ b' ∈ bs, b'.sceneId = b.sceneId

/-- What the first bundle seeds by itself. -/
def defaults : Dict PyStr Json :=
  match sc.bundles with
  | [] => .empty
  | b :: _ => ((nonEmptyObject? (Json.lookup b.inline "defaults")).map Dict.ofList).getD .empty

/-- **What a scenario must be for its own seeding to agree with it.**  If its first bundle does not
last, it expects nothing.  Else, if it expects nothing but sentinels, the defaults have their keys,
with hashes where hashes are expected; and if there is a seed, it expects no sentinel beside it, and
each value it expects survives. -/
def Agrees (tokens : Dict PyStr PyStr) (state : List (PyStr × Json)) : Prop :=
  (sc.Shadowed → state = []) ∧
  (¬ sc.Shadowed → withoutSentinels state = [] → ∀ e ∈ state, ∃ w, sc.defaults.get? e.1 = some w ∧
    (e.2 = .str SENTINEL_ANY ∨ w.IsHash)) ∧
  (¬ sc.Shadowed → withoutSentinels state ≠ [] → ∀ e ∈ state, isSentinel e.2 = false ∧
    e.2.Survives tokens sc.bundleHashes)

end Scenario

theorem BundleDecl.sceneId_ne (b : BundleDecl) : b.sceneId ≠ "" := by
  unfold sceneId
  split
  · split
    · exact b.id_ne
    · assumption
  · exact b.id_ne

/-- The stand-in declares inputs, and nothing else. -/
theorem lookup_standInInline (state : List (PyStr × Json)) {key : PyStr}
    (h : key ≠ "operator_inputs") : Json.lookup (standInInline state) key = none := by
  unfold standInInline
  dsimp only
  split
  · rfl
  · exact if_neg (Ne.symm h)

section Bundles

variable [PyRepr]

/-- A bundle is registered under the id it is sent with. -/
theorem effectiveId_payload {id hash : PyStr} {inline : List (PyStr × Json)}
    (h : ∀ sid, Json.lookup inline "scene_id" = some (.str sid) → sid = "" ∨ sid = id) :
    effectiveId (bundlePayload id hash inline) = id := by
  have hinline : inlineOf (bundlePayload id hash inline) = inline := rfl
  have hid : ((Json.lookup (bundlePayload id hash inline) "id").getD (.str "")).toStr = id := rfl
  rw [effectiveId, hid, hinline]
  split
  · rename_i sid hsid
    rcases h sid hsid with rfl | rfl
    · exact if_pos rfl
    · split
      · assumption
      · rfl
  · rfl

theorem effectiveId_declared (b : BundleDecl) :
    effectiveId (bundlePayload b.sceneId b.hash b.inline) = b.sceneId := by
  refine effectiveId_payload fun sid hsid => ?_
  rw [BundleDecl.sceneId, hsid]
  dsimp only
  split
  · rename_i hsid
    exact Or.inl hsid
  · exact Or.inr rfl

theorem effectiveId_standIn (id hash : PyStr) (state : List (PyStr × Json)) :
    effectiveId (bundlePayload id hash (standInInline state)) = id := by
  refine effectiveId_payload fun sid hsid => ?_
  rw [lookup_standInInline state (by decide)] at hsid
  cases hsid

/-- A later bundle governs the scene of the first exactly when the first is shadowed. -/
theorem governing_declared_iff {sc : Scenario} {b : BundleDecl} {bs : List BundleDecl}
    (h : sc.bundles = b :: bs) :
    (governing b.sceneId (bs.map fun b => .obj (bundlePayload b.sceneId b.hash b.inline))).isSome
      = true ↔ sc.Shadowed := by
  rw [Scenario.Shadowed, h, ← not_iff_not, Bool.not_eq_true, Option.isSome_eq_false_iff,
    Option.isNone_iff_eq_none, governing_eq_none_iff]
  dsimp only
  rw [not_exists]
  constructor
  · rintro hall b' ⟨hmem, heq⟩
    exact hall _ (List.mem_map.mpr ⟨b', hmem, rfl⟩) ((effectiveId_declared b').trans heq)
  · intro hall bundle hmem heq
    obtain ⟨b', hb', hbundle⟩ := List.mem_map.mp hmem
    cases hbundle
    exact hall b' ⟨hb', (effectiveId_declared b').symm.trans heq⟩

/-- **The bundles that are sent**: the first has an id and its own defaults, and a later one governs
its scene exactly when it is shadowed. -/
theorem bundlesFor_cases {sc : Scenario} {bundles : List Json} (h : bundlesFor sc = .ok bundles) :
    ∃ primary secondaries, bundles = .obj primary :: secondaries ∧ effectiveId primary ≠ "" ∧
      ((governing (effectiveId primary) secondaries).isSome = true ↔ sc.Shadowed) ∧
      ((nonEmptyObject? (Json.lookup (inlineOf primary) "defaults")).map Dict.ofList).getD .empty
        = sc.defaults := by
  unfold bundlesFor at h
  rcases hdecls : sc.bundles with _ | ⟨b, bs⟩
  · -- one bundle stands in for none
    rw [hdecls, if_pos rfl] at h
    obtain ⟨⟨sid, hash⟩, -, h⟩ := bind_eq_ok.mp h
    obtain ⟨state, -, h⟩ := bind_eq_ok.mp h
    cases h
    refine ⟨_, _, rfl, ?_, ?_, ?_⟩
    · rw [effectiveId_standIn]
      split
      · exact sc.name_ne
      · assumption
    · rw [Scenario.Shadowed, hdecls]
      exact iff_of_false Bool.false_ne_true id
    · rw [Scenario.defaults, hdecls]
      change ((nonEmptyObject? (Json.lookup (standInInline (state.getD [])) "defaults")).map
        Dict.ofList).getD .empty = .empty
      rw [lookup_standInInline _ (by decide)]
      rfl
  · rw [hdecls, if_neg (List.cons_ne_nil b bs)] at h
    cases h
    refine ⟨_, _, rfl, ?_, ?_, ?_⟩
    · rw [effectiveId_declared]
      exact b.sceneId_ne
    · rw [effectiveId_declared]
      exact governing_declared_iff hdecls
    · rw [Scenario.defaults, hdecls]
      rfl

end Bundles

/-- A state, set up: the seed if there is one, or else the defaults. -/
theorem stateOf_body {d : HTTPDriver} {name : PyStr} {bundles : List Json}
    {seed primary : List (PyStr × Json)} {defaults : Dict PyStr Json}
    (hdefaults : ((nonEmptyObject? (Json.lookup (inlineOf primary) "defaults")).map
      Dict.ofList).getD .empty = defaults) :
    stateOf (d.bodyOf name bundles (some seed)) primary
      = if seed = [] then defaults else Dict.ofList seed := by
  have hlookup : Json.lookup (d.bodyOf name bundles (some seed)) "initial_state"
      = some (.obj seed) := rfl
  rw [stateOf, seedOf, hlookup]
  rcases seed with _ | ⟨entry, entries⟩
  · rw [if_pos rfl]
    exact hdefaults
  · rw [if_neg (List.cons_ne_nil entry entries)]
    rfl

/-! ## What is compared

The expected state has the sentinels still in it.  Where the seed agrees with it, each leaf is
compared with itself, filled in. -/

section Matching

variable {tokens bundleHashes : Dict PyStr PyStr} {state : List (PyStr × Json)}

theorem isSentinel_iff {v : Json} :
    isSentinel v = true ↔ v = .str SENTINEL_ANY ∨ v = .str SENTINEL_ANY_HASH := by
  cases v with
  | str s => simp [isSentinel]
  | _ => exact iff_of_false nofun nofun

/-- Nothing matches an empty state but an expectation of nothing. -/
theorem matchesPairs_nil_iff : Json.MatchesPairs (substitutePairs tokens bundleHashes state) [] ↔
    state = [] := by
  rcases state with _ | ⟨⟨k, v⟩, rest⟩
  · exact iff_of_true trivial rfl
  · exact iff_of_false (fun ⟨⟨_, h, _⟩, _⟩ => nomatch h) (List.cons_ne_nil _ _)

/-- Sentinels are matched by what is there, or by the hashes that are there. -/
theorem matchesPairs_sentinels_iff {actual : Dict PyStr Json} (h : withoutSentinels state = []) :
    Json.MatchesPairs (substitutePairs tokens bundleHashes state) actual.entries ↔
      ∀ e ∈ state, ∃ w, actual.get? e.1 = some w ∧ (e.2 = .str SENTINEL_ANY ∨ w.IsHash) := by
  have hsentinel : ∀ e ∈ state, isSentinel e.2 = true := fun e he => by
    have hnot := List.filter_eq_nil_iff.mp h e he
    rwa [Bool.not_eq_true', Bool.not_eq_false] at hnot
  rw [Json.matchesPairs_iff, substitutePairs_eq_map, List.forall_mem_map]
  refine forall₂_congr fun e he => exists_congr fun w => and_congr Iff.rfl ?_
  rcases isSentinel_iff.mp (hsentinel e he) with hany | hhash
  · rw [hany, substitutePlaceholders, substituteText_sentinel _ _ (Or.inl rfl), matches_str_iff]
    exact iff_of_true (Or.inl rfl) (Or.inl rfl)
  · have hne : SENTINEL_ANY_HASH ≠ SENTINEL_ANY := by decide
    have hne' : Json.str SENTINEL_ANY_HASH ≠ .str SENTINEL_ANY := fun h => hne (Json.str.inj h)
    rw [hhash, substitutePlaceholders, substituteText_sentinel _ _ (Or.inr rfl), matches_str_iff,
      or_iff_right hne, or_iff_right hne', or_iff_left fun h => h.1 rfl, and_iff_right rfl]

/-- A seed is matched if nothing was left out of it and every value survives. -/
theorem matchesPairs_seed_iff (hdistinct : (Json.obj state).Distinct) :
    Json.MatchesPairs (substitutePairs tokens bundleHashes state) (withoutSentinels state) ↔
      ∀ e ∈ state, isSentinel e.2 = false ∧ e.2.Survives tokens bundleHashes := by
  have hkept : ∀ e ∈ state, isSentinel e.2 = false →
      Json.lookup (withoutSentinels state) e.1 = some e.2 := fun e he hnot => by
    have hnodup : ((withoutSentinels state).map Prod.fst).Nodup :=
      hdistinct.1.sublist (List.filter_sublist.map Prod.fst)
    have hmem : e ∈ withoutSentinels state := List.mem_filter.mpr ⟨he, by rw [hnot]; rfl⟩
    exact Dict.find_of_mem hnodup hmem
  rw [Json.matchesPairs_iff, substitutePairs_eq_map, List.forall_mem_map]
  refine forall₂_congr fun e he => ?_
  have hself : (substitutePlaceholders tokens bundleHashes e.2).Matches e.2 ↔
      e.2.Survives tokens bundleHashes :=
    Json.matches_substitute_iff (Json.everywherePairs_iff.mp hdistinct.2 e he)
  constructor
  · rintro ⟨w, hlookup, hmatch⟩
    obtain ⟨hmem, hnot⟩ := List.mem_filter.mp (Dict.mem_of_find hlookup)
    have hw : e.2 = w := by
      have hfound := Dict.find_of_mem hdistinct.1 he
      have hfound' := Dict.find_of_mem hdistinct.1 hmem
      exact Option.some.inj (hfound.symm.trans hfound')
    subst hw
    exact ⟨by simpa using hnot, hself.mp hmatch⟩
  · rintro ⟨hnot, hsurvives⟩
    exact ⟨e.2, hkept e he hnot, hself.mpr hsurvives⟩

end Matching

/-- What a scenario expects has each key once. -/
theorem Scenario.distinct_expectedState {sc : Scenario} {state : List (PyStr × Json)}
    (h : sc.expectedState = some state) : (Json.obj state).Distinct := by
  obtain ⟨step, -, hstate⟩ := Option.bind_eq_some_iff.mp h
  have hdistinct := step.distinct
  unfold Step.state? at hstate
  split at hstate
  · rename_i frame hframe
    rw [hframe] at hdistinct
    split at hstate
    · rename_i found hlookup
      cases hstate
      exact Json.everywherePairs_iff.mp hdistinct.2 _ (Dict.mem_of_find hlookup)
    · cases hstate
  · cases hstate

namespace HTTPDriver

section Setup

variable [PyRepr]

/-- A setup that succeeds was delivered, and accepted. -/
theorem setup_eq_ok {d : HTTPDriver} {p p' : ControlPlane} {name wsUrl : PyStr} {sc : Scenario}
    {tokens : Dict PyStr PyStr} (h : d.setup p name sc = (.ok (wsUrl, tokens), p')) :
    tokens = d.tokens ∧ ∃ body read id version, d.requestBody name sc = .ok body ∧
      d.post (.obj body) = some read ∧ p.setup (.ok read) = (.ok wsUrl id version, p') := by
  unfold setup at h
  split at h
  · cases h
  · rename_i body hbody
    split at h
    · cases h
    · rename_i read hread
      rw [Prod.mk.injEq] at h
      obtain ⟨hreceive, hp'⟩ := h
      rcases hanswer : (p.setup (.ok read)).1 with ⟨wsUrl', id, version⟩ | ⟨status, code, detail⟩ | _
      · rw [hanswer, receive] at hreceive
        split at hreceive
        · cases hreceive
        · cases hreceive
          exact ⟨rfl, body, read, id, version, hbody, hread, Prod.ext hanswer hp'⟩
      · rw [hanswer] at hreceive
        cases hreceive
      · rw [hanswer] at hreceive
        cases hreceive

/-- **What a server is seeded with**: nothing when the first bundle is shadowed, else the seed if
there is one, and else the defaults. -/
theorem firstSnapshot_of_setup {d : HTTPDriver} {p p' : ControlPlane} {name wsUrl : PyStr}
    {sc : Scenario} {tokens : Dict PyStr PyStr} {state : List (PyStr × Json)}
    (hpost : ∀ body read, d.post body = some read → read = body)
    (hstate : sc.expectedState = some state)
    (h : d.setup p name sc = (.ok (wsUrl, tokens), p')) :
    ∃ f, p'.kit.firstSnapshot = some f ∧ (sc.Shadowed → f.state = .empty) ∧
      (¬ sc.Shadowed → f.state = if withoutSentinels state = [] then sc.defaults
        else Dict.ofList (withoutSentinels state)) := by
  obtain ⟨-, body, read, id, version, hbody, hread, hsetup⟩ := setup_eq_ok h
  cases hpost _ _ hread
  obtain ⟨bundles, hbundles, hbody⟩ := bind_eq_ok.mp hbody
  obtain ⟨seed, hseed, hbody⟩ := bind_eq_ok.mp hbody
  cases hbody
  have hseed' : seed = some (withoutSentinels state) := by
    rw [extractInitialState_eq hseed]
    exact congrArg (Option.map withoutSentinels) hstate
  subst hseed'
  obtain ⟨primary, secondaries, rfl, hid, hshadowed, hdefaults⟩ := bundlesFor_cases hbundles
  have hbundlesOf : bundlesOf (d.bodyOf name (.obj primary :: secondaries)
      (some (withoutSentinels state))) = .arr (.obj primary :: secondaries) := rfl
  obtain ⟨c, hscene, hstore⟩ := ControlPlane.activeScene_of_setup hbundlesOf hid hsetup
  refine ⟨(p'.kit.objects.get c).snapshotFrame, ?_, fun hshadow => ?_, fun hshadow => ?_⟩
  · rw [Server.firstSnapshot, hscene]
    rfl
  · obtain ⟨bundle, hgoverning⟩ := Option.isSome_iff_exists.mp (hshadowed.mpr hshadow)
    rw [hgoverning] at hstore
    exact hstore
  · rw [← hshadowed, Bool.not_eq_true, Option.isSome_eq_false_iff,
      Option.isNone_iff_eq_none] at hshadow
    rw [hshadow, Option.elim_none, stateOf_body hdefaults] at hstore
    exact hstore

end Setup

end HTTPDriver

/-- **A server is failed by the harness's own seeding exactly when the scenario does not agree with
it.** -/
theorem HTTPDriver.seeding_agrees_iff [PyRepr] {d : HTTPDriver} {p p' : ControlPlane}
    {name wsUrl : PyStr} {sc : Scenario} {tokens : Dict PyStr PyStr} {state : List (PyStr × Json)}
    (hpost : ∀ body read, d.post body = some read → read = body)
    (hstate : sc.expectedState = some state)
    (h : d.setup p name sc = (.ok (wsUrl, tokens), p')) :
    ∃ f, p'.kit.firstSnapshot = some f ∧ ∀ path,
      (matchValue (substitutePlaceholders tokens sc.bundleHashes (.obj state))
        (.obj f.state.entries) path = .ok () ↔ sc.Agrees tokens state) := by
  obtain ⟨f, hf, hempty, hseeded⟩ := firstSnapshot_of_setup hpost hstate h
  refine ⟨f, hf, fun path => ?_⟩
  rw [matchValue_iff, substitutePlaceholders, Json.Matches, Scenario.Agrees]
  by_cases hshadow : sc.Shadowed
  · rw [hempty hshadow]
    refine matchesPairs_nil_iff.trans ⟨fun hnil => ⟨fun _ => hnil, ?_, ?_⟩, fun h => h.1 hshadow⟩
    · exact fun hnot => absurd hshadow hnot
    · exact fun hnot => absurd hshadow hnot
  · rw [hseeded hshadow]
    by_cases hseed : withoutSentinels state = []
    · rw [if_pos hseed, matchesPairs_sentinels_iff hseed]
      refine ⟨fun h => ⟨fun hs => absurd hs hshadow, fun _ _ => h, fun _ hne => absurd hseed hne⟩,
        fun h => h.2.1 hshadow hseed⟩
    · have hdistinct := Scenario.distinct_expectedState hstate
      have hnodup : ((withoutSentinels state).map Prod.fst).Nodup :=
        hdistinct.1.sublist (List.filter_sublist.map Prod.fst)
      have hentries : (Dict.ofList (withoutSentinels state)).entries = withoutSentinels state :=
        Dict.entries_update_of_fresh _ .empty hnodup
      rw [if_neg hseed, hentries, matchesPairs_seed_iff hdistinct]
      exact ⟨fun h => ⟨fun hs => absurd hs hshadow, fun _ heq => absurd heq hseed, fun _ _ => h⟩,
        fun h => h.2.2 hshadow hseed⟩

/-! ## Two scenarios -/

theorem nodup_snapshotKeys : (["type", "state"] : List PyStr).Nodup := by decide

/-- A scenario without bundles: the server sends a snapshot with this state. -/
def expecting (state : List (PyStr × Json)) (h : (Json.obj state).Distinct) : Scenario where
  name := "s"
  bundles := []
  steps := [⟨.serverSends, .obj [("type", .str "snapshot"), ("state", .obj state)],
    nodup_snapshotKeys, trivial, h, trivial⟩]
  name_ne := by decide

/-- A driver whose requests get there. -/
def HTTPDriver.direct : HTTPDriver := .new none some

/-- A server to be set up. -/
def remote : ControlPlane := { kit := {}, auth := some .empty, wsUrlHint := "ws://h" }

/-- A literal value. -/
def litState : List (PyStr × Json) := [("on", .bool true)]

/-- A literal value, and a sentinel beside it. -/
def mixedState : List (PyStr × Json) := [("on", .bool true), ("title", .str "$ANY")]

/-- A placeholder. -/
def tokenState : List (PyStr × Json) := [("who", .str "$TOKEN_VIEWER")]

theorem distinct_litState : (Json.obj litState).Distinct :=
  ⟨List.nodup_singleton _, trivial, trivial⟩

theorem distinct_mixedState : (Json.obj mixedState).Distinct := by
  have hnodup : (mixedState.map Prod.fst).Nodup := by decide
  exact ⟨hnodup, trivial, trivial, trivial⟩

theorem distinct_tokenState : (Json.obj tokenState).Distinct :=
  ⟨List.nodup_singleton _, trivial, trivial⟩

/-- The server is set up, and the snapshot it then sends is objected to. -/
def HTTPDriver.FailsItself [PyRepr] (state : List (PyStr × Json)) (h : (Json.obj state).Distinct)
    (seeded : List (PyStr × Json)) : Prop :=
  ∃ p' f, direct.setup remote "s" (expecting state h) = (.ok ("ws://h", canonicalInteropTokens), p') ∧
    p'.kit.firstSnapshot = some f ∧ f.state.entries = seeded ∧
    matchValue (substitutePlaceholders canonicalInteropTokens .empty (.obj state))
      (.obj f.state.entries) "state" ≠ .ok ()

/-- A literal value is seeded, and matched. -/
theorem HTTPDriver.seeding_agrees_iff_litState :
    letI := PyRepr.plain
    ∃ f, (direct.setup remote "s" (expecting _ distinct_litState)).2.kit.firstSnapshot = some f ∧
      matchValue (substitutePlaceholders canonicalInteropTokens .empty (.obj litState))
        (.obj f.state.entries) "state" = .ok () := by
  let := PyRepr.plain
  have hsetup : direct.setup remote "s" (expecting _ distinct_litState)
      = (.ok ("ws://h", canonicalInteropTokens),
        (direct.setup remote "s" (expecting _ distinct_litState)).2) := rfl
  have hstate : (expecting _ distinct_litState).expectedState = some litState := rfl
  obtain ⟨f, hf, hiff⟩ :=
    seeding_agrees_iff (fun _ _ h => (Option.some.inj h).symm) hstate hsetup
  have hseed : withoutSentinels litState ≠ [] := nofun
  refine ⟨f, hf, (hiff "state").mpr ⟨fun h => h.elim, fun _ h => absurd h hseed, ?_⟩⟩
  rintro - - e he
  rw [List.mem_singleton.mp he]
  exact ⟨rfl, trivial⟩

/-- A sentinel beside a literal value is left out of the seed, and then missed; a placeholder is
seeded as it is spelt, and compared with what it stands for. -/
theorem HTTPDriver.fails_mixedState_tokenState :
    letI := PyRepr.plain
    FailsItself mixedState distinct_mixedState litState ∧
      FailsItself tokenState distinct_tokenState tokenState := by
  let := PyRepr.plain
  refine ⟨⟨_, _, rfl, rfl, rfl, fun h => ?_⟩, ⟨_, _, rfl, rfl, rfl, fun h => ?_⟩⟩
  · obtain ⟨-, ⟨_, htitle, -⟩, -⟩ := matchValue_iff.mp h
    cases htitle
  · obtain ⟨⟨w, hw, hmatch⟩, -⟩ := matchValue_iff.mp h
    cases hw
    rcases matches_str_iff.mp hmatch with hany | ⟨hhash, -⟩ | ⟨-, heq⟩
    · exact absurd hany (by decide)
    · exact absurd hhash (by decide)
    · exact absurd (Json.str.inj heq) (by decide)

end Lumencast
