import Lumencast.Conformance.Recorded
import Lumencast.Interop.Identified
import Lumencast.Server.Queues

/-!
# Interop/Loop — the runner, the driver and the server

The other calls of the driver are requests of the control plane, whose answers it turns into
exceptions.  A `server-emits` step closes the loop: the driver has the patches of the step emitted,
and the runner expects the delta that the session is then sent.  `serverEmits_passes_iff` says for
which steps the kit's own delta is the expected one.
-/

namespace Lumencast

open Machinery

/-! ## The driver -/

/-- The status of an answer, and the `detail` in its body; `none` when the body is not JSON. -/
def Answer.status : Answer → ℕ × Option PyStr
  | .setup _ _ _ => (200, some "")
  | .noContent => (204, none)
  | .state _ _ _ => (200, some "")
  | .health _ _ _ => (200, some "")
  | .problem status _ detail => (status, some detail)
  | .serverError => (500, none)

/-- `_problem_error`. -/
def problemError (answer : Answer) (op : PyStr) : Exn where
  name := "RuntimeError"
  text :=
    let http := "harness: " ++ op ++ " HTTP " ++ toString answer.status.1
    match answer.status.2 with
    | some detail => http ++ ": " ++ detail
    | none => http

namespace HTTPDriver

variable [PyRepr] (d : HTTPDriver)

/-- `emit`; `lost` is what is raised when the request does not get there. -/
def emit (lost : Exn) (p : ControlPlane) (patches : List Json) : Awaited Unit × ControlPlane :=
  match d.post (.obj [("patches", .arr patches)]) with
  | none => (.raised lost, p)
  | some read =>
      match p.emit (.ok read) with
      | (.noContent, p') => (.returned (), p')
      | (answer, p') => (.raised (problemError answer "emit"), p')

/-- `snapshot_state`. -/
def snapshotState (p : ControlPlane) : Option (List (PyStr × Json)) :=
  match p.state.1 with
  | .state _ _ state => some state.entries
  | _ => none

end HTTPDriver

/-! ## What the runner is answered -/

namespace Bench

variable [PyRepr]

/-- The frame the session `i` is about to send, if its writer takes one out of its queue. -/
def next? (b : Bench) (i : ℕ) : Option Frame :=
  (((b.step (.wake i .dequeued)).sessions.get i).written.drop
    (b.sessions.get i).written.length).head?.map (·.frame)

/-- What a runner on the connection of the session `i` is answered, when it has `patches` emitted
and then waits for a frame; nothing was on its way before. -/
def repliesTo (b : Bench) (d : HTTPDriver) (lost : Exn) (shown : Frame → PyStr) (i : ℕ)
    (patches : List Json) : Replies where
  emit := (d.emit lost b.plane patches).1
  snapshot := .returned (HTTPDriver.snapshotState b.plane)
  received :=
    match ({ b with plane := (d.emit lost b.plane patches).2 } : Bench).next? i with
    | some f => .message (shown f) (.value (.obj (frameToDict f)))
    | none => .timeout

end Bench

/-! ## The patches of a step

A patch goes out as the scenario has it and comes back as the kit writes it.  What is lost on the
way is every field but the path and the value. -/

namespace Json

/-- A patch that comes back as it was emitted: a path that is a string and no sentinel, a value that
matches itself, and nothing else. -/
def ComesBack : Json → Prop
  | .obj kvs => ∀ e ∈ kvs, (e.1 = "path" ∧ ∃ s, e.2 = .str s ∧ s ≠ SENTINEL_ANY_HASH) ∨
      (e.1 = "value" ∧ e.2.Matches e.2)
  | _ => False

/-- A field of the expected delta that is not its patches. -/
def HeaderAt (seq : ℤ) (e : PyStr × Json) : Prop :=
  e.1 = "type" ∨ e.1 = "patches" ∨ (e.1 = "v" ∧ e.2.Matches (.int VERSION)) ∨
    (e.1 = "seq" ∧ e.2.Matches (.int seq))

/-- A path matches the text it is read as if it is a string, and no sentinel for a hash. -/
theorem matches_toStr_iff [PyRepr] {path : Json} :
    path.Matches (.str path.toStr) ↔ ∃ s, path = .str s ∧ s ≠ SENTINEL_ANY_HASH := by
  cases path with
  | str s =>
    refine matches_str_iff.trans ⟨fun h => ⟨s, rfl, ?_⟩, ?_⟩
    · rintro rfl
      rcases h with h | ⟨-, h⟩ | ⟨h, -⟩
      · exact absurd h (by decide)
      · change isSha256 SENTINEL_ANY_HASH = true at h
        exact absurd h (by decide)
      · exact h rfl
    · rintro ⟨s', hs, hne⟩
      cases hs
      exact Or.inr (Or.inr ⟨hne, rfl⟩)
  | null => exact iff_of_false (fun h => by cases matches_null.mp h) fun ⟨_, h, _⟩ => by cases h
  | bool b => exact iff_of_false (fun h => by cases matches_bool.mp h) fun ⟨_, h, _⟩ => by cases h
  | _ => exact iff_of_false (fun ⟨_, _, h⟩ => by cases h) fun ⟨_, h, _⟩ => by cases h

/-- A patch, next to what the kit sends of it. -/
theorem matches_patchToDict_iff [PyRepr] {kvs : List (PyStr × Json)} {path : Json}
    (hnodup : (kvs.map Prod.fst).Nodup) (hpath : lookup kvs "path" = some path) :
    (obj kvs).Matches (patchToDict
      { path := path.toStr, value := (lookup kvs "value").getD .null, transition := none }) ↔
      (obj kvs).ComesBack := by
  refine matchesPairs_iff.trans (forall₂_congr fun e he => ?_)
  have hfound : lookup kvs e.1 = some e.2 := Dict.find_of_mem hnodup he
  by_cases hp : e.1 = "path"
  · have hvalue : e.2 = path := by
      rw [hp, hpath, Option.some.injEq] at hfound
      exact hfound.symm
    rw [hp, hvalue]
    constructor
    · rintro ⟨w, hw, hmatches⟩
      cases hw
      exact Or.inl ⟨rfl, matches_toStr_iff.mp hmatches⟩
    · rintro (⟨-, hstr⟩ | ⟨hne, -⟩)
      · exact ⟨_, rfl, matches_toStr_iff.mpr hstr⟩
      · exact absurd hne (by decide)
  · by_cases hv : e.1 = "value"
    · have hvalue : (lookup kvs "value").getD .null = e.2 := by rw [← hv, hfound, Option.getD_some]
      rw [hv, hvalue]
      constructor
      · rintro ⟨w, hw, hmatches⟩
        cases hw
        exact Or.inr ⟨rfl, hmatches⟩
      · rintro (⟨hne, -⟩ | ⟨-, hmatches⟩)
        · exact absurd hne (by decide)
        · exact ⟨_, rfl, hmatches⟩
    · refine iff_of_false ?_ ?_
      · rintro ⟨w, hw, -⟩
        rcases List.mem_cons.mp (Dict.mem_of_find hw) with heq | hmem
        · exact hp (congrArg Prod.fst heq)
        · exact hv (congrArg Prod.fst (List.mem_singleton.mp hmem))
      · rintro (⟨hp', -⟩ | ⟨hv', -⟩)
        · exact hp hp'
        · exact hv hv'

variable [PyRepr] in
theorem matchesItems_wire_iff : ∀ {ps : List Json} {entries : List (PyStr × Json)},
    (∀ kvs, obj kvs ∈ ps → (kvs.map Prod.fst).Nodup) → readPatches ps = some entries →
    (MatchesItems ps ((Scene.wirePatches entries).map patchToDict) ↔ ∀ p ∈ ps, p.ComesBack)
  | [], entries, _, h => by
      cases h
      exact iff_of_true trivial (List.forall_mem_nil _)
  | p :: ps, entries, hnodup, h => by
      cases p with
      | obj kvs =>
        rw [readPatches] at h
        rcases hpath : lookup kvs "path" with _ | path
        · rw [hpath] at h
          cases h
        · rw [hpath] at h
          obtain ⟨rest, hrest, rfl⟩ := Option.map_eq_some_iff.mp h
          rw [List.forall_mem_cons,
            ← matchesItems_wire_iff (fun kvs hmem => hnodup kvs (List.mem_cons_of_mem _ hmem)) hrest,
            ← matches_patchToDict_iff (hnodup kvs List.mem_cons_self) hpath]
          rfl
      | _ => cases h

theorem length_eq_of_matchesItems : ∀ {xs ys : List Json}, MatchesItems xs ys →
    xs.length = ys.length
  | [], [], _ => rfl
  | _ :: _, _ :: _, h => congrArg Nat.succ (length_eq_of_matchesItems h.2)

end Json

theorem length_readPatches [PyRepr] : ∀ {ps : List Json} {entries : List (PyStr × Json)},
    readPatches ps = some entries → entries.length = ps.length
  | [], _, h => by
      cases h
      rfl
  | p :: ps, _, h => by
      cases p with
      | obj kvs =>
        rw [readPatches] at h
        split at h
        · cases h
        · obtain ⟨rest, hrest, rfl⟩ := Option.map_eq_some_iff.mp h
          exact congrArg Nat.succ (length_readPatches hrest)
      | _ => cases h

/-- A batch that loses nothing as a dictionary names no key twice. -/
theorem nodup_of_length_ofList {es : List (PyStr × Json)}
    (h : (Dict.ofList es).entries.length = es.length) : (es.map Prod.fst).Nodup := by
  have hsub : (Dict.ofList es).keys.Subperm (es.map Prod.fst) :=
    (Dict.ofList es).nodup.subperm fun _ hk => Dict.mem_keys_ofList.mp hk
  have hlength : (es.map Prod.fst).length ≤ (Dict.ofList es).keys.length := by
    rw [Dict.keys, List.length_map, List.length_map, h]
  exact (hsub.perm_of_length_le hlength).nodup_iff.mp (Dict.ofList es).nodup

/-- **The patches come back** when no path is named twice, and each patch does. -/
theorem matches_emitted_iff [PyRepr] {ps : List Json} {entries : List (PyStr × Json)}
    (hnodup : ∀ kvs, .obj kvs ∈ ps → (kvs.map Prod.fst).Nodup)
    (h : readPatches ps = some entries) :
    Json.MatchesItems ps ((Scene.wirePatches (Dict.ofList entries).entries).map patchToDict) ↔
      (entries.map Prod.fst).Nodup ∧ ∀ p ∈ ps, p.ComesBack := by
  have hentries : ∀ hn : (entries.map Prod.fst).Nodup, (Dict.ofList entries).entries = entries :=
    fun hn => congrArg Dict.entries (Dict.ofList_entries ⟨entries, hn⟩)
  constructor
  · intro hmatches
    have hlength := Json.length_eq_of_matchesItems hmatches
    rw [List.length_map, Scene.wirePatches, List.length_map, ← length_readPatches h] at hlength
    have hn := nodup_of_length_ofList hlength.symm
    rw [hentries hn] at hmatches
    exact ⟨hn, (Json.matchesItems_wire_iff hnodup h).mp hmatches⟩
  · rintro ⟨hn, hback⟩
    rw [hentries hn]
    exact (Json.matchesItems_wire_iff hnodup h).mpr hback

/-! ## The delta that is expected -/

section Expected

variable {tokens bundleHashes : Dict PyStr PyStr} {kvs : List (PyStr × Json)}

theorem lookup_substitutePairs (k : PyStr) : Json.lookup (substitutePairs tokens bundleHashes kvs) k
    = (Json.lookup kvs k).map (substitutePlaceholders tokens bundleHashes) := by
  induction kvs with
  | nil => rfl
  | cons e kvs ih =>
    rw [substitutePairs, Json.lookup, Json.lookup, Dict.find, Dict.find]
    split
    · rfl
    · exact ih

theorem keys_substitutePairs :
    (substitutePairs tokens bundleHashes kvs).map Prod.fst = kvs.map Prod.fst := by
  rw [substitutePairs_eq_map, List.map_map]
  rfl

theorem substituteItems_eq_map (ps : List Json) : substituteItems tokens bundleHashes ps
    = ps.map (substitutePlaceholders tokens bundleHashes) := by
  induction ps with
  | nil => rfl
  | cons p ps ih => rw [substituteItems, ih, List.map_cons]

/-- **A delta is as expected** when its header and its patches are. -/
theorem matches_delta_iff {ps : List Json} (hnodup : (kvs.map Prod.fst).Nodup)
    (hdelta : isDelta kvs = true) (hpatches : Json.lookup kvs "patches" = some (.arr ps))
    (wire : List Patch) (seq : ℤ) :
    Json.MatchesPairs (substitutePairs tokens bundleHashes kvs)
        (frameToDict (.delta { patches := wire, seq := seq })) ↔
      (∀ e ∈ substitutePairs tokens bundleHashes kvs, Json.HeaderAt seq e) ∧
        Json.MatchesItems (substituteItems tokens bundleHashes ps) (wire.map patchToDict) := by
  have htype : Json.lookup (substitutePairs tokens bundleHashes kvs) "type"
      = some (.str "delta") := by
    rw [lookup_substitutePairs]
    unfold isDelta at hdelta
    split at hdelta
    · rename_i t ht
      rw [ht, of_decide_eq_true hdelta]
      rfl
    · cases hdelta
  have harr : Json.lookup (substitutePairs tokens bundleHashes kvs) "patches"
      = some (.arr (substituteItems tokens bundleHashes ps)) := by
    rw [lookup_substitutePairs, hpatches]
    rfl
  have hfound : ∀ e ∈ substitutePairs tokens bundleHashes kvs,
      Json.lookup (substitutePairs tokens bundleHashes kvs) e.1 = some e.2 := fun e he =>
    Dict.find_of_mem (by rw [keys_substitutePairs]; exact hnodup) he
  have hframe : ∀ {k : PyStr} {w : Json},
      Json.lookup (frameToDict (.delta { patches := wire, seq := seq })) k = some w →
      (k = "v" ∧ w = .int VERSION) ∨ (k = "type" ∧ w = .str FRAME_DELTA) ∨
        (k = "seq" ∧ w = .int seq) ∨ (k = "patches" ∧ w = .arr (wire.map patchToDict)) := by
    intro k w hw
    have hmem := Dict.mem_of_find hw
    simpa [frameToDict, envelope, pair, pairIf, pairSome, Json.truthy] using hmem
  rw [Json.matchesPairs_iff]
  constructor
  · intro h
    refine ⟨fun e he => ?_, ?_⟩
    · obtain ⟨w, hw, hmatches⟩ := h e he
      rcases hframe hw with ⟨hk, rfl⟩ | ⟨hk, rfl⟩ | ⟨hk, rfl⟩ | ⟨hk, rfl⟩
      · exact Or.inr (Or.inr (Or.inl ⟨hk, hmatches⟩))
      · exact Or.inl hk
      · exact Or.inr (Or.inr (Or.inr ⟨hk, hmatches⟩))
      · exact Or.inr (Or.inl hk)
    · obtain ⟨w, hw, hmatches⟩ := h _ (Dict.mem_of_find harr)
      cases hw
      exact hmatches
  · rintro ⟨hheader, hitems⟩ e he
    rcases hheader e he with hk | hk | ⟨hk, hmatches⟩ | ⟨hk, hmatches⟩
    · have hvalue := hfound e he
      rw [hk, htype, Option.some.injEq] at hvalue
      rw [hk, ← hvalue]
      exact ⟨_, rfl, Or.inr (Or.inr ⟨by decide, rfl⟩)⟩
    · have hvalue := hfound e he
      rw [hk, harr, Option.some.injEq] at hvalue
      rw [hk, ← hvalue]
      exact ⟨_, rfl, hitems⟩
    · rw [hk]
      exact ⟨_, rfl, hmatches⟩
    · rw [hk]
      exact ⟨_, rfl, hmatches⟩

end Expected

/-! ## The loop is closed

The emission, the delivery and the comparison are put one after another here.  The client waits,
so what is emitted is what it is sent next. -/

namespace Bench

variable [PyRepr]

/-- A writer that waits sends the frame that waits for it. -/
theorem next?_eq_some {b : Bench} {i : ℕ} {l : Locals} {ls : Loops} {letter : Letter}
    (hphase : (b.sessions.get i).phase = .running l ls) (hwriter : ls.writer = .getting)
    (hqueue : (b.plane.kit.subs.get l.sub).queue.items = [some letter]) :
    b.next? i = some letter.frame := by
  obtain ⟨sub, hget, -⟩ : ∃ sub, (b.world.kit.subs.get l.sub).dequeue = some (some letter, sub) ∧
      sub.queue.items = [] := Subscription.dequeue_of_items hqueue
  have hphase' : (b.world.sessions.get i).phase = .running l ls := hphase
  have hstep : (b.world.sessions.get i).step? b.world.kit .dequeued
      = some (some (.dequeue l.sub), (b.sessions.get i).take l ls (some letter)) := by
    rw [Session.step?_running hphase', Session.loop, if_pos hwriter, hget]
    rfl
  have hsession : (b.world.step (.session i .dequeued)).sessions.get i
      = (b.sessions.get i).take l ls (some letter) := by
    rw [World.step_session hstep]
    exact Heap.get_modify_self b.sessions i fun _ => _
  have hwritten : ((b.step (.wake i .dequeued)).sessions.get i).written
      = (b.sessions.get i).written ++ [⟨letter.frame, some letter.issuer⟩] := by
    change ((b.settle i (b.world.step (.session i .dequeued))).sessions.get i).written = _
    rw [b.settle_of_ne (by rw [hsession]; exact (fun f hf => by cases hf)), hsession]
    rfl
  rw [next?, hwritten, List.drop_left]
  rfl

/-- What a driver's emission comes to. -/
theorem emit_of_post {d : HTTPDriver} {ps : List Json}
    (hpost : d.post (.obj [("patches", .arr ps)]) = some (.obj [("patches", .arr ps)])) (lost : Exn)
    (p : ControlPlane) :
    (∃ patches c, ControlPlane.patchesOf (.ok (.obj [("patches", .arr ps)])) = some patches ∧
      p.kit.activeScene = some c ∧
      d.emit lost p ps = (.returned (), { p with kit := p.kit.post c patches none })) ∨
    ((ControlPlane.patchesOf (.ok (.obj [("patches", .arr ps)])) = none ∨
      p.kit.activeScene = none) ∧ ∃ e p', d.emit lost p ps = (.raised e, p')) := by
  rw [HTTPDriver.emit, hpost]
  rcases p.emit_cases (.ok (.obj [("patches", .arr ps)])) with
    ⟨patches, c, hpatches, -, hactive, hemit⟩ | ⟨hnot, hne, -⟩
  · refine Or.inl ⟨patches, c, hpatches, hactive, ?_⟩
    dsimp only
    rw [hemit]
  · refine Or.inr ⟨hnot, ?_⟩
    dsimp only
    generalize p.emit (.ok (.obj [("patches", .arr ps)])) = answer at hne ⊢
    rcases answer with ⟨_ | _ | _ | _ | _ | _, p'⟩
    case noContent => exact absurd rfl hne
    all_goals exact ⟨_, _, rfl⟩

theorem patchesOf_eq_some_iff {ps : List Json} {patches : Dict PyStr Json} :
    ControlPlane.patchesOf (.ok (.obj [("patches", .arr ps)])) = some patches ↔
      ps ≠ [] ∧ ∃ entries, readPatches ps = some entries ∧ patches = .ofList entries := by
  cases ps with
  | nil => exact iff_of_false (fun h => by cases h) fun h => h.1 rfl
  | cons p ps =>
    change (readPatches (p :: ps)).map .ofList = some patches ↔ _
    rw [Option.map_eq_some_iff, and_iff_right (List.cons_ne_nil p ps)]
    exact exists_congr fun entries => and_congr_right fun _ => eq_comm

/-- A bench after an emission. -/
def posted (b : Bench) (c : SceneRef) (patches : Dict PyStr Json) : Bench :=
  { b with plane := { b.plane with kit := b.plane.kit.post c patches none } }

/-- **The delta comes to an idle client as it was emitted**, numbered next. -/
theorem next?_posted {b : Bench} (hwf : b.world.Wf) {i : ℕ} {l : Locals} {ls : Loops} {c : SceneRef}
    (hphase : (b.sessions.get i).phase = .running l ls) (hwriter : ls.writer = .getting)
    (hidle : (b.plane.kit.subs.get l.sub).queue.items = [])
    (howns : b.plane.kit.Owns c l.sub) (patches : Dict PyStr Json) :
    (b.posted c patches).next? i = some (.delta
      { patches := Scene.wirePatches patches.entries,
        seq := (b.plane.kit.objects.get c).currentSeq + 1 }) := by
  have hroom : (b.plane.kit.subs.get l.sub).HasRoom := by
    have hmax : (b.plane.kit.subs.get l.sub).queue.maxsize = QUEUE_MAXSIZE :=
      hwf.kit.maxsize_eq l.sub
    rw [Subscription.HasRoom, BoundedQueue.HasRoom, hidle, hmax]
    decide
  have hqueue : ((b.posted c patches).plane.kit.subs.get l.sub).queue.items
      = [some (((b.plane.kit.objects.get c).emitted patches none).deltaLetter
        (Scene.wirePatches patches.entries) none)] := by
    change ((b.plane.kit.post c patches none).subs.get l.sub).queue.items = _
    rw [Server.sub_post, if_pos howns, Scene.queue_deliver, if_pos hroom, hidle, List.nil_append]
  exact next?_eq_some (b := b.posted c patches) hphase hwriter hqueue

section Step

variable {tokens bundleHashes : Dict PyStr PyStr} {ps : List Json}

/-- The loop over the patches passes when each of them is an object. -/
theorem patchesToEmit_eq (h : ∃ entries, readPatches (substituteItems tokens bundleHashes ps)
    = some entries) :
    patchesToEmit tokens bundleHashes ps = .ok (substituteItems tokens bundleHashes ps) := by
  induction ps with
  | nil => rfl
  | cons p ps ih =>
    obtain ⟨entries, hentries⟩ := h
    cases p with
    | obj kvs =>
      rw [substituteItems, substitutePlaceholders, readPatches] at hentries
      split at hentries
      · cases hentries
      · obtain ⟨rest, hrest, -⟩ := Option.map_eq_some_iff.mp hentries
        rw [patchesToEmit, ih ⟨rest, hrest⟩]
        rfl
    | _ => cases hentries

/-- A `server-emits` step, when nothing is drained. -/
theorem runStep_serverEmits {step : PlayStep} (hkind : step.kind = .serverEmits)
    {kvs : List (PyStr × Json)} (hframe : step.frame = .obj kvs) (hdelta : isDelta kvs = true)
    (hpatches : Json.lookup kvs "patches" = some (.arr ps)) {r : Replies}
    (hdrained : r.drained = .timeout) (p : Play) : runStep tokens bundleHashes step r p
      = (patchesToEmit tokens bundleHashes ps).bind fun patches => r.emit.get.bind fun _ =>
        expectServerFrame tokens bundleHashes (.obj kvs)
          { p with emitted := p.emitted ++ [patches] } r.received := by
  rw [runStep, hkind]
  dsimp only
  rw [hdrained, hframe]
  change serverEmits tokens bundleHashes (.obj kvs) r p = _
  rw [serverEmits, if_pos hdelta, hpatches]
  rfl

/-- **A `server-emits` step passes against the kit exactly when its patches come back.**  The client
is idle and served from the active scene, and what the driver posts gets there.  Then the step
passes if it has a patch, no path is named twice, each patch has nothing but a path and a value that
match themselves, and of a delta it expects nothing else than a type, a version and the next
number. -/
theorem serverEmits_passes_iff (hint : PyStr) (es : List BenchEvent) {i : ℕ} {l : Locals}
    {ls : Loops} {c : SceneRef} (hphase : ((after hint es).sessions.get i).phase = .running l ls)
    (hwriter : ls.writer = .getting)
    (hidle : ((after hint es).plane.kit.subs.get l.sub).queue.items = [])
    (hactive : (after hint es).plane.kit.activeScene = some c)
    (howns : (after hint es).plane.kit.Owns c l.sub)
    {d : HTTPDriver} (hpost : d.post (.obj [("patches", .arr (substituteItems tokens bundleHashes
      ps))]) = some (.obj [("patches", .arr (substituteItems tokens bundleHashes ps))]))
    (lost : Exn) (shown : Frame → PyStr)
    {step : PlayStep} (hkind : step.kind = .serverEmits) {kvs : List (PyStr × Json)}
    (hframe : step.frame = .obj kvs) (hdelta : isDelta kvs = true)
    (hpatches : Json.lookup kvs "patches" = some (.arr ps)) (p : Play) :
    (∃ q, runStep tokens bundleHashes step ((after hint es).repliesTo d lost shown i
      (substituteItems tokens bundleHashes ps)) p = .ok q) ↔
    ps ≠ [] ∧
    (∃ entries, readPatches (substituteItems tokens bundleHashes ps) = some entries ∧
      (entries.map Prod.fst).Nodup) ∧
    (∀ patch ∈ substituteItems tokens bundleHashes ps, patch.ComesBack) ∧
    ∀ e ∈ substitutePairs tokens bundleHashes kvs,
      Json.HeaderAt (((after hint es).plane.kit.objects.get c).currentSeq + 1) e := by
  have hwf := wf_after hint es
  generalize after hint es = b at *
  rw [runStep_serverEmits hkind hframe hdelta hpatches rfl]
  have hdistinct := step.distinct
  rw [hframe] at hdistinct
  have hnodup : ∀ kvs, .obj kvs ∈ substituteItems tokens bundleHashes ps →
      (kvs.map Prod.fst).Nodup := by
    intro kvs' hmem
    rw [substituteItems_eq_map, List.mem_map] at hmem
    obtain ⟨v, hv, hobj⟩ := hmem
    have hitems := Json.everywherePairs_iff.mp hdistinct.2 _ (Dict.mem_of_find hpatches)
    have hpatch := everywhereItems_iff.mp hitems.2 v hv
    cases v with
    | obj kvs =>
      cases hobj
      rw [keys_substitutePairs]
      exact hpatch.1
    | _ => cases hobj
  have hempty : ps ≠ [] ↔ substituteItems tokens bundleHashes ps ≠ [] := by
    rw [substituteItems_eq_map, Ne, Ne, List.map_eq_nil_iff]
  rcases emit_of_post hpost lost b.plane with
    ⟨patches, c', hread, hactive', hemit⟩ | ⟨hnot, e, p', hemit⟩
  · cases hactive.symm.trans hactive'
    obtain ⟨hne, entries, hentries, rfl⟩ := patchesOf_eq_some_iff.mp hread
    have hreceived : (b.repliesTo d lost shown i (substituteItems tokens bundleHashes ps)).received
        = .message (shown (.delta
            { patches := Scene.wirePatches (Dict.ofList entries).entries,
              seq := (b.plane.kit.objects.get c).currentSeq + 1 }))
          (.value (.obj (frameToDict (.delta
            { patches := Scene.wirePatches (Dict.ofList entries).entries,
              seq := (b.plane.kit.objects.get c).currentSeq + 1 })))) := by
      have hnext := next?_posted hwf hphase hwriter hidle howns (Dict.ofList entries)
      rw [repliesTo, hemit]
      dsimp only
      change (match (b.posted c (Dict.ofList entries)).next? i with
        | some f => Recv.message (shown f) (.value (.obj (frameToDict f)))
        | none => .timeout) = _
      rw [hnext]
    have hreplied : (b.repliesTo d lost shown i
        (substituteItems tokens bundleHashes ps)).emit.get = .ok () := by
      rw [repliesTo, hemit]
      rfl
    rw [patchesToEmit_eq ⟨entries, hentries⟩, hreceived, hreplied]
    generalize hdelta' : Delta.mk (Scene.wirePatches (Dict.ofList entries).entries)
      ((b.plane.kit.objects.get c).currentSeq + 1) (.str "") none = delta
    have hpasses : ∀ p : Play, (∃ q, expectServerFrame tokens bundleHashes (.obj kvs) p
        (.message (shown (.delta delta)) (.value (.obj (frameToDict (.delta delta))))) = .ok q) ↔
        compareFrame tokens bundleHashes (.obj kvs) (shown (.delta delta))
          (frameToDict (.delta delta)) = .ok () := by
      intro p
      constructor
      · rintro ⟨q, hq⟩
        obtain ⟨_, hcompare, -⟩ := bind_eq_ok.mp hq
        exact hcompare
      · intro hcompare
        have habsorbed : ∃ q, p.absorb (frameToDict (.delta delta)) = .ok q := by
          rw [Play.absorb, absorb_frameToDict]
          exact ⟨_, rfl⟩
        obtain ⟨q, hq⟩ := habsorbed
        exact ⟨q, bind_eq_ok.mpr ⟨(), hcompare, hq⟩⟩
    refine (hpasses _).trans ?_
    rw [compareFrame_iff, ← hdelta', matches_delta_iff hdistinct.1 hdelta hpatches,
      matches_emitted_iff hnodup hentries]
    constructor
    · rintro ⟨hheader, hn, hback⟩
      exact ⟨hempty.mpr hne, ⟨entries, hentries, hn⟩, hback, hheader⟩
    · rintro ⟨-, ⟨entries', hentries', hn⟩, hback, hheader⟩
      cases hentries.symm.trans hentries'
      exact ⟨hheader, hn, hback⟩
  · refine iff_of_false ?_ ?_
    · rintro ⟨q, hq⟩
      obtain ⟨patches, -, hq⟩ := bind_eq_ok.mp hq
      rw [repliesTo, hemit] at hq
      cases hq
    · rintro ⟨hne, ⟨entries, hentries, -⟩, -⟩
      rcases hnot with hnone | hnone
      · have hsome := patchesOf_eq_some_iff.mpr ⟨hempty.mp hne, entries, hentries, rfl⟩
        cases hnone.symm.trans hsome
      · cases hnone.symm.trans hactive

end Step

end Bench

namespace Bench

/-- A client that was sent its snapshot, and is idle. -/
def idleRun : List BenchEvent := driverRun.take 5

/-- The score goes live. -/
def scorePatches : List Json := [.obj [("path", .str "live"), ("value", .bool true)]]

/-- A step that has a score emitted, and a delta expected of any number. -/
def scoreStep : PlayStep where
  kind := .serverEmits
  frame := .obj [("type", .str "delta"), ("seq", .str "$ANY"), ("patches", .arr scorePatches)]
  distinct := by
    have hkeys : ([("type", .str "delta"), ("seq", .str "$ANY"), ("patches", .arr scorePatches)] :
      List (PyStr × Json)).Pairwise fun e e' => e.1 ≠ e'.1 := by decide
    have hpatch : ([("path", .str "live"), ("value", .bool true)] :
      List (PyStr × Json)).Pairwise fun e e' => e.1 ≠ e'.1 := by decide
    exact ⟨List.pairwise_map.mpr hkeys, trivial, trivial,
      ⟨trivial, ⟨List.pairwise_map.mpr hpatch, trivial, trivial, trivial⟩, trivial⟩, trivial⟩

theorem serverEmits_passes_scoreStep : ∃ q, @runStep .plain .empty .empty scoreStep
    (@repliesTo .plain (@after .plain "ws" idleRun) (.new none some) ⟨"", ""⟩ (fun _ => "") 0
      (substituteItems .empty .empty scorePatches)) {} = .ok q := by
  refine (@serverEmits_passes_iff .plain .empty .empty scorePatches "ws" idleRun 0
    ⟨0, 0, _⟩ _ 0 rfl rfl rfl rfl (by decide) (.new none some) rfl ⟨"", ""⟩
    (fun _ => "") scoreStep rfl _ rfl rfl rfl {}).mpr ⟨by decide, ⟨_, rfl, by decide⟩, ?_, ?_⟩
  · intro patch hpatch
    cases List.mem_singleton.mp hpatch
    intro e he
    rcases List.mem_cons.mp he with rfl | he
    · exact Or.inl ⟨rfl, "live", rfl, by decide⟩
    · cases List.mem_singleton.mp he
      exact Or.inr ⟨rfl, Json.matches_bool.mpr rfl⟩
  · intro e he
    rcases List.mem_cons.mp he with rfl | he
    · exact Or.inl rfl
    rcases List.mem_cons.mp he with rfl | he
    · exact Or.inr (Or.inr (Or.inr ⟨rfl, matches_str_iff.mpr (Or.inl rfl)⟩))
    · cases List.mem_singleton.mp he
      exact Or.inr (Or.inl rfl)

end Bench

end Lumencast
