import Lumencast.Conformance.Runner
import Lumencast.Machinery.Improves
import Lumencast.Protocol.RoundTrip

/-!
# Conformance/Growth — a server that says more

A later server may add fields to its frames, and leaves to its state.  `Playback.Grows` relates the
answers of two environments, one of which says more than the other; with it the runner sends and has
emitted the same, and its shadow knows more.  So no scenario fails that did not fail before
(`runScenarios_grows`).
-/

namespace Lumencast

open Machinery

/-- The same value, or one with more fields. -/
def Json.Extends (v w : Json) : Prop := v = w ∨ v.Grows w

/-- Every leaf is still there, with the same value or a grown one. -/
def GrowsState (d d' : Dict PyStr Json) : Prop :=
  ∀ k v, d.get? k = some v → ∃ w, d'.get? k = some w ∧ v.Extends w

/-! ## Environments that say more

Growth is a relation between answers: the same call is answered by the same frame with more in
it, and by the same failure otherwise. -/

/-- The same, or a frame of the kit with more fields. -/
inductive Recv.Grows : Recv → Recv → Prop
  | same (r : Recv) : Grows r r
  | more (f : Frame) (shown shown' : PyStr) {frame' : List (PyStr × Json)}
      (hgrows : Json.GrowsPairs (frameToDict f) frame') (hdistinct : (Json.obj frame').Distinct) :
      Grows (.message shown (.value (.obj (frameToDict f)))) (.message shown' (.value (.obj frame')))

/-- The same, or a state with more leaves and fields. -/
inductive GrowsSnapshot :
    Awaited (Option (List (PyStr × Json))) → Awaited (Option (List (PyStr × Json))) → Prop
  | same (a : Awaited (Option (List (PyStr × Json)))) : GrowsSnapshot a a
  | more {state state' : List (PyStr × Json)} (h : Json.GrowsPairs state state') :
      GrowsSnapshot (.returned (some state)) (.returned (some state'))

structure Replies.Grows (r r' : Replies) : Prop where
  send : r'.send = r.send
  drained : r.drained.Grows r'.drained
  received : r.received.Grows r'.received
  emit : r'.emit = r.emit
  snapshot : GrowsSnapshot r.snapshot r'.snapshot
  sleep : r'.sleep = r.sleep

structure Playback.Grows (env env' : Playback) : Prop where
  setup : env'.setup = env.setup
  dial : env'.dial = env.dial
  replies : ∀ i, (env.replies i).Grows (env'.replies i)

/-- The same was asked of the server, and the shadow knows more. -/
structure Play.Grows (p p' : Play) : Prop where
  shadow : GrowsState p.shadow p'.shadow
  sent : p'.sent = p.sent
  emitted : p'.emitted = p.emitted

/-- A scenario that ends early by failing. -/
def Stop.Failure (s : Stop) : Prop := ∃ e, s = .failed e

theorem failure_match [PyRepr] (context : PyStr → PyStr) (e : MatchError) :
    (e.stop context).Failure := by
  cases e <;> exact ⟨_, rfl⟩

/-! ## The shadow -/

namespace GrowsState

variable {d d' : Dict PyStr Json}

theorem set (h : GrowsState d d') (k : PyStr) {v w : Json} (hvw : v.Extends w) :
    GrowsState (d.set k v) (d'.set k w) := by
  intro k' v' hv'
  by_cases hk : k' = k
  · subst hk
    rw [Dict.get?_set_self, Option.some.injEq] at hv'
    exact ⟨w, Dict.get?_set_self .., hv' ▸ hvw⟩
  · rw [Dict.get?_set_of_ne _ _ hk] at hv'
    rw [Dict.get?_set_of_ne _ _ hk]
    exact h k' v' hv'

theorem of_pairs {kvs' : List (PyStr × Json)} (hnodup : (kvs'.map Prod.fst).Nodup)
    (h : Json.GrowsPairs d.entries kvs') : GrowsState d (Dict.ofList kvs') := by
  intro k v hv
  obtain ⟨w, hw, hgrows⟩ := Json.growsPairs_iff.mp h (k, v) (Dict.mem_of_find hv)
  refine ⟨w, ?_, Or.inr hgrows⟩
  rw [Dict.ofList, Dict.get?_update _ _ _ hnodup, show Dict.find k kvs' = some w from hw,
    Option.some_or]

variable [PyRepr]

theorem absorbPatch (h : GrowsState d d') (v : Json) :
    GrowsState (absorbPatch d v) (absorbPatch d' v) := by
  cases v with
  | obj kvs =>
    rw [Lumencast.absorbPatch, Lumencast.absorbPatch]
    split
    · exact h.set _ (Or.inl rfl)
    · exact h
  | _ => exact h

theorem foldl_absorbPatch : ∀ (ps : List Json) {d d' : Dict PyStr Json}, GrowsState d d' →
    GrowsState (ps.foldl Lumencast.absorbPatch d) (ps.foldl Lumencast.absorbPatch d')
  | [], _, _, h => h
  | p :: ps, _, _, h => foldl_absorbPatch ps (h.absorbPatch p)

/-- A patch with more fields still sets the leaf it names. -/
theorem absorbPatch_grown (h : GrowsState d d') {p : Patch} {w : Json}
    (hw : (patchToDict p).Grows w) :
    GrowsState (d.set p.path p.value) (Lumencast.absorbPatch d' w) := by
  cases w with
  | obj kvs' =>
    have hpairs := Json.growsPairs_iff.mp hw
    obtain ⟨path, hpath, hgrows⟩ := hpairs ("path", .str p.path) List.mem_cons_self
    obtain ⟨value, hvalue, hgrows'⟩ := hpairs ("value", p.value)
      (List.mem_cons_of_mem _ List.mem_cons_self)
    rw [Json.grows_str hgrows] at hpath
    rw [Lumencast.absorbPatch, show Json.lookup kvs' "path" = _ from hpath,
      show Json.lookup kvs' "value" = _ from hvalue]
    exact h.set p.path (Or.inr hgrows')
  | _ => cases hw

theorem foldl_absorbPatch_grown : ∀ {ps : List Patch} {ws : List Json} {d d' : Dict PyStr Json},
    GrowsState d d' → Json.GrowsItems (ps.map patchToDict) ws →
    GrowsState (d.update (ps.map fun p => (p.path, p.value))) (ws.foldl Lumencast.absorbPatch d')
  | [], [], _, _, h, _ => h
  | _ :: ps, _ :: ws, _, _, h, hw =>
      @foldl_absorbPatch_grown ps ws _ _ (h.absorbPatch_grown hw.1) hw.2

end GrowsState

section Absorb

/-- A field that is there is still there, grown. -/
theorem lookup_grown {f : Frame} {frame' : List (PyStr × Json)}
    (hgrows : Json.GrowsPairs (frameToDict f) frame') {k : PyStr} {v : Json}
    (hv : Json.lookup (frameToDict f) k = some v) :
    ∃ w, Json.lookup frame' k = some w ∧ v.Grows w :=
  Json.growsPairs_iff.mp hgrows (k, v) (Dict.mem_of_find hv)

variable [PyRepr]

/-- **A frame that says more leaves a shadow that knows more.** -/
theorem absorb_grown {f : Frame} {frame' : List (PyStr × Json)}
    (hgrows : Json.GrowsPairs (frameToDict f) frame') (hdistinct : (Json.obj frame').Distinct)
    {d d' : Dict PyStr Json} (h : GrowsState d d') :
    ∃ e', absorbServerFrame frame' d' = some e' ∧ GrowsState (shadowAfter d f) e' := by
  have htype : Json.lookup frame' "type" = some (.str f.tag) := by
    obtain ⟨t, ht, hstr⟩ := lookup_grown hgrows (envelope_frameToDict f).2
    rw [ht, Json.grows_str hstr]
  have hother : f.tag ≠ FRAME_SNAPSHOT → f.tag ≠ FRAME_DELTA →
      absorbServerFrame frame' d' = some d' := fun hs hd => by
    rw [absorbServerFrame, htype]
    dsimp only
    rw [if_neg hs, if_neg hd]
  cases f with
  | snapshot f =>
    obtain ⟨state, hstate, hobj⟩ := lookup_grown hgrows
      (k := "state") (v := .obj f.state.entries) rfl
    cases state with
    | obj kvs' =>
      have hnodup : (kvs'.map Prod.fst).Nodup := by
        have hinner := Json.everywherePairs_iff.mp hdistinct.2 _ (Dict.mem_of_find hstate)
        exact hinner.1
      refine ⟨Dict.ofList kvs', ?_, GrowsState.of_pairs hnodup hobj⟩
      rw [absorbServerFrame, htype]
      dsimp only [Frame.tag]
      rw [if_pos rfl, hstate, Option.getD_some]
      cases kvs' with
      | nil => rfl
      | cons e es => rfl
    | _ => cases hobj
  | delta f =>
    obtain ⟨patches, hpatches, harr⟩ := lookup_grown hgrows
      (k := "patches") (v := .arr (f.patches.map patchToDict)) rfl
    cases patches with
    | arr ws =>
      refine ⟨ws.foldl absorbPatch d', ?_, GrowsState.foldl_absorbPatch_grown h harr⟩
      rw [absorbServerFrame, htype]
      dsimp only [Frame.tag]
      rw [if_neg (by decide), if_pos rfl, hpatches, Option.getD_some, iterate_arr, Option.map_some]
    | _ => cases harr
  | _ => exact ⟨d', hother (by rw [Frame.tag]; decide) (by rw [Frame.tag]; decide), h⟩

/-- The same frame, mirrored into a shadow that knows more. -/
theorem absorb_same (frame : List (PyStr × Json)) {d d' e : Dict PyStr Json} (h : GrowsState d d')
    (he : absorbServerFrame frame d = some e) :
    ∃ e', absorbServerFrame frame d' = some e' ∧ GrowsState e e' := by
  unfold absorbServerFrame at he ⊢
  split at he
  · split at he
    · rename_i hs
      rw [if_pos hs]
      dsimp only at he ⊢
      split at he
      · cases he
        exact ⟨_, rfl, fun k v hv => ⟨v, hv, Or.inl rfl⟩⟩
      · cases he
        exact ⟨_, rfl, h⟩
    · rename_i hs
      rw [if_neg hs]
      split at he
      · rename_i hd
        rw [if_pos hd]
        obtain ⟨items, hitems, rfl⟩ := Option.map_eq_some_iff.mp he
        dsimp only
        rw [hitems]
        exact ⟨_, rfl, GrowsState.foldl_absorbPatch items h⟩
      · rename_i hd
        rw [if_neg hd]
        cases he
        exact ⟨_, rfl, h⟩
  · cases he
    exact ⟨_, rfl, h⟩

end Absorb

/-! ## A step

A step that passes goes on passing.  One that fails may pass, since what it missed may be there
now; so the relation is one-sided. -/

section Steps

theorem matchValue_extends {u v w : Json} {path : PyStr} (hvw : v.Extends w)
    (h : matchValue u v path = .ok ()) : matchValue u w path = .ok () := by
  rcases hvw with rfl | hvw
  · exact h
  · exact matchValue_iff.mpr (Json.matches_of_grows (matchValue_iff.mp h) hvw)

theorem improves_expectNoFrame (secs : PyStr) {r r' : Recv} (hr : r.Grows r') :
    Improves Stop.Failure (fun _ _ => True) (expectNoFrame secs r) (expectNoFrame secs r') := by
  cases hr with
  | same r => exact Improves.refl (fun _ => trivial) _
  | more f shown shown' hgrows hdistinct => exact .spared ⟨_, rfl⟩ _

/-- A check that leaves the play as it is. -/
theorem improves_check {p p' : Play} (h : p.Grows p') {x x' : Except Stop Unit}
    (hx : Improves Stop.Failure (fun _ _ => True) x x') :
    Improves Stop.Failure Play.Grows (x.map fun _ => p) (x'.map fun _ => p') :=
  hx.map fun _ _ _ => h

variable [PyRepr]

/-- A comparison that may be spared its failure, not its success. -/
theorem improves_match {context context' : PyStr → PyStr} {x x' : Except MatchError Unit}
    (h : x = .ok () → x' = .ok ()) : Improves Stop.Failure (fun _ _ => True)
      (x.mapError (MatchError.stop context)) (x'.mapError (MatchError.stop context')) := by
  rcases x with e | _
  · exact .spared (failure_match context e) _
  · rw [h rfl]
    exact .ok trivial

theorem improves_expectPairs {noun : PyStr} {find find' : PyStr → Option Json}
    (hfind : ∀ k v, find k = some v → ∃ w, find' k = some w ∧ v.Extends w)
    (kvs : List (PyStr × Json)) : Improves Stop.Failure (fun _ _ => True)
      (expectPairs noun find kvs) (expectPairs noun find' kvs) := by
  induction kvs with
  | nil => exact .ok trivial
  | cons e kvs ih =>
    obtain ⟨k, v⟩ := e
    rw [expectPairs, expectPairs]
    rcases hk : find k with _ | w
    · exact .spared ⟨_, rfl⟩ _
    · obtain ⟨w', hw', hextends⟩ := hfind k w hk
      rw [hw']
      exact (improves_match (matchValue_extends hextends)).bind fun _ _ _ => ih

theorem improves_expectState (noun : PyStr) {find find' : PyStr → Option Json}
    (hfind : ∀ k v, find k = some v → ∃ w, find' k = some w ∧ v.Extends w) (state : Json) :
    Improves Stop.Failure (fun _ _ => True) (expectState noun find state)
      (expectState noun find' state) := by
  cases state with
  | obj kvs => exact improves_expectPairs hfind kvs
  | _ => exact .same _

variable {tokens bundleHashes : Dict PyStr PyStr} {p p' : Play}

theorem Play.Grows.absorb_same (h : p.Grows p') (frame : List (PyStr × Json)) :
    Improves Stop.Failure Play.Grows (p.absorb frame) (p'.absorb frame) := by
  rw [Play.absorb, Play.absorb]
  rcases he : absorbServerFrame frame p.shadow with _ | e
  · exact .spared ⟨_, rfl⟩ _
  · obtain ⟨e', he', hgrows⟩ := Lumencast.absorb_same frame h.shadow he
    rw [he']
    exact .ok ⟨hgrows, h.sent, h.emitted⟩

theorem Play.Grows.absorb_grown (h : p.Grows p') {f : Frame} {frame' : List (PyStr × Json)}
    (hgrows : Json.GrowsPairs (frameToDict f) frame') (hdistinct : (Json.obj frame').Distinct) :
    Improves Stop.Failure Play.Grows (p.absorb (frameToDict f)) (p'.absorb frame') := by
  obtain ⟨e', he', hshadow⟩ := Lumencast.absorb_grown hgrows hdistinct h.shadow
  rw [Play.absorb, Play.absorb, absorb_frameToDict, he']
  exact .ok ⟨hshadow, h.sent, h.emitted⟩

theorem improves_compareFrame (expected : Json) (shown shown' : PyStr) {f : Frame}
    {frame' : List (PyStr × Json)} (hgrows : Json.GrowsPairs (frameToDict f) frame') :
    Improves Stop.Failure (fun _ _ => True)
      (compareFrame tokens bundleHashes expected shown (frameToDict f))
      (compareFrame tokens bundleHashes expected shown' frame') := by
  rw [compareFrame, compareFrame]
  split
  · refine improves_match fun h => ?_
    exact matchFrame_iff.mpr
      (Json.matchesPairs_of_grows (matchFrame_iff.mp h) (Json.growsPairs_iff.mp hgrows))
  · exact .same _

/-- A frame that is expected. -/
theorem improves_expectServerFrame (expected : Json) (h : p.Grows p') {r r' : Recv}
    (hr : r.Grows r') : Improves Stop.Failure Play.Grows
      (expectServerFrame tokens bundleHashes expected p r)
      (expectServerFrame tokens bundleHashes expected p' r') := by
  cases hr with
  | same r =>
    rcases r with ⟨shown, v | e | e⟩ | _ | ⟨code, e⟩ | e | _
    · cases v with
      | obj actual =>
        rw [expectServerFrame, expectServerFrame]
        rcases compareFrame tokens bundleHashes expected shown actual with e | _
        · exact .same e
        · exact h.absorb_same actual
      | _ => exact .same _
    all_goals exact .same _
  | more f shown shown' hgrows hdistinct =>
    exact (improves_compareFrame expected shown shown' hgrows).bind
      fun _ _ _ => h.absorb_grown hgrows hdistinct

/-- A frame that may come first. -/
theorem improves_drainOneFrame (h : p.Grows p') {r r' : Recv} (hr : r.Grows r') :
    Improves Stop.Failure Play.Grows (drainOneFrame p r) (drainOneFrame p' r') := by
  cases hr with
  | same r =>
    rcases r with ⟨shown, v | e | e⟩ | _ | ⟨code, e⟩ | e | _
    · cases v with
      | obj actual => exact h.absorb_same actual
      | _ => exact .ok h
    · exact .ok h
    · exact .same _
    · exact .ok h
    all_goals exact .same _
  | more f shown shown' hgrows hdistinct => exact h.absorb_grown hgrows hdistinct

theorem improves_serverEmits (frame : Json) (h : p.Grows p') {r r' : Replies} (hr : r.Grows r') :
    Improves Stop.Failure Play.Grows (serverEmits tokens bundleHashes frame r p)
      (serverEmits tokens bundleHashes frame r' p') := by
  cases frame with
  | obj kvs =>
    rw [serverEmits, serverEmits]
    split
    · rcases (Json.lookup kvs "patches").getD (.arr []) with _ | _ | _ | _ | _ | ps | _
      case arr =>
        refine (Improves.refl (fun _ => rfl) (patchesToEmit tokens bundleHashes ps)).bind ?_
        rintro patches _ rfl
        rw [hr.emit]
        refine (@Improves.refl _ _ _ (fun _ _ => True) (fun _ => trivial) r.emit.get).bind
          fun _ _ _ => ?_
        have hemitted : Play.Grows { p with emitted := p.emitted ++ [patches] }
            { p' with emitted := p'.emitted ++ [patches] } :=
          ⟨h.shadow, h.sent, congrArg (· ++ [patches]) h.emitted⟩
        exact improves_expectServerFrame (.obj kvs) hemitted hr.received
      all_goals exact .same _
    · exact .same _
  | _ => exact .same _

theorem improves_expectClientAction (action : PyStr) {r r' : Recv} (hr : r.Grows r') :
    Improves Stop.Failure (fun _ _ => True) (expectClientAction action r)
      (expectClientAction action r') := by
  cases hr with
  | same r => exact Improves.refl (fun _ => trivial) _
  | more f shown shown' hgrows hdistinct =>
    rw [expectClientAction, expectClientAction]
    split
    · exact .spared ⟨_, rfl⟩ _
    · exact .same _

/-- **One step, whatever its kind.** -/
theorem improves_runStep (step : PlayStep) (h : p.Grows p') {r r' : Replies} (hr : r.Grows r') :
    Improves Stop.Failure Play.Grows (runStep tokens bundleHashes step r p)
      (runStep tokens bundleHashes step r' p') := by
  rw [runStep, runStep]
  split
  · rw [hr.send]
    rcases r.send.get with e | _
    · exact .same e
    · refine .ok ⟨h.shadow, ?_, h.emitted⟩
      exact congrArg (· ++ [substitutePlaceholders tokens bundleHashes step.frame]) h.sent
  · exact improves_expectServerFrame step.frame h hr.received
  · exact (improves_drainOneFrame h hr.drained).bind fun q q' hq =>
      improves_serverEmits step.frame hq hr
  · exact improves_check h (improves_expectState _ h.shadow step.state)
  · have hshadow := improves_check h (improves_expectState "server" h.shadow step.state)
    generalize hsnap : r.snapshot = snapshot
    generalize hsnap' : r'.snapshot = snapshot'
    have hgrows := hr.snapshot
    rw [hsnap, hsnap'] at hgrows
    cases hgrows with
    | same =>
      rcases snapshot.get with e | _ | state
      · exact .same e
      · exact hshadow
      · exact improves_check h
          (improves_expectState _ (fun k v hv => ⟨v, hv, Or.inl rfl⟩) step.state)
    | @more state state' hgrows =>
      refine improves_check h (improves_expectState _ (fun k v hv => ?_) step.state)
      obtain ⟨w, hw, hvw⟩ := Json.growsPairs_iff.mp hgrows (k, v) (Dict.mem_of_find hv)
      exact ⟨w, hw, Or.inr hvw⟩
  · exact improves_check h (improves_expectNoFrame step.secs hr.received)
  · exact improves_check h (improves_expectClientAction step.action hr.received)
  · rw [hr.sleep]
    rcases r.sleep.get with e | _
    · exact .same e
    · exact .ok h
  · exact .same _

/-- **All steps**, the shadow of one run knowing more from step to step. -/
theorem improves_runSteps : ∀ (steps : List PlayStep) {replies replies' : ℕ → Replies}
    {p p' : Play}, (∀ i, (replies i).Grows (replies' i)) → p.Grows p' →
    Improves Stop.Failure Play.Grows (runSteps tokens bundleHashes steps replies p)
      (runSteps tokens bundleHashes steps replies' p')
  | [], _, _, _, _, _, h => .ok h
  | step :: steps, _, _, _, _, hr, h =>
      (improves_runStep step h (hr 0)).bind fun _ _ hq =>
        improves_runSteps steps (fun i => hr (i + 1)) hq

theorem improves_runOne (sc : Script) {env env' : Playback} (h : env.Grows env') :
    Improves Stop.Failure Play.Grows (runOne sc env) (runOne sc env') := by
  rw [runOne, runOne, h.setup, h.dial]
  rcases env.setup.get with e | tokens
  · exact .same e
  · rcases env.dial.get with e | _
    · exact .same e
    · exact improves_runSteps sc.steps h.replies
        ⟨(fun k v hv => by cases hv), rfl, rfl⟩

end Steps

/-! ## A whole suite -/

section Suite

theorem foldl_add_results : ∀ (rs : List Result) (rep : Report),
    (rs.foldl Report.add rep).results = rep.results ++ rs ∧
      (rs.foldl Report.add rep).failed
        = rep.failed + rs.countP fun r => decide (r.outcome = .fail)
  | [], rep => ⟨(List.append_nil _).symm, rfl⟩
  | r :: rs, rep => by
      obtain ⟨hresults, hfailed⟩ := foldl_add_results rs (rep.add r)
      rw [List.foldl_cons, hresults, hfailed, List.countP_cons]
      refine ⟨List.append_assoc .., ?_⟩
      rw [Report.add]
      simp only [decide_eq_true_eq]
      omega

variable [PyRepr] {cfg : Config}

/-- A scenario that did not fail is judged as it was. -/
theorem resultOf_grows (sc : Script) {env env' : Playback} (h : env.Grows env') :
    (resultOf cfg sc env).outcome = .fail ∨ resultOf cfg sc env' = resultOf cfg sc env := by
  rw [resultOf, resultOf]
  rcases cfg.skips sc with _ | reason
  · have himproves := improves_runOne sc h
    generalize runOne sc env = x at himproves ⊢
    generalize runOne sc env' = x' at himproves ⊢
    rcases himproves with _ | _ | hfailure
    · exact Or.inr rfl
    · exact Or.inr rfl
    · obtain ⟨e, rfl⟩ := hfailure
      exact Or.inl rfl
  · exact Or.inr rfl

theorem runScenarios_eq (runs : List (Script × Playback)) : runScenarios cfg runs
    = (runs.map fun x => resultOf cfg x.1 x.2).foldl Report.add {} := by
  rw [runScenarios, List.foldl_map]

/-- **A server that says more passes what was passed.**  If each scenario is played by an
environment that says at least as much, a scenario that passes asks the same of the server, each
result that was no failure is the same, and no more scenarios fail than did. -/
theorem runScenarios_grows {runs runs' : List (Script × Playback)}
    (h : List.Forall₂ (fun x x' => x'.1 = x.1 ∧ x.2.Grows x'.2) runs runs') :
    List.Forall₂ (fun x x' => ∀ p, runOne x.1 x.2 = .ok p → ∃ p', runOne x'.1 x'.2 = .ok p' ∧
      p'.sent = p.sent ∧ p'.emitted = p.emitted) runs runs' ∧
    List.Forall₂ (fun r r' => r.outcome = .fail ∨ r' = r)
      (runScenarios cfg runs).results (runScenarios cfg runs').results ∧
    (runScenarios cfg runs').failed ≤ (runScenarios cfg runs).failed ∧
    ((runScenarios cfg runs).exitCode = 0 → (runScenarios cfg runs').exitCode = 0) := by
  have hresults : List.Forall₂ (fun r r' : Result => r.outcome = .fail ∨ r' = r)
      (runs.map fun x => resultOf cfg x.1 x.2) (runs'.map fun x => resultOf cfg x.1 x.2) := by
    rw [List.forall₂_map_left_iff, List.forall₂_map_right_iff]
    refine h.imp fun x x' hx => ?_
    rw [hx.1]
    exact resultOf_grows x.1 hx.2
  have hfailed : ∀ {rs rs' : List Result},
      List.Forall₂ (fun r r' : Result => r.outcome = .fail ∨ r' = r) rs rs' →
      rs'.countP (fun r => decide (r.outcome = .fail))
        ≤ rs.countP fun r => decide (r.outcome = .fail) := by
    intro rs rs' hrs
    induction hrs with
    | nil => exact le_rfl
    | @cons r r' rs rs' hr hrs ih =>
      rw [List.countP_cons, List.countP_cons]
      rcases hr with hr | rfl
      · rw [if_pos (decide_eq_true hr)]
        split <;> omega
      · omega
  have hfewer := hfailed hresults
  rw [runScenarios_eq, runScenarios_eq]
  obtain ⟨hleft, hleft'⟩ := foldl_add_results (runs.map fun x => resultOf cfg x.1 x.2) {}
  obtain ⟨hright, hright'⟩ := foldl_add_results (runs'.map fun x => resultOf cfg x.1 x.2) {}
  refine ⟨h.imp fun x x' hx p hp => ?_, ?_, ?_, fun hzero => ?_⟩
  · have himproves := improves_runOne x.1 hx.2
    rw [hp] at himproves
    obtain ⟨p', hp', hgrows⟩ := himproves.of_ok
    exact ⟨p', hx.1 ▸ hp', hgrows.sent, hgrows.emitted⟩
  · rw [hleft, hright]
    exact hresults
  · rw [hleft', hright']
    omega
  · rw [Report.exitCode, hleft'] at hzero
    rw [Report.exitCode, hright']
    split at hzero
    · rw [if_pos]
      omega
    · cases hzero

end Suite

/-! ## One leaf more -/

/-- A snapshot of one leaf. -/
def litSnapshot : Frame := .snapshot
  { sceneId := .str "a", sceneVersion := .str "v1", state := .ofList litState, seq := 1 }

/-- One leaf more. -/
def litStateGrown : List (PyStr × Json) := [("on", .bool true), ("hue", .int 7)]

/-- The snapshot as a later server may send it. -/
def litSnapshotGrown : List (PyStr × Json) :=
  [("v", .int 1), ("type", .str "snapshot"), ("seq", .int 1), ("scene_id", .str "a"),
    ("scene_version", .str "v1"), ("state", .obj litStateGrown),
    ("epoch", .int 3)]

theorem distinct_litSnapshotGrown : (Json.obj litSnapshotGrown).Distinct := by
  have hkeys : (litSnapshotGrown.map Prod.fst).Nodup := by decide
  have hleaves : (litStateGrown.map Prod.fst).Nodup := by decide
  exact ⟨hkeys, trivial, trivial, trivial, trivial, trivial, ⟨hleaves, trivial, trivial, trivial⟩,
    trivial, trivial⟩

theorem growsPairs_litSnapshotGrown :
    Json.GrowsPairs (frameToDict litSnapshot) litSnapshotGrown :=
  ⟨⟨_, rfl, rfl⟩, ⟨_, rfl, rfl⟩, ⟨_, rfl, rfl⟩, ⟨_, rfl, rfl⟩, ⟨_, rfl, rfl⟩,
    ⟨_, rfl, ⟨_, rfl, rfl⟩, trivial⟩, trivial⟩

/-- A step that expects a snapshot, and one that then expects its leaf. -/
def watchSteps : List PlayStep :=
  [{ kind := .serverSends, frame := .obj [("type", .str "snapshot")],
     distinct := ⟨List.nodup_singleton _, trivial, trivial⟩ },
   { kind := .expectRuntimeState, frame := .obj [], distinct := ⟨List.nodup_nil, trivial⟩,
     state := .obj litState }]

def watching : Script where
  scenario :=
    { name := "watch", bundles := [], steps := watchSteps.map PlayStep.toStep,
      name_ne := by decide }
  steps := watchSteps
  steps_eq := rfl

/-- An environment that sends one frame over and over. -/
def sending (frame : List (PyStr × Json)) : Playback where
  setup := .returned .empty
  replies _ := { received := .message "" (.value (.obj frame)) }

theorem grows_sending : (sending (frameToDict litSnapshot)).Grows (sending litSnapshotGrown) where
  setup := rfl
  dial := rfl
  replies _ :=
    { send := rfl, drained := .same _, emit := rfl, snapshot := .same _, sleep := rfl,
      received := .more litSnapshot "" "" growsPairs_litSnapshotGrown distinct_litSnapshotGrown }

theorem runScenarios_grows_watching :
    letI := PyRepr.plain
    (runScenarios {} [(watching, sending litSnapshotGrown)]).exitCode = 0 := by
  let := PyRepr.plain
  have hgrows : List.Forall₂ (fun x x' : Script × Playback => x'.1 = x.1 ∧ x.2.Grows x'.2)
      [(watching, sending (frameToDict litSnapshot))] [(watching, sending litSnapshotGrown)] :=
    .cons ⟨rfl, grows_sending⟩ .nil
  exact (runScenarios_grows hgrows).2.2.2 rfl

end Lumencast
