import Lumencast.Server.Constraint
import Lumencast.Server.Scene

/-!
# Server/Atomic — an input is committed whole or not at all

`apply_input` looks at the patches in order.  `Objection` says what there is to object to in one of
them; the first patch with an objection decides the answer, and then nothing has changed.  Otherwise
the batch is committed (`Committed`): the store is overlaid by the patches one by one, and what is
remembered and sent is the batch with each path once, `deduplicated`.
-/

namespace Lumencast

open Machinery

/-- A batch with each path once, where it first turns up, with the last value it is given. -/
def deduplicated (patches : List Patch) : List Patch :=
  (patches.map (·.path)).eraseDups.filterMap fun path =>
    (patches.reverse.find? fun p => p.path = path).map fun p => ⟨path, p.value, none⟩

namespace Scene

/-- **What there is to object to in a patch**: the namespace is not the client's to write, or the
path is not an input, or the value is outside its domain, in this order. -/
inductive Objection (sc : Scene) (identity : Identity) (p : Patch) : Refusal → Prop
  | forbidden (hwrite : identity.canWrite p.path = false) :
      Objection sc identity p (.writeForbidden p.path)
  | unknown (hwrite : identity.canWrite p.path = true)
      (hpath : sc.acceptsInputPath identity.role p.path = false) :
      Objection sc identity p (.unknownPath p.path)
  | invalid {spec : InputSpec} {v : Violation} (hwrite : identity.canWrite p.path = true)
      (hpath : sc.acceptsInputPath identity.role p.path = true)
      (hspec : sc.declaredInputs.get? p.path = some spec)
      (hvalue : checkConstraint spec p.value = .ok (some v)) :
      Objection sc identity p (.invalidValue p.path v)

/-- What a committed input leaves. -/
structure Committed (sc : Scene) (subs : Subs) (patches : List Patch) (cause : Option Cause)
    (sc' : Scene) (subs' : Subs) : Prop where
  /-- The patches, one after the other. -/
  store : sc'.store.state = sc.store.state.update (patches.map fun p => (p.path, p.value))
  counter : sc'.currentSeq = sc.currentSeq + 1
  record : sc'.replay = sc.replay.push ⟨sc.currentSeq + 1, deduplicated patches, cause⟩
  rest : sc' = { sc with store := sc'.store, seq := sc'.seq, replay := sc'.replay }
  /-- A subscriber with room has one more frame waiting, the delta. -/
  sent : ∀ r ∈ sc.subscribers, (subs.get r).HasRoom → ∃ msg : Letter,
    (subs'.get r).queue.items = (subs.get r).queue.items ++ [some msg] ∧
      msg.frame = .delta
        { patches := deduplicated patches, seq := sc.currentSeq + 1, cause := cause }
  /-- One without takes nothing, and is marked. -/
  overflow : ∀ r ∈ sc.subscribers, ¬ (subs.get r).HasRoom →
    (subs'.get r).queue.items = (subs.get r).queue.items ∧ (subs'.get r).stale = true
  others : ∀ r, r ∉ sc.subscribers → subs'.get r = subs.get r

end Scene

/-! ## The batch as a map -/

theorem find_of_patches (path : PyStr) : ∀ patches : List Patch,
    Dict.find path (patches.map fun p => (p.path, p.value))
      = (patches.find? fun p => p.path = path).map (·.value)
  | [] => rfl
  | p :: ps => by
      rw [List.map_cons, Dict.find, List.find?_cons]
      by_cases h : p.path = path
      · simp [h]
      · simp [h, find_of_patches path ps]

/-- **What an emission of the batch sends.** -/
theorem wirePatches_asDict (patches : List Patch) :
    Scene.wirePatches (Scene.asDict patches).entries = deduplicated patches := by
  rw [Scene.wirePatches, Scene.asDict, Dict.entries_ofList, deduplicated, List.map_filterMap,
    List.map_map]
  refine congrArg₂ List.filterMap (funext fun path => ?_) rfl
  rw [← List.map_reverse, find_of_patches, Option.map_map, Option.map_map]
  rfl

/-! ## One patch

The checks of a patch are made in a fixed order.  `Objection` is that order as one definition,
with the constraint read off the spec. -/

/-- Only the check of a number can raise. -/
theorem checkConstraint_isOk_of_type {spec : InputSpec} (ht : spec.type ≠ "number")
    (value : Json) : ∃ err, checkConstraint spec value = .ok err := by
  unfold checkConstraint
  rw [if_neg ht]
  by_cases hs : spec.type = "string"
  · rw [if_pos hs]
    rcases value with _ | b | n | x | s | xs | kvs <;> exact ⟨_, rfl⟩
  rw [if_neg hs]
  by_cases hb : spec.type = "boolean"
  · rw [if_pos hb]
    rcases value with _ | b | n | x | s | xs | kvs <;> exact ⟨_, rfl⟩
  rw [if_neg hb]
  by_cases he : spec.type = "enum"
  · rw [if_pos he]
    rcases value with _ | b | n | x | s | xs | kvs <;> exact ⟨_, rfl⟩
  · rw [if_neg he]
    exact ⟨_, rfl⟩

/-- A check of a value in range does not raise. -/
theorem checkConstraint_isOk (spec : InputSpec) {value : Json}
    (hrange : ∀ n, value = .int n → (PyFloat.ofInt n).isSome = true) :
    ∃ err, checkConstraint spec value = .ok err := by
  by_cases ht : spec.type = "number"
  · rw [checkConstraint_number ht]
    rcases value with _ | b | n | x | s | xs | kvs
    case int =>
      obtain ⟨x, hx⟩ := Option.isSome_iff_exists.mp (hrange n rfl)
      rw [toNumber_int hx]
      exact ⟨_, rfl⟩
    all_goals exact ⟨_, rfl⟩
  · exact checkConstraint_isOk_of_type ht value

namespace Scene

/-- **The check of a patch finds the objection to it**, unless the check of its value raises. -/
theorem checkPatch_eq (sc : Scene) (identity : Identity) {p : Patch}
    (hcheck : ∀ spec, sc.declaredInputs.get? p.path = some spec →
      ∃ err, checkConstraint spec p.value = .ok err) :
    ∃ answer, sc.checkPatch identity p = .ok answer ∧
      ∀ refusal, answer = some refusal ↔ sc.Objection identity p refusal := by
  unfold checkPatch
  by_cases hwrite : identity.canWrite p.path = true
  swap
  · rw [Bool.not_eq_true] at hwrite
    rw [hwrite, Bool.not_false, if_pos rfl]
    refine ⟨_, rfl, fun refusal => ⟨?_, ?_⟩⟩
    · rintro ⟨⟩
      exact .forbidden hwrite
    · rintro (_ | ⟨hw, _⟩ | ⟨hw, _, _, _⟩)
      · rfl
      all_goals exact absurd (hw.symm.trans hwrite) (by decide)
  rw [hwrite, Bool.not_true, if_neg Bool.false_ne_true]
  by_cases hpath : sc.acceptsInputPath identity.role p.path = true
  swap
  · rw [Bool.not_eq_true] at hpath
    rw [hpath, Bool.not_false, if_pos rfl]
    refine ⟨_, rfl, fun refusal => ⟨?_, ?_⟩⟩
    · rintro ⟨⟩
      exact .unknown hwrite hpath
    · rintro (hw | _ | ⟨_, hp, _, _⟩)
      · exact absurd (hw.symm.trans hwrite) (by decide)
      · rfl
      · exact absurd (hp.symm.trans hpath) (by decide)
  rw [hpath, Bool.not_true, if_neg Bool.false_ne_true]
  rcases hspec : sc.declaredInputs.get? p.path with _ | spec
  · refine ⟨none, rfl, fun refusal => ⟨fun h => (by cases h), ?_⟩⟩
    rintro (hw | ⟨_, hp⟩ | ⟨_, _, hs, _⟩)
    · exact absurd (hw.symm.trans hwrite) (by decide)
    · exact absurd (hp.symm.trans hpath) (by decide)
    · exact absurd (hs.symm.trans hspec) (by simp)
  · obtain ⟨err, herr⟩ := hcheck spec hspec
    dsimp only
    rw [herr]
    refine ⟨_, rfl, fun refusal => ⟨fun h => ?_, ?_⟩⟩
    · obtain ⟨v, rfl, rfl⟩ := Option.map_eq_some_iff.mp h
      exact .invalid hwrite hpath hspec herr
    · rintro (hw | ⟨_, hp⟩ | ⟨_, _, hs, hv⟩)
      · exact absurd (hw.symm.trans hwrite) (by decide)
      · exact absurd (hp.symm.trans hpath) (by decide)
      · cases hspec.symm.trans hs
        cases herr.symm.trans hv
        rfl

/-- What an objection says is wrong, in the order of priority. -/
theorem Objection.code_eq {sc : Scene} {identity : Identity} {p : Patch} {refusal : Refusal}
    (h : sc.Objection identity p refusal) : refusal.path = some p.path ∧ refusal.code =
      if identity.canWrite p.path = false then .writeForbidden
      else if sc.acceptsInputPath identity.role p.path = false then .unknownPath
      else .invalidValue := by
  cases h with
  | forbidden hwrite => exact ⟨rfl, (if_pos hwrite).symm⟩
  | unknown hwrite hpath =>
      rw [hwrite, if_neg Bool.noConfusion, if_pos hpath]
      exact ⟨rfl, rfl⟩
  | invalid hwrite hpath _ _ =>
      rw [hwrite, if_neg Bool.noConfusion, hpath, if_neg Bool.noConfusion]
      exact ⟨rfl, rfl⟩

/-! ## The patches in order -/

/-- Patches nothing is objected to are passed over. -/
theorem checkPatches_append {sc : Scene} {identity : Identity} (post : List Patch) :
    ∀ {pre : List Patch}, (∀ q ∈ pre, ∀ n, q.value = .int n → (PyFloat.ofInt n).isSome = true) →
      (∀ q ∈ pre, ∀ refusal, ¬ sc.Objection identity q refusal) →
        sc.checkPatches identity (pre ++ post) = sc.checkPatches identity post
  | [], _, _ => rfl
  | q :: pre, hrange, hnone => by
      obtain ⟨answer, hcheck, hanswer⟩ := checkPatch_eq sc identity fun spec _ =>
        checkConstraint_isOk spec (hrange q List.mem_cons_self)
      have hq : answer = none := Option.eq_none_iff_forall_ne_some.mpr fun refusal h =>
        hnone q List.mem_cons_self refusal ((hanswer refusal).mp h)
      rw [List.cons_append, checkPatches, hcheck, hq]
      exact checkPatches_append post (fun q' hq' => hrange q' (List.mem_cons_of_mem q hq'))
        fun q' hq' => hnone q' (List.mem_cons_of_mem q hq')

/-- The first patch with an objection decides. -/
theorem checkPatches_of_objection {sc : Scene} {identity : Identity} {p : Patch}
    {refusal : Refusal} (post : List Patch)
    (hrange : ∀ n, p.value = .int n → (PyFloat.ofInt n).isSome = true)
    (h : sc.Objection identity p refusal) :
    sc.checkPatches identity (p :: post) = .ok (some refusal) := by
  obtain ⟨answer, hcheck, hanswer⟩ :=
    checkPatch_eq sc identity fun spec _ => checkConstraint_isOk spec hrange
  rw [checkPatches, hcheck, (hanswer refusal).mpr h]

/-! ## The commitment -/

/-- **An emission of the batch is its commitment.** -/
theorem committed_emitted (sc : Scene) (subs : Subs) (patches : List Patch)
    (cause : Option Cause) : sc.Committed subs patches cause (sc.emitted (asDict patches) cause)
      (subs.modifyAll sc.subscribers
        ((sc.emitted (asDict patches) cause).deliver (asDict patches) cause)) where
  store := Dict.update_ofList _ _
  counter := rfl
  record := by
    rw [← wirePatches_asDict]
    rfl
  rest := rfl
  sent r hr hroom := by
    refine ⟨(sc.emitted (asDict patches) cause).deltaLetter
      (wirePatches (asDict patches).entries) cause, ?_, ?_⟩
    · rw [Heap.get_modifyAll, if_pos hr, queue_deliver, if_pos hroom]
    · rw [← wirePatches_asDict]
      rfl
  overflow r hr hroom := by
    rw [Heap.get_modifyAll, if_pos hr]
    refine ⟨by rw [queue_deliver, if_neg hroom], ?_⟩
    rw [deliver, Subscription.stale_sendDelta, decide_eq_false hroom, Bool.not_false, Bool.or_true]
  others r hr := by rw [Heap.get_modifyAll, if_neg hr]

/-- **`apply_input` is atomic and exact.** -/
theorem applyInput_atomic (sc : Scene) (subs : Subs) (identity : Identity) (patches : List Patch)
    (cause : Option Cause)
    (hrange : ∀ p ∈ patches, ∀ n, p.value = .int n → (PyFloat.ofInt n).isSome = true) :
    (patches = [] → sc.applyInput subs identity patches cause
        = .ok (some .emptyPatches, sc, subs)) ∧
      (∀ pre p post refusal, patches = pre ++ p :: post →
        (∀ q ∈ pre, ∀ refusal', ¬ sc.Objection identity q refusal') →
          sc.Objection identity p refusal →
            sc.applyInput subs identity patches cause = .ok (some refusal, sc, subs) ∧
              refusal.path = some p.path ∧ refusal.code =
                if identity.canWrite p.path = false then .writeForbidden
                else if sc.acceptsInputPath identity.role p.path = false then .unknownPath
                else .invalidValue) ∧
      (patches ≠ [] → (∀ p ∈ patches, ∀ refusal, ¬ sc.Objection identity p refusal) →
        ∃ sc' subs', sc.applyInput subs identity patches cause = .ok (none, sc', subs') ∧
          sc.Committed subs patches cause sc' subs') := by
  refine ⟨?_, ?_, ?_⟩
  · rintro rfl
    rfl
  · rintro pre p post refusal rfl hnone hp
    refine ⟨?_, hp.code_eq⟩
    have hverdict : sc.verdict identity (pre ++ p :: post) = .ok (some refusal) := by
      rw [verdict, if_neg (by simp),
        checkPatches_append _ (fun q hq => hrange q (List.mem_append_left _ hq)) hnone]
      exact checkPatches_of_objection post
        (hrange p (List.mem_append_right _ List.mem_cons_self)) hp
    rw [applyInput, hverdict]
  · intro hne hnone
    have hverdict : sc.verdict identity patches = .ok none := by
      rw [verdict, if_neg (by simpa using hne), ← List.append_nil patches,
        checkPatches_append [] hrange hnone, checkPatches]
    refine ⟨_, _, ?_, committed_emitted sc subs patches cause⟩
    rw [applyInput, hverdict]
    dsimp only
    rw [emit_eq_ok sc subs cause (isEmpty_asDict_of_verdict hverdict)]
    rfl

/-- A path that is written twice. -/
def twiceWritten : List Patch :=
  [⟨"__inputs.a", .str "x", none⟩, ⟨"__inputs.b", .null, none⟩, ⟨"__inputs.a", .str "y", none⟩]

example : deduplicated twiceWritten =
    [⟨"__inputs.a", .str "y", none⟩, ⟨"__inputs.b", .null, none⟩] := rfl

/-- An operator writes it on a scene that declares nothing. -/
theorem applyInput_atomic_twiceWritten :
    ∃ sc' subs', (new 0 "main" "v1" []).applyInput (.blank {}) { role := some .operator }
        twiceWritten none = .ok (none, sc', subs') ∧
      (new 0 "main" "v1" []).Committed (.blank {}) twiceWritten none sc' subs' := by
  have hall : ∀ p ∈ twiceWritten, (∀ n, p.value ≠ .int n) ∧
      ({ role := some .operator } : Identity).canWrite p.path = true ∧
        (new 0 "main" "v1" []).acceptsInputPath (some .operator) p.path = true := by
    refine List.forall_mem_cons.mpr ⟨⟨fun n h => (by cases h), by decide⟩,
      List.forall_mem_cons.mpr ⟨⟨fun n h => (by cases h), by decide⟩,
        List.forall_mem_cons.mpr ⟨⟨fun n h => (by cases h), by decide⟩, List.forall_mem_nil _⟩⟩⟩
  refine (applyInput_atomic (new 0 "main" "v1" []) (.blank {}) { role := some .operator }
    twiceWritten none fun p hp n h => absurd h ((hall p hp).1 n)).2.2 (List.cons_ne_nil _ _) ?_
  rintro p hp refusal (hwrite | ⟨-, hpath⟩ | ⟨-, -, hspec, -⟩)
  · exact absurd ((hall p hp).2.1.symm.trans hwrite) (by decide)
  · exact absurd ((hall p hp).2.2.symm.trans hpath) (by decide)
  · cases hspec

end Scene

end Lumencast
