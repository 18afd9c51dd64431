import Lumencast.Conformance.Runner

/-!
# Conformance/Recorded — a scenario recorded from a connection

What one connection has sent and received makes a scenario: each frame that was sent is sent again,
each frame that was received is expected, and the state it came to is expected at the end.  Played
to a server that answers as it did then, it passes exactly when each frame that was received
survives substitution (`recorded_passes_iff`).
-/

namespace Lumencast

open Machinery

/-! ## What is said of every value of a frame -/

/-- With nothing to fill in, a string is left alone. -/
theorem substituteText_empty (s : PyStr) : substituteText .empty .empty s = s := by
  rw [substituteText]
  split
  · rfl
  · split <;> rfl

namespace Json

section Mono

variable {P Q : Json → Prop}

mutual

theorem everywhere_mono (h : ∀ v, P v → Q v) : ∀ {v : Json}, v.Everywhere P → v.Everywhere Q
  | null, hv => h _ hv
  | bool _, hv => h _ hv
  | int _, hv => h _ hv
  | float _, hv => h _ hv
  | str _, hv => h _ hv
  | arr _, hv => ⟨h _ hv.1, everywhereItems_mono h hv.2⟩
  | obj _, hv => ⟨h _ hv.1, everywherePairs_mono h hv.2⟩

theorem everywhereItems_mono (h : ∀ v, P v → Q v) :
    ∀ {xs : List Json}, EverywhereItems P xs → EverywhereItems Q xs
  | [], _ => trivial
  | _ :: _, hxs => ⟨everywhere_mono h hxs.1, everywhereItems_mono h hxs.2⟩

theorem everywherePairs_mono (h : ∀ v, P v → Q v) :
    ∀ {kvs : List (PyStr × Json)}, EverywherePairs P kvs → EverywherePairs Q kvs
  | [], _ => trivial
  | _ :: _, hkvs => ⟨everywhere_mono h hkvs.1, everywherePairs_mono h hkvs.2⟩

end

end Mono

mutual

/-- With nothing to fill in, nothing is. -/
theorem substitutePlaceholders_empty : ∀ v : Json, substitutePlaceholders .empty .empty v = v
  | null => rfl
  | bool _ => rfl
  | int _ => rfl
  | float _ => rfl
  | str s => congrArg str (substituteText_empty s)
  | arr xs => congrArg arr (substituteItems_empty xs)
  | obj kvs => congrArg obj (substitutePairs_empty kvs)

theorem substituteItems_empty : ∀ xs : List Json, substituteItems .empty .empty xs = xs
  | [] => rfl
  | x :: xs => by
      rw [substituteItems, substitutePlaceholders_empty x, substituteItems_empty xs]

theorem substitutePairs_empty : ∀ kvs : List (PyStr × Json), substitutePairs .empty .empty kvs = kvs
  | [] => rfl
  | (k, v) :: kvs => by
      rw [substitutePairs, substitutePlaceholders_empty v, substitutePairs_empty kvs]

end

/-- A leaf that survives substitution is no sentinel for a hash. -/
theorem survivesAt_empty {tokens bundleHashes : Dict PyStr PyStr} {v : Json}
    (h : v.SurvivesAt tokens bundleHashes) : v.SurvivesAt .empty .empty := by
  cases v with
  | str s =>
    have hhash : s ≠ SENTINEL_ANY_HASH := by
      rintro rfl
      rw [SurvivesAt, substituteText_sentinel _ _ (Or.inr rfl)] at h
      rcases h with h | ⟨-, h⟩ | ⟨-, h⟩
      · exact absurd h (by decide)
      · exact absurd h (by decide)
      · exact h rfl
    exact Or.inr (Or.inr ⟨substituteText_empty s, hhash⟩)
  | _ => exact h

/-- **What survives matches itself.** -/
theorem matches_self_of_survives {tokens bundleHashes : Dict PyStr PyStr} {v : Json}
    (hdistinct : v.Distinct) (h : v.Survives tokens bundleHashes) : v.Matches v := by
  have hmatches := (matches_substitute_iff hdistinct).mpr
    (everywhere_mono (fun _ => survivesAt_empty) h)
  rwa [substitutePlaceholders_empty] at hmatches

end Json

section Values

variable {P : Json → Prop} {f : Frame} {d : Dict PyStr Json}

theorem everywhereItems_iff : ∀ {xs : List Json},
    Json.EverywhereItems P xs ↔ ∀ x ∈ xs, x.Everywhere P
  | [] => iff_of_true trivial (List.forall_mem_nil _)
  | x :: xs => by rw [Json.EverywhereItems, List.forall_mem_cons, everywhereItems_iff]

/-- What is said of every value of a frame is said of what it adds to the shadow. -/
theorem everywhere_shadowAfter (hd : ∀ e ∈ d.entries, e.2.Everywhere P)
    (hf : (Json.obj (frameToDict f)).Everywhere P) :
    ∀ e ∈ (shadowAfter d f).entries, e.2.Everywhere P := by
  have hfields := Json.everywherePairs_iff.mp hf.2
  cases f with
  | snapshot f =>
    have hstate := hfields ("state", .obj f.state.entries) (Dict.mem_of_find (by rfl))
    exact Json.everywherePairs_iff.mp hstate.2
  | delta f =>
    intro e he
    rcases Dict.mem_entries_update _ _ he with he | he
    · exact hd e he
    · obtain ⟨p, hp, rfl⟩ := List.mem_map.mp he
      have hpatches := hfields ("patches", .arr (f.patches.map patchToDict))
        (Dict.mem_of_find (by rfl))
      have hpatch := everywhereItems_iff.mp hpatches.2 _ (List.mem_map_of_mem hp)
      exact Json.everywherePairs_iff.mp hpatch.2 ("value", p.value)
        (List.mem_cons_of_mem _ List.mem_cons_self)
  | _ => exact hd

end Values

/-! ## Tapes

A tape holds what went over one connection, in order.  The scenario made of it has one step for
each entry, and one for the state at the end. -/

/-- A frame that was sent or received. -/
inductive Entry where
  | sent (frame : Json) (distinct : frame.Distinct)
  | received (f : Frame) (distinct : (Json.obj (frameToDict f)).Distinct)

/-- The step that is made of it. -/
def Entry.step : Entry → PlayStep
  | .sent frame h => { kind := .clientSends, frame := frame, distinct := h }
  | .received f h => { kind := .serverSends, frame := .obj (frameToDict f), distinct := h }

/-- The state a connection comes to. -/
def shadowOf (d : Dict PyStr Json) : List Entry → Dict PyStr Json
  | [] => d
  | .sent _ _ :: tape => shadowOf d tape
  | .received f _ :: tape => shadowOf (shadowAfter d f) tape

/-- What is said of every value that is received is said of the state it comes to. -/
theorem everywhere_shadowOf {P : Json → Prop} : ∀ (tape : List Entry) {d : Dict PyStr Json},
    (∀ e ∈ d.entries, e.2.Everywhere P) →
    (∀ f h, Entry.received f h ∈ tape → (Json.obj (frameToDict f)).Everywhere P) →
    ∀ e ∈ (shadowOf d tape).entries, e.2.Everywhere P
  | [], _, hd, _ => hd
  | .sent _ _ :: tape, _, hd, htape => everywhere_shadowOf tape hd
      fun f h hmem => htape f h (List.mem_cons_of_mem _ hmem)
  | .received f h :: tape, _, hd, htape => everywhere_shadowOf tape
      (everywhere_shadowAfter hd (htape f h List.mem_cons_self))
      fun f' h' hmem => htape f' h' (List.mem_cons_of_mem _ hmem)

theorem distinct_nil : (Json.obj []).Distinct := ⟨List.nodup_nil, trivial⟩

/-- The last step: the state is as it was. -/
def stateStep (state : Dict PyStr Json) : PlayStep where
  kind := .expectRuntimeState
  frame := .obj []
  distinct := distinct_nil
  state := .obj state.entries

/-- The steps of a recorded scenario. -/
def recorded (tape : List Entry) : List PlayStep :=
  tape.map Entry.step ++ [stateStep (shadowOf .empty tape)]

/-- A server that answers as it did. -/
def answers (shown : Frame → PyStr) : List Entry → ℕ → Replies
  | .received f _ :: _, 0 => { received := .message (shown f) (.value (.obj (frameToDict f))) }
  | _ :: tape, i + 1 => answers shown tape i
  | _, _ => {}

theorem answers_succ (shown : Frame → PyStr) (e : Entry) (tape : List Entry) :
    (fun i => answers shown (e :: tape) (i + 1)) = answers shown tape := by
  cases e <;> rfl

/-! ## Playing a tape back -/

section Playing

variable [PyRepr] {tokens bundleHashes : Dict PyStr PyStr}

/-- A frame is compared with what is expected, filled in. -/
theorem compareFrame_iff {kvs actual : List (PyStr × Json)} {shown : PyStr} :
    compareFrame tokens bundleHashes (.obj kvs) shown actual = .ok () ↔
      Json.MatchesPairs (substitutePairs tokens bundleHashes kvs) actual := by
  rw [compareFrame, substitutePlaceholders]
  exact mapError_eq_ok.trans matchFrame_iff

/-- A frame is expected as it was received. -/
theorem compareFrame_self_iff {kvs : List (PyStr × Json)} (shown : PyStr)
    (h : (Json.obj kvs).Distinct) :
    compareFrame tokens bundleHashes (.obj kvs) shown kvs = .ok () ↔
      (Json.obj kvs).Survives tokens bundleHashes :=
  compareFrame_iff.trans (Json.matches_substitute_iff h)

theorem expectPairs_iff {noun : PyStr} {find : PyStr → Option Json} :
    ∀ {kvs : List (PyStr × Json)}, expectPairs noun find kvs = .ok () ↔
      ∀ e ∈ kvs, ∃ w, find e.1 = some w ∧ e.2.Matches w
  | [] => iff_of_true rfl (List.forall_mem_nil _)
  | (k, v) :: kvs => by
      rw [expectPairs, List.forall_mem_cons]
      rcases hk : find k with _ | w
      · refine iff_of_false (fun h => by cases h) fun h => ?_
        obtain ⟨⟨w, hw, -⟩, -⟩ := h
        cases hw
      · have hmatch : (matchValue v w k).mapError (MatchError.stop id) = .ok () ↔ v.Matches w :=
          mapError_eq_ok.trans matchValue_iff
        dsimp only
        rw [bind_eq_ok, ← expectPairs_iff]
        constructor
        · rintro ⟨_, hv, hkvs⟩
          exact ⟨⟨w, rfl, hmatch.mp hv⟩, hkvs⟩
        · rintro ⟨⟨w', hw', hv⟩, hkvs⟩
          cases hw'
          exact ⟨(), hmatch.mpr hv, hkvs⟩

/-- The steps before the last pass when the frames survive, and come to the state of the tape. -/
theorem runSteps_tape_iff (shown : Frame → PyStr) (state : Dict PyStr Json) :
    ∀ (tape : List Entry) (p : Play),
    (∃ q, runSteps tokens bundleHashes (tape.map Entry.step ++ [stateStep state])
      (answers shown tape) p = .ok q) ↔
    (∀ f h, Entry.received f h ∈ tape →
      (Json.obj (frameToDict f)).Survives tokens bundleHashes) ∧
    ∀ e ∈ state.entries, ∃ w, (shadowOf p.shadow tape).get? e.1 = some w ∧ e.2.Matches w
  | [], p => by
      have hrun : runSteps tokens bundleHashes [stateStep state] (answers shown []) p
          = (expectPairs "runtime" p.shadow.get? state.entries).map fun _ => p := by
        change ((expectPairs "runtime" p.shadow.get? state.entries).map fun _ => p).bind _ = _
        rcases expectPairs "runtime" p.shadow.get? state.entries with e | _ <;> rfl
      rw [List.map_nil, List.nil_append, hrun, shadowOf, ← expectPairs_iff]
      constructor
      · rintro ⟨q, hq⟩
        obtain ⟨_, hpairs, -⟩ := map_eq_ok.mp hq
        exact ⟨fun f h hmem => absurd hmem List.not_mem_nil, hpairs⟩
      · rintro ⟨-, hpairs⟩
        exact ⟨p, map_eq_ok.mpr ⟨(), hpairs, rfl⟩⟩
  | .sent frame h :: tape, p => by
      have hrun := runSteps_tape_iff shown state tape
        { p with sent := p.sent ++ [substitutePlaceholders tokens bundleHashes frame] }
      rw [← answers_succ shown (.sent frame h) tape] at hrun
      refine Iff.trans hrun (and_congr_left fun _ => ?_)
      simp only [List.mem_cons, reduceCtorEq, false_or]
  | .received f h :: tape, p => by
      have hstep : runStep tokens bundleHashes (Entry.received f h).step
          (answers shown (.received f h :: tape) 0) p
          = (compareFrame tokens bundleHashes (.obj (frameToDict f)) (shown f) (frameToDict f)).map
            fun _ => { p with shadow := shadowAfter p.shadow f } := by
        change (compareFrame tokens bundleHashes (.obj (frameToDict f)) (shown f)
          (frameToDict f)).bind (fun _ => p.absorb (frameToDict f)) = _
        rw [Play.absorb, absorb_frameToDict]
        rcases compareFrame tokens bundleHashes (.obj (frameToDict f)) (shown f) (frameToDict f)
          with e | _ <;> rfl
      have hrest := runSteps_tape_iff shown state tape { p with shadow := shadowAfter p.shadow f }
      rw [List.map_cons, List.cons_append, runSteps, hstep, answers_succ, shadowOf]
      constructor
      · rintro ⟨q, hq⟩
        obtain ⟨p', hp', hq⟩ := bind_eq_ok.mp hq
        obtain ⟨_, hcompare, rfl⟩ := map_eq_ok.mp hp'
        obtain ⟨hframes, hstate⟩ := hrest.mp ⟨q, hq⟩
        refine ⟨fun f' h' hmem => ?_, hstate⟩
        rcases List.mem_cons.mp hmem with heq | hmem
        · cases heq
          exact (compareFrame_self_iff _ h).mp hcompare
        · exact hframes f' h' hmem
      · rintro ⟨hframes, hstate⟩
        have hcompare := (compareFrame_self_iff (shown f) h).mpr
          (hframes f h List.mem_cons_self)
        rw [hcompare]
        exact hrest.mpr
          ⟨fun f' h' hmem => hframes f' h' (List.mem_cons_of_mem _ hmem), hstate⟩

/-- **A recorded scenario passes exactly when its frames survive**: every leaf that was received
matches itself once the placeholders are filled in.  The state need not be looked at again. -/
theorem recorded_passes_iff (shown : Frame → PyStr) (tape : List Entry) :
    (∃ p, runSteps tokens bundleHashes (recorded tape) (answers shown tape) {} = .ok p) ↔
      ∀ f h, Entry.received f h ∈ tape →
        (Json.obj (frameToDict f)).Survives tokens bundleHashes := by
  rw [recorded, runSteps_tape_iff]
  refine and_iff_left_of_imp fun hframes e he => ?_
  have hempty : ∀ {P : Json → Prop}, ∀ e ∈ (Dict.empty : Dict PyStr Json).entries,
      e.2.Everywhere P := fun e he => absurd he List.not_mem_nil
  have hdistinct : e.2.Distinct :=
    everywhere_shadowOf tape hempty (fun _ h _ => h) e he
  have hsurvives : e.2.Survives tokens bundleHashes :=
    everywhere_shadowOf tape hempty hframes e he
  exact ⟨e.2, Dict.find_of_mem (shadowOf .empty tape).nodup he,
    Json.matches_self_of_survives hdistinct hsurvives⟩

end Playing

end Lumencast
