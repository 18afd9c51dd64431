import Mathlib.Data.List.Forall2
import Mathlib.Tactic.Common

/-!
# Machinery/Outcome — computations that fail

How success and failure pass through the sequencing of `Except`.  `FailsOnly P x` says that `x`, if
it fails, fails with an exception of the kind `P`; sequencing asks for it of the first computation,
and of the second one wherever it is reached.
-/

universe u v

namespace Machinery

variable {ε : Type u} {α β : Type v}

/-! ## Success -/

theorem bind_eq_ok {x : Except ε α} {f : α → Except ε β} {b : β} :
    (x >>= f) = .ok b ↔ ∃ a, x = .ok a ∧ f a = .ok b := by
  constructor
  · intro h
    rcases x with e | a
    · cases h
    · exact ⟨a, rfl, h⟩
  · rintro ⟨a, rfl, h⟩
    exact h

theorem map_eq_ok {x : Except ε α} {f : α → β} {b : β} :
    x.map f = .ok b ↔ ∃ a, x = .ok a ∧ f a = b := by
  constructor
  · intro h
    rcases x with e | a
    · cases h
    · cases h
      exact ⟨a, rfl, rfl⟩
  · rintro ⟨a, rfl, rfl⟩
    rfl

theorem mapError_eq_ok {ε' : Type u} {x : Except ε α} {f : ε → ε'} {a : α} :
    x.mapError f = .ok a ↔ x = .ok a := by
  rcases x with e | a'
  · exact ⟨fun h => (nomatch h), fun h => (nomatch h)⟩
  · constructor
    · intro h
      cases h
      rfl
    · intro h
      cases h
      rfl

/-- Elements that all succeed. -/
theorem mapM_ok (f : α → β) : ∀ as : List α,
    as.mapM (fun a => (.ok (f a) : Except ε β)) = .ok (as.map f)
  | [] => rfl
  | a :: as => by
      rw [List.mapM_cons, mapM_ok f as]
      rfl

/-- A loop succeeds when each of its steps does, with what each of them returns. -/
theorem mapM_eq_ok {f : α → Except ε β} : ∀ {as : List α} {bs : List β},
    as.mapM f = .ok bs ↔ List.Forall₂ (fun a b => f a = .ok b) as bs
  | [], bs => by
      rw [List.mapM_nil, List.forall₂_nil_left_iff]
      exact ⟨fun h => (Except.ok.inj h).symm, fun h => congrArg Except.ok h.symm⟩
  | a :: as, bs => by
      rw [List.mapM_cons, bind_eq_ok, List.forall₂_cons_left_iff]
      constructor
      · rintro ⟨b, hb, h⟩
        obtain ⟨bs', hbs, h⟩ := bind_eq_ok.mp h
        cases h
        exact ⟨b, bs', hb, mapM_eq_ok.mp hbs, rfl⟩
      · rintro ⟨b, bs', hb, hbs, rfl⟩
        exact ⟨b, hb, bind_eq_ok.mpr ⟨bs', mapM_eq_ok.mpr hbs, rfl⟩⟩

/-- The same, where what a step returns is known. -/
theorem mapM_eq_ok_map {f : α → Except ε β} {g : α → β} (hg : ∀ a b, f a = .ok b → g a = b)
    {as : List α} {bs : List β} :
    as.mapM f = .ok bs ↔ (∀ a ∈ as, ∃ b, f a = .ok b) ∧ bs = as.map g := by
  rw [mapM_eq_ok]
  induction as generalizing bs with
  | nil => simp
  | cons a as ih =>
      rw [List.forall₂_cons_left_iff, List.forall_mem_cons, List.map_cons]
      constructor
      · rintro ⟨b, bs, hb, hbs, rfl⟩
        obtain ⟨has, rfl⟩ := ih.mp hbs
        exact ⟨⟨⟨b, hb⟩, has⟩, by rw [hg a b hb]⟩
      · rintro ⟨⟨⟨b, hb⟩, has⟩, rfl⟩
        exact ⟨g a, _, hg a b hb ▸ hb, ih.mpr ⟨has, rfl⟩, rfl⟩

theorem isOk_iff {x : Except ε α} : x.isOk = true ↔ ∃ a, x = .ok a := by
  rcases x with e | a
  · exact ⟨fun h => (nomatch h), fun ⟨_, h⟩ => (nomatch h)⟩
  · exact ⟨fun _ => ⟨a, rfl⟩, fun _ => rfl⟩

theorem isOk_map (x : Except ε α) (f : α → β) : (x.map f).isOk = x.isOk := by
  rcases x with e | a <;> rfl

theorem isOk_bind_const {x : Except ε α} {f : α → Except ε β} {b : Bool}
    (hf : ∀ a, x = .ok a → (f a).isOk = b) : (x >>= f).isOk = (x.isOk && b) := by
  rcases x with e | a
  · rfl
  · exact hf a rfl

theorem isOk_bind_pure (x : Except ε α) (g : α → β) :
    (x >>= fun a => pure (g a)).isOk = x.isOk := by
  rcases x with e | a <;> rfl

/-! ## Failure -/

/-- A computation that, if it fails, fails with an exception of the kind `P`. -/
def FailsOnly (P : ε → Prop) (x : Except ε α) : Prop := ∀ e, x = .error e → P e

variable {P : ε → Prop}

theorem failsOnly_ok (a : α) : FailsOnly P (.ok a : Except ε α) := fun _ h => nomatch h

theorem failsOnly_pure (a : α) : FailsOnly P (pure a : Except ε α) := failsOnly_ok a

theorem failsOnly_error {e : ε} : FailsOnly P (.error e : Except ε α) ↔ P e :=
  ⟨fun h => h e rfl, fun h _ h' => Except.error.inj h' ▸ h⟩

theorem failsOnly_map {x : Except ε α} {f : α → β} : FailsOnly P (x.map f) ↔ FailsOnly P x := by
  rcases x with e | a
  · exact failsOnly_error.trans failsOnly_error.symm
  · exact ⟨fun _ => failsOnly_ok a, fun _ => failsOnly_ok (f a)⟩

theorem failsOnly_bind {x : Except ε α} {f : α → Except ε β} :
    FailsOnly P (x >>= f) ↔ FailsOnly P x ∧ ∀ a, x = .ok a → FailsOnly P (f a) := by
  rcases x with e | a
  · exact ⟨fun h => ⟨failsOnly_error.mpr (h e rfl), fun _ h' => (nomatch h')⟩,
      fun h => failsOnly_error.mpr (h.1 e rfl)⟩
  · exact ⟨fun h => ⟨failsOnly_ok a, fun _ h' => Except.ok.inj h' ▸ h⟩, fun h => h.2 a rfl⟩

theorem failsOnly_bind_pure {x : Except ε α} {g : α → β} :
    FailsOnly P (x >>= fun a => pure (g a)) ↔ FailsOnly P x := by
  rw [failsOnly_bind]
  exact and_iff_left fun a _ => failsOnly_pure (g a)

/-- Sequencing, where what the second computation fails with does not depend on the first one's
value. -/
theorem failsOnly_bind_const {x : Except ε α} {f : α → Except ε β} {C : Prop}
    (hf : ∀ a, x = .ok a → (FailsOnly P (f a) ↔ C)) :
    FailsOnly P (x >>= f) ↔ FailsOnly P x ∧ (x.isOk = true → C) := by
  rw [failsOnly_bind]
  refine and_congr_right fun _ => ⟨fun h hx => ?_, fun h a hx => ?_⟩
  · obtain ⟨a, ha⟩ := isOk_iff.mp hx
    exact (hf a ha).mp (h a ha)
  · exact (hf a hx).mpr (h (isOk_iff.mpr ⟨a, hx⟩))

/-! ## The failure itself -/

/-- What a computation fails with, if it fails. -/
def failure? : Except ε α → Option ε
  | .error e => some e
  | .ok _ => none

theorem failure?_eq_none {x : Except ε α} : failure? x = none ↔ ∃ a, x = .ok a := by
  rcases x with e | a
  · exact iff_of_false (Option.some_ne_none e) fun ⟨a, h⟩ => by cases h
  · exact iff_of_true rfl ⟨a, rfl⟩

theorem failure?_eq_some {x : Except ε α} {e : ε} : failure? x = some e ↔ x = .error e := by
  rcases x with e' | a
  · rw [failure?, Option.some.injEq, Except.error.injEq]
  · exact iff_of_false (fun h => by cases h) fun h => by cases h

theorem failure?_map (x : Except ε α) (f : α → β) : failure? (x.map f) = failure? x := by
  rcases x with e | a <;> rfl

theorem failure?_bind_pure (x : Except ε α) (g : α → β) :
    failure? (x >>= fun a => pure (g a)) = failure? x := by
  rcases x with e | a <;> rfl

/-- Sequencing fails with the first failure. -/
theorem failure?_bind_const {x : Except ε α} {f : α → Except ε β} {o : Option ε}
    (hf : ∀ a, x = .ok a → failure? (f a) = o) : failure? (x >>= f) = (failure? x).or o := by
  rcases x with e | a
  · rfl
  · exact hf a rfl

/-- A loop fails with the first failure of its steps. -/
theorem failure?_mapM (f : α → Except ε β) : ∀ as : List α,
    failure? (as.mapM f) = as.findSome? fun a => failure? (f a)
  | [] => rfl
  | a :: as => by
      rw [List.mapM_cons, failure?_bind_const fun _ _ => failure?_bind_pure _ _, failure?_mapM f as,
        List.findSome?_cons]
      rcases failure? (f a) with _ | e <;> rfl

theorem findSome?_congr {f g : α → Option β} : ∀ {as : List α},
    (∀ a ∈ as, f a = g a) → as.findSome? f = as.findSome? g
  | [], _ => rfl
  | a :: as, h => by
      obtain ⟨ha, has⟩ := List.forall_mem_cons.mp h
      rw [List.findSome?_cons, List.findSome?_cons, ha, findSome?_congr has]

end Machinery
