import Mathlib.Data.List.Forall2

/-!
# Machinery/Improves — one computation that does at least as well as another

`Improves P R x x'`: where `x` succeeds `x'` succeeds, with a related result, and where `x` fails
`x'` fails alike, unless the failure is of the kind `P`, which `x'` may be spared.  Sequencing keeps
this.
-/

universe u v w

namespace Machinery

variable {ε : Type u} {α β : Type v} {α' β' : Type w}

inductive Improves (P : ε → Prop) (R : α → α' → Prop) : Except ε α → Except ε α' → Prop
  | ok {a : α} {a' : α'} (h : R a a') : Improves P R (.ok a) (.ok a')
  | same (e : ε) : Improves P R (.error e) (.error e)
  | spared {e : ε} (h : P e) (x' : Except ε α') : Improves P R (.error e) x'

namespace Improves

variable {P : ε → Prop} {R : α → α' → Prop} {S : β → β' → Prop}

theorem refl {R : α → α → Prop} (h : ∀ a, R a a) : ∀ x : Except ε α, Improves P R x x
  | .error e => .same e
  | .ok a => .ok (h a)

theorem bind {x : Except ε α} {x' : Except ε α'} {f : α → Except ε β} {f' : α' → Except ε β'}
    (h : Improves P R x x') (hf : ∀ a a', R a a' → Improves P S (f a) (f' a')) :
    Improves P S (x.bind f) (x'.bind f') := by
  cases h with
  | ok ha => exact hf _ _ ha
  | same e => exact .same e
  | spared he x' => exact .spared he _

theorem map {x : Except ε α} {x' : Except ε α'} {f : α → β} {f' : α' → β'}
    (h : Improves P R x x') (hf : ∀ a a', R a a' → S (f a) (f' a')) :
    Improves P S (x.map f) (x'.map f') := by
  cases h with
  | ok ha => exact .ok (hf _ _ ha)
  | same e => exact .same e
  | spared he x' => exact .spared he _

/-- A success is improved on by a success. -/
theorem of_ok {x' : Except ε α'} {a : α} (h : Improves P R (.ok a) x') :
    ∃ a', x' = .ok a' ∧ R a a' := by
  cases h with
  | ok h => exact ⟨_, rfl, h⟩

end Improves

end Machinery
