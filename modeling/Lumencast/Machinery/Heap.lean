import Mathlib.Data.Finset.Basic
import Mathlib.Logic.Function.Basic

/-!
# Machinery/Heap — objects behind references

Objects that several parties hold by reference live in a `Heap`: a reference is an address, a method
that mutates the object is `modify`, constructing one is `alloc`.  Addresses below `next` are taken;
the cells above it are never looked at.
-/

universe u

namespace Machinery

/-- A store of objects; a reference is an index into it. -/
structure Heap (α : Type u) where
  /-- The object at an address. -/
  get : ℕ → α
  /-- The first free address. -/
  next : ℕ

namespace Heap

variable {α : Type u}

/-- No object yet; every cell reads as `a`. -/
def blank (a : α) : Heap α := ⟨fun _ => a, 0⟩

/-- Put a new object at the first free address, which is `h.next`. -/
def alloc (h : Heap α) (a : α) : Heap α := ⟨Function.update h.get h.next a, h.next + 1⟩

/-- Mutate the object at `r`. -/
def modify (h : Heap α) (r : ℕ) (f : α → α) : Heap α :=
  ⟨Function.update h.get r (f (h.get r)), h.next⟩

/-- Mutate each object of a set of addresses, in no particular order. -/
def modifyAll (h : Heap α) (s : Finset ℕ) (f : α → α) : Heap α :=
  ⟨fun r => if r ∈ s then f (h.get r) else h.get r, h.next⟩

@[ext] theorem ext : ∀ {h k : Heap α}, h.get = k.get → h.next = k.next → h = k
  | ⟨_, _⟩, ⟨_, _⟩, rfl, rfl => rfl

@[simp] theorem next_alloc (h : Heap α) (a : α) : (h.alloc a).next = h.next + 1 := rfl

@[simp] theorem get_alloc_next (h : Heap α) (a : α) : (h.alloc a).get h.next = a :=
  Function.update_self ..

theorem get_alloc_of_ne (h : Heap α) (a : α) {r : ℕ} (hr : r ≠ h.next) :
    (h.alloc a).get r = h.get r := Function.update_of_ne hr ..

theorem get_alloc (h : Heap α) (a : α) (r : ℕ) :
    (h.alloc a).get r = if r = h.next then a else h.get r := by
  split
  · rename_i hr
    rw [hr, get_alloc_next]
  · rename_i hr
    exact get_alloc_of_ne h a hr

@[simp] theorem get_modify_self (h : Heap α) (r : ℕ) (f : α → α) :
    (h.modify r f).get r = f (h.get r) := Function.update_self ..

theorem get_modify_of_ne (h : Heap α) {r r' : ℕ} (f : α → α) (hr : r' ≠ r) :
    (h.modify r f).get r' = h.get r' := Function.update_of_ne hr ..

theorem get_modify (h : Heap α) (r r' : ℕ) (f : α → α) :
    (h.modify r f).get r' = if r' = r then f (h.get r) else h.get r' := by
  split
  · rename_i hr
    subst hr
    exact get_modify_self h r' f
  · rename_i hr
    exact get_modify_of_ne h f hr

@[simp] theorem modify_get (h : Heap α) (r : ℕ) : h.modify r (fun _ => h.get r) = h :=
  ext (Function.update_eq_self r h.get) rfl

/-- Changing what was just allocated. -/
theorem modify_alloc (h : Heap α) (a : α) (f : α → α) :
    (h.alloc a).modify h.next f = h.alloc (f a) := by
  refine ext ?_ rfl
  rw [modify, get_alloc_next]
  exact Function.update_idem ..

/-- Mutating an object twice. -/
theorem modify_modify (h : Heap α) (r : ℕ) (f g : α → α) :
    (h.modify r f).modify r g = h.modify r fun a => g (f a) := by
  refine ext ?_ rfl
  rw [modify, get_modify_self]
  exact Function.update_idem ..

theorem get_modifyAll (h : Heap α) (s : Finset ℕ) (f : α → α) (r : ℕ) :
    (h.modifyAll s f).get r = if r ∈ s then f (h.get r) else h.get r := rfl

@[simp] theorem modifyAll_empty (h : Heap α) (f : α → α) : h.modifyAll ∅ f = h :=
  ext (funext fun r => by simp [get_modifyAll]) rfl

/-- **A loop over a set does not depend on the order it visits it in**: mutating the objects of a
duplicate-free list one by one is `modifyAll` of its set. -/
theorem foldl_modify (f : α → α) : ∀ (l : List ℕ) (h : Heap α), l.Nodup →
    l.foldl (fun h r => h.modify r f) h = h.modifyAll l.toFinset f
  | [], h, _ => by simp
  | r :: l, h, hnd => by
      rw [List.nodup_cons] at hnd
      rw [List.foldl_cons, foldl_modify f l _ hnd.2]
      refine ext (funext fun r' => ?_) rfl
      rw [get_modifyAll, get_modifyAll, get_modify]
      by_cases hr : r' = r
      · subst hr
        simp [hnd.1]
      · simp [hr]

end Heap

end Machinery
