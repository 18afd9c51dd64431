import Lumencast.Machinery.Buffer
import Lumencast.Machinery.Dict
import Lumencast.Machinery.Heap
import Mathlib.Data.Finset.Image

/-!
# Machinery/Graft — a heap put behind another

Two heaps that know nothing of one another make one: the cells of the first stay where they are,
and those of the second come after them, relocated (`Heap.graft`).  What is done to cells of one
side is done to that side only.  What holds references, a queue or a dictionary of them, is
relocated item by item.
-/

universe u v w

namespace Machinery

/-- Addresses, behind the first `n`. -/
def behindAddr (n : ℕ) : ℕ ↪ ℕ := ⟨(n + ·), fun _ _ => Nat.add_left_cancel⟩

namespace Heap

variable {α : Type u}

/-- The cells of `new`, each changed by `f`, behind those of `old`. -/
def graft (f : α → α) (old new : Heap α) : Heap α where
  get r := if old.next ≤ r ∧ r - old.next < new.next then f (new.get (r - old.next)) else old.get r
  next := old.next + new.next

variable {f : α → α} {old new : Heap α}

@[simp] theorem next_graft : (graft f old new).next = old.next + new.next := rfl

theorem get_graft_eq (r : ℕ) : (graft f old new).get r
    = if old.next ≤ r ∧ r - old.next < new.next then f (new.get (r - old.next)) else old.get r :=
  rfl

theorem get_graft {r : ℕ} (h : r < new.next) :
    (graft f old new).get (old.next + r) = f (new.get r) := by
  simp [graft, h]

theorem get_graft_of_lt {r : ℕ} (h : r < old.next) : (graft f old new).get r = old.get r :=
  if_neg fun h' => absurd h'.1 (by omega)

/-- With nothing behind it, a heap is as it was. -/
theorem graft_blank (a : α) : graft f old (blank a) = old := by
  refine ext (funext fun r => if_neg fun h => ?_) rfl
  exact absurd h.2 (Nat.not_lt_zero _)

/-- A fresh cell is fresh behind, too. -/
theorem alloc_graft (a : α) : (graft f old new).alloc (f a) = graft f old (new.alloc a) := by
  refine ext (funext fun r => ?_) (Nat.add_assoc ..)
  rw [get_alloc]
  by_cases hr : r = old.next + new.next
  · subst hr
    rw [next_graft, if_pos rfl, get_graft (Nat.lt_succ_self _), get_alloc_next]
  · rw [next_graft, if_neg hr, get_graft_eq, get_graft_eq, next_alloc]
    by_cases hlt : old.next ≤ r ∧ r - old.next < new.next
    · rw [if_pos hlt, if_pos ⟨hlt.1, hlt.2.trans (Nat.lt_succ_self _)⟩,
        get_alloc_of_ne _ _ hlt.2.ne]
    · rw [if_neg hlt, if_neg (by omega)]

/-- Mutating a cell behind. -/
theorem modify_graft {r : ℕ} (hr : r < new.next) {g g' : α → α}
    (h : g' (f (new.get r)) = f (g (new.get r))) :
    (graft f old new).modify (old.next + r) g' = graft f old (new.modify r g) := by
  refine ext (funext fun r' => ?_) rfl
  rw [get_modify]
  by_cases hr' : r' = old.next + r
  · subst hr'
    have hr'' : r < (new.modify r g).next := hr
    rw [if_pos rfl, get_graft hr, get_graft hr'', get_modify_self, h]
  · rw [if_neg hr']
    by_cases hle : old.next ≤ r'
    · have hne : r' - old.next ≠ r := by omega
      simp only [graft, get_modify_of_ne _ _ hne]
      rfl
    · rw [get_graft_of_lt (by omega), get_graft_of_lt (by omega)]

/-- Mutating a cell in front. -/
theorem modify_graft_of_lt {r : ℕ} (hr : r < old.next) (g : α → α) :
    (graft f old new).modify r g = graft f (old.modify r g) new := by
  refine ext (funext fun r' => ?_) rfl
  rw [get_modify, get_graft_of_lt hr]
  by_cases hr' : r' = r
  · subst hr'
    rw [if_pos rfl, get_graft_of_lt (show r' < (old.modify r' g).next from hr), get_modify_self]
  · simp only [graft, if_neg hr', get_modify_of_ne _ _ hr']
    rfl

/-- Mutating cells behind. -/
theorem modifyAll_graft {s : Finset ℕ} (hs : ∀ r ∈ s, r < new.next) {g g' : α → α}
    (h : ∀ a, g' (f a) = f (g a)) :
    (graft f old new).modifyAll (s.map (behindAddr old.next)) g'
      = graft f old (new.modifyAll s g) := by
  refine ext (funext fun r => ?_) rfl
  rw [get_modifyAll]
  by_cases hr : r ∈ s.map (behindAddr old.next)
  · obtain ⟨r, hrs, rfl⟩ := Finset.mem_map.mp hr
    have hr' : r < (new.modifyAll s g).next := hs r hrs
    have haddr : behindAddr old.next r = old.next + r := rfl
    rw [if_pos hr, haddr, get_graft (hs r hrs), get_graft hr', get_modifyAll, if_pos hrs, h]
  · rw [if_neg hr]
    by_cases hle : old.next ≤ r
    · have hnot : r - old.next ∉ s := fun hrs =>
        hr (Finset.mem_map.mpr ⟨r - old.next, hrs, Nat.add_sub_of_le hle⟩)
      simp only [graft, get_modifyAll, if_neg hnot]
      rfl
    · rw [get_graft_of_lt (by omega), get_graft_of_lt (by omega)]

/-- Mutating cells in front. -/
theorem modifyAll_graft_of_lt {s : Finset ℕ} (hs : ∀ r ∈ s, r < old.next) (g : α → α) :
    (graft f old new).modifyAll s g = graft f (old.modifyAll s g) new := by
  refine ext (funext fun r => ?_) rfl
  rw [get_modifyAll]
  by_cases hr : r ∈ s
  · have hr' : r < (old.modifyAll s g).next := hs r hr
    rw [if_pos hr, get_graft_of_lt (hs r hr), get_graft_of_lt hr', get_modifyAll, if_pos hr]
  · simp only [graft, get_modifyAll, if_neg hr]
    rfl

end Heap

namespace BoundedQueue

variable {α : Type u} {β : Type v}

/-- Every item, changed. -/
def map (f : α → β) (q : BoundedQueue α) : BoundedQueue β where
  maxsize := q.maxsize
  items := q.items.map f
  length_le := by rw [List.length_map]; exact q.length_le

theorem putNowait_map (f : α → β) (q : BoundedQueue α) (a : α) :
    (q.map f).putNowait (f a) = (q.putNowait a).map (map f) := by
  by_cases h : q.items.length < q.maxsize
  · have h' : (q.map f).items.length < (q.map f).maxsize := by simpa [map] using h
    rw [putNowait, putNowait, dif_pos h, dif_pos h', Option.map_some]
    exact congrArg some (ext rfl (by simp [map]))
  · have h' : ¬ (q.map f).items.length < (q.map f).maxsize := by simpa [map] using h
    rw [putNowait, putNowait, dif_neg h, dif_neg h', Option.map_none]

theorem getNowait_map (f : α → β) (q : BoundedQueue α) :
    (q.map f).getNowait = q.getNowait.map fun r => (f r.1, r.2.map f) := by
  obtain ⟨maxsize, items, hlength⟩ := q
  rcases items with _ | ⟨a, rest⟩
  · rfl
  · rfl

end BoundedQueue

namespace Dict

variable {κ : Type u} {ν : Type v} {μ : Type w}

/-- Every value, changed. -/
def mapValues (f : ν → μ) (d : Dict κ ν) : Dict κ μ where
  entries := d.entries.map fun e => (e.1, f e.2)
  nodup := by simpa [Function.comp_def] using d.nodup

@[simp] theorem values_mapValues (f : ν → μ) (d : Dict κ ν) :
    (d.mapValues f).values = d.values.map f := by
  simp [values, mapValues, Function.comp_def]

variable [DecidableEq κ]

theorem get?_mapValues (f : ν → μ) (d : Dict κ ν) (k : κ) :
    (d.mapValues f).get? k = (d.get? k).map f := by
  have hfind : ∀ es : List (κ × ν), find k (es.map fun e => (e.1, f e.2)) = (find k es).map f := by
    intro es
    induction es with
    | nil => rfl
    | cons e es ih =>
      obtain ⟨k', v⟩ := e
      rw [List.map_cons, find, find, ih]
      split <;> rfl
  exact hfind d.entries

theorem set_mapValues (f : ν → μ) (d : Dict κ ν) (k : κ) (v : ν) :
    (d.mapValues f).set k (f v) = (d.set k v).mapValues f :=
  ext (map_assign f k v d.entries).symm

end Dict

end Machinery
