import Mathlib.Data.List.Basic
import Mathlib.Data.List.Range
import Mathlib.Data.List.TakeDrop
import Mathlib.Order.Defs.PartialOrder
import Mathlib.Tactic.Common

/-!
# Machinery/Buffer — bounded queues and deques

Two buffers that never hold more than their capacity, and differ in what they do when they are full:
a `BoundedQueue` refuses the newcomer (`putNowait` is `none`), a `BoundedDeque` lets the oldest item
go.
-/

universe u v

namespace Machinery

variable {α : Type u}

/-! ## A queue that refuses when full -/

/-- A first-in first-out queue of at most `maxsize` items. -/
structure BoundedQueue (α : Type u) where
  maxsize : ℕ
  /-- The waiting items, next one out first. -/
  items : List α
  length_le : items.length ≤ maxsize

namespace BoundedQueue

@[ext] theorem ext : ∀ {q p : BoundedQueue α}, q.maxsize = p.maxsize → q.items = p.items → q = p
  | ⟨_, _, _⟩, ⟨_, _, _⟩, rfl, rfl => rfl

/-- An empty queue. -/
def new (maxsize : ℕ) : BoundedQueue α := ⟨maxsize, [], Nat.zero_le _⟩

/-- Append an item; `none` when the queue is full. -/
def putNowait (q : BoundedQueue α) (a : α) : Option (BoundedQueue α) :=
  if h : q.items.length < q.maxsize then
    some ⟨q.maxsize, q.items ++ [a], by rw [List.length_append]; exact h⟩
  else none

/-- Take the next item; `none` when the queue is empty. -/
def getNowait (q : BoundedQueue α) : Option (α × BoundedQueue α) :=
  match h : q.items with
  | [] => none
  | a :: rest => some (a, ⟨q.maxsize, rest, by
      have := q.length_le
      rw [h, List.length_cons] at this
      omega⟩)

/-- Whether the next `putNowait` succeeds. -/
def HasRoom (q : BoundedQueue α) : Prop := q.items.length < q.maxsize

instance (q : BoundedQueue α) : Decidable q.HasRoom := inferInstanceAs (Decidable (_ < _))

theorem putNowait_of_hasRoom {q : BoundedQueue α} (h : q.HasRoom) (a : α) :
    ∃ q', q.putNowait a = some q' ∧ q'.items = q.items ++ [a] ∧ q'.maxsize = q.maxsize :=
  ⟨_, dif_pos h, rfl, rfl⟩

theorem putNowait_of_full {q : BoundedQueue α} (h : ¬ q.HasRoom) (a : α) :
    q.putNowait a = none := dif_neg h

theorem maxsize_of_putNowait {q q' : BoundedQueue α} {a : α} (h : q.putNowait a = some q') :
    q'.maxsize = q.maxsize := by
  rw [putNowait] at h
  split at h
  · cases h
    rfl
  · cases h

theorem items_of_putNowait {q q' : BoundedQueue α} {a : α} (h : q.putNowait a = some q') :
    q'.items = q.items ++ [a] := by
  rw [putNowait] at h
  split at h
  · cases h
    rfl
  · cases h

theorem items_of_getNowait {q q' : BoundedQueue α} {a : α} (h : q.getNowait = some (a, q')) :
    q.items = a :: q'.items ∧ q'.maxsize = q.maxsize := by
  rw [getNowait] at h
  split at h
  · cases h
  · rename_i a' rest heq
    cases h
    exact ⟨heq, rfl⟩

/-- Taking an item out makes room for one. -/
theorem getNowait_of_ne_nil {q : BoundedQueue α} (h : q.items ≠ []) :
    ∃ a q', q.getNowait = some (a, q') ∧ q'.HasRoom := by
  rcases hget : q.getNowait with _ | ⟨a, q'⟩
  · rw [getNowait] at hget
    split at hget
    · rename_i hnil
      exact absurd hnil h
    · cases hget
  · obtain ⟨hitems, hmax⟩ := items_of_getNowait hget
    have hle := q.length_le
    rw [hitems, List.length_cons] at hle
    exact ⟨a, q', rfl, by rw [HasRoom, hmax]; omega⟩

end BoundedQueue

/-! ## A deque that forgets when full -/

/-- A queue of at most `maxlen` items that drops its oldest item to make room. -/
structure BoundedDeque (α : Type u) where
  maxlen : ℕ
  /-- The retained items, oldest first. -/
  items : List α
  length_le : items.length ≤ maxlen

namespace BoundedDeque

@[ext] theorem ext : ∀ {r s : BoundedDeque α}, r.maxlen = s.maxlen → r.items = s.items → r = s
  | ⟨_, _, _⟩, ⟨_, _, _⟩, rfl, rfl => rfl

/-- An empty deque. -/
def new (maxlen : ℕ) : BoundedDeque α := ⟨maxlen, [], Nat.zero_le _⟩

/-- Append an item, dropping from the front what no longer fits. -/
def append (r : BoundedDeque α) (a : α) : BoundedDeque α :=
  ⟨r.maxlen, (r.items ++ [a]).drop (r.items.length + 1 - r.maxlen), by
    rw [List.length_drop, List.length_append, List.length_singleton]
    omega⟩

/-- Forget everything. -/
def clear (r : BoundedDeque α) : BoundedDeque α := ⟨r.maxlen, [], Nat.zero_le _⟩

/-- A deque with room for one item holds the last one appended. -/
theorem mem_append_self {r : BoundedDeque α} (h : 0 < r.maxlen) (a : α) :
    a ∈ (r.append a).items := by
  change a ∈ (r.items ++ [a]).drop (r.items.length + 1 - r.maxlen)
  rw [List.drop_append_of_le_length (by omega)]
  exact List.mem_append_right _ List.mem_cons_self

/-- An item of a deque was there before, or is the one appended. -/
theorem mem_of_mem_append {r : BoundedDeque α} {a b : α} (h : b ∈ (r.append a).items) :
    b ∈ r.items ∨ b = a := by
  have hb : b ∈ r.items ++ [a] := List.mem_of_mem_drop h
  exact (List.mem_append.mp hb).imp id List.mem_singleton.mp

/-- **A deque holds the tail of what was appended to it**: if it holds the last `maxlen` items of
`l`, then after one more it holds the last `maxlen` of `l` and that one. -/
theorem items_append_of_suffix {r : BoundedDeque α} {l : List α}
    (h : r.items = l.drop (l.length - r.maxlen)) (a : α) :
    (r.append a).items = (l ++ [a]).drop ((l ++ [a]).length - r.maxlen) := by
  have hlen : r.items.length = l.length - (l.length - r.maxlen) := by rw [h, List.length_drop]
  change (r.items ++ [a]).drop (r.items.length + 1 - r.maxlen) = _
  rw [List.length_append, List.length_singleton, h,
    ← List.drop_append_of_le_length (Nat.sub_le ..), List.drop_drop, ← h]
  congr 1
  omega

/-- A deque with room for one item is empty only before the first one. -/
theorem items_eq_nil_iff {r : BoundedDeque α} (hmaxlen : 0 < r.maxlen) {l : List α}
    (h : r.items = l.drop (l.length - r.maxlen)) : r.items = [] ↔ l = [] := by
  rw [h, List.drop_eq_nil_iff, ← List.length_eq_zero_iff]
  omega

end BoundedDeque

/-- **The end of a log answers for all of it**: in a log that grows by a key, a question that
nothing below the oldest item answers can be asked of the items alone. -/
theorem filter_of_suffix {κ : Type v} [Preorder κ] {key : α → κ} {l items : List α}
    (hl : l.Pairwise fun a b => key a < key b) (hsuffix : items <:+ l) {oldest : α}
    (holdest : oldest ∈ items) {p : α → Bool} (hp : ∀ a, key a < key oldest → p a = false) :
    items.filter p = l.filter p := by
  obtain ⟨dropped, rfl⟩ := hsuffix
  obtain ⟨-, -, hbefore⟩ := List.pairwise_append.mp hl
  have hdropped : dropped.filter p = [] := List.filter_eq_nil_iff.mpr fun a ha =>
    Bool.eq_false_iff.mp (hp a (hbefore a ha oldest holdest))
  rw [List.filter_append, hdropped, List.nil_append]

end Machinery
