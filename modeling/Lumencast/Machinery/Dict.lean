import Mathlib.Data.List.Nodup
import Mathlib.Data.List.Basic
import Mathlib.Data.List.Induction

/-!
# Machinery/Dict — insertion-ordered dictionaries

A `Dict κ ν` is a list of pairs whose keys are distinct.  Assignment overwrites in place and appends
a new key at the end, so two dictionaries are equal exactly when they hold the same pairs **in the
same order** — finer than equality of the maps they denote, which is `get?`.
-/

universe u v w

namespace Machinery

/-- An insertion-ordered dictionary: pairs with distinct keys. -/
structure Dict (κ : Type u) (ν : Type v) where
  /-- The pairs, oldest key first. -/
  entries : List (κ × ν)
  nodup : (entries.map Prod.fst).Nodup

namespace Dict

variable {κ : Type u} {ν : Type v}

@[ext] theorem ext : ∀ {d e : Dict κ ν}, d.entries = e.entries → d = e
  | ⟨_, _⟩, ⟨_, _⟩, rfl => rfl

/-- The dictionary with no key. -/
def empty : Dict κ ν := ⟨[], List.nodup_nil⟩

instance : Inhabited (Dict κ ν) := ⟨empty⟩

@[simp] theorem entries_empty : (empty : Dict κ ν).entries = [] := rfl

/-- The keys, oldest first. -/
def keys (d : Dict κ ν) : List κ := d.entries.map Prod.fst

/-- The values, in key order. -/
def values (d : Dict κ ν) : List ν := d.entries.map Prod.snd

/-- Whether no key is bound — a dictionary's truth value, negated. -/
def isEmpty (d : Dict κ ν) : Bool := d.entries.isEmpty

theorem isEmpty_iff {d : Dict κ ν} : d.isEmpty ↔ d = empty :=
  ⟨fun h => ext (List.isEmpty_iff.mp h), fun h => h ▸ rfl⟩

instance [DecidableEq κ] [DecidableEq ν] : DecidableEq (Dict κ ν) := fun d e =>
  decidable_of_iff (d.entries = e.entries) ⟨ext, congrArg entries⟩

variable [DecidableEq κ]

/-! ## Looking up and assigning -/

/-- The value bound to `k`, searched from the front. -/
def find (k : κ) : List (κ × ν) → Option ν
  | [] => none
  | (k', v) :: es => if k' = k then some v else find k es

/-- The value a key is bound to. -/
def get? (d : Dict κ ν) (k : κ) : Option ν := find k d.entries

/-- Overwrite `k` in place, or append it. -/
def assign (k : κ) (v : ν) : List (κ × ν) → List (κ × ν)
  | [] => [(k, v)]
  | (k', v') :: es => if k' = k then (k, v) :: es else (k', v') :: assign k v es

theorem mem_keys_assign {k k' : κ} {v : ν} : ∀ {es : List (κ × ν)},
    k' ∈ (assign k v es).map Prod.fst ↔ k' = k ∨ k' ∈ es.map Prod.fst
  | [] => by simp [assign]
  | (k₀, v₀) :: es => by
      rw [assign]
      split
      · rename_i h
        subst h
        simp
      · rw [List.map_cons, List.mem_cons, mem_keys_assign, List.map_cons, List.mem_cons]
        tauto

theorem nodup_assign {k : κ} {v : ν} : ∀ {es : List (κ × ν)},
    (es.map Prod.fst).Nodup → ((assign k v es).map Prod.fst).Nodup
  | [], _ => by simp [assign]
  | (k₀, v₀) :: es, h => by
      rw [List.map_cons, List.nodup_cons] at h
      rw [assign]
      split
      · rename_i hk
        subst hk
        simpa using h
      · rename_i hk
        rw [List.map_cons, List.nodup_cons]
        refine ⟨fun hmem => ?_, nodup_assign h.2⟩
        rcases mem_keys_assign.mp hmem with heq | hin
        · exact hk heq
        · exact h.1 hin

/-- `d[k] = v`. -/
def set (d : Dict κ ν) (k : κ) (v : ν) : Dict κ ν := ⟨assign k v d.entries, nodup_assign d.nodup⟩

theorem find_assign_self (k : κ) (v : ν) : ∀ es : List (κ × ν), find k (assign k v es) = some v
  | [] => by simp [assign, find]
  | (k₀, v₀) :: es => by
      rw [assign]
      split
      · simp [find]
      · rename_i h
        rw [find, if_neg h, find_assign_self k v es]

theorem find_assign_of_ne {k k' : κ} (v : ν) (hne : k' ≠ k) : ∀ es : List (κ × ν),
    find k' (assign k v es) = find k' es
  | [] => by simp [assign, find, Ne.symm hne]
  | (k₀, v₀) :: es => by
      rw [assign]
      split
      · rename_i h
        subst h
        rw [find, if_neg (Ne.symm hne), find, if_neg (Ne.symm hne)]
      · rw [find, find, find_assign_of_ne v hne es]

@[simp] theorem get?_empty (k : κ) : (empty : Dict κ ν).get? k = none := rfl

@[simp] theorem get?_set_self (d : Dict κ ν) (k : κ) (v : ν) : (d.set k v).get? k = some v :=
  find_assign_self k v d.entries

theorem get?_set_of_ne (d : Dict κ ν) {k k' : κ} (v : ν) (hne : k' ≠ k) :
    (d.set k v).get? k' = d.get? k' :=
  find_assign_of_ne v hne d.entries

theorem find_append (k : κ) (es' : List (κ × ν)) : ∀ es : List (κ × ν),
    find k (es ++ es') = (find k es).or (find k es')
  | [] => rfl
  | (k₀, v₀) :: es => by
      rw [List.cons_append, find, find]
      split
      · rfl
      · exact find_append k es' es

/-- A bound key is one of the keys, with its value among the pairs. -/
theorem mem_of_find {k : κ} {v : ν} : ∀ {es : List (κ × ν)}, find k es = some v → (k, v) ∈ es
  | [], h => by simp [find] at h
  | (k₀, v₀) :: es, h => by
      rw [find] at h
      split at h
      · rename_i hk
        cases h
        subst hk
        exact List.mem_cons_self
      · exact List.mem_cons_of_mem _ (mem_of_find h)

/-- Among distinct keys, each pair is the one its key finds. -/
theorem find_of_mem {k : κ} {v : ν} : ∀ {es : List (κ × ν)}, (es.map Prod.fst).Nodup →
    (k, v) ∈ es → find k es = some v
  | (k₀, v₀) :: es, hd, h => by
      rw [List.map_cons, List.nodup_cons] at hd
      rcases List.mem_cons.mp h with heq | h
      · cases heq
        rw [find, if_pos rfl]
      · have hne : k₀ ≠ k := fun hk => hd.1 (List.mem_map.mpr ⟨(k, v), h, hk.symm⟩)
        rw [find, if_neg hne, find_of_mem hd.2 h]

theorem exists_get?_of_mem_values {d : Dict κ ν} {v : ν} (h : v ∈ d.values) :
    ∃ k, d.get? k = some v := by
  obtain ⟨⟨k, _⟩, he, rfl⟩ := List.mem_map.mp h
  exact ⟨k, find_of_mem d.nodup he⟩

theorem mem_values_of_get? {d : Dict κ ν} {k : κ} {v : ν} (h : d.get? k = some v) :
    v ∈ d.values :=
  List.mem_map_of_mem (mem_of_find h)

/-- An assignment binds no value but the one assigned. -/
theorem mem_assign {k : κ} {v : ν} {e : κ × ν} : ∀ {es : List (κ × ν)},
    e ∈ assign k v es → e = (k, v) ∨ e ∈ es
  | [], h => Or.inl (List.mem_singleton.mp h)
  | (k₀, v₀) :: es, h => by
      rw [assign] at h
      split at h
      · rcases List.mem_cons.mp h with rfl | h
        · exact Or.inl rfl
        · exact Or.inr (List.mem_cons_of_mem _ h)
      · rcases List.mem_cons.mp h with rfl | h
        · exact Or.inr List.mem_cons_self
        · exact (mem_assign h).imp id (List.mem_cons_of_mem _)

/-- What is bound after an assignment: the new pair, and the old ones of the other keys. -/
theorem mem_assign_iff {k : κ} {v : ν} {e : κ × ν} : ∀ {es : List (κ × ν)},
    (es.map Prod.fst).Nodup → (e ∈ assign k v es ↔ e = (k, v) ∨ e.1 ≠ k ∧ e ∈ es)
  | [], _ => by simp [assign]
  | (k₀, v₀) :: es, h => by
      rw [List.map_cons, List.nodup_cons] at h
      rw [assign]
      split
      · rename_i hk
        subst hk
        have hfresh : e ∈ es → e.1 ≠ k₀ := fun he heq => h.1 (List.mem_map.mpr ⟨e, he, heq⟩)
        rw [List.mem_cons, List.mem_cons]
        constructor
        · exact Or.imp_right fun he => ⟨hfresh he, Or.inr he⟩
        · rintro (heq | ⟨hne, rfl | he⟩)
          · exact Or.inl heq
          · exact absurd rfl hne
          · exact Or.inr he
      · rename_i hk
        rw [List.mem_cons, mem_assign_iff h.2, List.mem_cons]
        constructor
        · rintro (rfl | heq | ⟨hne, he⟩)
          · exact Or.inr ⟨hk, Or.inl rfl⟩
          · exact Or.inl heq
          · exact Or.inr ⟨hne, Or.inr he⟩
        · rintro (heq | ⟨hne, heq | he⟩)
          · exact Or.inr (Or.inl heq)
          · exact Or.inl heq
          · exact Or.inr (Or.inr ⟨hne, he⟩)

/-- **Assigning to two orders of the same pairs** leaves two orders of the same pairs. -/
theorem assign_perm {k : κ} {v : ν} {es es' : List (κ × ν)} (hnodup : (es.map Prod.fst).Nodup)
    (h : es.Perm es') : (assign k v es).Perm (assign k v es') := by
  have hnodup' := ((h.map Prod.fst).nodup_iff).mp hnodup
  refine (List.perm_ext_iff_of_nodup (.of_map _ (nodup_assign hnodup))
    (.of_map _ (nodup_assign hnodup'))).mpr fun e => ?_
  rw [mem_assign_iff hnodup, mem_assign_iff hnodup', h.mem_iff]

/-- Assigning and changing every value commute. -/
theorem map_assign {μ : Type w} (f : ν → μ) (k : κ) (v : ν) : ∀ es : List (κ × ν),
    (assign k v es).map (fun e => (e.1, f e.2)) = assign k (f v) (es.map fun e => (e.1, f e.2))
  | [] => rfl
  | (k₀, v₀) :: es => by
      rw [List.map_cons, assign, assign]
      split
      · rfl
      · rw [List.map_cons, map_assign f k v es]

theorem mem_values_set {d : Dict κ ν} {k : κ} {v w : ν} (h : w ∈ (d.set k v).values) :
    w = v ∨ w ∈ d.values := by
  obtain ⟨e, he, rfl⟩ := List.mem_map.mp h
  rcases mem_assign he with rfl | he
  · exact Or.inl rfl
  · exact Or.inr (List.mem_map_of_mem he)

/-- A key that is not among the pairs is unbound. -/
theorem find_eq_none {k : κ} : ∀ {es : List (κ × ν)}, k ∉ es.map Prod.fst → find k es = none
  | [], _ => rfl
  | (k₀, v₀) :: es, h => by
      rw [List.map_cons, List.mem_cons, not_or] at h
      rw [find, if_neg (Ne.symm h.1), find_eq_none h.2]

/-- The bound keys are those of the pairs. -/
theorem find_isSome_iff {k : κ} {es : List (κ × ν)} :
    (find k es).isSome = true ↔ k ∈ es.map Prod.fst := by
  constructor
  · intro h
    obtain ⟨v, hv⟩ := Option.isSome_iff_exists.mp h
    exact List.mem_map_of_mem (mem_of_find hv)
  · induction es with
    | nil => exact fun h => absurd h List.not_mem_nil
    | cons e es ih =>
        obtain ⟨k₀, v₀⟩ := e
        rw [find]
        intro h
        split
        · rfl
        · rename_i hk
          exact ih ((List.mem_cons.mp h).resolve_left (Ne.symm hk))

/-! ## Overlaying a list of pairs

`update` is the one way a dictionary grows: a batch of assignments, left to right. -/

/-- Assign every pair of `es`, left to right. -/
def update (d : Dict κ ν) (es : List (κ × ν)) : Dict κ ν :=
  es.foldl (fun d e => d.set e.1 e.2) d

/-- The dictionary built from a list of pairs; the last value of a key wins. -/
def ofList (es : List (κ × ν)) : Dict κ ν := empty.update es

@[simp] theorem update_nil (d : Dict κ ν) : d.update [] = d := rfl

@[simp] theorem update_cons (d : Dict κ ν) (e : κ × ν) (es : List (κ × ν)) :
    d.update (e :: es) = (d.set e.1 e.2).update es := rfl

/-- A key the batch does not mention keeps its value. -/
theorem get?_update_of_notMem {k : κ} : ∀ (es : List (κ × ν)) (d : Dict κ ν),
    k ∉ es.map Prod.fst → (d.update es).get? k = d.get? k
  | [], _, _ => rfl
  | (k₀, v₀) :: es, d, h => by
      rw [List.map_cons, List.mem_cons, not_or] at h
      rw [update_cons, get?_update_of_notMem es _ h.2, get?_set_of_ne d v₀ h.1]

theorem find_cons_of_ne {k k' : κ} (v : ν) (es : List (κ × ν)) (hne : k' ≠ k) :
    find k ((k', v) :: es) = find k es := if_neg hne

/-- **A batch of distinct keys wins over what was there.** -/
theorem get?_update : ∀ (es : List (κ × ν)) (d : Dict κ ν) (k : κ), (es.map Prod.fst).Nodup →
    (d.update es).get? k = (find k es).or (d.get? k)
  | [], _, _, _ => rfl
  | (k₀, v₀) :: es, d, k, h => by
      rw [List.map_cons, List.nodup_cons] at h
      rw [update_cons, get?_update es _ k h.2]
      by_cases hk : k₀ = k
      · subst hk
        rw [find_eq_none h.1, get?_set_self, find, if_pos rfl]
        rfl
      · rw [find_cons_of_ne v₀ es hk, get?_set_of_ne d v₀ (Ne.symm hk)]

/-- What a batch leaves under a key is in the batch, or was there before. -/
theorem of_get?_update {d batch : Dict κ ν} {k : κ} {v : ν}
    (h : (d.update batch.entries).get? k = some v) : batch.get? k = some v ∨ d.get? k = some v := by
  rw [get?_update _ _ _ batch.nodup] at h
  exact (Option.or_eq_some_iff.mp h).imp id And.right

/-- What is bound after a batch was bound before it, or is in the batch. -/
theorem mem_entries_update {e : κ × ν} : ∀ (es : List (κ × ν)) (d : Dict κ ν),
    e ∈ (d.update es).entries → e ∈ d.entries ∨ e ∈ es
  | [], _, h => Or.inl h
  | (k₀, v₀) :: es, d, h => by
      rcases mem_entries_update es _ h with h | h
      · rcases mem_assign h with rfl | h
        · exact Or.inr List.mem_cons_self
        · exact Or.inl h
      · exact Or.inr (List.mem_cons_of_mem _ h)

/-- A batch of distinct keys is bound afterwards. -/
theorem mem_update_of_mem {d : Dict κ ν} {es : List (κ × ν)} (hd : (es.map Prod.fst).Nodup)
    {e : κ × ν} (h : e ∈ es) : e ∈ (d.update es).entries := by
  have hget : (d.update es).get? e.1 = some e.2 := by
    rw [get?_update es d e.1 hd, find_of_mem hd h]
    rfl
  exact mem_of_find hget

theorem mem_keys_update {k : κ} : ∀ (es : List (κ × ν)) (d : Dict κ ν),
    k ∈ (d.update es).keys ↔ k ∈ d.keys ∨ k ∈ es.map Prod.fst
  | [], d => by simp
  | (k₀, v₀) :: es, d => by
      rw [update_cons, mem_keys_update es, keys, set, mem_keys_assign, List.map_cons,
        List.mem_cons, keys]
      tauto

/-- The keys of `ofList` are the keys of the list. -/
theorem mem_keys_ofList {k : κ} {es : List (κ × ν)} :
    k ∈ (ofList es).keys ↔ k ∈ es.map Prod.fst := by
  rw [ofList, mem_keys_update]
  simp [keys]

theorem assign_of_notMem {k : κ} {v : ν} : ∀ {es : List (κ × ν)},
    k ∉ es.map Prod.fst → assign k v es = es ++ [(k, v)]
  | [], _ => rfl
  | (k₀, v₀) :: es, h => by
      rw [List.map_cons, List.mem_cons, not_or] at h
      rw [assign, if_neg (Ne.symm h.1), assign_of_notMem h.2, List.cons_append]

theorem assign_append {k : κ} {v w : ν} {es' : List (κ × ν)} : ∀ {es : List (κ × ν)},
    k ∉ es.map Prod.fst → assign k v (es ++ (k, w) :: es') = es ++ (k, v) :: es'
  | [], _ => if_pos rfl
  | (k₀, v₀) :: es, h => by
      rw [List.map_cons, List.mem_cons, not_or] at h
      rw [List.cons_append, assign, if_neg (Ne.symm h.1), assign_append h.2, List.cons_append]

/-- A batch of fresh, distinct keys is appended as it stands. -/
theorem entries_update_of_fresh : ∀ (es : List (κ × ν)) (d : Dict κ ν),
    ((d.entries ++ es).map Prod.fst).Nodup → (d.update es).entries = d.entries ++ es
  | [], d, _ => by simp
  | (k₀, v₀) :: es, d, h => by
      have hk : k₀ ∉ d.entries.map Prod.fst := by
        rw [List.map_append, List.nodup_append] at h
        exact fun hmem => h.2.2 _ hmem _ (by simp) rfl
      have hset : (d.set k₀ v₀).entries = d.entries ++ [(k₀, v₀)] := assign_of_notMem hk
      rw [update_cons, entries_update_of_fresh es _ (by rw [hset]; simpa using h), hset,
        List.append_assoc, List.singleton_append]

/-- **A dictionary is rebuilt by its own pairs.** -/
@[simp] theorem ofList_entries (d : Dict κ ν) : ofList d.entries = d :=
  ext (by rw [ofList, entries_update_of_fresh _ _ (by simpa using d.nodup), entries_empty,
    List.nil_append])

/-- A batch with a key in it leaves something bound. -/
theorem update_ne_empty {d : Dict κ ν} {e : κ × ν} {es : List (κ × ν)} :
    d.update (e :: es) ≠ empty := fun h => by
  have hmem : e.1 ∈ (d.update (e :: es)).keys := (mem_keys_update _ _).mpr (Or.inr (by simp))
  rw [h] at hmem
  simp [keys] at hmem

theorem ofList_eq_empty_iff {es : List (κ × ν)} : ofList es = empty ↔ es = [] := by
  rcases es with _ | ⟨e, es⟩
  · exact iff_of_true rfl rfl
  · exact iff_of_false update_ne_empty (List.cons_ne_nil e es)

/-! ## A batch with repeated keys

A batch may name a key twice.  Its dictionary keeps the place of the first and the value of the
last, and overlays just what the batch does. -/

theorem assign_assign_self (k : κ) (v w : ν) : ∀ es : List (κ × ν),
    assign k w (assign k v es) = assign k w es
  | [] => by simp [assign]
  | (k₀, v₀) :: es => by
      by_cases hk : k₀ = k
      · simp [assign, hk]
      · simp [assign, hk, assign_assign_self k v w es]

/-- Overwriting in place commutes with any other assignment. -/
theorem assign_comm {k k' : κ} (v v' : ν) (hne : k ≠ k') : ∀ {es : List (κ × ν)},
    k ∈ es.map Prod.fst → assign k v (assign k' v' es) = assign k' v' (assign k v es)
  | [], h => absurd h List.not_mem_nil
  | (k₀, v₀) :: es, h => by
      by_cases hk : k₀ = k
      · subst hk
        simp [assign, hne]
      · have hin : k ∈ es.map Prod.fst := (List.mem_cons.mp h).resolve_left (Ne.symm hk)
        by_cases hk' : k₀ = k'
        · subst hk'
          simp [assign, hk]
        · simp [assign, hk, hk', assign_comm v v' hne hin]

theorem update_set_comm {k : κ} (v : ν) : ∀ {es : List (κ × ν)} {d : Dict κ ν}, k ∈ d.keys →
    k ∉ es.map Prod.fst → (d.update es).set k v = (d.set k v).update es
  | [], _, _, _ => rfl
  | (k₀, v₀) :: es, d, hd, h => by
      rw [List.map_cons, List.mem_cons, not_or] at h
      have hkeys : k ∈ (d.set k₀ v₀).keys := mem_keys_assign.mpr (Or.inr hd)
      have hcomm : (d.set k₀ v₀).set k v = (d.set k v).set k₀ v₀ :=
        ext (assign_comm v v₀ h.1 hd)
      rw [update_cons, update_cons, update_set_comm v hkeys h.2, hcomm]

/-- Overlaying one more pair. -/
theorem update_assign (k : κ) (v : ν) : ∀ {es : List (κ × ν)} {d : Dict κ ν},
    (es.map Prod.fst).Nodup → d.update (assign k v es) = (d.update es).set k v
  | [], _, _ => rfl
  | (k₀, v₀) :: es, d, h => by
      rw [List.map_cons, List.nodup_cons] at h
      by_cases hk : k₀ = k
      · subst hk
        have hkeys : k₀ ∈ (d.set k₀ v₀).keys := mem_keys_assign.mpr (Or.inl rfl)
        have hself : (d.set k₀ v₀).set k₀ v = d.set k₀ v := ext (assign_assign_self k₀ v₀ v _)
        rw [assign, if_pos rfl, update_cons, update_cons, update_set_comm v hkeys h.1, hself]
      · rw [assign, if_neg hk, update_cons, update_cons, update_assign k v h.2]

theorem update_concat (d : Dict κ ν) (es : List (κ × ν)) (e : κ × ν) :
    d.update (es ++ [e]) = (d.update es).set e.1 e.2 := List.foldl_append

/-- **Overlaying a batch's dictionary is overlaying the batch**, pair by pair. -/
theorem update_ofList (d : Dict κ ν) (es : List (κ × ν)) :
    d.update (ofList es).entries = d.update es := by
  induction es using List.reverseRecOn with
  | nil => rfl
  | append_singleton es e ih =>
      have hset : ofList (es ++ [e]) = (ofList es).set e.1 e.2 := update_concat empty es e
      have hentries : ((ofList es).set e.1 e.2).entries = assign e.1 e.2 (ofList es).entries := rfl
      rw [hset, hentries, update_assign e.1 e.2 (ofList es).nodup, ih, update_concat]

theorem keys_assign (k : κ) (v : ν) : ∀ es : List (κ × ν), (assign k v es).map Prod.fst
    = es.map Prod.fst ++ if k ∈ es.map Prod.fst then [] else [k]
  | [] => rfl
  | (k₀, v₀) :: es => by
      by_cases hk : k₀ = k
      · simp [assign, hk]
      · have hmem : k ∈ ((k₀, v₀) :: es).map Prod.fst ↔ k ∈ es.map Prod.fst := by
          rw [List.map_cons, List.mem_cons, or_iff_right (Ne.symm hk)]
        rw [assign, if_neg hk, List.map_cons, keys_assign k v es, List.map_cons, List.cons_append,
          ← List.map_cons, if_congr hmem rfl rfl]

/-- The keys of a batch's dictionary, in the order they first turn up. -/
theorem keys_ofList (es : List (κ × ν)) : (ofList es).keys = (es.map Prod.fst).eraseDups := by
  induction es using List.reverseRecOn with
  | nil => rfl
  | append_singleton es e ih =>
      have hset : ofList (es ++ [e]) = (ofList es).set e.1 e.2 := update_concat empty es e
      have hmem : e.1 ∈ (ofList es).entries.map Prod.fst ↔ e.1 ∈ es.map Prod.fst :=
        mem_keys_ofList
      rw [hset, keys, set, keys_assign, List.map_append, List.eraseDups_append, ← ih, keys]
      refine congrArg ((ofList es).entries.map Prod.fst ++ ·) ?_
      by_cases hin : e.1 ∈ es.map Prod.fst
      · rw [if_pos (hmem.mpr hin), List.map_singleton]
        simp [List.removeAll, hin]
      · rw [if_neg (hmem.not.mpr hin), List.map_singleton]
        simp [List.removeAll, hin, List.eraseDups_cons]

/-- What a key is bound to after a batch, repeated keys or not: the last value the batch has. -/
theorem get?_update_reverse (d : Dict κ ν) (es : List (κ × ν)) (k : κ) :
    (d.update es).get? k = (find k es.reverse).or (d.get? k) := by
  induction es using List.reverseRecOn with
  | nil => rfl
  | append_singleton es e ih =>
      rw [update_concat, List.reverse_append, List.reverse_singleton, List.singleton_append]
      by_cases hk : e.1 = k
      · rw [← hk, get?_set_self, find, if_pos rfl]
        rfl
      · rw [get?_set_of_ne _ _ (Ne.symm hk), find, if_neg hk, ih]

/-- **A batch's dictionary**: its keys in the order they first turn up, each with its last value. -/
theorem entries_ofList (es : List (κ × ν)) : (ofList es).entries
    = (es.map Prod.fst).eraseDups.filterMap fun k => (find k es.reverse).map fun v => (k, v) := by
  have hget : ∀ k, find k es.reverse = (ofList es).get? k := fun k => by
    rw [ofList, get?_update_reverse, get?_empty, Option.or_none]
  rw [← keys_ofList, keys, List.filterMap_map]
  have hself : ∀ e ∈ (ofList es).entries,
      ((fun k => (find k es.reverse).map fun v => (k, v)) ∘ Prod.fst) e = some e := fun e he => by
    rw [Function.comp_apply, hget, get?, find_of_mem (ofList es).nodup he]
    rfl
  rw [List.filterMap_congr hself, List.filterMap_some]

end Dict

end Machinery
