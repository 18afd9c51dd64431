import Lumencast.Machinery.Dict
import Mathlib.Data.List.Nodup
import Mathlib.Data.List.Perm.Subperm
import Mathlib.Order.Lattice

/-!
# Machinery/Readable — texts that are read back in one way

A value is written as a list of symbols, and other symbols follow.  `Readable` says that the value
and what follows can be told from the whole; it is inherited by lists whose elements are separated,
and equal lists are all that two sorted lists of pairs with distinct keys can be once they are
permutations of each other.  `SpelledAlike` compares two ways of writing a value in the same places,
and a sorted list has one place for each key, whatever is assigned to it.
-/

universe u v w

namespace Machinery

variable {σ : Type u} {α : Type v}

/-! ## Tokens -/

/-- Nothing follows, or a symbol that ends whatever is being read. -/
def Stops (stop : σ → Prop) (r : List σ) : Prop := ∀ p ∈ r.head?, stop p

theorem stops_nil {stop : σ → Prop} : Stops stop [] := fun _ h => nomatch h

theorem stops_cons {stop : σ → Prop} {p : σ} {r : List σ} : Stops stop (p :: r) ↔ stop p := by
  simp [Stops]

/-- Tokens end where the first stop stands. -/
theorem token_inj {stop : σ → Prop} : ∀ {t t' r r' : List σ}, (∀ p ∈ t, ¬ stop p) →
    (∀ p ∈ t', ¬ stop p) → Stops stop r → Stops stop r' → t ++ r = t' ++ r' → t = t' ∧ r = r'
  | [], [], _, _, _, _, _, _, h => ⟨rfl, h⟩
  | [], p :: t', r, r', _, ht', hr, _, h => by
      have heq : r = p :: (t' ++ r') := h
      rw [heq] at hr
      exact absurd (stops_cons.mp hr) (ht' p List.mem_cons_self)
  | p :: t, [], r, r', ht, _, _, hr', h => by
      have heq : r' = p :: (t ++ r) := h.symm
      rw [heq] at hr'
      exact absurd (stops_cons.mp hr') (ht p List.mem_cons_self)
  | p :: t, p' :: t', r, r', ht, ht', hr, hr', h => by
      obtain ⟨hp, hrest⟩ := List.cons.inj h
      obtain ⟨rfl, rfl⟩ := token_inj (fun q hq => ht q (List.mem_cons_of_mem p hq))
        (fun q hq => ht' q (List.mem_cons_of_mem p' hq)) hr hr' hrest
      exact ⟨by rw [hp], rfl⟩

/-! ## Values

Lists are read element by element, since each element says itself where it ends. -/

/-- `a` and what follows its text can be told from the whole, among the values in `D`. -/
def Readable (stop : σ → Prop) (text : α → List σ) (D : α → Prop) (a : α) : Prop :=
  ∀ b, D b → ∀ r r', Stops stop r → Stops stop r' → text a ++ r = text b ++ r' → a = b ∧ r = r'

section Lists

variable (text : α → List σ) (sep : σ)

/-- The elements after the first, each behind a separator, and what closes the list. -/
def following (close : List σ) : List α → List σ
  | [] => close
  | a :: as => sep :: (text a ++ following close as)

/-- The elements with separators between them, and what closes the list. -/
def listed (close : List σ) : List α → List σ
  | [] => close
  | a :: as => text a ++ following text sep close as

end Lists

section Lists

variable {stop : σ → Prop} {text : α → List σ} {D : α → Prop} {sep close : σ}

theorem stops_following (hsep : stop sep) {r : List σ} (hr : Stops stop r) (as : List α) :
    Stops stop (following text sep r as) := by
  rcases as with _ | ⟨a, as⟩
  · exact hr
  · exact stops_cons.mpr hsep

theorem following_inj (hsep : stop sep) (hclose : stop close) (hne : sep ≠ close) :
    ∀ {as bs : List α} {r r' : List σ}, (∀ a ∈ as, Readable stop text D a) → (∀ b ∈ bs, D b) →
      following text sep (close :: r) as = following text sep (close :: r') bs → as = bs ∧ r = r'
  | [], [], _, _, _, _, h => ⟨rfl, (List.cons.inj h).2⟩
  | [], _ :: _, _, _, _, _, h => absurd (List.cons.inj h).1.symm hne
  | _ :: _, [], _, _, _, _, h => absurd (List.cons.inj h).1 hne
  | a :: as, b :: bs, r, r', has, hbs, h => by
      obtain ⟨rfl, hrest⟩ := has a List.mem_cons_self b (hbs b List.mem_cons_self) _ _
        (stops_following hsep (stops_cons.mpr hclose) as)
        (stops_following hsep (stops_cons.mpr hclose) bs) (List.cons.inj h).2
      obtain ⟨rfl, rfl⟩ := following_inj hsep hclose hne
        (fun a' ha => has a' (List.mem_cons_of_mem a ha))
        (fun b' hb => hbs b' (List.mem_cons_of_mem a hb)) hrest
      exact ⟨rfl, rfl⟩

/-- **A list of readable elements can be read**, if no element begins as the list ends. -/
theorem listed_inj (hsep : stop sep) (hclose : stop close) (hne : sep ≠ close)
    (hstart : ∀ a, D a → ∃ p t, text a = p :: t ∧ p ≠ close) {as bs : List α} {r r' : List σ}
    (has : ∀ a ∈ as, Readable stop text D a) (hD : ∀ a ∈ as, D a) (hbs : ∀ b ∈ bs, D b)
    (h : listed text sep (close :: r) as = listed text sep (close :: r') bs) :
    as = bs ∧ r = r' := by
  rcases as with _ | ⟨a, as⟩ <;> rcases bs with _ | ⟨b, bs⟩
  · exact ⟨rfl, (List.cons.inj h).2⟩
  · obtain ⟨p, t, htext, hp⟩ := hstart b (hbs b List.mem_cons_self)
    rw [listed, listed, htext] at h
    exact absurd (List.cons.inj h).1.symm hp
  · obtain ⟨p, t, htext, hp⟩ := hstart a (hD a List.mem_cons_self)
    rw [listed, listed, htext] at h
    exact absurd (List.cons.inj h).1 hp
  · obtain ⟨rfl, hrest⟩ := has a List.mem_cons_self b (hbs b List.mem_cons_self) _ _
      (stops_following hsep (stops_cons.mpr hclose) as)
      (stops_following hsep (stops_cons.mpr hclose) bs) h
    obtain ⟨rfl, rfl⟩ := following_inj hsep hclose hne
      (fun a' ha => has a' (List.mem_cons_of_mem a ha))
      (fun b' hb => hbs b' (List.mem_cons_of_mem a hb)) hrest
    exact ⟨rfl, rfl⟩

end Lists

/-! ## One value, two spellings -/

section Spellings

variable {stop : σ → Prop} {f g : α → List σ} {Q : α → Prop} {sep : σ}

/-- Wherever the two spellings of `a` begin the same text, `Q` holds of `a`, and the same follows. -/
def SpelledAlike (stop : σ → Prop) (f g : α → List σ) (Q : α → Prop) (a : α) : Prop :=
  ∀ r r', Stops stop r → Stops stop r' → f a ++ r = g a ++ r' → Q a ∧ r = r'

theorem following_alike (hsep : stop sep) : ∀ {as : List α} {r r' : List σ}, Stops stop r →
    Stops stop r' → (∀ a ∈ as, SpelledAlike stop f g Q a) →
      following f sep r as = following g sep r' as → (∀ a ∈ as, Q a) ∧ r = r'
  | [], _, _, _, _, _, h => ⟨List.forall_mem_nil _, h⟩
  | a :: as, r, r', hr, hr', has, h => by
      obtain ⟨ha, hrest⟩ := has a List.mem_cons_self _ _ (stops_following hsep hr as)
        (stops_following hsep hr' as) (List.cons.inj h).2
      obtain ⟨has, hr⟩ := following_alike hsep hr hr'
        (fun b hb => has b (List.mem_cons_of_mem a hb)) hrest
      exact ⟨List.forall_mem_cons.mpr ⟨ha, has⟩, hr⟩

/-- **A list that is spelled in two ways** is spelled alike when its elements are. -/
theorem listed_alike (hsep : stop sep) {as : List α} {r r' : List σ} (hr : Stops stop r)
    (hr' : Stops stop r') (has : ∀ a ∈ as, SpelledAlike stop f g Q a)
    (h : listed f sep r as = listed g sep r' as) : (∀ a ∈ as, Q a) ∧ r = r' := by
  rcases as with _ | ⟨a, as⟩
  · exact ⟨List.forall_mem_nil _, h⟩
  · obtain ⟨ha, hrest⟩ := has a List.mem_cons_self _ _ (stops_following hsep hr as)
      (stops_following hsep hr' as) h
    obtain ⟨has, hr⟩ := following_alike hsep hr hr'
      (fun b hb => has b (List.mem_cons_of_mem a hb)) hrest
    exact ⟨List.forall_mem_cons.mpr ⟨ha, has⟩, hr⟩

end Spellings

/-! ## Sorting by keys

Distinct keys leave a sort no choice, so pairs that are the same up to their order are the same
once they are sorted. -/

section Keys

variable {κ : Type u} {ν : Type v} {μ : Type w}

/-- Pairs with distinct keys that occur in a list with the same keys make up all of it. -/
theorem perm_of_subset {es es' : List (κ × ν)} (hnodup : (es.map Prod.fst).Nodup)
    (hkeys : (es.map Prod.fst).Perm (es'.map Prod.fst)) (hsub : es ⊆ es') : es.Perm es' := by
  refine (List.subperm_of_subset (List.Nodup.of_map _ hnodup) hsub).perm_of_length_le ?_
  have hlength := hkeys.length_eq
  rw [List.length_map, List.length_map] at hlength
  exact Nat.le_of_eq hlength.symm

variable [LinearOrder κ]

/-- The order of two pairs is that of their keys. -/
def keyLE (e e' : κ × ν) : Bool := decide (e.1 ≤ e'.1)

/-- Pairs in the order of their keys. -/
def sortByKey (es : List (κ × ν)) : List (κ × ν) := es.mergeSort keyLE

theorem sortByKey_perm (es : List (κ × ν)) : (sortByKey es).Perm es := List.mergeSort_perm es keyLE

theorem keyLE_trans (e e' e'' : κ × ν) (h : keyLE e e' = true) (h' : keyLE e' e'' = true) :
    keyLE e e'' = true := decide_eq_true (le_trans (of_decide_eq_true h) (of_decide_eq_true h'))

theorem keyLE_total (e e' : κ × ν) : (keyLE e e' || keyLE e' e) = true := by
  rw [Bool.or_eq_true]
  exact (le_total e.1 e'.1).imp decide_eq_true decide_eq_true

theorem pairwise_sortByKey (es : List (κ × ν)) :
    (sortByKey es).Pairwise fun e e' => keyLE e e' = true :=
  List.pairwise_mergeSort keyLE_trans keyLE_total es

theorem sortByKey_of_pairwise {es : List (κ × ν)} (h : es.Pairwise fun e e' => keyLE e e' = true) :
    sortByKey es = es := List.mergeSort_of_pairwise h

@[simp] theorem sortByKey_sortByKey (es : List (κ × ν)) :
    sortByKey (sortByKey es) = sortByKey es := sortByKey_of_pairwise (pairwise_sortByKey es)

/-- Sorting looks at keys only. -/
theorem map_sortByKey (f : ν → μ) (es : List (κ × ν)) :
    (sortByKey es).map (fun e => (e.1, f e.2)) = sortByKey (es.map fun e => (e.1, f e.2)) :=
  List.map_mergeSort fun _ _ _ _ => rfl

/-- **Sorted lists of pairs with distinct keys are equal exactly when they are permutations.** -/
theorem sortByKey_eq_iff {es es' : List (κ × ν)} (hnodup : (es.map Prod.fst).Nodup) :
    sortByKey es = sortByKey es' ↔ es.Perm es' := by
  constructor
  · intro h
    exact ((sortByKey_perm es).symm.trans (h ▸ .refl _)).trans (sortByKey_perm es')
  · intro h
    have hperm : (sortByKey es).Perm (sortByKey es') :=
      ((sortByKey_perm es).trans h).trans (sortByKey_perm es').symm
    refine hperm.eq_of_pairwise ?_ (pairwise_sortByKey es) (pairwise_sortByKey es')
    intro e e' he he' hle hge
    have hkey : e.1 = e'.1 := le_antisymm (of_decide_eq_true hle) (of_decide_eq_true hge)
    exact List.inj_on_of_nodup_map hnodup ((sortByKey_perm es).mem_iff.mp he)
      ((sortByKey_perm es).mem_iff.mp (hperm.mem_iff.mpr he')) hkey

/-- **A key has its place among the others**, whatever is assigned to it. -/
theorem exists_sortByKey_assign [DecidableEq κ] {es : List (κ × ν)}
    (hnodup : (es.map Prod.fst).Nodup) (k : κ) (v₀ : ν) : ∃ before behind,
      ∀ v, sortByKey (Dict.assign k v es) = before ++ (k, v) :: behind := by
  have hnodup₀ := Dict.nodup_assign (k := k) (v := v₀) hnodup
  have hperm₀ := sortByKey_perm (Dict.assign k v₀ es)
  have hmem : (k, v₀) ∈ sortByKey (Dict.assign k v₀ es) :=
    hperm₀.mem_iff.mpr ((Dict.mem_assign_iff hnodup).mpr (Or.inl rfl))
  obtain ⟨before, behind, hsplit⟩ := List.append_of_mem hmem
  have hsorted := pairwise_sortByKey (Dict.assign k v₀ es)
  rw [hsplit] at hperm₀ hsorted
  have hfresh : k ∉ before.map Prod.fst := by
    have hkeys := ((hperm₀.map Prod.fst).nodup_iff).mpr hnodup₀
    rw [List.map_append, List.map_cons, List.nodup_append] at hkeys
    exact fun hk => hkeys.2.2 k hk k List.mem_cons_self rfl
  refine ⟨before, behind, fun v => ?_⟩
  have hperm : (Dict.assign k v es).Perm (before ++ (k, v) :: behind) := by
    have hassign := Dict.assign_perm (k := k) (v := v) hnodup₀ hperm₀.symm
    rwa [Dict.assign_assign_self, Dict.assign_append hfresh] at hassign
  have hplace : (before ++ (k, v) :: behind).Pairwise fun e e' => keyLE e e' = true := by
    rw [List.pairwise_append, List.pairwise_cons] at hsorted ⊢
    obtain ⟨hbefore, hbehind, hacross⟩ := hsorted
    refine ⟨hbefore, hbehind, fun e he e' he' => ?_⟩
    rcases List.mem_cons.mp he' with rfl | he'
    · exact hacross e he (k, v₀) List.mem_cons_self
    · exact hacross e he e' (List.mem_cons_of_mem _ he')
  rw [← sortByKey_of_pairwise hplace]
  exact (sortByKey_eq_iff (Dict.nodup_assign hnodup)).mpr hperm

end Keys

end Machinery
