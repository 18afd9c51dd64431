import Lumencast.Machinery.Dict

/-!
# Machinery/Nested — nested dictionaries and their leaves

A nested dictionary is a leaf, or a node with named children.  `leaves` lists its leaves depth
first, each with the chain of names that leads to it; `nest` puts leaves back under their chains,
one after the other.  On a *tidy* dictionary, whose names are distinct at each node and whose nodes
have children, chains are distinct and nesting undoes listing (`nest_leavesOf`).
-/

universe u v

namespace Machinery

/-- A nested dictionary. -/
inductive Nested (κ : Type u) (ν : Type v) where
  | leaf (v : ν)
  | node (kids : List (κ × Nested κ ν))

namespace Nested

variable {κ : Type u} {ν : Type v}

mutual

/-- The leaves, depth first, each with its chain of names. -/
def leaves : Nested κ ν → List (List κ × ν)
  | leaf v => [([], v)]
  | node kids => leavesOf kids

/-- The leaves of the children, in their order. -/
def leavesOf : List (κ × Nested κ ν) → List (List κ × ν)
  | [] => []
  | (k, t) :: kids => (leaves t).map (fun l => (k :: l.1, l.2)) ++ leavesOf kids

end

/-- Names are distinct at each node, and every node has a child. -/
inductive Tidy : Nested κ ν → Prop
  | leaf (v : ν) : Tidy (leaf v)
  | node {kids : List (κ × Nested κ ν)} (ne : kids ≠ []) (nodup : (kids.map Prod.fst).Nodup)
      (tidy : ∀ e ∈ kids, Tidy e.2) : Tidy (node kids)

/-! ## Chains

Two leaves part at some node, where their chains go on with different names. -/

theorem mem_leavesOf {l : List κ × ν} : ∀ {kids : List (κ × Nested κ ν)},
    l ∈ leavesOf kids ↔ ∃ e ∈ kids, ∃ l' ∈ leaves e.2, l = (e.1 :: l'.1, l'.2)
  | [] => by simp [leavesOf]
  | (k, t) :: kids => by
      rw [leavesOf, List.mem_append, mem_leavesOf, List.exists_mem_cons_iff, List.mem_map]
      refine or_congr ⟨?_, ?_⟩ Iff.rfl
      · rintro ⟨l', hl', rfl⟩
        exact ⟨l', hl', rfl⟩
      · rintro ⟨l', hl', rfl⟩
        exact ⟨l', hl', rfl⟩

/-- The leaves of a node sit under the name of one of its children. -/
theorem ne_nil_of_mem_leavesOf {l : List κ × ν} {kids : List (κ × Nested κ ν)}
    (h : l ∈ leavesOf kids) : l.1 ≠ [] := by
  obtain ⟨e, -, l', -, rfl⟩ := mem_leavesOf.mp h
  exact List.cons_ne_nil e.1 l'.1

theorem leaves_ne_nil {t : Nested κ ν} (h : Tidy t) : leaves t ≠ [] := by
  induction h with
  | leaf v => exact List.cons_ne_nil _ _
  | @node kids ne nodup tidy ih =>
      obtain ⟨e, kids', rfl⟩ := List.exists_cons_of_ne_nil ne
      rw [leaves, leavesOf]
      intro hnil
      have hmap := (List.append_eq_nil_iff.mp hnil).1
      exact ih e List.mem_cons_self (List.map_eq_nil_iff.mp hmap)

/-- The chains below the children, given that each child's own are distinct. -/
theorem nodup_leavesOf {kids : List (κ × Nested κ ν)} (hnodup : (kids.map Prod.fst).Nodup)
    (hkids : ∀ e ∈ kids, ((leaves e.2).map Prod.fst).Nodup) :
    ((leavesOf kids).map Prod.fst).Nodup := by
  induction kids with
  | nil => exact List.nodup_nil
  | cons e kids ih =>
      rw [List.map_cons, List.nodup_cons] at hnodup
      have hhere := hkids e List.mem_cons_self
      have hrest := ih hnodup.2 fun e' he' => hkids e' (List.mem_cons_of_mem _ he')
      rw [leavesOf, List.map_append, List.map_map, List.nodup_append]
      refine ⟨?_, hrest, fun c hc c' hc' heq => ?_⟩
      · have hcons := hhere.map (f := (e.1 :: ·)) fun c c' h => (List.cons_inj_right e.1).mp h
        rwa [List.map_map] at hcons
      · -- chains of two children begin with two names
        obtain ⟨l, -, rfl⟩ := List.mem_map.mp hc
        obtain ⟨l', hl', rfl⟩ := List.mem_map.mp hc'
        obtain ⟨e', he', l'', -, rfl⟩ := mem_leavesOf.mp hl'
        exact hnodup.1 (List.mem_map.mpr ⟨e', he', ((List.cons.injEq ..).mp heq).1.symm⟩)

/-- **Distinct leaves have distinct chains.** -/
theorem nodup_leaves {t : Nested κ ν} (h : Tidy t) : ((leaves t).map Prod.fst).Nodup := by
  induction h with
  | leaf v => exact List.nodup_singleton _
  | node ne nodup tidy ih => exact nodup_leavesOf nodup ih

/-! ## Nesting

Leaves come back in the order in which they were listed, so each child is finished before the
next one begins. -/

/-- The children of a node; a leaf, or nothing, has none. -/
def kidsOf : Option (Nested κ ν) → List (κ × Nested κ ν)
  | some (node kids) => kids
  | _ => []

variable [DecidableEq κ]

/-- Put a leaf under its chain, making the nodes on the way that are not there. -/
def graft (v : ν) : List κ → List (κ × Nested κ ν) → List (κ × Nested κ ν)
  | [], kids => kids
  | [k], kids => Dict.assign k (leaf v) kids
  | k :: k' :: ks, kids =>
      Dict.assign k (node (graft v (k' :: ks) (kidsOf (Dict.find k kids)))) kids

/-- Put leaves under their chains, in order. -/
def graftAll (kids : List (κ × Nested κ ν)) (ls : List (List κ × ν)) : List (κ × Nested κ ν) :=
  ls.foldl (fun kids l => graft l.2 l.1 kids) kids

/-- The nested dictionary of a list of leaves. -/
def nest (ls : List (List κ × ν)) : List (κ × Nested κ ν) := graftAll [] ls

/-- Leaves under one name go into the child of that name. -/
theorem graftAll_under {k : κ} {kids : List (κ × Nested κ ν)} (hk : k ∉ kids.map Prod.fst) :
    ∀ (ls : List (List κ × ν)) (sub : List (κ × Nested κ ν)), (∀ l ∈ ls, l.1 ≠ []) →
      graftAll (kids ++ [(k, node sub)]) (ls.map fun l => (k :: l.1, l.2))
        = kids ++ [(k, node (graftAll sub ls))]
  | [], sub, _ => rfl
  | (c, v) :: ls, sub, hne => by
      obtain ⟨k', ks, rfl⟩ := List.exists_cons_of_ne_nil (hne (c, v) List.mem_cons_self)
      have hfind : Dict.find k (kids ++ [(k, node sub)]) = some (node sub) := by
        rw [Dict.find_append, Dict.find_eq_none hk, Dict.find, if_pos rfl]
        rfl
      have hstep : graft v (k :: k' :: ks) (kids ++ [(k, node sub)])
          = kids ++ [(k, node (graft v (k' :: ks) sub))] := by
        rw [graft, hfind, kidsOf, Dict.assign_append hk]
      rw [List.map_cons, graftAll, List.foldl_cons, hstep]
      exact graftAll_under hk ls _ fun l hl => hne l (List.mem_cons_of_mem _ hl)

/-- The leaves of a new child make the child. -/
theorem graftAll_new {k : κ} {kids : List (κ × Nested κ ν)} (hk : k ∉ kids.map Prod.fst)
    {ls : List (List κ × ν)} (hls : ls ≠ []) (hne : ∀ l ∈ ls, l.1 ≠ []) :
    graftAll kids (ls.map fun l => (k :: l.1, l.2)) = kids ++ [(k, node (nest ls))] := by
  obtain ⟨⟨c, v⟩, ls, rfl⟩ := List.exists_cons_of_ne_nil hls
  obtain ⟨k', ks, rfl⟩ := List.exists_cons_of_ne_nil (hne (c, v) List.mem_cons_self)
  have hstep : graft v (k :: k' :: ks) kids = kids ++ [(k, node (graft v (k' :: ks) []))] := by
    rw [graft, Dict.find_eq_none hk, kidsOf, Dict.assign_of_notMem hk]
    exact fun _ h => nomatch h
  rw [List.map_cons, graftAll, List.foldl_cons, hstep]
  exact graftAll_under hk ls _ fun l hl => hne l (List.mem_cons_of_mem _ hl)

/-- Grafting the leaves of further children appends the children, given that each child is made
again by its own leaves. -/
theorem graftAll_leavesOf : ∀ {kids done : List (κ × Nested κ ν)},
    ((done ++ kids).map Prod.fst).Nodup →
    (∀ e ∈ kids, ∀ done : List (κ × Nested κ ν), e.1 ∉ done.map Prod.fst →
      graftAll done ((leaves e.2).map fun l => (e.1 :: l.1, l.2)) = done ++ [e]) →
    graftAll done (leavesOf kids) = done ++ kids
  | [], done, _, _ => (List.append_nil done).symm
  | e :: kids, done, hnodup, hkids => by
      have hfresh : e.1 ∉ done.map Prod.fst := by
        rw [List.map_append, List.nodup_append] at hnodup
        exact fun h => hnodup.2.2 _ h _ (by simp) rfl
      rw [leavesOf, graftAll, List.foldl_append]
      change graftAll (graftAll done _) _ = _
      rw [hkids e List.mem_cons_self done hfresh]
      have hrest : graftAll (done ++ [e]) (leavesOf kids) = done ++ [e] ++ kids :=
        graftAll_leavesOf (by simpa using hnodup) fun e' he' =>
          hkids e' (List.mem_cons_of_mem _ he')
      rw [hrest, List.append_assoc, List.singleton_append]

/-- **A child is made again by its leaves.** -/
theorem graftAll_leaves {t : Nested κ ν} (h : Tidy t) : ∀ (k : κ) (done : List (κ × Nested κ ν)),
    k ∉ done.map Prod.fst →
    graftAll done ((leaves t).map fun l => (k :: l.1, l.2)) = done ++ [(k, t)] := by
  induction h with
  | leaf v => exact fun k done hk => Dict.assign_of_notMem hk
  | @node kids ne nodup tidy ih =>
      intro k done hk
      have hleaves : leavesOf kids ≠ [] := leaves_ne_nil (.node ne nodup tidy)
      have hnest : nest (leavesOf kids) = kids :=
        @graftAll_leavesOf _ _ _ kids [] nodup fun e he => ih e he e.1
      rw [leaves, graftAll_new hk hleaves fun l hl => ne_nil_of_mem_leavesOf hl, hnest]

/-- **Nesting undoes listing.** -/
theorem nest_leavesOf {kids : List (κ × Nested κ ν)} (hnodup : (kids.map Prod.fst).Nodup)
    (htidy : ∀ e ∈ kids, Tidy e.2) : nest (leavesOf kids) = kids :=
  @graftAll_leavesOf _ _ _ kids [] hnodup fun e he => graftAll_leaves (htidy e he) e.1

end Nested

end Machinery
