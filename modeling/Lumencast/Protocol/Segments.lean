import Lumencast.Machinery.Template
import Lumencast.Protocol.LeafPath
import Mathlib.Order.Defs.Unbundled

/-!
# Protocol/Segments — prefixes of paths are prefixes of segments

`hasPrefix` compares characters, and so does `isReserved`; what they decide is a matter of segments.
`hasPrefix_iff_split` says so of the one, and everything else about namespaces follows from the
prefix order of lists.
-/

namespace Lumencast

open Machinery Grammar

/-! ## The prefix test -/

/-- **The segment-aware test compares segments.** -/
theorem hasPrefix_iff_split {path root : PyStr} : hasPrefix path root = true ↔
    root.points.splitOn (cp '.') <+: path.points.splitOn (cp '.') := by
  rw [hasPrefix_iff, splitOn_isPrefix_iff, PyStr.ext_iff, eq_comm]
  rfl

theorem hasPrefix_refl (path : PyStr) : hasPrefix path path = true :=
  hasPrefix_iff_split.mpr (List.prefix_refl _)

theorem hasPrefix_trans {path root root' : PyStr} (h : hasPrefix path root = true)
    (h' : hasPrefix root root' = true) : hasPrefix path root' = true :=
  hasPrefix_iff_split.mpr ((hasPrefix_iff_split.mp h').trans (hasPrefix_iff_split.mp h))

/-- Two paths under each other are one. -/
theorem hasPrefix_antisymm {path root : PyStr} (h : hasPrefix path root = true)
    (h' : hasPrefix root path = true) : path = root := by
  have hsplit := (hasPrefix_iff_split.mp h').eq_of_length_le (hasPrefix_iff_split.mp h).length_le
  have hjoin := congrArg (List.intercalate [cp '.']) hsplit
  rw [List.intercalate_splitOn, List.intercalate_splitOn] at hjoin
  exact PyStr.ext hjoin

/-- Of two roots of a path, one is under the other. -/
theorem hasPrefix_total {path root root' : PyStr} (h : hasPrefix path root = true)
    (h' : hasPrefix path root' = true) :
    hasPrefix root root' = true ∨ hasPrefix root' root = true := by
  rcases List.prefix_or_prefix_of_prefix (hasPrefix_iff_split.mp h) (hasPrefix_iff_split.mp h')
    with hle | hle
  · exact Or.inr (hasPrefix_iff_split.mpr hle)
  · exact Or.inl (hasPrefix_iff_split.mpr hle)

/-- Above a root of one segment there is nothing. -/
theorem eq_of_hasPrefix {path root : PyStr} (hdot : cp '.' ∉ path.points)
    (h : hasPrefix path root = true) : root = path := by
  have hle := hasPrefix_iff_split.mp h
  rw [List.splitOn_eq_singleton hdot] at hle
  rcases List.prefix_cons_iff.mp hle with hnil | ⟨more, hone, hmore⟩
  · exact absurd hnil (List.splitOn_ne_nil _ _)
  · have hjoin := congrArg (List.intercalate [cp '.']) hone
    rw [List.prefix_nil.mp hmore, List.intercalate_splitOn, List.intercalate_singleton] at hjoin
    exact PyStr.ext hjoin

/-! ## Segments -/

theorem segments_isPrefix_iff {path root : PyStr} :
    segments root <+: segments path ↔ hasPrefix path root = true := by
  rw [hasPrefix_iff_split]
  exact List.prefix_map_iff_of_injective fun s t h => congrArg PyStr.points h

/-- **The namespace is the first segment.** -/
theorem head_segments (path : PyStr) : (segments path).head? = some (namespaceOf path) := by
  rw [namespaceOf, PyStr.find, segments, PyStr.split]
  rcases hfind : path.points.idxOf? (cp '.') with _ | idx
  · rw [List.splitOn_eq_singleton (List.idxOf?_eq_none_iff.mp hfind)]
    rfl
  · obtain ⟨hlt, hdot, hbefore⟩ := List.idxOf?_eq_some_iff.mp hfind
    have hnot : cp '.' ∉ path.points.take idx := fun hmem => by
      obtain ⟨i, hi, hget⟩ := List.mem_take_iff_getElem.mp hmem
      exact hbefore i (by omega) hget
    have hcut : path.points = path.points.take idx ++ cp '.' :: path.points.drop (idx + 1) := by
      rw [← hdot, ← List.drop_eq_getElem_cons hlt, List.take_append_drop]
    rw [hcut, List.splitOn_append_cons_self, List.splitOn_eq_singleton hnot, ← hcut]
    rfl

/-- **The namespace test reads the first segment.** -/
theorem head_segments_iff {path root : PyStr} (hdot : cp '.' ∉ root.points) :
    (segments path).head? = some root ↔ hasPrefix path root = true := by
  have hone : segments root = [root] := by
    rw [segments, PyStr.split, List.splitOn_eq_singleton hdot]
    rfl
  rw [← segments_isPrefix_iff, hone]
  rcases segments path with _ | ⟨seg, segs⟩
  · simp
  · rw [List.head?_cons, Option.some.injEq, List.cons_prefix_cons, eq_comm (a := root)]
    simp

/-- **A path is reserved by its namespace.** -/
theorem isReserved_iff {path : PyStr} :
    isReserved path = true ↔ namespaceOf path ∈ RESERVED_NAMESPACES := by
  have hdots : ∀ ns ∈ RESERVED_NAMESPACES, cp '.' ∉ ns.points := by decide
  have hnamespace : ∀ ns ∈ RESERVED_NAMESPACES,
      hasPrefix path ns = true ↔ namespaceOf path = ns := fun ns hns => by
    rw [← head_segments_iff (hdots ns hns), head_segments, Option.some.injEq]
  have hany : isReserved path = RESERVED_NAMESPACES.any (hasPrefix path) := rfl
  rw [hany, List.any_eq_true]
  constructor
  · rintro ⟨ns, hns, hprefix⟩
    rwa [(hnamespace ns hns).mp hprefix]
  · exact fun hmem => ⟨_, hmem, (hnamespace _ hmem).mpr rfl⟩

/-- **Prefix tests are segment tests**: paths are ordered by `hasPrefix` as lists of segments are by
their prefixes, and what a namespace is and whether it is reserved is read off the first segment. -/
theorem hasPrefix_segmentwise :
    (∀ path root, hasPrefix path root = true ↔ segments root <+: segments path) ∧
      IsPartialOrder PyStr (fun path root => hasPrefix path root = true) ∧
      (∀ path, (segments path).head? = some (namespaceOf path)) ∧
      ∀ path, isReserved path = true ↔ namespaceOf path ∈ RESERVED_NAMESPACES :=
  ⟨fun _ _ => segments_isPrefix_iff.symm,
    { refl := hasPrefix_refl
      trans := fun _ _ _ => hasPrefix_trans
      antisymm := fun _ _ => hasPrefix_antisymm }, head_segments, fun _ => isReserved_iff⟩

end Lumencast
