import Mathlib.Data.List.Basic
import Mathlib.Tactic.Common

/-!
# Machinery/Template — texts with holes, and texts in segments

A text over any alphabet is cut at a separator into segments; what holds of all segments of a join
holds of all segments of its parts (`forall_splitOn_intercalate`), and a text begins with another,
segment by segment, when the other goes on behind a separator (`splitOn_isPrefix_iff`).  A template
is a text some stretches of which, between an opening bracket and the next closing one, are holes to
be filled; `scan` finds them, `fill` fills them.  Where each hole is a segment of its own
(`Aligned`), filling goes segment by segment.
-/

universe u

namespace Machinery

variable {α : Type u}

/-! ## Segments

Splitting and joining undo each other only if no part holds the separator.  Where one does, the
segments of the join are those of the parts, one after another. -/

/-- The segments of a join are the segments of its parts. -/
theorem splitOn_intercalate_flatMap [DecidableEq α] (sep : α) : ∀ {ls : List (List α)}, ls ≠ [] →
    ([sep].intercalate ls).splitOn sep = ls.flatMap (·.splitOn sep)
  | [], h => absurd rfl h
  | [l], _ => by simp
  | l :: l' :: ls, _ => by
      rw [List.intercalate_cons_cons, List.append_assoc, List.singleton_append,
        List.splitOn_append_cons_self, splitOn_intercalate_flatMap sep (List.cons_ne_nil l' ls)]
      rfl

/-- **A join is in order when its parts are.** -/
theorem forall_splitOn_intercalate [DecidableEq α] {P : List α → Prop} {sep : α}
    {ls : List (List α)} (h : ls ≠ []) :
    (∀ seg ∈ ([sep].intercalate ls).splitOn sep, P seg) ↔
      ∀ l ∈ ls, ∀ seg ∈ l.splitOn sep, P seg := by
  rw [splitOn_intercalate_flatMap sep h, List.forall_mem_flatMap]

theorem intercalate_append (sep : List α) {ms : List (List α)} (hms : ms ≠ []) :
    ∀ {ls : List (List α)}, ls ≠ [] →
      sep.intercalate (ls ++ ms) = sep.intercalate ls ++ sep ++ sep.intercalate ms
  | [], h => absurd rfl h
  | [l], _ => by
      rw [List.singleton_append, List.intercalate_cons_of_ne_nil hms, List.intercalate_singleton]
  | l :: l' :: ls, _ => by
      have ih := intercalate_append sep hms (List.cons_ne_nil l' ls)
      rw [List.cons_append] at ih
      rw [List.cons_append, List.cons_append, List.intercalate_cons_cons, ih,
        List.intercalate_cons_cons]
      simp only [List.append_assoc]

/-- **Segments begin like other segments** just when the one text is the other, or goes on in it
behind a separator. -/
theorem splitOn_isPrefix_iff [DecidableEq α] {sep : α} {l m : List α} :
    l.splitOn sep <+: m.splitOn sep ↔ l = m ∨ l ++ [sep] <+: m := by
  constructor
  · rintro ⟨more, h⟩
    have hm := congrArg (List.intercalate [sep]) h
    rcases more with _ | ⟨x, more⟩
    · rw [List.append_nil, List.intercalate_splitOn, List.intercalate_splitOn] at hm
      exact Or.inl hm
    · rw [intercalate_append _ (List.cons_ne_nil x more) (List.splitOn_ne_nil sep l),
        List.intercalate_splitOn, List.intercalate_splitOn] at hm
      exact Or.inr ⟨_, hm⟩
  · rintro (rfl | ⟨rest, rfl⟩)
    · exact List.prefix_refl _
    · rw [List.append_assoc, List.singleton_append, List.splitOn_append_cons_self]
      exact List.prefix_append _ _

/-! ## Holes

A hole begins at an opening bracket and ends at the first closing one.  A text that reads as
tokens does so whatever follows it, so texts can be read piece by piece. -/

/-- A character as it stands, or a hole with a name. -/
inductive Token (α : Type u) where
  | lit (a : α)
  | hole (name : List α)
  deriving DecidableEq

namespace Token

section Scan

variable [DecidableEq α] (op cl : α)

/-- The tokens of a text; `none` if a bracket stays open. -/
def scan (s : List α) : Option (List (Token α)) :=
  match s with
  | [] => some []
  | a :: s =>
      if a ≠ op then (scan s).map (.lit a :: ·)
      else if cl ∉ s then none
      else
        let name := s.takeWhile (· ≠ cl)
        (scan (s.drop (name.length + 1))).map (.hole name :: ·)
  termination_by s.length

/-- A token as it was written. -/
def written : Token α → List α
  | .lit a => [a]
  | .hole name => op :: name ++ [cl]

variable {op cl}

theorem scan_lit {a : α} (s : List α) (ha : a ≠ op) :
    scan op cl (a :: s) = (scan op cl s).map (.lit a :: ·) := by
  rw [scan, if_pos ha]

theorem takeWhile_ne {name : List α} (h : cl ∉ name) (s : List α) :
    (name ++ cl :: s).takeWhile (· ≠ cl) = name := by
  have hne : ∀ a ∈ name, decide (a ≠ cl) = true := fun a ha => decide_eq_true fun heq => h (heq ▸ ha)
  rw [List.takeWhile_append_of_pos hne, List.takeWhile_cons_of_neg (by simp), List.append_nil]

theorem scan_hole {name : List α} (h : cl ∉ name) (s : List α) :
    scan op cl (op :: (name ++ cl :: s)) = (scan op cl s).map (.hole name :: ·) := by
  have hmem : ¬ cl ∉ name ++ cl :: s := not_not.mpr (by simp)
  rw [scan, if_neg (not_not.mpr rfl), if_neg hmem]
  dsimp only
  rw [takeWhile_ne h]
  congr 2
  rw [← List.drop_drop, List.drop_left]
  rfl

/-- The text `l` reads as the tokens `g`, whatever comes after it. -/
def Reads (op cl : α) (l : List α) (g : List (Token α)) : Prop :=
  ∀ s, scan op cl (l ++ s) = (scan op cl s).map (g ++ ·)

theorem Reads.scan_eq {l : List α} {g : List (Token α)} (h : Reads op cl l g) :
    scan op cl l = some g := by
  have hnil := h []
  rw [List.append_nil, scan, Option.map_some, List.append_nil] at hnil
  exact hnil

theorem Reads.append {l l' : List α} {g g' : List (Token α)} (h : Reads op cl l g)
    (h' : Reads op cl l' g') : Reads op cl (l ++ l') (g ++ g') := fun s => by
  rw [List.append_assoc, h, h', Option.map_map]
  exact congrArg (Option.map · _) (funext fun ts => (List.append_assoc g g' ts).symm)

/-- What holds no opening bracket is taken as it stands. -/
theorem reads_lits : ∀ {l : List α}, op ∉ l → Reads op cl l (l.map .lit)
  | [], _ => fun s => by simp
  | a :: l, h => fun s => by
      rw [List.mem_cons, not_or] at h
      rw [List.cons_append, scan_lit _ (Ne.symm h.1), reads_lits h.2 s, Option.map_map]
      rfl

/-- A hole is read up to the next closing bracket. -/
theorem reads_hole {name : List α} (h : cl ∉ name) :
    Reads op cl (op :: (name ++ [cl])) [.hole name] := fun s => by
  rw [List.cons_append, List.append_assoc, List.singleton_append, scan_hole h]
  rfl

/-- **A join reads as the join of what its parts read as.** -/
theorem reads_intercalate {sep : α} (hsep : op ≠ sep) {g : List α → List (Token α)} :
    ∀ {ls : List (List α)}, (∀ l ∈ ls, Reads op cl l (g l)) →
      Reads op cl ([sep].intercalate ls) ([Token.lit sep].intercalate (ls.map g))
  | [], _ => fun s => by simp
  | [l], h => by
      rw [List.intercalate_singleton, List.map_singleton, List.intercalate_singleton]
      exact h l List.mem_cons_self
  | l :: l' :: ls, h => by
      rw [List.intercalate_cons_cons, List.map_cons, List.map_cons, List.intercalate_cons_cons]
      have hrest := reads_intercalate hsep fun k hk => h k (List.mem_cons_of_mem l hk)
      exact ((h l List.mem_cons_self).append (reads_lits (by simpa using hsep))).append hrest

theorem takeWhile_drop : ∀ {s : List α}, cl ∈ s →
    s.takeWhile (· ≠ cl) ++ cl :: s.drop ((s.takeWhile (· ≠ cl)).length + 1) = s
  | [], h => absurd h List.not_mem_nil
  | a :: s, h => by
      by_cases ha : a = cl
      · rw [List.takeWhile_cons_of_neg (by simpa using ha), ha]
        rfl
      · have hmem : cl ∈ s := (List.mem_cons.mp h).resolve_left (Ne.symm ha)
        rw [List.takeWhile_cons_of_pos (by simpa using ha), List.length_cons, List.drop_succ_cons,
          List.cons_append, takeWhile_drop hmem]

/-- **The tokens are the text, read once**: written out they are the text again. -/
theorem written_of_scan {s : List α} {ts : List (Token α)} (h : scan op cl s = some ts) :
    ts.flatMap (written op cl) = s := by
  fun_induction scan op cl s generalizing ts with
  | case1 =>
      cases h
      rfl
  | case2 a s ha ih =>
      obtain ⟨ts, hts, rfl⟩ := Option.map_eq_some_iff.mp h
      rw [List.flatMap_cons, ih hts]
      rfl
  | case3 a s ha hcl => cases h
  | case4 a s ha hcl name =>
      rename_i ih
      obtain ⟨ts, hts, rfl⟩ := Option.map_eq_some_iff.mp h
      rw [List.flatMap_cons, ih hts, written, List.append_assoc, List.singleton_append,
        List.cons_append, takeWhile_drop (not_not.mp hcl), not_not.mp ha]

end Scan

/-! ## Filling -/

/-- A token's text, once its hole is filled. -/
def text (value : List α → Option (List α)) : Token α → Option (List α)
  | .lit a => some [a]
  | .hole name => value name

/-- A template with its holes filled; `none` if one has no value. -/
def fill (value : List α → Option (List α)) : List (Token α) → Option (List α)
  | [] => some []
  | t :: ts => (text value t).bind fun s => (fill value ts).map (s ++ ·)

variable {value : List α → Option (List α)}

theorem fill_append (ts' : List (Token α)) : ∀ ts : List (Token α), fill value (ts ++ ts')
      = (fill value ts).bind fun s => (fill value ts').map (s ++ ·)
  | [] => by simp [fill]
  | t :: ts => by
      rw [List.cons_append, fill, fill, fill_append ts' ts]
      rcases text value t with _ | s
      · rfl
      · rcases fill value ts with _ | s'
        · rfl
        · rcases fill value ts' with _ | s'' <;> simp

theorem fill_lits : ∀ l : List α, fill value (l.map .lit) = some l
  | [] => rfl
  | a :: l => by
      rw [List.map_cons, fill, fill_lits l]
      rfl

theorem fill_lit (a : α) (ts : List (Token α)) :
    fill value (.lit a :: ts) = (fill value ts).map (a :: ·) := rfl

theorem fill_hole (name : List α) : fill value [.hole name] = value name := by
  rw [fill, text, fill]
  rcases value name with _ | s <;> simp

/-- **Filling a join is joining what its pieces are filled with.** -/
theorem fill_intercalate (sep : α) : ∀ {gs : List (List (Token α))} {out : List α}, gs ≠ [] →
    (fill value ([Token.lit sep].intercalate gs) = some out ↔
      (∀ g ∈ gs, ∃ part, fill value g = some part) ∧
        out = [sep].intercalate (gs.map fun g => (fill value g).getD []))
  | [], _, h => absurd rfl h
  | [g], out, _ => by
      rw [List.intercalate_singleton, List.map_singleton, List.intercalate_singleton]
      constructor
      · intro h
        exact ⟨fun g' hg' => ⟨out, List.mem_singleton.mp hg' ▸ h⟩, by rw [h]; rfl⟩
      · rintro ⟨hall, rfl⟩
        obtain ⟨part, hpart⟩ := hall g List.mem_cons_self
        rw [hpart]
        rfl
  | g :: g' :: gs, out, _ => by
      have ih := @fill_intercalate sep (g' :: gs)
      have hmap : [sep].intercalate ((g :: g' :: gs).map fun g => (fill value g).getD [])
          = (fill value g).getD [] ++
            (sep :: [sep].intercalate ((g' :: gs).map fun g => (fill value g).getD [])) := by
        rw [List.map_cons, List.map_cons, List.intercalate_cons_cons, List.append_assoc]
        rfl
      rw [List.intercalate_cons_cons, List.append_assoc, List.singleton_append, fill_append,
        Option.bind_eq_some_iff, hmap, List.forall_mem_cons]
      constructor
      · rintro ⟨s, hs, h⟩
        obtain ⟨s', hs', rfl⟩ := Option.map_eq_some_iff.mp h
        rw [fill_lit, Option.map_eq_some_iff] at hs'
        obtain ⟨rest, hrest, rfl⟩ := hs'
        obtain ⟨hall, rfl⟩ := (ih (List.cons_ne_nil g' gs)).mp hrest
        refine ⟨⟨⟨s, hs⟩, hall⟩, ?_⟩
        rw [hs]
        rfl
      · rintro ⟨⟨⟨s, hs⟩, hall⟩, rfl⟩
        refine ⟨s, hs, ?_⟩
        rw [fill_lit, (ih (List.cons_ne_nil g' gs)).mpr ⟨hall, rfl⟩, hs]
        rfl

/-! ## Holes that are segments

Where each hole is a segment of its own, the scan and the segments tell the same story. -/

theorem eq_map_lit : ∀ {g : List (Token α)}, (∀ name, hole name ∉ g) → ∃ l : List α, g = l.map .lit
  | [], _ => ⟨[], rfl⟩
  | .lit a :: g, h => by
      obtain ⟨l, rfl⟩ := eq_map_lit fun name hname => h name (List.mem_cons_of_mem _ hname)
      exact ⟨a :: l, rfl⟩
  | .hole name :: _, h => absurd List.mem_cons_self (h name)

theorem written_intercalate (op cl sep : α) : ∀ gs : List (List (Token α)),
    ([Token.lit sep].intercalate gs).flatMap (written op cl)
      = [sep].intercalate (gs.map fun g => g.flatMap (written op cl))
  | [] => rfl
  | [g] => by simp
  | g :: g' :: gs => by
      rw [List.intercalate_cons_cons, List.flatMap_append, List.flatMap_append,
        written_intercalate op cl sep (g' :: gs)]
      exact List.intercalate_cons_cons.symm

theorem written_lits (op cl : α) (l : List α) : (l.map Token.lit).flatMap (written op cl) = l := by
  induction l with
  | nil => rfl
  | cons a l ih =>
      rw [List.map_cons, List.flatMap_cons, ih]
      rfl

/-- Each hole is all there is between two separators, or a separator and an end, and its name is
proper. -/
def Aligned [DecidableEq α] (sep : α) (Proper : List α → Prop) (ts : List (Token α)) : Prop :=
  ∀ g ∈ ts.splitOn (.lit sep), ∀ name, hole name ∈ g → g = [.hole name] ∧ Proper name

/-- What stands between two separators is a hole or plain text. -/
theorem Aligned.cases [DecidableEq α] {sep : α} {Proper : List α → Prop} {ts g : List (Token α)}
    (h : Aligned sep Proper ts) (hg : g ∈ ts.splitOn (.lit sep)) :
    (∃ name, g = [.hole name] ∧ Proper name) ∨ ∃ l : List α, g = l.map .lit := by
  by_cases hhole : ∃ name, hole name ∈ g
  · obtain ⟨name, hname⟩ := hhole
    exact Or.inl ⟨name, h g hg name hname⟩
  · exact Or.inr (eq_map_lit fun name hname => hhole ⟨name, hname⟩)

/-- The pieces of a join, where no piece holds the separator. -/
theorem aligned_intercalate [DecidableEq α] {sep : α} {Proper : List α → Prop}
    {gs : List (List (Token α))} (hne : gs ≠ []) (hsep : ∀ g ∈ gs, Token.lit sep ∉ g) :
    Aligned sep Proper ([Token.lit sep].intercalate gs) ↔
      ∀ g ∈ gs, ∀ name, hole name ∈ g → g = [.hole name] ∧ Proper name := by
  rw [Aligned, List.splitOn_intercalate _ hsep hne]

end Token

end Machinery
