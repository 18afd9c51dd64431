import Lumencast.Machinery.Outcome
import Lumencast.Machinery.Template
import Lumencast.Protocol.LeafPath

/-!
# Protocol/Template — what validation accepts, and what substitution makes of it

Validation cuts a path at its dots, substitution looks for braces.  Both are told here in the terms
of `Machinery/Template`: a template is valid when each segment is an identifier in braces or a wire
segment, and substitution succeeds when the tokens the brace scan finds can be filled to a leaf path
(`substitute_eq_ok`).
-/

namespace Lumencast

open Machinery Grammar

/-! ## Segments and tokens

The two readings of a template meet here: `segments` cuts it at its dots, `tokens` at its braces. -/

/-- Every segment is in order. -/
def SegmentsIn (P : Text → Prop) (path : Text) : Prop := ∀ seg ∈ path.splitOn (cp '.'), P seg

/-- **Joining paths is in order exactly when every part is.** -/
theorem segmentsIn_intercalate {P : Text → Prop} {parts : List Text} (h : parts ≠ []) :
    SegmentsIn P ([cp '.'].intercalate parts) ↔ ∀ part ∈ parts, SegmentsIn P part :=
  forall_splitOn_intercalate h

/-- The tokens of a template. -/
def tokens (s : Text) : Option (List (Token CodePoint)) := Token.scan (cp '\x7b') (cp '\x7d') s

/-- What a placeholder stands for. -/
def bound (scope : Dict PyStr PyStr) (name : Text) : Option Text :=
  (scope.get? ⟨name⟩).map PyStr.points

/-- Braces around a name. -/
theorem braces_iff {seg : PyStr} : (seg.startsWith "\x7b" && seg.endsWith "\x7d") = true ↔
    ∃ name : PyStr, seg.points = cp '\x7b' :: (name.points ++ [cp '\x7d']) := by
  rw [Bool.and_eq_true, PyStr.startsWith, PyStr.endsWith, List.isPrefixOf_iff_prefix,
    List.isSuffixOf_iff_suffix]
  constructor
  · rintro ⟨⟨t, ht⟩, ⟨t', ht'⟩⟩
    have hboth : cp '\x7b' :: t = t' ++ [cp '\x7d'] := ht.trans ht'.symm
    rcases t' with _ | ⟨ch, name⟩
    · have hhead : cp '\x7b' = cp '\x7d' := (List.cons.inj hboth).1
      exact absurd hhead (by decide)
    · rw [List.cons_append, List.cons.injEq] at hboth
      exact ⟨⟨name⟩, by rw [← ht', hboth.1]; rfl⟩
  · rintro ⟨name, hseg⟩
    rw [hseg]
    exact ⟨⟨name.points ++ [cp '\x7d'], rfl⟩, ⟨cp '\x7b' :: name.points, rfl⟩⟩

theorem inner_eq {seg name : PyStr} (h : seg.points = cp '\x7b' :: (name.points ++ [cp '\x7d'])) :
    (seg.dropStart 1).dropEnd 1 = name := by
  apply PyStr.ext
  rw [PyStr.dropStart, PyStr.dropEnd, h]
  simp

/-! ## The scan -/

/-- **One token more**: what it is filled with goes in front. -/
theorem fill_token_iff {scope : Dict PyStr PyStr} {t : Token CodePoint} {piece : PyStr}
    (hpiece : t.text (bound scope) = some piece.points) {x : Except PathError PyStr}
    {scanned : Option (List (Token CodePoint))}
    (hrest : ∀ {rest : PyStr}, x = .ok rest ↔ ∃ ts, scanned = some ts ∧
      Token.fill (bound scope) ts = some rest.points) {out : PyStr} :
    (do let rest ← x; return piece ++ rest) = .ok out ↔ ∃ ts, scanned.map (t :: ·) = some ts ∧
      Token.fill (bound scope) ts = some out.points := by
  have hfill : ∀ ts, Token.fill (bound scope) (t :: ts)
      = (Token.fill (bound scope) ts).map (piece.points ++ ·) := fun ts => by
    rw [Token.fill, hpiece]
    rfl
  rw [bind_eq_ok]
  constructor
  · rintro ⟨rest, hx, hout⟩
    obtain ⟨ts, rfl, hts⟩ := hrest.mp hx
    cases hout
    refine ⟨t :: ts, rfl, ?_⟩
    rw [hfill, hts]
    rfl
  · rintro ⟨ts', hscanned, hts'⟩
    obtain ⟨ts, hts, rfl⟩ := Option.map_eq_some_iff.mp hscanned
    rw [hfill, Option.map_eq_some_iff] at hts'
    obtain ⟨rest, hpoints, hout⟩ := hts'
    exact ⟨⟨rest⟩, hrest.mpr ⟨ts, hts, hpoints⟩, congrArg Except.ok (PyStr.ext hout)⟩

/-- **The loop of `substitute` fills the tokens of the scan.** -/
theorem expand_eq_ok {scope : Dict PyStr PyStr} {i : ℕ} {s : Text} {out : PyStr} :
    expand scope i s = .ok out ↔ ∃ ts, tokens s = some ts ∧
      Token.fill (bound scope) ts = some out.points := by
  fun_induction expand scope i s generalizing out with
  | case1 i =>
      rw [tokens, Token.scan]
      constructor
      · intro h
        cases h
        exact ⟨[], rfl, rfl⟩
      · rintro ⟨ts, hts, hfill⟩
        cases hts
        exact congrArg Except.ok (PyStr.ext (Option.some.inj hfill))
  | case2 i ch rest hch ih =>
      rw [tokens, Token.scan_lit rest hch]
      exact fill_token_iff (t := .lit ch) rfl ih
  | case3 i ch rest hch hclose =>
      refine iff_of_false (fun h => by cases h) ?_
      rintro ⟨ts, hts, -⟩
      rw [tokens, Token.scan, if_neg hch, if_pos hclose] at hts
      cases hts
  | case4 i ch rest hch hclose name =>
      rename_i hname
      refine iff_of_false (fun h => by cases h) ?_
      rintro ⟨ts', hts', hfill⟩
      rw [tokens, Token.scan, if_neg hch, if_neg hclose] at hts'
      obtain ⟨ts, -, rfl⟩ := Option.map_eq_some_iff.mp hts'
      have hnone : bound scope name.points = none := by
        rw [bound, hname]
        rfl
      rw [Token.fill, Token.text, hnone] at hfill
      cases hfill
  | case5 i ch rest hch hclose name value hname =>
      rename_i ih
      have hvalue : bound scope name.points = some value.points := by
        rw [bound, hname]
        rfl
      rw [tokens, Token.scan, if_neg hch, if_neg hclose]
      exact fill_token_iff (t := .hole name.points) hvalue ih

/-! ## Valid paths -/

section Templates

variable [PyUnicode]

/-- A segment of a leaf path. -/
def WireSegment (seg : Text) : Prop := seg ≠ [] ∧ ∀ ch ∈ seg, segmentChar ch = true

/-- A segment of a template. -/
def TemplateSegment (seg : Text) : Prop :=
  WireSegment seg ∨
    ∃ name : PyStr, seg = cp '\x7b' :: (name.points ++ [cp '\x7d']) ∧ isIdentifier name = true

/-- The characters of a segment are no dots and no braces. -/
theorem segmentChar_ne {ch : CodePoint} (h : segmentChar ch = true) :
    ch ≠ cp '.' ∧ ch ≠ cp '\x7b' ∧ ch ≠ cp '\x7d' := by
  have hmark : ∀ p : CodePoint, p.val < 0x80 →
      ¬ ((0x41 ≤ p.val ∧ p.val ≤ 0x5A) ∨ (0x61 ≤ p.val ∧ p.val ≤ 0x7A)) → p ≠ cp '_' →
        ¬ (0x30 ≤ p.val ∧ p.val ≤ 0x39) → ch ≠ p := by
    rintro p hascii halpha hscore hdigit rfl
    rw [segmentChar, Bool.or_eq_true, Bool.or_eq_true, PyUnicode.isAlpha_ascii ch hascii,
      beq_iff_eq, PyUnicode.isDigit_ascii ch hascii] at h
    exact (h.resolve_right hdigit).elim halpha hscore
  exact ⟨hmark _ (by decide) (by decide) (by decide) (by decide),
    hmark _ (by decide) (by decide) (by decide) (by decide),
    hmark _ (by decide) (by decide) (by decide) (by decide)⟩

/-- Nor are those of an identifier, and it is a segment. -/
theorem wireSegment_of_isIdentifier {name : PyStr} (h : isIdentifier name = true) :
    WireSegment name.points := by
  rw [isIdentifier] at h
  rcases hname : name.points with _ | ⟨ch, rest⟩
  · rw [hname] at h
    cases h
  · rw [hname] at h
    obtain ⟨hfirst, hrest⟩ := Bool.and_eq_true_iff.mp h
    refine ⟨List.cons_ne_nil ch rest, List.forall_mem_cons.mpr ⟨?_, List.all_eq_true.mp hrest⟩⟩
    rw [segmentChar, hfirst, Bool.true_or]

theorem WireSegment.notMem {seg : Text} (h : WireSegment seg) :
    cp '.' ∉ seg ∧ cp '\x7b' ∉ seg ∧ cp '\x7d' ∉ seg :=
  ⟨fun hmem => (segmentChar_ne (h.2 _ hmem)).1 rfl,
    fun hmem => (segmentChar_ne (h.2 _ hmem)).2.1 rfl,
    fun hmem => (segmentChar_ne (h.2 _ hmem)).2.2 rfl⟩

/-- A segment with nothing between its braces, or no braces at all. -/
theorem checkSegment_wire {i : ℕ} {seg : PyStr} :
    checkSegment false i seg = .ok () ↔ WireSegment seg.points := by
  rw [checkSegment, Bool.false_and, Bool.false_and, if_neg Bool.false_ne_true]
  by_cases hempty : seg = ""
  · rw [if_pos hempty]
    refine iff_of_false (fun h => by cases h) fun h => h.1 ?_
    rw [hempty]
    rfl
  · rw [if_neg hempty]
    have hne : seg.points ≠ [] := fun h => hempty (PyStr.ext h)
    by_cases hvalid : validSegment seg = true
    · rw [hvalid, Bool.not_true, if_neg Bool.false_ne_true]
      exact iff_of_true rfl ⟨hne, List.all_eq_true.mp hvalid⟩
    · rw [Bool.not_eq_true] at hvalid
      rw [hvalid, Bool.not_false, if_pos rfl]
      refine iff_of_false (fun h => by cases h) fun h => ?_
      exact Bool.false_ne_true (hvalid.symm.trans (List.all_eq_true.mpr h.2))

/-- A template's segment is an identifier in braces, or a wire segment. -/
theorem checkSegment_template {i : ℕ} {seg : PyStr} :
    checkSegment true i seg = .ok () ↔ TemplateSegment seg.points := by
  by_cases hbraces : (seg.startsWith "\x7b" && seg.endsWith "\x7d") = true
  · obtain ⟨name, hseg⟩ := braces_iff.mp hbraces
    have hne : seg ≠ "" := fun h => by
      rw [h] at hseg
      cases hseg
    have hiff : TemplateSegment seg.points ↔ isIdentifier name = true := by
      constructor
      · rintro (hwire | ⟨name', hseg', hname'⟩)
        · exact absurd (hseg ▸ List.mem_cons_self) hwire.notMem.2.1
        · rw [hseg, List.cons.injEq] at hseg'
          rwa [PyStr.ext (List.append_cancel_right hseg'.2)]
      · exact fun h => Or.inr ⟨name, hseg, h⟩
    rw [hiff, checkSegment, if_neg hne, Bool.true_and, if_pos hbraces]
    dsimp only
    rw [inner_eq hseg]
    by_cases hname : isIdentifier name = true
    · have hname_ne : name ≠ "" := fun h => by
        rw [h] at hname
        cases hname
      rw [if_neg hname_ne, hname, Bool.not_true, if_neg Bool.false_ne_true]
      exact iff_of_true rfl rfl
    · refine iff_of_false (fun h => ?_) hname
      rw [Bool.not_eq_true] at hname
      rw [hname, Bool.not_false, if_pos rfl] at h
      split at h <;> cases h
  · have hiff : TemplateSegment seg.points ↔ WireSegment seg.points := by
      refine or_iff_left ?_
      rintro ⟨name, hseg, -⟩
      exact hbraces (braces_iff.mpr ⟨name, hseg⟩)
    rw [hiff, ← checkSegment_wire (i := i), checkSegment, checkSegment, Bool.true_and,
      if_neg hbraces, Bool.false_and, Bool.false_and, if_neg Bool.false_ne_true]

theorem checkSegments_eq_ok {P : Text → Prop} {allowTemplate : Bool}
    (h : ∀ i seg, checkSegment allowTemplate i seg = .ok () ↔ P seg.points) :
    ∀ (segs : List Text) (i : ℕ), checkSegments allowTemplate i (segs.map PyStr.mk) = .ok () ↔
      ∀ seg ∈ segs, P seg
  | [], _ => iff_of_true rfl (List.forall_mem_nil _)
  | seg :: segs, i => by
      rw [List.map_cons, checkSegments, List.forall_mem_cons, ← checkSegments_eq_ok h segs (i + 1),
        ← h i ⟨seg⟩]
      rcases checkSegment allowTemplate i ⟨seg⟩ with e | _
      · exact iff_of_false (fun h => by cases h) fun h => by cases h.1
      · exact (and_iff_right rfl).symm

theorem validatePath_eq_ok {P : Text → Prop} {allowTemplate : Bool} (hne : ¬ P [])
    (h : ∀ i seg, checkSegment allowTemplate i seg = .ok () ↔ P seg.points) {path : PyStr} :
    validatePath path allowTemplate = .ok () ↔ SegmentsIn P path.points := by
  rw [validatePath]
  by_cases hempty : path = ""
  · rw [if_pos hempty, hempty]
    refine iff_of_false (fun h => by cases h) fun hall => hne (hall [] ?_)
    exact List.mem_singleton.mpr rfl
  · rw [if_neg hempty]
    exact checkSegments_eq_ok h _ 0

/-- **What a wire-level leaf path is.** -/
theorem validatePath_wire {path : PyStr} :
    validatePath path false = .ok () ↔ SegmentsIn WireSegment path.points :=
  validatePath_eq_ok (fun h => h.1 rfl) fun _ _ => checkSegment_wire

/-- **What a template of one is.** -/
theorem validatePath_template {path : PyStr} :
    validatePath path true = .ok () ↔ SegmentsIn TemplateSegment path.points := by
  refine validatePath_eq_ok ?_ fun _ _ => checkSegment_template
  rintro (h | ⟨name, hname, -⟩)
  · exact h.1 rfl
  · cases hname

/-! ## Substitution -/

/-- **When substitution succeeds**: the tokens can be filled, to a leaf path. -/
theorem substitute_eq_ok {path : PyStr} {scope : Dict PyStr PyStr} {out : PyStr} :
    substitute path scope = .ok out ↔ ∃ ts, tokens path.points = some ts ∧
      Token.fill (bound scope) ts = some out.points ∧ SegmentsIn WireSegment out.points := by
  rw [substitute]
  by_cases hbrace : cp '\x7b' ∉ path.points
  · have hscan : tokens path.points = some (path.points.map .lit) :=
      (Token.reads_lits hbrace).scan_eq
    rw [if_pos hbrace, bind_eq_ok, hscan]
    constructor
    · rintro ⟨_, hvalid, hout⟩
      cases hout
      exact ⟨_, rfl, Token.fill_lits _, validatePath_wire.mp hvalid⟩
    · rintro ⟨ts, hts, hfill, hvalid⟩
      cases hts
      rw [Token.fill_lits, Option.some.injEq] at hfill
      obtain rfl : path = out := PyStr.ext hfill
      exact ⟨(), validatePath_wire.mpr hvalid, rfl⟩
  · rw [if_neg hbrace, bind_eq_ok]
    constructor
    · rintro ⟨o, ho, h⟩
      obtain ⟨_, hvalid, hout⟩ := bind_eq_ok.mp h
      cases hout
      obtain ⟨ts, hts, hfill⟩ := expand_eq_ok.mp ho
      exact ⟨ts, hts, hfill, validatePath_wire.mp hvalid⟩
    · rintro ⟨ts, hts, hfill, hvalid⟩
      exact ⟨out, expand_eq_ok.mpr ⟨ts, hts, hfill⟩,
        bind_eq_ok.mpr ⟨(), validatePath_wire.mpr hvalid, rfl⟩⟩

/-! ## Segment by segment

On a valid template the scan finds the segments, and each can be filled by itself.  What is
filled in has no dots when it passes as a segment, so the segments of the result are the filled
segments. -/

/-- The name of a segment that is a placeholder. -/
def placeholder? (seg : PyStr) : Option PyStr :=
  if seg.startsWith "\x7b" && seg.endsWith "\x7d" then some ((seg.dropStart 1).dropEnd 1) else none

/-- The names of a template's placeholders. -/
def placeholders (t : PyStr) : List PyStr := (t.split (cp '.')).filterMap placeholder?

/-- A segment with its placeholder replaced. -/
def replaced (scope : Dict PyStr PyStr) (seg : PyStr) : PyStr :=
  match placeholder? seg with
  | some name => (scope.get? name).getD ""
  | none => seg

/-- A template with every placeholder segment replaced, its segments rejoined. -/
def substituted (scope : Dict PyStr PyStr) (t : PyStr) : PyStr :=
  .join "." ((t.split (cp '.')).map (replaced scope))

/-- The tokens of a segment. -/
def piece (seg : Text) : List (Token CodePoint) :=
  match placeholder? ⟨seg⟩ with
  | some name => [.hole name.points]
  | none => seg.map .lit

theorem TemplateSegment.cases {seg : Text} (h : TemplateSegment seg) :
    (placeholder? ⟨seg⟩ = none ∧ WireSegment seg) ∨ ∃ name : PyStr,
      placeholder? ⟨seg⟩ = some name ∧ seg = cp '\x7b' :: (name.points ++ [cp '\x7d']) ∧
        isIdentifier name = true := by
  rcases h with hwire | ⟨name, rfl, hname⟩
  · refine Or.inl ⟨if_neg fun hbraces => ?_, hwire⟩
    obtain ⟨name, hseg⟩ := braces_iff.mp hbraces
    have hmem : cp '\x7b' ∈ seg := by
      change seg = _ at hseg
      rw [hseg]
      exact List.mem_cons_self
    exact hwire.notMem.2.1 hmem
  · refine Or.inr ⟨name, ?_, rfl, hname⟩
    rw [placeholder?, if_pos (braces_iff.mpr ⟨name, rfl⟩), inner_eq rfl]

theorem TemplateSegment.reads {seg : Text} (h : TemplateSegment seg) :
    Token.Reads (cp '\x7b') (cp '\x7d') seg (piece seg) := by
  rw [piece]
  obtain ⟨hnone, hwire⟩ | ⟨name, hsome, rfl, hname⟩ := h.cases
  · rw [hnone]
    exact Token.reads_lits hwire.notMem.2.1
  · rw [hsome]
    exact Token.reads_hole (wireSegment_of_isIdentifier hname).notMem.2.2

/-- **The scan of a template** finds its segments. -/
theorem tokens_of_template {t : Text} (h : SegmentsIn TemplateSegment t) :
    tokens t = some ([Token.lit (cp '.')].intercalate ((t.splitOn (cp '.')).map piece)) := by
  have hne : cp '\x7b' ≠ cp '.' := by decide
  have hreads := Token.reads_intercalate hne fun seg hseg => (h seg hseg).reads
  rw [List.intercalate_splitOn] at hreads
  exact hreads.scan_eq

/-- A segment of a template is filled when its placeholder is bound. -/
theorem fill_piece {scope : Dict PyStr PyStr} {seg : Text} (h : TemplateSegment seg) :
    (∃ part, Token.fill (bound scope) (piece seg) = some part ∧ SegmentsIn WireSegment part) ↔
      ∀ name, placeholder? ⟨seg⟩ = some name → ∃ v, scope.get? name = some v ∧
        validatePath v false = .ok () := by
  rw [piece]
  obtain ⟨hnone, hwire⟩ | ⟨name, hsome, -, -⟩ := h.cases
  · rw [hnone]
    refine iff_of_true ⟨seg, Token.fill_lits seg, fun seg' hseg' => ?_⟩ fun name hname => ?_
    · rw [List.splitOn_eq_singleton hwire.notMem.1, List.mem_singleton] at hseg'
      exact hseg' ▸ hwire
    · cases hname
  · rw [hsome]
    simp only [Token.fill_hole, bound, Option.map_eq_some_iff, Option.some.injEq, forall_eq',
      validatePath_wire]
    constructor
    · rintro ⟨part, ⟨v, hv, rfl⟩, hvalid⟩
      exact ⟨v, hv, hvalid⟩
    · rintro ⟨v, hv, hvalid⟩
      exact ⟨v.points, ⟨v, hv, rfl⟩, hvalid⟩

/-! ## The two theorems

Both directions use that a placeholder which is not a segment of its own leaves a brace inside
one, and a template with such a segment is not valid. -/

/-- What a bound segment is filled with. -/
theorem fill_piece_eq {scope : Dict PyStr PyStr} {seg part : Text} (h : TemplateSegment seg)
    (hpart : Token.fill (bound scope) (piece seg) = some part) :
    part = (replaced scope ⟨seg⟩).points := by
  rw [piece] at hpart
  rw [replaced]
  obtain ⟨hnone, -⟩ | ⟨name, hsome, -, -⟩ := h.cases
  · rw [hnone] at hpart ⊢
    rw [Token.fill_lits, Option.some.injEq] at hpart
    exact hpart.symm
  · rw [hsome] at hpart ⊢
    rw [Token.fill_hole, bound, Option.map_eq_some_iff] at hpart
    obtain ⟨v, hv, rfl⟩ := hpart
    change v.points = ((scope.get? name).getD "").points
    rw [show scope.get? name = some v from hv]
    rfl

/-- Where every segment is filled, the join of what they are filled with. -/
theorem substituted_eq {scope : Dict PyStr PyStr} {t : PyStr}
    (h : SegmentsIn TemplateSegment t.points)
    (hall : ∀ g ∈ (t.points.splitOn (cp '.')).map piece,
      ∃ part, Token.fill (bound scope) g = some part) :
    (substituted scope t).points = [cp '.'].intercalate
      (((t.points.splitOn (cp '.')).map piece).map fun g =>
        (Token.fill (bound scope) g).getD []) := by
  rw [substituted, PyStr.join, PyStr.split, List.map_map, List.map_map, List.map_map]
  refine congrArg [cp '.'].intercalate (List.map_congr_left fun seg hseg => ?_)
  obtain ⟨part, hpart⟩ := hall _ (List.mem_map_of_mem hseg)
  change (replaced scope ⟨seg⟩).points = (Token.fill (bound scope) (piece seg)).getD []
  rw [hpart, fill_piece_eq (h seg hseg) hpart]
  rfl

/-- **When a template is expanded**, and to what. -/
theorem substitute_of_template {scope : Dict PyStr PyStr} {t out : PyStr}
    (h : SegmentsIn TemplateSegment t.points) : substitute t scope = .ok out ↔
      (∀ name ∈ placeholders t, ∃ v, scope.get? name = some v ∧ validatePath v false = .ok ()) ∧
        out = substituted scope t := by
  have hne : (t.points.splitOn (cp '.')).map piece ≠ [] := by simp
  have hpieces : (∀ name ∈ placeholders t, ∃ v, scope.get? name = some v ∧
      validatePath v false = .ok ()) ↔ ∀ seg ∈ t.points.splitOn (cp '.'),
        ∃ part, Token.fill (bound scope) (piece seg) = some part ∧ SegmentsIn WireSegment part := by
    rw [placeholders, PyStr.split]
    constructor
    · intro hall seg hseg
      exact (fill_piece (h seg hseg)).mpr fun name hname => hall name
        (List.mem_filterMap.mpr ⟨⟨seg⟩, List.mem_map_of_mem hseg, hname⟩)
    · intro hall name hname
      obtain ⟨_, hmem, hname⟩ := List.mem_filterMap.mp hname
      obtain ⟨seg, hseg, rfl⟩ := List.mem_map.mp hmem
      exact (fill_piece (h seg hseg)).mp (hall seg hseg) name hname
  rw [hpieces, substitute_eq_ok, tokens_of_template h]
  constructor
  · rintro ⟨ts, hts, hfill, hvalid⟩
    cases hts
    obtain ⟨hall, hout⟩ := (Token.fill_intercalate (cp '.') hne).mp hfill
    have heq : out = substituted scope t := PyStr.ext (hout.trans (substituted_eq h hall).symm)
    refine ⟨fun seg hseg => ?_, heq⟩
    obtain ⟨part, hpart⟩ := hall _ (List.mem_map_of_mem hseg)
    rw [hout, segmentsIn_intercalate (by simp)] at hvalid
    refine ⟨part, hpart, hvalid part ?_⟩
    rw [List.map_map]
    refine List.mem_map.mpr ⟨seg, hseg, ?_⟩
    rw [Function.comp_apply, hpart]
    rfl
  · rintro ⟨hall, rfl⟩
    have hfilled : ∀ g ∈ (t.points.splitOn (cp '.')).map piece,
        ∃ part, Token.fill (bound scope) g = some part := by
      rintro g hg
      obtain ⟨seg, hseg, rfl⟩ := List.mem_map.mp hg
      obtain ⟨part, hpart, -⟩ := hall seg hseg
      exact ⟨part, hpart⟩
    refine ⟨_, rfl, (Token.fill_intercalate (cp '.') hne).mpr ⟨hfilled, substituted_eq h hfilled⟩,
      ?_⟩
    rw [substituted_eq h hfilled, segmentsIn_intercalate (by simp)]
    rintro part hpart
    rw [List.map_map] at hpart
    obtain ⟨seg, hseg, rfl⟩ := List.mem_map.mp hpart
    obtain ⟨part, hpart, hvalid⟩ := hall seg hseg
    rw [Function.comp_apply, hpart]
    exact hvalid

/-- **Substitution in a valid template is segment-wise**, and fails only for want of a value. -/
theorem substitute_segmentwise (t : PyStr) (scope : Dict PyStr PyStr)
    (h : validatePath t true = .ok ()) :
    ((∃ out, substitute t scope = .ok out) ↔
        ∀ name ∈ placeholders t, ∃ v, scope.get? name = some v ∧ validatePath v false = .ok ()) ∧
      (∀ out, substitute t scope = .ok out →
        out = substituted scope t ∧ validatePath out false = .ok ()) ∧
      ((¬ ∃ out, substitute t scope = .ok out) →
        ∃ e : PathError, substitute t scope = .error e) := by
  have htemplate := validatePath_template.mp h
  refine ⟨⟨?_, fun hall => ⟨_, (substitute_of_template htemplate).mpr ⟨hall, rfl⟩⟩⟩,
    fun out hout => ⟨((substitute_of_template htemplate).mp hout).2, ?_⟩, fun hno => ?_⟩
  · rintro ⟨out, hout⟩
    exact ((substitute_of_template htemplate).mp hout).1
  · obtain ⟨-, -, -, hvalid⟩ := substitute_eq_ok.mp hout
    exact validatePath_wire.mpr hvalid
  · rcases hresult : substitute t scope with e | out
    · exact ⟨e, rfl⟩
    · exact absurd ⟨out, hresult⟩ hno

/-- Every placeholder the scan finds is a segment of its own, and an identifier. -/
def WholePlaceholders (t : PyStr) : Prop := ∀ ts, tokens t.points = some ts →
  Token.Aligned (cp '.') (fun name => isIdentifier ⟨name⟩ = true) ts

theorem wholePlaceholders_of_template {t : PyStr} (h : SegmentsIn TemplateSegment t.points) :
    WholePlaceholders t := by
  intro ts hts
  rw [tokens_of_template h] at hts
  cases hts
  rw [Token.aligned_intercalate (by simp)]
  · rintro g hg name hname
    obtain ⟨seg, hseg, rfl⟩ := List.mem_map.mp hg
    rw [piece] at hname ⊢
    obtain ⟨hnone, -⟩ | ⟨name', hsome, -, hident⟩ := (h seg hseg).cases
    · rw [hnone] at hname
      simp at hname
    · rw [hsome] at hname ⊢
      cases List.mem_singleton.mp hname
      exact ⟨rfl, hident⟩
  · rintro g hg hdot
    obtain ⟨seg, hseg, rfl⟩ := List.mem_map.mp hg
    rw [piece] at hdot
    obtain ⟨hnone, hwire⟩ | ⟨name', hsome, -, -⟩ := (h seg hseg).cases
    · rw [hnone] at hdot
      exact hwire.notMem.1 (by simpa using hdot)
    · rw [hsome] at hdot
      cases List.mem_singleton.mp hdot

/-- What the scan finds to be whole is a template, if it expands to a leaf path. -/
theorem template_of_wholePlaceholders {scope : Dict PyStr PyStr} {t out : PyStr}
    (hout : substitute t scope = .ok out) (h : WholePlaceholders t) :
    SegmentsIn TemplateSegment t.points := by
  obtain ⟨ts, hts, hfill, hvalid⟩ := substitute_eq_ok.mp hout
  have hne : ts.splitOn (Token.lit (cp '.')) ≠ [] := List.splitOn_ne_nil _ _
  have hjoin : [Token.lit (cp '.')].intercalate (ts.splitOn (.lit (cp '.'))) = ts :=
    List.intercalate_splitOn _
  rw [← hjoin] at hfill
  obtain ⟨-, hpoints⟩ := (Token.fill_intercalate (cp '.') hne).mp hfill
  rw [hpoints, segmentsIn_intercalate (by simp)] at hvalid
  have hwritten := Token.written_of_scan hts
  rw [← hjoin, Token.written_intercalate] at hwritten
  rw [← hwritten, segmentsIn_intercalate (by simp)]
  rintro part hpart
  obtain ⟨g, hg, rfl⟩ := List.mem_map.mp hpart
  obtain ⟨name, rfl, hname⟩ | ⟨l, rfl⟩ := (h ts hts).cases hg
  · have hdot : cp '.' ∉ cp '\x7b' :: (name ++ [cp '\x7d']) := by
      have hname_dot := (wireSegment_of_isIdentifier hname).notMem.1
      simp only [List.mem_cons, List.mem_append, List.not_mem_nil, or_false, not_or]
      exact ⟨by decide, hname_dot, by decide⟩
    have hsingle : [Token.hole name].flatMap (Token.written (cp '\x7b') (cp '\x7d'))
        = cp '\x7b' :: (name ++ [cp '\x7d']) := by simp [Token.written]
    intro seg hseg
    rw [hsingle, List.splitOn_eq_singleton hdot, List.mem_singleton] at hseg
    exact Or.inr ⟨⟨name⟩, hseg, hname⟩
  · -- plain text comes through unchanged, as segments of the result
    intro seg hseg
    rw [Token.written_lits] at hseg
    refine Or.inl (hvalid l ?_ seg hseg)
    refine List.mem_map.mpr ⟨_, hg, ?_⟩
    rw [Token.fill_lits]
    rfl

/-- **Validation accepts what substitution expands exactly where the placeholders are whole
segments.** -/
theorem validatePath_of_substitute {t : PyStr} {scope : Dict PyStr PyStr} {out : PyStr}
    (h : substitute t scope = .ok out) : validatePath t true = .ok () ↔ WholePlaceholders t :=
  ⟨fun hvalid => wholePlaceholders_of_template (validatePath_template.mp hvalid),
    fun hwhole => validatePath_template.mpr (template_of_wholePlaceholders h hwhole)⟩

end Templates

/-! ## A placeholder inside a segment -/

/-- The tokens of `a{x}b`. -/
theorem tokens_inside : tokens (lit "a\x7bx\x7db")
    = some [.lit (cp 'a'), .hole (lit "x"), .lit (cp 'b')] := by
  have ha : Token.Reads (cp '\x7b') (cp '\x7d') (lit "a") _ := Token.reads_lits (by decide)
  have hx : Token.Reads (cp '\x7b') (cp '\x7d') _ [.hole (lit "x")] := Token.reads_hole (by decide)
  have hb : Token.Reads (cp '\x7b') (cp '\x7d') (lit "b") _ := Token.reads_lits (by decide)
  exact ((ha.append hx).append hb).scan_eq

/-- `a{x}b` expands to `a1b`, and is no valid template. -/
theorem substitute_inside :
    letI := PyUnicode.ascii
    ¬ ∀ (t : PyStr) (scope : Dict PyStr PyStr) (out : PyStr), substitute t scope = .ok out →
      validatePath t true = .ok () := by
  let := PyUnicode.ascii
  intro h
  have hout : substitute "a\x7bx\x7db" (.ofList [("x", "1")]) = .ok "a1b" :=
    substitute_eq_ok.mpr ⟨_, tokens_inside, rfl, validatePath_wire.mp (by decide)⟩
  have hvalid := h _ _ _ hout
  have hinvalid : validatePath "a\x7bx\x7db" true
      = .error (.invalidSegment "a\x7bx\x7db" 0) := by decide
  rw [hinvalid] at hvalid
  cases hvalid

/-! ## A placeholder that is a segment -/

/-- `{player}.name`. -/
def playerName : PyStr := "\x7bplayer\x7d.name"

/-- The first player. -/
def firstPlayer : Dict PyStr PyStr := .ofList [("player", "players.0")]

theorem substitute_playerName :
    letI := PyUnicode.ascii
    substitute playerName firstPlayer = .ok "players.0.name" := by
  let := PyUnicode.ascii
  have hhole : Token.Reads (cp '\x7b') (cp '\x7d') _ [.hole (lit "player")] :=
    Token.reads_hole (by decide)
  have hrest : Token.Reads (cp '\x7b') (cp '\x7d') (lit ".name") _ := Token.reads_lits (by decide)
  exact substitute_eq_ok.mpr
    ⟨_, (hhole.append hrest).scan_eq, rfl, validatePath_wire.mp (by decide)⟩

theorem validatePath_of_substitute_playerName :
    letI := PyUnicode.ascii
    validatePath playerName true = .ok () ↔ WholePlaceholders playerName := by
  let := PyUnicode.ascii
  exact validatePath_of_substitute substitute_playerName

theorem substitute_segmentwise_playerName :
    letI := PyUnicode.ascii
    (∃ out, substitute playerName firstPlayer = .ok out) ↔
      ∀ name ∈ placeholders playerName, ∃ v, firstPlayer.get? name = some v ∧
        validatePath v false = .ok () := by
  let := PyUnicode.ascii
  exact (substitute_segmentwise playerName firstPlayer (by decide)).1

end Lumencast
