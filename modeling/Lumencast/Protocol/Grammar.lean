import Lumencast.Protocol.PyStr

/-!
# Protocol/Grammar — well-formed JSON texts

The grammar of JSON texts over code points, production by production.  A text of it holds no capital
`N` or `I` outside its strings (`closed_text`): the bare names `NaN` and `Infinity` are of no text,
wherever they stand.
-/

namespace Lumencast

/-- A text, as its code points. -/
abbrev Text := List CodePoint

namespace Grammar

/-- The code point of a character. -/
abbrev cp (c : Char) : CodePoint := CodePoint.ofChar c

/-- The code points of a literal. -/
abbrev lit (s : String) : Text := (PyStr.ofString s).points

/-! ## Tokens -/

def IsDigit (p : CodePoint) : Prop := 0x30 ≤ p.val ∧ p.val ≤ 0x39

instance : DecidablePred IsDigit := fun _ => inferInstanceAs (Decidable (_ ∧ _))

/-- `1*DIGIT`. -/
def IsDigits (t : Text) : Prop := t ≠ [] ∧ ∀ p ∈ t, IsDigit p

/-- `HEXDIG`, of either case. -/
def IsHex (p : CodePoint) : Prop :=
  IsDigit p ∨ (0x41 ≤ p.val ∧ p.val ≤ 0x46) ∨ (0x61 ≤ p.val ∧ p.val ≤ 0x66)

instance : DecidablePred IsHex := fun _ => inferInstanceAs (Decidable (_ ∨ (_ ∧ _) ∨ (_ ∧ _)))

/-- Insignificant whitespace: spaces, tabs, line feeds and carriage returns. -/
def IsSpace (t : Text) : Prop :=
  ∀ p ∈ t, p = cp ' ' ∨ p = cp '\t' ∨ p = cp '\n' ∨ p = cp '\r'

/-- `int`: no leading zero. -/
inductive IsInt : Text → Prop
  | zero : IsInt (lit "0")
  | digits {p : CodePoint} {t : Text} (hp : IsDigit p) (hzero : p ≠ cp '0')
      (ht : ∀ q ∈ t, IsDigit q) : IsInt (p :: t)

/-- `[ minus ]`. -/
inductive IsMinus : Text → Prop
  | none : IsMinus []
  | minus : IsMinus (lit "-")

/-- `[ frac ]`. -/
inductive IsFrac : Text → Prop
  | none : IsFrac []
  | frac {ds : Text} (h : IsDigits ds) : IsFrac (cp '.' :: ds)

/-- `[ exp ]`. -/
inductive IsExp : Text → Prop
  | none : IsExp []
  | exp {e : CodePoint} {sign ds : Text} (he : e = cp 'e' ∨ e = cp 'E')
      (hsign : sign = [] ∨ sign = lit "-" ∨ sign = lit "+") (h : IsDigits ds) :
      IsExp (e :: sign ++ ds)

/-- `number`. -/
inductive IsNumber : Text → Prop
  | mk {minus int frac exp : Text} (hminus : IsMinus minus) (hint : IsInt int)
      (hfrac : IsFrac frac) (hexp : IsExp exp) : IsNumber (minus ++ int ++ frac ++ exp)

/-- The code points that stand for themselves in a string. -/
def IsUnescaped (p : CodePoint) : Prop := 0x20 ≤ p.val ∧ p ≠ cp '"' ∧ p ≠ cp '\\'

/-- `*char`, the inside of a string. -/
inductive IsChars : Text → Prop
  | nil : IsChars []
  | unescaped {p : CodePoint} {t : Text} (hp : IsUnescaped p) (ht : IsChars t) : IsChars (p :: t)
  | escaped {p : CodePoint} {t : Text} (hp : p ∈ lit "\"\\/bfnrt") (ht : IsChars t) :
      IsChars (cp '\\' :: p :: t)
  | hex {a b c d : CodePoint} {t : Text} (ha : IsHex a) (hb : IsHex b) (hc : IsHex c)
      (hd : IsHex d) (ht : IsChars t) : IsChars (lit "\\u" ++ [a, b, c, d] ++ t)

/-- `string`. -/
inductive IsString : Text → Prop
  | mk {t : Text} (h : IsChars t) : IsString (lit "\"" ++ t ++ lit "\"")

/-! ## Values -/

mutual

/-- `value`. -/
inductive IsValue : Text → Prop
  | null : IsValue (lit "null")
  | true : IsValue (lit "true")
  | false : IsValue (lit "false")
  | number {t : Text} (h : IsNumber t) : IsValue t
  | string {t : Text} (h : IsString t) : IsValue t
  | emptyArray {ws : Text} (hws : IsSpace ws) : IsValue (lit "[" ++ ws ++ lit "]")
  | array {t : Text} (h : IsElements t) : IsValue (lit "[" ++ t ++ lit "]")
  | emptyObject {ws : Text} (hws : IsSpace ws) : IsValue (lit "\x7b" ++ ws ++ lit "\x7d")
  | object {t : Text} (h : IsMembers t) : IsValue (lit "\x7b" ++ t ++ lit "\x7d")

/-- The elements of an array that has some. -/
inductive IsElements : Text → Prop
  | one {ws t ws' : Text} (hws : IsSpace ws) (h : IsValue t) (hws' : IsSpace ws') :
      IsElements (ws ++ t ++ ws')
  | more {ws t ws' rest : Text} (hws : IsSpace ws) (h : IsValue t) (hws' : IsSpace ws')
      (hrest : IsElements rest) : IsElements (ws ++ t ++ ws' ++ lit "," ++ rest)

/-- The members of an object that has some. -/
inductive IsMembers : Text → Prop
  | one {ws k ws₁ ws₂ t ws' : Text} (hws : IsSpace ws) (hk : IsString k) (hws₁ : IsSpace ws₁)
      (hws₂ : IsSpace ws₂) (h : IsValue t) (hws' : IsSpace ws') :
      IsMembers (ws ++ k ++ ws₁ ++ lit ":" ++ ws₂ ++ t ++ ws')
  | more {ws k ws₁ ws₂ t ws' rest : Text} (hws : IsSpace ws) (hk : IsString k)
      (hws₁ : IsSpace ws₁) (hws₂ : IsSpace ws₂) (h : IsValue t) (hws' : IsSpace ws')
      (hrest : IsMembers rest) :
      IsMembers (ws ++ k ++ ws₁ ++ lit ":" ++ ws₂ ++ t ++ ws' ++ lit "," ++ rest)

end

/-- `JSON-text`. -/
inductive IsText : Text → Prop
  | mk {ws t ws' : Text} (hws : IsSpace ws) (h : IsValue t) (hws' : IsSpace ws') :
      IsText (ws ++ t ++ ws')

/-! Without whitespace: -/

theorem isSpace_nil : IsSpace [] := fun _ h => nomatch h

theorem isElements_one {t : Text} (h : IsValue t) : IsElements t := by
  have hone := IsElements.one isSpace_nil h isSpace_nil
  rwa [List.nil_append, List.append_nil] at hone

theorem isElements_more {t rest : Text} (h : IsValue t) (hrest : IsElements rest) :
    IsElements (t ++ lit "," ++ rest) := by
  have hmore := IsElements.more isSpace_nil h isSpace_nil hrest
  rwa [List.nil_append, List.append_nil] at hmore

theorem isMembers_one {k t : Text} (hk : IsString k) (h : IsValue t) :
    IsMembers (k ++ lit ":" ++ t) := by
  have hone := IsMembers.one isSpace_nil hk isSpace_nil isSpace_nil h isSpace_nil
  rwa [List.nil_append, List.append_nil, List.append_nil, List.append_nil] at hone

theorem isMembers_more {k t rest : Text} (hk : IsString k) (h : IsValue t)
    (hrest : IsMembers rest) : IsMembers (k ++ lit ":" ++ t ++ lit "," ++ rest) := by
  have hmore := IsMembers.more isSpace_nil hk isSpace_nil isSpace_nil h isSpace_nil hrest
  rwa [List.nil_append, List.append_nil, List.append_nil, List.append_nil] at hmore

/-! ## Inside and outside of strings

Reading a text from the left, the quotes tell what is inside a string and what is not. -/

/-- Where a reader of a text stands. -/
inductive Place where
  | outside
  | inside
  /-- Inside, right after a backslash. -/
  | escaped
  deriving DecidableEq

/-- Where it stands after one more code point. -/
def Place.next : Place → CodePoint → Place
  | .outside, p => if p = cp '"' then .inside else .outside
  | .inside, p => if p = cp '"' then .outside else if p = cp '\\' then .escaped else .inside
  | .escaped, _ => .inside

/-- Where it stands at the end of a text. -/
def Place.after (place : Place) (t : Text) : Place := t.foldl Place.next place

/-- The code points read outside of strings. -/
def bare : Place → Text → Text
  | _, [] => []
  | .outside, p :: t => p :: bare (Place.outside.next p) t
  | .inside, p :: t => bare (Place.inside.next p) t
  | .escaped, _ :: t => bare .inside t

theorem after_append (place : Place) (t t' : Text) :
    place.after (t ++ t') = (place.after t).after t' := List.foldl_append

theorem bare_append : ∀ (place : Place) (t t' : Text),
    bare place (t ++ t') = bare place t ++ bare (place.after t) t'
  | _, [], _ => rfl
  | .outside, p :: t, t' => congrArg (p :: ·) (bare_append _ t t')
  | .inside, p :: t, t' => bare_append (Place.inside.next p) t t'
  | .escaped, _ :: t, t' => bare_append .inside t t'

/-- The letters that no token holds, and the bare names of the numbers that are none do. -/
def IsCapital (p : CodePoint) : Prop := p = cp 'N' ∨ p = cp 'I'

instance : DecidablePred IsCapital := fun _ => inferInstanceAs (Decidable (_ ∨ _))

/-- A text that closes its strings; `plain` says whether no capital stands outside of them. -/
structure Closed (t : Text) (plain : Bool) : Prop where
  after : Place.outside.after t = .outside
  bare : (∃ p ∈ bare .outside t, IsCapital p) ↔ plain = false

theorem Closed.append {t t' : Text} {b b' : Bool} (h : Closed t b) (h' : Closed t' b') :
    Closed (t ++ t') (b && b') := by
  refine ⟨by rw [after_append, h.after, h'.after], ?_⟩
  rw [bare_append, h.after, Bool.and_eq_false_iff, ← h.bare, ← h'.bare]
  simp only [List.mem_append, or_and_right, exists_or]

theorem closed_nil : Closed [] true := ⟨rfl, ⟨fun ⟨_, h, _⟩ => (nomatch h), fun h => (nomatch h)⟩⟩

/-- Code points that are neither quotes nor capitals. -/
def isPlain (p : CodePoint) : Bool := p != cp '"' && !decide (IsCapital p)

theorem closed_plain {t : Text} (h : t.all isPlain = true) : Closed t true := by
  induction t with
  | nil => exact closed_nil
  | cons p t ih =>
      rw [List.all_cons, Bool.and_eq_true, isPlain, Bool.and_eq_true, bne_iff_ne,
        Bool.not_eq_true', decide_eq_false_iff_not] at h
      have hplace : Place.outside.next p = .outside := if_neg h.1.1
      have hp : Closed [p] true := ⟨hplace, ⟨fun ⟨q, hq, hcapital⟩ =>
        absurd (List.mem_singleton.mp hq ▸ hcapital) h.1.2, fun h => (nomatch h)⟩⟩
      exact hp.append (ih h.2)

/-! ## A text of the grammar has no capital outside of its strings -/

/-- One piece after another. -/
theorem Closed.then {t t' : Text} (h : Closed t true) (h' : Closed t' true) :
    Closed (t ++ t') true := h.append h'

theorem isPlain_of_isDigit {p : CodePoint} (h : IsDigit p) : isPlain p = true := by
  have hne : ∀ {q : CodePoint}, ¬ IsDigit q → p ≠ q := fun hq hp => hq (hp ▸ h)
  have hcapital : ¬ IsCapital p :=
    fun hp => hp.elim (hne (q := cp 'N') (by decide)) (hne (q := cp 'I') (by decide))
  rw [isPlain, Bool.and_eq_true, bne_iff_ne, Bool.not_eq_true', decide_eq_false_iff_not]
  exact ⟨hne (by decide), hcapital⟩

theorem closed_digits {t : Text} (h : ∀ p ∈ t, IsDigit p) : Closed t true :=
  closed_plain (List.all_eq_true.mpr fun p hp => isPlain_of_isDigit (h p hp))

theorem closed_space {t : Text} (h : IsSpace t) : Closed t true :=
  closed_plain (List.all_eq_true.mpr fun p hp => by
    rcases h p hp with rfl | rfl | rfl | rfl <;> decide)

theorem closed_int {t : Text} (h : IsInt t) : Closed t true := by
  rcases h with _ | ⟨hp, -, ht⟩
  · exact closed_plain (by decide)
  · exact closed_digits fun q hq => (List.mem_cons.mp hq).elim (fun h => h ▸ hp) (ht q)

theorem closed_number {t : Text} (h : IsNumber t) : Closed t true := by
  obtain ⟨hminus, hint, hfrac, hexp⟩ := h
  refine (((?_ : Closed _ true).then (closed_int hint)).then ?_).then ?_
  · rcases hminus with _ | _ <;> exact closed_plain (by decide)
  · rcases hfrac with _ | ⟨-, hds⟩
    · exact closed_nil
    · exact (closed_plain (t := [cp '.']) (by decide)).then (closed_digits hds)
  · rcases hexp with _ | @⟨e, sign, ds, he, hsign, -, hds⟩
    · exact closed_nil
    · refine ((?_ : Closed [e] true).then ?_).then (closed_digits hds)
      · rcases he with rfl | rfl <;> exact closed_plain (by decide)
      · rcases hsign with rfl | rfl | rfl <;> exact closed_plain (by decide)

/-- The inside of a string stays inside. -/
theorem inside_chars {t : Text} (h : IsChars t) :
    Place.inside.after t = .inside ∧ bare .inside t = [] := by
  have hnext : ∀ {p : CodePoint}, p ≠ cp '"' → p ≠ cp '\\' → Place.inside.next p = .inside :=
    fun hq hb => (if_neg hq).trans (if_neg hb)
  have hstep : ∀ {p : CodePoint} {t : Text}, Place.inside.next p = .inside →
      (Place.inside.after t = .inside ∧ bare .inside t = []) →
        Place.inside.after (p :: t) = .inside ∧ bare .inside (p :: t) = [] := by
    intro p t hp ht
    rw [Place.after, List.foldl_cons, bare, hp]
    exact ht
  have hhex : ∀ {p : CodePoint}, IsHex p → Place.inside.next p = .inside := fun {p} hp => by
    have hne : ∀ {q : CodePoint}, ¬ IsHex q → p ≠ q := fun hq h => hq (h ▸ hp)
    exact hnext (hne (by decide)) (hne (by decide))
  induction h with
  | nil => exact ⟨rfl, rfl⟩
  | unescaped hp _ ih => exact hstep (hnext hp.2.1 hp.2.2) ih
  | escaped _ _ ih => exact ih
  | @hex a b c d t ha hb hc hd _ ih =>
      have hdigits : Place.inside.after (a :: b :: c :: d :: t) = .inside ∧
          bare .inside (a :: b :: c :: d :: t) = [] :=
        hstep (hhex ha) (hstep (hhex hb) (hstep (hhex hc) (hstep (hhex hd) ih)))
      exact hdigits

theorem closed_string {t : Text} (h : IsString t) : Closed t true := by
  obtain ⟨h⟩ := h
  obtain ⟨hafter, hbare⟩ := inside_chars h
  constructor
  · rw [after_append, after_append]
    change ((Place.inside.after _).after _) = _
    rw [hafter]
    rfl
  · rw [bare_append, bare_append, after_append]
    change (∃ p ∈ [cp '"'] ++ bare .inside _ ++ bare (Place.inside.after _) _, _) ↔ _
    rw [hbare, hafter]
    refine ⟨fun ⟨p, hp, hcapital⟩ => ?_, fun h => (nomatch h)⟩
    have hquote : p = cp '"' := List.mem_singleton.mp hp
    exact absurd (hquote ▸ hcapital) (by decide)

/-! The derivation of a value is followed production by production. -/

mutual

theorem closed_value : ∀ {t : Text}, IsValue t → Closed t true
  | _, .null => closed_plain (by decide)
  | _, .true => closed_plain (by decide)
  | _, .false => closed_plain (by decide)
  | _, .number h => closed_number h
  | _, .string h => closed_string h
  | _, .emptyArray hws =>
      ((closed_plain (by decide)).then (closed_space hws)).then (closed_plain (by decide))
  | _, .array h =>
      ((closed_plain (by decide)).then (closed_elements h)).then (closed_plain (by decide))
  | _, .emptyObject hws =>
      ((closed_plain (by decide)).then (closed_space hws)).then (closed_plain (by decide))
  | _, .object h =>
      ((closed_plain (by decide)).then (closed_members h)).then (closed_plain (by decide))

theorem closed_elements : ∀ {t : Text}, IsElements t → Closed t true
  | _, .one hws h hws' => ((closed_space hws).then (closed_value h)).then (closed_space hws')
  | _, .more hws h hws' hrest =>
      ((((closed_space hws).then (closed_value h)).then (closed_space hws')).then
        (closed_plain (by decide))).then (closed_elements hrest)

theorem closed_members : ∀ {t : Text}, IsMembers t → Closed t true
  | _, .one hws hk hws₁ hws₂ h hws' =>
      ((((((closed_space hws).then (closed_string hk)).then (closed_space hws₁)).then
        (closed_plain (by decide))).then (closed_space hws₂)).then (closed_value h)).then
        (closed_space hws')
  | _, .more hws hk hws₁ hws₂ h hws' hrest =>
      ((((((((closed_space hws).then (closed_string hk)).then (closed_space hws₁)).then
        (closed_plain (by decide))).then (closed_space hws₂)).then (closed_value h)).then
        (closed_space hws')).then (closed_plain (by decide))).then (closed_members hrest)

end

/-- **A text of the grammar has no capital outside of its strings.** -/
theorem closed_text {t : Text} (h : IsText t) : Closed t true := by
  obtain ⟨hws, h, hws'⟩ := h
  exact ((closed_space hws).then (closed_value h)).then (closed_space hws')

end Grammar

end Lumencast
