import Lumencast.Protocol.Grammar
import Lumencast.Protocol.Text

/-!
# Protocol/WellFormed — which values are written as well-formed texts

`json.dumps` writes a text of the JSON grammar exactly when every float of the value is finite, and
one that UTF-8 has bytes for exactly when every string of it is free of lone surrogates.
-/

namespace Lumencast

open Grammar

/-! ## What a value holds

Being well formed is a matter of the leaves: one traversal serves for floats, strings and keys. -/

namespace Json

section Leaves

variable (onFloat : PyFloat → Bool) (onStr : PyStr → Bool)

mutual

/-- Whether something holds of every float, and of every string, keys included. -/
def everywhere : Json → Bool
  | .float x => onFloat x
  | .str s => onStr s
  | .arr xs => everyItem xs
  | .obj kvs => everyPair kvs
  | _ => true

def everyItem : List Json → Bool
  | [] => true
  | x :: xs => everywhere x && everyItem xs

def everyPair : List (PyStr × Json) → Bool
  | [] => true
  | (k, v) :: kvs => onStr k && everywhere v && everyPair kvs

end

end Leaves

/-- A float that is a number. -/
def isFinite (x : PyFloat) : Bool := x.toRat?.isSome

/-- Every float is finite. -/
def finite (v : Json) : Bool := v.everywhere isFinite fun _ => true

/-- Every string can be encoded. -/
def encodable (v : Json) : Bool := v.everywhere (fun _ => true) PyStr.encodable

/-- A value whose text is well formed and can be encoded. -/
def clean (v : Json) : Bool := v.everywhere isFinite PyStr.encodable

mutual

theorem clean_eq : ∀ v : Json, v.clean = (v.finite && v.encodable)
  | .null => rfl
  | .bool _ => rfl
  | .int _ => rfl
  | .float _ => (Bool.and_true _).symm
  | .str _ => (Bool.true_and _).symm
  | .arr xs => cleanItems_eq xs
  | .obj kvs => cleanPairs_eq kvs

theorem cleanItems_eq : ∀ xs : List Json, everyItem isFinite PyStr.encodable xs =
    (everyItem isFinite (fun _ => true) xs && everyItem (fun _ => true) PyStr.encodable xs)
  | [] => rfl
  | x :: xs => by
      have hx := clean_eq x
      have hxs := cleanItems_eq xs
      unfold clean finite encodable at hx
      simp only [everyItem, hx, hxs]
      ac_rfl

theorem cleanPairs_eq : ∀ kvs : List (PyStr × Json), everyPair isFinite PyStr.encodable kvs =
    (everyPair isFinite (fun _ => true) kvs && everyPair (fun _ => true) PyStr.encodable kvs)
  | [] => rfl
  | (k, v) :: kvs => by
      have hv := clean_eq v
      have hkvs := cleanPairs_eq kvs
      unfold clean finite encodable at hv
      simp only [everyPair, hv, hkvs, Bool.true_and]
      ac_rfl

end

end Json

/-! ## Numbers -/

theorem isDigit_ofChar {c : Char} (h : c.isDigit = true) : IsDigit (cp c) := by
  have hval : (cp c).val = c.toNat := rfl
  rw [Char.isDigit, Bool.and_eq_true, decide_eq_true_iff, decide_eq_true_iff] at h
  rw [IsDigit, hval]
  exact h

theorem isDigit_digitChar : ∀ n < 10, (Nat.digitChar n).isDigit = true := by decide

theorem digitChar_ne_zero : ∀ n < 10, 0 < n → Nat.digitChar n ≠ '0' := by decide

/-- The digits of a natural number have no leading zero. -/
theorem toDigits_eq_cons : ∀ n : ℕ, 0 < n →
    ∃ c cs, Nat.toDigits 10 n = c :: cs ∧ c.isDigit = true ∧ c ≠ '0' ∧
      ∀ d ∈ cs, d.isDigit = true := by
  intro n
  induction n using Nat.strongRecOn with
  | ind n ih =>
    intro hn
    rw [Nat.toDigits_eq_if (by decide)]
    split
    · rename_i hlt
      exact ⟨n.digitChar, [], rfl, isDigit_digitChar n hlt, digitChar_ne_zero n hlt hn,
        fun _ h => nomatch h⟩
    · rename_i hge
      obtain ⟨c, cs, heq, hc, hzero, hcs⟩ := ih (n / 10) (by omega) (by omega)
      refine ⟨c, cs ++ [(n % 10).digitChar], by rw [heq]; rfl, hc, hzero, fun d hd => ?_⟩
      rcases List.mem_append.mp hd with hd | hd
      · exact hcs d hd
      · rw [List.mem_singleton.mp hd]
        exact isDigit_digitChar _ (Nat.mod_lt n (by decide))

theorem isInt_repr (n : ℕ) : IsInt (lit (Nat.repr n)) := by
  have hlit : lit (Nat.repr n) = (Nat.toDigits 10 n).map cp := by
    rw [lit, PyStr.ofString, Nat.toList_repr]
  rw [hlit]
  rcases Nat.eq_zero_or_pos n with rfl | hn
  · exact .zero
  · obtain ⟨c, cs, heq, hc, hzero, hcs⟩ := toDigits_eq_cons n hn
    rw [heq]
    refine .digits (isDigit_ofChar hc) (fun h => hzero ?_) fun q hq => ?_
    · have hval : (cp c).val = (cp '0').val := congrArg Fin.val h
      exact Char.toNat_inj.mp hval
    · obtain ⟨d, hd, rfl⟩ := List.mem_map.mp hq
      exact isDigit_ofChar (hcs d hd)

/-- An integer is shown as a number of the grammar. -/
theorem isNumber_int (n : ℤ) : IsNumber (lit (toString n)) := by
  rcases n with n | n
  · have h := IsNumber.mk .none (isInt_repr n) .none .none
    rw [List.nil_append, List.append_nil, List.append_nil] at h
    exact h
  · have h := IsNumber.mk .minus (isInt_repr (n + 1)) .none .none
    rw [List.append_nil, List.append_nil] at h
    have hrepr : lit (toString (Int.negSucc n)) = lit "-" ++ lit (Nat.repr (n + 1)) :=
      congrArg PyStr.points (PyStr.ofString_append "-" (Nat.repr (n + 1)))
    rw [hrepr]
    exact h

/-! ## Strings -/

theorem isHex_hexDigit : ∀ n < 16, IsHex (Json.hexDigit n) := by decide

theorem isChars_escape (p : CodePoint) {t : Text} (h : IsChars t) :
    IsChars (Json.escape p ++ t) := by
  unfold Json.escape
  split_ifs with hquote hback hn hr ht hf hb hcontrol
  · exact .escaped (by decide) h
  · exact .escaped (by decide) h
  · exact .escaped (by decide) h
  · exact .escaped (by decide) h
  · exact .escaped (by decide) h
  · exact .escaped (by decide) h
  · exact .escaped (by decide) h
  · exact .hex (by decide) (by decide) (isHex_hexDigit _ (by omega)) (isHex_hexDigit _ (by omega)) h
  · exact .unescaped ⟨not_lt.mp hcontrol, hquote, hback⟩ h

theorem isString_quote (s : PyStr) : IsString (Json.quote s).points := by
  refine .mk ?_
  change IsChars (s.points.flatMap Json.escape)
  induction s.points with
  | nil => exact .nil
  | cons p ps ih =>
      rw [List.flatMap_cons]
      exact isChars_escape p ih

theorem all_escape (p : CodePoint) :
    ((Json.escape p).all fun q => !q.isSurrogate) = !p.isSurrogate := by
  have hplain : ∀ {q : CodePoint}, p = q → q.isSurrogate = false →
      true = !p.isSurrogate := fun hp hq => by
    rw [hp, hq]
    rfl
  have hlow : p.val < 0x20 → p.isSurrogate = false := fun h => by
    rw [CodePoint.isSurrogate, Bool.and_eq_false_iff, decide_eq_false_iff_not]
    exact Or.inl (by omega)
  have hhex : ∀ n < 16, (Json.hexDigit n).isSurrogate = false := by decide
  unfold Json.escape
  split_ifs with hquote hback hn hr ht hf hb hcontrol
  · exact hplain hquote (by decide)
  · exact hplain hback (by decide)
  · exact hplain hn (by decide)
  · exact hplain hr (by decide)
  · exact hplain ht (by decide)
  · rw [hlow (by omega)]
    rfl
  · rw [hlow (by omega)]
    rfl
  · rw [hlow hcontrol, List.all_append, List.all_cons, List.all_cons, hhex _ (by omega),
      hhex _ (by omega)]
    rfl
  · exact Bool.and_true _

/-- A string is written with its own code points, apart from its escapes. -/
theorem encodable_quote (s : PyStr) : (Json.quote s).encodable = s.encodable := by
  have hpoints : (⟨s.points.flatMap Json.escape⟩ : PyStr).encodable = s.encodable := by
    unfold PyStr.encodable
    induction s.points with
    | nil => rfl
    | cons p ps ih =>
        rw [List.flatMap_cons, List.all_append, all_escape, List.all_cons, ih]
  rw [Json.quote, PyStr.encodable_append, PyStr.encodable_append, hpoints]
  exact Bool.and_true _

/-! ## Values -/

theorem not_isSurrogate_of_isDigit {p : CodePoint} (h : IsDigit p) : p.isSurrogate = false := by
  rw [CodePoint.isSurrogate, Bool.and_eq_false_iff, decide_eq_false_iff_not]
  exact Or.inl (by have := h.2; omega)

/-- A number of the grammar is plain ASCII. -/
theorem encodable_number {t : Text} (h : IsNumber t) : (⟨t⟩ : PyStr).encodable = true := by
  have hdigits : ∀ {ds : Text}, (∀ p ∈ ds, IsDigit p) → (⟨ds⟩ : PyStr).encodable = true :=
    fun hds => List.all_eq_true.mpr fun p hp => by
      rw [not_isSurrogate_of_isDigit (hds p hp)]
      rfl
  have happend : ∀ {t t' : Text}, (⟨t⟩ : PyStr).encodable = true →
      (⟨t'⟩ : PyStr).encodable = true → (⟨t ++ t'⟩ : PyStr).encodable = true := fun h h' => by
    rw [PyStr.encodable, List.all_append, Bool.and_eq_true]
    exact ⟨h, h'⟩
  obtain ⟨hminus, hint, hfrac, hexp⟩ := h
  refine happend (happend (happend ?_ ?_) ?_) ?_
  · rcases hminus with _ | _ <;> decide
  · rcases hint with _ | ⟨hp, -, ht⟩
    · decide
    · exact hdigits fun q hq => (List.mem_cons.mp hq).elim (fun h => h ▸ hp) (ht q)
  · rcases hfrac with _ | ⟨-, hds⟩
    · rfl
    · exact happend (t := [cp '.']) (by decide) (hdigits hds)
  · rcases hexp with _ | @⟨e, sign, ds, he, hsign, -, hds⟩
    · rfl
    · refine happend (happend (t := [e]) ?_ ?_) (hdigits hds)
      · rcases he with rfl | rfl <;> decide
      · rcases hsign with rfl | rfl | rfl <;> decide

/-- What the encoder relies on: the `repr` of a finite float is a number of the grammar. -/
def ReprNumbers [PyRepr] : Prop :=
  ∀ x : PyFloat, Json.isFinite x = true → IsNumber (PyRepr.float x).points

section Write

variable [PyRepr]

theorem isNumber_floatText (hrepr : ReprNumbers) {x : PyFloat} (h : Json.isFinite x = true) :
    IsNumber (Json.floatText x).points := by
  rcases x with q | _ | neg | _
  · exact hrepr (.finite q) h
  · exact hrepr .negZero h
  · cases h
  · cases h

/-- A float that is no number is shown by a name with a capital. -/
theorem closed_floatText (hrepr : ReprNumbers) (x : PyFloat) :
    Closed (Json.floatText x).points (Json.isFinite x) := by
  have hinf : cp 'I' ∈ bare .outside (lit "Infinity") := by decide
  have hneg : cp 'I' ∈ bare .outside (lit "-Infinity") := by decide
  have hnan : cp 'N' ∈ bare .outside (lit "NaN") := by decide
  rcases x with q | _ | neg | _
  · exact closed_number (hrepr (.finite q) rfl)
  · exact closed_number (hrepr .negZero rfl)
  · rcases neg with _ | _
    · exact ⟨rfl, iff_of_true ⟨cp 'I', hinf, Or.inr rfl⟩ rfl⟩
    · exact ⟨rfl, iff_of_true ⟨cp 'I', hneg, Or.inr rfl⟩ rfl⟩
  · exact ⟨rfl, iff_of_true ⟨cp 'N', hnan, Or.inl rfl⟩ rfl⟩

theorem encodable_floatText (hrepr : ReprNumbers) (x : PyFloat) :
    (Json.floatText x).encodable = true := by
  rcases x with q | _ | neg | _
  · exact encodable_number (hrepr (.finite q) rfl)
  · exact encodable_number (hrepr .negZero rfl)
  · rcases neg with _ | _ <;> rfl
  · rfl

/-! The layout of a value is followed constructor by constructor, three times. -/

mutual

/-- A value of finite floats is written as a value of the grammar. -/
theorem isValue_dumps (hrepr : ReprNumbers) : ∀ v : Json, v.finite = true →
    IsValue (v.write Json.pythonNumerals).points
  | .null, _ => .null
  | .bool true, _ => .true
  | .bool false, _ => .false
  | .int n, _ => .number (isNumber_int n)
  | .float _, h => .number (isNumber_floatText hrepr h)
  | .str s, _ => .string (isString_quote s)
  | .arr [], _ => .emptyArray isSpace_nil
  | .arr (x :: xs), h => .array (isElements_dumps hrepr (x :: xs) (List.cons_ne_nil x xs) h)
  | .obj [], _ => .emptyObject isSpace_nil
  | .obj (e :: kvs), h => .object (isMembers_dumps hrepr (e :: kvs) (List.cons_ne_nil e kvs) h)

theorem isElements_dumps (hrepr : ReprNumbers) : ∀ xs : List Json, xs ≠ [] →
    Json.everyItem Json.isFinite (fun _ => true) xs = true →
      IsElements (PyStr.join "," (Json.writeItems Json.pythonNumerals xs)).points
  | [], hne, _ => absurd rfl hne
  | [x], _, h => by
      rw [Json.everyItem, Bool.and_eq_true] at h
      rw [Json.writeItems, Json.writeItems, PyStr.join_singleton]
      exact isElements_one (isValue_dumps hrepr x h.1)
  | x :: y :: xs, _, h => by
      rw [Json.everyItem, Bool.and_eq_true] at h
      rw [Json.writeItems, Json.writeItems, PyStr.join_cons_cons]
      exact isElements_more (isValue_dumps hrepr x h.1)
        (isElements_dumps hrepr (y :: xs) (List.cons_ne_nil y xs) h.2)

theorem isMembers_dumps (hrepr : ReprNumbers) : ∀ kvs : List (PyStr × Json), kvs ≠ [] →
    Json.everyPair Json.isFinite (fun _ => true) kvs = true →
      IsMembers (PyStr.join "," (Json.writePairs Json.pythonNumerals kvs)).points
  | [], hne, _ => absurd rfl hne
  | [(k, v)], _, h => by
      rw [Json.everyPair, Bool.true_and, Bool.and_eq_true] at h
      rw [Json.writePairs, Json.writePairs, PyStr.join_singleton]
      exact isMembers_one (isString_quote k) (isValue_dumps hrepr v h.1)
  | (k, v) :: e :: kvs, _, h => by
      rw [Json.everyPair, Bool.true_and, Bool.and_eq_true] at h
      rw [Json.writePairs, Json.writePairs, PyStr.join_cons_cons]
      exact isMembers_more (isString_quote k) (isValue_dumps hrepr v h.1)
        (isMembers_dumps hrepr (e :: kvs) (List.cons_ne_nil e kvs) h.2)

end

mutual

/-- A float that is no number leaves a capital outside of the strings. -/
theorem closed_dumps (hrepr : ReprNumbers) : ∀ v : Json,
    Closed (v.write Json.pythonNumerals).points v.finite
  | .null => closed_plain (t := lit "null") (by decide)
  | .bool true => closed_plain (t := lit "true") (by decide)
  | .bool false => closed_plain (t := lit "false") (by decide)
  | .int n => closed_number (isNumber_int n)
  | .float x => closed_floatText hrepr x
  | .str s => closed_string (isString_quote s)
  | .arr xs => by
      have hopen : Closed (lit "[") true := closed_plain (by decide)
      have hclose : Closed (lit "]") true := closed_plain (by decide)
      have hall := (hopen.append (closed_items hrepr xs)).append hclose
      rwa [Bool.true_and, Bool.and_true] at hall
  | .obj kvs => by
      have hopen : Closed (lit "\x7b") true := closed_plain (by decide)
      have hclose : Closed (lit "\x7d") true := closed_plain (by decide)
      have hall := (hopen.append (closed_pairs hrepr kvs)).append hclose
      rwa [Bool.true_and, Bool.and_true] at hall

theorem closed_items (hrepr : ReprNumbers) : ∀ xs : List Json,
    Closed (PyStr.join "," (Json.writeItems Json.pythonNumerals xs)).points
      (Json.everyItem Json.isFinite (fun _ => true) xs)
  | [] => closed_nil
  | [x] => by
      rw [Json.writeItems, Json.writeItems, PyStr.join_singleton, Json.everyItem, Json.everyItem,
        Bool.and_true]
      exact closed_dumps hrepr x
  | x :: y :: xs => by
      have hcomma : Closed (lit ",") true := closed_plain (by decide)
      have hall := ((closed_dumps hrepr x).append hcomma).append (closed_items hrepr (y :: xs))
      rw [Bool.and_true] at hall
      rw [Json.writeItems, Json.writeItems, PyStr.join_cons_cons, Json.everyItem]
      exact hall

theorem closed_pairs (hrepr : ReprNumbers) : ∀ kvs : List (PyStr × Json),
    Closed (PyStr.join "," (Json.writePairs Json.pythonNumerals kvs)).points
      (Json.everyPair Json.isFinite (fun _ => true) kvs)
  | [] => closed_nil
  | [(k, v)] => by
      have hcolon : Closed (lit ":") true := closed_plain (by decide)
      have hall := ((closed_string (isString_quote k)).then hcolon).append (closed_dumps hrepr v)
      rw [Json.writePairs, Json.writePairs, PyStr.join_singleton, Json.everyPair, Json.everyPair,
        Bool.and_true]
      exact hall
  | (k, v) :: e :: kvs => by
      have hcolon : Closed (lit ":") true := closed_plain (by decide)
      have hcomma : Closed (lit ",") true := closed_plain (by decide)
      have hall := ((((closed_string (isString_quote k)).then hcolon).append
        (closed_dumps hrepr v)).append hcomma).append (closed_pairs hrepr (e :: kvs))
      rw [Bool.true_and, Bool.and_true] at hall
      rw [Json.writePairs, Json.writePairs, PyStr.join_cons_cons, Json.everyPair, Bool.true_and]
      exact hall

end

mutual

/-- The strings of a value are written with their own code points. -/
theorem encodable_dumps (hrepr : ReprNumbers) : ∀ v : Json,
    (v.write Json.pythonNumerals).encodable = v.encodable
  | .null => rfl
  | .bool true => rfl
  | .bool false => rfl
  | .int n => encodable_number (isNumber_int n)
  | .float x => encodable_floatText hrepr x
  | .str s => encodable_quote s
  | .arr xs => by
      rw [Json.write, PyStr.encodable_append, PyStr.encodable_append, encodable_items hrepr xs]
      exact Bool.and_true _
  | .obj kvs => by
      rw [Json.write, PyStr.encodable_append, PyStr.encodable_append, encodable_pairs hrepr kvs]
      exact Bool.and_true _

theorem encodable_items (hrepr : ReprNumbers) : ∀ xs : List Json,
    (PyStr.join "," (Json.writeItems Json.pythonNumerals xs)).encodable =
      Json.everyItem (fun _ => true) PyStr.encodable xs
  | [] => rfl
  | [x] => by
      rw [Json.writeItems, Json.writeItems, PyStr.join_singleton, encodable_dumps hrepr x]
      exact (Bool.and_true _).symm
  | x :: y :: xs => by
      have hrest := encodable_items hrepr (y :: xs)
      rw [Json.writeItems] at hrest
      rw [Json.writeItems, Json.writeItems, PyStr.join_cons_cons, PyStr.encodable_append,
        PyStr.encodable_append, encodable_dumps hrepr x, hrest, Json.everyItem]
      exact congrArg (· && _) (Bool.and_true _)

theorem encodable_pairs (hrepr : ReprNumbers) : ∀ kvs : List (PyStr × Json),
    (PyStr.join "," (Json.writePairs Json.pythonNumerals kvs)).encodable =
      Json.everyPair (fun _ => true) PyStr.encodable kvs
  | [] => rfl
  | [(k, v)] => by
      rw [Json.writePairs, Json.writePairs, PyStr.join_singleton, PyStr.encodable_append,
        PyStr.encodable_append, encodable_quote, encodable_dumps hrepr v, Json.everyPair,
        Json.everyPair, Bool.and_true]
      exact congrArg (· && _) (Bool.and_true _)
  | (k, v) :: (k', v') :: kvs => by
      have hrest := encodable_pairs hrepr ((k', v') :: kvs)
      rw [Json.writePairs] at hrest
      rw [Json.writePairs, Json.writePairs, PyStr.join_cons_cons, PyStr.encodable_append,
        PyStr.encodable_append, PyStr.encodable_append, PyStr.encodable_append, encodable_quote,
        encodable_dumps hrepr v, hrest]
      have hcolon : PyStr.encodable ":" = true := rfl
      have hcomma : PyStr.encodable "," = true := rfl
      rw [hcolon, hcomma, Bool.and_true, Bool.and_true]
      rfl

end

/-- **A value is written as a well-formed text that can be encoded exactly when it is clean.** -/
theorem clean_iff (hrepr : ReprNumbers) (v : Json) :
    IsText (Json.dumps v).points ∧ (Json.dumps v).encodable = true ↔ v.clean = true := by
  rw [Json.clean_eq, Bool.and_eq_true]
  refine and_congr ⟨fun h => ?_, fun h => ?_⟩ (by rw [Json.dumps, encodable_dumps hrepr])
  · by_contra hfinite
    rw [Bool.not_eq_true] at hfinite
    have hcapital := (closed_dumps hrepr v).bare.mpr hfinite
    exact absurd ((closed_text h).bare.mp hcapital) (by decide)
  · have htext := IsText.mk isSpace_nil (isValue_dumps hrepr v h) isSpace_nil
    rwa [List.nil_append, List.append_nil] at htext

end Write

end Lumencast
