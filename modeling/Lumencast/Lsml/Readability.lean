import Lumencast.Lsml.Rendering
import Lumencast.Machinery.Readable

/-!
# Lsml/Readability — a value can be told from its text

Compact JSON text is read back in one way: a value begins with a mark of its kind, a string ends at
the first quote that is not escaped, and a number at the first comma or bracket.  What remains to be
asked of the numerals is that they are numeric and tell the numbers apart (`Numerals.Tells`).
-/

namespace Lumencast

open Machinery Grammar

/-! ## Strings

Each escape begins with a backslash and no character that is not escaped does.  So a string can
be read from the left, one code point at a time. -/

/-- The number a hexadecimal digit stands for. -/
def hexValue (p : CodePoint) : ℕ := if p.val < 0x3A then p.val - 0x30 else p.val - 0x57

theorem hexValue_hexDigit : ∀ n < 16, hexValue (Json.hexDigit n) = n := by decide

/-- The code point an escape stands for, by the letter behind its backslash. -/
def unescapeLetter (q : CodePoint) : CodePoint :=
  if q = cp 'n' then cp '\n'
  else if q = cp 'r' then cp '\r'
  else if q = cp 't' then cp '\t'
  else if q = cp 'f' then 0x0C
  else if q = cp 'b' then 0x08
  else q

/-- The first code point of a string that is being read, and the rest of it. -/
def unescape : Text → Option (CodePoint × Text)
  | [] => none
  | p :: t =>
      if p ≠ cp '\\' then some (p, t)
      else
        match t with
        | [] => none
        | q :: t =>
            if q ≠ cp 'u' then some (unescapeLetter q, t)
            else
              match t with
              | _ :: _ :: a :: b :: t => some (Fin.ofNat _ (16 * hexValue a + hexValue b), t)
              | _ => none

theorem unescape_escape (p : CodePoint) (t : Text) :
    unescape (Json.escape p ++ t) = some (p, t) := by
  unfold Json.escape
  split_ifs with hquote hback hn hr ht hf hb hcontrol
  · rw [hquote]; rfl
  · rw [hback]; rfl
  · rw [hn]; rfl
  · rw [hr]; rfl
  · rw [ht]; rfl
  · have hp : p = 0x0C := Fin.ext hf
    rw [hp]; rfl
  · have hp : p = 0x08 := Fin.ext hb
    rw [hp]; rfl
  · have hhigh := hexValue_hexDigit (p.val / 16) (by omega)
    have hlow := hexValue_hexDigit (p.val % 16) (by omega)
    have hp : (Fin.ofNat 0x110000 (16 * hexValue (Json.hexDigit (p.val / 16))
        + hexValue (Json.hexDigit (p.val % 16)))) = p := by
      rw [hhigh, hlow, Nat.div_add_mod]
      exact Fin.ofNat_val_eq_self p
    exact congrArg (fun q => some (q, t)) hp
  · exact if_pos hback

theorem escape_head (p : CodePoint) : ∃ q t, Json.escape p = q :: t ∧ q ≠ cp '"' := by
  have hback : cp '\\' ≠ cp '"' := by decide
  unfold Json.escape
  split_ifs with hquote
  case neg => exact ⟨p, [], rfl, hquote⟩
  all_goals exact ⟨cp '\\', _, rfl, hback⟩

theorem escapes_inj : ∀ {ps ps' : Text} {r r' : Text},
    ps.flatMap Json.escape ++ cp '"' :: r = ps'.flatMap Json.escape ++ cp '"' :: r' →
      ps = ps' ∧ r = r'
  | [], [], _, _, h => ⟨rfl, (List.cons.inj h).2⟩
  | [], p :: ps', _, _, h => by
      obtain ⟨q, t, heq, hq⟩ := escape_head p
      rw [List.flatMap_cons, heq] at h
      exact absurd (List.cons.inj h).1.symm hq
  | p :: ps, [], _, _, h => by
      obtain ⟨q, t, heq, hq⟩ := escape_head p
      rw [List.flatMap_cons, heq] at h
      exact absurd (List.cons.inj h).1 hq
  | p :: ps, p' :: ps', _, _, h => by
      rw [List.flatMap_cons, List.flatMap_cons, List.append_assoc, List.append_assoc] at h
      have hread := congrArg unescape h
      rw [unescape_escape, unescape_escape, Option.some.injEq, Prod.mk.injEq] at hread
      obtain ⟨rfl, hrest⟩ := hread
      obtain ⟨rfl, rfl⟩ := escapes_inj hrest
      exact ⟨rfl, rfl⟩

/-- A string is told from its text, whatever follows. -/
theorem quote_inj {s s' : PyStr} {r r' : Text}
    (h : (Json.quote s).points ++ r = (Json.quote s').points ++ r') : s = s' ∧ r = r' := by
  have hshape : ∀ (s : PyStr) (r : Text), (Json.quote s).points ++ r
      = cp '"' :: (s.points.flatMap Json.escape ++ cp '"' :: r) := fun s r => by
    simp only [Json.quote, PyStr.points_append, List.append_assoc]
    rfl
  rw [hshape, hshape] at h
  obtain ⟨hpoints, hr⟩ := escapes_inj (List.cons.inj h).2
  exact ⟨PyStr.ext hpoints, hr⟩

/-! ## Marks -/

namespace Json

/-- The kinds of values, in the order of their first letters below; truth values are two. -/
def kind : Json → ℕ
  | .null => 0
  | .bool true => 1
  | .bool false => 2
  | .int _ => 3
  | .float _ => 3
  | .str _ => 4
  | .arr _ => 5
  | .obj _ => 6

section FloatsIn

variable (P : PyFloat → Prop)

mutual

/-- A value whose numbers are floats in `P`. -/
def FloatsIn : Json → Prop
  | .int _ => False
  | .float x => P x
  | .arr xs => ItemsIn xs
  | .obj kvs => PairsIn kvs
  | _ => True

def ItemsIn : List Json → Prop
  | [] => True
  | x :: xs => FloatsIn x ∧ ItemsIn xs

def PairsIn : List (PyStr × Json) → Prop
  | [] => True
  | (_, v) :: kvs => FloatsIn v ∧ PairsIn kvs

end

variable {P}

theorem itemsIn_iff {xs : List Json} : ItemsIn P xs ↔ ∀ x ∈ xs, FloatsIn P x := by
  induction xs with
  | nil => exact iff_of_true trivial (List.forall_mem_nil _)
  | cons x xs ih => rw [ItemsIn, List.forall_mem_cons, ih]

theorem pairsIn_iff {kvs : List (PyStr × Json)} : PairsIn P kvs ↔ ∀ e ∈ kvs, FloatsIn P e.2 := by
  induction kvs with
  | nil => exact iff_of_true trivial (List.forall_mem_nil _)
  | cons e kvs ih =>
      obtain ⟨k, v⟩ := e
      rw [PairsIn, List.forall_mem_cons, ih]

end FloatsIn

/-- A member of an object, as it is written. -/
def writeMember (numerals : Numerals) (e : PyStr × Json) : PyStr :=
  quote e.1 ++ ":" ++ e.2.write numerals

theorem writeItems_eq_map (numerals : Numerals) (xs : List Json) :
    writeItems numerals xs = xs.map (write numerals) := by
  induction xs with
  | nil => rfl
  | cons x xs ih => exact congrArg (x.write numerals :: ·) ih

theorem writePairs_eq_map (numerals : Numerals) (kvs : List (PyStr × Json)) :
    writePairs numerals kvs = kvs.map (writeMember numerals) := by
  induction kvs with
  | nil => rfl
  | cons e kvs ih => exact congrArg (writeMember numerals e :: ·) ih

end Json

/-- The kind a letter marks; anything else begins a number. -/
def markedKind (p : CodePoint) : ℕ :=
  if p = cp 'n' then 0
  else if p = cp 't' then 1
  else if p = cp 'f' then 2
  else if p = cp '"' then 4
  else if p = cp '[' then 5
  else if p = cp '\x7b' then 6
  else 3

/-- What ends a value. -/
def IsStop (p : CodePoint) : Prop := p ∈ lit ",]\x7d"

instance : DecidablePred IsStop := fun p => inferInstanceAs (Decidable (p ∈ _))

theorem not_isStop_of_isNumeric {p : CodePoint} (h : IsNumeric p) : ¬ IsStop p := by
  intro hstop
  have hcases : p = cp ',' ∨ p = cp ']' ∨ p = cp '\x7d' := by
    simpa [IsStop, lit, PyStr.ofString] using hstop
  rcases hcases with rfl | rfl | rfl <;> exact absurd h (by unfold IsNumeric; decide)

/-- Numerals that are numeric and tell the floats in `P` apart. -/
structure Json.Numerals.Tells (numerals : Json.Numerals) (P : PyFloat → Prop) : Prop where
  head : ∀ x, P x → ∃ p t, (numerals.float x).points = p :: t ∧ (IsDigit p ∨ p = cp '-')
  numeric : ∀ x, P x → ∀ p ∈ (numerals.float x).points, IsNumeric p
  inj : ∀ x y, P x → P y → numerals.float x = numerals.float y → x = y

theorem markedKind_number {p : CodePoint} (h : IsDigit p ∨ p = cp '-') : markedKind p = 3 := by
  have hne : ∀ {q : CodePoint}, ¬ (IsDigit q ∨ q = cp '-') → p ≠ q := fun hq heq => hq (heq ▸ h)
  rw [markedKind, if_neg (hne (by decide)), if_neg (hne (by decide)), if_neg (hne (by decide)),
    if_neg (hne (by decide)), if_neg (hne (by decide)), if_neg (hne (by decide))]

section Tells

variable {numerals : Json.Numerals} {P : PyFloat → Prop} (htells : numerals.Tells P)
include htells

/-- A value begins with the mark of its kind, which ends nothing. -/
theorem head_write {v : Json} (hv : v.FloatsIn P) :
    ∃ p t, (v.write numerals).points = p :: t ∧ markedKind p = v.kind ∧ ¬ IsStop p := by
  rcases v with _ | b | n | x | s | xs | kvs
  · exact ⟨cp 'n', lit "ull", rfl, rfl, by decide⟩
  · rcases b with _ | _
    · exact ⟨cp 'f', lit "alse", rfl, rfl, by decide⟩
    · exact ⟨cp 't', lit "rue", rfl, rfl, by decide⟩
  · exact hv.elim
  · obtain ⟨p, t, heq, hp⟩ := htells.head x hv
    have hmem : p ∈ (numerals.float x).points := heq ▸ List.mem_cons_self
    exact ⟨p, t, heq, markedKind_number hp, not_isStop_of_isNumeric (htells.numeric x hv p hmem)⟩
  · exact ⟨cp '"', _, rfl, rfl, by decide⟩
  · exact ⟨cp '[', _, rfl, rfl, by decide⟩
  · exact ⟨cp '\x7b', _, rfl, rfl, by decide⟩

/-- Values with the same text are of the same kind. -/
theorem kind_eq {v w : Json} (hv : v.FloatsIn P) (hw : w.FloatsIn P) {r r' : Text}
    (h : (v.write numerals).points ++ r = (w.write numerals).points ++ r') : v.kind = w.kind := by
  obtain ⟨p, t, hp, hkind, -⟩ := head_write htells hv
  obtain ⟨p', t', hp', hkind', -⟩ := head_write htells hw
  rw [hp, hp'] at h
  rw [← hkind, ← hkind', (List.cons.inj h).1]

end Tells

/-! ## Values -/

theorem join_listed {α : Type} (text : α → PyStr) (close : Text) : ∀ as : List α,
    (PyStr.join "," (as.map text)).points ++ close
      = listed (fun a => (text a).points) (cp ',') close as
  | [] => rfl
  | [a] => by
      rw [List.map_singleton, PyStr.join_singleton]
      rfl
  | a :: b :: as => by
      have htail := join_listed text close (b :: as)
      rw [List.map_cons] at htail
      rw [List.map_cons, List.map_cons, PyStr.join_cons_cons, PyStr.points_append,
        PyStr.points_append, List.append_assoc, List.append_assoc, htail]
      rfl

namespace Json

variable {numerals : Numerals} {P : PyFloat → Prop}

/-- What is claimed of a value. -/
abbrev ReadsBack (numerals : Numerals) (P : PyFloat → Prop) (v : Json) : Prop :=
  Readable IsStop (fun v : Json => (v.write numerals).points) (FloatsIn P) v

/-- The same of a member of an object. -/
abbrev MemberReadsBack (numerals : Numerals) (P : PyFloat → Prop) (e : PyStr × Json) : Prop :=
  Readable IsStop (fun e => (writeMember numerals e).points) (fun e => FloatsIn P e.2) e

theorem memberReadsBack {e : PyStr × Json} (h : ReadsBack numerals P e.2) :
    MemberReadsBack numerals P e := by
  have hshape : ∀ (e : PyStr × Json) (r : Text), (writeMember numerals e).points ++ r
      = (quote e.1).points ++ cp ':' :: ((e.2.write numerals).points ++ r) := fun e r => by
    simp only [writeMember, PyStr.points_append, List.append_assoc]
    rfl
  intro e' he' r r' hr hr' heq
  dsimp only at heq
  rw [hshape, hshape] at heq
  obtain ⟨hkey, hrest⟩ := quote_inj heq
  obtain ⟨hval, rfl⟩ := h e'.2 he' r r' hr hr' (List.cons.inj hrest).2
  exact ⟨Prod.ext hkey hval, rfl⟩

theorem arr_shape (xs : List Json) (r : Text) : ((arr xs).write numerals).points ++ r
    = cp '[' :: listed (fun v : Json => (v.write numerals).points) (cp ',') (cp ']' :: r) xs := by
  rw [← join_listed, write, writeItems_eq_map, PyStr.points_append, PyStr.points_append,
    List.append_assoc, List.append_assoc]
  rfl

theorem obj_shape (kvs : List (PyStr × Json)) (r : Text) : ((obj kvs).write numerals).points ++ r
    = cp '\x7b' ::
      listed (fun e => (writeMember numerals e).points) (cp ',') (cp '\x7d' :: r) kvs := by
  rw [← join_listed, write, writePairs_eq_map, PyStr.points_append, PyStr.points_append,
    List.append_assoc, List.append_assoc]
  rfl

theorem number_inj (htells : numerals.Tells P) {x y : PyFloat} (hx : P x) (hy : P y)
    {r r' : Text} (hr : Stops IsStop r) (hr' : Stops IsStop r')
    (h : (numerals.float x).points ++ r = (numerals.float y).points ++ r') : x = y ∧ r = r' := by
  obtain ⟨htext, hrest⟩ := token_inj
    (fun p hp => not_isStop_of_isNumeric (htells.numeric x hx p hp))
    (fun p hp => not_isStop_of_isNumeric (htells.numeric y hy p hp)) hr hr' h
  exact ⟨htells.inj x y hx hy (PyStr.ext htext), hrest⟩

/-! The induction is on the value whose text is read; the partner is of the same kind. -/

mutual

theorem readsBack (htells : numerals.Tells P) : ∀ v : Json, v.FloatsIn P → ReadsBack numerals P v
  | .null, hv, w, hw, r, r', _, _, h => by
      have hkind := kind_eq htells hv hw h
      rcases w with _ | (_ | _) | n | y | s | ys | kvs' <;> cases hkind
      exact ⟨rfl, List.append_cancel_left h⟩
  | .bool b, hv, w, hw, r, r', _, _, h => by
      have hkind := kind_eq htells hv hw h
      rcases b with _ | _ <;>
        rcases w with _ | (_ | _) | n | y | s | ys | kvs' <;> cases hkind
      all_goals exact ⟨rfl, List.append_cancel_left h⟩
  | .int _, hv, _, _, _, _, _, _, _ => hv.elim
  | .float x, hv, w, hw, r, r', hr, hr', h => by
      have hkind := kind_eq htells hv hw h
      rcases w with _ | (_ | _) | n | y | s | ys | kvs' <;> cases hkind
      · exact hw.elim
      · obtain ⟨hxy, hrest⟩ := number_inj htells hv hw hr hr' h
        exact ⟨congrArg float hxy, hrest⟩
  | .str s, hv, w, hw, r, r', _, _, h => by
      have hkind := kind_eq htells hv hw h
      rcases w with _ | (_ | _) | n | y | s' | ys | kvs' <;> cases hkind
      obtain ⟨hs, hrest⟩ := quote_inj h
      exact ⟨congrArg str hs, hrest⟩
  | .arr xs, hv, w, hw, r, r', _, _, h => by
      have hkind := kind_eq htells hv hw h
      rcases w with _ | (_ | _) | n | y | s | ys | kvs' <;> cases hkind
      dsimp only at h
      rw [arr_shape, arr_shape] at h
      obtain ⟨heq, hrest⟩ := listed_inj (by decide) (by decide) (by decide) (fun v hv => by
          obtain ⟨p, t, hp, -, hstop⟩ := head_write htells hv
          exact ⟨p, t, hp, fun heq => hstop (heq ▸ by decide)⟩)
        (readsBackItems htells xs hv) (itemsIn_iff.mp hv) (itemsIn_iff.mp hw) (List.cons.inj h).2
      exact ⟨congrArg arr heq, hrest⟩
  | .obj kvs, hv, w, hw, r, r', _, _, h => by
      have hkind := kind_eq htells hv hw h
      rcases w with _ | (_ | _) | n | y | s | ys | kvs' <;> cases hkind
      dsimp only at h
      rw [obj_shape, obj_shape] at h
      obtain ⟨heq, hrest⟩ := listed_inj (by decide) (by decide) (by decide)
        (fun e _ => ⟨cp '"', _, rfl, by decide⟩) (readsBackPairs htells kvs hv) (pairsIn_iff.mp hv)
        (pairsIn_iff.mp hw) (List.cons.inj h).2
      exact ⟨congrArg obj heq, hrest⟩

theorem readsBackItems (htells : numerals.Tells P) : ∀ xs : List Json, ItemsIn P xs →
    ∀ x ∈ xs, ReadsBack numerals P x
  | [], _, _, hmem => nomatch hmem
  | x :: xs, h, y, hmem => by
      rcases List.mem_cons.mp hmem with heq | hmem
      · rw [heq]
        exact readsBack htells x h.1
      · exact readsBackItems htells xs h.2 y hmem

theorem readsBackPairs (htells : numerals.Tells P) : ∀ kvs : List (PyStr × Json),
    PairsIn P kvs → ∀ e ∈ kvs, MemberReadsBack numerals P e
  | [], _, _, hmem => nomatch hmem
  | (k, v) :: kvs, h, e, hmem => by
      rcases List.mem_cons.mp hmem with heq | hmem
      · rw [heq]
        exact memberReadsBack (readsBack htells v h.1)
      · exact readsBackPairs htells kvs h.2 e hmem

end

/-- **Compact JSON text is read back in one way.** -/
theorem write_inj (htells : numerals.Tells P) {v w : Json} (hv : v.FloatsIn P)
    (hw : w.FloatsIn P) (h : v.write numerals = w.write numerals) : v = w :=
  (readsBack htells v hv w hw [] [] stops_nil stops_nil
    (congrArg (·.points ++ []) h)).1

end Json

end Lumencast
