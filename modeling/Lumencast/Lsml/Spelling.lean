import Lumencast.Lsml.Readability

/-!
# Lsml/Spelling — one value in two kinds of numerals

Two serialisers that differ in the numerals only write the same of a value exactly when they show
each of its numbers alike (`write_eq_iff`): a number ends where its numeral does, so that no number
can make up for another.  How many quotes are written does not depend on the numerals at all.
-/

namespace Lumencast

open Machinery Grammar

namespace Json

/-! ## The numbers of a value

A predicate on numbers, lifted to values.  What is asked of two serializers is asked number by
number. -/

section Numbers

variable (P : Json → Prop)

mutual

/-- `P` holds of every number of a value. -/
def Numbers : Json → Prop
  | .int n => P (.int n)
  | .float x => P (.float x)
  | .arr xs => NumbersItems xs
  | .obj kvs => NumbersPairs kvs
  | _ => True

def NumbersItems : List Json → Prop
  | [] => True
  | x :: xs => Numbers x ∧ NumbersItems xs

def NumbersPairs : List (PyStr × Json) → Prop
  | [] => True
  | (_, v) :: kvs => Numbers v ∧ NumbersPairs kvs

end

variable {P}

theorem numbersItems_iff {xs : List Json} : NumbersItems P xs ↔ ∀ x ∈ xs, Numbers P x := by
  induction xs with
  | nil => exact iff_of_true trivial (List.forall_mem_nil _)
  | cons x xs ih => rw [NumbersItems, List.forall_mem_cons, ih]

theorem numbersPairs_iff {kvs : List (PyStr × Json)} :
    NumbersPairs P kvs ↔ ∀ e ∈ kvs, Numbers P e.2 := by
  induction kvs with
  | nil => exact iff_of_true trivial (List.forall_mem_nil _)
  | cons e kvs ih =>
      obtain ⟨k, v⟩ := e
      rw [NumbersPairs, List.forall_mem_cons, ih]

variable {Q R : Json → Prop}

mutual

/-- Properties that agree on the numbers of a value. -/
theorem numbers_congr (h : ∀ w, R w → (P w ↔ Q w)) : ∀ v : Json, v.Numbers R →
    (v.Numbers P ↔ v.Numbers Q)
  | .null, _ => Iff.rfl
  | .bool _, _ => Iff.rfl
  | .int n, hv => h (.int n) hv
  | .float x, hv => h (.float x) hv
  | .str _, _ => Iff.rfl
  | .arr xs, hv => numbersItems_congr h xs hv
  | .obj kvs, hv => numbersPairs_congr h kvs hv

theorem numbersItems_congr (h : ∀ w, R w → (P w ↔ Q w)) : ∀ xs : List Json, NumbersItems R xs →
    (NumbersItems P xs ↔ NumbersItems Q xs)
  | [], _ => Iff.rfl
  | x :: xs, hxs => and_congr (numbers_congr h x hxs.1) (numbersItems_congr h xs hxs.2)

theorem numbersPairs_congr (h : ∀ w, R w → (P w ↔ Q w)) : ∀ kvs : List (PyStr × Json),
    NumbersPairs R kvs → (NumbersPairs P kvs ↔ NumbersPairs Q kvs)
  | [], _ => Iff.rfl
  | (_, v) :: kvs, hkvs => and_congr (numbers_congr h v hkvs.1) (numbersPairs_congr h kvs hkvs.2)

end

theorem Numbers.imp (h : ∀ w, P w → Q w) {v : Json} (hv : v.Numbers P) : v.Numbers Q :=
  (numbers_congr (fun w hw => iff_of_true hw (h w hw)) v hv).mp hv

end Numbers

/-! ## Two kinds of numerals -/

section Spelling

variable (numerals numerals' : Numerals)

/-- Both numerals of a number are numeric throughout. -/
def BothNumeric (w : Json) : Prop :=
  (∀ p ∈ (w.write numerals).points, IsNumeric p) ∧ ∀ p ∈ (w.write numerals').points, IsNumeric p

/-- A number is shown alike. -/
def ShownAlike (w : Json) : Prop := w.write numerals = w.write numerals'

variable {numerals numerals'}

/-- What is claimed of a value. -/
abbrev Alike (numerals numerals' : Numerals) (v : Json) : Prop :=
  SpelledAlike IsStop (fun v : Json => (v.write numerals).points)
    (fun v => (v.write numerals').points) (Numbers (ShownAlike numerals numerals')) v

theorem alike_number {w : Json} (hw : BothNumeric numerals numerals' w) {r r' : Text}
    (hr : Stops IsStop r) (hr' : Stops IsStop r')
    (h : (w.write numerals).points ++ r = (w.write numerals').points ++ r') :
    ShownAlike numerals numerals' w ∧ r = r' := by
  obtain ⟨htext, hrest⟩ := token_inj (fun p hp => not_isStop_of_isNumeric (hw.1 p hp))
    (fun p hp => not_isStop_of_isNumeric (hw.2 p hp)) hr hr' h
  exact ⟨PyStr.ext htext, hrest⟩

theorem alike_member {e : PyStr × Json} (h : Alike numerals numerals' e.2) :
    SpelledAlike IsStop (fun e => (writeMember numerals e).points)
      (fun e => (writeMember numerals' e).points)
      (fun e => Numbers (ShownAlike numerals numerals') e.2) e := by
  intro r r' hr hr' heq
  simp only [writeMember, PyStr.points_append, List.append_assoc, List.append_cancel_left_eq]
    at heq
  exact h r r' hr hr' heq

mutual

theorem alike : ∀ v : Json, v.Numbers (BothNumeric numerals numerals') → Alike numerals numerals' v
  | .null, _, _, _, _, _, h => ⟨trivial, List.append_cancel_left h⟩
  | .bool true, _, _, _, _, _, h => ⟨trivial, List.append_cancel_left h⟩
  | .bool false, _, _, _, _, _, h => ⟨trivial, List.append_cancel_left h⟩
  | .int _, hv, _, _, hr, hr', h => alike_number hv hr hr' h
  | .float _, hv, _, _, hr, hr', h => alike_number hv hr hr' h
  | .str _, _, _, _, _, _, h => ⟨trivial, List.append_cancel_left h⟩
  | .arr xs, hv, r, r', _, _, h => by
      dsimp only at h
      rw [arr_shape, arr_shape] at h
      obtain ⟨hxs, hrest⟩ := listed_alike (by decide) (stops_cons.mpr (by decide))
        (stops_cons.mpr (by decide)) (alikeItems xs hv) (List.cons.inj h).2
      exact ⟨numbersItems_iff.mpr hxs, (List.cons.inj hrest).2⟩
  | .obj kvs, hv, r, r', _, _, h => by
      dsimp only at h
      rw [obj_shape, obj_shape] at h
      obtain ⟨hkvs, hrest⟩ := listed_alike (by decide) (stops_cons.mpr (by decide))
        (stops_cons.mpr (by decide)) (fun e he => alike_member (alikePairs kvs hv e he))
        (List.cons.inj h).2
      exact ⟨numbersPairs_iff.mpr hkvs, (List.cons.inj hrest).2⟩

theorem alikeItems : ∀ xs : List Json, NumbersItems (BothNumeric numerals numerals') xs →
    ∀ x ∈ xs, Alike numerals numerals' x
  | [], _, _, hmem => nomatch hmem
  | x :: xs, h, y, hmem => by
      rcases List.mem_cons.mp hmem with heq | hmem
      · rw [heq]
        exact alike x h.1
      · exact alikeItems xs h.2 y hmem

theorem alikePairs : ∀ kvs : List (PyStr × Json),
    NumbersPairs (BothNumeric numerals numerals') kvs → ∀ e ∈ kvs, Alike numerals numerals' e.2
  | [], _, _, hmem => nomatch hmem
  | (k, v) :: kvs, h, e, hmem => by
      rcases List.mem_cons.mp hmem with heq | hmem
      · rw [heq]
        exact alike v h.1
      · exact alikePairs kvs h.2 e hmem

end

mutual

/-- Numbers that are shown alike make texts that are alike. -/
theorem write_congr : ∀ v : Json, v.Numbers (ShownAlike numerals numerals') →
    v.write numerals = v.write numerals'
  | .null, _ => rfl
  | .bool true, _ => rfl
  | .bool false, _ => rfl
  | .int _, h => h
  | .float _, h => h
  | .str _, _ => rfl
  | .arr xs, h => by rw [write, writeItems_congr xs h, write]
  | .obj kvs, h => by rw [write, writePairs_congr kvs h, write]

theorem writeItems_congr : ∀ xs : List Json, NumbersItems (ShownAlike numerals numerals') xs →
    writeItems numerals xs = writeItems numerals' xs
  | [], _ => rfl
  | x :: xs, h => by
      rw [writeItems, write_congr x h.1, writeItems_congr xs h.2, writeItems]

theorem writePairs_congr : ∀ kvs : List (PyStr × Json),
    NumbersPairs (ShownAlike numerals numerals') kvs →
      writePairs numerals kvs = writePairs numerals' kvs
  | [], _ => rfl
  | (k, v) :: kvs, h => by
      rw [writePairs, write_congr v h.1, writePairs_congr kvs h.2, writePairs]

end

/-- **Two serialisers write the same exactly when they show every number alike.** -/
theorem write_eq_iff {v : Json} (hv : v.Numbers (BothNumeric numerals numerals')) :
    v.write numerals = v.write numerals' ↔ v.Numbers (ShownAlike numerals numerals') :=
  ⟨fun h => (alike v hv [] [] stops_nil stops_nil (congrArg (·.points ++ []) h)).1,
    write_congr v⟩

end Spelling

/-! ## Quotes

Counting quotes tells texts apart without reading them: strings and keys have them, and numerals
do not. -/

/-- How many quotes a text has. -/
def quotes (s : PyStr) : ℕ := s.points.count (cp '"')

@[simp] theorem quotes_append (s t : PyStr) : quotes (s ++ t) = quotes s + quotes t :=
  List.count_append

theorem quotes_join : ∀ parts : List PyStr,
    quotes (PyStr.join "," parts) = (parts.map quotes).sum
  | [] => rfl
  | [s] => by
      rw [PyStr.join_singleton]
      rfl
  | s :: t :: parts => by
      have hcomma : quotes "," = 0 := by decide
      rw [PyStr.join_cons_cons, quotes_append, quotes_append, quotes_join (t :: parts), hcomma,
        add_zero]
      simp only [List.map_cons, List.sum_cons]

theorem quotes_quote_pos (s : PyStr) : 0 < quotes (quote s) := by
  rw [quote, quotes_append, quotes_append]
  have hquote : quotes "\"" = 1 := by decide
  omega

theorem quotes_obj (numerals : Numerals) (kvs : List (PyStr × Json)) :
    quotes ((obj kvs).write numerals) = (kvs.map fun e => quotes (writeMember numerals e)).sum := by
  have hbrace : quotes "\x7b" = 0 ∧ quotes "\x7d" = 0 := by decide
  rw [write, writePairs_eq_map, quotes_append, quotes_append, hbrace.1, hbrace.2, quotes_join,
    List.map_map, zero_add, add_zero]
  rfl

theorem quotes_arr (numerals : Numerals) (xs : List Json) :
    quotes ((arr xs).write numerals) = (xs.map fun x => quotes (x.write numerals)).sum := by
  have hbracket : quotes "[" = 0 ∧ quotes "]" = 0 := by decide
  rw [write, writeItems_eq_map, quotes_append, quotes_append, hbracket.1, hbracket.2, quotes_join,
    List.map_map, zero_add, add_zero]
  rfl

theorem quotes_number {numerals numerals' : Numerals} {w : Json}
    (hw : BothNumeric numerals numerals' w) :
    quotes (w.write numerals) = quotes (w.write numerals') := by
  have hnone : ¬ IsNumeric (cp '"') := by
    unfold IsNumeric
    decide
  have hzero : ∀ {s : PyStr}, (∀ p ∈ s.points, IsNumeric p) → quotes s = 0 := fun h =>
    List.count_eq_zero.mpr fun hmem => hnone (h _ hmem)
  rw [hzero hw.1, hzero hw.2]

mutual

/-- **How many quotes are written** does not depend on the numerals. -/
theorem quotes_write {numerals numerals' : Numerals} : ∀ v : Json,
    v.Numbers (BothNumeric numerals numerals') →
      quotes (v.write numerals) = quotes (v.write numerals')
  | .null, _ => rfl
  | .bool true, _ => rfl
  | .bool false, _ => rfl
  | .int _, h => quotes_number h
  | .float _, h => quotes_number h
  | .str _, _ => rfl
  | .arr xs, h => by
      rw [quotes_arr, quotes_arr, List.map_congr_left (quotes_items xs h)]
  | .obj kvs, h => by
      rw [quotes_obj, quotes_obj, List.map_congr_left (quotes_pairs kvs h)]

theorem quotes_items {numerals numerals' : Numerals} : ∀ xs : List Json,
    NumbersItems (BothNumeric numerals numerals') xs →
      ∀ x ∈ xs, quotes (x.write numerals) = quotes (x.write numerals')
  | [], _, _, hmem => nomatch hmem
  | x :: xs, h, y, hmem => by
      rcases List.mem_cons.mp hmem with heq | hmem
      · rw [heq]
        exact quotes_write x h.1
      · exact quotes_items xs h.2 y hmem

theorem quotes_pairs {numerals numerals' : Numerals} : ∀ kvs : List (PyStr × Json),
    NumbersPairs (BothNumeric numerals numerals') kvs →
      ∀ e ∈ kvs, quotes (writeMember numerals e) = quotes (writeMember numerals' e)
  | [], _, _, hmem => nomatch hmem
  | (k, v) :: kvs, h, e, hmem => by
      rcases List.mem_cons.mp hmem with heq | hmem
      · subst heq
        rw [writeMember, writeMember, quotes_append, quotes_append (quote k ++ ":"),
          quotes_write v h.1]
      · exact quotes_pairs kvs h.2 e hmem

end

end Json

end Lumencast
