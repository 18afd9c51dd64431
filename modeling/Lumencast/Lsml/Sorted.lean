import Lumencast.Lsml.Hash
import Lumencast.Lsml.Spelling
import Lumencast.Machinery.Outcome

/-!
# Lsml/Sorted — two serialisers on one value

`json.dumps` with `sort_keys` writes a value with the keys of every object in order (`sortedKeys`),
and so does `canonicalise`, whatever the order it is given (`canonicalise_sortedKeys`): they differ
in the numerals only (`canonicalise_eq_ok`).
-/

namespace Lumencast

open Machinery Grammar

namespace Json

/-! ## Objects in the order of their keys

Sorting a value is a function on values, so the text of one is the layout of the other. -/

mutual

/-- A value with the keys of every object in order. -/
def sortedKeys : Json → Json
  | .arr xs => .arr (sortedItems xs)
  | .obj kvs => .obj (sortByKey (sortedPairs kvs))
  | v => v

def sortedItems : List Json → List Json
  | [] => []
  | x :: xs => sortedKeys x :: sortedItems xs

def sortedPairs : List (PyStr × Json) → List (PyStr × Json)
  | [] => []
  | (k, v) :: kvs => (k, sortedKeys v) :: sortedPairs kvs

end

/-- `json.dumps(v, sort_keys=True, separators=(",", ":"), ensure_ascii=False)`. -/
def dumpsSorted [PyRepr] (v : Json) : PyStr := v.sortedKeys.write pythonNumerals

theorem sortedPairs_eq_map (kvs : List (PyStr × Json)) :
    sortedPairs kvs = kvs.map fun e => (e.1, e.2.sortedKeys) := by
  induction kvs with
  | nil => rfl
  | cons e kvs ih => exact congrArg ((e.1, sortedKeys e.2) :: ·) ih

theorem sortedPairs_sortByKey (kvs : List (PyStr × Json)) :
    sortedPairs (sortByKey kvs) = sortByKey (sortedPairs kvs) := by
  rw [sortedPairs_eq_map, sortedPairs_eq_map, map_sortByKey]

theorem keys_sortedPairs (kvs : List (PyStr × Json)) :
    (sortedPairs kvs).map Prod.fst = kvs.map Prod.fst := by
  rw [sortedPairs_eq_map, List.map_map]
  rfl

mutual

/-- Keys that are in order stay where they are. -/
theorem sortedKeys_sortedKeys : ∀ v : Json, v.sortedKeys.sortedKeys = v.sortedKeys
  | .null => rfl
  | .bool _ => rfl
  | .int _ => rfl
  | .float _ => rfl
  | .str _ => rfl
  | .arr xs => congrArg arr (sortedItems_sortedItems xs)
  | .obj kvs => by
      rw [sortedKeys, sortedKeys, sortedPairs_sortByKey, sortedPairs_sortedPairs kvs,
        sortByKey_sortByKey]

theorem sortedItems_sortedItems : ∀ xs : List Json, sortedItems (sortedItems xs) = sortedItems xs
  | [] => rfl
  | x :: xs => by
      rw [sortedItems, sortedItems, sortedKeys_sortedKeys x, sortedItems_sortedItems xs]

theorem sortedPairs_sortedPairs : ∀ kvs : List (PyStr × Json),
    sortedPairs (sortedPairs kvs) = sortedPairs kvs
  | [] => rfl
  | (k, v) :: kvs => by
      rw [sortedPairs, sortedPairs, sortedKeys_sortedKeys v, sortedPairs_sortedPairs kvs]

end

mutual

theorem numbers_sortedKeys {P : Json → Prop} : ∀ v : Json, v.sortedKeys.Numbers P ↔ v.Numbers P
  | .null => Iff.rfl
  | .bool _ => Iff.rfl
  | .int _ => Iff.rfl
  | .float _ => Iff.rfl
  | .str _ => Iff.rfl
  | .arr xs => numbersItems_sortedItems xs
  | .obj kvs => by
      rw [Numbers, ← numbersPairs_sortedPairs kvs, numbersPairs_iff, sortedKeys, Numbers,
        numbersPairs_iff]
      simp only [(sortByKey_perm _).mem_iff]

theorem numbersItems_sortedItems {P : Json → Prop} : ∀ xs : List Json,
    NumbersItems P (sortedItems xs) ↔ NumbersItems P xs
  | [] => Iff.rfl
  | x :: xs => and_congr (numbers_sortedKeys x) (numbersItems_sortedItems xs)

theorem numbersPairs_sortedPairs {P : Json → Prop} : ∀ kvs : List (PyStr × Json),
    NumbersPairs P (sortedPairs kvs) ↔ NumbersPairs P kvs
  | [] => Iff.rfl
  | (_, v) :: kvs => and_congr (numbers_sortedKeys v) (numbersPairs_sortedPairs kvs)

end

/-- Objects with the same members in two orders are one object in the order of their keys. -/
theorem sortedKeys_obj_congr {kvs kvs' : List (PyStr × Json)} (hnodup : (kvs.map Prod.fst).Nodup)
    (h : kvs.Perm kvs') : (obj kvs).sortedKeys = (obj kvs').sortedKeys := by
  have hpairs : (sortedPairs kvs).Perm (sortedPairs kvs') := by
    rw [sortedPairs_eq_map, sortedPairs_eq_map]
    exact h.map _
  have hkeys : ((sortedPairs kvs).map Prod.fst).Nodup := by rwa [keys_sortedPairs]
  rw [sortedKeys, (sortByKey_eq_iff hkeys).mpr hpairs, sortedKeys]

/-! ## One member -/

theorem exists_join_around (parts parts' : List PyStr) : ∃ before behind, ∀ part,
    PyStr.join "," (parts ++ part :: parts') = before ++ part ++ behind := by
  induction parts with
  | nil =>
      rcases parts' with _ | ⟨s, parts'⟩
      · refine ⟨⟨[]⟩, ⟨[]⟩, fun part => ?_⟩
        rw [List.nil_append, PyStr.join_singleton]
        exact PyStr.ext (List.append_nil part.points).symm
      · refine ⟨⟨[]⟩, "," ++ PyStr.join "," (s :: parts'), fun part => ?_⟩
        rw [List.nil_append, PyStr.join_cons_cons]
        exact PyStr.ext (List.append_assoc ..)
  | cons s parts ih =>
      obtain ⟨before, behind, hjoin⟩ := ih
      refine ⟨s ++ "," ++ before, behind, fun part => ?_⟩
      have hcons : PyStr.join "," (s :: (parts ++ part :: parts'))
          = s ++ "," ++ PyStr.join "," (parts ++ part :: parts') := by
        rcases parts with _ | ⟨t, parts⟩
        · exact PyStr.join_cons_cons ..
        · exact PyStr.join_cons_cons ..
      rw [List.cons_append, hcons, hjoin]
      exact PyStr.ext (by simp only [PyStr.points_append, List.append_assoc])

/-- **A string that is a member stands in one place of the text.** -/
theorem exists_dumps_around (numerals : Numerals) {kvs : List (PyStr × Json)}
    (hnodup : (kvs.map Prod.fst).Nodup) (k : PyStr) : ∃ before behind, ∀ s,
      (obj (Dict.assign k (.str s) kvs)).sortedKeys.write numerals
        = before ++ quote s ++ behind := by
  have hkeys : ((sortedPairs kvs).map Prod.fst).Nodup := by rwa [keys_sortedPairs]
  obtain ⟨es, es', hplace⟩ := exists_sortByKey_assign hkeys k .null
  obtain ⟨before, behind, hjoin⟩ := exists_join_around (es.map (writeMember numerals))
    (es'.map (writeMember numerals))
  refine ⟨"\x7b" ++ before ++ (quote k ++ ":"), behind ++ "\x7d", fun s => ?_⟩
  have hassign : sortedPairs (Dict.assign k (.str s) kvs)
      = Dict.assign k (.str s) (sortedPairs kvs) := by
    rw [sortedPairs_eq_map, Dict.map_assign, ← sortedPairs_eq_map]
    rfl
  rw [sortedKeys, hassign, hplace, write, writePairs_eq_map, List.map_append, List.map_cons, hjoin]
  have hmember : writeMember numerals (k, .str s) = quote k ++ ":" ++ quote s := rfl
  rw [hmember]
  exact PyStr.ext (by simp only [PyStr.points_append, List.append_assoc])

/-- **A member more is some quotes more.** -/
theorem quotes_lt_concat (numerals : Numerals) (kvs : List (PyStr × Json)) (e : PyStr × Json) :
    quotes ((obj kvs).sortedKeys.write numerals)
      < quotes ((obj (kvs ++ [e])).sortedKeys.write numerals) := by
  have hsum : ∀ kvs : List (PyStr × Json), quotes ((obj kvs).sortedKeys.write numerals)
      = ((sortedPairs kvs).map fun e => quotes (writeMember numerals e)).sum := fun kvs => by
    rw [sortedKeys, quotes_obj]
    exact ((sortByKey_perm _).map _).sum_nat
  have hconcat : sortedPairs (kvs ++ [e]) = sortedPairs kvs ++ [(e.1, e.2.sortedKeys)] := by
    rw [sortedPairs_eq_map, List.map_append, ← sortedPairs_eq_map, List.map_singleton]
  have hpos : 0 < quotes (writeMember numerals (e.1, e.2.sortedKeys)) := by
    rw [writeMember, quotes_append, quotes_append]
    exact Nat.add_pos_left (Nat.add_pos_left (quotes_quote_pos e.1) _) _
  rw [hsum, hsum, hconcat, List.map_append, List.sum_append, List.map_singleton,
    List.sum_singleton]
  exact Nat.lt_add_of_pos_right hpos

end Json

/-! ## The canonical text -/

section Canonicalise

variable [PyRepr]

theorem canonicaliseValues_eq_map (kvs : List (PyStr × Json)) :
    canonicaliseValues kvs = kvs.map fun e => (e.1, canonicalise e.2) := by
  induction kvs with
  | nil => rfl
  | cons e kvs ih => exact congrArg ((e.1, canonicalise e.2) :: ·) ih

theorem canonicaliseValues_sortByKey (kvs : List (PyStr × Json)) :
    canonicaliseValues (sortByKey kvs) = sortByKey (canonicaliseValues kvs) := by
  rw [canonicaliseValues_eq_map, canonicaliseValues_eq_map, map_sortByKey]

mutual

/-- **The canonical text does not depend on the order of keys.** -/
theorem canonicalise_sortedKeys : ∀ v : Json, canonicalise v.sortedKeys = canonicalise v
  | .null => rfl
  | .bool _ => rfl
  | .int _ => rfl
  | .float _ => rfl
  | .str _ => rfl
  | .arr xs => by
      rw [Json.sortedKeys, canonicalise, canonicaliseItems_sortedItems xs, canonicalise]
  | .obj kvs => by
      rw [Json.sortedKeys, canonicalise, canonicaliseValues_sortByKey,
        canonicaliseValues_sortedPairs kvs, sortByKey_sortByKey, canonicalise]

theorem canonicaliseItems_sortedItems : ∀ xs : List Json,
    canonicaliseItems (Json.sortedItems xs) = canonicaliseItems xs
  | [] => rfl
  | x :: xs => by
      rw [Json.sortedItems, canonicaliseItems, canonicalise_sortedKeys x,
        canonicaliseItems_sortedItems xs, canonicaliseItems]

theorem canonicaliseValues_sortedPairs : ∀ kvs : List (PyStr × Json),
    canonicaliseValues (Json.sortedPairs kvs) = canonicaliseValues kvs
  | [] => rfl
  | (k, v) :: kvs => by
      rw [Json.sortedPairs, canonicaliseValues, canonicalise_sortedKeys v,
        canonicaliseValues_sortedPairs kvs, canonicaliseValues]

end

/-- The canonical text of a value that has one. -/
def canonicalText (v : Json) : PyStr := (canonicalise v).toOption.getD ""

theorem canonicalText_of_ok {v : Json} {t : PyStr} (h : canonicalise v = .ok t) :
    canonicalText v = t := by
  rw [canonicalText, h]
  rfl

/-- Numbers as `canonicalise` shows them, by their doubles. -/
def ecmaNumerals : Json.Numerals where
  int n := canonicalText (.int n)
  float x := canonicalText (.float x)

@[simp] theorem ecmaNumerals_int (n : ℤ) : ecmaNumerals.int n = canonicalText (.int n) := by
  rw [ecmaNumerals]

@[simp] theorem ecmaNumerals_float (x : PyFloat) :
    ecmaNumerals.float x = canonicalText (.float x) := by
  rw [ecmaNumerals]

/-- **An object has a canonical text when each of its values has one.** -/
theorem canonicalise_obj_eq_ok {kvs : List (PyStr × Json)} {t : PyStr} :
    canonicalise (.obj kvs) = .ok t ↔ (∀ e ∈ kvs, ∃ text, canonicalise e.2 = .ok text) ∧
      t = "\x7b" ++ PyStr.join ","
        ((sortByKey kvs).map fun e => member e.1 (canonicalText e.2)) ++ "\x7d" := by
  have hmember : ∀ (e : PyStr × Json) (part : PyStr),
      (canonicalise e.2).map (member e.1) = .ok part → member e.1 (canonicalText e.2) = part := by
    intro e part h
    obtain ⟨text, htext, rfl⟩ := map_eq_ok.mp h
    rw [canonicalText_of_ok htext]
  have hparts : ∀ parts, ((sortByKey kvs).mapM fun e => (canonicalise e.2).map (member e.1))
      = .ok parts ↔ (∀ e ∈ kvs, ∃ text, canonicalise e.2 = .ok text) ∧
        parts = (sortByKey kvs).map fun e => member e.1 (canonicalText e.2) := by
    intro parts
    rw [mapM_eq_ok_map hmember]
    refine and_congr_left fun _ => ?_
    simp only [(sortByKey_perm kvs).mem_iff, map_eq_ok]
    exact forall₂_congr fun e _ => ⟨fun ⟨_, text, h, _⟩ => ⟨text, h⟩, fun ⟨text, h⟩ =>
      ⟨_, text, h, rfl⟩⟩
  rw [canonicalise, ← canonicaliseValues_sortByKey, canonicaliseValues_eq_map, List.mapM_map,
    bind_eq_ok]
  constructor
  · rintro ⟨parts, hmap, h⟩
    obtain ⟨hvalues, rfl⟩ := (hparts parts).mp hmap
    exact ⟨hvalues, (Except.ok.inj h).symm⟩
  · rintro ⟨hvalues, rfl⟩
    exact ⟨_, (hparts _).mpr ⟨hvalues, rfl⟩, rfl⟩

mutual

/-- **The canonical text of a value** is its compact text with the keys in order. -/
theorem canonicalise_eq_ok : ∀ {v : Json} {t : PyStr}, canonicalise v = .ok t →
    v.sortedKeys.write ecmaNumerals = t
  | .null, _ => Except.ok.inj
  | .bool true, _ => Except.ok.inj
  | .bool false, _ => Except.ok.inj
  | .int n, _ => fun h => by
      have hkeys : (Json.int n).sortedKeys = .int n := rfl
      rw [hkeys, Json.write, ecmaNumerals_int, canonicalText_of_ok h]
  | .float x, _ => fun h => by
      have hkeys : (Json.float x).sortedKeys = .float x := rfl
      rw [hkeys, Json.write, ecmaNumerals_float, canonicalText_of_ok h]
  | .str _, _ => Except.ok.inj
  | .arr xs, t => fun h => by
      rw [canonicalise] at h
      obtain ⟨parts, hparts, h⟩ := bind_eq_ok.mp h
      rw [Json.sortedKeys, Json.write, Json.writeItems_eq_map, canonicaliseItems_eq_ok hparts]
      exact Except.ok.inj h
  | .obj kvs, t => fun h => by
      obtain ⟨hvalues, rfl⟩ := canonicalise_obj_eq_ok.mp h
      have hmembers : (sortByKey kvs).map (fun e => member e.1 (canonicalText e.2))
          = (sortByKey (Json.sortedPairs kvs)).map (Json.writeMember ecmaNumerals) := by
        rw [Json.sortedPairs_eq_map, ← map_sortByKey, List.map_map]
        refine List.map_congr_left fun e he => ?_
        have hmem := (sortByKey_perm kvs).mem_iff.mp he
        obtain ⟨text, htext⟩ := hvalues e hmem
        rw [canonicalText_of_ok htext, ← canonicaliseValues_eq_ok e hmem htext]
        rfl
      rw [Json.sortedKeys, Json.write, Json.writePairs_eq_map, hmembers]

theorem canonicaliseItems_eq_ok : ∀ {xs : List Json} {ts : List PyStr},
    canonicaliseItems xs = .ok ts → (Json.sortedItems xs).map (Json.write ecmaNumerals) = ts
  | [], _, h => Except.ok.inj h
  | x :: xs, ts, h => by
      rw [canonicaliseItems] at h
      obtain ⟨part, hpart, h⟩ := bind_eq_ok.mp h
      obtain ⟨parts, hparts, h⟩ := bind_eq_ok.mp h
      rw [Json.sortedItems, List.map_cons, canonicalise_eq_ok hpart,
        canonicaliseItems_eq_ok hparts]
      exact Except.ok.inj h

theorem canonicaliseValues_eq_ok : ∀ {kvs : List (PyStr × Json)}, ∀ e ∈ kvs, ∀ {t : PyStr},
    canonicalise e.2 = .ok t → e.2.sortedKeys.write ecmaNumerals = t
  | (k, v) :: kvs, e, he, t, h => by
      rcases List.mem_cons.mp he with rfl | he
      · exact canonicalise_eq_ok h
      · exact canonicaliseValues_eq_ok e he h

end

end Canonicalise

end Lumencast
