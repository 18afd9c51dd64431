import Lumencast.Lsml.Hash
import Lumencast.Lsml.Readability
import Lumencast.Machinery.Outcome

/-!
# Lsml/Canonical — the canonical form is a complete invariant

Two values are the same up to the order of keys and up to double precision (`Json.Same`) exactly
when they have one normal form (`same_iff`).  The canonical text of a value is the compact text of
its normal form (`canonicalise_eq`), and compact text is read back in one way.
-/

namespace Lumencast

open Machinery Grammar

namespace Json

/-! ## Values

Being the same is a relation between two values, with no normal form in it.  An object is
compared key by key. -/

/-- The double a number is, `float(v)`, as a rational; both zeros are one. -/
def double? : Json → Option ℚ
  | .int n => (PyFloat.ofInt n).bind PyFloat.toRat?
  | .float x => x.toRat?
  | _ => none

mutual

/-- A JSON value: its numbers have a finite double, and the keys of an object are distinct. -/
def Proper : Json → Prop
  | .int n => (PyFloat.ofInt n).isSome = true
  | .float x => ∃ q, x.toRat? = some q ∧ IsDouble q
  | .arr xs => ProperItems xs
  | .obj kvs => (kvs.map Prod.fst).Nodup ∧ ProperPairs kvs
  | _ => True

def ProperItems : List Json → Prop
  | [] => True
  | x :: xs => Proper x ∧ ProperItems xs

def ProperPairs : List (PyStr × Json) → Prop
  | [] => True
  | (_, v) :: kvs => Proper v ∧ ProperPairs kvs

end

mutual

/-- The same value, up to the order of the keys of objects and up to the doubles of numbers. -/
def Same : Json → Json → Prop
  | .null, .null => True
  | .bool b, .bool c => b = c
  | .str s, .str t => s = t
  | .arr xs, .arr ys => SameItems xs ys
  | .obj kvs, .obj kvs' => (kvs.map Prod.fst).Perm (kvs'.map Prod.fst) ∧ SamePairs kvs kvs'
  | v, w => ∃ q, v.double? = some q ∧ w.double? = some q

/-- The same elements in the same order. -/
def SameItems : List Json → List Json → Prop
  | [], [] => True
  | x :: xs, y :: ys => Same x y ∧ SameItems xs ys
  | _, _ => False

/-- Each key has the same value there. -/
def SamePairs : List (PyStr × Json) → List (PyStr × Json) → Prop
  | [], _ => True
  | (k, v) :: kvs, kvs' => (∃ w, (k, w) ∈ kvs' ∧ Same v w) ∧ SamePairs kvs kvs'

end

theorem properPairs_iff {kvs : List (PyStr × Json)} : ProperPairs kvs ↔ ∀ e ∈ kvs, e.2.Proper := by
  induction kvs with
  | nil => exact iff_of_true trivial (List.forall_mem_nil _)
  | cons e kvs ih =>
      obtain ⟨k, v⟩ := e
      rw [ProperPairs, List.forall_mem_cons, ih]

theorem samePairs_iff {kvs kvs' : List (PyStr × Json)} : SamePairs kvs kvs' ↔
    ∀ e ∈ kvs, ∃ w, (e.1, w) ∈ kvs' ∧ e.2.Same w := by
  induction kvs with
  | nil => exact iff_of_true trivial (List.forall_mem_nil _)
  | cons e kvs ih =>
      obtain ⟨k, v⟩ := e
      rw [SamePairs, List.forall_mem_cons, ih]

/-! ## Normal forms -/

mutual

/-- Numbers by their doubles, and objects in the order of their keys. -/
def normal : Json → Json
  | .int n => .float (.finite ((double? (.int n)).getD 0))
  | .float x => .float (.finite ((double? (.float x)).getD 0))
  | .arr xs => .arr (normalItems xs)
  | .obj kvs => .obj (sortByKey (normalPairs kvs))
  | v => v

def normalItems : List Json → List Json
  | [] => []
  | x :: xs => normal x :: normalItems xs

def normalPairs : List (PyStr × Json) → List (PyStr × Json)
  | [] => []
  | (k, v) :: kvs => (k, normal v) :: normalPairs kvs

end

theorem normalPairs_eq_map (kvs : List (PyStr × Json)) :
    normalPairs kvs = kvs.map fun e => (e.1, e.2.normal) := by
  induction kvs with
  | nil => rfl
  | cons e kvs ih => exact congrArg ((e.1, normal e.2) :: ·) ih

/-- The double of an integer of a proper value. -/
theorem double?_int {n : ℤ} (h : (Json.int n).Proper) :
    ∃ q, PyFloat.ofInt n = some (.finite q) ∧ (Json.int n).double? = some q ∧ IsDouble q := by
  obtain ⟨x, hx⟩ := Option.isSome_iff_exists.mp h
  obtain ⟨q, rfl, hq⟩ := isDouble_ofInt hx
  exact ⟨q, hx, by rw [double?, hx]; rfl, hq⟩

/-- The normal form of a number of a proper value. -/
theorem normal_number {v : Json} (hv : v.Proper) (hkind : v.kind = 3) :
    ∃ q, v.double? = some q ∧ IsDouble q ∧ v.normal = .float (.finite q) := by
  rcases v with _ | (_ | _) | n | x | s | xs | kvs <;> try cases hkind
  · obtain ⟨q, -, hq, hdouble⟩ := double?_int hv
    exact ⟨q, hq, hdouble, by rw [normal, hq, Option.getD_some]⟩
  · obtain ⟨q, hq, hdouble⟩ := hv
    have hx : (Json.float x).double? = some q := hq
    exact ⟨q, hx, hdouble, by rw [normal, hx, Option.getD_some]⟩

/-- Of two numbers. -/
theorem same_number {v w : Json} (hv : v.Proper) (hw : w.Proper) (hvkind : v.kind = 3)
    (hwkind : w.kind = 3) :
    (∃ q, v.double? = some q ∧ w.double? = some q) ↔ v.normal = w.normal := by
  obtain ⟨q, hq, -, hnormal⟩ := normal_number hv hvkind
  obtain ⟨p, hp, -, hnormal'⟩ := normal_number hw hwkind
  rw [hnormal, hnormal', hq, hp]
  constructor
  · rintro ⟨r, hqr, hpr⟩
    rw [Option.some.inj hqr, Option.some.inj hpr]
  · intro h
    have hqp : q = p := PyFloat.finite.inj (Json.float.inj h)
    exact ⟨q, rfl, congrArg some hqp.symm⟩

/-- Of two objects, their values being settled. -/
theorem same_pairs {kvs kvs' : List (PyStr × Json)} (hnodup : (kvs.map Prod.fst).Nodup)
    (hvalues : ∀ e ∈ kvs, ∀ e' ∈ kvs', e.2.Same e'.2 ↔ e.2.normal = e'.2.normal) :
    (kvs.map Prod.fst).Perm (kvs'.map Prod.fst) ∧ SamePairs kvs kvs' ↔
      sortByKey (normalPairs kvs) = sortByKey (normalPairs kvs') := by
  have hkeys : ∀ kvs : List (PyStr × Json),
      (normalPairs kvs).map Prod.fst = kvs.map Prod.fst := fun kvs => by
    rw [normalPairs_eq_map, List.map_map]
    rfl
  rw [sortByKey_eq_iff (by rwa [hkeys]), samePairs_iff]
  constructor
  · rintro ⟨hperm, hsame⟩
    refine perm_of_subset (by rwa [hkeys]) (by rwa [hkeys, hkeys]) fun e he => ?_
    rw [normalPairs_eq_map] at he ⊢
    obtain ⟨e, hmem, rfl⟩ := List.mem_map.mp he
    obtain ⟨w, hw, hsame⟩ := hsame e hmem
    exact List.mem_map.mpr ⟨(e.1, w), hw, by rw [(hvalues e hmem (e.1, w) hw).mp hsame]⟩
  · intro hperm
    refine ⟨by rw [← hkeys kvs, ← hkeys kvs']; exact hperm.map _, fun e he => ?_⟩
    have hmem : (e.1, e.2.normal) ∈ normalPairs kvs' := hperm.mem_iff.mp (by
      rw [normalPairs_eq_map]
      exact List.mem_map.mpr ⟨e, he, rfl⟩)
    rw [normalPairs_eq_map] at hmem
    obtain ⟨⟨k, w⟩, hw, heq⟩ := List.mem_map.mp hmem
    obtain ⟨rfl, hnormal⟩ := Prod.mk.inj heq
    exact ⟨w, hw, (hvalues e he _ hw).mpr hnormal.symm⟩

mutual

/-- **Values are the same exactly when they have one normal form.** -/
theorem same_iff : ∀ v w : Json, v.Proper → w.Proper → (v.Same w ↔ v.normal = w.normal)
  | .null, w, _, _ => by
      rcases w with _ | c | m | y | t | ys | kvs' <;> simp [Same, normal, double?]
  | .bool b, w, _, _ => by
      rcases w with _ | c | m | y | t | ys | kvs' <;> simp [Same, normal, double?]
  | .int n, w, hv, hw => by
      rcases w with _ | c | m | y | t | ys | kvs'
      case int => exact same_number hv hw rfl rfl
      case float => exact same_number hv hw rfl rfl
      all_goals simp [Same, normal, double?]
  | .float x, w, hv, hw => by
      rcases w with _ | c | m | y | t | ys | kvs'
      case int => exact same_number hv hw rfl rfl
      case float => exact same_number hv hw rfl rfl
      all_goals simp [Same, normal, double?]
  | .str s, w, _, _ => by
      rcases w with _ | c | m | y | t | ys | kvs' <;> simp [Same, normal, double?]
  | .arr xs, w, hv, hw => by
      rcases w with _ | c | m | y | t | ys | kvs'
      case arr =>
        rw [Same, normal, normal, Json.arr.injEq]
        exact same_items_iff xs ys hv hw
      all_goals simp [Same, normal, double?]
  | .obj kvs, w, hv, hw => by
      rcases w with _ | c | m | y | t | ys | kvs'
      case obj =>
        rw [Same, normal, normal, Json.obj.injEq]
        exact same_pairs hv.1 (same_values_iff kvs kvs' hv.2 hw.2)
      all_goals simp [Same, normal, double?]

theorem same_items_iff : ∀ xs ys : List Json, ProperItems xs → ProperItems ys →
    (SameItems xs ys ↔ normalItems xs = normalItems ys)
  | [], [], _, _ => by simp [SameItems]
  | [], _ :: _, _, _ => by simp [SameItems, normalItems]
  | _ :: _, [], _, _ => by simp [SameItems, normalItems]
  | x :: xs, y :: ys, hxs, hys => by
      rw [SameItems, same_iff x y hxs.1 hys.1, same_items_iff xs ys hxs.2 hys.2, normalItems,
        normalItems, List.cons.injEq]

theorem same_values_iff : ∀ kvs kvs' : List (PyStr × Json), ProperPairs kvs → ProperPairs kvs' →
    ∀ e ∈ kvs, ∀ e' ∈ kvs', e.2.Same e'.2 ↔ e.2.normal = e'.2.normal
  | [], _, _, _, _, he, _, _ => nomatch he
  | (k, v) :: kvs, kvs', hkvs, hkvs', e, he, e', he' => by
      rcases List.mem_cons.mp he with rfl | he
      · exact same_iff v e'.2 hkvs.1 (properPairs_iff.mp hkvs' e' he')
      · exact same_values_iff kvs kvs' hkvs.2 hkvs' e he e' he'

end

end Json

/-- A float that is a double. -/
def PyFloat.IsDouble (x : PyFloat) : Prop := ∃ q, x = .finite q ∧ Lumencast.IsDouble q

mutual

/-- A normal form has no numbers but doubles. -/
theorem floatsIn_normal : ∀ v : Json, v.Proper → v.normal.FloatsIn PyFloat.IsDouble
  | .null, _ => trivial
  | .bool _, _ => trivial
  | .int n, h => by
      obtain ⟨q, -, hdouble, hnormal⟩ := Json.normal_number h rfl
      rw [hnormal]
      exact ⟨q, rfl, hdouble⟩
  | .float x, h => by
      obtain ⟨q, -, hdouble, hnormal⟩ := Json.normal_number h rfl
      rw [hnormal]
      exact ⟨q, rfl, hdouble⟩
  | .str _, _ => trivial
  | .arr xs, h => itemsIn_normal xs h
  | .obj kvs, h => by
      rw [Json.normal, Json.FloatsIn, Json.pairsIn_iff]
      intro e he
      exact Json.pairsIn_iff.mp (pairsIn_normal kvs h.2) e ((sortByKey_perm _).mem_iff.mp he)

theorem itemsIn_normal : ∀ xs : List Json, Json.ProperItems xs →
    Json.ItemsIn PyFloat.IsDouble (Json.normalItems xs)
  | [], _ => trivial
  | x :: xs, h => ⟨floatsIn_normal x h.1, itemsIn_normal xs h.2⟩

theorem pairsIn_normal : ∀ kvs : List (PyStr × Json), Json.ProperPairs kvs →
    Json.PairsIn PyFloat.IsDouble (Json.normalPairs kvs)
  | [], _ => trivial
  | (_, v) :: kvs, h => ⟨floatsIn_normal v h.1, pairsIn_normal kvs h.2⟩

end

/-- Assigning a proper value leaves an object proper. -/
theorem proper_assign {kvs : List (PyStr × Json)} (h : (Json.obj kvs).Proper) (k : PyStr) {v : Json}
    (hv : v.Proper) : (Json.obj (Dict.assign k v kvs)).Proper := by
  refine ⟨Dict.nodup_assign h.1, Json.properPairs_iff.mpr fun e he => ?_⟩
  rcases Dict.mem_assign he with rfl | he
  · exact hv
  · exact Json.properPairs_iff.mp h.2 e he

/-- Zeroing the version leaves a value proper. -/
theorem proper_replaceSceneVersion {v : Json} (h : v.Proper) :
    (replaceSceneVersion v).Proper := by
  rcases v with _ | b | n | x | s | xs | kvs
  case obj =>
    rw [replaceSceneVersion]
    split
    · exact proper_assign h _ trivial
    · exact h
  all_goals exact h

/-! ## The canonical text -/

section Canonicalise

variable [PyRepr] {closest : ℚ → PyFloat}

/-- Numbers as the canonical form shows them. -/
def canonicalNumerals : Json.Numerals where
  int n := toString n
  float x := (formatNumber x).toOption.getD ""

/-- A double, rendered. -/
theorem formatNumber_eq (hrepr : RoundTrips closest) {q : ℚ} (hq : IsDouble q) :
    formatNumber (.finite q) = .ok (canonicalNumerals.float (.finite q)) := by
  obtain ⟨t, ht, -⟩ := formatNumber_numeric hrepr hq
  have hfloat : canonicalNumerals.float (.finite q) = (formatNumber (.finite q)).toOption.getD "" :=
    rfl
  rw [hfloat, ht]
  rfl

/-- **The canonical numerals tell doubles apart.** -/
theorem tells_canonicalNumerals (hrepr : RoundTrips closest) :
    canonicalNumerals.Tells PyFloat.IsDouble where
  head := by
    rintro _ ⟨q, rfl, hq⟩
    obtain ⟨t, ht, hhead, -⟩ := formatNumber_numeric hrepr hq
    rw [← Except.ok.inj (ht.symm.trans (formatNumber_eq hrepr hq))]
    exact hhead
  numeric := by
    rintro _ ⟨q, rfl, hq⟩
    obtain ⟨t, ht, -, hnumeric⟩ := formatNumber_numeric hrepr hq
    rw [← Except.ok.inj (ht.symm.trans (formatNumber_eq hrepr hq))]
    exact hnumeric
  inj := by
    rintro _ _ ⟨q, rfl, hq⟩ ⟨p, rfl, hp⟩ h
    have hformat : formatNumber (.finite q) = formatNumber (.finite p) := by
      rw [formatNumber_eq hrepr hq, formatNumber_eq hrepr hp, h]
    rw [formatNumber_inj hrepr hq hp hformat]

/-- A number is rendered by its double. -/
theorem canonicalise_number {v : Json} {q : ℚ} (hkind : v.kind = 3) (hv : v.Proper)
    (hq : v.double? = some q) : canonicalise v = formatNumber (.finite q) := by
  rcases v with _ | (_ | _) | n | x | s | xs | kvs <;> try cases hkind
  · obtain ⟨p, hn, hp, -⟩ := Json.double?_int hv
    rw [canonicalise, hn, ← Option.some.inj (hp.symm.trans hq)]
    rfl
  · rcases x with p | _ | neg | _
    · have hpq : p = q := Option.some.inj hq
      rw [canonicalise, hpq]
    · have hzero : (0 : ℚ) = q := Option.some.inj hq
      rw [canonicalise, ← hzero]
      rfl
    · cases hq
    · cases hq

mutual

/-- **The canonical text is the compact text of the normal form.** -/
theorem canonicalise_eq (hrepr : RoundTrips closest) : ∀ v : Json, v.Proper →
    canonicalise v = .ok (v.normal.write canonicalNumerals)
  | .null, _ => rfl
  | .bool true, _ => rfl
  | .bool false, _ => rfl
  | .int n, h => by
      obtain ⟨q, hq, hdouble, hnormal⟩ := Json.normal_number h rfl
      rw [canonicalise_number rfl h hq, formatNumber_eq hrepr hdouble, hnormal, Json.write]
  | .float x, h => by
      obtain ⟨q, hq, hdouble, hnormal⟩ := Json.normal_number h rfl
      rw [canonicalise_number rfl h hq, formatNumber_eq hrepr hdouble, hnormal, Json.write]
  | .str _, _ => rfl
  | .arr xs, h => by
      rw [canonicalise, canonicaliseItems_eq hrepr xs h, Json.normal, Json.write,
        Json.writeItems_eq_map]
      rfl
  | .obj kvs, h => by
      have hvalues := canonicaliseValues_eq hrepr kvs h.2
      have hparts : (sortByKey (canonicaliseValues kvs)).mapM (fun e => e.2.map (member e.1))
          = .ok ((sortByKey (Json.normalPairs kvs)).map (Json.writeMember canonicalNumerals)) := by
        rw [hvalues, Json.normalPairs_eq_map, ← map_sortByKey Json.normal,
          ← map_sortByKey fun v : Json => Except.ok (v.normal.write canonicalNumerals),
          List.mapM_map, List.map_map]
        exact mapM_ok _ _
      rw [canonicalise, hparts, Json.normal, Json.write, Json.writePairs_eq_map]
      rfl

theorem canonicaliseItems_eq (hrepr : RoundTrips closest) : ∀ xs : List Json,
    Json.ProperItems xs → canonicaliseItems xs
      = .ok ((Json.normalItems xs).map (Json.write canonicalNumerals))
  | [], _ => rfl
  | x :: xs, h => by
      rw [canonicaliseItems, canonicalise_eq hrepr x h.1, canonicaliseItems_eq hrepr xs h.2]
      rfl

theorem canonicaliseValues_eq (hrepr : RoundTrips closest) : ∀ kvs : List (PyStr × Json),
    Json.ProperPairs kvs → canonicaliseValues kvs
      = kvs.map fun e => (e.1, .ok (e.2.normal.write canonicalNumerals))
  | [], _ => rfl
  | (k, v) :: kvs, h => by
      rw [canonicaliseValues, canonicalise_eq hrepr v h.1, canonicaliseValues_eq hrepr kvs h.2]
      rfl

end

/-- Values have one canonical text exactly when they are the same. -/
theorem write_normal_iff (hrepr : RoundTrips closest) {v w : Json} (hv : v.Proper)
    (hw : w.Proper) :
    v.normal.write canonicalNumerals = w.normal.write canonicalNumerals ↔ v.Same w := by
  rw [Json.same_iff v w hv hw]
  exact ⟨Json.write_inj (tells_canonicalNumerals hrepr) (floatsIn_normal v hv)
    (floatsIn_normal w hw), congrArg _⟩

/-- **`canonicalise` is a complete invariant**: it renders every JSON value, and two of them alike
exactly when they are the same value up to the order of keys and up to double precision.  Hence
`canonical_bytes` ends alike on two bundles exactly when they are the same once their versions are
zeroed. -/
theorem complete_invariant (hrepr : RoundTrips closest) {a b : Json} (ha : a.Proper)
    (hb : b.Proper) :
    (∃ text, canonicalise a = .ok text) ∧ (canonicalise a = canonicalise b ↔ a.Same b) ∧
      (canonicalBytes a = canonicalBytes b ↔
        (replaceSceneVersion a).Same (replaceSceneVersion b)) := by
  have ha' := proper_replaceSceneVersion ha
  have hb' := proper_replaceSceneVersion hb
  refine ⟨⟨_, canonicalise_eq hrepr a ha⟩, ?_, ?_⟩
  · rw [canonicalise_eq hrepr a ha, canonicalise_eq hrepr b hb, Except.ok.injEq]
    exact write_normal_iff hrepr ha hb
  · rw [canonicalBytes_eq_iff (canonicalise_eq hrepr _ ha') (canonicalise_eq hrepr _ hb')]
    exact write_normal_iff hrepr ha' hb'

end Canonicalise

/-! ## Two bundles -/

/-- The places behind the binary point of the smallest double. -/
def doublePlaces : ℕ := 1074

/-- A `repr` that shows every double exactly, with the exponent of the smallest one, and `0.5` as
Python does. -/
@[reducible] def PyRepr.exact : PyRepr where
  float
    | .finite q =>
        if q = 1 / 2 then "0.5"
        else PyStr.ofString (Nat.repr ((q * 2 ^ doublePlaces).num.toNat * 5 ^ doublePlaces)) ++
          "e-" ++ PyStr.ofString (Nat.repr doublePlaces)
    | _ => "0.0"
  str s := "'" ++ s ++ "'"

/-- A double is a whole number of smallest ones. -/
theorem isDouble_scaled {q : ℚ} (h : IsDouble q) (hpos : 0 < q) :
    ((q * 2 ^ doublePlaces).num.toNat : ℚ) = q * 2 ^ doublePlaces := by
  obtain ⟨m, e, -, he, -, rfl⟩ := h
  have htwo : (2 : ℚ) ≠ 0 := by norm_num
  have hwhole : (m : ℚ) * 2 ^ e * 2 ^ doublePlaces = (m * 2 ^ (e + doublePlaces).toNat : ℤ) := by
    have hexp : e + doublePlaces = ((e + doublePlaces).toNat : ℤ) :=
      (Int.toNat_of_nonneg (by unfold doublePlaces; omega)).symm
    rw [mul_assoc, ← zpow_natCast, ← zpow_add₀ htwo, hexp, zpow_natCast]
    push_cast
    rfl
  have hnonneg : 0 ≤ m * 2 ^ (e + doublePlaces).toNat := by
    have hscaled : (0 : ℚ) ≤ (m * 2 ^ (e + doublePlaces).toNat : ℤ) := by
      rw [← hwhole]
      positivity
    exact_mod_cast hscaled
  rw [hwhole, Rat.num_intCast]
  exact_mod_cast Int.toNat_of_nonneg hnonneg

theorem roundTrips_exact : letI := PyRepr.exact; RoundTrips PyFloat.finite := by
  let := PyRepr.exact
  intro q hq hpos
  by_cases hhalf : q = 1 / 2
  · have htext : PyRepr.float (.finite q) = "0.5" := if_pos hhalf
    have hnum := Numeral.mk (isDigits_of_isInt .zero) (.frac (isDigits_repr 5)) .none
    have hval : scaled (lit "05") 1 = q := by
      have hnat : natOf (lit "05") = 5 := by decide
      have hlen : (lit "05").length = 2 := rfl
      rw [scaled, hnat, hlen, hhalf]
      norm_num
    rw [htext]
    exact ⟨lit "05", 1, hnum.of_eq rfl rfl rfl, by rwa [hval], by rw [hval]⟩
  · have htext : PyRepr.float (.finite q)
        = PyStr.ofString (Nat.repr ((q * 2 ^ doublePlaces).num.toNat * 5 ^ doublePlaces)) ++
          "e-" ++ PyStr.ofString (Nat.repr doublePlaces) := if_neg hhalf
    have hnum := Numeral.mk
      (isDigits_repr ((q * 2 ^ doublePlaces).num.toNat * 5 ^ doublePlaces)) .none
      (.minus (isDigits_repr doublePlaces))
    generalize hds : lit (Nat.repr ((q * 2 ^ doublePlaces).num.toNat * 5 ^ doublePlaces)) = ds
      at hnum
    have hval : scaled (ds ++ []) (ds.length + -natOf (lit (Nat.repr doublePlaces))) = q := by
      have hten : (10 : ℚ) = 2 * 5 := by norm_num
      have hne : (2 ^ doublePlaces * 5 ^ doublePlaces : ℚ) ≠ 0 :=
        mul_ne_zero (pow_ne_zero _ (by norm_num)) (pow_ne_zero _ (by norm_num))
      rw [List.append_nil, scaled, natOf_repr, ← hds, natOf_repr]
      push_cast
      rw [isDouble_scaled hq hpos, add_sub_cancel_left, hten, zpow_neg, zpow_natCast,
        mul_pow, mul_assoc q, mul_inv_cancel_right₀ hne]
    rw [htext]
    refine ⟨_, _, hnum.of_eq ?_ rfl rfl, by rwa [hval], by rw [hval]⟩
    rw [List.append_nil, PyStr.points_append, PyStr.points_append, ← hds, List.append_assoc]
    rfl

/-- A bundle… -/
def halfBundle : Json :=
  .obj (pair "scene_version" (.str "v1") ++ pair "half" (.float (.finite (1 / 2))) ++
    pair "zero" (.int 0))

/-- …and the same one, with its keys in another order, another zero and another version. -/
def shuffledBundle : Json :=
  .obj (pair "zero" (.float .negZero) ++ pair "half" (.float (.finite (1 / 2))) ++
    pair "scene_version" (.str "v2"))

theorem isDouble_half : IsDouble (1 / 2) := by
  have hlt : |(1 / 2 : ℚ)| < 1 := by norm_num [abs_of_pos]
  exact ⟨1, -1, by norm_num, by norm_num, hlt.trans_le (one_le_pow₀ one_le_two), by norm_num⟩

theorem ofInt_zero : PyFloat.ofInt 0 = some (.finite 0) := by
  have hround : PyFloat.roundNat (0 : ℤ).natAbs = 0 := by decide
  have hlt : ∀ k : ℕ, ¬ 2 ^ k ≤ 0 := fun k => Nat.not_le.mpr (Nat.two_pow_pos k)
  rw [PyFloat.ofInt, hround, if_neg (hlt 1024)]
  rfl

theorem complete_invariant_shuffledBundle :
    letI := PyRepr.exact
    canonicalBytes halfBundle = canonicalBytes shuffledBundle := by
  let := PyRepr.exact
  have hint : (Json.int 0).Proper := by
    rw [Json.Proper, ofInt_zero]
    rfl
  have ha : halfBundle.Proper := ⟨by decide, trivial, ⟨1 / 2, rfl, isDouble_half⟩, hint, trivial⟩
  have hb : shuffledBundle.Proper :=
    ⟨by decide, ⟨0, rfl, isDouble_zero⟩, ⟨1 / 2, rfl, isDouble_half⟩, trivial, trivial⟩
  refine (complete_invariant roundTrips_exact ha hb).2.2.mpr ⟨by decide, ?_⟩
  have hzero : (Json.int 0).Same (.float .negZero) :=
    ⟨0, by rw [Json.double?, ofInt_zero]; rfl, rfl⟩
  have hhalf : (Json.float (.finite (1 / 2))).Same (.float (.finite (1 / 2))) := ⟨1 / 2, rfl, rfl⟩
  have hversion : (Json.str ZERO_HASH).Same (.str ZERO_HASH) := rfl
  exact ⟨⟨_, List.mem_cons_of_mem _ (List.mem_cons_of_mem _ List.mem_cons_self), hversion⟩,
    ⟨_, List.mem_cons_of_mem _ List.mem_cons_self, hhalf⟩, ⟨_, List.mem_cons_self, hzero⟩, trivial⟩

end Lumencast
