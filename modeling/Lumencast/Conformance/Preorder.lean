import Lumencast.Conformance.Match
import Lumencast.Protocol.Double

/-!
# Conformance/Preorder — matching is a preorder that tolerates extra fields

Every value without sentinels matches itself, and what a value matched by an expected one matches is
matched by the expected one too.  A sentinel in the middle would stand for more than itself, so the
middle value has none.  Fields added anywhere in a frame leave what matched it matching.
-/

namespace Lumencast

open Machinery

namespace Json

/-! ## Values without NaN, without sentinels, with more fields

Each condition is one at every value inside a value, and so is inherited by the parts in the
induction. -/

mutual

/-- `P` holds of a value and of every value in it. -/
def Everywhere (P : Json → Prop) : Json → Prop
  | .arr xs => P (.arr xs) ∧ EverywhereItems P xs
  | .obj kvs => P (.obj kvs) ∧ EverywherePairs P kvs
  | v => P v

def EverywhereItems (P : Json → Prop) : List Json → Prop
  | [] => True
  | x :: xs => Everywhere P x ∧ EverywhereItems P xs

def EverywherePairs (P : Json → Prop) : List (PyStr × Json) → Prop
  | [] => True
  | (_, v) :: kvs => Everywhere P v ∧ EverywherePairs P kvs

end

theorem everywherePairs_iff {P : Json → Prop} : ∀ {kvs : List (PyStr × Json)},
    EverywherePairs P kvs ↔ ∀ e ∈ kvs, e.2.Everywhere P
  | [] => iff_of_true trivial (List.forall_mem_nil _)
  | (k, v) :: kvs => by rw [EverywherePairs, List.forall_mem_cons, everywherePairs_iff]

/-- Not a NaN, not an integer beyond the double range, not an object with a key twice. -/
def ComparableAt : Json → Prop
  | .int n => (PyFloat.ofInt n).isSome = true
  | .float x => x ≠ .nan
  | .obj kvs => (kvs.map Prod.fst).Nodup
  | _ => True

/-- Not a sentinel. -/
def PlainAt : Json → Prop
  | .str s => s ≠ SENTINEL_ANY ∧ s ≠ SENTINEL_ANY_HASH
  | _ => True

/-- No NaN, no integer beyond the double range, no key twice. -/
def Comparable : Json → Prop := Everywhere ComparableAt

/-- No string that is a sentinel. -/
def SentinelFree : Json → Prop := Everywhere PlainAt

mutual

/-- The same value, with more fields in its objects. -/
def Grows : Json → Json → Prop
  | .arr xs, .arr ys => GrowsItems xs ys
  | .obj kvs, .obj kvs' => GrowsPairs kvs kvs'
  | v, w => v = w

def GrowsItems : List Json → List Json → Prop
  | [], [] => True
  | x :: xs, y :: ys => Grows x y ∧ GrowsItems xs ys
  | _, _ => False

/-- Each key is still there, with the same value or a grown one. -/
def GrowsPairs : List (PyStr × Json) → List (PyStr × Json) → Prop
  | [], _ => True
  | (k, v) :: kvs, kvs' => (∃ w, lookup kvs' k = some w ∧ Grows v w) ∧ GrowsPairs kvs kvs'

end

theorem matchesPairs_iff {kvs' : List (PyStr × Json)} : ∀ {kvs : List (PyStr × Json)},
    MatchesPairs kvs kvs' ↔ ∀ e ∈ kvs, ∃ w, lookup kvs' e.1 = some w ∧ e.2.Matches w
  | [] => iff_of_true trivial (List.forall_mem_nil _)
  | (k, v) :: kvs => by rw [MatchesPairs, List.forall_mem_cons, matchesPairs_iff]

theorem growsPairs_iff {kvs' : List (PyStr × Json)} : ∀ {kvs : List (PyStr × Json)},
    GrowsPairs kvs kvs' ↔ ∀ e ∈ kvs, ∃ w, lookup kvs' e.1 = some w ∧ e.2.Grows w
  | [] => iff_of_true trivial (List.forall_mem_nil _)
  | (k, v) :: kvs => by rw [GrowsPairs, List.forall_mem_cons, growsPairs_iff]

/-! ## Scalars -/

/-- A number matches what is the same number. -/
theorem matches_number {v w : Json} {q : ℚ ⊕ Bool} (h : v.numeric? = some q) :
    v.Matches w ↔ w.numeric? = some q := by
  have hmatches : v.Matches w ↔ ∃ q, v.numeric? = some q ∧ w.numeric? = some q := by
    cases v with
    | int n => cases w <;> exact Iff.rfl
    | float x => cases w <;> exact Iff.rfl
    | _ => cases h
  rw [hmatches, h]
  exact ⟨fun ⟨_, hq, hw⟩ => by cases hq; exact hw, fun hw => ⟨q, rfl, hw⟩⟩

theorem matches_null {w : Json} : null.Matches w ↔ w = null := by
  cases w with
  | null => exact iff_of_true trivial rfl
  | _ => exact iff_of_false (fun ⟨_, h, _⟩ => nomatch h) fun h => nomatch h

theorem matches_bool {b : Bool} {w : Json} : (bool b).Matches w ↔ w = bool b := by
  cases w with
  | bool c => exact ⟨fun h : b = c => h ▸ rfl, fun h => by cases h; rfl⟩
  | _ => exact iff_of_false (fun ⟨_, h, _⟩ => nomatch h) fun h => nomatch h

/-- A number matches nothing but numbers. -/
theorem numeric?_of_matches {v w : Json} (h : v.Matches w) (hnumber : asFloat v ≠ .ok none) :
    ∃ q, v.numeric? = some q ∧ w.numeric? = some q := by
  cases v with
  | int n => cases w <;> exact h
  | float x => cases w <;> exact h
  | _ => exact absurd rfl hnumber

/-- A string that is no sentinel matches itself only. -/
theorem matches_str {s : PyStr} {w : Json} (hany : s ≠ SENTINEL_ANY)
    (hhash : s ≠ SENTINEL_ANY_HASH) : (str s).Matches w ↔ w = str s := by
  rw [matches_str_iff, or_iff_right hany, or_iff_right fun h => hhash h.1, and_iff_right hhash]

theorem grows_number {v w : Json} {q : ℚ ⊕ Bool} (h : v.numeric? = some q) (hgrows : v.Grows w) :
    v = w := by
  cases v with
  | int n => cases w <;> exact hgrows
  | float x => cases w <;> exact hgrows
  | _ => cases h

theorem grows_str {s : PyStr} {w : Json} (h : (str s).Grows w) : w = str s := by
  cases w with
  | str t => exact h.symm
  | _ => cases h

/-! ## Reflexivity -/

theorem numeric?_int {n : ℤ} (h : (PyFloat.ofInt n).isSome = true) :
    ∃ q, (int n).numeric? = some q := by
  obtain ⟨x, hx⟩ := Option.isSome_iff_exists.mp h
  obtain ⟨q, rfl, -⟩ := isDouble_ofInt hx
  exact ⟨.inl q, by rw [numeric?, hx]; rfl⟩

theorem numeric?_float {x : PyFloat} (h : x ≠ .nan) : ∃ q, (float x).numeric? = some q := by
  cases x with
  | finite q => exact ⟨_, rfl⟩
  | negZero => exact ⟨_, rfl⟩
  | inf neg => exact ⟨_, rfl⟩
  | nan => exact absurd rfl h

mutual

/-- **A value without sentinels matches itself.** -/
theorem matches_self : ∀ {v : Json}, v.Comparable → v.SentinelFree → v.Matches v
  | null, _, _ => trivial
  | bool _, _, _ => rfl
  | int n, hv, _ => by
      obtain ⟨q, hq⟩ := numeric?_int hv
      exact (matches_number hq).mpr hq
  | float x, hv, _ => by
      obtain ⟨q, hq⟩ := numeric?_float hv
      exact (matches_number hq).mpr hq
  | str s, _, hs => (matches_str hs.1 hs.2).mpr rfl
  | arr xs, hv, hs => matchesItems_self hv.2 hs.2
  | obj _, hv, hs => matchesPairs_self hv.2 hs.2 fun _ he => Dict.find_of_mem hv.1 he

theorem matchesItems_self : ∀ {xs : List Json}, EverywhereItems ComparableAt xs →
    EverywhereItems PlainAt xs → MatchesItems xs xs
  | [], _, _ => trivial
  | _ :: _, hv, hs => ⟨matches_self hv.1 hs.1, matchesItems_self hv.2 hs.2⟩

theorem matchesPairs_self {kvs' : List (PyStr × Json)} : ∀ {kvs : List (PyStr × Json)},
    EverywherePairs ComparableAt kvs → EverywherePairs PlainAt kvs →
    (∀ e ∈ kvs, lookup kvs' e.1 = some e.2) → MatchesPairs kvs kvs'
  | [], _, _, _ => trivial
  | (k, v) :: _, hv, hs, hfind =>
      ⟨⟨v, hfind (k, v) List.mem_cons_self, matches_self hv.1 hs.1⟩,
        matchesPairs_self hv.2 hs.2 fun e he => hfind e (List.mem_cons_of_mem _ he)⟩

end

/-! ## Transitivity

The middle value is compared twice, once as what is sent and once as what is expected.  A
sentinel in it would mean different things the two times. -/

mutual

/-- **Matching passes through a value without sentinels.** -/
theorem matches_trans : ∀ {u v w : Json}, v.SentinelFree → u.Matches v → v.Matches w → u.Matches w
  | null, v, w, _, huv, hvw => by
      rw [matches_null.mp huv] at hvw
      exact hvw
  | bool b, v, w, _, huv, hvw => by
      rw [matches_bool.mp huv] at hvw
      exact hvw
  | int n, v, w, _, huv, hvw => by
      obtain ⟨q, hu, hv⟩ := numeric?_of_matches huv (asFloat_int_ne n)
      exact (matches_number hu).mpr ((matches_number hv).mp hvw)
  | float x, v, w, _, huv, hvw => by
      obtain ⟨q, hu, hv⟩ := numeric?_of_matches huv fun h => nomatch h
      exact (matches_number hu).mpr ((matches_number hv).mp hvw)
  | str s, v, w, hs, huv, hvw => by
      rcases matches_str_iff.mp huv with hany | ⟨hhash, hv⟩ | ⟨hne, rfl⟩
      · exact matches_str_iff.mpr (Or.inl hany)
      · -- the hash in the middle is itself no sentinel, so it matches itself only
        cases v with
        | str h =>
            rw [(matches_str hs.1 hs.2).mp hvw]
            exact matches_str_iff.mpr (Or.inr (Or.inl ⟨hhash, hv⟩))
        | _ => exact hv.elim
      · exact matches_str_iff.mpr (Or.inr (Or.inr ⟨hne, (matches_str hs.1 hs.2).mp hvw⟩))
  | arr xs, v, w, hs, huv, hvw => by
      cases v with
      | arr ys =>
          cases w with
          | arr zs => exact matchesItems_trans hs.2 huv hvw
          | _ => exact absurd hvw fun ⟨_, h, _⟩ => nomatch h
      | _ => exact absurd huv fun ⟨_, h, _⟩ => nomatch h
  | obj kvs, v, w, hs, huv, hvw => by
      cases v with
      | obj kvs' =>
          cases w with
          | obj kvs'' => exact matchesPairs_trans hs.2 huv (matchesPairs_iff.mp hvw)
          | _ => exact absurd hvw fun ⟨_, h, _⟩ => nomatch h
      | _ => exact absurd huv fun ⟨_, h, _⟩ => nomatch h

theorem matchesItems_trans : ∀ {xs ys zs : List Json}, EverywhereItems PlainAt ys →
    MatchesItems xs ys → MatchesItems ys zs → MatchesItems xs zs
  | [], [], _, _, _, h => h
  | _ :: _, _ :: _, [], _, _, h => h.elim
  | _ :: _, _ :: _, _ :: _, hs, huv, hvw =>
      ⟨matches_trans hs.1 huv.1 hvw.1, matchesItems_trans hs.2 huv.2 hvw.2⟩

theorem matchesPairs_trans {kvs' kvs'' : List (PyStr × Json)} : ∀ {kvs : List (PyStr × Json)},
    EverywherePairs PlainAt kvs' → MatchesPairs kvs kvs' →
    (∀ e ∈ kvs', ∃ w, lookup kvs'' e.1 = some w ∧ e.2.Matches w) → MatchesPairs kvs kvs''
  | [], _, _, _ => trivial
  | (k, v) :: kvs, hs, ⟨⟨w, hw, hvw⟩, hrest⟩, hwx => by
      have hmem : (k, w) ∈ kvs' := Dict.mem_of_find hw
      obtain ⟨x, hx, hmatch⟩ := hwx (k, w) hmem
      have hplain : w.SentinelFree := everywherePairs_iff.mp hs (k, w) hmem
      exact ⟨⟨x, hx, matches_trans hplain hvw hmatch⟩, matchesPairs_trans hs hrest hwx⟩

end

/-! ## More fields -/

mutual

/-- **What matched goes on matching when fields are added.** -/
theorem matches_of_grows : ∀ {u v w : Json}, u.Matches v → v.Grows w → u.Matches w
  | null, v, w, huv, hvw => by
      rw [matches_null.mp huv] at hvw
      exact matches_null.mpr hvw.symm
  | bool b, v, w, huv, hvw => by
      rw [matches_bool.mp huv] at hvw
      exact matches_bool.mpr hvw.symm
  | int n, v, w, huv, hvw => by
      obtain ⟨q, hu, hv⟩ := numeric?_of_matches huv (asFloat_int_ne n)
      exact (matches_number hu).mpr (grows_number hv hvw ▸ hv)
  | float x, v, w, huv, hvw => by
      obtain ⟨q, hu, hv⟩ := numeric?_of_matches huv fun h => nomatch h
      exact (matches_number hu).mpr (grows_number hv hvw ▸ hv)
  | str s, v, w, huv, hvw => by
      rcases matches_str_iff.mp huv with hany | ⟨hhash, hv⟩ | ⟨hne, rfl⟩
      · exact matches_str_iff.mpr (Or.inl hany)
      · cases v with
        | str h => exact matches_str_iff.mpr (Or.inr (Or.inl ⟨hhash, grows_str hvw ▸ hv⟩))
        | _ => exact hv.elim
      · exact matches_str_iff.mpr (Or.inr (Or.inr ⟨hne, grows_str hvw⟩))
  | arr xs, v, w, huv, hvw => by
      cases v with
      | arr ys =>
          cases w with
          | arr zs => exact matchesItems_of_grows huv hvw
          | _ => cases hvw
      | _ => exact absurd huv fun ⟨_, h, _⟩ => nomatch h
  | obj kvs, v, w, huv, hvw => by
      cases v with
      | obj kvs' =>
          cases w with
          | obj kvs'' => exact matchesPairs_of_grows huv (growsPairs_iff.mp hvw)
          | _ => cases hvw
      | _ => exact absurd huv fun ⟨_, h, _⟩ => nomatch h

theorem matchesItems_of_grows : ∀ {xs ys zs : List Json}, MatchesItems xs ys → GrowsItems ys zs →
    MatchesItems xs zs
  | [], [], [], _, _ => trivial
  | _ :: _, _ :: _, _ :: _, huv, hvw =>
      ⟨matches_of_grows huv.1 hvw.1, matchesItems_of_grows huv.2 hvw.2⟩

theorem matchesPairs_of_grows {kvs' kvs'' : List (PyStr × Json)} :
    ∀ {kvs : List (PyStr × Json)}, MatchesPairs kvs kvs' →
    (∀ e ∈ kvs', ∃ w, lookup kvs'' e.1 = some w ∧ e.2.Grows w) → MatchesPairs kvs kvs''
  | [], _, _ => trivial
  | (k, v) :: kvs, ⟨⟨w, hw, hvw⟩, hrest⟩, hwx => by
      obtain ⟨x, hx, hgrows⟩ := hwx (k, w) (Dict.mem_of_find hw)
      exact ⟨⟨x, hx, matches_of_grows hvw hgrows⟩, matchesPairs_of_grows hrest hwx⟩

end

end Json

/-! ## The matcher -/

/-- **Matching is a preorder that tolerates extra fields.**  A value without sentinels matches
itself; a value matches what a value without sentinels, which it matches, matches; and a frame that
matched still does with fields added to its objects, at any depth. -/
theorem match_preorder :
    (∀ (x : Json) path, x.Comparable → x.SentinelFree → matchValue x x path = .ok ()) ∧
    (∀ (expected a b : Json) path path' path'', a.SentinelFree →
      matchValue expected a path = .ok () → matchValue a b path' = .ok () →
        matchValue expected b path'' = .ok ()) ∧
    ∀ expected frame frame' : List (PyStr × Json), matchFrame expected frame = .ok () →
      Json.GrowsPairs frame frame' → matchFrame expected frame' = .ok () := by
  refine ⟨fun x path hx hs => ?_, fun expected a b path path' path'' hs h h' => ?_,
    fun expected frame frame' h hgrows => ?_⟩
  · exact matchValue_iff.mpr (Json.matches_self hx hs)
  · exact matchValue_iff.mpr
      (Json.matches_trans hs (matchValue_iff.mp h) (matchValue_iff.mp h'))
  · exact matchFrame_iff.mpr
      (Json.matchesPairs_of_grows (matchFrame_iff.mp h) (Json.growsPairs_iff.mp hgrows))

/-- A snapshot frame as a scenario expects it. -/
def expectedSnapshot : List (PyStr × Json) :=
  [("type", .str "snapshot"), ("seq", .str "$ANY"), ("state", .obj [("on", .bool true)])]

/-- The same as a server sends it, with other leaves in its state. -/
def sentSnapshot (others : List (PyStr × Json)) : List (PyStr × Json) :=
  [("type", .str "snapshot"), ("seq", .int 7), ("state", .obj (("on", .bool true) :: others))]

theorem match_preorder_snapshot :
    matchFrame expectedSnapshot (sentSnapshot []) = .ok () ∧
      matchFrame expectedSnapshot (sentSnapshot [("title", .null)]) = .ok () := by
  have hmatches : matchFrame expectedSnapshot (sentSnapshot []) = .ok () := by
    refine matchFrame_iff.mpr ⟨⟨_, rfl, ?_⟩, ⟨_, rfl, ?_⟩, ⟨_, rfl, ⟨_, rfl, rfl⟩, trivial⟩, trivial⟩
    · exact matches_str_iff.mpr (Or.inr (Or.inr ⟨by decide, rfl⟩))
    · exact matches_str_iff.mpr (Or.inl rfl)
  refine ⟨hmatches, match_preorder.2.2 _ _ _ hmatches ?_⟩
  exact ⟨⟨_, rfl, rfl⟩, ⟨_, rfl, rfl⟩, ⟨_, rfl, ⟨_, rfl, rfl⟩, trivial⟩, trivial⟩

end Lumencast
