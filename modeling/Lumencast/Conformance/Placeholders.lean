import Lumencast.Conformance.Preorder

/-!
# Conformance/Placeholders — what a scenario leaves open

A scenario writes `$TOKEN_OPERATOR` for a token and `$BUNDLE.a.hash` for the hash of a bundle.
`substitutePlaceholders` fills them in before a frame is compared, at any depth of it, and leaves
unknown ones alone.  A value that was sent as the scenario spells it is matched by its substitution
exactly when every leaf of it survives (`matches_substitute_iff`).
-/

namespace Lumencast

open Machinery

section Substitution

variable (tokens bundleHashes : Dict PyStr PyStr)

/-- A string with its placeholder filled in. -/
def substituteText (s : PyStr) : PyStr :=
  if s.startsWith "$TOKEN_" then (tokens.get? s).getD s
  else if s.startsWith "$BUNDLE." && s.endsWith ".hash" then
    (bundleHashes.get? ((s.dropEnd 5).dropStart 8)).getD s
  else s

mutual

/-- `substitute_placeholders`. -/
def substitutePlaceholders : Json → Json
  | .str s => .str (substituteText tokens bundleHashes s)
  | .obj kvs => .obj (substitutePairs kvs)
  | .arr xs => .arr (substituteItems xs)
  | v => v

/-- The values of an object, substituted; its keys are left alone. -/
def substitutePairs : List (PyStr × Json) → List (PyStr × Json)
  | [] => []
  | (k, v) :: kvs => (k, substitutePlaceholders v) :: substitutePairs kvs

/-- The elements of a list, substituted. -/
def substituteItems : List Json → List Json
  | [] => []
  | x :: xs => substitutePlaceholders x :: substituteItems xs

end

theorem substitutePairs_eq_map : ∀ kvs : List (PyStr × Json),
    substitutePairs tokens bundleHashes kvs
      = kvs.map fun e => (e.1, substitutePlaceholders tokens bundleHashes e.2)
  | [] => rfl
  | (k, v) :: kvs => by rw [substitutePairs, substitutePairs_eq_map kvs, List.map_cons]

/-- A sentinel is no placeholder. -/
theorem substituteText_sentinel {s : PyStr} (h : s = SENTINEL_ANY ∨ s = SENTINEL_ANY_HASH) :
    substituteText tokens bundleHashes s = s := by
  rcases h with rfl | rfl
  · rfl
  · rfl

namespace Json

/-- A leaf that its own substitution matches.  A placeholder that is filled in does not, unless with
a sentinel; neither does the sentinel for a hash, which is no hash. -/
def SurvivesAt : Json → Prop
  | .int n => (PyFloat.ofInt n).isSome = true
  | .float x => x ≠ .nan
  | .str s => substituteText tokens bundleHashes s = SENTINEL_ANY ∨
      (substituteText tokens bundleHashes s = SENTINEL_ANY_HASH ∧ isSha256 s = true) ∨
      (substituteText tokens bundleHashes s = s ∧ s ≠ SENTINEL_ANY_HASH)
  | _ => True

/-- Every leaf survives. -/
def Survives : Json → Prop := Everywhere (SurvivesAt tokens bundleHashes)

/-- Not an object with a key twice, as no dict is. -/
def DistinctAt : Json → Prop
  | .obj kvs => (kvs.map Prod.fst).Nodup
  | _ => True

/-- No object in it has a key twice. -/
def Distinct : Json → Prop := Everywhere DistinctAt

end Json

end Substitution

namespace Json

variable {tokens bundleHashes : Dict PyStr PyStr}

/-- An integer is matched by itself if it is in the double range. -/
theorem matches_int_self {n : ℤ} : (int n).Matches (int n) ↔ (PyFloat.ofInt n).isSome = true := by
  constructor
  · intro h
    obtain ⟨q, hq, -⟩ := numeric?_of_matches h (asFloat_int_ne n)
    rw [numeric?] at hq
    obtain ⟨x, hx, -⟩ := Option.bind_eq_some_iff.mp hq
    rw [hx]
    rfl
  · intro h
    obtain ⟨q, hq⟩ := numeric?_int h
    exact (matches_number hq).mpr hq

/-- A float is matched by itself if it is no NaN. -/
theorem matches_float_self {x : PyFloat} : (float x).Matches (float x) ↔ x ≠ .nan := by
  constructor
  · rintro ⟨q, hq, -⟩ rfl
    cases hq
  · intro h
    obtain ⟨q, hq⟩ := numeric?_float h
    exact ⟨q, hq, hq⟩

/-- A string is matched by its substitution if it survives. -/
theorem matches_substituteText_iff {s : PyStr} :
    (str (substituteText tokens bundleHashes s)).Matches (str s) ↔
      SurvivesAt tokens bundleHashes (str s) := by
  rw [matches_str_iff, SurvivesAt]
  refine or_congr Iff.rfl (or_congr Iff.rfl ⟨?_, ?_⟩)
  · rintro ⟨hne, heq⟩
    rw [← Json.str.inj heq] at hne
    exact ⟨(Json.str.inj heq).symm, hne⟩
  · rintro ⟨heq, hne⟩
    rw [heq]
    exact ⟨hne, rfl⟩

mutual

/-- **A value is matched by its substitution exactly when it survives.** -/
theorem matches_substitute_iff : ∀ {v : Json}, v.Distinct →
    ((substitutePlaceholders tokens bundleHashes v).Matches v ↔ v.Survives tokens bundleHashes)
  | null, _ => Iff.rfl
  | bool _, _ => iff_of_true rfl trivial
  | int _, _ => matches_int_self
  | float _, _ => matches_float_self
  | str _, _ => matches_substituteText_iff
  | arr _, hv => (matchesItems_substitute_iff hv.2).trans (and_iff_right trivial).symm
  | obj _, hv => (matchesPairs_substitute_iff hv.2 fun _ he => Dict.find_of_mem hv.1 he).trans
      (and_iff_right trivial).symm

theorem matchesItems_substitute_iff : ∀ {xs : List Json}, EverywhereItems DistinctAt xs →
    (MatchesItems (substituteItems tokens bundleHashes xs) xs ↔
      EverywhereItems (SurvivesAt tokens bundleHashes) xs)
  | [], _ => Iff.rfl
  | _ :: _, hv => and_congr (matches_substitute_iff hv.1) (matchesItems_substitute_iff hv.2)

theorem matchesPairs_substitute_iff {kvs' : List (PyStr × Json)} :
    ∀ {kvs : List (PyStr × Json)}, EverywherePairs DistinctAt kvs →
    (∀ e ∈ kvs, lookup kvs' e.1 = some e.2) →
    (MatchesPairs (substitutePairs tokens bundleHashes kvs) kvs' ↔
      EverywherePairs (SurvivesAt tokens bundleHashes) kvs)
  | [], _, _ => Iff.rfl
  | (k, v) :: kvs, hv, hfind => by
      have hlookup : lookup kvs' k = some v := hfind (k, v) List.mem_cons_self
      have hrest := matchesPairs_substitute_iff hv.2 fun e he =>
        hfind e (List.mem_cons_of_mem _ he)
      rw [substitutePairs, MatchesPairs, EverywherePairs, hlookup]
      refine and_congr ?_ hrest
      simp only [Option.some.injEq, exists_eq_left']
      exact matches_substitute_iff hv.1

end

end Json

end Lumencast
