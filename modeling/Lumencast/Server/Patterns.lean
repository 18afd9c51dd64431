import Lumencast.Server.Paths

/-!
# Server/Patterns — what a service token's patterns say

The docstring of the matcher gives a pattern a root, what is in front of its star, and lets it match
that root and whatever is under it: `Covers`.  The matcher takes off a star that follows a dot and
no other, so the two differ on the *loose* patterns, whose star follows anything else
(`canWrite_covers_iff`).
-/

namespace Lumencast

open Grammar

/-! ## Roots

The documented root of a pattern and the one the matcher computes are the same unless the star
follows something other than a dot. -/

/-- The root the documentation gives a pattern: the pattern without its `.*` or its `*`. -/
def statedRoot (pattern : PyStr) : PyStr :=
  if pattern.endsWith ".*" then pattern.dropEnd 2
  else if pattern.endsWith "*" then pattern.dropEnd 1
  else pattern

/-- What the documentation says of a pattern: it matches its root, and whatever is under it. -/
def Covers (pattern path : PyStr) : Prop :=
  statedRoot pattern ≠ "" ∧ segments (statedRoot pattern) <+: segments path

/-- A pattern whose star follows no dot. -/
def Loose (pattern : PyStr) : Prop := pattern.endsWith "*" = true ∧ pattern.endsWith ".*" = false

instance (pattern path : PyStr) : Decidable (Covers pattern path) :=
  inferInstanceAs (Decidable (_ ∧ _))

instance (pattern : PyStr) : Decidable (Loose pattern) :=
  inferInstanceAs (Decidable (_ ∧ _))

theorem ne_empty_of_inputs {path root : PyStr} (hinputs : hasPrefix path "__inputs" = true)
    (h : hasPrefix path root = true) : root ≠ "" := by
  rintro rfl
  rcases hasPrefix_total h hinputs with hle | hle
  · exact absurd hle (by decide)
  · exact absurd hle (by decide)

/-- **A pattern that is not loose matches what it says.** -/
theorem tight_matches_iff {pattern path : PyStr} (htight : ¬ Loose pattern)
    (hinputs : hasPrefix path "__inputs" = true) :
    patternMatches pattern path = true ↔ pattern ≠ "" ∧ Covers pattern path := by
  have hroot : statedRoot pattern = patternRoot pattern := by
    rw [statedRoot, patternRoot]
    by_cases hdot : pattern.endsWith ".*" = true
    · rw [if_pos hdot, if_pos hdot]
    · rw [if_neg hdot, if_neg hdot]
      exact if_neg fun hstar => htight ⟨hstar, Bool.not_eq_true _ ▸ hdot⟩
  rw [patternMatches_iff, Covers, segments_isPrefix_iff, hroot]
  exact and_congr_right fun _ => ⟨fun h => ⟨ne_empty_of_inputs hinputs h, h⟩, And.right⟩

/-- **A loose pattern is matched with its star in place.** -/
theorem loose_matches_iff {pattern path : PyStr} (hloose : Loose pattern) :
    patternMatches pattern path = true ↔ segments pattern <+: segments path := by
  have hne : pattern ≠ "" := by
    rintro rfl
    exact absurd hloose (by decide)
  rw [patternMatches_iff, and_iff_right hne, segments_isPrefix_iff, patternRoot,
    if_neg (Bool.not_eq_true _ ▸ hloose.2)]

/-! ## The gate of a service

A token holds a list of patterns, so reading it as documented is a matter of which patterns cover
a path on either reading. -/

/-- What the documentation says of a token at a path: the gate opens if the path is an input and
some pattern covers it. -/
def MeansItsPatterns (identity : Identity) (path : PyStr) : Prop :=
  identity.canWrite path = true ↔ (segments path).head? = some ("__inputs" : PyStr) ∧
    ∃ pattern ∈ identity.paths, pattern ≠ "" ∧ Covers pattern path

/-- A pattern that is not loose covers the path. -/
def CoveredTight (patterns : List PyStr) (path : PyStr) : Prop :=
  ∃ pattern ∈ patterns, pattern ≠ "" ∧ ¬ Loose pattern ∧ Covers pattern path

/-- The path is under a loose pattern as it stands, its star a character of the last segment. -/
def UnderStar (patterns : List PyStr) (path : PyStr) : Prop :=
  ∃ pattern ∈ patterns, Loose pattern ∧ segments pattern <+: segments path

/-- A loose pattern covers the path, its star taken off. -/
def CoveredLoose (patterns : List PyStr) (path : PyStr) : Prop :=
  ∃ pattern ∈ patterns, Loose pattern ∧ Covers pattern path

/-- **When a token is read as documented**: at a path that is no input, at one a pattern that is not
loose covers, and where both or neither of the two readings of the loose ones reach the path. -/
def ReadAsStated (identity : Identity) (path : PyStr) : Prop :=
  (segments path).head? ≠ some ("__inputs" : PyStr) ∨ CoveredTight identity.paths path ∨
    (UnderStar identity.paths path ↔ CoveredLoose identity.paths path)

/-- What the matcher makes of a list of patterns. -/
theorem exists_matches_iff {patterns : List PyStr} {path : PyStr}
    (hinputs : hasPrefix path "__inputs" = true) :
    (∃ pattern ∈ patterns, patternMatches pattern path = true) ↔
      CoveredTight patterns path ∨ UnderStar patterns path := by
  constructor
  · rintro ⟨pattern, hmem, hmatch⟩
    by_cases hloose : Loose pattern
    · exact Or.inr ⟨pattern, hmem, hloose, (loose_matches_iff hloose).mp hmatch⟩
    · have hcovers := (tight_matches_iff hloose hinputs).mp hmatch
      exact Or.inl ⟨pattern, hmem, hcovers.1, hloose, hcovers.2⟩
  · rintro (⟨pattern, hmem, hne, htight, hcovers⟩ | ⟨pattern, hmem, hloose, hle⟩)
    · exact ⟨pattern, hmem, (tight_matches_iff htight hinputs).mpr ⟨hne, hcovers⟩⟩
    · exact ⟨pattern, hmem, (loose_matches_iff hloose).mpr hle⟩

/-- What the documentation makes of it. -/
theorem exists_covers_iff {patterns : List PyStr} {path : PyStr} :
    (∃ pattern ∈ patterns, pattern ≠ "" ∧ Covers pattern path) ↔
      CoveredTight patterns path ∨ CoveredLoose patterns path := by
  constructor
  · rintro ⟨pattern, hmem, hne, hcovers⟩
    by_cases hloose : Loose pattern
    · exact Or.inr ⟨pattern, hmem, hloose, hcovers⟩
    · exact Or.inl ⟨pattern, hmem, hne, hloose, hcovers⟩
  · rintro (⟨pattern, hmem, hne, -, hcovers⟩ | ⟨pattern, hmem, hloose, hcovers⟩)
    · exact ⟨pattern, hmem, hne, hcovers⟩
    · refine ⟨pattern, hmem, ?_, hcovers⟩
      rintro rfl
      exact absurd hloose (by decide)

/-- The gate of a service whose token has patterns. -/
theorem service_canWrite_iff {identity : Identity} {path : PyStr}
    (hrole : identity.role = some .service) (hpaths : identity.paths ≠ []) :
    identity.canWrite path = true ↔ hasPrefix path "__inputs" = true ∧
      ∃ pattern ∈ identity.paths, patternMatches pattern path = true := by
  have hsome : identity.paths.isEmpty = false := List.isEmpty_eq_false_iff.mpr hpaths
  simp only [Identity.canWrite, hrole, roleCanWrite, hsome, Bool.false_or, Bool.and_eq_true,
    List.any_eq_true]

/-- **A service token means what it says exactly where `ReadAsStated` holds.** -/
theorem canWrite_covers_iff {identity : Identity} {path : PyStr}
    (hrole : identity.role = some .service) (hpaths : identity.paths ≠ []) :
    MeansItsPatterns identity path ↔ ReadAsStated identity path := by
  have hhead : (segments path).head? = some ("__inputs" : PyStr) ↔
      hasPrefix path "__inputs" = true :=
    head_segments_iff (by decide)
  rw [MeansItsPatterns, ReadAsStated, service_canWrite_iff hrole hpaths, Ne, hhead]
  by_cases hinputs : hasPrefix path "__inputs" = true
  · rw [and_iff_right hinputs, and_iff_right hinputs, exists_matches_iff hinputs,
      exists_covers_iff, or_iff_right (not_not_intro hinputs)]
    -- a path covered by a pattern that is not loose is granted and documented
    by_cases htight : CoveredTight identity.paths path
    · exact iff_of_true (iff_of_true (Or.inl htight) (Or.inl htight)) (Or.inl htight)
    · rw [or_iff_right htight, or_iff_right htight, or_iff_right htight]
  · exact iff_of_true (iff_of_false (fun h => hinputs h.1) fun h => hinputs h.1) (Or.inl hinputs)

/-- The token of a service for what is under `__inputs.allowed`. -/
def allowedToken : Identity := { role := some .service, paths := ["__inputs.allowed.*"] }

theorem canWrite_covers_iff_allowed :
    allowedToken.paths ≠ [] ∧ MeansItsPatterns allowedToken "__inputs.allowed.foo" := by
  refine ⟨by decide, (canWrite_covers_iff rfl (by decide)).mpr (Or.inr (Or.inl ?_))⟩
  exact ⟨"__inputs.allowed.*", by decide, by decide, by decide, by decide⟩

/-- A token whose one pattern is loose. -/
def looseToken : Identity := { role := some .service, paths := ["__inputs.a*"] }

/-- **It is refused what it says, and granted what it does not**: the first path is under the root
of its pattern, the second one has the star in it. -/
theorem looseToken_misread : ¬ MeansItsPatterns looseToken "__inputs.a.b" ∧
    ¬ MeansItsPatterns looseToken "__inputs.a*.b" := by
  rw [MeansItsPatterns, MeansItsPatterns]
  decide

/-- Without loose patterns a token means what it says, at every path. -/
theorem meansItsPatterns_of_tight {identity : Identity} (hrole : identity.role = some .service)
    (hpaths : identity.paths ≠ []) (htight : ∀ pattern ∈ identity.paths, ¬ Loose pattern)
    (path : PyStr) : MeansItsPatterns identity path := by
  refine (canWrite_covers_iff hrole hpaths).mpr (Or.inr (Or.inr (iff_of_false ?_ ?_)))
  · rintro ⟨pattern, hmem, hloose, -⟩
    exact htight pattern hmem hloose
  · rintro ⟨pattern, hmem, hloose, -⟩
    exact htight pattern hmem hloose

end Lumencast
