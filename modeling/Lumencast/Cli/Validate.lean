import Lumencast.Cli.Build
import Lumencast.Protocol.Decode

/-!
# Cli/Validate — `lumencast validate`

The structural minimum of a bundle: `validate` lists what is wrong with it, and `Valid` says what it
has to be.  A bundle is valid exactly when the list is empty, provided there is a list: the version
and the kind of the root primitive are looked up in sets of names, and a value that cannot be hashed
raises there (`judged_iff`).
-/

namespace Lumencast.Validate

open Machinery Build

/-! ## The checks

Each check returns its messages, and the list is theirs put together.  What can raise is the
membership in a set, which hashes the value first. -/

/-- The versions that are supported. -/
def VERSIONS : List PyStr := ["1.0", "1"]

/-- What a bundle has. -/
def BUNDLE_FIELDS : List PyStr := ["scene_id", "scene_version", "layout"]

/-- The primitives of LSML 1.0. -/
def PRIMITIVES : List PyStr :=
  ["stack", "grid", "frame", "text", "image", "shape", "media", "repeat"]

/-- What an operator input has. -/
def INPUT_FIELDS : List PyStr := ["path", "label", "type", "writable_by"]

/-- `v in names`, of a set of names: the value is hashed first. -/
def isOneOf (v : Json) (names : List PyStr) : Except Raised Bool :=
  if v.hashable then .ok (names.any v.isText) else .error .type

/-- A message for each field that is not there. -/
def missingFields (kvs : List (PyStr × Json)) (fields : List PyStr) (message : PyStr → PyStr) :
    List PyStr :=
  (fields.filter fun k => !(Json.lookup kvs k).isSome).map message

/-- A value that has to be one of the names: a message when it is not. -/
def checkName (v : Json) (names : List PyStr) (message : PyStr) : Except Raised (List PyStr) := do
  let found ← isOneOf v names
  return if found then [] else [message]

section Checks

variable [PyRepr]

def checkVersion (version : Json) : Except Raised (List PyStr) :=
  checkName version VERSIONS
    ("unsupported lsml version: " ++ version.repr ++ " (expected '1.0')")

def checkLayout : Json → Except Raised (List PyStr)
  | .null => .ok []
  | .obj layout =>
      let kind := Json.get layout "kind"
      checkName kind PRIMITIVES
        ("layout.kind " ++ kind.repr ++ " is not one of the 8 LSML 1.0 primitives")
  | _ => .ok ["layout must be a JSON object (the root primitive)"]

/-- The check of operator input `i`. -/
def checkInput (i : ℕ) : Json → List PyStr
  | .obj item => missingFields item INPUT_FIELDS fun required =>
      "operator_inputs[" ++ toString i ++ "] missing " ++ PyRepr.str required
  | _ => ["operator_inputs[" ++ toString i ++ "] must be an object"]

/-- The operator inputs from `i` on. -/
def checkInputs : ℕ → List Json → List PyStr
  | _, [] => []
  | i, item :: items => checkInput i item ++ checkInputs (i + 1) items

def checkOperatorInputs : Json → List PyStr
  | .null => []
  | .arr items => checkInputs 0 items
  | _ => ["operator_inputs must be a JSON array"]

/-- `_validate`: what is wrong with a bundle, in the order of the source. -/
def validate : Json → Except Raised (List PyStr)
  | .obj bundle => do
      let version ← checkVersion (Json.get bundle "lsml")
      let missing := missingFields bundle BUNDLE_FIELDS fun required =>
        "missing required field " ++ PyRepr.str required
      let layout ← checkLayout (Json.get bundle "layout")
      return version ++ missing ++ layout
        ++ checkOperatorInputs (Json.get bundle "operator_inputs")
  | _ => .ok ["bundle root must be a JSON object"]

end Checks

/-! ## The command -/

section Run

variable [PyRepr] [PyParse]

def cannotRead (path error : PyStr) : Report :=
  { code := 2, stderr := ["lumencast validate: cannot read " ++ path ++ ": " ++ error] }

/-- What is printed of the errors. -/
def report (path : PyStr) : List PyStr → Report
  | [] => { code := 0, stdout := [path ++ ": OK"] }
  | errors => { code := 1, stderr := errors.map ("lumencast validate: " ++ ·) }

/-- `run`: an exception is one that the checks raise. -/
def run (path : PyStr) : Source → Except Raised Report
  | .missing => .ok { code := 2, stderr := ["lumencast validate: not a file: " ++ path] }
  | .unreadable e => .ok (cannotRead path e)
  | .text s =>
      match PyParse.loads s with
      | .error e => .ok (cannotRead path e)
      | .ok bundle => (validate bundle).map (report path)

end Run

/-! ## What a bundle has to be -/

/-- One of the names, as a string. -/
def IsNamed (names : List PyStr) (v : Json) : Prop := ∃ name ∈ names, v = .str name

/-- Every field is there. -/
def HasFields (fields : List PyStr) (kvs : List (PyStr × Json)) : Prop :=
  ∀ k ∈ fields, (Json.lookup kvs k).isSome = true

/-- The layout is null, or an object whose kind is a primitive. -/
def ValidLayout (v : Json) : Prop :=
  v = .null ∨ ∃ layout, v = .obj layout ∧ IsNamed PRIMITIVES (Json.get layout "kind")

/-- An operator input is an object with its four fields. -/
def ValidInput (v : Json) : Prop := ∃ item, v = .obj item ∧ HasFields INPUT_FIELDS item

/-- The operator inputs are null, or a list of them. -/
def ValidInputs (v : Json) : Prop :=
  v = .null ∨ ∃ items, v = .arr items ∧ ∀ item ∈ items, ValidInput item

/-- A valid bundle; what is absent counts as null. -/
structure ValidBundle (bundle : List (PyStr × Json)) : Prop where
  version : IsNamed VERSIONS (Json.get bundle "lsml")
  fields : HasFields BUNDLE_FIELDS bundle
  layout : ValidLayout (Json.get bundle "layout")
  operatorInputs : ValidInputs (Json.get bundle "operator_inputs")

/-- A valid document. -/
def Valid (doc : Json) : Prop := ∃ bundle, doc = .obj bundle ∧ ValidBundle bundle

/-- The values that are looked up in a set are no lists and no objects. -/
def Hashable : Json → Prop
  | .obj bundle => (Json.get bundle "lsml").hashable = true ∧
      ∀ layout, Json.get bundle "layout" = .obj layout → (Json.get layout "kind").hashable = true
  | _ => True

/-! ## The lists of messages -/

theorem isNamed_iff {names : List PyStr} {v : Json} :
    names.any v.isText = true ↔ IsNamed names v := by
  simp only [List.any_eq_true, Json.isText_iff, IsNamed]

theorem hashable_of_isNamed {names : List PyStr} {v : Json} (h : IsNamed names v) :
    v.hashable = true := by
  obtain ⟨name, -, rfl⟩ := h
  rfl

/-- The names of a valid document are strings. -/
theorem hashable_of_valid {doc : Json} (h : Valid doc) : Hashable doc := by
  obtain ⟨bundle, rfl, hbundle⟩ := h
  refine ⟨hashable_of_isNamed hbundle.version, fun layout heq => ?_⟩
  rcases hbundle.layout with hnull | ⟨layout', heq', hkind⟩
  · rw [hnull] at heq
    cases heq
  · rw [heq'] at heq
    cases heq
    exact hashable_of_isNamed hkind

theorem missingFields_eq_nil {kvs : List (PyStr × Json)} {fields : List PyStr}
    {message : PyStr → PyStr} : missingFields kvs fields message = [] ↔ HasFields fields kvs := by
  rw [missingFields, List.map_eq_nil_iff, List.filter_eq_nil_iff, HasFields]
  simp only [Bool.not_eq_true', Bool.not_eq_false]

theorem checkName_isOk {v : Json} {names : List PyStr} {message : PyStr} :
    (checkName v names message).isOk = v.hashable := by
  rw [checkName, isOk_bind_pure, isOneOf]
  cases v.hashable <;> rfl

theorem failsOnly_checkName {v : Json} {names : List PyStr} {message : PyStr} :
    FailsOnly (· = .type) (checkName v names message) := by
  rw [checkName, failsOnly_bind_pure, isOneOf]
  split
  · exact failsOnly_ok _
  · exact failsOnly_error.mpr rfl

theorem checkName_eq_nil {v : Json} {names : List PyStr} {message : PyStr} {errors : List PyStr}
    (h : checkName v names message = .ok errors) : errors = [] ↔ IsNamed names v := by
  obtain ⟨found, hfound, h⟩ := bind_eq_ok.mp h
  rw [isOneOf] at hfound
  split at hfound
  · cases hfound
    cases h
    rw [← isNamed_iff]
    split <;> simp_all
  · cases hfound

section Messages

variable [PyRepr]

theorem checkLayout_isOk {v : Json} : (checkLayout v).isOk = true ↔
    ∀ layout, v = .obj layout → (Json.get layout "kind").hashable = true := by
  rcases v with _ | _ | _ | _ | _ | _ | layout
  case obj =>
    rw [checkLayout, checkName_isOk]
    exact ⟨fun h layout' heq => Json.obj.inj heq ▸ h, fun h => h layout rfl⟩
  all_goals exact iff_of_true rfl fun _ heq => by cases heq

theorem checkLayout_eq_nil {v : Json} {errors : List PyStr} (h : checkLayout v = .ok errors) :
    errors = [] ↔ ValidLayout v := by
  rcases v with _ | _ | _ | _ | _ | _ | layout
  case null =>
    cases h
    exact iff_of_true rfl (Or.inl rfl)
  case obj =>
    rw [checkName_eq_nil h]
    constructor
    · exact fun hkind => Or.inr ⟨layout, rfl, hkind⟩
    · rintro (hnull | ⟨layout', heq, hkind⟩)
      · cases hnull
      · cases heq
        exact hkind
  all_goals
    cases h
    refine iff_of_false (List.cons_ne_nil _ _) ?_
    rintro (hnull | ⟨layout, heq, -⟩)
    · cases hnull
    · cases heq

theorem checkInput_eq_nil {i : ℕ} {v : Json} : checkInput i v = [] ↔ ValidInput v := by
  rcases v with _ | _ | _ | _ | _ | _ | item
  case obj =>
    rw [checkInput, missingFields_eq_nil]
    constructor
    · exact fun h => ⟨item, rfl, h⟩
    · rintro ⟨item', heq, h⟩
      cases heq
      exact h
  all_goals
    refine iff_of_false (List.cons_ne_nil _ _) ?_
    rintro ⟨item, heq, -⟩
    cases heq

theorem checkInputs_eq_nil : ∀ {i : ℕ} {items : List Json},
    checkInputs i items = [] ↔ ∀ item ∈ items, ValidInput item
  | _, [] => iff_of_true rfl (List.forall_mem_nil _)
  | i, item :: items => by
      rw [checkInputs, List.append_eq_nil_iff, checkInput_eq_nil, checkInputs_eq_nil,
        List.forall_mem_cons]

theorem checkOperatorInputs_eq_nil {v : Json} : checkOperatorInputs v = [] ↔ ValidInputs v := by
  rcases v with _ | _ | _ | _ | _ | items | _
  case null => exact iff_of_true rfl (Or.inl rfl)
  case arr =>
    rw [checkOperatorInputs, checkInputs_eq_nil]
    constructor
    · exact fun h => Or.inr ⟨items, rfl, h⟩
    · rintro (hnull | ⟨items', heq, h⟩)
      · cases hnull
      · cases heq
        exact h
  all_goals
    refine iff_of_false (List.cons_ne_nil _ _) ?_
    rintro (hnull | ⟨items, heq, -⟩)
    · cases hnull
    · cases heq

/-! ## Totality and exactness -/

/-- **When there is a list at all.** -/
theorem validate_isOk {doc : Json} : (validate doc).isOk = true ↔ Hashable doc := by
  rcases doc with _ | _ | _ | _ | _ | _ | bundle
  case obj =>
    rw [validate, isOk_bind_const fun _ _ => isOk_bind_pure _ _, Bool.and_eq_true, checkLayout_isOk,
      checkVersion, checkName_isOk, Hashable]
  all_goals exact iff_of_true rfl trivial

/-- **…it is empty for the valid documents.** -/
theorem validate_eq_nil {doc : Json} {errors : List PyStr} (h : validate doc = .ok errors) :
    errors = [] ↔ Valid doc := by
  rcases doc with _ | _ | _ | _ | _ | _ | bundle
  case obj =>
    obtain ⟨version, hversion, h⟩ := bind_eq_ok.mp h
    obtain ⟨layout, hlayout, h⟩ := bind_eq_ok.mp h
    cases h
    simp only [List.append_eq_nil_iff, checkName_eq_nil hversion, missingFields_eq_nil,
      checkLayout_eq_nil hlayout, checkOperatorInputs_eq_nil]
    constructor
    · rintro ⟨⟨⟨hversion, hfields⟩, hlayout⟩, hinputs⟩
      exact ⟨bundle, rfl, hversion, hfields, hlayout, hinputs⟩
    · rintro ⟨bundle', heq, hvalid⟩
      cases heq
      exact ⟨⟨⟨hvalid.version, hvalid.fields⟩, hvalid.layout⟩, hvalid.operatorInputs⟩
  all_goals
    cases h
    refine iff_of_false (List.cons_ne_nil _ _) ?_
    rintro ⟨bundle, heq, -⟩
    cases heq

/-- A document is judged rightly: there is a list of messages, and it is empty exactly when the
document is valid. -/
def Judged (doc : Json) : Prop :=
  ∃ errors, validate doc = .ok errors ∧ (errors = [] ↔ Valid doc)

/-- **The validator is total and exact on the documents whose names can be hashed**, and on no
others. -/
theorem judged_iff (doc : Json) : Judged doc ↔ Hashable doc := by
  rw [← validate_isOk, isOk_iff]
  constructor
  · rintro ⟨errors, h, -⟩
    exact ⟨errors, h⟩
  · rintro ⟨errors, h⟩
    exact ⟨errors, h, validate_eq_nil h⟩

end Messages

/-- A bundle whose version is a list. -/
def listVersion : Json := .obj (pair "lsml" (.arr []))

/-- **The validator raises on it.** -/
theorem listVersion_raises : letI := PyRepr.plain
    validate listVersion = .error .type ∧ ¬ Judged listVersion := by
  let := PyRepr.plain
  refine ⟨rfl, ?_⟩
  rintro ⟨errors, h, -⟩
  cases h

/-! ## Exit codes -/

section Exit

variable [PyRepr]

theorem failsOnly_validate (doc : Json) : FailsOnly (· = .type) (validate doc) := by
  rcases doc with _ | _ | _ | _ | _ | _ | bundle
  case obj =>
    rw [validate, failsOnly_bind]
    refine ⟨failsOnly_checkName, fun version _ => failsOnly_bind_pure.mpr ?_⟩
    rcases Json.get bundle "layout" with _ | _ | _ | _ | _ | _ | layout
    case obj => exact failsOnly_checkName
    all_goals exact failsOnly_ok _
  all_goals exact failsOnly_ok _

variable [PyParse]

/-- **What the command does with a document**: it says so of a valid one, lists what is wrong with
another, and passes on the `TypeError` of a name that cannot be hashed. -/
theorem run_cases {path text : PyStr} {doc : Json} (hloads : PyParse.loads text = .ok doc) :
    (Valid doc → run path (.text text) = .ok { code := 0, stdout := [path ++ ": OK"] }) ∧
      (¬ Valid doc → Hashable doc → ∃ error errors, run path (.text text) = .ok
        { code := 1, stderr := (error :: errors).map ("lumencast validate: " ++ ·) }) ∧
      (¬ Hashable doc → run path (.text text) = .error .type) := by
  have hrun : run path (.text text) = (validate doc).map (report path) := by
    rw [run, hloads]
  rw [hrun]
  rcases hvalidate : validate doc with e | errors
  · have hraised : ¬ Hashable doc := fun h => by
      rw [← validate_isOk, hvalidate] at h
      cases h
    obtain rfl := failsOnly_validate doc e hvalidate
    exact ⟨fun h => absurd (hashable_of_valid h) hraised, fun _ h => absurd h hraised, fun _ => rfl⟩
  · have hhashable : Hashable doc := validate_isOk.mp (isOk_iff.mpr ⟨errors, hvalidate⟩)
    have hnil := validate_eq_nil hvalidate
    refine ⟨fun h => ?_, fun h _ => ?_, fun h => absurd hhashable h⟩
    · rw [hnil.mpr h]
      rfl
    · obtain ⟨error, errors, rfl⟩ := List.exists_cons_of_ne_nil fun hempty => h (hnil.mp hempty)
      exact ⟨error, errors, rfl⟩

end Exit

end Lumencast.Validate
