import Lumencast.Machinery.Outcome
import Lumencast.Protocol.Decode

/-!
# Protocol/Declared — which failures of a decoder are declared ones

A decoder raises a `DecodeError` for whatever it checks itself, and lets the exceptions of `int()`,
`float()` and `dict()` through.  The conversions a text reaches are those of its fields up to the
first check that fails; `clientConverts` and `serverConverts` say of an envelope that each of them
is given a value it accepts.
-/

namespace Lumencast

open Machinery
open DecodeFailure (Declared)

/-! ## The conversions a frame reaches

A conversion counts only if the decoder gets as far as making it.  So these predicates follow the
order of the source: what stands behind a check that fails is not looked at. -/

section Converts

variable [PyParse]

namespace Json

/-- Nothing there, or a value `int()` accepts. -/
def intableOrNull : Json → Bool
  | .null => true
  | v => v.intable

/-- The checks of a transition: a known kind, and a known easing if there is one. -/
def transitionChecks (raw : List (PyStr × Json)) : Bool :=
  (TransitionKind.ofJson? (get raw "kind")).isSome
    && (lookup raw "easing").all fun v => (Easing.ofJson? v).isSome

/-- The conversions a transition reaches: its duration comes before the check of the easing, and its
two other numbers after it. -/
def transitionConverts : Json → Bool
  | .obj raw =>
      (TransitionKind.ofJson? (get raw "kind")).isNone
        || ((lookup raw "duration_ms").all intable
          && (!transitionChecks raw
            || ((lookup raw "stiffness").all floatable && (lookup raw "damping").all floatable)))
  | _ => true

/-- A value that is no transition, or one that passes its checks. -/
def transitionPasses : Json → Bool
  | .null => true
  | .obj raw => transitionChecks raw
  | _ => false

/-- The conversions an element of a patch list reaches. -/
def patchConverts : Json → Bool
  | .obj item => (lookup item "path").isNone || transitionConverts (get item "transition")
  | _ => true

/-- The checks of an element of a patch list. -/
def patchPasses : Json → Bool
  | .obj item => (lookup item "path").isSome && transitionPasses (get item "transition")
  | _ => false

/-- The conversions a list of patches reaches: the first element that fails a check ends it. -/
def itemsConvert : List Json → Bool
  | [] => true
  | item :: items => item.patchConverts && (!item.patchPasses || itemsConvert items)

/-- The conversions the `patches` of a frame reach. -/
def patchesConvert : Json → Bool
  | .arr items => itemsConvert items
  | _ => true

/-- The conversion the show-level transition of a `SceneChanged` reaches. -/
def sceneTransitionConverts : Json → Bool
  | .obj raw =>
      match get raw "kind" with
      | .str _ => (get raw "duration_ms").intableOrNull
      | _ => true
  | _ => true

end Json

/-- The conversions `decode_client` reaches in an envelope of type `t`. -/
def clientConverts (t : PyStr) (env : List (PyStr × Json)) : Bool :=
  if t = FRAME_SUBSCRIBE then (Json.get env "since_sequence").intableOrNull
  else if t = FRAME_INPUT then (Json.get env "patches").patchesConvert
  else true

/-- The conversions `decode_server` reaches in an envelope of type `t`. -/
def serverConverts (t : PyStr) (env : List (PyStr × Json)) : Bool :=
  let seq := (Json.getOr env "seq" (.int 0)).intable
  let state := Json.get env "state"
  if t = FRAME_SNAPSHOT then seq && (!state.truthy || state.dictable)
  else if t = FRAME_DELTA then seq && (Json.get env "patches").patchesConvert
  else if t = FRAME_SCENE_CHANGED then seq && (Json.get env "transition").sceneTransitionConverts
  else if t = FRAME_ERROR then seq && (retryOf env).intable
  else true

end Converts

/-! ## The conversions -/

/-- What a conversion raises is never declared. -/
theorem declared_mapError {α : Type} {x : Except Raised α} :
    FailsOnly Declared (x.mapError .raised) ↔ x.isOk = true := by
  rcases x with r | a
  · exact ⟨fun h => (h (.raised r) rfl).elim, fun h => nomatch h⟩
  · exact ⟨fun _ => rfl, fun _ => failsOnly_ok a⟩

theorem isOk_mapError {α : Type} {x : Except Raised α} :
    (x.mapError DecodeFailure.raised).isOk = x.isOk := by
  cases x <;> rfl

theorem isOk_parsePresent {α : Type} {parse : Json → Except DecodeFailure α} {P : Json → Bool}
    (hparse : ∀ v, (parse v).isOk = P v) (raw : List (PyStr × Json)) (k : PyStr) :
    (parsePresent parse raw k).isOk = (Json.lookup raw k).all P := by
  unfold parsePresent
  rcases Json.lookup raw k with _ | v
  · rfl
  · rw [Option.all_some, ← hparse v]
    dsimp only
    rcases parse v with e | a <;> rfl

theorem declared_parsePresent {α : Type} {parse : Json → Except DecodeFailure α} {P : Json → Bool}
    (hparse : ∀ v, FailsOnly Declared (parse v) ↔ P v = true) {raw : List (PyStr × Json)}
    {k : PyStr} :
    FailsOnly Declared (parsePresent parse raw k) ↔ (Json.lookup raw k).all P = true := by
  unfold parsePresent
  rcases Json.lookup raw k with _ | v
  · exact ⟨fun _ => rfl, fun _ => failsOnly_ok none⟩
  · rw [Option.all_some, ← hparse v]
    exact failsOnly_map

section Conversions

variable [PyParse]

theorem isOk_parseInt (v : Json) : (parseInt v).isOk = v.intable := by
  rw [parseInt, isOk_mapError, Json.toInt_isOk]

theorem declared_parseInt {v : Json} : FailsOnly Declared (parseInt v) ↔ v.intable = true := by
  rw [parseInt, declared_mapError, Json.toInt_isOk]

theorem isOk_parseFloat (v : Json) : (parseFloat v).isOk = v.floatable := by
  rw [parseFloat, isOk_mapError, Json.toFloat_isOk]

theorem declared_parseFloat {v : Json} :
    FailsOnly Declared (parseFloat v) ↔ v.floatable = true := by
  rw [parseFloat, declared_mapError, Json.toFloat_isOk]

theorem declared_parseIntOrNone {v : Json} :
    FailsOnly Declared (parseIntOrNone v) ↔ v.intableOrNull = true := by
  unfold parseIntOrNone Json.intableOrNull
  cases v
  case null => exact ⟨fun _ => rfl, fun _ => failsOnly_ok none⟩
  all_goals
    dsimp only
    rw [failsOnly_map]
    exact declared_parseInt

end Conversions

/-! ## The nested records -/

theorem declared_parseCause (v : Json) : FailsOnly Declared (parseCause v) := by
  unfold parseCause
  split
  · exact failsOnly_ok none
  · split
    · exact failsOnly_ok _
    · exact failsOnly_error.mpr trivial
  · exact failsOnly_error.mpr trivial

theorem isOk_parseEasing [PyRepr] (v : Json) : (parseEasing v).isOk = (Easing.ofJson? v).isSome := by
  unfold parseEasing
  cases Easing.ofJson? v <;> rfl

theorem declared_parseEasing [PyRepr] (v : Json) : FailsOnly Declared (parseEasing v) := by
  unfold parseEasing
  split
  · exact failsOnly_ok _
  · exact failsOnly_error.mpr trivial

section Records

variable [PyParse]

theorem declared_parseSceneTransition {v : Json} :
    FailsOnly Declared (parseSceneTransition v) ↔ v.sceneTransitionConverts = true := by
  unfold parseSceneTransition Json.sceneTransitionConverts
  rcases v with _ | b | n | x | s | xs | raw
  case null => exact ⟨fun _ => rfl, fun _ => failsOnly_ok none⟩
  case obj =>
    dsimp only
    rcases Json.get raw "kind" with _ | b | n | x | kind | xs | kvs
    case str =>
      dsimp only
      rw [failsOnly_bind_pure, declared_parseIntOrNone]
    all_goals exact ⟨fun _ => rfl, fun _ => failsOnly_error.mpr trivial⟩
  all_goals exact ⟨fun _ => rfl, fun _ => failsOnly_error.mpr trivial⟩

variable [PyRepr]

theorem declared_parseTransitionSpec {v : Json} :
    FailsOnly Declared (parseTransitionSpec v) ↔ v.transitionConverts = true := by
  rcases v with _ | b | n | x | s | xs | raw
  case obj =>
    unfold parseTransitionSpec Json.transitionConverts Json.transitionChecks
    dsimp only
    rcases TransitionKind.ofJson? (Json.get raw "kind") with _ | kind
    · exact ⟨fun _ => rfl, fun _ => failsOnly_error.mpr trivial⟩
    · have hdamping : ∀ durationMs easing stiffness, FailsOnly Declared (do
          let damping ← parsePresent parseFloat raw "damping"
          return some { kind, durationMs, easing, stiffness, damping : TransitionSpec }) ↔
          (Json.lookup raw "damping").all Json.floatable = true := fun _ _ _ => by
        rw [failsOnly_bind_pure, declared_parsePresent fun _ => declared_parseFloat]
      have heasing : FailsOnly Declared (parsePresent parseEasing raw "easing") := by
        unfold parsePresent
        split
        · exact failsOnly_ok _
        · exact failsOnly_map.mpr (declared_parseEasing _)
      dsimp only
      rw [failsOnly_bind_const fun _ _ => failsOnly_bind_const fun _ _ =>
          failsOnly_bind_const fun _ _ => hdamping _ _ _,
        declared_parsePresent fun _ => declared_parseInt, isOk_parsePresent isOk_parseInt,
        declared_parsePresent fun _ => declared_parseFloat, isOk_parsePresent isOk_parseFloat,
        isOk_parsePresent isOk_parseEasing]
      simp only [heasing, true_and, Option.isNone_some, Option.isSome_some, Bool.true_and,
        Bool.false_or, Bool.and_eq_true, Bool.or_eq_true, Bool.not_eq_true']
      grind
  case null => exact ⟨fun _ => rfl, fun _ => failsOnly_ok none⟩
  all_goals exact ⟨fun _ => rfl, fun _ => failsOnly_error.mpr trivial⟩

theorem isOk_parseTransitionSpec {v : Json} (h : v.transitionConverts = true) :
    (parseTransitionSpec v).isOk = v.transitionPasses := by
  rcases v with _ | b | n | x | s | xs | raw
  case obj =>
    unfold Json.transitionConverts at h
    unfold parseTransitionSpec Json.transitionPasses
    unfold Json.transitionChecks at h ⊢
    dsimp only at h ⊢
    rcases hkind : TransitionKind.ofJson? (Json.get raw "kind") with _ | kind
    · rfl
    · rw [hkind] at h
      dsimp only
      rw [isOk_bind_const fun _ _ => isOk_bind_const fun _ _ => isOk_bind_const fun _ _ =>
          isOk_bind_pure _ _,
        isOk_parsePresent isOk_parseInt, isOk_parsePresent isOk_parseEasing,
        isOk_parsePresent isOk_parseFloat, isOk_parsePresent isOk_parseFloat]
      simp only [Option.isNone_some, Option.isSome_some, Bool.false_or, Bool.true_and] at h ⊢
      grind
  all_goals rfl

theorem declared_parsePatch {i : ℕ} {v : Json} :
    FailsOnly Declared (parsePatch i v) ↔ v.patchConverts = true := by
  rcases v with _ | b | n | x | s | xs | item
  case obj =>
    unfold parsePatch Json.patchConverts
    dsimp only
    rcases Json.lookup item "path" with _ | path
    · exact ⟨fun _ => rfl, fun _ => failsOnly_error.mpr trivial⟩
    · dsimp only
      rw [failsOnly_bind_pure, declared_parseTransitionSpec, Option.isNone_some, Bool.false_or]
  all_goals exact ⟨fun _ => rfl, fun _ => failsOnly_error.mpr trivial⟩

theorem isOk_parsePatch {i : ℕ} {v : Json} (h : v.patchConverts = true) :
    (parsePatch i v).isOk = v.patchPasses := by
  rcases v with _ | b | n | x | s | xs | item
  case obj =>
    unfold Json.patchConverts at h
    unfold parsePatch Json.patchPasses
    dsimp only at h ⊢
    rcases hpath : Json.lookup item "path" with _ | path
    · rfl
    · rw [hpath, Option.isNone_some, Bool.false_or] at h
      dsimp only
      rw [isOk_bind_pure, isOk_parseTransitionSpec h, Option.isSome_some, Bool.true_and]
  all_goals rfl

/-- The loop over the elements: what comes after an element counts if the element passes. -/
theorem declared_parsePatchesFrom : ∀ {items : List Json} {i : ℕ},
    FailsOnly Declared (parsePatchesFrom i items) ↔ Json.itemsConvert items = true
  | [], _ => ⟨fun _ => rfl, fun _ => failsOnly_ok []⟩
  | item :: items, i => by
      have hrest : ∀ p : Patch, FailsOnly Declared (do
          let ps ← parsePatchesFrom (i + 1) items
          return p :: ps) ↔ Json.itemsConvert items = true := fun p => by
        rw [failsOnly_bind_pure, declared_parsePatchesFrom]
      rw [parsePatchesFrom, failsOnly_bind_const fun p _ => hrest p, declared_parsePatch,
        Json.itemsConvert, Bool.and_eq_true]
      refine and_congr_right fun hconverts => ?_
      rw [isOk_parsePatch hconverts, Bool.or_eq_true, Bool.not_eq_true']
      rcases item.patchPasses with _ | _
      · exact ⟨fun _ => Or.inl rfl, fun _ h => nomatch h⟩
      · exact ⟨fun h => Or.inr (h rfl), fun h _ => h.resolve_left (Bool.noConfusion ·)⟩

theorem declared_parsePatches {v : Json} :
    FailsOnly Declared (parsePatches v) ↔ v.patchesConvert = true := by
  rcases v with _ | b | n | x | s | items | raw
  case null => exact ⟨fun _ => rfl, fun _ => failsOnly_ok []⟩
  case arr => exact declared_parsePatchesFrom
  all_goals exact ⟨fun _ => rfl, fun _ => failsOnly_error.mpr trivial⟩

end Records

/-! ## The frames -/

section Frames

variable {env : List (PyStr × Json)}

theorem declared_parseState : FailsOnly Declared (parseState env) ↔
    (!(Json.get env "state").truthy || (Json.get env "state").dictable) = true := by
  unfold parseState
  dsimp only
  rcases (Json.get env "state").truthy with _ | _
  · exact ⟨fun _ => rfl, fun _ => failsOnly_ok _⟩
  · rw [if_pos rfl, declared_mapError, Json.toDict_isOk]
    rfl

variable [PyParse]

theorem declared_parseSubscribe : FailsOnly Declared (parseSubscribe env) ↔
    (Json.get env "since_sequence").intableOrNull = true := by
  rw [parseSubscribe, failsOnly_bind_pure, declared_parseIntOrNone]

/-- The frames that start with their number: what follows counts if the number converts. -/
theorem declared_numbered {α : Type} {f : ℤ → Except DecodeFailure α} {b : Bool}
    (hf : ∀ seq, FailsOnly Declared (f seq) ↔ b = true) : FailsOnly Declared (parseSeq env >>= f) ↔
      ((Json.getOr env "seq" (.int 0)).intable && b) = true := by
  rw [failsOnly_bind_const fun seq _ => hf seq, parseSeq, declared_parseInt, isOk_parseInt,
    Bool.and_eq_true]
  exact and_congr_right fun h => ⟨fun hb => hb h, fun hb _ => hb⟩

theorem declared_parseSnapshot : FailsOnly Declared (parseSnapshot env) ↔
    ((Json.getOr env "seq" (.int 0)).intable
      && (!(Json.get env "state").truthy || (Json.get env "state").dictable)) = true := by
  refine declared_numbered fun seq => ?_
  rw [failsOnly_bind_const (C := True), declared_parseState]
  · exact and_iff_left fun _ => trivial
  · intro state _
    cases state <;> exact iff_true_intro (failsOnly_pure _)

theorem declared_parseSceneChanged : FailsOnly Declared (parseSceneChanged env) ↔
    ((Json.getOr env "seq" (.int 0)).intable
      && (Json.get env "transition").sceneTransitionConverts) = true := by
  refine declared_numbered fun seq => ?_
  rw [failsOnly_bind_pure, declared_parseSceneTransition]

theorem declared_parseErrorFrame : FailsOnly Declared (parseErrorFrame env) ↔
    ((Json.getOr env "seq" (.int 0)).intable && (retryOf env).intable) = true := by
  refine declared_numbered fun seq => ?_
  rw [failsOnly_bind_pure, declared_parseInt]

variable [PyRepr]

theorem declared_parseInput : FailsOnly Declared (parseInput env) ↔
    (Json.get env "patches").patchesConvert = true := by
  rw [parseInput, failsOnly_bind_pure, declared_parsePatches]

theorem declared_parseDelta : FailsOnly Declared (parseDelta env) ↔
    ((Json.getOr env "seq" (.int 0)).intable
      && (Json.get env "patches").patchesConvert) = true := by
  refine declared_numbered fun seq => ?_
  have hcause : ∀ patches, FailsOnly Declared (do
      let cause ← parseCause (Json.get env "cause")
      return { patches, seq, ts := tsOf env, cause : Delta }) := fun patches =>
    failsOnly_bind.mpr ⟨declared_parseCause _, fun _ _ => failsOnly_pure _⟩
  rw [failsOnly_bind_const (C := True) fun patches _ => iff_true_intro (hcause patches),
    declared_parsePatches]
  exact and_iff_left fun _ => trivial

theorem declared_clientFrame {t : PyStr} {env : List (PyStr × Json)} :
    FailsOnly Declared (clientFrame t env) ↔ clientConverts t env = true := by
  unfold clientFrame clientConverts
  split
  · rw [failsOnly_map]
    exact declared_parseSubscribe
  · split
    · rw [failsOnly_map]
      exact declared_parseInput
    · refine ⟨fun _ => rfl, fun _ => ?_⟩
      split
      · exact failsOnly_ok _
      · split
        · exact failsOnly_ok _
        · split
          · exact failsOnly_ok _
          · exact failsOnly_error.mpr trivial

theorem declared_serverFrame {t : PyStr} {env : List (PyStr × Json)} :
    FailsOnly Declared (serverFrame t env) ↔ serverConverts t env = true := by
  unfold serverFrame serverConverts
  dsimp only
  split
  · exact declared_parseSnapshot
  · split
    · rw [failsOnly_map]
      exact declared_parseDelta
    · split
      · rw [failsOnly_map]
        exact declared_parseSceneChanged
      · split
        · rw [failsOnly_map]
          exact declared_parseErrorFrame
        · refine ⟨fun _ => rfl, fun _ => ?_⟩
          split
          · exact failsOnly_ok _
          · split
            · exact failsOnly_ok _
            · exact failsOnly_error.mpr trivial

end Frames

/-! ## The decoders -/

section Decoders

variable [PyParse]

/-- The text of a frame is an envelope of type `t`: an object of the right version, with a type. -/
structure Carries (raw : Raw) (t : PyStr) (env : List (PyStr × Json)) : Prop where
  loads : ∃ s, raw.toText = .ok s ∧ PyParse.loads s = .ok (.obj env)
  version : (Json.get env "v").number? = some 1
  type : Json.lookup env "type" = some (.str t)

theorem decodeJson_eq_ok {raw : Raw} {env : List (PyStr × Json)} :
    decodeJson raw = .ok env ↔ ∃ s, raw.toText = .ok s ∧ PyParse.loads s = .ok (.obj env) := by
  rw [decodeJson, bind_eq_ok]
  refine exists_congr fun s => and_congr_right fun _ => ?_
  rw [bind_eq_ok]
  constructor
  · rintro ⟨obj, hloads, hobj⟩
    rcases obj with _ | b | n | x | s | xs | kvs
    case obj =>
      cases hobj
      exact hloads
    all_goals cases hobj
  · exact fun hloads => ⟨_, hloads, rfl⟩

variable [PyRepr]

theorem parseEnvelope_eq_ok {raw : Raw} {t : PyStr} {env : List (PyStr × Json)} :
    parseEnvelope raw = .ok (t, env) ↔ Carries raw t env := by
  constructor
  · intro h
    unfold parseEnvelope at h
    split at h
    · cases h
    · rename_i hjson
      dsimp only at h
      split at h
      · rename_i hv
        split at h
        · rename_i htype
          cases h
          exact ⟨decodeJson_eq_ok.mp hjson, hv, htype⟩
        · cases h
      · cases h
  · intro h
    unfold parseEnvelope
    rw [decodeJson_eq_ok.mpr h.loads]
    dsimp only
    rw [if_pos h.version, h.type]

theorem declared_parseEnvelope (raw : Raw) : FailsOnly Declared (parseEnvelope raw) := by
  unfold parseEnvelope
  split
  · exact failsOnly_error.mpr trivial
  · dsimp only
    split
    · split
      · exact failsOnly_ok _
      · exact failsOnly_error.mpr trivial
    · exact failsOnly_error.mpr trivial

/-- A decoder reads the frame out of the envelope, and the envelope fails in the declared way. -/
theorem declared_ofEnvelope {α : Type} {raw : Raw}
    {frame : PyStr → List (PyStr × Json) → Except DecodeFailure α}
    {converts : PyStr → List (PyStr × Json) → Bool}
    (hframe : ∀ {t env}, FailsOnly Declared (frame t env) ↔ converts t env = true) :
    FailsOnly Declared (parseEnvelope raw >>= fun e => frame e.1 e.2) ↔
      ∀ t env, Carries raw t env → converts t env = true := by
  rw [failsOnly_bind]
  constructor
  · exact fun h t env hcarries => hframe.mp (h.2 (t, env) (parseEnvelope_eq_ok.mpr hcarries))
  · exact fun h => ⟨declared_parseEnvelope raw, fun e he =>
      hframe.mpr (h e.1 e.2 (parseEnvelope_eq_ok.mp he))⟩

/-- **`decode_client` fails in the declared way** exactly when every conversion it reaches is given
a value it accepts. -/
theorem declared_decodeClient {raw : Raw} : FailsOnly Declared (decodeClient raw) ↔
    ∀ t env, Carries raw t env → clientConverts t env = true :=
  declared_ofEnvelope declared_clientFrame

/-- **`decode_server` fails in the declared way** exactly when every conversion it reaches is given
a value it accepts. -/
theorem declared_decodeServer {raw : Raw} : FailsOnly Declared (decodeServer raw) ↔
    ∀ t env, Carries raw t env → serverConverts t env = true :=
  declared_ofEnvelope declared_serverFrame

end Decoders

end Lumencast
