import Lumencast.Machinery.Outcome
import Lumencast.Protocol.Decode
import Lumencast.Protocol.Text

/-!
# Protocol/RoundTrip — decoding what was encoded

The encoder leaves a field out by truth in some places and by `None`-ness in others, and the
decoders fill it in again.  One lemma for each way a field is written says what it is read back as;
a frame is read back field by field.
-/

namespace Lumencast

open Machinery

namespace Json

/-- A string, or `None`. -/
def isStrOrNull : Json → Bool
  | .null => true
  | v => v.isStr

end Json

/-! ## What a well-typed frame is

The dataclasses declare more than Python enforces.  `WellTyped` is what they declare as far as
decoding needs it; `Settled` is the weaker condition that anything decoded meets. -/

/-- The field types of the dataclasses, where a field may hold any value here.  A `from_scene_id` is
a non-empty string, if there is one. -/
def Frame.WellTyped : Frame → Prop
  | .snapshot f => f.sceneId.isStr = true ∧ f.sceneVersion.isStr = true ∧ f.ts.isStr = true
  | .delta f => f.ts.isStr = true ∧ ∀ c, f.cause = some c → c.inputId.isStrOrNull = true
  | .sceneChanged f => f.sceneId.isStr = true ∧ f.sceneVersion.isStr = true ∧ f.ts.isStr = true ∧
      f.fromSceneId.isStrOrNull = true ∧ f.fromSceneId.isText "" = false
  | .error f => f.code.isStr = true ∧ f.message.isStr = true ∧ f.ts.isStr = true ∧
      f.path.isStrOrNull = true
  | .pong nonce => nonce.isStrOrNull = true
  | .ping nonce => nonce.isStrOrNull = true
  | .subscribe f => f.token.isStr = true ∧ f.scene.isStr = true ∧ f.session.isStr = true
  | .input f => f.clientMsgId.isStrOrNull = true
  | .unsubscribe => True

/-- A value `v or ""` can be. -/
def Json.Settled (v : Json) : Prop := v.truthy = true ∨ v = .str ""

/-- What a decoder leaves: the optional fields behind an `or ""` are settled, and a `from_scene_id`
the encoder would leave out is absent. -/
def Frame.Settled : Frame → Prop
  | .snapshot f => f.ts.Settled
  | .delta f => f.ts.Settled
  | .sceneChanged f => f.ts.Settled ∧ (f.fromSceneId.truthy = true ∨ f.fromSceneId = .null)
  | .error f => f.ts.Settled
  | .subscribe f => f.scene.Settled ∧ f.session.Settled
  | _ => True

theorem Json.settled_of_isStr {v : Json} (h : v.isStr = true) : v.Settled := by
  rcases v with _ | _ | _ | _ | s | _ | _
  case str =>
    by_cases hs : s = ""
    · exact Or.inr (congrArg Json.str hs)
    · exact Or.inl (bne_iff_ne.mpr hs)
  all_goals cases h

theorem Frame.WellTyped.settled {f : Frame} (h : f.WellTyped) : f.Settled := by
  rcases f with f | f | f | f | nonce | nonce | f | f | _
  case snapshot => exact Json.settled_of_isStr h.2.2
  case delta => exact Json.settled_of_isStr h.1
  case sceneChanged =>
    obtain ⟨-, -, hts, hfrom, hnonempty⟩ := h
    refine ⟨Json.settled_of_isStr hts, ?_⟩
    generalize f.fromSceneId = v at hfrom hnonempty ⊢
    rcases v with _ | _ | _ | _ | s | _ | _
    case null => exact Or.inr rfl
    case str => exact Or.inl (bne_iff_ne.mpr (beq_eq_false_iff_ne.mp hnonempty))
    all_goals cases hfrom
  case error => exact Json.settled_of_isStr h.2.2.1
  case subscribe => exact ⟨Json.settled_of_isStr h.2.1, Json.settled_of_isStr h.2.2⟩
  all_goals trivial

namespace Frame

/-- The `type` of a frame. -/
def tag : Frame → PyStr
  | .snapshot _ => FRAME_SNAPSHOT
  | .delta _ => FRAME_DELTA
  | .sceneChanged _ => FRAME_SCENE_CHANGED
  | .error _ => FRAME_ERROR
  | .pong _ => FRAME_PONG
  | .ping _ => FRAME_PING
  | .subscribe _ => FRAME_SUBSCRIBE
  | .input _ => FRAME_INPUT
  | .unsubscribe => FRAME_UNSUBSCRIBE

/-- The frames a server sends. -/
def ofServer : Frame → Bool
  | .subscribe _ => false
  | .input _ => false
  | .unsubscribe => false
  | _ => true

/-- The frames a client sends. -/
def ofClient : Frame → Bool
  | .pong _ => true
  | .ping _ => true
  | f => !f.ofServer

end Frame

/-! ## Fields

A field is written always, or if it is true, or if it is not `None`.  Each of the three has its
lemma about what is found under its name again. -/

namespace Json

variable {k k' : PyStr} {v : Json} {b : Bool}

@[simp] theorem lookup_append (kvs kvs' : List (PyStr × Json)) (k : PyStr) :
    lookup (kvs ++ kvs') k = (lookup kvs k).or (lookup kvs' k) :=
  Dict.find_append k kvs' kvs

@[simp] theorem lookup_pair_self : lookup (pair k v) k = some v := by
  unfold lookup pair Dict.find
  rw [if_pos rfl]

@[simp] theorem lookup_pair_of_ne (h : k ≠ k') : lookup (pair k v) k' = none := by
  unfold lookup pair Dict.find
  rw [if_neg h]
  rfl

@[simp] theorem lookup_pairIf_self : lookup (pairIf b k v) k = if b then some v else none := by
  rcases b with _ | _
  · rfl
  · exact lookup_pair_self

@[simp] theorem lookup_pairIf_of_ne (h : k ≠ k') : lookup (pairIf b k v) k' = none := by
  rcases b with _ | _
  · rfl
  · exact lookup_pair_of_ne h

@[simp] theorem lookup_pairSome_self {α : Type} (toJson : α → Json) (a : Option α) :
    lookup (pairSome k toJson a) k = a.map toJson := by
  rcases a with _ | a
  · rfl
  · exact lookup_pair_self

@[simp] theorem lookup_pairSome_of_ne {α : Type} (h : k ≠ k') (toJson : α → Json) (a : Option α) :
    lookup (pairSome k toJson a) k' = none := by
  rcases a with _ | a
  · rfl
  · exact lookup_pair_of_ne h

theorem get_pairNotNone_self : (lookup (pairNotNone k v) k).getD .null = v := by
  cases v
  case null => rfl
  all_goals exact congrArg (Option.getD · Json.null) lookup_pair_self

@[simp] theorem lookup_pairNotNone_of_ne (h : k ≠ k') : lookup (pairNotNone k v) k' = none := by
  cases v
  case null => rfl
  all_goals exact lookup_pair_of_ne h

@[simp] theorem lookup_envelope_of_ne {type : PyStr} (hv : "v" ≠ k) (htype : "type" ≠ k) :
    lookup (envelope type) k = none := by
  unfold lookup envelope Dict.find Dict.find
  rw [if_neg hv, if_neg htype]
  rfl

theorem get_eq {kvs : List (PyStr × Json)} : get kvs k = (lookup kvs k).getD .null := rfl

/-- A settled value is written if it is true, and read back either way. -/
theorem orEmpty_ite (h : v.Settled) :
    (Option.getD (if v.truthy = true then some v else none) (.str "")).orEmpty = v := by
  by_cases htruthy : v.truthy = true
  · rw [if_pos htruthy, Option.getD_some, orEmpty, if_pos htruthy]
  · rw [if_neg htruthy, h.resolve_left htruthy]
    rfl

end Json

/-! ## The nested records -/

theorem TransitionKind.ofJson?_wire (kind : TransitionKind) :
    TransitionKind.ofJson? (.str kind.wire) = some kind := by
  cases kind <;> rfl

theorem Easing.ofJson?_wire (easing : Easing) :
    Easing.ofJson? (.str easing.wire) = some easing := by
  cases easing <;> rfl

theorem parsePresent_map {α : Type} {parse : Json → Except DecodeFailure α} {toJson : α → Json}
    (hparse : ∀ a, parse (toJson a) = .ok a) {raw : List (PyStr × Json)} {k : PyStr} {o : Option α}
    (ho : Json.lookup raw k = o.map toJson) : parsePresent parse raw k = .ok o := by
  unfold parsePresent
  rw [ho]
  rcases o with _ | a
  · rfl
  · exact (congrArg (Except.map some) (hparse a))

theorem parseCause_toDict (c : Cause) : parseCause (causeToDict c) = .ok (some c) := by
  have hsource : Json.get (pair "source" (.str c.source) ++ pairNotNone "input_id" c.inputId)
      "source" = .str c.source := rfl
  have hid : Json.get (pair "source" (.str c.source) ++ pairNotNone "input_id" c.inputId)
      "input_id" = c.inputId := Json.get_pairNotNone_self
  unfold parseCause causeToDict
  dsimp only
  rw [hsource, hid]

section Records

variable [PyParse]

theorem parseInt_int (n : ℤ) : parseInt (.int n) = .ok n := rfl

theorem parseFloat_float (x : PyFloat) : parseFloat (.float x) = .ok x := rfl

theorem parseIntOrNone_map (o : Option ℤ) :
    parseIntOrNone ((o.map Json.int).getD .null) = .ok o := by
  cases o <;> rfl

theorem parseSceneTransition_toDict (t : SceneTransition) :
    parseSceneTransition (sceneTransitionToDict t) = .ok (some t) := by
  have hkind : Json.get (pair "kind" (.str t.kind) ++ pairSome "duration_ms" .int t.durationMs)
      "kind" = .str t.kind := rfl
  have hduration : Json.get (pair "kind" (.str t.kind) ++ pairSome "duration_ms" .int t.durationMs)
      "duration_ms" = (t.durationMs.map .int).getD .null :=
    congrArg (Option.getD · Json.null) (Json.lookup_pairSome_self ..)
  unfold parseSceneTransition sceneTransitionToDict
  dsimp only
  rw [hkind, hduration]
  dsimp only
  rw [parseIntOrNone_map]
  rfl

variable [PyRepr]

theorem parseTransitionSpec_toDict (t : TransitionSpec) :
    parseTransitionSpec (transitionSpecToDict t) = .ok (some t) := by
  have hkind (rest : List (PyStr × Json)) :
      Json.get (pair "kind" (.str t.kind.wire) ++ rest) "kind" = .str t.kind.wire := rfl
  have heasing (easing : Easing) : parseEasing (.str easing.wire) = .ok easing := by
    rw [parseEasing, Easing.ofJson?_wire]
  unfold parseTransitionSpec transitionSpecToDict
  dsimp only
  rw [List.append_assoc, List.append_assoc, List.append_assoc, hkind, TransitionKind.ofJson?_wire,
    parsePresent_map (o := t.durationMs) parseInt_int,
    parsePresent_map (o := t.easing) heasing,
    parsePresent_map (o := t.stiffness) parseFloat_float,
    parsePresent_map (o := t.damping) parseFloat_float]
  · rfl
  all_goals simp (disch := decide)

theorem parsePatch_toDict (i : ℕ) (p : Patch) : parsePatch i (patchToDict p) = .ok p := by
  have htransition : parseTransitionSpec ((p.transition.map transitionSpecToDict).getD .null) =
      .ok p.transition := by
    rcases p.transition with _ | t
    · rfl
    · exact parseTransitionSpec_toDict t
  have hget : ∀ rest, Json.get (pair "path" (.str p.path) ++ pair "value" p.value ++ rest)
      "transition" = Json.get rest "transition" := fun _ => rfl
  unfold parsePatch patchToDict
  dsimp only
  rw [hget, Json.get_eq, Json.lookup_pairSome_self, htransition]
  rfl

theorem parsePatchesFrom_toDict : ∀ (i : ℕ) (ps : List Patch),
    parsePatchesFrom i (ps.map patchToDict) = .ok ps
  | _, [] => rfl
  | i, p :: ps => by
      rw [List.map_cons, parsePatchesFrom, parsePatch_toDict, parsePatchesFrom_toDict (i + 1) ps]
      rfl

end Records

/-! ## The frames -/

/-- The envelope of an encoded frame. -/
theorem envelope_frameToDict (f : Frame) :
    Json.lookup (frameToDict f) "v" = some (.int VERSION) ∧
      Json.lookup (frameToDict f) "type" = some (.str f.tag) := by
  cases f <;> exact ⟨rfl, rfl⟩

section Numbers

variable [PyParse]

theorem parseSubscribe_toDict {f : Subscribe} (hscene : f.scene.Settled)
    (hsession : f.session.Settled) :
    parseSubscribe (frameToDict (.subscribe f)) = .ok f := by
  have hsince : Json.get (frameToDict (.subscribe f)) "since_sequence" =
      (f.sinceSequence.map .int).getD .null := by
    simp (disch := decide) [Json.get, frameToDict]
  have htoken : Json.getOr (frameToDict (.subscribe f)) "token" (.str "") = f.token := rfl
  have hscene' : (Json.getOr (frameToDict (.subscribe f)) "scene" (.str "")).orEmpty = f.scene := by
    rw [← Json.orEmpty_ite hscene]
    simp (disch := decide) [Json.getOr, frameToDict]
  have hsession' : (Json.getOr (frameToDict (.subscribe f)) "session" (.str "")).orEmpty =
      f.session := by
    rw [← Json.orEmpty_ite hsession]
    simp (disch := decide) [Json.getOr, frameToDict]
  rw [parseSubscribe, hsince, parseIntOrNone_map, htoken, hscene', hsession']
  rfl

theorem parseSnapshot_toDict {f : Snapshot} (hts : f.ts.Settled) :
    parseSnapshot (frameToDict (.snapshot f)) = .ok (.frame (.snapshot f)) := by
  have hseq : parseSeq (frameToDict (.snapshot f)) = .ok f.seq := rfl
  have hstate : parseState (frameToDict (.snapshot f)) = .ok (.named f.state) := by
    have hget : Json.get (frameToDict (.snapshot f)) "state" = .obj f.state.entries := rfl
    rw [parseState, hget]
    split
    · rw [Json.toDict, Dict.ofList_entries]
      rfl
    · rename_i hempty
      have hnil : f.state.entries = [] := by
        rw [Json.truthy, Bool.not_eq_true, Bool.not_eq_false'] at hempty
        exact List.isEmpty_iff.mp hempty
      have hdict : f.state = .empty := Dict.ext hnil
      rw [hdict]
  have hts' : tsOf (frameToDict (.snapshot f)) = f.ts := by
    rw [← Json.orEmpty_ite hts]
    simp (disch := decide) [tsOf, Json.getOr, frameToDict]
  rw [parseSnapshot, hseq, hstate, hts']
  rfl

theorem parseSceneChanged_toDict {f : SceneChanged} (hts : f.ts.Settled)
    (hfrom : f.fromSceneId.truthy = true ∨ f.fromSceneId = .null) :
    parseSceneChanged (frameToDict (.sceneChanged f)) = .ok f := by
  have hseq : parseSeq (frameToDict (.sceneChanged f)) = .ok f.seq := rfl
  have htransition : parseSceneTransition
      (Json.get (frameToDict (.sceneChanged f)) "transition") = .ok f.transition := by
    have hget : Json.get (frameToDict (.sceneChanged f)) "transition" =
        (f.transition.map sceneTransitionToDict).getD .null := by
      simp (disch := decide) [Json.get, frameToDict]
    rw [hget]
    rcases f.transition with _ | t
    · rfl
    · exact parseSceneTransition_toDict t
  have hts' : tsOf (frameToDict (.sceneChanged f)) = f.ts := by
    rw [← Json.orEmpty_ite hts]
    simp (disch := decide) [tsOf, Json.getOr, frameToDict]
  have hfrom' : Json.get (frameToDict (.sceneChanged f)) "from_scene_id" = f.fromSceneId := by
    have hget : Json.get (frameToDict (.sceneChanged f)) "from_scene_id" =
        Option.getD (if f.fromSceneId.truthy = true then some f.fromSceneId else none) .null := by
      simp (disch := decide) [Json.get, frameToDict]
    rw [hget]
    rcases hfrom with htruthy | hnull
    · rw [if_pos htruthy, Option.getD_some]
    · rw [hnull]
      rfl
  rw [parseSceneChanged, hseq, htransition, hts', hfrom']
  rfl

theorem parseErrorFrame_toDict {f : ErrorFrame} (hts : f.ts.Settled) :
    parseErrorFrame (frameToDict (.error f)) = .ok f := by
  have hseq : parseSeq (frameToDict (.error f)) = .ok f.seq := rfl
  have hretry : retryOf (frameToDict (.error f)) = .int f.retryAfterMs := by
    have hget : Json.getOr (frameToDict (.error f)) "retry_after_ms" (.int 0) =
        Option.getD (if (f.retryAfterMs != 0) = true then some (.int f.retryAfterMs) else none)
          (.int 0) := by
      simp (disch := decide) only [Json.getOr, frameToDict, Json.lookup_append,
        Json.lookup_pair_of_ne, Json.lookup_pairIf_self, Json.lookup_pairIf_of_ne,
        Json.lookup_pairNotNone_of_ne, Json.lookup_envelope_of_ne, Option.none_or, Option.or_none]
    rw [retryOf, hget]
    by_cases hzero : f.retryAfterMs = 0
    · rw [hzero]
      rfl
    · have htruthy : (f.retryAfterMs != 0) = true := bne_iff_ne.mpr hzero
      rw [if_pos htruthy, Option.getD_some]
      exact if_pos htruthy
  have hts' : tsOf (frameToDict (.error f)) = f.ts := by
    rw [← Json.orEmpty_ite hts]
    simp (disch := decide) [tsOf, Json.getOr, frameToDict]
  have hpath : Json.get (frameToDict (.error f)) "path" = f.path := by
    rw [Json.get, frameToDict, Json.lookup_append]
    simp (disch := decide) only [Json.lookup_append,
      Json.lookup_pair_of_ne, Json.lookup_pairIf_of_ne, Json.lookup_envelope_of_ne, Option.none_or]
    exact Json.get_pairNotNone_self
  rw [parseErrorFrame, hseq, hretry, hts', hpath, parseInt_int]
  rfl

end Numbers

section Frames

variable [PyRepr] [PyParse]

theorem parseInput_toDict (f : Input) : parseInput (frameToDict (.input f)) = .ok f := by
  have hpatches : Json.get (frameToDict (.input f)) "patches" =
      .arr (f.patches.map patchToDict) := rfl
  have hid : Json.get (frameToDict (.input f)) "client_msg_id" = f.clientMsgId :=
    Json.get_pairNotNone_self
  rw [parseInput, hpatches, parsePatches, parsePatchesFrom_toDict, hid]
  rfl

theorem parseDelta_toDict {f : Delta} (hts : f.ts.Settled) :
    parseDelta (frameToDict (.delta f)) = .ok f := by
  have hseq : parseSeq (frameToDict (.delta f)) = .ok f.seq := rfl
  have hpatches : Json.get (frameToDict (.delta f)) "patches" =
      .arr (f.patches.map patchToDict) := rfl
  have hcause : parseCause (Json.get (frameToDict (.delta f)) "cause") = .ok f.cause := by
    have hget : Json.get (frameToDict (.delta f)) "cause" =
        (f.cause.map causeToDict).getD .null := by
      simp (disch := decide) [Json.get, frameToDict]
    rw [hget]
    rcases f.cause with _ | c
    · rfl
    · exact parseCause_toDict c
  have hts' : tsOf (frameToDict (.delta f)) = f.ts := by
    rw [← Json.orEmpty_ite hts]
    simp (disch := decide) [tsOf, Json.getOr, frameToDict]
  rw [parseDelta, hseq, hpatches, parsePatches, parsePatchesFrom_toDict, hcause, hts']
  rfl

/-- **Decoding undoes encoding**, for the frames a client sends. -/
theorem clientFrame_toDict {f : Frame} (hsettled : f.Settled) (hclient : f.ofClient = true) :
    clientFrame f.tag (frameToDict f) = .ok f := by
  rcases f with f | f | f | f | nonce | nonce | f | f | _
  case pong => exact congrArg (fun v => Except.ok (Frame.pong v)) Json.get_pairNotNone_self
  case ping => exact congrArg (fun v => Except.ok (Frame.ping v)) Json.get_pairNotNone_self
  case subscribe =>
    exact congrArg (Except.map Frame.subscribe) (parseSubscribe_toDict hsettled.1 hsettled.2)
  case input => exact congrArg (Except.map Frame.input) (parseInput_toDict f)
  case unsubscribe => rfl
  all_goals cases hclient

/-- **Decoding undoes encoding**, for the frames a server sends. -/
theorem serverFrame_toDict {f : Frame} (hsettled : f.Settled) (hserver : f.ofServer = true) :
    serverFrame f.tag (frameToDict f) = .ok (.frame f) := by
  rcases f with f | f | f | f | nonce | nonce | f | f | _
  case snapshot => exact parseSnapshot_toDict hsettled
  case delta => exact congrArg (Except.map _) (parseDelta_toDict hsettled)
  case sceneChanged =>
    exact congrArg (Except.map _) (parseSceneChanged_toDict hsettled.1 hsettled.2)
  case error => exact congrArg (Except.map _) (parseErrorFrame_toDict hsettled)
  case pong =>
    exact congrArg (fun v => Except.ok (Decoded.frame (.pong v))) Json.get_pairNotNone_self
  case ping =>
    exact congrArg (fun v => Except.ok (Decoded.frame (.ping v))) Json.get_pairNotNone_self
  all_goals cases hserver

/-- The envelope of a text that is read as the object of a frame. -/
theorem parseEnvelope_of_loads {f : Frame} {text : PyStr}
    (hloads : PyParse.loads text = .ok (.obj (frameToDict f))) :
    parseEnvelope (.text text) = .ok (f.tag, frameToDict f) := by
  obtain ⟨hv, htype⟩ := envelope_frameToDict f
  have hjson : decodeJson (.text text) = .ok (frameToDict f) := by
    rw [decodeJson, Raw.toText]
    change (PyParse.loads text >>= _) = _
    rw [hloads]
    rfl
  unfold parseEnvelope
  rw [hjson]
  dsimp only
  rw [Json.get, hv, htype]
  rfl

/-- A client's frame is read back from its object. -/
theorem decodeClient_of_loads {f : Frame} {text : PyStr} (hsettled : f.Settled)
    (hclient : f.ofClient = true) (hloads : PyParse.loads text = .ok (.obj (frameToDict f))) :
    decodeClient (.text text) = .ok f := by
  rw [decodeClient, parseEnvelope_of_loads hloads]
  exact clientFrame_toDict hsettled hclient

/-- A server's frame is read back from its object. -/
theorem decodeServer_of_loads {f : Frame} {text : PyStr} (hsettled : f.Settled)
    (hserver : f.ofServer = true) (hloads : PyParse.loads text = .ok (.obj (frameToDict f))) :
    decodeServer (.text text) = .ok (.frame f) := by
  rw [decodeServer, parseEnvelope_of_loads hloads]
  exact serverFrame_toDict hsettled hserver

end Frames

end Lumencast
