import Lumencast.Protocol.Codec
import Lumencast.Protocol.Convert

/-!
# Protocol/Decode — frames off the wire

`decode_client` and `decode_server`, from the text to the frame.  The fields of a frame are read in
the order of the source, and the first failure is the one that is raised.
-/

namespace Lumencast

open Machinery

/-- What a decoder raises. -/
inductive DecodeFailure where
  /-- `DecodeError` itself. -/
  | decode (message : PyStr)
  /-- `VersionMismatchError`. -/
  | versionMismatch (message : PyStr)
  /-- `UnknownTypeError`. -/
  | unknownType (message : PyStr)
  /-- An exception of `int()`, `float()` or `dict()`, which nothing catches. -/
  | raised (r : Raised)

/-- A `DecodeError`, or one of its two subclasses. -/
def DecodeFailure.Declared : DecodeFailure → Prop
  | .raised _ => False
  | _ => True

/-- What a decoder is given. -/
inductive Raw where
  | text (s : PyStr)
  | bytes (b : ByteArray)

/-- What `decode_server` returns: a frame, or a `Snapshot` whose state is keyed by other values than
strings, which no frame type declares. -/
inductive Decoded where
  | frame (f : Frame)
  | keyedSnapshot (seq : ℤ) (ts sceneId sceneVersion : Json) (state : List (Json × Json))

namespace Json

/-- `kvs.get(k)`. -/
def get (kvs : List (PyStr × Json)) (k : PyStr) : Json := (lookup kvs k).getD .null

/-- `kvs.get(k, default)`. -/
def getOr (kvs : List (PyStr × Json)) (k : PyStr) (default : Json) : Json :=
  (lookup kvs k).getD default

/-- `v or ""`. -/
def orEmpty (v : Json) : Json := if v.truthy then v else .str ""

/-- `v == s`, for a string `s`. -/
def isText (v : Json) (s : PyStr) : Bool :=
  match v with
  | .str t => t == s
  | _ => false

theorem lookup_of_get {kvs : List (PyStr × Json)} {k : PyStr} {v : Json} (h : get kvs k = v)
    (hv : v ≠ .null) : lookup kvs k = some v := by
  unfold get at h
  generalize lookup kvs k = found at h ⊢
  rcases found with _ | w
  · exact absurd h.symm hv
  · exact congrArg some h

theorem isText_iff {v : Json} {s : PyStr} : v.isText s = true ↔ v = .str s := by
  unfold isText
  rcases v with _ | _ | _ | _ | t | _ | _
  case str => rw [beq_iff_eq, str.injEq]
  all_goals exact ⟨fun h => (nomatch h), fun h => (nomatch h)⟩

end Json

/-- The kind a value is, among those a transition may have. -/
def TransitionKind.ofJson? (v : Json) : Option TransitionKind :=
  [tween, spring, snap].find? fun kind => v.isText kind.wire

theorem TransitionKind.eq_of_ofJson? {v : Json} {kind : TransitionKind}
    (h : TransitionKind.ofJson? v = some kind) : v = .str kind.wire := by
  have htext := List.find?_some (p := fun kind : TransitionKind => v.isText kind.wire) h
  exact Json.isText_iff.mp htext

/-- The easing a value is, among those a transition may have. -/
def Easing.ofJson? (v : Json) : Option Easing :=
  [linear, easeIn, easeOut, easeInOut].find? fun easing => v.isText easing.wire

theorem Easing.eq_of_ofJson? {v : Json} {easing : Easing} (h : Easing.ofJson? v = some easing) :
    v = .str easing.wire := by
  have htext := List.find?_some (p := fun easing : Easing => v.isText easing.wire) h
  exact Json.isText_iff.mp htext

section Decoders

variable [PyRepr] [PyParse]

/-! ## The envelope

A text is decoded, parsed, and checked to be an object with a version and a type, in this order.
The version is compared with `==`, which takes `1.0` and `True` for `1`. -/

/-- `raw.decode("utf-8")`, where it is needed. -/
def Raw.toText : Raw → Except PyStr PyStr
  | .text s => .ok s
  | .bytes b =>
      match String.fromUTF8? b with
      | some s => .ok s
      | none => .error (PyParse.utf8Error b)

/-- `decode_json`; the failure is the message of a `ValueError`. -/
def decodeJson (raw : Raw) : Except PyStr (List (PyStr × Json)) := do
  let obj ← PyParse.loads (← raw.toText)
  match obj with
  | .obj kvs => return kvs
  | v => .error ("protocol: envelope must be a JSON object, got " ++ v.typeName)

/-- `_parse_envelope`: the object, with the type it was checked to carry. -/
def parseEnvelope (raw : Raw) : Except DecodeFailure (PyStr × List (PyStr × Json)) :=
  match decodeJson raw with
  | .error e => .error (.decode ("protocol: invalid JSON envelope: " ++ e))
  | .ok env =>
      let v := Json.get env "v"
      -- `v != 1` of Python: `1.0` and `True` pass too
      if v.number? = some 1 then
        match Json.lookup env "type" with
        | some (.str t) => .ok (t, env)
        | _ => .error (.decode "protocol: envelope missing 'type'")
      else .error (.versionMismatch ("protocol: envelope v mismatch, got v=" ++ v.repr))

/-! ## The nested records

One definition for each parsing function of the source, failures included: a message names the
element or the field it objects to. -/

/-- `int(v)` in a decoder. -/
def parseInt (v : Json) : Except DecodeFailure ℤ := v.toInt.mapError .raised

/-- `float(v)` in a decoder. -/
def parseFloat (v : Json) : Except DecodeFailure PyFloat := v.toFloat.mapError .raised

/-- `int(v) if v is not None else None`. -/
def parseIntOrNone : Json → Except DecodeFailure (Option ℤ)
  | .null => .ok none
  | v => (parseInt v).map some

/-- A field that is parsed only if it is there. -/
def parsePresent {α : Type} (parse : Json → Except DecodeFailure α) (raw : List (PyStr × Json))
    (k : PyStr) : Except DecodeFailure (Option α) :=
  match Json.lookup raw k with
  | none => .ok none
  | some v => (parse v).map some

/-- The `easing` of a transition. -/
def parseEasing (v : Json) : Except DecodeFailure Easing :=
  match Easing.ofJson? v with
  | some easing => .ok easing
  | none => .error (.decode ("protocol: transition.easing invalid: " ++ v.repr))

/-- `_parse_transition_spec`. -/
def parseTransitionSpec : Json → Except DecodeFailure (Option TransitionSpec)
  | .null => .ok none
  | .obj raw =>
      match TransitionKind.ofJson? (Json.get raw "kind") with
      | none =>
          .error (.decode ("protocol: transition.kind must be tween|spring|snap, got "
            ++ (Json.get raw "kind").repr))
      | some kind => do
          let durationMs ← parsePresent parseInt raw "duration_ms"
          let easing ← parsePresent parseEasing raw "easing"
          let stiffness ← parsePresent parseFloat raw "stiffness"
          let damping ← parsePresent parseFloat raw "damping"
          return some { kind, durationMs, easing, stiffness, damping }
  | _ => .error (.decode "protocol: transition must be an object")

/-- One element of a patch list, the `i`-th. -/
def parsePatch (i : ℕ) : Json → Except DecodeFailure Patch
  | .obj item =>
      match Json.lookup item "path" with
      | none => .error (.decode s!"protocol: patch[{i}] missing 'path'")
      | some path => do
          let transition ← parseTransitionSpec (Json.get item "transition")
          return { path := path.toStr, value := Json.get item "value", transition }
  | _ => .error (.decode s!"protocol: patch[{i}] must be an object")

/-- The loop of `_parse_patches`, from the `i`-th element on. -/
def parsePatchesFrom (i : ℕ) : List Json → Except DecodeFailure (List Patch)
  | [] => .ok []
  | item :: items => do
      let p ← parsePatch i item
      let ps ← parsePatchesFrom (i + 1) items
      return p :: ps

/-- `_parse_patches`. -/
def parsePatches : Json → Except DecodeFailure (List Patch)
  | .null => .ok []
  | .arr items => parsePatchesFrom 0 items
  | v => .error (.decode ("protocol: patches must be a list, got " ++ v.typeName))

/-- `_parse_cause`. -/
def parseCause : Json → Except DecodeFailure (Option Cause)
  | .null => .ok none
  | .obj raw =>
      match Json.get raw "source" with
      | .str source => .ok (some { source, inputId := Json.get raw "input_id" })
      | _ => .error (.decode "protocol: cause.source must be a string")
  | _ => .error (.decode "protocol: cause must be an object")

/-- `_parse_scene_transition`. -/
def parseSceneTransition : Json → Except DecodeFailure (Option SceneTransition)
  | .null => .ok none
  | .obj raw =>
      match Json.get raw "kind" with
      | .str kind => do
          let durationMs ← parseIntOrNone (Json.get raw "duration_ms")
          return some { kind, durationMs }
      | _ => .error (.decode "protocol: scene transition.kind must be a string")
  | _ => .error (.decode "protocol: scene transition must be an object")

/-! ## The frames -/

section Fields

variable (env : List (PyStr × Json))

/-- `ts=env.get("ts", "") or ""`. -/
def tsOf : Json := (Json.getOr env "ts" (.str "")).orEmpty

/-- `seq=int(env.get("seq", 0))`. -/
def parseSeq : Except DecodeFailure ℤ := parseInt (Json.getOr env "seq" (.int 0))

def parseSubscribe : Except DecodeFailure Subscribe := do
  let sinceSequence ← parseIntOrNone (Json.get env "since_sequence")
  return {
    token := Json.getOr env "token" (.str "")
    scene := (Json.getOr env "scene" (.str "")).orEmpty
    session := (Json.getOr env "session" (.str "")).orEmpty
    sinceSequence }

def parseInput : Except DecodeFailure Input := do
  let patches ← parsePatches (Json.get env "patches")
  return { patches, clientMsgId := Json.get env "client_msg_id" }

/-- `dict(env.get("state") or {})`. -/
def parseState : Except DecodeFailure PyDict :=
  let state := Json.get env "state"
  if state.truthy then state.toDict.mapError .raised else .ok (.named .empty)

def parseSnapshot : Except DecodeFailure Decoded := do
  let seq ← parseSeq env
  let ts := tsOf env
  let sceneId := Json.getOr env "scene_id" (.str "")
  let sceneVersion := Json.getOr env "scene_version" (.str "")
  match ← parseState env with
  | .named state => return .frame (.snapshot { sceneId, sceneVersion, state, seq, ts })
  | .keyed state => return .keyedSnapshot seq ts sceneId sceneVersion state

def parseDelta : Except DecodeFailure Delta := do
  let seq ← parseSeq env
  let patches ← parsePatches (Json.get env "patches")
  let cause ← parseCause (Json.get env "cause")
  return { patches, seq, ts := tsOf env, cause }

def parseSceneChanged : Except DecodeFailure SceneChanged := do
  let seq ← parseSeq env
  let transition ← parseSceneTransition (Json.get env "transition")
  return {
    sceneId := Json.getOr env "scene_id" (.str "")
    sceneVersion := Json.getOr env "scene_version" (.str "")
    seq
    ts := tsOf env
    fromSceneId := Json.get env "from_scene_id"
    transition }

/-- `env.get("retry_after_ms", 0) or 0`. -/
def retryOf : Json :=
  let retry := Json.getOr env "retry_after_ms" (.int 0)
  if retry.truthy then retry else .int 0

def parseErrorFrame : Except DecodeFailure ErrorFrame := do
  let seq ← parseSeq env
  let retryAfterMs ← parseInt (retryOf env)
  return {
    code := Json.getOr env "code" (.str "")
    message := Json.getOr env "message" (.str "")
    recoverable := (Json.getOr env "recoverable" (.bool false)).truthy
    seq
    ts := tsOf env
    retryAfterMs
    path := Json.get env "path" }

end Fields

/-- The frame a client's envelope of type `t` holds. -/
def clientFrame (t : PyStr) (env : List (PyStr × Json)) : Except DecodeFailure Frame :=
  if t = FRAME_SUBSCRIBE then (parseSubscribe env).map .subscribe
  else if t = FRAME_INPUT then (parseInput env).map .input
  else if t = FRAME_PING then .ok (.ping (Json.get env "nonce"))
  else if t = FRAME_PONG then .ok (.pong (Json.get env "nonce"))
  else if t = FRAME_UNSUBSCRIBE then .ok .unsubscribe
  else .error (.unknownType ("protocol: unknown client frame type " ++ PyRepr.str t))

/-- `decode_client`. -/
def decodeClient (raw : Raw) : Except DecodeFailure Frame := do
  let (t, env) ← parseEnvelope raw
  clientFrame t env

/-- The frame a server's envelope of type `t` holds. -/
def serverFrame (t : PyStr) (env : List (PyStr × Json)) : Except DecodeFailure Decoded :=
  if t = FRAME_SNAPSHOT then parseSnapshot env
  else if t = FRAME_DELTA then (parseDelta env).map fun f => .frame (.delta f)
  else if t = FRAME_SCENE_CHANGED then (parseSceneChanged env).map fun f => .frame (.sceneChanged f)
  else if t = FRAME_ERROR then (parseErrorFrame env).map fun f => .frame (.error f)
  else if t = FRAME_PONG then .ok (.frame (.pong (Json.get env "nonce")))
  else if t = FRAME_PING then .ok (.frame (.ping (Json.get env "nonce")))
  else .error (.unknownType ("protocol: unknown server frame type " ++ PyRepr.str t))

/-- `decode_server`. -/
def decodeServer (raw : Raw) : Except DecodeFailure Decoded := do
  let (t, env) ← parseEnvelope raw
  serverFrame t env

end Decoders

end Lumencast
