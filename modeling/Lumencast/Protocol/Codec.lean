import Lumencast.Protocol.Frames

/-!
# Protocol/Codec — frames as wire dictionaries

`frameToDict` is the encoder's case analysis: the pairs of the JSON object a frame is written as, in
the order they are written.  Optional fields are left out by truth in some places and by `None`-ness
in others, as in the source.
-/

namespace Lumencast

/-- The protocol major every envelope carries. -/
def VERSION : ℤ := 1

def FRAME_SNAPSHOT : PyStr := "snapshot"
def FRAME_DELTA : PyStr := "delta"
def FRAME_SCENE_CHANGED : PyStr := "scene_changed"
def FRAME_ERROR : PyStr := "error"
def FRAME_PONG : PyStr := "pong"
def FRAME_SUBSCRIBE : PyStr := "subscribe"
def FRAME_INPUT : PyStr := "input"
def FRAME_PING : PyStr := "ping"
def FRAME_UNSUBSCRIBE : PyStr := "unsubscribe"

/-- A pair that is always written. -/
def pair (k : PyStr) (v : Json) : List (PyStr × Json) := [(k, v)]

/-- A pair written only under a condition. -/
def pairIf (b : Bool) (k : PyStr) (v : Json) : List (PyStr × Json) := if b then [(k, v)] else []

/-- A pair written only for a present value. -/
def pairSome {α : Type} (k : PyStr) (toJson : α → Json) : Option α → List (PyStr × Json)
  | none => []
  | some a => [(k, toJson a)]

/-- A pair written unless the value is `None`. -/
def pairNotNone (k : PyStr) : Json → List (PyStr × Json)
  | .null => []
  | v => [(k, v)]

/-- The wire name of a transition kind. -/
def TransitionKind.wire : TransitionKind → PyStr
  | .tween => "tween"
  | .spring => "spring"
  | .snap => "snap"

/-- The wire name of an easing. -/
def Easing.wire : Easing → PyStr
  | .linear => "linear"
  | .easeIn => "ease-in"
  | .easeOut => "ease-out"
  | .easeInOut => "ease-in-out"

def transitionSpecToDict (t : TransitionSpec) : Json :=
  .obj (pair "kind" (.str t.kind.wire) ++ pairSome "duration_ms" .int t.durationMs
    ++ pairSome "easing" (fun e => .str e.wire) t.easing
    ++ pairSome "stiffness" .float t.stiffness ++ pairSome "damping" .float t.damping)

def patchToDict (p : Patch) : Json :=
  .obj (pair "path" (.str p.path) ++ pair "value" p.value
    ++ pairSome "transition" transitionSpecToDict p.transition)

def causeToDict (c : Cause) : Json :=
  .obj (pair "source" (.str c.source) ++ pairNotNone "input_id" c.inputId)

def sceneTransitionToDict (t : SceneTransition) : Json :=
  .obj (pair "kind" (.str t.kind) ++ pairSome "duration_ms" .int t.durationMs)

/-- The pairs every frame starts with. -/
def envelope (type : PyStr) : List (PyStr × Json) := [("v", .int VERSION), ("type", .str type)]

/-- A frame as its on-wire dictionary. -/
def frameToDict : Frame → List (PyStr × Json)
  | .snapshot f => envelope FRAME_SNAPSHOT ++ pair "seq" (.int f.seq) ++ pair "scene_id" f.sceneId
      ++ pair "scene_version" f.sceneVersion ++ pair "state" (.obj f.state.entries)
      ++ pairIf f.ts.truthy "ts" f.ts
  | .delta f => envelope FRAME_DELTA ++ pair "seq" (.int f.seq)
      ++ pair "patches" (.arr (f.patches.map patchToDict))
      ++ pairIf f.ts.truthy "ts" f.ts ++ pairSome "cause" causeToDict f.cause
  | .sceneChanged f => envelope FRAME_SCENE_CHANGED ++ pair "seq" (.int f.seq)
      ++ pair "scene_id" f.sceneId ++ pair "scene_version" f.sceneVersion
      ++ pairIf f.ts.truthy "ts" f.ts ++ pairIf f.fromSceneId.truthy "from_scene_id" f.fromSceneId
      ++ pairSome "transition" sceneTransitionToDict f.transition
  | .error f => envelope FRAME_ERROR ++ pair "seq" (.int f.seq) ++ pair "code" f.code
      ++ pair "message" f.message ++ pair "recoverable" (.bool f.recoverable)
      ++ pairIf f.ts.truthy "ts" f.ts
      ++ pairIf (f.retryAfterMs != 0) "retry_after_ms" (.int f.retryAfterMs)
      ++ pairNotNone "path" f.path
  | .pong nonce => envelope FRAME_PONG ++ pairNotNone "nonce" nonce
  | .ping nonce => envelope FRAME_PING ++ pairNotNone "nonce" nonce
  | .unsubscribe => envelope FRAME_UNSUBSCRIBE
  | .subscribe f => envelope FRAME_SUBSCRIBE ++ pair "token" f.token
      ++ pairIf f.scene.truthy "scene" f.scene ++ pairIf f.session.truthy "session" f.session
      ++ pairSome "since_sequence" .int f.sinceSequence
  | .input f => envelope FRAME_INPUT ++ pair "patches" (.arr (f.patches.map patchToDict))
      ++ pairNotNone "client_msg_id" f.clientMsgId

end Lumencast
