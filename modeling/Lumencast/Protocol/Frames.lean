import Lumencast.Protocol.Json

/-!
# Protocol/Frames — the nine frames

The dataclasses of `frames.py`.  Python does not enforce their annotations: a field a decoder fills
straight from the wire may hold any JSON value, so it is a `Json` here, `None` being `.null`.
Fields that a decoder converts or checks have the type it leaves them with.
-/

namespace Lumencast

open Machinery

/-- The transition kinds a decoder lets through. -/
inductive TransitionKind where
  | tween
  | spring
  | snap
  deriving DecidableEq

/-- The easings a decoder lets through. -/
inductive Easing where
  | linear
  | easeIn
  | easeOut
  | easeInOut
  deriving DecidableEq

/-- Per-leaf animation directive on a delta patch. -/
structure TransitionSpec where
  kind : TransitionKind
  durationMs : Option ℤ := none
  easing : Option Easing := none
  stiffness : Option PyFloat := none
  damping : Option PyFloat := none
  deriving DecidableEq

/-- Provenance of a delta; `inputId` echoes the `clientMsgId` of the input behind it. -/
structure Cause where
  source : PyStr
  inputId : Json := .null

/-- Show-level transition of a scene swap. -/
structure SceneTransition where
  kind : PyStr
  durationMs : Option ℤ := none
  deriving DecidableEq

/-- One leaf and its new value. -/
structure Patch where
  path : PyStr
  value : Json
  transition : Option TransitionSpec := none

/-- The full state of a subscription. -/
structure Snapshot where
  sceneId : Json
  sceneVersion : Json
  state : Dict PyStr Json := .empty
  seq : ℤ := 0
  ts : Json := .str ""

/-- Patches to apply to the state. -/
structure Delta where
  patches : List Patch := []
  seq : ℤ := 0
  ts : Json := .str ""
  cause : Option Cause := none

/-- The active scene was swapped; a `Snapshot` of the new one must follow. -/
structure SceneChanged where
  sceneId : Json
  sceneVersion : Json
  seq : ℤ := 0
  ts : Json := .str ""
  fromSceneId : Json := .null
  transition : Option SceneTransition := none

/-- A server-emitted error. -/
structure ErrorFrame where
  code : Json
  message : Json
  recoverable : Bool
  seq : ℤ := 0
  ts : Json := .str ""
  retryAfterMs : ℤ := 0
  path : Json := .null

/-- The first frame of a client. -/
structure Subscribe where
  token : Json
  scene : Json := .str ""
  session : Json := .str ""
  sinceSequence : Option ℤ := none

/-- An operator's patches. -/
structure Input where
  patches : List Patch := []
  clientMsgId : Json := .null

/-- A frame, of any of the nine types. -/
inductive Frame where
  | snapshot (f : Snapshot)
  | delta (f : Delta)
  | sceneChanged (f : SceneChanged)
  | error (f : ErrorFrame)
  | pong (nonce : Json)
  | ping (nonce : Json)
  | subscribe (f : Subscribe)
  | input (f : Input)
  | unsubscribe

namespace Frame

/-- The sequence number of the frames that carry one; heartbeats are out of band. -/
def seq? : Frame → Option ℤ
  | .snapshot f => some f.seq
  | .delta f => some f.seq
  | .sceneChanged f => some f.seq
  | .error f => some f.seq
  | _ => none

/-- The frames that carry state: a snapshot or a delta. -/
def carriesState : Frame → Bool
  | .snapshot _ => true
  | .delta _ => true
  | _ => false

end Frame

/-! ## Roles and error codes -/

/-- Connection-level authority. -/
inductive Role where
  | viewer
  | operator
  | service
  | test
  deriving DecidableEq

/-- The member's name, as `str(member)` of a plain `class Role(str, Enum)` shows it. -/
def Role.memberName : Role → PyStr
  | .viewer => "Role.VIEWER"
  | .operator => "Role.OPERATOR"
  | .service => "Role.SERVICE"
  | .test => "Role.TEST"

/-- `role.value`: the role as it is written on the wire. -/
def Role.value : Role → PyStr
  | .viewer => "viewer"
  | .operator => "operator"
  | .service => "service"
  | .test => "test"

/-- The closed set of error codes. -/
inductive ErrorCode where
  | authDenied
  | writeForbidden
  | sceneNotFound
  | bundleFetchFailed
  | bundleIncompatible
  | versionGap
  | versionMismatch
  | unknownPath
  | invalidValue
  | rateLimit
  | testSessionExpired
  | internal
  deriving DecidableEq

/-- `recoverable`: whether a session goes on after an error; for `INTERNAL` the caller says. -/
def ErrorCode.recoverable (internalDefault : Bool) : ErrorCode → Bool
  | .writeForbidden => true
  | .bundleFetchFailed => true
  | .versionGap => true
  | .unknownPath => true
  | .invalidValue => true
  | .rateLimit => true
  | .authDenied => false
  | .sceneNotFound => false
  | .bundleIncompatible => false
  | .versionMismatch => false
  | .testSessionExpired => false
  | .internal => internalDefault

/-- `code.value`: the code as it is written on the wire. -/
def ErrorCode.value : ErrorCode → PyStr
  | .authDenied => "AUTH_DENIED"
  | .writeForbidden => "WRITE_FORBIDDEN"
  | .sceneNotFound => "SCENE_NOT_FOUND"
  | .bundleFetchFailed => "BUNDLE_FETCH_FAILED"
  | .bundleIncompatible => "BUNDLE_INCOMPATIBLE"
  | .versionGap => "VERSION_GAP"
  | .versionMismatch => "VERSION_MISMATCH"
  | .unknownPath => "UNKNOWN_PATH"
  | .invalidValue => "INVALID_VALUE"
  | .rateLimit => "RATE_LIMIT"
  | .testSessionExpired => "TEST_SESSION_EXPIRED"
  | .internal => "INTERNAL"

end Lumencast
