import Lumencast.Protocol.Declared
import Lumencast.Server.WsHandler

/-!
# Server/Answers — a frame that does not decode is answered

The reader answers a `DecodeError` with an error frame.  Any other exception of the decoder ends its
loop without a word, so that a session answers a text it cannot decode exactly when the decoder
fails in the declared way.
-/

namespace Lumencast

open Machinery
open DecodeFailure (Declared)

section Decoders

variable [PyRepr] [PyParse]

/-- What a session makes of a text; `escaped` is the `str` of an exception that nothing declares. -/
def received (escaped : PyStr) (raw : Raw) : Received :=
  match decodeClient raw with
  | .ok f => .frame f
  | .error (.versionMismatch message) => .mismatch message
  | .error (.decode message) => .malformed message
  | .error (.unknownType message) => .malformed message
  | .error (.raised _) => .raised escaped

namespace Session

/-- A running session that receives what does not decode writes an error frame. -/
def Answers (k : Server) (s : Session) (l : Locals) (ls : Loops) (escaped : PyStr) (raw : Raw) :
    Prop :=
  (decodeClient raw).isOk = false → ∃ e : ErrorFrame, e.recoverable = false ∧
    (s.receive k l ls (received escaped raw)).2.written = s.written ++ [⟨.error e, none⟩]

variable {k : Server} {s : Session} {l : Locals} {ls : Loops} {escaped : PyStr} {raw : Raw}

theorem answers_iff : s.Answers k l ls escaped raw ↔ FailsOnly Declared (decodeClient raw) := by
  unfold Answers received
  rcases decodeClient raw with (message | message | message | r) | f
  case error.raised =>
    constructor
    · intro h
      obtain ⟨e, -, hwritten⟩ := h rfl
      exact absurd (List.self_eq_append_right.mp hwritten) (List.cons_ne_nil _ _)
    · exact fun h => (h (.raised r) rfl).elim
  case ok => exact ⟨fun _ => failsOnly_ok f, fun _ h => nomatch h⟩
  all_goals exact ⟨fun _ => failsOnly_error.mpr trivial, fun _ _ => ⟨_, rfl, rfl⟩⟩

/-- **When a text that does not decode is refused in the declared way**: by `decode_client`, by
`decode_server`, and by every session that receives it, exactly when the conversions it reaches are
given values they accept. -/
theorem declared_iff (raw : Raw) :
    (FailsOnly Declared (decodeClient raw) ↔
      ∀ t env, Carries raw t env → clientConverts t env = true) ∧
    (FailsOnly Declared (decodeServer raw) ↔
      ∀ t env, Carries raw t env → serverConverts t env = true) ∧
    ∀ (k : Server) (s : Session) (l : Locals) (ls : Loops) (escaped : PyStr),
      s.Answers k l ls escaped raw ↔ ∀ t env, Carries raw t env → clientConverts t env = true :=
  ⟨declared_decodeClient, declared_decodeServer, fun _ _ _ _ _ =>
    answers_iff.trans declared_decodeClient⟩

end Session

end Decoders

/-! ## A resume from nowhere -/

/-- A `Subscribe` that resumes from an empty list. -/
def emptySince : PyStr :=
  "\x7b\"v\":1,\"type\":\"subscribe\",\"token\":\"t\",\"since_sequence\":[]\x7d"

/-- What `json.loads` makes of it. -/
def emptySinceValue : Json :=
  .obj (envelope FRAME_SUBSCRIBE ++ pair "token" (.str "t") ++ pair "since_sequence" (.arr []))

/-- `int([])` raises a `TypeError`, and a session that receives it ends without an answer. -/
theorem Session.emptySince_escapes :
    letI := PyRepr.plain
    letI := PyParse.only emptySince emptySinceValue
    ¬ FailsOnly Declared (decodeClient (.text emptySince)) ∧
      ¬ (default : Session).Answers {} ⟨0, 0, {}⟩ {} "" (.text emptySince) := by
  let := PyRepr.plain
  let := PyParse.only emptySince emptySinceValue
  have hdecode : decodeClient (.text emptySince) = .error (.raised .type) := rfl
  have hescapes : ¬ FailsOnly Declared (decodeClient (.text emptySince)) :=
    fun h => (h _ hdecode).elim
  exact ⟨hescapes, fun h => hescapes (Session.answers_iff.mp h)⟩

end Lumencast
