import Lumencast.Server.Server

/-!
# Server/WsHandler — one WebSocket session

`handle_ws` is a coroutine: between two points where it really suspends it runs to the end, and
makes at most one call on the kit.  A `Session` records where it is suspended (`Phase`), a
`SessionEvent` is what wakes it up, and `Session.step?` is the stretch of code that then runs;
`none` says that the event cannot happen there.  What the environment decides is in the event: what
was received, what the authenticator answered, whether a send failed, and when the task is
cancelled.
-/

namespace Lumencast

open Machinery

/-- The subprotocols a server accepts, the preferred one first. -/
def SUBPROTOCOLS : List PyStr := ["lsdp.v1.1", "lsdp.v1"]

/-- The subprotocol negotiated with a client that advertises `requested`. -/
def chooseSubprotocol (requested : List PyStr) : Option PyStr :=
  SUBPROTOCOLS.find? (· ∈ requested)

/-- What receiving a text and decoding it comes to; an exception carries its `str`. -/
inductive Received where
  | frame (f : Frame)
  /-- `VersionMismatchError`. -/
  | mismatch (message : PyStr)
  /-- `DecodeError` or `UnknownTypeError`. -/
  | malformed (message : PyStr)
  /-- Anything else: a disconnect, a timeout, a field that does not convert. -/
  | raised (message : PyStr)

/-- What an authenticator answers. -/
inductive Authentication where
  | identity (identity : Identity)
  /-- `AuthError`. -/
  | denied (message : PyStr)
  /-- Anything else. -/
  | raised

/-- A call a session makes on the kit. -/
inductive Call where
  | subscribeWithResume (c : SceneRef) (live : Bool) (since : Option ℤ)
  | unsubscribe (c : SceneRef) (r : SubRef)
  | applyInput (c : SceneRef) (identity : Identity) (patches : List Patch) (cause : Option Cause)
  | dequeue (r : SubRef)
  | detach (r : SubRef)

/-- The call, as an operation of the kit. -/
def Call.op : Call → Op
  | .subscribeWithResume c live since => .scene c (.subscribeWithResume live since)
  | .unsubscribe c r => .scene c (.unsubscribe r)
  | .applyInput c identity patches cause => .scene c (.applyInput identity patches cause)
  | .dequeue r => .dequeue r
  | .detach r => .detach r

/-- Make the call, if there is one. -/
def Server.perform (k : Server) : Option Call → Server
  | none => k
  | some call => k.step call.op

/-- A frame handed to `send_text`; `issuer` is history. -/
structure Sent where
  frame : Frame
  /-- The scene whose counter issued the frame's number, if one did. -/
  issuer : Option SceneRef

/-! ## Where a session is suspended

Each phase names one `await` of `handle_ws` that can really suspend.  The two loops run beside
each other, so once they have started a phase is a pair. -/

/-- What `handle_ws` holds once its client is attached. -/
structure Locals where
  scene : SceneRef
  sub : SubRef
  identity : Identity

/-- Where the reader is: a failed send ends its loop, unless it is the send of an error frame. -/
inductive Reader where
  | receiving
  | sending
  | sendingError
  /-- Sending the error frame after which the loop ends. -/
  | sendingLast
  | done
  deriving DecidableEq

/-- Where the writer is. -/
inductive Writer where
  | getting
  | sending
  | done
  deriving DecidableEq

/-- The two loops; `stop` is `cancel_event`. -/
structure Loops where
  reader : Reader := .receiving
  writer : Writer := .getting
  stop : Bool := false

namespace Loops

/-- The reader reaches the head of its loop. -/
def readerNext (ls : Loops) : Loops :=
  { ls with reader := if ls.stop then .done else .receiving }

/-- The reader ends, and stops the writer. -/
def readerEnds (ls : Loops) : Loops := { ls with reader := .done, stop := true }

/-- The writer reaches the head of its loop. -/
def writerNext (ls : Loops) : Loops := { ls with writer := if ls.stop then .done else .getting }

/-- The writer ends, and stops the reader. -/
def writerEnds (ls : Loops) : Loops := { ls with writer := .done, stop := true }

end Loops

/-- Where a session is suspended. -/
inductive Phase where
  /-- Accepting a connection that did not offer a subprotocol. -/
  | refusing
  | accepting
  | reading
  | authenticating (f : Subscribe)
  /-- Sending the error frame that turns the client away. -/
  | rejecting
  | closing
  /-- Attached, with an initial frame on its way and `rest` still to be sent. -/
  | initial (l : Locals) (rest : List Frame)
  | running (l : Locals) (ls : Loops)
  /-- Returned or raised; `sub` is the subscription the session had, if it had one. -/
  | ended (sub : Option SubRef)

/-- What wakes a session up. -/
inductive SessionEvent where
  /-- The `accept`, `send_text` or `close` that `handle_ws` awaits is over. -/
  | sent (ok : Bool)
  | received (r : Received)
  | authenticated (a : Authentication)
  /-- The send the reader awaits is over. -/
  | readerSent (ok : Bool)
  /-- The writer gets an item from its queue. -/
  | dequeued
  /-- Nothing came for `PING_INTERVAL_SECS`. -/
  | pingDue
  /-- The send the writer awaits is over. -/
  | writerSent (ok : Bool)
  /-- Both loops are over. -/
  | gathered
  /-- The task is cancelled. -/
  | cancelled

/-- One run of `handle_ws`; `written` is history. -/
structure Session where
  phase : Phase
  /-- The frames handed to `send_text`, in order. -/
  written : List Sent := []

instance : Inhabited Session := ⟨{ phase := .ended none }⟩

/-- A client on the live endpoint, `sub_frame.scene == ""`. -/
def Subscribe.live (f : Subscribe) : Bool :=
  match f.scene with
  | .str s => s == ""
  | _ => false

/-- The error frame `_send_error` ships. -/
def errorFrame (seq : ℤ) (code : ErrorCode) (message : PyStr) (recoverable : Bool)
    (path : Option PyStr) : Frame :=
  .error
    { code := .str code.value, message := .str message, recoverable := recoverable, seq := seq,
      path := (path.map Json.str).getD .null }

/-- The frames a fresh subscription is opened with. -/
def openingFrames : Option Snapshot × List ReplayRecord → List Frame
  | (some snap, _) => [.snapshot snap]
  | (none, records) =>
      records.map fun r => .delta { patches := r.patches, seq := r.seq, cause := r.cause }

/-- How an f-string shows a role. -/
def roleText : Option Role → PyStr
  | none => "None"
  | some role => role.memberName

/-- The provenance of the delta an input leads to, when the client asks for it to be echoed. -/
def causeOf (identity : Identity) (clientMsgId : Json) : Option Cause :=
  match clientMsgId with
  | .null => none
  | id =>
      let subject := if identity.subject = "" then roleText identity.role else identity.subject
      some { source := roleText identity.role ++ ":" ++ subject, inputId := id }

/-! ## From one suspension to the next

Each function is the code between two such points.  It makes one call on the kit at most, which
is returned and not made, so that the kit has its steps to itself. -/

namespace Session

/-- A session that has just been called. -/
def connecting (requested : List PyStr) : Session where
  phase := if (chooseSubprotocol requested).isSome then .accepting else .refusing

/-- Suspend elsewhere. -/
def goto (s : Session) (phase : Phase) : Session := { s with phase := phase }

/-- Hand a frame to `send_text`, and suspend until it is sent. -/
def write (s : Session) (frame : Frame) (issuer : Option SceneRef) (phase : Phase) : Session where
  phase := phase
  written := s.written ++ [⟨frame, issuer⟩]

/-- Turn the client away. -/
def reject (s : Session) (code : ErrorCode) (message : PyStr) : Session :=
  s.write (errorFrame 0 code message false none) none .rejecting

/-- The first frame has to be a `Subscribe`. -/
def readSubscribe (s : Session) : Received → Session
  | .frame (.subscribe f) => s.goto (.authenticating f)
  | .frame _ => s.reject .authDenied "first frame must be subscribe"
  | .mismatch _ => s.goto .closing
  | .malformed message => s.reject .authDenied message
  | .raised message => s.reject .authDenied message

/-- Send the next initial frame, or start the loops. -/
def sendInitial (s : Session) (l : Locals) : List Frame → Session
  | [] => s.goto (.running l {})
  | f :: rest => s.write f (some l.scene) (.initial l rest)

/-- Resolve the scene of an authenticated client and attach it. -/
def letIn (k : Server) (s : Session) (f : Subscribe) (identity : Identity) :
    Option Call × Session :=
  match k.resolveScene f identity with
  | .error _ => (none, s.goto (.ended none))
  | .ok (.error (code, message)) => (none, s.reject code message)
  | .ok (.ok c) =>
      (some (.subscribeWithResume c f.live f.sinceSequence),
        s.sendInitial ⟨c, k.subs.next, identity⟩
          (openingFrames ((k.objects.get c).resumeAnswer f.sinceSequence)))

/-- The authenticator has answered. -/
def authenticate (k : Server) (s : Session) (f : Subscribe) :
    Authentication → Option Call × Session
  | .identity identity =>
      if identity.isAuthenticated then s.letIn k f identity
      else (none, s.reject .authDenied "token invalid")
  | .denied message => (none, s.reject .authDenied message)
  | .raised => (none, s.goto (.ended none))

section Loops

variable (k : Server) (s : Session) (l : Locals) (ls : Loops)

/-- Answer with an error frame numbered by the scene of the session. -/
def replyError (code : ErrorCode) (message : PyStr) (recoverable : Bool) (path : Option PyStr)
    (reader : Reader) : Session :=
  s.write (errorFrame (k.objects.get l.scene).currentSeq code message recoverable path) none
    (.running l { ls with reader := reader })

/-- An `Input` frame: whatever comes of it, it is given to the scene of the session. -/
def input [PyRepr] (f : Input) : Option Call × Session :=
  let cause := causeOf l.identity f.clientMsgId
  (some (.applyInput l.scene l.identity f.patches cause),
    match ((k.objects.get l.scene).applyInput k.subs l.identity f.patches cause).map (·.1) with
    | .error _ => s.goto (.running l ls.readerEnds)
    | .ok none => s.goto (.running l ls.readerNext)
    | .ok (some refusal) =>
        s.replyError k l ls refusal.code refusal.message (refusal.code != .authDenied)
          refusal.path .sendingError)

/-- `_dispatch`: route a client frame to its handler. -/
def dispatch [PyRepr] : Frame → Option Call × Session
  | .input f => s.input k l ls f
  | .ping nonce => (none, s.write (.pong nonce) none (.running l { ls with reader := .sending }))
  | .unsubscribe => (none, s.goto (.running l { ls with reader := .sending }))
  | .subscribe _ =>
      (none, s.replyError k l ls .internal "duplicate subscribe" false none .sendingError)
  | _ => (none, s.goto (.running l ls.readerNext))

/-- The reader has received something. -/
def receive [PyRepr] : Received → Option Call × Session
  | .frame f => s.dispatch k l ls f
  | .mismatch message =>
      (none, s.replyError k l ls .versionMismatch message false none .sendingLast)
  | .malformed message => (none, s.replyError k l ls .internal message false none .sendingLast)
  | .raised _ => (none, s.goto (.running l ls.readerEnds))

/-- The send of the reader is over; `none` when it awaits none. -/
def readerSent (ok : Bool) : Option Session :=
  match ls.reader with
  | .sending => some (s.goto (.running l (if ok then ls.readerNext else ls.readerEnds)))
  | .sendingError => some (s.goto (.running l ls.readerNext))
  | .sendingLast => some (s.goto (.running l ls.readerEnds))
  | _ => none

/-- The writer takes an item: a frame to send, or the sentinel that ends it. -/
def take : Option Letter → Session
  | none => s.goto (.running l ls.writerEnds)
  | some letter =>
      s.write letter.frame (some letter.issuer) (.running l { ls with writer := .sending })

/-- The two loops wake up. -/
def loop [PyRepr] : SessionEvent → Option (Option Call × Session)
  | .received r => if ls.reader = .receiving then some (s.receive k l ls r) else none
  | .readerSent ok => (s.readerSent l ls ok).map (none, ·)
  | .dequeued =>
      if ls.writer = .getting then
        (k.subs.get l.sub).dequeue.map fun a => (some (.dequeue l.sub), s.take l ls a.1)
      else none
  | .pingDue =>
      if ls.writer = .getting then
        some (none, s.write (.ping .null) none (.running l { ls with writer := .sending }))
      else none
  | .writerSent ok =>
      if ls.writer = .sending then
        some (none, s.goto (.running l (if ok then ls.writerNext else ls.writerEnds)))
      else none
  | .gathered =>
      if ls.reader = .done ∧ ls.writer = .done then
        some (some (.detach l.sub), s.goto (.ended (some l.sub)))
      else none
  -- both loops are cancelled where they are, and the detach still awaits its turn
  | .cancelled => some (none, s.goto (.running l ⟨.done, .done, true⟩))
  | _ => none

end Loops

/-- Before the client is attached: a send is over, well or badly, or is cancelled. -/
def afterSend (s : Session) (next failed : Phase) :
    SessionEvent → Option (Option Call × Session)
  | .sent ok => some (none, s.goto (if ok then next else failed))
  | .cancelled => some (none, s.goto (.ended none))
  | _ => none

/-- The stretch an event starts, `none` if the session does not await it: the call it makes on the
kit, and where the session is suspended next. -/
def step? [PyRepr] (k : Server) (s : Session) (e : SessionEvent) : Option (Option Call × Session) :=
  match s.phase with
  | .running l ls => s.loop k l ls e
  | .initial l rest =>
      match e with
      | .sent true => some (none, s.sendInitial l rest)
      | .sent false => some (some (.unsubscribe l.scene l.sub), s.goto (.ended (some l.sub)))
      -- `except Exception` does not catch a cancellation
      | .cancelled => some (none, s.goto (.ended (some l.sub)))
      | _ => none
  | .reading =>
      match e with
      | .received r => some (none, s.readSubscribe r)
      | .cancelled => some (none, s.reject .authDenied "")
      | _ => none
  | .authenticating f =>
      match e with
      | .authenticated a => some (s.authenticate k f a)
      | .cancelled => some (none, s.goto (.ended none))
      | _ => none
  | .refusing => s.afterSend .closing (.ended none) e
  | .accepting => s.afterSend .reading (.ended none) e
  | .rejecting => s.afterSend .closing .closing e
  | .closing => s.afterSend (.ended none) (.ended none) e
  | .ended _ => none

/-! ## What a stretch leaves

Said once for each function above: what it returns, and when. -/

/-- After a send the session is suspended elsewhere, and no call is made. -/
theorem afterSend_eq_some {s : Session} {next failed : Phase} {e : SessionEvent}
    {call : Option Call} {s' : Session} (h : s.afterSend next failed e = some (call, s')) :
    call = none ∧ ∃ p, s' = s.goto p ∧ (p = next ∨ p = failed ∨ p = .ended none) ∧
      ((∃ ok, e = .sent ok) ∨ e = .cancelled) := by
  unfold afterSend at h
  split at h
  · rename_i ok
    cases h
    rcases ok with _ | _
    · exact ⟨rfl, failed, rfl, Or.inr (Or.inl rfl), Or.inl ⟨_, rfl⟩⟩
    · exact ⟨rfl, next, rfl, Or.inl rfl, Or.inl ⟨_, rfl⟩⟩
  · cases h
    exact ⟨rfl, .ended none, rfl, Or.inr (Or.inr rfl), Or.inr rfl⟩
  · cases h

/-- What becomes of a client once the authenticator has answered. -/
inductive Answered (k : Server) (s : Session) (f : Subscribe) :
    Authentication → Option Call → Session → Prop
  | attached {identity : Identity} {c : SceneRef} (hauth : identity.isAuthenticated = true)
      (hscene : k.resolveScene f identity = .ok (.ok c)) :
      Answered k s f (.identity identity) (some (.subscribeWithResume c f.live f.sinceSequence))
        (s.sendInitial ⟨c, k.subs.next, identity⟩
          (openingFrames ((k.objects.get c).resumeAnswer f.sinceSequence)))
  | rejected (a : Authentication) (code : ErrorCode) (message : PyStr) :
      Answered k s f a none (s.reject code message)
  | raised (a : Authentication) : Answered k s f a none (s.goto (.ended none))

theorem answered_authenticate (k : Server) (s : Session) (f : Subscribe) (a : Authentication) :
    Answered k s f a (s.authenticate k f a).1 (s.authenticate k f a).2 := by
  rcases a with identity | message | _
  · rw [authenticate]
    split
    · rename_i hauth
      rw [letIn]
      split
      · exact .raised _
      · exact .rejected ..
      · rename_i c hscene
        exact .attached hauth hscene
    · exact .rejected ..
  · exact .rejected ..
  · exact .raised _

section Loops

variable {k : Server} {s : Session} {l : Locals} {ls : Loops}

/-- After its send the reader goes on or ends. -/
theorem readerSent_eq_some {ok : Bool} {s' : Session} (h : s.readerSent l ls ok = some s') :
    ∃ ls', s' = s.goto (.running l ls') ∧
      (ls.reader = .sending ∨ ls.reader = .sendingError ∨ ls' = ls.readerEnds) := by
  unfold readerSent at h
  split at h
  · rename_i hreader
    cases h
    exact ⟨_, rfl, Or.inl hreader⟩
  · rename_i hreader
    cases h
    exact ⟨_, rfl, Or.inr (Or.inl hreader)⟩
  · cases h
    exact ⟨_, rfl, Or.inr (Or.inr rfl)⟩
  · cases h

variable [PyRepr]

/-- What the loops do with an event they await. -/
inductive Looped (k : Server) (s : Session) (l : Locals) (ls : Loops) :
    SessionEvent → Option Call → Session → Prop
  | received (hreader : ls.reader = .receiving) (r : Received) :
      Looped k s l ls (.received r) (s.receive k l ls r).1 (s.receive k l ls r).2
  | readerSent {ok : Bool} {s' : Session} (h : s.readerSent l ls ok = some s') :
      Looped k s l ls (.readerSent ok) none s'
  | dequeued {item : Option Letter} {sub : Subscription} (hwriter : ls.writer = .getting)
      (hget : (k.subs.get l.sub).dequeue = some (item, sub)) :
      Looped k s l ls .dequeued (some (.dequeue l.sub)) (s.take l ls item)
  | pingDue (hwriter : ls.writer = .getting) : Looped k s l ls .pingDue none
      (s.write (.ping .null) none (.running l { ls with writer := .sending }))
  | writerSent (hwriter : ls.writer = .sending) (ok : Bool) : Looped k s l ls (.writerSent ok) none
      (s.goto (.running l (if ok then ls.writerNext else ls.writerEnds)))
  | gathered (hreader : ls.reader = .done) (hwriter : ls.writer = .done) :
      Looped k s l ls .gathered (some (.detach l.sub)) (s.goto (.ended (some l.sub)))
  | cancelled : Looped k s l ls .cancelled none (s.goto (.running l ⟨.done, .done, true⟩))

/-- **Every stretch of the loops.** -/
theorem looped {e : SessionEvent} {call : Option Call} {s' : Session}
    (h : s.loop k l ls e = some (call, s')) : Looped k s l ls e call s' := by
  unfold loop at h
  split at h
  case h_1 r =>
    split at h
    · rename_i hreader
      have hreceive := Looped.received (k := k) (s := s) (l := l) hreader r
      rw [Option.some.inj h] at hreceive
      exact hreceive
    · cases h
  case h_2 ok =>
    obtain ⟨s'', hs'', heq⟩ := Option.map_eq_some_iff.mp h
    cases heq
    exact .readerSent hs''
  case h_3 =>
    split at h
    · rename_i hwriter
      obtain ⟨⟨item, sub⟩, hget, heq⟩ := Option.map_eq_some_iff.mp h
      cases heq
      exact .dequeued hwriter hget
    · cases h
  case h_4 =>
    split at h
    · rename_i hwriter
      cases h
      exact .pingDue hwriter
    · cases h
  case h_5 ok =>
    split at h
    · rename_i hwriter
      cases h
      exact .writerSent hwriter ok
    · cases h
  case h_6 =>
    split at h
    · rename_i hdone
      cases h
      exact .gathered hdone.1 hdone.2
    · cases h
  case h_7 =>
    cases h
    exact .cancelled
  case h_8 => cases h

theorem step?_running (hphase : s.phase = .running l ls) (e : SessionEvent) :
    s.step? k e = s.loop k l ls e := by
  unfold step?
  rw [hphase]

/-- What a session does with an event it awaits. -/
inductive Stepped (k : Server) (s : Session) : SessionEvent → Option Call → Session → Prop
  | accepted {e : SessionEvent} {p : Phase} (hphase : s.phase = .accepting)
      (he : (∃ ok, e = .sent ok) ∨ e = .cancelled) (hp : p = .reading ∨ p = .ended none) :
      Stepped k s e none (s.goto p)
  | closed {e : SessionEvent} {p : Phase}
      (hphase : s.phase = .refusing ∨ s.phase = .rejecting ∨ s.phase = .closing)
      (he : (∃ ok, e = .sent ok) ∨ e = .cancelled) (hp : p = .closing ∨ p = .ended none) :
      Stepped k s e none (s.goto p)
  | read (hphase : s.phase = .reading) (r : Received) :
      Stepped k s (.received r) none (s.readSubscribe r)
  | readCancelled (hphase : s.phase = .reading) :
      Stepped k s .cancelled none (s.reject .authDenied "")
  | answered {f : Subscribe} {a : Authentication} {call : Option Call} {s' : Session}
      (hphase : s.phase = .authenticating f) (h : Answered k s f a call s') :
      Stepped k s (.authenticated a) call s'
  | answerCancelled {f : Subscribe} (hphase : s.phase = .authenticating f) :
      Stepped k s .cancelled none (s.goto (.ended none))
  | initialSent {l : Locals} {rest : List Frame} (hphase : s.phase = .initial l rest) :
      Stepped k s (.sent true) none (s.sendInitial l rest)
  | initialFailed {l : Locals} {rest : List Frame} (hphase : s.phase = .initial l rest) :
      Stepped k s (.sent false) (some (.unsubscribe l.scene l.sub)) (s.goto (.ended (some l.sub)))
  | initialCancelled {l : Locals} {rest : List Frame} (hphase : s.phase = .initial l rest) :
      Stepped k s .cancelled none (s.goto (.ended (some l.sub)))
  | running {l : Locals} {ls : Loops} {e : SessionEvent} {call : Option Call} {s' : Session}
      (hphase : s.phase = .running l ls) (h : Looped k s l ls e call s') : Stepped k s e call s'

/-- **Every stretch of a session.** -/
theorem stepped {e : SessionEvent} {call : Option Call} {s' : Session}
    (h : s.step? k e = some (call, s')) : Stepped k s e call s' := by
  unfold step? at h
  rcases hphase : s.phase with _ | _ | _ | f | _ | _ | ⟨l, rest⟩ | ⟨l, ls⟩ | sub <;>
    rw [hphase] at h <;> dsimp only at h
  case accepting =>
    obtain ⟨rfl, p, rfl, hp, he⟩ := afterSend_eq_some h
    exact .accepted hphase he (by simpa using hp)
  case refusing =>
    obtain ⟨rfl, p, rfl, hp, he⟩ := afterSend_eq_some h
    exact .closed (Or.inl hphase) he (by simpa using hp)
  case rejecting =>
    obtain ⟨rfl, p, rfl, hp, he⟩ := afterSend_eq_some h
    exact .closed (Or.inr (Or.inl hphase)) he (by simpa using hp)
  case closing =>
    obtain ⟨rfl, p, rfl, hp, he⟩ := afterSend_eq_some h
    exact .closed (Or.inr (Or.inr hphase)) he (Or.inr (by simpa using hp))
  case reading =>
    split at h
    · cases h
      exact .read hphase _
    · cases h
      exact .readCancelled hphase
    · cases h
  case authenticating =>
    split at h
    · rename_i a
      have hanswered := answered_authenticate k s f a
      rw [Option.some.inj h] at hanswered
      exact .answered hphase hanswered
    · cases h
      exact .answerCancelled hphase
    · cases h
  case initial =>
    split at h
    · cases h
      exact .initialSent hphase
    · cases h
      exact .initialFailed hphase
    · cases h
      exact .initialCancelled hphase
    · cases h
  case running => exact .running hphase (looped h)
  case ended => cases h

end Loops

end Session

end Lumencast
