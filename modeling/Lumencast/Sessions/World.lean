import Lumencast.Server.Routing
import Lumencast.Server.WsHandler

/-!
# Sessions/World — a kit and the sessions that run on it

A `World` is a kit with every session ever started, and a run of it an arbitrary interleaving of
what trusted code does, of clients that connect, and of sessions that wake up.  `Session.Did` lists
what a stretch of a session can do, by the call it makes.
-/

namespace Lumencast

open Machinery

/-- A kit and its sessions. -/
structure World where
  kit : Server := {}
  sessions : Heap Session := .blank default

/-- What happens next. -/
inductive Event where
  /-- Code that holds the server calls it. -/
  | trusted (op : Op)
  /-- A client connects, advertising subprotocols. -/
  | connect (requested : List PyStr)
  /-- The session `i` wakes up. -/
  | session (i : ℕ) (e : SessionEvent)

namespace World

/-- Let it happen; an event its session does not await does not happen. -/
def step [PyRepr] (w : World) : Event → World
  | .trusted op => { w with kit := w.kit.step op }
  | .connect requested => { w with sessions := w.sessions.alloc (.connecting requested) }
  | .session i e =>
      match (w.sessions.get i).step? w.kit e with
      | none => w
      | some (call, s) =>
          { kit := w.kit.perform call, sessions := w.sessions.modify i fun _ => s }

/-- A run of a world from an empty server. -/
def after [PyRepr] (es : List Event) : World := run step {} es

/-- The operation an event makes on the kit, if it makes one. -/
def opOf [PyRepr] (w : World) : Event → Option Op
  | .trusted op => some op
  | .connect _ => none
  | .session i e => ((w.sessions.get i).step? w.kit e).bind fun a => a.1.map Call.op

end World

/-! ## What a session holds

A session holds its locals as long as it is attached.  Which subscription it had can be told even
after it has ended. -/

namespace Phase

/-- The locals of an attached session. -/
def locals? : Phase → Option Locals
  | .initial l _ => some l
  | .running l _ => some l
  | _ => none

/-- The subscription a session has or had. -/
def sub? : Phase → Option SubRef
  | .initial l _ => some l.sub
  | .running l _ => some l.sub
  | .ended sub => sub
  | _ => none

theorem sub?_of_locals? {p : Phase} {l : Locals} (h : p.locals? = some l) :
    p.sub? = some l.sub := by
  cases p <;> simp_all [locals?, sub?]

end Phase

namespace Session

/-- A stretch that makes no call and lets go of no subscription. -/
structure Idle (s s' : Session) : Prop where
  locals : s'.phase.locals? = s.phase.locals?
  sub : s'.phase.sub? = s.phase.sub?
  attached : ∀ r, s'.phase ≠ .ended (some r)
  written : ∃ sent, s'.written = s.written ++ sent ∧ ∀ x ∈ sent,
    x.frame.carriesState = true → s.phase.locals?.isSome = true

/-- What a stretch of a session does, by the call it makes. -/
inductive Did (k : Server) (s : Session) : SessionEvent → Option Call → Session → Prop
  | idle {e : SessionEvent} {s' : Session} (h : Idle s s') : Did k s e none s'
  /-- The initial frames are cancelled, and the subscription is left where it is. -/
  | abandon {l : Locals} {rest : List Frame} (hphase : s.phase = .initial l rest) :
      Did k s .cancelled none (s.goto (.ended (some l.sub)))
  | attach {f : Subscribe} {identity : Identity} {c : SceneRef}
      (hphase : s.phase = .authenticating f) (hauth : identity.isAuthenticated = true)
      (hscene : k.resolveScene f identity = .ok (.ok c)) :
      Did k s (.authenticated (.identity identity))
        (some (.subscribeWithResume c f.live f.sinceSequence))
        (s.sendInitial ⟨c, k.subs.next, identity⟩
          (openingFrames ((k.objects.get c).resumeAnswer f.sinceSequence)))
  | fail {l : Locals} {rest : List Frame} (hphase : s.phase = .initial l rest) :
      Did k s (.sent false) (some (.unsubscribe l.scene l.sub)) (s.goto (.ended (some l.sub)))
  | input {l : Locals} {ls ls' : Loops} {f : Input} {s' : Session}
      (hphase : s.phase = .running l ls) (hreader : ls.reader = .receiving)
      (hphase' : s'.phase = .running l ls') :
      Did k s (.received (.frame (.input f)))
        (some (.applyInput l.scene l.identity f.patches (causeOf l.identity f.clientMsgId))) s'
  | dequeue {l : Locals} {ls : Loops} {item : Option Letter} {sub : Subscription}
      (hphase : s.phase = .running l ls) (hget : (k.subs.get l.sub).dequeue = some (item, sub)) :
      Did k s .dequeued (some (.dequeue l.sub)) (s.take l ls item)
  | detach {l : Locals} {ls : Loops} (hphase : s.phase = .running l ls) :
      Did k s .gathered (some (.detach l.sub)) (s.goto (.ended (some l.sub)))

/-! ## By the call it makes

The other modules ask what a stretch does to the kit.  So the stretches are sorted by their
calls, and those that make none are one case. -/

theorem idle_goto (s : Session) {p : Phase} (hlocals : p.locals? = s.phase.locals?)
    (hsub : p.sub? = s.phase.sub?) (hattached : ∀ r, p ≠ .ended (some r)) : Idle s (s.goto p) :=
  ⟨hlocals, hsub, hattached, [], (List.append_nil _).symm, fun _ hx => absurd hx List.not_mem_nil⟩

theorem idle_write (s : Session) {frame : Frame} {issuer : Option SceneRef} {p : Phase}
    (hlocals : p.locals? = s.phase.locals?) (hsub : p.sub? = s.phase.sub?)
    (hattached : ∀ r, p ≠ .ended (some r))
    (hframe : frame.carriesState = true → s.phase.locals?.isSome = true) :
    Idle s (s.write frame issuer p) := by
  refine ⟨hlocals, hsub, hattached, [⟨frame, issuer⟩], rfl, fun x hx => ?_⟩
  rw [List.mem_singleton.mp hx]
  exact hframe

/-- A session without a subscription that stays without one. -/
theorem idle_unattached {s : Session} (hlocals : s.phase.locals? = none)
    (hsub : s.phase.sub? = none) {p : Phase} (hp : p.sub? = none) : Idle s (s.goto p) := by
  have hp' : p.locals? = none := by
    rcases hl : p.locals? with _ | l
    · rfl
    · rw [Phase.sub?_of_locals? hl] at hp
      cases hp
  refine s.idle_goto (hp'.trans hlocals.symm) (hp.trans hsub.symm) fun r hr => ?_
  rw [hr] at hp
  cases hp

theorem idle_reject {s : Session} (hlocals : s.phase.locals? = none) (hsub : s.phase.sub? = none)
    (code : ErrorCode) (message : PyStr) : Idle s (s.reject code message) :=
  s.idle_write hlocals.symm hsub.symm (fun _ h => nomatch h) fun h => nomatch h

theorem idle_readSubscribe {s : Session} (hphase : s.phase = .reading) (r : Received) :
    Idle s (s.readSubscribe r) := by
  have hlocals : s.phase.locals? = none := by rw [hphase]; rfl
  have hsub : s.phase.sub? = none := by rw [hphase]; rfl
  unfold readSubscribe
  split
  · exact idle_unattached hlocals hsub rfl
  · exact idle_reject hlocals hsub ..
  · exact idle_unattached hlocals hsub rfl
  · exact idle_reject hlocals hsub ..
  · exact idle_reject hlocals hsub ..

theorem did_answered {k : Server} {s s' : Session} {f : Subscribe} {a : Authentication}
    {call : Option Call} (hphase : s.phase = .authenticating f) (h : Answered k s f a call s') :
    Did k s (.authenticated a) call s' := by
  have hlocals : s.phase.locals? = none := by rw [hphase]; rfl
  have hsub : s.phase.sub? = none := by rw [hphase]; rfl
  rcases h with ⟨hauth, hscene⟩ | _ | _
  · exact .attach hphase hauth hscene
  · exact .idle (idle_reject hlocals hsub ..)
  · exact .idle (idle_unattached hlocals hsub rfl)

section Loops

variable {k : Server} {s : Session} {l : Locals} {ls : Loops}

theorem idle_running (hphase : s.phase = .running l ls) (ls' : Loops) :
    Idle s (s.goto (.running l ls')) :=
  s.idle_goto (by rw [hphase]; rfl) (by rw [hphase]; rfl) fun _ h => nomatch h

theorem idle_writing (hphase : s.phase = .running l ls) (frame : Frame)
    (issuer : Option SceneRef) (ls' : Loops) : Idle s (s.write frame issuer (.running l ls')) :=
  s.idle_write (by rw [hphase]; rfl) (by rw [hphase]; rfl) (fun _ h => nomatch h)
    fun _ => by rw [hphase]; rfl

theorem idle_sendInitial {rest : List Frame} (hphase : s.phase = .initial l rest) :
    Idle s (s.sendInitial l rest) := by
  rcases rest with _ | ⟨f, rest⟩
  · exact s.idle_goto (by rw [hphase]; rfl) (by rw [hphase]; rfl) fun _ h => nomatch h
  · exact s.idle_write (by rw [hphase]; rfl) (by rw [hphase]; rfl) (fun _ h => nomatch h)
      fun _ => by rw [hphase]; rfl

variable [PyRepr]

/-- An input leaves its session running, accepted or not. -/
theorem phase_input (f : Input) : ∃ ls', (s.input k l ls f).2.phase = .running l ls' := by
  rw [input]
  split
  · exact ⟨_, rfl⟩
  · exact ⟨_, rfl⟩
  · exact ⟨_, rfl⟩

theorem did_receive (hphase : s.phase = .running l ls) (hreader : ls.reader = .receiving)
    (r : Received) : Did k s (.received r) (s.receive k l ls r).1 (s.receive k l ls r).2 := by
  rcases r with f | message | message | message
  · rcases f with f | f | f | f | nonce | nonce | f | f | _
    case input =>
      obtain ⟨ls', hphase'⟩ := @phase_input k s l ls _ f
      exact .input hphase hreader hphase'
    case ping => exact .idle (idle_writing hphase ..)
    case subscribe => exact .idle (idle_writing hphase ..)
    all_goals exact .idle (idle_running hphase _)
  · exact .idle (idle_writing hphase ..)
  · exact .idle (idle_writing hphase ..)
  · exact .idle (idle_running hphase _)

theorem did_looped (hphase : s.phase = .running l ls) {e : SessionEvent} {call : Option Call}
    {s' : Session} (h : Looped k s l ls e call s') : Did k s e call s' := by
  rcases h with @⟨hreader, r⟩ | hsent | ⟨-, hget⟩ | _ | _ | _ | _
  case received => exact did_receive hphase hreader r
  case readerSent =>
    obtain ⟨ls', rfl, -⟩ := readerSent_eq_some hsent
    exact .idle (idle_running hphase ls')
  case dequeued => exact .dequeue hphase hget
  case pingDue => exact .idle (idle_writing hphase ..)
  case gathered => exact .detach hphase
  all_goals exact .idle (idle_running hphase _)

/-- **What every stretch of a session does.** -/
theorem did {e : SessionEvent} {call : Option Call} {s' : Session}
    (h : s.step? k e = some (call, s')) : Did k s e call s' := by
  have hidle : ∀ {p p' : Phase} {e}, s.phase = p → p.locals? = none → p.sub? = none →
      p'.sub? = none → Did k s e none (s.goto p') := fun hphase hlocals hsub hp' =>
    .idle (idle_unattached (hphase ▸ hlocals) (hphase ▸ hsub) hp')
  rcases stepped h with ⟨hphase, -, rfl | rfl⟩ | ⟨hphase | hphase | hphase, -, rfl | rfl⟩ |
    ⟨hphase, r⟩ | hphase | ⟨hphase, hanswered⟩ | hphase | hphase | hphase | hphase |
    ⟨hphase, hlooped⟩
  case read => exact .idle (idle_readSubscribe hphase r)
  case readCancelled =>
    exact .idle (idle_reject (by rw [hphase]; rfl) (by rw [hphase]; rfl) ..)
  case answered => exact did_answered hphase hanswered
  case initialSent => exact .idle (idle_sendInitial hphase)
  case initialFailed => exact .fail hphase
  case initialCancelled => exact .abandon hphase
  case running => exact did_looped hphase hlooped
  all_goals exact hidle hphase rfl rfl rfl

end Loops

/-- Nothing wakes up a session that is over. -/
theorem step?_ended [PyRepr] {k : Server} {s : Session} {sub : Option SubRef}
    (h : s.phase = .ended sub) (e : SessionEvent) : s.step? k e = none := by
  unfold step?
  rw [h]

@[simp] theorem sub?_connecting (requested : List PyStr) :
    (connecting requested).phase.sub? = none := by
  rw [connecting]
  split <;> rfl

@[simp] theorem locals?_sendInitial (s : Session) (l : Locals) (frames : List Frame) :
    (s.sendInitial l frames).phase.locals? = some l := by
  cases frames <;> rfl

theorem phase_take (s : Session) (l : Locals) (ls : Loops) (item : Option Letter) :
    ∃ ls', (s.take l ls item).phase = .running l ls' := by
  cases item <;> exact ⟨_, rfl⟩

/-- **A session is attached once**: any other stretch keeps its subscription, and its locals as long
as it has them. -/
theorem Did.kept_or_attached {k : Server} {s s' : Session} {e : SessionEvent}
    {call : Option Call} (h : Did k s e call s') :
    (s'.phase.sub? = s.phase.sub? ∧ ∀ l, s'.phase.locals? = some l → s.phase.locals? = some l) ∨
    ∃ f identity c, s.phase = .authenticating f ∧ k.resolveScene f identity = .ok (.ok c) ∧
      s'.phase.locals? = some ⟨c, k.subs.next, identity⟩ ∧
      call = some (.subscribeWithResume c f.live f.sinceSequence) := by
  have hended : ∀ {l : Locals} {p : Phase}, s.phase = p → p.sub? = some l.sub →
      (s.goto (.ended (some l.sub))).phase.sub? = s.phase.sub? ∧
        ∀ l', (s.goto (.ended (some l.sub))).phase.locals? = some l' →
          s.phase.locals? = some l' := fun hp hsub =>
    ⟨by rw [hp, hsub]; rfl, fun _ h => nomatch h⟩
  have hrunning : ∀ {l : Locals} {ls ls' : Loops}, s.phase = .running l ls →
      s'.phase = .running l ls' → s'.phase.sub? = s.phase.sub? ∧
        ∀ l, s'.phase.locals? = some l → s.phase.locals? = some l := fun hp hp' => by
    rw [hp, hp']
    exact ⟨rfl, fun _ h => h⟩
  rcases h with h | hphase | ⟨hphase, -, hscene⟩ | hphase | ⟨hphase, -, hphase'⟩ |
    @⟨l, ls, item, -, hphase, -⟩ | hphase
  · exact Or.inl ⟨h.sub, fun l hl => by rwa [← h.locals]⟩
  · exact Or.inl (hended hphase rfl)
  · exact Or.inr ⟨_, _, _, hphase, hscene, locals?_sendInitial .., rfl⟩
  · exact Or.inl (hended hphase rfl)
  · exact Or.inl (hrunning hphase hphase')
  · obtain ⟨ls', hphase'⟩ := phase_take s l ls item
    exact Or.inl (hrunning hphase hphase')
  · exact Or.inl (hended hphase rfl)

end Session

/-! ## Every reached world is well formed

Nothing is ever freed, so references stay good.  That no two sessions share a subscription is
because each attachment makes a fresh one. -/

namespace Server

/-- A client is only attached to a registered scene. -/
theorem registered_of_resolveScene {k : Server} {f : Subscribe} {identity : Identity}
    {c : SceneRef} (h : k.resolveScene f identity = .ok (.ok c)) : k.Registered c := by
  unfold resolveScene at h
  split at h
  · split at h
    · cases h
    · rename_i hactive
      cases h
      exact registered_of_activeScene hactive
  · split at h
    · cases h
    · split at h
      · cases h
      · split at h
        · cases h
        · cases h
        · split at h
          · cases h
          · rename_i hget
            cases h
            exact registered_of_get? hget
        · cases h

/-- Objects and subscriptions are never freed. -/
theorem next_le_step (k : Server) (op : Op) :
    k.objects.next ≤ (k.step op).objects.next ∧ k.subs.next ≤ (k.step op).subs.next := by
  have hgrow : ∀ {a k'}, Did k a k' → k.objects.next ≤ k'.objects.next ∧
      k.subs.next ≤ k'.subs.next := fun h => by
    rcases h with h | ⟨live, opening, -, -⟩ | ⟨cause, -, -⟩ | ⟨-, -⟩ | ⟨active, -, -, -, hsome⟩
    · exact ⟨h.next_le, h.subs_next.ge⟩
    · exact ⟨le_rfl, Nat.le_succ _⟩
    · exact ⟨le_rfl, le_rfl⟩
    · exact ⟨le_rfl, le_rfl⟩
    · exact ⟨le_rfl, (subs_next_move active hsome).ge⟩
  exact hgrow (did k op)

end Server

namespace World

/-- What holds of every world that is reached: each session's references point to objects, no two
sessions share a subscription, and a session that was not started does nothing. -/
structure Wf (w : World) : Prop where
  kit : w.kit.Wf
  sub_lt : ∀ i r, (w.sessions.get i).phase.sub? = some r → r < w.kit.subs.next
  sub_inj : ∀ i j r, (w.sessions.get i).phase.sub? = some r →
    (w.sessions.get j).phase.sub? = some r → i = j
  scene_lt : ∀ i l, (w.sessions.get i).phase.locals? = some l → l.scene < w.kit.objects.next
  blank : ∀ i, w.sessions.next ≤ i → (w.sessions.get i).phase = .ended none

/-- A kit on which no session has been started. -/
theorem wf_start {k : Server} (hk : k.Wf) : ({ kit := k } : World).Wf where
  kit := hk
  sub_lt _ _ h := nomatch h
  sub_inj _ _ _ h := nomatch h
  scene_lt _ _ h := nomatch h
  blank _ _ := rfl

variable [PyRepr]

theorem step_session {w : World} {i : ℕ} {e : SessionEvent} {call : Option Call} {s : Session}
    (h : (w.sessions.get i).step? w.kit e = some (call, s)) : w.step (.session i e)
      = { kit := w.kit.perform call, sessions := w.sessions.modify i fun _ => s } := by
  rw [step, h]

theorem step_session_of_none {w : World} {i : ℕ} {e : SessionEvent}
    (h : (w.sessions.get i).step? w.kit e = none) : w.step (.session i e) = w := by
  rw [step, h]

/-- What an event does to a world. -/
inductive Did (w : World) : Event → World → Prop
  | trusted (op : Op) : Did w (.trusted op) { w with kit := w.kit.step op }
  | connect (requested : List PyStr) :
      Did w (.connect requested) { w with sessions := w.sessions.alloc (.connecting requested) }
  | skip {i : ℕ} {e : SessionEvent} (h : (w.sessions.get i).step? w.kit e = none) :
      Did w (.session i e) w
  | session {i : ℕ} {e : SessionEvent} {call : Option Call} {s : Session}
      (h : (w.sessions.get i).step? w.kit e = some (call, s)) :
      Did w (.session i e)
        { kit := w.kit.perform call, sessions := w.sessions.modify i fun _ => s }

theorem did (w : World) (e : Event) : Did w e (w.step e) := by
  rcases e with op | requested | ⟨i, e⟩
  · exact .trusted op
  · exact .connect requested
  · rcases h : (w.sessions.get i).step? w.kit e with _ | ⟨call, s⟩
    · rw [step_session_of_none h]
      exact .skip h
    · rw [step_session h]
      exact .session h

/-- **An event makes at most one operation on the kit.** -/
theorem kit_step (w : World) (e : Event) :
    (w.step e).kit = match w.opOf e with
      | none => w.kit
      | some op => w.kit.step op := by
  rcases e with op | requested | ⟨i, e⟩
  · rfl
  · rfl
  · rw [step, opOf]
    rcases (w.sessions.get i).step? w.kit e with _ | ⟨_ | call, s⟩
    · rfl
    · rfl
    · rfl

theorem wf_kit_step {w : World} (h : w.kit.Wf) (e : Event) : (w.step e).kit.Wf := by
  rw [kit_step]
  split
  · exact h
  · exact Server.wf_step _ _ h

theorem next_le_kit_step (w : World) (e : Event) :
    w.kit.objects.next ≤ (w.step e).kit.objects.next ∧
      w.kit.subs.next ≤ (w.step e).kit.subs.next := by
  rw [kit_step]
  split
  · exact ⟨le_rfl, le_rfl⟩
  · exact Server.next_le_step _ _

/-- **What an event does to one session**: nothing, unless it starts it or wakes it up. -/
theorem Did.session_cases {w w' : World} {e : Event} (h : Did w e w') (i : ℕ) :
    w'.sessions.get i = w.sessions.get i ∨
    (∃ requested, w'.sessions.get i = .connecting requested ∧ w.sessions.next ≤ i ∧
      i < w'.sessions.next) ∨
    ∃ a call s, e = .session i a ∧ (w.sessions.get i).step? w.kit a = some (call, s) ∧
      w'.sessions.get i = s ∧ w'.kit = w.kit.perform call := by
  rcases h with op | requested | hnone | @⟨j, a, call, s, hstep⟩
  · exact Or.inl rfl
  · by_cases hi : i = w.sessions.next
    · refine Or.inr (Or.inl ⟨requested, ?_, hi.ge, hi ▸ Nat.lt_succ_self _⟩)
      rw [hi]
      exact Heap.get_alloc_next ..
    · exact Or.inl (Heap.get_alloc_of_ne _ _ hi)
  · exact Or.inl rfl
  · by_cases hi : i = j
    · subst hi
      exact Or.inr (Or.inr
        ⟨a, call, s, rfl, hstep, Heap.get_modify_self w.sessions i fun _ => s, rfl⟩)
    · exact Or.inl (Heap.get_modify_of_ne w.sessions (fun _ => s) hi)

/-- **The subscription an event leaves a session with** is the one it had, or a fresh one. -/
theorem Did.sub? {w w' : World} {e : Event} (h : Did w e w') (hwf : w.Wf) {i : ℕ} {r : SubRef}
    (hr : (w'.sessions.get i).phase.sub? = some r) :
    (w.sessions.get i).phase.sub? = some r ∨
      (r = w.kit.subs.next ∧ r < w'.kit.subs.next ∧ ∃ a, e = .session i a) := by
  rcases h.session_cases i with hsame | ⟨requested, hnew, -⟩ |
    ⟨a, call, s, rfl, hstep, hs, hkit⟩
  · exact Or.inl (hsame ▸ hr)
  · rw [hnew, Session.sub?_connecting] at hr
    cases hr
  · rw [hs] at hr
    rcases (Session.did hstep).kept_or_attached with ⟨hsub, -⟩ |
      ⟨f, identity, c, -, hscene, hlocals, hcall⟩
    · exact Or.inl (hsub ▸ hr)
    · have hc := hwf.kit.registered_lt c (Server.registered_of_resolveScene hscene)
      rw [Phase.sub?_of_locals? hlocals, Option.some.injEq] at hr
      refine Or.inr ⟨hr.symm, ?_, a, rfl⟩
      rw [hkit, hcall, ← hr, Server.perform, Call.op, Server.step_subscribeWithResume hc]
      exact Nat.lt_succ_self _

/-- The locals an event leaves a session with point to a scene. -/
theorem Did.scene_lt {w w' : World} {e : Event} (h : Did w e w') (hwf : w.Wf) {i : ℕ} {l : Locals}
    (hl : (w'.sessions.get i).phase.locals? = some l) : l.scene < w.kit.objects.next := by
  rcases h.session_cases i with hsame | ⟨requested, hnew, -⟩ |
    ⟨a, call, s, -, hstep, hs, -⟩
  · exact hwf.scene_lt i l (hsame ▸ hl)
  · have hsub := Phase.sub?_of_locals? hl
    rw [hnew, Session.sub?_connecting] at hsub
    cases hsub
  · rw [hs] at hl
    rcases (Session.did hstep).kept_or_attached with ⟨-, hkept⟩ |
      ⟨f, identity, c, -, hscene, hlocals, -⟩
    · exact hwf.scene_lt i l (hkept l hl)
    · rw [hlocals, Option.some.injEq] at hl
      rw [← hl]
      exact hwf.kit.registered_lt c (Server.registered_of_resolveScene hscene)

/-- Sessions are only ever added. -/
theorem Did.next_le {w w' : World} {e : Event} (h : Did w e w') :
    w.sessions.next ≤ w'.sessions.next := by
  rcases h with op | requested | hnone | hstep
  · exact le_rfl
  · exact Nat.le_succ _
  · exact le_rfl
  · exact le_rfl

/-- A session that has not been started is not woken up. -/
theorem Did.blank {w w' : World} {e : Event} (h : Did w e w') (hwf : w.Wf) {i : ℕ}
    (hi : w'.sessions.next ≤ i) : (w'.sessions.get i).phase = .ended none := by
  have hblank := hwf.blank i (h.next_le.trans hi)
  rcases h.session_cases i with hsame | ⟨requested, -, -, hlt⟩ | ⟨a, call, s, -, hstep, -, -⟩
  · rw [hsame]
    exact hblank
  · exact absurd hlt (not_lt.mpr hi)
  · rw [Session.step?_ended hblank] at hstep
    cases hstep

theorem wf_step (w : World) (e : Event) (h : w.Wf) : (w.step e).Wf where
  kit := wf_kit_step h.kit e
  sub_lt i r hr := by
    rcases (w.did e).sub? h hr with hold | ⟨-, hlt, -⟩
    · exact (h.sub_lt i r hold).trans_le (w.next_le_kit_step e).2
    · exact hlt
  sub_inj i j r hi hj := by
    rcases (w.did e).sub? h hi with hiold | ⟨hri, -, a, hai⟩ <;>
      rcases (w.did e).sub? h hj with hjold | ⟨hrj, -, b, hbj⟩
    · exact h.sub_inj i j r hiold hjold
    · exact absurd hrj (h.sub_lt i r hiold).ne
    · exact absurd hri (h.sub_lt j r hjold).ne
    · rw [hai] at hbj
      cases hbj
      rfl
  scene_lt i l hl := ((w.did e).scene_lt h hl).trans_le (w.next_le_kit_step e).1
  blank i hi := (w.did e).blank h hi

theorem wf_after (es : List Event) : (after es).Wf :=
  run_invariant (wf_start Server.wf_empty) wf_step es

/-- **Whatever the sessions do, their kit is in a state that a run of the kit reaches**: what holds
after every run of the kit holds under every interleaving of its sessions. -/
theorem kit_after (es : List Event) : ∃ ops, (after es).kit = Server.after ops := by
  refine @run_of_steps_run _ _ _ step _ Server.step World.kit (fun w e => ?_) {} es
  rw [kit_step]
  rcases w.opOf e with _ | op
  · exact ⟨[], rfl⟩
  · exact ⟨[op], rfl⟩

end World

end Lumencast
