import Lumencast.Sessions.Speech

/-!
# Sessions/Replies — what a client is answered

A frame that its session receives is due one answer at most (`Session.due`): a pong with the nonce
of a ping, or the error that says what is wrong with it.  In every run the replies a session writes
are the answers due to what it received, one for one and in order (`answered_in_order`): no ping is
lost or answered twice, and no error comes from anywhere else.
-/

namespace Lumencast

open Machinery

/-- A frame that no scene issued and no timer sent. -/
def Sent.isReply (x : Sent) : Bool :=
  match x.issuer, x.frame with
  | none, .ping _ => false
  | none, _ => true
  | some _, _ => false

namespace Session

/-- The replies a session has written, in order. -/
def replies (s : Session) : List Frame := (s.written.filter Sent.isReply).map (·.frame)

/-- What a client with the locals `l` is to be answered. -/
def due [PyRepr] (k : Server) (l : Locals) : Received → Option Frame
  | .frame (.ping nonce) => some (.pong nonce)
  | .frame (.subscribe _) =>
      some (errorFrame (k.objects.get l.scene).currentSeq .internal "duplicate subscribe" false none)
  | .frame (.input f) =>
      match (k.objects.get l.scene).verdict l.identity f.patches with
      | .ok (some refusal) =>
          some (errorFrame (k.objects.get l.scene).currentSeq refusal.code refusal.message
            (refusal.code != .authDenied) refusal.path)
      | _ => none
  | .frame _ => none
  | .mismatch message =>
      some (errorFrame (k.objects.get l.scene).currentSeq .versionMismatch message false none)
  | .malformed message =>
      some (errorFrame (k.objects.get l.scene).currentSeq .internal message false none)
  | .raised _ => none

/-- The answer that is due when a session wakes up, if its reader receives something. -/
def dueAt [PyRepr] (k : Server) (s : Session) (e : SessionEvent) : Option Frame :=
  match s.phase, e with
  | .running l ls, .received r => if ls.reader = .receiving then due k l r else none
  | _, _ => none

section Stretch

variable {k : Server} {s s' : Session} {l : Locals} {ls : Loops}

theorem replies_write (s : Session) (f : Frame) (issuer : Option SceneRef) (p : Phase) :
    (s.write f issuer p).replies
      = s.replies ++ if Sent.isReply ⟨f, issuer⟩ then [f] else [] := by
  rw [replies, write, List.filter_append, List.map_append, replies]
  congr 1
  rw [List.filter_singleton]
  cases Sent.isReply ⟨f, issuer⟩ <;> rfl

theorem replies_sendInitial (s : Session) (l : Locals) (frames : List Frame) :
    (s.sendInitial l frames).replies = s.replies := by
  rcases frames with _ | ⟨f, rest⟩
  · rfl
  · rw [sendInitial, replies_write]
    exact List.append_nil _

theorem replies_take (s : Session) (l : Locals) (ls : Loops) (item : Option Letter) :
    (s.take l ls item).replies = s.replies := by
  rcases item with _ | letter
  · rfl
  · rw [take, replies_write]
    exact List.append_nil _

/-- **What a session receives it answers**, as it is due. -/
theorem replies_receive [PyRepr] (r : Received) :
    (s.receive k l ls r).2.replies = s.replies ++ (due k l r).toList := by
  have herror : ∀ code message recoverable path reader,
      (s.replyError k l ls code message recoverable path reader).replies = s.replies
        ++ [errorFrame (k.objects.get l.scene).currentSeq code message recoverable path] :=
    fun _ _ _ _ _ => replies_write ..
  rcases r with f | message | message | message
  · rcases f with f | f | f | f | nonce | nonce | f | f | _
    case input =>
      change (s.input k l ls f).2.replies = s.replies ++ (due k l (.frame (.input f))).toList
      rw [input, Scene.applyInput_result, due]
      rcases (k.objects.get l.scene).verdict l.identity f.patches with e | _ | refusal
      · exact (List.append_nil _).symm
      · exact (List.append_nil _).symm
      · exact herror ..
    case ping => exact replies_write ..
    case subscribe => exact herror ..
    all_goals exact (List.append_nil _).symm
  · exact herror ..
  · exact herror ..
  · exact (List.append_nil _).symm

theorem replies_looped [PyRepr] (hphase : s.phase = .running l ls) {e : SessionEvent}
    {call : Option Call} (h : Looped k s l ls e call s') :
    s'.replies = s.replies ++ (dueAt k s e).toList := by
  have hnone {e : SessionEvent} (he : ∀ r, e ≠ .received r) : dueAt k s e = none := by
    unfold dueAt
    rw [hphase]
    cases e with
    | received r => exact absurd rfl (he r)
    | _ => rfl
  rcases h with @⟨hreader, r⟩ | hsent | @⟨item, _, -, -⟩ | _ | @⟨-, ok⟩ | _ | _
  case received =>
    unfold dueAt
    rw [replies_receive, hphase]
    dsimp only
    rw [if_pos hreader]
  case readerSent =>
    obtain ⟨ls', rfl, -⟩ := readerSent_eq_some hsent
    rw [hnone (fun _ h => by cases h)]
    exact (List.append_nil _).symm
  case dequeued =>
    rw [hnone (fun _ h => by cases h), replies_take]
    exact (List.append_nil _).symm
  case pingDue =>
    rw [hnone (fun _ h => by cases h), replies_write]
    rfl
  all_goals
    rw [hnone (fun _ h => by cases h)]
    exact (List.append_nil _).symm

variable [PyRepr]

/-- Nothing is due before the loops run… -/
theorem dueAt_of_unattached (h : s.phase.sub? = none) (e : SessionEvent) : dueAt k s e = none := by
  unfold dueAt
  split
  · rename_i hphase
    rw [hphase] at h
    cases h
  · rfl

/-- …nor for what the session does not await. -/
theorem dueAt_of_step?_none {e : SessionEvent} (h : s.step? k e = none) : dueAt k s e = none := by
  unfold dueAt
  split
  · rename_i l ls r hphase
    rw [step?_running hphase, loop] at h
    split
    · rename_i hreader
      rw [if_pos hreader] at h
      cases h
    · rfl
  · rfl

/-- What a session has answered, next to what was due: they are the same once it is attached. -/
structure AnswersTo (s : Session) (owed : List Frame) : Prop where
  unattached : s.phase.sub? = none → owed = []
  attached : ∀ r, s.phase.sub? = some r → s.replies = owed

theorem answersTo_step? {owed : List Frame} (h : s.AnswersTo owed)
    (hfresh : s.phase.Fresh → s.written = []) {e : SessionEvent} {call : Option Call}
    (hstep : s.step? k e = some (call, s')) :
    s'.AnswersTo (owed ++ (dueAt k s e).toList) := by
  have hunattached (hsub : s.phase.sub? = none) (hsub' : s'.phase.sub? = none) :
      s'.AnswersTo (owed ++ (dueAt k s e).toList) := by
    rw [dueAt_of_unattached hsub, h.unattached hsub]
    refine ⟨fun _ => rfl, fun r hr => ?_⟩
    rw [hsub'] at hr
    cases hr
  have hinitial {l : Locals} {rest : List Frame} (hphase : s.phase = .initial l rest)
      (hsub' : s'.phase.sub? = some l.sub) (hsame : s'.replies = s.replies) :
      s'.AnswersTo (owed ++ (dueAt k s e).toList) := by
    have hnone : dueAt k s e = none := by
      unfold dueAt
      rw [hphase]
    refine ⟨fun hnone' => ?_, fun r hr => ?_⟩
    · rw [hsub'] at hnone'
      cases hnone'
    · rw [hnone, hsame, h.attached l.sub (by rw [hphase]; rfl)]
      exact (List.append_nil _).symm
  rcases stepped hstep with ⟨hphase, -, rfl | rfl⟩ | ⟨hphase | hphase | hphase, -, rfl | rfl⟩ |
    ⟨hphase, r⟩ | hphase | @⟨f, a, _, _, hphase, hanswered⟩ | hphase |
    @⟨l, rest, hphase⟩ | @⟨l, rest, hphase⟩ | @⟨l, rest, hphase⟩ | @⟨l, ls, _, _, _, hphase, hlooped⟩
  case read =>
    refine hunattached (by rw [hphase]; rfl) ?_
    unfold readSubscribe
    split <;> rfl
  case answered =>
    have hsub : s.phase.sub? = none := by rw [hphase]; rfl
    rcases hanswered with @⟨identity, c, -, -⟩ | _ | _
    · rw [dueAt_of_unattached hsub, h.unattached hsub]
      refine ⟨fun _ => rfl, fun r _ => ?_⟩
      have hsilent : s.written = [] := hfresh (by rw [hphase]; trivial)
      rw [replies_sendInitial, replies, hsilent]
      rfl
    · exact hunattached hsub rfl
    · exact hunattached hsub rfl
  case initialSent =>
    refine hinitial hphase ?_ (replies_sendInitial s l rest)
    exact Phase.sub?_of_locals? (locals?_sendInitial s l rest)
  case initialFailed => exact hinitial hphase rfl rfl
  case initialCancelled => exact hinitial hphase rfl rfl
  case running =>
    have hsub : s.phase.sub? = some l.sub := by rw [hphase]; rfl
    have hkept : s'.phase.sub? = some l.sub := by
      rcases (did hstep).kept_or_attached with ⟨hsame, -⟩ | ⟨f, _, _, hauth, -⟩
      · exact hsame.trans hsub
      · rw [hphase] at hauth
        cases hauth
    refine ⟨fun hnone => ?_, fun r _ => ?_⟩
    · rw [hkept] at hnone
      cases hnone
    · rw [replies_looped hphase hlooped, h.attached l.sub hsub]
  all_goals exact hunattached (by rw [hphase]; rfl) rfl

end Stretch

end Session

namespace World

variable [PyRepr]

/-- The answer that the session `i` owes after an event. -/
def dueTo (i : ℕ) (w : World) : Event → Option Frame
  | .session j e => if j = i then Session.dueAt w.kit (w.sessions.get i) e else none
  | _ => none

theorem answersTo_after (es : List Event) (i : ℕ) :
    ((after es).sessions.get i).AnswersTo (translated step (dueTo i) {} es) := by
  induction es using List.reverseRecOn with
  | nil => exact ⟨fun _ => rfl, fun r hr => by cases hr⟩
  | append_singleton es e ih =>
    have hone : translated step (dueTo i) {} (es ++ [e])
        = translated step (dueTo i) {} es ++ (dueTo i (after es) e).toList := by
      rw [translated_append, translated, translated, List.append_nil]
      rfl
    rw [hone, after, run_concat]
    change ((step (after es) e).sessions.get i).AnswersTo _
    rcases e with op | requested | ⟨j, e⟩
    · exact (List.append_nil _).symm ▸ ih
    · change ((after es).sessions.alloc (.connecting requested)).get i |>.AnswersTo
        (translated step (dueTo i) {} es ++ [])
      rw [List.append_nil]
      by_cases hi : i = (after es).sessions.next
      · have hblank : ((after es).sessions.get i).phase.sub? = none := by
          rw [(wf_after es).blank i hi.ge]
          rfl
        rw [ih.unattached hblank, hi, Heap.get_alloc_next]
        exact ⟨fun _ => rfl, fun r hr => by
          rw [Session.sub?_connecting] at hr
          cases hr⟩
      · rw [Heap.get_alloc_of_ne _ _ hi]
        exact ih
    · by_cases hj : j = i
      · subst hj
        rw [dueTo, if_pos rfl]
        rcases hstep : ((after es).sessions.get j).step? (after es).kit e with _ | ⟨call, s⟩
        · rw [step_session_of_none hstep, Session.dueAt_of_step?_none hstep]
          exact (List.append_nil _).symm ▸ ih
        · rw [step_session hstep, Heap.get_modify_self]
          exact Session.answersTo_step? ih ((allSpoken_after es).spoken j).fresh hstep
      · rw [dueTo, if_neg hj]
        rcases hstep : ((after es).sessions.get j).step? (after es).kit e with _ | ⟨call, s⟩
        · rw [step_session_of_none hstep]
          exact (List.append_nil _).symm ▸ ih
        · rw [step_session hstep, Heap.get_modify_of_ne _ _ (Ne.symm hj)]
          exact (List.append_nil _).symm ▸ ih

/-- **Each frame is answered as it is due**, once and in order: in every run, the replies that a
session with a client has written are the answers due to what it received. -/
theorem answered_in_order (es : List Event) {i : ℕ} {r : SubRef}
    (hr : ((after es).sessions.get i).phase.sub? = some r) :
    ((after es).sessions.get i).replies = translated step (dueTo i) {} es :=
  (answersTo_after es i).attached r hr

end World

namespace World

theorem answered_in_order_watchedRun : ((@after .plain watchedRun).sessions.get 0).replies
    = [errorFrame 3 .internal "duplicate subscribe" false none] :=
  (@answered_in_order .plain watchedRun 0 0 rfl).trans rfl

end World

end Lumencast
