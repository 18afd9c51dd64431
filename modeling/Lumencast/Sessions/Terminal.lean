import Lumencast.Sessions.World

/-!
# Sessions/Terminal — after an unrecoverable error

An error frame with `recoverable = false` announces the end of the connection.  The reader ends
after one that answers a text it cannot decode, but a writer that still waits in `queue.get` does
not see the flag; and after one that answers a second `Subscribe` the reader goes on as well.  An
observer keeps the sessions that were given a second `Subscribe`, and `terminal_iff` says that
nothing else is written, and no scene changed, once such an error is out.
-/

namespace Lumencast

open Machinery

/-- An error frame after which the server means to close. -/
def Frame.fatal : Frame → Bool
  | .error e => !e.recoverable
  | _ => false

namespace Phase

/-- The locals of a session whose reader awaits a client frame. -/
def reads? : Phase → Option Locals
  | .running l ls => if ls.reader = .receiving then some l else none
  | _ => none

/-- The locals of a session whose writer waits in `queue.get`. -/
def waits? : Phase → Option Locals
  | .running l ls => if ls.writer = .getting then some l else none
  | _ => none

/-- Where a session that has written an unrecoverable error is: on its way out, or, if it was given
a second `Subscribe`, anywhere in its loop. -/
def Leaving (again : Prop) : Phase → Prop
  | .rejecting => True
  | .closing => True
  | .ended _ => True
  | .running _ ls => ls.reader = .sendingLast ∨ ls.reader = .done ∨ again
  | _ => False

theorem Leaving.mono {again again' : Prop} (h : again → again') : ∀ {p : Phase},
    p.Leaving again → p.Leaving again'
  | .rejecting, _ => trivial
  | .closing, _ => trivial
  | .ended _, _ => trivial
  | .running _ _, hp => hp.imp_right (Or.imp_right h)

theorem reads?_eq_some {p : Phase} {l : Locals} :
    p.reads? = some l ↔ ∃ ls, p = .running l ls ∧ ls.reader = .receiving := by
  rcases p with _ | _ | _ | f | _ | _ | ⟨l', rest⟩ | ⟨l', ls⟩ | sub <;> simp [reads?, and_comm]

theorem waits?_eq_some {p : Phase} {l : Locals} :
    p.waits? = some l ↔ ∃ ls, p = .running l ls ∧ ls.writer = .getting := by
  rcases p with _ | _ | _ | f | _ | _ | ⟨l', rest⟩ | ⟨l', ls⟩ | sub <;> simp [waits?, and_comm]

end Phase

/-- A client frame that is answered, or that changes the scene of the session. -/
def Received.Heeded (k : Server) (l : Locals) : Received → Prop
  | .frame (.input f) => ∃ v, (k.objects.get l.scene).verdict l.identity f.patches = .ok v
  | .frame (.ping _) => True
  | .frame (.subscribe _) => True
  | .mismatch _ => True
  | .malformed _ => True
  | _ => False

namespace Session

/-- The session has written an unrecoverable error: one of its own, none out of a queue. -/
def Condemned (s : Session) : Prop := ∃ x ∈ s.written, x.issuer = none ∧ x.frame.fatal = true

/-- What happens to a session that is to be left alone. -/
structure LeftAlone (k : Server) (s : Session) (again : Prop) (e : SessionEvent) : Prop where
  /-- A writer that still waits in `queue.get` is not given a frame… -/
  frame : e = .dequeued → ∀ l, s.phase.waits? = some l → ∀ letter sub,
    (k.subs.get l.sub).dequeue ≠ some (some letter, sub)
  /-- …and does not time out there. -/
  ping : e = .pingDue → s.phase.waits? = none
  /-- After a second `Subscribe`, the client sends nothing that is heeded. -/
  read : again → ∀ r, e = .received r → ∀ l, s.phase.reads? = some l → ¬ r.Heeded k l

section Stretch

variable {s : Session}

theorem condemned_write {frame : Frame} {issuer : Option SceneRef} {p : Phase} :
    (s.write frame issuer p).Condemned ↔
      s.Condemned ∨ (issuer = none ∧ frame.fatal = true) := by
  simp only [Condemned, write, List.mem_append, List.mem_singleton, or_and_right, exists_or,
    exists_eq_left]

/-- A frame that is not fatal, or none of the session's own, condemns nobody. -/
theorem condemned_of_write {frame : Frame} {issuer : Option SceneRef} {p : Phase}
    (hframe : issuer = none → frame.fatal = false) (h : (s.write frame issuer p).Condemned) :
    s.Condemned := by
  rcases condemned_write.mp h with h | ⟨hissuer, hfatal⟩
  · exact h
  · rw [hframe hissuer] at hfatal
    cases hfatal

theorem not_condemned_connecting (requested : List PyStr) : ¬ (connecting requested).Condemned :=
  fun ⟨_, hx, _⟩ => absurd hx List.not_mem_nil

variable {k : Server} {l : Locals} {ls : Loops} {again : Prop}

/-- A reader that is neither done nor sending its last frame was given a second `Subscribe`. -/
theorem again_of_leaving (h : (Phase.running l ls).Leaving again)
    (hreader : ls.reader ≠ .sendingLast ∧ ls.reader ≠ .done) : again :=
  h.elim (fun h => absurd h hreader.1) fun h => h.elim (fun h => absurd h hreader.2) id

theorem condemned_of_sendInitial {frames : List Frame}
    (h : (s.sendInitial l frames).Condemned) : s.Condemned := by
  rcases frames with _ | ⟨f, rest⟩
  · exact h
  · exact @condemned_of_write s f (some l.scene) _ (fun hissuer => nomatch hissuer) h

theorem leaving_answered {f : Subscribe} {a : Authentication} {call : Option Call} {s' : Session}
    (hs : ¬ s.Condemned) (hanswered : Answered k s f a call s') (h : s'.Condemned) :
    s'.phase.Leaving again := by
  cases hanswered
  case attached => exact absurd (condemned_of_sendInitial h) hs
  case rejected => trivial
  case raised => trivial

theorem leaving_readSubscribe {r : Received} (hs : ¬ s.Condemned)
    (h : (s.readSubscribe r).Condemned) : (s.readSubscribe r).phase.Leaving again := by
  unfold readSubscribe at h ⊢
  split
  · exact absurd h hs
  all_goals trivial

/-! ## What may still happen to it

The invariant is about sessions that were not given a second `Subscribe`.  Once such a session
has written an unrecoverable error, its reader has ended or is about to, and the writer is all
that is left. -/

theorem written_write_ne {frame : Frame} {issuer : Option SceneRef} {p : Phase} :
    (s.write frame issuer p).written ≠ s.written := fun h =>
  absurd (List.append_right_eq_self.mp h) (List.cons_ne_nil _ _)

/-- An event that is neither a client frame nor wakes the writer in `queue.get`. -/
theorem leftAlone_of_other {e : SessionEvent} (hdequeued : e ≠ .dequeued) (hping : e ≠ .pingDue)
    (hreceived : ∀ r, e ≠ .received r) : s.LeftAlone k again e :=
  ⟨fun h => absurd h hdequeued, fun h => absurd h hping, fun _ r h => absurd h (hreceived r)⟩

variable [PyRepr]

/-- Only `AUTH_DENIED` would make the refusal of an input unrecoverable, and no refusal has that
code. -/
theorem fatal_refusal (seq : ℤ) (refusal : Refusal) : (errorFrame seq refusal.code refusal.message
    (refusal.code != .authDenied) refusal.path).fatal = false := by
  cases refusal <;> rfl

theorem leaving_receive (hs : s.Condemned → again) {r : Received} {again' : Prop}
    (hagain : (∃ f, r = .frame (.subscribe f)) → again') (hmono : again → again')
    (h : (s.receive k l ls r).2.Condemned) : (s.receive k l ls r).2.phase.Leaving again' := by
  have hstays : s.Condemned → ∀ ls', (Phase.running l ls').Leaving again' :=
    fun h _ => Or.inr (Or.inr (hmono (hs h)))
  rcases r with f | message | message | message
  · rcases f with f | f | f | f | nonce | nonce | f | f | _
    case input =>
      change (s.input k l ls f).2.phase.Leaving again'
      change (s.input k l ls f).2.Condemned at h
      rw [input] at h ⊢
      dsimp only at h ⊢
      split
      · exact Or.inr (Or.inl rfl)
      · rename_i hv
        rw [hv] at h
        exact hstays h _
      · rename_i refusal hv
        rw [hv] at h
        exact hstays (condemned_of_write (fun _ => fatal_refusal _ refusal) h) _
    case ping => exact hstays (condemned_of_write (fun _ => rfl) h) _
    case subscribe => exact Or.inr (Or.inr (hagain ⟨_, rfl⟩))
    all_goals exact hstays h _
  · exact Or.inl rfl
  · exact Or.inl rfl
  · exact Or.inr (Or.inl rfl)

theorem leaving_looped (hphase : s.phase = .running l ls) {e : SessionEvent} {call : Option Call}
    {s' : Session} {again' : Prop} (hs : s.Condemned → s.phase.Leaving again)
    (hlooped : Looped k s l ls e call s')
    (hagain : (∃ f l, e = .received (.frame (.subscribe f)) ∧ s.phase.reads? = some l) → again')
    (hmono : again → again') (h : s'.Condemned) : s'.phase.Leaving again' := by
  rw [hphase] at hs
  have hsame : s.Condemned → ∀ ls' : Loops, ls'.reader = ls.reader →
      (Phase.running l ls').Leaving again' := fun h ls' hreader => by
    rw [Phase.Leaving, hreader]
    exact (hs h).imp_right (Or.imp_right hmono)
  rcases hlooped with @⟨hreader, r⟩ | hsent | @⟨item, sub, -, -⟩ | _ | ⟨-, ok⟩ | _ | _
  case received =>
    have hreads : s.phase.reads? = some l := Phase.reads?_eq_some.mpr ⟨ls, hphase, hreader⟩
    exact @leaving_receive s k l ls again _
      (fun h => again_of_leaving (hs h) (by simp [hreader])) r again'
      (fun ⟨f, hf⟩ => hagain ⟨f, l, by rw [hf], hreads⟩) hmono h
  case readerSent =>
    obtain ⟨ls', rfl, hreader | hreader | rfl⟩ := readerSent_eq_some hsent
    · exact Or.inr (Or.inr (hmono (again_of_leaving (hs h) (by simp [hreader]))))
    · exact Or.inr (Or.inr (hmono (again_of_leaving (hs h) (by simp [hreader]))))
    · exact Or.inr (Or.inl rfl)
  case dequeued =>
    rcases item with _ | letter
    · exact hsame h _ rfl
    · exact hsame (@condemned_of_write s letter.frame (some letter.issuer) _
        (fun hissuer => nomatch hissuer) h) _ rfl
  case pingDue => exact hsame (condemned_of_write (fun _ => rfl) h) _ rfl
  case writerSent =>
    rcases ok with _ | _
    · exact hsame h _ rfl
    · exact hsame h _ rfl
  case gathered => trivial
  case cancelled => exact Or.inr (Or.inl rfl)

/-- **A session that has written an unrecoverable error is on its way out**, unless it was given a
second `Subscribe`. -/
theorem leaving_step {e : SessionEvent} {call : Option Call} {s' : Session} {again' : Prop}
    (hs : s.Condemned → s.phase.Leaving again) (hstep : s.step? k e = some (call, s'))
    (hagain : (∃ f l, e = .received (.frame (.subscribe f)) ∧ s.phase.reads? = some l) → again')
    (hmono : again → again') (h : s'.Condemned) : s'.phase.Leaving again' := by
  -- nobody is condemned before the client is attached, unless it is being turned away
  have hnot : ∀ {p : Phase}, s.phase = p → ¬ p.Leaving again → ¬ s.Condemned :=
    fun hphase hp h => hp (hphase ▸ hs h)
  rcases stepped hstep with ⟨hphase, -, rfl | rfl⟩ | ⟨-, -, rfl | rfl⟩ | ⟨hphase, r⟩ | _ |
    ⟨hphase, hanswered⟩ | _ | hphase | _ | _ | ⟨hphase, hlooped⟩
  case accepted.inl => exact absurd h (hnot hphase id)
  case read => exact leaving_readSubscribe (hnot hphase id) h
  case answered => exact leaving_answered (hnot hphase id) hanswered h
  case initialSent => exact absurd (condemned_of_sendInitial h) (hnot hphase id)
  case running => exact leaving_looped hphase hs hlooped hagain hmono h
  all_goals trivial

/-- **A client frame goes unheeded** when nothing is written and no scene changed. -/
theorem receive_still_iff (hc : l.scene < k.objects.next) (r : Received) :
    ((s.receive k l ls r).2.written = s.written ∧
      (k.perform (s.receive k l ls r).1).objects = k.objects) ↔ ¬ r.Heeded k l := by
  have hwrites : ∀ {frame issuer p k'}, ((s.write frame issuer p).written = s.written ∧
      Server.objects k' = k.objects) ↔ ¬ True := fun {frame issuer p k'} =>
    iff_of_false (fun h => written_write_ne h.1) (fun h => h trivial)
  have hsilent : ((s.goto (.running l ls.readerNext)).written = s.written ∧
      k.objects = k.objects) ↔ ¬ False := iff_of_true ⟨rfl, rfl⟩ not_false
  rcases r with f | message | message | message
  · rcases f with f | f | f | f | nonce | nonce | f | f | _
    case input =>
      have hverdict := Scene.applyInput_result (k.objects.get l.scene) k.subs l.identity f.patches
        (causeOf l.identity f.clientMsgId)
      change ((s.input k l ls f).2.written = s.written ∧
        (k.step (.scene l.scene (.applyInput l.identity f.patches
          (causeOf l.identity f.clientMsgId)))).objects = k.objects) ↔ ¬ ∃ v, _ = Except.ok v
      rw [input]
      dsimp only
      rw [hverdict]
      rcases hv : (k.objects.get l.scene).verdict l.identity f.patches with err | _ | refusal
      · rw [Server.step_applyInput_of_ne _ (by rw [hv]; rintro ⟨⟩)]
        refine iff_of_true ⟨rfl, rfl⟩ ?_
        rintro ⟨v, ⟨⟩⟩
      · rw [Server.step_applyInput _ hc hv]
        refine iff_of_false (fun h => ?_) fun h => h ⟨_, rfl⟩
        have hscene := congrArg (fun objects => (objects.get l.scene).seq.cur) h.2
        rw [Server.scene_post, if_pos rfl] at hscene
        exact absurd hscene (by change (_ : ℤ) + 1 ≠ _; omega)
      · exact iff_of_false (fun h => written_write_ne h.1) fun h => h ⟨_, rfl⟩
    case ping => exact hwrites
    case subscribe => exact hwrites
    all_goals exact hsilent
  · exact hwrites
  · exact hwrites
  · exact hsilent

/-- What a session does not await leaves it alone. -/
theorem leftAlone_of_none {e : SessionEvent} (h : s.step? k e = none) : s.LeftAlone k again e := by
  refine ⟨?_, ?_, ?_⟩
  · rintro rfl l hl letter sub hget
    obtain ⟨ls, hphase, hwriter⟩ := Phase.waits?_eq_some.mp hl
    rw [step?_running hphase, loop, if_pos hwriter, hget] at h
    cases h
  · rintro rfl
    rcases hl : s.phase.waits? with _ | l
    · rfl
    · obtain ⟨ls, hphase, hwriter⟩ := Phase.waits?_eq_some.mp hl
      rw [step?_running hphase, loop, if_pos hwriter] at h
      cases h
  · rintro - r rfl l hl
    obtain ⟨ls, hphase, hreader⟩ := Phase.reads?_eq_some.mp hl
    rw [step?_running hphase, loop, if_pos hreader] at h
    cases h

/-- The reader of a session on its way out is given a frame. -/
theorem received_still_iff {l : Locals} {ls : Loops} {r : Received} {call : Option Call}
    {s' : Session} (hc : l.scene < k.objects.next) (hs : s.phase.Leaving again)
    (hphase : s.phase = .running l ls) (hreader : ls.reader = .receiving)
    (hreceive : s.receive k l ls r = (call, s')) :
    (s'.written = s.written ∧ ∀ r', SessionEvent.received r = .received r' →
      (k.perform call).objects = k.objects) ↔ s.LeftAlone k again (.received r) := by
  have hreads : s.phase.reads? = some l := Phase.reads?_eq_some.mpr ⟨ls, hphase, hreader⟩
  have hstill := @receive_still_iff s k l ls _ hc r
  rw [hreceive] at hstill
  rw [hphase] at hs
  have hagain : again := again_of_leaving hs (by simp [hreader])
  constructor
  · intro h
    refine ⟨fun h => (nomatch h), fun h => (nomatch h), fun _ r' hr' l' hl' => ?_⟩
    cases hr'
    rw [hreads] at hl'
    cases hl'
    exact hstill.mp ⟨h.1, h.2 r rfl⟩
  · intro h
    obtain ⟨hw, ho⟩ := hstill.mpr (h.read hagain r rfl l hreads)
    exact ⟨hw, fun _ _ => ho⟩

/-- **One stretch of a session on its way out.** -/
theorem still_iff {e : SessionEvent} {call : Option Call} {s' : Session}
    (hc : ∀ l, s.phase.locals? = some l → l.scene < k.objects.next)
    (hs : s.phase.Leaving again) (hstep : s.step? k e = some (call, s')) :
    (s'.written = s.written ∧ ∀ r, e = .received r → (k.perform call).objects = k.objects) ↔
      s.LeftAlone k again e := by
  have hother : s'.written = s.written → e ≠ .dequeued → e ≠ .pingDue →
      (∀ r, e ≠ .received r) → ((s'.written = s.written ∧
        ∀ r, e = .received r → (k.perform call).objects = k.objects) ↔ s.LeftAlone k again e) :=
    fun hw hdequeued hping hreceived => iff_of_true ⟨hw, fun r h => absurd h (hreceived r)⟩
      (leftAlone_of_other hdequeued hping hreceived)
  have hstays : ∀ {p : Phase}, s.phase = p → p.Leaving again := fun hphase => hphase ▸ hs
  rcases stepped hstep with ⟨hphase, -, -⟩ | ⟨-, ⟨ok, rfl⟩ | rfl, -⟩ | ⟨hphase, -⟩ | hphase |
    ⟨hphase, -⟩ | hphase | hphase | hphase | hphase | @⟨l, ls, _, _, _, hphase, hlooped⟩
  case closed.inl | closed.inr =>
    exact hother rfl (fun h => nomatch h) (fun h => nomatch h) fun _ h => nomatch h
  case running =>
    have hwaits : ls.writer = .getting → s.phase.waits? = some l := fun h =>
      Phase.waits?_eq_some.mpr ⟨ls, hphase, h⟩
    rcases hlooped with @⟨hreader, r⟩ | hsent | @⟨item, sub, hwriter, hget⟩ | hwriter | _ | _ | _
    case received =>
      exact received_still_iff (hc l (by rw [hphase]; rfl)) hs hphase hreader rfl
    case readerSent =>
      obtain ⟨ls', rfl, -⟩ := readerSent_eq_some hsent
      exact hother rfl (fun h => nomatch h) (fun h => nomatch h) fun _ h => nomatch h
    case dequeued =>
      rcases item with _ | letter
      · refine iff_of_true ⟨rfl, fun _ h => (nomatch h)⟩ ⟨fun _ l' hl' letter sub' hget' => ?_,
          fun h => (nomatch h), fun _ _ h => (nomatch h)⟩
        rw [hwaits hwriter] at hl'
        cases hl'
        rw [hget] at hget'
        cases hget'
      · exact iff_of_false (fun h => written_write_ne h.1) fun h =>
          h.frame rfl l (hwaits hwriter) letter sub hget
    case pingDue =>
      refine iff_of_false (fun h => written_write_ne h.1) fun h => ?_
      have hnone := h.ping rfl
      rw [hwaits hwriter] at hnone
      cases hnone
    all_goals
      exact hother rfl (fun h => nomatch h) (fun h => nomatch h) fun _ h => nomatch h
  all_goals exact (hstays hphase).elim

end Stretch

end Session

namespace World

/-- The sessions whose readers have been given a second `Subscribe`. -/
def subscribedAgain (w : World) (again : Finset ℕ) : Event → Finset ℕ
  | .session i (.received (.frame (.subscribe _))) =>
      if (w.sessions.get i).phase.reads?.isSome then insert i again else again
  | _ => again

theorem mem_subscribedAgain {w : World} {again : Finset ℕ} {e : Event} {i : ℕ} (h : i ∈ again) :
    i ∈ w.subscribedAgain again e := by
  unfold subscribedAgain
  split
  · split
    · exact Finset.mem_insert_of_mem h
    · exact h
  · exact h

variable [PyRepr]

/-- Once a session has written an unrecoverable error, nothing more is written to its client, and no
frame of its client changes a scene. -/
def Terminal (w : World) (e : Event) : Prop :=
  ∀ i, (w.sessions.get i).Condemned →
    ((w.step e).sessions.get i).written = (w.sessions.get i).written ∧
      ∀ r, e = .session i (.received r) → (w.step e).kit.objects = w.kit.objects

/-- A session that has written an unrecoverable error is left alone. -/
def Unstirred (w : World) (again : Finset ℕ) (e : Event) : Prop :=
  ∀ i e', e = .session i e' → (w.sessions.get i).Condemned →
    (w.sessions.get i).LeftAlone w.kit (i ∈ again) e'

/-- A world next to the sessions that were given a second `Subscribe`. -/
def watched (x : World × Finset ℕ) (e : Event) : World × Finset ℕ :=
  (x.1.step e, x.1.subscribedAgain x.2 e)

/-- Sessions that have written an unrecoverable error were started, and are on their way out. -/
structure AllLeaving (x : World × Finset ℕ) : Prop where
  wf : x.1.Wf
  started : ∀ i, (x.1.sessions.get i).Condemned → i < x.1.sessions.next
  leaving : ∀ i, (x.1.sessions.get i).Condemned → (x.1.sessions.get i).phase.Leaving (i ∈ x.2)

theorem AllLeaving.watched {x : World × Finset ℕ} (h : AllLeaving x) (e : Event) :
    AllLeaving (watched x e) := by
  have hnext := (x.1.did e).next_le
  have hboth : ∀ i, ((x.1.step e).sessions.get i).Condemned → i < (x.1.step e).sessions.next ∧
      ((x.1.step e).sessions.get i).phase.Leaving (i ∈ x.1.subscribedAgain x.2 e) := fun i hi => by
    have hmono : i ∈ x.2 → i ∈ x.1.subscribedAgain x.2 e := mem_subscribedAgain
    rcases (x.1.did e).session_cases i with hsame | ⟨requested, hnew, -⟩ |
      ⟨a, call, s, rfl, hstep, hs, -⟩
    · rw [hsame] at hi ⊢
      exact ⟨(h.started i hi).trans_le hnext, (h.leaving i hi).mono hmono⟩
    · rw [hnew] at hi
      exact absurd hi (Session.not_condemned_connecting requested)
    · rw [hs] at hi ⊢
      constructor
      · by_contra hi'
        rw [Session.step?_ended (h.wf.blank i (hnext.trans (not_lt.mp hi')))] at hstep
        cases hstep
      · refine Session.leaving_step (h.leaving i) hstep ?_ hmono hi
        rintro ⟨f, l, rfl, hreads⟩
        rw [subscribedAgain, if_pos (by rw [hreads]; rfl)]
        exact Finset.mem_insert_self i x.2
  exact ⟨wf_step x.1 e h.wf, fun i hi => (hboth i hi).1, fun i hi => (hboth i hi).2⟩

/-- **One event, judged before it happens.** -/
theorem terminal_iff_unstirred {x : World × Finset ℕ} (h : AllLeaving x) (e : Event) :
    x.1.Terminal e ↔ x.1.Unstirred x.2 e := by
  rcases e with op | requested | ⟨i, e⟩
  · exact iff_of_true (fun _ _ => ⟨rfl, fun _ h => (nomatch h)⟩) fun _ _ h => (nomatch h)
  · refine iff_of_true (fun i hi => ⟨?_, fun _ h => (nomatch h)⟩) fun _ _ h => (nomatch h)
    rw [step, Heap.get_alloc_of_ne _ _ (h.started i hi).ne]
  · rcases hstep : (x.1.sessions.get i).step? x.1.kit e with _ | ⟨call, s⟩
    · refine iff_of_true (fun _ _ => ?_) fun j e' heq _ => ?_
      · rw [step_session_of_none hstep]
        exact ⟨rfl, fun _ _ => rfl⟩
      · cases heq
        exact Session.leftAlone_of_none hstep
    · have hw := step_session hstep
      have hstill : (x.1.sessions.get i).Condemned →
          ((s.written = (x.1.sessions.get i).written ∧
            ∀ r, e = .received r → (x.1.kit.perform call).objects = x.1.kit.objects) ↔
              (x.1.sessions.get i).LeftAlone x.1.kit (i ∈ x.2) e) := fun hi =>
        Session.still_iff (h.wf.scene_lt i) (h.leaving i hi) hstep
      rw [Terminal, hw]
      constructor
      · intro ht j e' heq hj
        cases heq
        obtain ⟨hwritten, hobjects⟩ := ht i hj
        rw [Heap.get_modify_self] at hwritten
        exact (hstill hj).mp ⟨hwritten, fun r hr => hobjects r (by rw [hr])⟩
      · intro hu j hj
        by_cases hji : j = i
        · subst hji
          obtain ⟨hwritten, hobjects⟩ := (hstill hj).mpr (hu j e rfl hj)
          rw [Heap.get_modify_self]
          exact ⟨hwritten, fun r hr => by cases hr; exact hobjects r rfl⟩
        · rw [Heap.get_modify_of_ne _ _ hji]
          exact ⟨rfl, fun r hr => by cases hr; exact absurd rfl hji⟩

/-- **When an unrecoverable error is the last of a session**: exactly when no writer that waits in
`queue.get` is given a frame or times out after it, and no client sends anything that is heeded
after a second `Subscribe`. -/
theorem terminal_iff (es : List Event) : Steps step Terminal {} es ↔
    Steps watched (fun x e => x.1.Unstirred x.2 e) ({}, ∅) es := by
  have hwatched : Steps watched (fun x e => x.1.Terminal e) ({}, ∅) es ↔
      Steps watched (fun x e => x.1.Unstirred x.2 e) ({}, ∅) es :=
    steps_congr (I := AllLeaving)
      ⟨wf_start Server.wf_empty, fun _ ⟨_, hx, _⟩ => absurd hx List.not_mem_nil,
        fun _ ⟨_, hx, _⟩ => absurd hx List.not_mem_nil⟩
      (fun _ e h => h.watched e) (fun _ e h => terminal_iff_unstirred h e) es
  rw [← hwatched]
  exact (@steps_map _ _ _ watched Prod.fst step (fun _ _ => rfl) Terminal ({}, ∅) es).symm

/-- An operator is let in on scene `0`, and is sent its snapshot. -/
def operatorRun : List Event :=
  [.trusted (.newScene "a" "v1" [] true), .connect ["lsdp.v1"], .session 0 (.sent true),
    .session 0 (.received (.frame (.subscribe { token := .str "t" }))),
    .session 0 (.authenticated (.identity { role := some .operator })), .session 0 (.sent true)]

/-- It subscribes again, and then sends an input. -/
def resubscribedRun : List Event :=
  operatorRun ++ [.session 0 (.received (.frame (.subscribe { token := .str "t" }))),
    .session 0 (.readerSent true)]

/-- The input it sends. -/
def lateInput : Event :=
  .session 0 (.received (.frame (.input { patches := [⟨"__inputs.x", .int 1, none⟩] })))

/-- It sends a text that does not decode, and then the scene emits. -/
def malformedRun : List Event :=
  operatorRun ++ [.session 0 (.received (.malformed "decode: invalid json")),
    .session 0 (.readerSent true), .trusted (.scene 0 (.emit (.ofList [("x", .int 1)]) none))]

end World

namespace World

/-- **Not the last**: after the error that answers a second `Subscribe` an input is accepted, and
after the one that answers a malformed text the writer sends a delta. -/
theorem resubscribedRun_goesOn :
    ((@after .plain resubscribedRun).sessions.get 0).Condemned ∧
      ((@after .plain (resubscribedRun ++ [lateInput])).kit.objects.get 0).currentSeq = 2 ∧
      ¬ Steps (@step .plain) (@Terminal .plain) {} (resubscribedRun ++ [lateInput]) ∧
    ((@after .plain malformedRun).sessions.get 0).Condemned ∧
      ((@after .plain (malformedRun ++ [.session 0 .dequeued])).sessions.get 0).written.length = 3 ∧
      ¬ Steps (@step .plain) (@Terminal .plain) {} (malformedRun ++ [.session 0 .dequeued]) := by
  have hagain : ((@after .plain resubscribedRun).sessions.get 0).Condemned :=
    ⟨_, List.mem_cons_of_mem _ List.mem_cons_self, rfl, rfl⟩
  have hmalformed : ((@after .plain malformedRun).sessions.get 0).Condemned :=
    ⟨_, List.mem_cons_of_mem _ List.mem_cons_self, rfl, rfl⟩
  refine ⟨hagain, rfl, fun h => ?_, hmalformed, rfl, fun h => ?_⟩
  · have hobjects := (h resubscribedRun lateInput [] rfl 0 hagain).2 _ rfl
    have hseq := congrArg (fun objects => (objects.get 0).currentSeq) hobjects
    have htwo : (2 : ℤ) = 1 := hseq
    exact absurd htwo (by decide)
  · have hwritten := (h malformedRun (.session 0 .dequeued) [] rfl 0 hmalformed).1
    have hlength := congrArg List.length hwritten
    have hthree : 3 = 2 := hlength
    exact absurd hthree (by decide)

end World

end Lumencast
