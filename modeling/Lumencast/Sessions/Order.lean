import Mathlib.Data.Finset.Lattice.Lemmas
import Lumencast.Sessions.Line
import Lumencast.Sessions.Terminal

/-!
# Sessions/Order — errors and the numbered stream

The reader writes error frames past the queue, numbered by the scene's counter, while deltas with
lower numbers may still wait in the queue: a client that checks every number then reports a gap, or
drops a delta as a replay.  An observer keeps the subscribers that are short of a number, and
`inOrder_of_undisturbed` says what disturbs the stream of a session that stays on its scene: such an
error, a delta behind a number that was lost, and records with a gap.
-/

namespace Lumencast

open Machinery SequenceTracker

/-! ## Whole runs

The condition is about one step, judged by the state before it.  The set of subscribers that are
short of a number is kept beside the world, since no state of the kit records it. -/

namespace Event

/-- What the session `i` receives. -/
def received? (i : ℕ) : Event → Option Received
  | .session j (.received r) => if j = i then some r else none
  | _ => none

/-- Whether the event wakes up the session `i`. -/
def wakes (i : ℕ) : Event → Bool
  | .session j _ => j == i
  | _ => false

/-- Whether trusted code reads the queue of a subscription. -/
def readsQueue (r : SubRef) : Event → Bool
  | .trusted (.dequeue r') => r' == r
  | _ => false

end Event

namespace World

variable [PyRepr]

/-- After the event the session `i`, if it is attached, is still served by its scene over an open
queue; and the event is not trusted code reading that queue. -/
def StaysPut (i : ℕ) (w : World) (e : Event) : Prop :=
  ∀ l ∈ ((w.step e).sessions.get i).phase.locals?,
    (w.step e).kit.Owns l.scene l.sub ∧ ((w.step e).kit.subs.get l.sub).closed = false ∧
      e.readsQueue l.sub = false

instance (i : ℕ) (w : World) (e : Event) : Decidable (w.StaysPut i e) := by
  unfold StaysPut
  infer_instance

/-- What does not disturb the stream of the session `i`. -/
structure Undisturbed (i : ℕ) (x : World × Finset SubRef) (e : Event) : Prop where
  /-- An error is written only to a client that is up to date… -/
  answer : ∀ l ∈ (x.1.sessions.get i).phase.reads?, ∀ r ∈ e.received? i,
    Session.refuses x.1.kit l r = true →
      Session.UpToDate x.1.kit (l.sub ∈ x.2) (x.1.sessions.get i) l
  /-- …no delta is put in its queue while it is short of a number… -/
  deliver : ∀ l ∈ (x.1.sessions.get i).phase.locals?, ∀ op ∈ x.1.opOf e,
    x.1.kit.DeliversInTurn x.2 l.sub (x.1.kit.act op)
  /-- …and it is not opened with records that have a gap. -/
  resume : ∀ op ∈ x.1.opOf e, e.wakes i = true →
    (match op with
      | .scene c (.subscribeWithResume _ since) => (x.1.kit.objects.get c).Unbroken since
      | _ => True)

instance (i : ℕ) (x : World × Finset SubRef) (e : Event) : Decidable (Undisturbed i x e) := by
  have : ∀ op : Op, Decidable (match op with
      | .scene c (.subscribeWithResume _ since) => (x.1.kit.objects.get c).Unbroken since
      | _ => True) := fun op => by
    rcases op with _ | _ | ⟨c, op⟩ | _ | _ | _ | _
    case scene => cases op <;> exact inferInstanceAs (Decidable _)
    all_goals exact inferInstanceAs (Decidable True)
  exact decidable_of_iff (_ ∧ _ ∧ _) ⟨fun h => ⟨h.1, h.2.1, h.2.2⟩,
    fun h => ⟨h.answer, h.deliver, h.resume⟩⟩

/-- The subscriber that an operation opens with records that end short of the counter. -/
def openedShort (k : Server) : Op → Finset SubRef
  | .scene c (.subscribeWithResume _ since) =>
      if c < k.objects.next ∧ (k.objects.get c).EndsShort since then {k.subs.next} else ∅
  | _ => ∅

/-- A world next to the subscribers that are short of a number. -/
def trackShort (x : World × Finset SubRef) (e : Event) : World × Finset SubRef :=
  (x.1.step e,
    match x.1.opOf e with
    | none => x.2
    | some op => x.1.kit.shortAfter x.2 (x.1.kit.act op) ∪ openedShort x.1.kit op)

/-- What carries the order of the session `i` from one state to the next. -/
structure InLine (i : ℕ) (x : World × Finset SubRef) : Prop where
  wf : x.1.Wf
  stays : ∀ l, (x.1.sessions.get i).phase.locals? = some l → x.1.kit.Owns l.scene l.sub
  tidy : (x.1.sessions.get i).Tidy x.1.kit x.2

end World

namespace Session

section Stretch

variable {k : Server} {short : Finset SubRef} {s : Session}

theorem tidy_goto {p : Phase} (horder : InOrder s.frames) (hp : p.locals? = none)
    (hfresh : p.Fresh → s.written = []) : (s.goto p).Tidy k short where
  order := horder
  fresh := hfresh
  held l hl := by
    have hnone : (s.goto p).phase.locals? = none := hp
    rw [hnone] at hl
    cases hl

/-- A client that is turned away is sent one error frame, numbered `0`. -/
theorem tidy_reject (h : s.written = []) (code : ErrorCode) (message : PyStr) :
    (s.reject code message).Tidy k short where
  order := by
    rw [reject, frames_write, frames, h]
    exact inOrder_concat.mpr ⟨steps_nil, rfl⟩
  fresh := False.elim
  held _ hl := nomatch hl

theorem tidy_readSubscribe (h : s.written = []) (r : Received) :
    (s.readSubscribe r).Tidy k short := by
  have horder : InOrder s.frames := by
    rw [frames, h]
    exact steps_nil
  unfold readSubscribe
  split
  · exact tidy_goto horder rfl fun _ => h
  · exact tidy_reject h _ _
  · exact tidy_goto horder rfl False.elim
  · exact tidy_reject h _ _
  · exact tidy_reject h _ _

/-- The phases of an attached session. -/
theorem tidy_of_held {l : Locals} (horder : InOrder s.frames) (hl : s.phase.locals? = some l)
    (h : Held k (l.sub ∈ short) s l) : s.Tidy k short where
  order := horder
  fresh hfresh := by
    rcases hphase : s.phase with _ | _ | _ | f | _ | _ | ⟨l', rest⟩ | ⟨l', ls⟩ | sub <;>
      rw [hphase] at hl hfresh
    all_goals first | exact False.elim hfresh | cases hl
  held l' hl' := by
    rw [hl] at hl'
    cases hl'
    exact h

/-- The next initial frame is sent. -/
theorem tidy_sendInitial {l : Locals} {rest : List Frame} (h : s.Tidy k short)
    (hphase : s.phase = .initial l rest) : (s.sendInitial l rest).Tidy k short := by
  have hsame : s.goto (.initial l rest) = s := by
    rw [← hphase]
    rfl
  have hheld : Held k (l.sub ∈ short) (s.goto (.initial l rest)) l := by
    rw [hsame]
    exact h.held l (by rw [hphase]; rfl)
  obtain ⟨horder, hheld'⟩ := hheld.sendInitial h.order
  exact tidy_of_held horder (locals?_sendInitial ..) hheld'

/-- **A client is attached.** -/
theorem tidy_attach {k : Server} (hwf : k.Wf) {c : SceneRef} (live : Bool) {since : Option ℤ}
    (identity : Identity) (h : s.written = []) (hunbroken : (k.objects.get c).Unbroken since)
    (hshort : (k.objects.get c).EndsShort since → k.subs.next ∈ short) :
    (s.sendInitial ⟨c, k.subs.next, identity⟩
      (openingFrames ((k.objects.get c).resumeAnswer since))).Tidy
        (k.attach c live (Scene.openingOf ((k.objects.get c).resumeAnswer since))) short := by
  have horder : InOrder s.frames := by
    rw [frames, h]
    exact steps_nil
  have hheard : s.heard = {} := by rw [heard, frames, h]; rfl
  have hlast : s.lastSeen = none := by rw [lastSeen, h]; rfl
  obtain ⟨n, hn, hends⟩ := Scene.accepts_opening (hwf.seq_pos c) hunbroken
  have hqueued : ((k.attach c live (Scene.openingOf ((k.objects.get c).resumeAnswer since))).subs.get
      k.subs.next).queued = [] := by
    rw [Server.sub_attach_next]
    rfl
  have hseq : ((k.attach c live (Scene.openingOf
      ((k.objects.get c).resumeAnswer since))).objects.get c).currentSeq
        = (k.objects.get c).currentSeq := by
    rw [Scene.currentSeq, Server.seq_attach]
    rfl
  have hheld : Held (k.attach c live (Scene.openingOf ((k.objects.get c).resumeAnswer since)))
      (k.subs.next ∈ short) (s.goto (.initial ⟨c, k.subs.next, identity⟩
        (openingFrames ((k.objects.get c).resumeAnswer since)))) ⟨c, k.subs.next, identity⟩ := by
    refine ⟨?_, ⟨n, ?_, fun hno => hseq ▸ hends fun hends' => hno (hshort hends')⟩,
      fun n c hn => ?_⟩
    · rw [hqueued, List.append_nil]
      exact Scene.inStream_opening (hwf.seq_pos c)
    · rw [hqueued, List.append_nil]
      change s.heard.Accepts _ n
      rw [hheard]
      exact hn
    · change s.lastSeen = _ at hn
      rw [hlast] at hn
      cases hn
  obtain ⟨horder', hheld'⟩ := hheld.sendInitial horder
  exact tidy_of_held horder' (locals?_sendInitial ..) hheld'

end Stretch

end Session

/-! ## The one step

A session writes its opening, what it takes from its queue, and replies.  Of the replies only
errors bear a number, so only for them is there something to ask. -/

namespace World

variable [PyRepr] {i : ℕ} {x : World × Finset SubRef}

/-- What is done to the kit, with the session as it was. -/
theorem InLine.held_kit {e : Event} (h : InLine i x) (hcalm : Undisturbed i x e) {l : Locals}
    (hl : (x.1.sessions.get i).phase.locals? = some l)
    (howns : (x.1.step e).kit.Owns l.scene l.sub)
    (hopen : ((x.1.step e).kit.subs.get l.sub).closed = false)
    (hop : x.1.opOf e ≠ some (.dequeue l.sub)) :
    Session.Held (x.1.step e).kit (l.sub ∈ (trackShort x e).2) (x.1.sessions.get i) l := by
  have hkit := kit_step x.1 e
  rw [trackShort]
  rcases hop' : x.1.opOf e with _ | op <;> rw [hop'] at hkit <;> dsimp only at hkit ⊢
  · rw [hkit]
    exact h.tidy.held l hl
  · rw [hkit] at howns hopen ⊢
    exact ((h.tidy.held l hl).step_kit h.wf.kit (h.stays l hl) howns hopen
      (fun heq => hop (hop'.trans (congrArg some heq))) (hcalm.deliver l hl op hop')).congr rfl rfl
        rfl (Finset.mem_union_left _)

/-- What is observed of a stretch that makes no call. -/
theorem trackShort_of_no_call {a : SessionEvent} {s' : Session}
    (hstep : (x.1.sessions.get i).step? x.1.kit a = some (none, s')) :
    (trackShort x (.session i a)).2 = x.2 := by
  rw [trackShort, opOf, hstep]
  rfl

/-- A call that leaves a session where it was, up to what it awaits next. -/
theorem InLine.goes {a : SessionEvent} {call : Option Call} {l : Locals} {ls ls' : Loops}
    (h : InLine i x) (hput : x.1.StaysPut i (.session i a)) (hcalm : Undisturbed i x (.session i a))
    (hphase : (x.1.sessions.get i).phase = .running l ls)
    (hstep : (x.1.sessions.get i).step? x.1.kit a
      = some (call, (x.1.sessions.get i).goto (.running l ls')))
    (hcall : call ≠ some (.dequeue l.sub)) :
    ((x.1.sessions.get i).goto (.running l ls')).Tidy (x.1.kit.perform call)
      (trackShort x (.session i a)).2 := by
  have hl : (x.1.sessions.get i).phase.locals? = some l := by rw [hphase]; rfl
  have hw := step_session hstep
  have hget : (x.1.step (.session i a)).sessions.get i
      = (x.1.sessions.get i).goto (.running l ls') := by
    rw [hw]
    exact Heap.get_modify_self x.1.sessions i fun _ => _
  have hkit : (x.1.step (.session i a)).kit = x.1.kit.perform call := by rw [hw]
  obtain ⟨howns, hopen, -⟩ := hput l (by rw [hget]; rfl)
  have hop : x.1.opOf (.session i a) ≠ some (.dequeue l.sub) := by
    rw [opOf, hstep, Option.bind_some]
    rcases call with _ | call
    · rintro ⟨⟩
    · rcases call with ⟨c, live, since⟩ | ⟨c, r⟩ | ⟨c, identity, patches, cause⟩ | r | r <;>
        simp_all [Call.op]
  have hheld := h.held_kit hcalm hl howns hopen hop
  rw [hkit] at hheld
  exact Session.tidy_of_held h.tidy.order rfl (hheld.congr rfl (by rw [hphase]; rfl) rfl id)

/-- **What a refusal leaves**: the error bears the last number of the scene. -/
theorem InLine.answer {r : Received} {l : Locals} {ls ls' : Loops} (h : InLine i x)
    (hcalm : Undisturbed i x (.session i (.received r)))
    (hphase : (x.1.sessions.get i).phase = .running l ls) (hreader : ls.reader = .receiving)
    (hrefuses : Session.refuses x.1.kit l r = true) {code : ErrorCode} {message : PyStr}
    {recoverable : Bool} {path : Option PyStr} :
    ((x.1.sessions.get i).write (errorFrame (x.1.kit.objects.get l.scene).currentSeq code message
      recoverable path) none (.running l ls')).Tidy x.1.kit x.2 := by
  have hl : (x.1.sessions.get i).phase.locals? = some l := by rw [hphase]; rfl
  have hreads : (x.1.sessions.get i).phase.reads? = some l :=
    Phase.reads?_eq_some.mpr ⟨ls, hphase, hreader⟩
  obtain ⟨hfits, hheld⟩ := (h.tidy.held l hl).error (p := .running l ls')
    (h.wf.kit.seq_pos l.scene) (hcalm.answer l hreads r (if_pos rfl) hrefuses)
    (by rw [hphase]; rfl) rfl
  refine Session.tidy_of_held ?_ rfl hheld
  rw [Session.frames_write]
  exact inOrder_concat.mpr ⟨h.tidy.order, hfits⟩

/-- **What an input leaves.** -/
theorem InLine.input {f : Input} {call : Option Call} {s' : Session} {l : Locals} {ls : Loops}
    (h : InLine i x) (hput : x.1.StaysPut i (.session i (.received (.frame (.input f)))))
    (hcalm : Undisturbed i x (.session i (.received (.frame (.input f)))))
    (hphase : (x.1.sessions.get i).phase = .running l ls) (hreader : ls.reader = .receiving)
    (hstep : (x.1.sessions.get i).step? x.1.kit (.received (.frame (.input f))) = some (call, s'))
    (hinput : (x.1.sessions.get i).input x.1.kit l ls f = (call, s')) :
    s'.Tidy (x.1.kit.perform call)
      (trackShort x (.session i (.received (.frame (.input f))))).2 := by
  have hcall : call = some (.applyInput l.scene l.identity f.patches
      (causeOf l.identity f.clientMsgId)) := (congrArg Prod.fst hinput).symm
  have hgoes : ∀ {ls' : Loops}, s' = (x.1.sessions.get i).goto (.running l ls') →
      s'.Tidy (x.1.kit.perform call)
        (trackShort x (.session i (.received (.frame (.input f))))).2 := fun {ls'} hs' => by
    subst hs'
    refine h.goes hput hcalm hphase hstep fun heq => ?_
    rw [hcall] at heq
    cases heq
  have hs' := congrArg Prod.snd hinput
  rw [Session.input] at hs'
  dsimp only at hs'
  rw [Scene.applyInput_result] at hs'
  rcases hv : (x.1.kit.objects.get l.scene).verdict l.identity f.patches with err | _ | refusal <;>
    rw [hv] at hs' <;> dsimp only at hs'
  · exact hgoes hs'.symm
  · exact hgoes hs'.symm
  · have hne : (x.1.kit.objects.get l.scene).verdict l.identity f.patches ≠ .ok none := by
      rw [hv]
      rintro ⟨⟩
    have hkit : x.1.kit.perform call = x.1.kit := by
      rw [hcall]
      exact Server.step_applyInput_of_ne _ hne
    have hshort : (trackShort x (.session i (.received (.frame (.input f))))).2 = x.2 := by
      rw [trackShort, opOf, hstep, hcall]
      change x.1.kit.shortAfter x.2 (x.1.kit.act _) ∪ ∅ = x.2
      rw [Finset.union_empty, Call.op, Server.act_applyInput_of_ne _ _ hne]
      rfl
    rw [hkit, hshort, ← hs']
    exact h.answer hcalm hphase hreader (by rw [Session.refuses, hv])

/-- **What a client frame leaves.** -/
theorem InLine.receive {r : Received} {call : Option Call} {s' : Session} {l : Locals} {ls : Loops}
    (h : InLine i x) (hput : x.1.StaysPut i (.session i (.received r)))
    (hcalm : Undisturbed i x (.session i (.received r)))
    (hphase : (x.1.sessions.get i).phase = .running l ls) (hreader : ls.reader = .receiving)
    (hstep : (x.1.sessions.get i).step? x.1.kit (.received r) = some (call, s'))
    (hreceive : (x.1.sessions.get i).receive x.1.kit l ls r = (call, s')) :
    s'.Tidy (x.1.kit.perform call) (trackShort x (.session i (.received r))).2 := by
  have hheld := h.tidy.held l (by rw [hphase]; rfl)
  have hpending : (x.1.sessions.get i).phase.pending = [] := by rw [hphase]; rfl
  have hgoes : ∀ {ls' : Loops}, call = none → s' = (x.1.sessions.get i).goto (.running l ls') →
      s'.Tidy (x.1.kit.perform call) (trackShort x (.session i (.received r))).2 :=
    fun {ls'} hcall hs' => by
      subst hcall hs'
      rw [trackShort_of_no_call hstep]
      exact Session.tidy_of_held h.tidy.order rfl (hheld.congr rfl (by rw [hpending]; rfl) rfl id)
  rcases r with f | message | message | message
  · rcases f with f | f | f | f | nonce | nonce | f | f | _
    case input => exact h.input hput hcalm hphase hreader hstep hreceive
    case ping =>
      cases hreceive
      obtain ⟨hfits, hheld⟩ := hheld.outOfBand (f := .pong nonce)
        (p := .running l { ls with reader := .sending }) (fun _ => rfl) (by rw [hpending]; rfl)
      rw [trackShort_of_no_call hstep]
      refine Session.tidy_of_held ?_ rfl hheld
      rw [Session.frames_write]
      exact inOrder_concat.mpr ⟨h.tidy.order, hfits⟩
    case subscribe =>
      cases hreceive
      rw [trackShort_of_no_call hstep]
      exact h.answer hcalm hphase hreader rfl
    all_goals
      cases hreceive
      exact hgoes rfl rfl
  · cases hreceive
    rw [trackShort_of_no_call hstep]
    exact h.answer hcalm hphase hreader rfl
  · cases hreceive
    rw [trackShort_of_no_call hstep]
    exact h.answer hcalm hphase hreader rfl
  · cases hreceive
    exact hgoes rfl rfl

/-- **What a stretch of a running session leaves.** -/
theorem InLine.looped {a : SessionEvent} {call : Option Call} {s' : Session} {l : Locals}
    {ls : Loops} (h : InLine i x) (hput : x.1.StaysPut i (.session i a))
    (hcalm : Undisturbed i x (.session i a))
    (hphase : (x.1.sessions.get i).phase = .running l ls)
    (hstep : (x.1.sessions.get i).step? x.1.kit a = some (call, s'))
    (hlooped : (x.1.sessions.get i).Looped x.1.kit l ls a call s') :
    s'.Tidy (x.1.kit.perform call) (trackShort x (.session i a)).2 := by
  have hl : (x.1.sessions.get i).phase.locals? = some l := by rw [hphase]; rfl
  have hpending : (x.1.sessions.get i).phase.pending = [] := by rw [hphase]; rfl
  rcases hlooped with @⟨hreader, r⟩ | hsent | @⟨item, sub, -, hget⟩ | _ | _ | _ | _
  case received => exact h.receive hput hcalm hphase hreader hstep rfl
  case readerSent =>
    obtain ⟨ls', rfl, -⟩ := Session.readerSent_eq_some hsent
    exact h.goes hput hcalm hphase hstep fun h => nomatch h
  case dequeued =>
    obtain ⟨hqueued, -⟩ := Subscription.queued_of_dequeue hget
    have hkit : x.1.kit.perform (some (.dequeue l.sub)) = x.1.kit.dequeue l.sub := rfl
    have hsub : ((x.1.kit.dequeue l.sub).subs.get l.sub) = sub := by
      rw [Server.dequeue, hget]
      exact Heap.get_modify_self x.1.kit.subs l.sub fun _ => sub
    have hshort : (trackShort x (.session i .dequeued)).2 = x.2 := by
      rw [trackShort, opOf, hstep]
      exact Finset.union_empty _
    have hseq : ((x.1.kit.dequeue l.sub).objects.get l.scene).currentSeq
        = (x.1.kit.objects.get l.scene).currentSeq := by rw [Server.objects_dequeue]
    rw [hkit, hshort]
    rcases item with _ | letter
    · refine Session.tidy_of_held h.tidy.order rfl
        ((h.tidy.held l hl).congr rfl ?_ hseq id)
      rw [hpending, hsub, hqueued]
      rfl
    · obtain ⟨hfits, hheld⟩ := @Session.Held.sent _ _ _ _ letter.frame sub.queued
        (h.tidy.held l hl) (by rw [hpending, hqueued]; rfl) (x.1.kit.dequeue l.sub) _
        letter.issuer (.running l { ls with writer := .sending }) rfl (by rw [hsub]; rfl) hseq
      refine Session.tidy_of_held ?_ rfl hheld
      change InOrder (Session.write _ letter.frame (some letter.issuer) _).frames
      rw [Session.frames_write]
      exact inOrder_concat.mpr ⟨h.tidy.order, hfits⟩
  case pingDue =>
    obtain ⟨hfits, hheld⟩ := (h.tidy.held l hl).outOfBand (f := .ping .null)
      (p := .running l { ls with writer := .sending }) (fun _ => rfl) (by rw [hpending]; rfl)
    rw [trackShort_of_no_call hstep]
    refine Session.tidy_of_held ?_ rfl hheld
    rw [Session.frames_write]
    exact inOrder_concat.mpr ⟨h.tidy.order, hfits⟩
  case gathered => exact Session.tidy_goto h.tidy.order rfl False.elim
  case writerSent | cancelled => exact h.goes hput hcalm hphase hstep fun h => nomatch h

/-- **What the authenticator leaves.** -/
theorem InLine.answered {f : Subscribe} {a : Authentication} {call : Option Call} {s' : Session}
    (h : InLine i x) (hcalm : Undisturbed i x (.session i (.authenticated a)))
    (hwritten : (x.1.sessions.get i).written = [])
    (hstep : (x.1.sessions.get i).step? x.1.kit (.authenticated a) = some (call, s'))
    (hanswered : (x.1.sessions.get i).Answered x.1.kit f a call s') :
    s'.Tidy (x.1.kit.perform call) (trackShort x (.session i (.authenticated a))).2 := by
  rcases hanswered with @⟨identity, c, -, hscene⟩ | _ | _
  · have hc := h.wf.kit.registered_lt c (Server.registered_of_resolveScene hscene)
    have hop : x.1.opOf (.session i (.authenticated (.identity identity)))
        = some (.scene c (.subscribeWithResume f.live f.sinceSequence)) := by
      rw [opOf, hstep]
      rfl
    rw [Server.perform, Call.op, Server.step_subscribeWithResume hc]
    refine Session.tidy_attach h.wf.kit f.live identity hwritten
      (hcalm.resume _ hop (beq_self_eq_true i)) fun hends => ?_
    have hopened : openedShort x.1.kit (.scene c (.subscribeWithResume f.live f.sinceSequence))
        = {x.1.kit.subs.next} := if_pos ⟨hc, hends⟩
    rw [trackShort, hop]
    dsimp only
    rw [hopened]
    exact Finset.mem_union_right _ (Finset.mem_singleton_self _)
  · exact Session.tidy_reject hwritten _ _
  · exact Session.tidy_goto h.tidy.order rfl False.elim

/-- **What a stretch of the session itself leaves.** -/
theorem InLine.own {a : SessionEvent} {call : Option Call} {s' : Session} (h : InLine i x)
    (hput : x.1.StaysPut i (.session i a)) (hcalm : Undisturbed i x (.session i a))
    (hstep : (x.1.sessions.get i).step? x.1.kit a = some (call, s')) :
    s'.Tidy (x.1.kit.perform call) (trackShort x (.session i a)).2 := by
  have horder := h.tidy.order
  have hwritten : ∀ {p : Phase}, (x.1.sessions.get i).phase = p → p.Fresh →
      (x.1.sessions.get i).written = [] := fun hphase hp => h.tidy.fresh (hphase ▸ hp)
  rcases Session.stepped hstep with ⟨hphase, -, rfl | rfl⟩ | ⟨-, -, rfl | rfl⟩ | ⟨hphase, r⟩ |
    hphase | ⟨hphase, hanswered⟩ | _ | hphase | _ | _ | ⟨hphase, hlooped⟩
  case accepted.inl =>
    exact Session.tidy_goto horder rfl fun _ => hwritten hphase trivial
  case read => exact Session.tidy_readSubscribe (hwritten hphase trivial) r
  case readCancelled => exact Session.tidy_reject (hwritten hphase trivial) _ _
  case answered => exact h.answered hcalm (hwritten hphase trivial) hstep hanswered
  case initialSent =>
    rw [trackShort_of_no_call hstep]
    exact Session.tidy_sendInitial h.tidy hphase
  case running => exact h.looped hput hcalm hphase hstep hlooped
  all_goals exact Session.tidy_goto horder rfl False.elim

/-- A session that does not wake up stays in line, unless its queue is read. -/
theorem InLine.others {e : Event} (h : InLine i x) (hput : x.1.StaysPut i e)
    (hcalm : Undisturbed i x e) (hsame : (x.1.step e).sessions.get i = x.1.sessions.get i)
    (hop : ∀ l, (x.1.sessions.get i).phase.locals? = some l → x.1.opOf e ≠ some (.dequeue l.sub)) :
    (x.1.sessions.get i).Tidy (x.1.step e).kit (trackShort x e).2 := by
  refine ⟨h.tidy.order, h.tidy.fresh, fun l hl => ?_⟩
  obtain ⟨howns, hopen, -⟩ := hput l (by rw [hsame]; exact hl)
  exact h.held_kit hcalm hl howns hopen (hop l hl)

/-- Only the session itself reads its queue, unless trusted code does. -/
theorem readsQueue_of_dequeue {w : World} (hwf : w.Wf) {l : Locals}
    (hl : (w.sessions.get i).phase.locals? = some l) {e : Event}
    (hop : w.opOf e = some (.dequeue l.sub)) (hother : ∀ a, e ≠ .session i a) :
    e.readsQueue l.sub = true := by
  rcases e with op | requested | ⟨j, a⟩
  · cases Option.some.inj hop
    exact beq_self_eq_true _
  · cases hop
  · obtain ⟨⟨call, s'⟩, hstep, hop⟩ := Option.bind_eq_some_iff.mp hop
    obtain ⟨call', rfl, hcall⟩ := Option.map_eq_some_iff.mp hop
    cases Session.did hstep with
    | @dequeue l' ls item sub hphase hget =>
      have hsub : l'.sub = l.sub := Op.dequeue.inj hcall
      have hij : i = j :=
        hwf.sub_inj i j l.sub (Phase.sub?_of_locals? hl) (by rw [hphase, ← hsub]; rfl)
      exact absurd (congrArg (Event.session · _) hij.symm) (hother _)
    | attach => cases hcall
    | fail => cases hcall
    | input => cases hcall
    | detach => cases hcall

/-- **One step of anyone.** -/
theorem InLine.step {e : Event} (h : InLine i x) (hput : x.1.StaysPut i e)
    (hcalm : Undisturbed i x e) : InLine i (trackShort x e) := by
  refine ⟨wf_step x.1 e h.wf, fun l hl => (hput l hl).1, ?_⟩
  change ((x.1.step e).sessions.get i).Tidy (x.1.step e).kit (trackShort x e).2
  by_cases hown : ∃ a, e = .session i a
  · obtain ⟨a, rfl⟩ := hown
    rcases hstep : (x.1.sessions.get i).step? x.1.kit a with _ | ⟨call, s'⟩
    · have hsame : (x.1.step (.session i a)).sessions.get i = x.1.sessions.get i := by
        rw [step_session_of_none hstep]
      rw [hsame]
      refine h.others hput hcalm hsame fun l _ => ?_
      rw [opOf, hstep]
      rintro ⟨⟩
    · have hget : (x.1.step (.session i a)).sessions.get i = s' := by
        rw [step_session hstep]
        exact Heap.get_modify_self x.1.sessions i fun _ => s'
      rw [hget, step_session hstep]
      exact h.own hput hcalm hstep
  · have hother : ∀ a, e ≠ .session i a := fun a he => hown ⟨a, he⟩
    rcases (x.1.did e).session_cases i with hsame | ⟨requested, hnew, -⟩ |
      ⟨a, call, s', he, -⟩
    · rw [hsame]
      refine h.others hput hcalm hsame fun l hl hop => ?_
      have hreads := readsQueue_of_dequeue h.wf hl hop hother
      rw [(hput l (by rw [hsame]; exact hl)).2.2] at hreads
      cases hreads
    · rw [hnew]
      refine ⟨steps_nil, fun _ => rfl, fun l hl => ?_⟩
      have hsub := Phase.sub?_of_locals? hl
      rw [Session.sub?_connecting] at hsub
      cases hsub
    · exact absurd he (hother a)

/-- **A session that stays on its scene is in order**, whatever else happens: if no error is written
to a client that is not up to date, no delta put in its queue while it is short of a number, and no
gap in the records it is opened with. -/
theorem inOrder_of_undisturbed (es : List Event) (i : ℕ) (hput : Steps step (StaysPut i) {} es)
    (hcalm : Steps trackShort (Undisturbed i) ({}, ∅) es) :
    InOrder ((after es).sessions.get i).frames := by
  have hput' : Steps trackShort (fun x e => x.1.StaysPut i e) ({}, ∅) es :=
    (@steps_map _ _ _ trackShort Prod.fst step (fun _ _ => rfl) (StaysPut i) ({}, ∅) es).mpr hput
  have hstart : InLine i (({}, ∅) : World × Finset SubRef) :=
    ⟨wf_start Server.wf_empty, fun _ hl => (nomatch hl), steps_nil, fun _ => rfl,
      fun _ hl => (nomatch hl)⟩
  have hboth : Steps trackShort (fun x e => x.1.StaysPut i e ∧ Undisturbed i x e) ({}, ∅) es :=
    fun pre e post heq => ⟨hput' pre e post heq, hcalm pre e post heq⟩
  have hend := Steps.invariant (P := InLine i) hstart (fun _ _ h hc => h.step hc.1 hc.2) hboth
  have hrun : (run trackShort ({}, ∅) es).1 = after es :=
    map_run (fun _ _ => rfl) es (({}, ∅) : World × Finset SubRef)
  rw [← hrun]
  exact hend.tidy.order

/-- An input that is refused. -/
def refusedInput : Event :=
  .session 0 (.received (.frame (.input { patches := [⟨"elsewhere", .int 1, none⟩] })))

/-- The scene of an operator emits; the delta is sent, and then an input is refused. -/
def answeredRun : List Event :=
  [.trusted (.newScene "a" "v1" [] true), .connect ["lsdp.v1"], .session 0 (.sent true),
    .session 0 (.received (.frame (.subscribe { token := .str "t" }))),
    .session 0 (.authenticated (.identity { role := some .operator })), .session 0 (.sent true),
    .trusted (.scene 0 (.emit (.ofList [("x", .int 1)]) none)), .session 0 .dequeued, refusedInput]

end World

namespace World

theorem inOrder_answeredRun : InOrder ((@after .plain answeredRun).sessions.get 0).frames ∧
    ((@after .plain answeredRun).sessions.get 0).frames.map Frame.seq?
      = [some 1, some 2, some 2] := by
  refine ⟨@inOrder_of_undisturbed .plain answeredRun 0 ?_ ?_, rfl⟩
  · simp only [answeredRun, steps_cons]
    refine ⟨?_, ?_, ?_, ?_, ?_, ?_, ?_, ?_, ?_, steps_nil⟩ <;> decide
  · simp only [answeredRun, steps_cons]
    refine ⟨?_, ?_, ?_, ?_, ?_, ?_, ?_, ?_, ?_, steps_nil⟩ <;> decide

/-- The same, but the input is refused while deltas wait. -/
def overtakingRun (waiting : ℕ) : List Event :=
  operatorRun ++ List.replicate waiting (.trusted (.scene 0 (.emit (.ofList [("x", .int 1)]) none)))
    ++ [refusedInput, .session 0 .dequeued]

/-- **Overtaken**: the error bears the number of the one delta that waits, which is then dropped as
a replay; and if two wait, the error leaves a gap. -/
theorem overtakingRun_disturbs :
    Steps (@step .plain) (@StaysPut .plain 0) {} (overtakingRun 1) ∧
      ¬ InOrder ((@after .plain (overtakingRun 1)).sessions.get 0).frames ∧
    Steps (@step .plain) (@StaysPut .plain 0) {} (overtakingRun 2) ∧
      ¬ InOrder ((@after .plain (overtakingRun 2)).sessions.get 0).frames := by
  refine ⟨?_, fun h => ?_, ?_, fun h => ?_⟩
  · simp only [overtakingRun, operatorRun, List.replicate, List.cons_append, List.nil_append,
      steps_cons]
    refine ⟨?_, ?_, ?_, ?_, ?_, ?_, ?_, ?_, ?_, steps_nil⟩ <;> decide
  · have hreplay := h (((@after .plain (overtakingRun 1)).sessions.get 0).frames.take 2) _ [] rfl
    exact absurd hreplay (by decide)
  · simp only [overtakingRun, operatorRun, List.replicate, List.cons_append, List.nil_append,
      steps_cons]
    refine ⟨?_, ?_, ?_, ?_, ?_, ?_, ?_, ?_, ?_, ?_, steps_nil⟩ <;> decide
  · have hgap := h (((@after .plain (overtakingRun 2)).sessions.get 0).frames.take 1) _ _ rfl
    exact absurd hgap (by decide)

end World

end Lumencast
