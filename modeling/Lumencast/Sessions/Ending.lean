import Lumencast.Sessions.World

/-!
# Sessions/Ending — how a session comes to its end

A session that is on its way out (`Phase.Stopping`) has a bounded amount of work left: each wakeup
but a cancellation uses some of it up, and each of its two loops writes one more frame at most.
And a session is never stuck: wherever it is suspended, a few wakeups that its client and the
transport can bring about lead to its end.
-/

namespace Lumencast

open Machinery

/-- The wakeups a reader that is to stop still takes. -/
def Reader.left : Reader → ℕ
  | .receiving => 2
  | .done => 0
  | _ => 1

/-- The wakeups a writer that is to stop still takes. -/
def Writer.left : Writer → ℕ
  | .getting => 2
  | .sending => 1
  | .done => 0

/-- What a wakeup costs: a cancellation is free. -/
def SessionEvent.cost : SessionEvent → ℕ
  | .cancelled => 0
  | _ => 1

namespace Phase

/-- On its way out: turned away, over, or one of the loops has ended. -/
def Stopping : Phase → Prop
  | .refusing => True
  | .rejecting => True
  | .closing => True
  | .running _ ls => ls.stop = true
  | .ended _ => True
  | _ => False

/-- The wakeups that are left, a cancellation not counted. -/
def left : Phase → ℕ
  | .refusing => 2
  | .rejecting => 2
  | .closing => 1
  | .running _ ls => ls.reader.left + ls.writer.left + 1
  | _ => 0

/-- The frames that are left: one of a reader that still receives, one of a writer that waits. -/
def words : Phase → ℕ
  | .running _ ls =>
      (if ls.reader = .receiving then 1 else 0) + if ls.writer = .getting then 1 else 0
  | _ => 0

theorem left_le (p : Phase) : p.left ≤ 5 := by
  rcases p with _ | _ | _ | f | _ | _ | ⟨l, rest⟩ | ⟨l, reader, writer, stop⟩ | sub
  case running => cases reader <;> cases writer <;> simp [left, Reader.left, Writer.left]
  all_goals simp [left]

theorem words_le (p : Phase) : p.words ≤ 2 := by
  rcases p with _ | _ | _ | f | _ | _ | ⟨l, rest⟩ | ⟨l, reader, writer, stop⟩ | sub
  case running => cases reader <;> cases writer <;> simp [words]
  all_goals simp [words]

end Phase

namespace Session

/-- What `n` wakeups make of a session on its way out: as many fewer are left, and no more frames
than were. -/
structure WindsDown (n : ℕ) (s s' : Session) : Prop where
  stopping : s'.phase.Stopping
  left : s'.phase.left + n ≤ s.phase.left
  words : s'.written.length + s'.phase.words ≤ s.written.length + s.phase.words

theorem WindsDown.refl {s : Session} (h : s.phase.Stopping) : WindsDown 0 s s :=
  ⟨h, le_rfl, le_rfl⟩

theorem WindsDown.trans {m n : ℕ} {s s' s'' : Session} (h : WindsDown m s s')
    (h' : WindsDown n s' s'') : WindsDown (m + n) s s'' where
  stopping := h'.stopping
  left := by
    have := h.left
    have := h'.left
    omega
  words := h'.words.trans h.words

section Stretch

variable {k : Server} {s s' : Session} {l : Locals} {ls : Loops}

theorem windsDown_goto (hphase : s.phase = .running l ls) (ls' : Loops)
    (hstop : ls'.stop = true) {n : ℕ}
    (hleft : ls'.reader.left + ls'.writer.left + n ≤ ls.reader.left + ls.writer.left)
    (hreader : ls'.reader = .receiving → ls.reader = .receiving)
    (hwriter : ls'.writer = .getting → ls.writer = .getting) :
    WindsDown n s (s.goto (.running l ls')) := by
  refine ⟨hstop, ?_, ?_⟩
  · rw [hphase]
    simp only [goto, Phase.left]
    omega
  · rw [hphase]
    refine Nat.add_le_add_left (Nat.add_le_add ?_ ?_) _
    · split
      · rename_i h
        rw [if_pos (hreader h)]
      · exact Nat.zero_le _
    · split
      · rename_i h
        rw [if_pos (hwriter h)]
      · exact Nat.zero_le _

/-- The last frame of the reader… -/
theorem windsDown_reply (hphase : s.phase = .running l ls) (hstop : ls.stop = true)
    (hreader : ls.reader = .receiving) {reader : Reader} (hreader' : reader.left = 1)
    (frame : Frame) (issuer : Option SceneRef) :
    WindsDown 1 s (s.write frame issuer (.running l { ls with reader := reader })) := by
  have hne : reader ≠ .receiving := fun h => by
    rw [h] at hreader'
    cases hreader'
  refine ⟨hstop, ?_, ?_⟩
  · rw [hphase]
    change reader.left + ls.writer.left + 1 + 1 ≤ ls.reader.left + ls.writer.left + 1
    rw [hreader', hreader, Reader.left]
    omega
  · rw [hphase]
    simp only [write, Phase.words, hreader, hne, List.length_append, List.length_singleton,
      if_true, if_false]
    omega

/-- …and the last of the writer. -/
theorem windsDown_passOn (hphase : s.phase = .running l ls) (hstop : ls.stop = true)
    (hwriter : ls.writer = .getting) (frame : Frame) (issuer : Option SceneRef) :
    WindsDown 1 s (s.write frame issuer (.running l { ls with writer := .sending })) := by
  refine ⟨hstop, ?_, ?_⟩
  · rw [hphase]
    simp only [write, Phase.left, hwriter, Writer.left]
    omega
  · rw [hphase]
    simp only [write, Phase.words, hwriter, List.length_append, List.length_singleton, if_true,
      reduceCtorEq, if_false]
    omega

theorem windsDown_readerSent (hphase : s.phase = .running l ls) (hstop : ls.stop = true) {ok : Bool}
    (h : s.readerSent l ls ok = some s') : WindsDown 1 s s' := by
  -- whatever the send was, a reader that is to stop is done after it
  have hdone : ∀ {reader : Reader}, ls.reader = reader → reader.left = 1 → ∀ ls' : Loops,
      ls'.reader = .done → ls'.writer = ls.writer → ls'.stop = true →
      WindsDown 1 s (s.goto (.running l ls')) := fun hreader hone ls' hreader' hwriter hstop' => by
    refine windsDown_goto hphase ls' hstop' ?_ (fun h => ?_) fun h => hwriter ▸ h
    · rw [hreader', hwriter, hreader, hone, Reader.left]
      omega
    · rw [hreader'] at h
      cases h
  have hnext : ls.readerNext.reader = .done := if_pos hstop
  unfold readerSent at h
  split at h
  · rename_i hreader
    cases h
    rcases ok with _ | _
    · exact hdone hreader rfl ls.readerEnds rfl rfl rfl
    · exact hdone hreader rfl ls.readerNext hnext rfl hstop
  · rename_i hreader
    cases h
    exact hdone hreader rfl ls.readerNext hnext rfl hstop
  · rename_i hreader
    cases h
    exact hdone hreader rfl ls.readerEnds rfl rfl rfl
  · cases h

variable [PyRepr]

theorem windsDown_receive (hphase : s.phase = .running l ls) (hstop : ls.stop = true)
    (hreader : ls.reader = .receiving) (r : Received) :
    WindsDown 1 s (s.receive k l ls r).2 := by
  have hnext : WindsDown 1 s (s.goto (.running l ls.readerNext)) := by
    refine windsDown_goto hphase ls.readerNext hstop ?_ (fun _ => hreader) id
    simp only [Loops.readerNext, hstop, if_true, hreader, Reader.left]
    omega
  have hends : WindsDown 1 s (s.goto (.running l ls.readerEnds)) := by
    refine windsDown_goto hphase ls.readerEnds rfl ?_ (fun _ => hreader) id
    simp only [Loops.readerEnds, hreader, Reader.left]
    omega
  rcases r with f | message | message | message
  · rcases f with f | f | f | f | nonce | nonce | f | f | _
    case input =>
      change WindsDown 1 s (s.input k l ls f).2
      rw [input]
      split
      · exact hends
      · exact hnext
      · exact windsDown_reply hphase hstop hreader rfl ..
    case ping => exact windsDown_reply hphase hstop hreader rfl ..
    case subscribe => exact windsDown_reply hphase hstop hreader rfl ..
    case unsubscribe =>
      refine windsDown_goto hphase { ls with reader := .sending } hstop ?_ (fun h => by cases h) id
      simp only [hreader, Reader.left]
      omega
    all_goals exact hnext
  · exact windsDown_reply hphase hstop hreader rfl ..
  · exact windsDown_reply hphase hstop hreader rfl ..
  · exact hends

theorem windsDown_looped (hphase : s.phase = .running l ls) (hstop : ls.stop = true)
    {e : SessionEvent} {call : Option Call} (h : Looped k s l ls e call s') :
    WindsDown e.cost s s' := by
  have hends : ls.writer.left = 1 ∨ ls.writer.left = 2 → ∀ ls' : Loops, ls'.reader = ls.reader →
      ls'.writer = .done → ls'.stop = true → WindsDown 1 s (s.goto (.running l ls')) :=
    fun hleft ls' hreader hwriter hstop' => by
      refine windsDown_goto hphase ls' hstop' ?_ (fun h => hreader ▸ h) fun h => ?_
      · rw [hreader, hwriter, Writer.left]
        omega
      · rw [hwriter] at h
        cases h
  rcases h with @⟨hreader, r⟩ | hsent | @⟨item, sub, hwriter, hget⟩ | hwriter | ⟨hwriter, ok⟩ |
    ⟨hreader, hwriter⟩ | _
  case received => exact windsDown_receive hphase hstop hreader r
  case readerSent => exact windsDown_readerSent hphase hstop hsent
  case dequeued =>
    rcases item with _ | letter
    · exact hends (Or.inr (by rw [hwriter]; rfl)) ls.writerEnds rfl rfl rfl
    · exact windsDown_passOn hphase hstop hwriter ..
  case pingDue => exact windsDown_passOn hphase hstop hwriter ..
  case writerSent =>
    have hone : ls.writer.left = 1 := by rw [hwriter]; rfl
    rcases ok with _ | _
    · exact hends (Or.inl hone) ls.writerEnds rfl rfl rfl
    · exact hends (Or.inl hone) ls.writerNext rfl (if_pos hstop) hstop
  case gathered =>
    refine ⟨trivial, ?_, ?_⟩
    · rw [hphase]
      exact Nat.succ_le_succ (Nat.zero_le _)
    · exact Nat.add_le_add_left (Nat.zero_le _) _
  case cancelled =>
    exact windsDown_goto hphase ⟨.done, .done, true⟩ rfl (Nat.zero_le _) (fun h => by cases h)
      fun h => by cases h

/-- **A stretch of a session on its way out.** -/
theorem windsDown_step? (hstop : s.phase.Stopping) {e : SessionEvent} {call : Option Call}
    (h : s.step? k e = some (call, s')) : WindsDown e.cost s s' := by
  have hcost : e.cost ≤ 1 := by cases e <;> simp [SessionEvent.cost]
  -- what is left before the close is more than what is left of the phase after it
  have hgoto : ∀ {p p' : Phase}, s.phase = p → p'.Stopping → p'.words = 0 →
      p'.left + 1 ≤ p.left → WindsDown e.cost s (s.goto p') := by
    intro p p' hp hstop' hwords hleft
    refine ⟨hstop', ?_, ?_⟩
    · rw [hp]
      exact (Nat.add_le_add_left hcost _).trans hleft
    · change s.written.length + p'.words ≤ _
      rw [hwords]
      exact Nat.add_le_add_left (Nat.zero_le _) _
  unfold step? at h
  rcases hphase : s.phase with _ | _ | _ | f | _ | _ | ⟨l, rest⟩ | ⟨l, ls⟩ | sub <;>
    rw [hphase] at h hstop <;> dsimp only at h
  case refusing =>
    obtain ⟨-, p, rfl, rfl | rfl | rfl, -⟩ := afterSend_eq_some h <;>
      exact hgoto hphase trivial rfl (by decide)
  case rejecting =>
    obtain ⟨-, p, rfl, rfl | rfl | rfl, -⟩ := afterSend_eq_some h <;>
      exact hgoto hphase trivial rfl (by decide)
  case closing =>
    obtain ⟨-, p, rfl, rfl | rfl | rfl, -⟩ := afterSend_eq_some h <;>
      exact hgoto hphase trivial rfl (by decide)
  case running => exact windsDown_looped hphase hstop (looped h)
  case ended => cases h
  all_goals exact hstop.elim

end Stretch

end Session

/-! ## Any interleaving

The amount of work is a number attached to the phase.  Events of others leave the phase alone, so
only the session's own wakeups count. -/

namespace World

variable [PyRepr]

/-- The event wakes up the session, and not by cancelling it. -/
def wakes (i : ℕ) (w : World) : Event → Bool
  | .session j e => i = j && e.cost = 1 && ((w.sessions.get i).step? w.kit e).isSome
  | _ => false

/-- What an event makes of a session on its way out. -/
theorem windsDown_step (w : World) (i : ℕ) (hlt : i < w.sessions.next)
    (hstop : (w.sessions.get i).phase.Stopping) (e : Event) :
    Session.WindsDown (if wakes i w e then 1 else 0) (w.sessions.get i)
      ((w.step e).sessions.get i) := by
  have hsame : ∀ {w' : World}, w'.sessions.get i = w.sessions.get i →
      Session.WindsDown 0 (w.sessions.get i) (w'.sessions.get i) := fun h => by
    rw [h]
    exact .refl hstop
  rcases e with op | requested | ⟨j, a⟩
  · exact hsame rfl
  · exact hsame (Heap.get_alloc_of_ne _ _ hlt.ne)
  · by_cases hi : i = j
    · subst hi
      rcases hstep : (w.sessions.get i).step? w.kit a with _ | ⟨call, s⟩
      · rw [step_session_of_none hstep, if_neg (by simp [wakes, hstep])]
        exact hsame rfl
      · have hdown := Session.windsDown_step? hstop hstep
        have hcost : a.cost = if wakes i w (.session i a) then 1 else 0 := by
          rw [wakes, hstep]
          cases a <;> simp [SessionEvent.cost]
        rw [← hcost, step_session hstep]
        change Session.WindsDown _ _ ((w.sessions.modify i fun _ => s).get i)
        rwa [Heap.get_modify_self]
    · rw [if_neg (by simp [wakes, hi])]
      refine hsame ?_
      rcases (w.did (.session j a)).session_cases i with h | ⟨requested, -, -⟩ | ⟨b, -, -, h, -⟩
      · exact h
      · rcases hstep : (w.sessions.get j).step? w.kit a with _ | ⟨call, s⟩
        · rw [step_session_of_none hstep]
        · rw [step_session hstep]
          exact Heap.get_modify_of_ne w.sessions (fun _ => s) hi
      · cases h
        exact absurd rfl hi

/-- What a run makes of it. -/
theorem windsDown_run (i : ℕ) : ∀ (es : List Event) (w : World), i < w.sessions.next →
    (w.sessions.get i).phase.Stopping →
    Session.WindsDown (kept step (wakes i) w es).length (w.sessions.get i)
      ((run step w es).sessions.get i)
  | [], _, _, hstop => .refl hstop
  | e :: es, w, hlt, hstop => by
      have hhead := windsDown_step w i hlt hstop e
      have htail := windsDown_run i es (w.step e) (hlt.trans_le (w.did e).next_le) hhead.stopping
      have h := hhead.trans htail
      rw [kept, run_cons]
      split
      · rename_i hwakes
        rw [if_pos hwakes, Nat.add_comm] at h
        exact h
      · rename_i hwakes
        rw [if_neg hwakes, Nat.zero_add] at h
        exact h

theorem after_append (es fs : List Event) : after (es ++ fs) = run step (after es) fs :=
  run_append ..

/-- **A session on its way out gets there.**  Once a client has been turned away or one of the two
loops has ended, whatever the server, the other sessions and the client itself go on to do, the
session stays on its way out: at most five more wakeups that are not cancellations make it do
anything, and at most two more frames are written to the client. -/
theorem winds_down (es fs : List Event) (i : ℕ) (hlt : i < (after es).sessions.next)
    (hstop : ((after es).sessions.get i).phase.Stopping) :
    ((after (es ++ fs)).sessions.get i).phase.Stopping ∧
      (kept step (wakes i) (after es) fs).length ≤ 5 ∧
      ((after (es ++ fs)).sessions.get i).written.length
        ≤ ((after es).sessions.get i).written.length + 2 := by
  have h := windsDown_run i fs (after es) hlt hstop
  have hleft := h.left
  have hwords := h.words
  have hfive := Phase.left_le ((after es).sessions.get i).phase
  have htwo := Phase.words_le ((after es).sessions.get i).phase
  rw [after_append]
  exact ⟨h.stopping, by omega, by omega⟩

end World

/-- A viewer that disconnects while nothing is emitted. -/
def departedRun : List Event :=
  [.trusted (.newScene "a" "v1" [] true), .connect ["lsdp.v1"], .session 0 (.sent true),
    .session 0 (.received (.frame (.subscribe { token := .str "t" }))),
    .session 0 (.authenticated (.identity { role := some .viewer })), .session 0 (.sent true),
    .session 0 (.received (.raised "disconnected"))]

namespace World

theorem winds_down_departedRun :
    letI := PyRepr.plain
    ((after departedRun).sessions.get 0).phase.Stopping ∧
      (kept step (wakes 0) (after departedRun)
        [.session 0 .pingDue, .session 0 (.writerSent true), .session 0 .gathered]).length ≤ 5 := by
  let := PyRepr.plain
  have hstop : ((after departedRun).sessions.get 0).phase.Stopping := rfl
  exact ⟨hstop, (winds_down departedRun _ 0 (by decide) hstop).2.1⟩

end World

/-! ## The way out of any suspension

For each phase the wakeups that end it are written down, with how many they are.  That they
happen one after another is composed with `Leads`. -/

/-- The wakeups that end a reader: at the last, nothing more can be received. -/
def Loops.readerExit (ls : Loops) : List SessionEvent :=
  match ls.reader with
  | .receiving => [.received (.raised "")]
  | .sendingError => .readerSent true :: if ls.stop then [] else [.received (.raised "")]
  | .done => []
  | _ => [.readerSent false]

/-- The wakeups that end a writer: it need not get another item. -/
def Writer.exit : Writer → List SessionEvent
  | .getting => [.pingDue, .writerSent false]
  | .sending => [.writerSent false]
  | .done => []

/-- Wakeups that end a session: the transport fails it, or the authenticator does. -/
def Phase.exit : Phase → List SessionEvent
  | .refusing => [.sent true, .sent true]
  | .accepting => [.sent false]
  | .reading => [.received (.raised ""), .sent false, .sent true]
  | .authenticating _ => [.authenticated .raised]
  | .rejecting => [.sent false, .sent true]
  | .closing => [.sent true]
  | .initial _ _ => [.sent false]
  | .running _ ls => ls.readerExit ++ (ls.writer.exit ++ [.gathered])
  | .ended _ => []

theorem Loops.length_readerExit (ls : Loops) : ls.readerExit.length ≤ 2 := by
  rcases ls with ⟨_ | _ | _ | _ | _, writer, _ | _⟩ <;> simp [readerExit]

theorem Writer.length_exit (writer : Writer) : writer.exit.length ≤ 2 := by
  cases writer <;> simp [exit]

theorem Phase.length_exit (p : Phase) : p.exit.length ≤ 5 := by
  rcases p with _ | _ | _ | f | _ | _ | ⟨l, rest⟩ | ⟨l, ls⟩ | sub
  case running =>
    have := ls.length_readerExit
    have := ls.writer.length_exit
    simp only [exit, List.length_append, List.length_singleton]
    omega
  all_goals simp [exit]

theorem Phase.cost_exit (p : Phase) : ∀ e ∈ p.exit, e.cost = 1 := by
  rcases p with _ | _ | _ | f | _ | _ | ⟨l, rest⟩ | ⟨l, ⟨_ | _ | _ | _ | _, _ | _ | _, _ | _⟩⟩ |
    sub <;>
    simp [exit, Loops.readerExit, Writer.exit, SessionEvent.cost]

namespace World

variable [PyRepr]

/-- Wherever its world is, these wakeups take the session from one suspension to another. -/
def Leads (i : ℕ) (p : Phase) (es : List SessionEvent) (q : Phase) : Prop :=
  ∀ w : World, (w.sessions.get i).phase = p →
    ((run step w (es.map (.session i))).sessions.get i).phase = q

section Leads

variable {i : ℕ} {p q r : Phase}

theorem leads_nil : Leads i p [] p := fun _ h => h

theorem Leads.append {es fs : List SessionEvent} (h : Leads i p es q) (h' : Leads i q fs r) :
    Leads i p (es ++ fs) r := fun w hw => by
  rw [List.map_append, run_append]
  exact h' _ (h w hw)

/-- A wakeup that a session suspended there awaits, whatever the kit. -/
theorem leads_wake {e : SessionEvent} (h : ∀ (k : Server) (written : List Sent),
    ∃ call written', (⟨p, written⟩ : Session).step? k e = some (call, ⟨q, written'⟩)) :
    Leads i p [e] q := fun w hw => by
  obtain ⟨call, written', hstep⟩ := h w.kit (w.sessions.get i).written
  rw [← hw] at hstep
  change ((w.step (.session i e)).sessions.get i).phase = q
  rw [step_session hstep]
  exact congrArg Session.phase (Heap.get_modify_self w.sessions i fun _ => ⟨q, written'⟩)

/-- The reader ends, and leaves the writer where it is. -/
theorem leads_readerExit (l : Locals) (ls : Loops) : ∃ stop,
    Leads i (.running l ls) ls.readerExit (.running l ⟨.done, ls.writer, stop⟩) := by
  rcases ls with ⟨_ | _ | _ | _ | _, writer, stop⟩
  case receiving => exact ⟨true, leads_wake fun _ _ => ⟨_, _, rfl⟩⟩
  case sending => exact ⟨true, leads_wake fun _ _ => ⟨_, _, rfl⟩⟩
  case sendingError =>
    rcases stop with _ | _
    · have hsent : Leads i (.running l ⟨.sendingError, writer, false⟩) [.readerSent true]
          (.running l ⟨.receiving, writer, false⟩) := leads_wake fun _ _ => ⟨_, _, rfl⟩
      exact ⟨true, hsent.append (leads_wake fun _ _ => ⟨_, _, rfl⟩)⟩
    · exact ⟨true, leads_wake fun _ _ => ⟨_, _, rfl⟩⟩
  case sendingLast => exact ⟨true, leads_wake fun _ _ => ⟨_, _, rfl⟩⟩
  case done => exact ⟨stop, leads_nil⟩

/-- The writer ends, and leaves the reader where it is. -/
theorem leads_writerExit (l : Locals) (reader : Reader) (writer : Writer) (stop : Bool) :
    ∃ stop', Leads i (.running l ⟨reader, writer, stop⟩) writer.exit
      (.running l ⟨reader, .done, stop'⟩) := by
  rcases writer with _ | _ | _
  case getting =>
    have hping : Leads i (.running l ⟨reader, .getting, stop⟩) [.pingDue]
        (.running l ⟨reader, .sending, stop⟩) := leads_wake fun _ _ => ⟨_, _, rfl⟩
    exact ⟨true, hping.append (leads_wake fun _ _ => ⟨_, _, rfl⟩)⟩
  case sending => exact ⟨true, leads_wake fun _ _ => ⟨_, _, rfl⟩⟩
  case done => exact ⟨stop, leads_nil⟩

/-- **The way out of every suspension.** -/
theorem leads_exit (p : Phase) : ∃ sub, Leads i p p.exit (.ended sub) := by
  have hclosing : Leads i .closing [.sent true] (.ended none) :=
    leads_wake fun _ _ => ⟨_, _, rfl⟩
  have hrejecting : Leads i .rejecting [.sent false, .sent true] (.ended none) :=
    Leads.append (leads_wake fun _ _ => ⟨_, _, rfl⟩) hclosing
  rcases p with _ | _ | _ | f | _ | _ | ⟨l, rest⟩ | ⟨l, ls⟩ | sub
  case refusing => exact ⟨none, Leads.append (leads_wake fun _ _ => ⟨_, _, rfl⟩) hclosing⟩
  case accepting => exact ⟨none, leads_wake fun _ _ => ⟨_, _, rfl⟩⟩
  case reading => exact ⟨none, Leads.append (leads_wake fun _ _ => ⟨_, _, rfl⟩) hrejecting⟩
  case authenticating => exact ⟨none, leads_wake fun _ _ => ⟨_, _, rfl⟩⟩
  case rejecting => exact ⟨none, hrejecting⟩
  case closing => exact ⟨none, hclosing⟩
  case initial => exact ⟨some l.sub, leads_wake fun _ _ => ⟨_, _, rfl⟩⟩
  case running =>
    obtain ⟨stop, hreader⟩ := @leads_readerExit _ i l ls
    obtain ⟨stop', hwriter⟩ := @leads_writerExit _ i l .done ls.writer stop
    have hgathered : Leads i (.running l ⟨.done, .done, stop'⟩) [.gathered] (.ended (some l.sub)) :=
      leads_wake fun _ _ => ⟨_, _, rfl⟩
    exact ⟨some l.sub, hreader.append (hwriter.append hgathered)⟩
  case ended => exact ⟨sub, leads_nil⟩

end Leads

/-- **A session is never stuck**: in every world that is reached, five wakeups of its own at most,
none of them a cancellation, bring a session to its end. -/
theorem never_stuck (es : List Event) (i : ℕ) : ∃ wakeups : List SessionEvent,
    wakeups.length ≤ 5 ∧ (∀ e ∈ wakeups, e.cost = 1) ∧
      ∃ sub, ((after (es ++ wakeups.map (.session i))).sessions.get i).phase = .ended sub := by
  obtain ⟨sub, hleads⟩ := @leads_exit _ i ((after es).sessions.get i).phase
  refine ⟨((after es).sessions.get i).phase.exit, Phase.length_exit _, Phase.cost_exit _, sub, ?_⟩
  rw [after_append]
  exact hleads _ rfl

end World

end Lumencast
