import Lumencast.Sessions.Ending
import Lumencast.Sessions.Mirror

/-!
# Sessions/CatchUp — how a client catches up

A client that keeps reading is sent all that waits for it: from wherever its session is suspended,
the wakeups of its own sends and of its queue are enough (`Phase.catchUp`), they leave the scenes
alone, and they end with a mirror that is the scene itself (`catches_up`).
-/

namespace Lumencast

open Machinery

/-! ## Nothing but frames waits in an open queue

The sentinel that ends a writer is put in a queue by a close, and a closed queue stays closed. -/

namespace Subscription

/-- A queue that is open holds nothing but frames. -/
def FramesOnly (sub : Subscription) : Prop := sub.closed = false → none ∉ sub.queue.items

theorem framesOnly_sendOrDrop {sub : Subscription} (h : sub.FramesOnly) (msg : Letter) :
    (sub.sendOrDrop msg).FramesOnly := by
  intro hopen
  rw [closed_sendOrDrop] at hopen
  rw [queue_sendOrDrop]
  split
  · simpa using h hopen
  · exact h hopen

theorem framesOnly_sendDelta {sub : Subscription} (h : sub.FramesOnly) (delta snap : Letter) :
    (sub.sendDelta delta snap).FramesOnly := by
  intro hopen
  rw [closed_sendDelta] at hopen
  rw [queue_sendDelta]
  split
  · simpa using h hopen
  · exact h hopen

theorem length_queued {sub : Subscription} (h : none ∉ sub.queue.items) :
    sub.queued.length = sub.queue.items.length := by
  rw [queued]
  generalize sub.queue.items = items at h
  induction items with
  | nil => rfl
  | cons item items ih =>
    rcases item with _ | letter
    · exact absurd List.mem_cons_self h
    · exact congrArg Nat.succ (ih fun hmem => h (List.mem_cons_of_mem _ hmem))

end Subscription

namespace Server

open Subscription (FramesOnly)

theorem framesOnly_handed {k : Server} {r : SubRef} (h : (k.subs.get r).FramesOnly) (a : Act) :
    (k.handed r a).FramesOnly := by
  cases a with
  | post c patches cause =>
    rw [handed]
    split
    · exact Subscription.framesOnly_sendDelta h _ _
    · exact h
  | seed c patches =>
    rw [handed]
    split
    · exact Subscription.framesOnly_sendOrDrop h _
    · exact h
  | move prev next =>
    rw [handed]
    split
    · exact Subscription.framesOnly_sendOrDrop (Subscription.framesOnly_sendOrDrop h _) _
    · exact h
  | _ => exact h

theorem framesOnly_step (k : Server) (op : Op) (r : SubRef) (h : (k.subs.get r).FramesOnly) :
    ((k.step op).subs.get r).FramesOnly := by
  have hhanded := framesOnly_handed h (k.act op)
  have hafter := aftermath_step k r op
  generalize (k.step op).subs.get r = sub at hafter ⊢
  rcases hafter with (rfl | rfl) | ⟨-, hget⟩ | ⟨live, opening, -⟩
  · exact hhanded
  · intro hopen
    rw [Subscription.closed_close] at hopen
    cases hopen
  · intro hopen hmem
    obtain ⟨⟨a, q⟩, hq, heq⟩ := Option.map_eq_some_iff.mp hget
    cases heq
    refine hhanded hopen ?_
    rw [(BoundedQueue.items_of_getNowait hq).1]
    exact List.mem_cons_of_mem _ hmem
  · exact fun _ => List.not_mem_nil

theorem framesOnly_after (ops : List Op) (r : SubRef) :
    ((after ops).subs.get r).FramesOnly :=
  run_invariant (P := fun k : Server => (k.subs.get r).FramesOnly) (fun _ => List.not_mem_nil)
    (fun k op => framesOnly_step k op r) ops

end Server

/-! ## A writer only ends with its reader

A failed send, a sentinel and a flag that is found set are the ways a writer ends, and each tells
the reader to stop.  So a session that is not on its way out has a writer that still runs. -/

/-- Once the writer has ended, the reader is told to stop. -/
def Loops.Told (ls : Loops) : Prop := ls.writer = .done → ls.stop = true

/-- The loops of a session, if they run. -/
def Phase.loops? : Phase → Option Loops
  | .running _ ls => some ls
  | _ => none

namespace Session

/-- A session whose writer does not end by itself. -/
def InStep (s : Session) : Prop := ∀ ls, s.phase.loops? = some ls → ls.Told

variable {k : Server} {s s' : Session} {l : Locals} {ls : Loops}

theorem inStep_of_none (h : s.phase.loops? = none) : s.InStep := fun ls hls => by
  rw [h] at hls
  cases hls

theorem inStep_running {ls' : Loops} (hphase : s.phase = .running l ls') (h : ls'.Told) :
    s.InStep := fun ls hls => by
  rw [hphase] at hls
  cases hls
  exact h

theorem inStep_readerSent (h : ls.Told) {ok : Bool} (hsent : s.readerSent l ls ok = some s') :
    s'.InStep := by
  unfold readerSent at hsent
  split at hsent
  · cases hsent
    cases ok
    · exact inStep_running rfl fun _ => rfl
    · exact inStep_running rfl h
  · cases hsent
    exact inStep_running rfl h
  · cases hsent
    exact inStep_running rfl fun _ => rfl
  · cases hsent

variable [PyRepr]

theorem inStep_receive (h : ls.Told) (r : Received) : (s.receive k l ls r).2.InStep := by
  rcases r with f | message | message | message
  · rcases f with f | f | f | f | nonce | nonce | f | f | _
    case input =>
      change (s.input k l ls f).2.InStep
      rw [input]
      split
      · exact inStep_running rfl fun _ => rfl
      · exact inStep_running rfl h
      · exact inStep_running rfl h
    all_goals exact inStep_running rfl h
  · exact inStep_running rfl h
  · exact inStep_running rfl h
  · exact inStep_running rfl fun _ => rfl

theorem inStep_looped (h : ls.Told) {e : SessionEvent} {call : Option Call}
    (hlooped : Looped k s l ls e call s') : s'.InStep := by
  rcases hlooped with @⟨-, r⟩ | hsent | @⟨item, _, -, -⟩ | _ | @⟨-, ok⟩ | _ | _
  case received => exact inStep_receive h r
  case readerSent => exact inStep_readerSent h hsent
  case dequeued =>
    rcases item with _ | letter
    · exact inStep_running rfl fun _ => rfl
    · exact inStep_running rfl fun hdone => by cases hdone
  case pingDue => exact inStep_running rfl fun hdone => by cases hdone
  case writerSent =>
    rcases ok with _ | _
    · exact inStep_running rfl fun _ => rfl
    · refine inStep_running rfl fun hdone => ?_
      rcases hstop : ls.stop with _ | _
      · change (if ls.stop then Writer.done else .getting) = _ at hdone
        rw [hstop] at hdone
        cases hdone
      · exact hstop
  case gathered => exact inStep_of_none rfl
  case cancelled => exact inStep_running rfl fun _ => rfl

theorem inStep_step? (h : s.InStep) {e : SessionEvent} {call : Option Call}
    (hstep : s.step? k e = some (call, s')) : s'.InStep := by
  have hinitial : ∀ l frames, (s.sendInitial l frames).InStep := by
    intro l frames
    rcases frames with _ | ⟨f, rest⟩
    · exact inStep_running rfl fun hdone => by cases hdone
    · exact inStep_of_none rfl
  rcases stepped hstep with ⟨-, -, rfl | rfl⟩ | ⟨-, -, rfl | rfl⟩ | ⟨-, r⟩ | _ |
    @⟨f, a, _, _, -, hanswered⟩ | _ | _ | _ | _ | ⟨hphase, hlooped⟩
  case read =>
    unfold readSubscribe
    split <;> exact inStep_of_none rfl
  case answered =>
    rcases hanswered with _ | _ | _
    · exact hinitial _ _
    · exact inStep_of_none rfl
    · exact inStep_of_none rfl
  case initialSent => exact hinitial _ _
  case running => exact inStep_looped (h _ (by rw [hphase]; rfl)) hlooped
  all_goals exact inStep_of_none rfl

end Session

/-! ## The way to the end of the queue

Each frame takes two wakeups, one to be taken and one to be sent.  The induction is on what is on
the way: each step moves one frame from there to what was written. -/

/-- The wakeups by which a writer takes and sends `n` frames. -/
def drain : ℕ → List SessionEvent
  | 0 => []
  | n + 1 => .dequeued :: .writerSent true :: drain n

/-- The wakeups by which a session sends its client what is on the way, `n` frames being queued. -/
def Phase.catchUp (p : Phase) (n : ℕ) : List SessionEvent :=
  match p with
  | .initial _ rest => .sent true :: (rest.map fun _ => .sent true) ++ drain n
  | .running _ ls => (if ls.writer = .sending then [.writerSent true] else []) ++ drain n
  | _ => []

theorem length_drain (n : ℕ) : (drain n).length = 2 * n := by
  induction n with
  | zero => rfl
  | succ n ih =>
    rw [drain, List.length_cons, List.length_cons, ih]
    omega

theorem Phase.length_catchUp (p : Phase) (n : ℕ) :
    (p.catchUp n).length ≤ 2 * (p.pending.length + n) + 1 := by
  rcases p with _ | _ | _ | f | _ | _ | ⟨l, rest⟩ | ⟨l, ls⟩ | sub
  case initial =>
    rw [catchUp, List.length_append, List.length_cons, List.length_map, length_drain, pending]
    omega
  case running =>
    rw [catchUp, List.length_append, length_drain]
    split
    · rw [List.length_singleton]
      omega
    · rw [List.length_nil]
      omega
  all_goals exact Nat.zero_le _

theorem mem_drain {n : ℕ} {e : SessionEvent} (h : e ∈ drain n) :
    e = .dequeued ∨ e = .writerSent true := by
  induction n with
  | zero => exact absurd h List.not_mem_nil
  | succ n ih =>
    rw [drain, List.mem_cons, List.mem_cons] at h
    rcases h with rfl | rfl | h
    · exact Or.inl rfl
    · exact Or.inr rfl
    · exact ih h

theorem Phase.mem_catchUp {p : Phase} {n : ℕ} {e : SessionEvent} (h : e ∈ p.catchUp n) :
    e = .sent true ∨ e = .dequeued ∨ e = .writerSent true := by
  rcases p with _ | _ | _ | f | _ | _ | ⟨l, rest⟩ | ⟨l, ls⟩ | sub
  case initial =>
    rcases List.mem_append.mp h with h | h
    · rcases List.mem_cons.mp h with rfl | h
      · exact Or.inl rfl
      · obtain ⟨-, -, rfl⟩ := List.mem_map.mp h
        exact Or.inl rfl
    · exact Or.inr (mem_drain h)
  case running =>
    rcases List.mem_append.mp h with h | h
    · split at h
      · cases List.mem_singleton.mp h
        exact Or.inr (Or.inr rfl)
      · exact absurd h List.not_mem_nil
    · exact Or.inr (mem_drain h)
  all_goals exact absurd h List.not_mem_nil

namespace World

/-- What was sent to a client, and what is on the way. -/
def line (w : World) (i : ℕ) (r : SubRef) : List Frame :=
  (w.sessions.get i).frames ++ ((w.sessions.get i).phase.pending ++ (w.kit.subs.get r).queued)

/-- Only what was on the way is sent on. -/
structure SendsOn (i : ℕ) (r : SubRef) (w w' : World) : Prop where
  objects : w'.kit.objects = w.kit.objects
  line : w'.line i r = w.line i r

theorem SendsOn.refl (i : ℕ) (r : SubRef) (w : World) : SendsOn i r w w := ⟨rfl, rfl⟩

theorem SendsOn.trans {i : ℕ} {r : SubRef} {w w' w'' : World} (h : SendsOn i r w w')
    (h' : SendsOn i r w' w'') : SendsOn i r w w'' :=
  ⟨h'.objects.trans h.objects, h'.line.trans h.line⟩

variable [PyRepr]

theorem inStep_after (es : List Event) (i : ℕ) : ((after es).sessions.get i).InStep := by
  refine run_invariant (P := fun w : World => ∀ i, (w.sessions.get i).InStep)
    (fun _ => Session.inStep_of_none rfl) (fun w e h i => ?_) es i
  rcases (w.did e).session_cases i with hsame | ⟨requested, hnew, -⟩ | ⟨a, call, s, -, hstep, hs⟩
  · rw [hsame]
    exact h i
  · rw [hnew, Session.connecting]
    split <;> exact Session.inStep_of_none rfl
  · rw [hs.1]
    exact Session.inStep_step? (h i) hstep

variable {w : World} {i : ℕ} {l : Locals} {ls : Loops}

/-- The writer takes the next frame. -/
theorem sendsOn_dequeued (hphase : (w.sessions.get i).phase = .running l ls)
    (hwriter : ls.writer = .getting) {letter : Letter} {items : List (Option Letter)}
    (hitems : (w.kit.subs.get l.sub).queue.items = some letter :: items) :
    ((w.step (.session i .dequeued)).sessions.get i).phase
        = .running l { ls with writer := .sending } ∧
      ((w.step (.session i .dequeued)).kit.subs.get l.sub).queue.items = items ∧
      SendsOn i l.sub w (w.step (.session i .dequeued)) := by
  obtain ⟨sub, hget, hrest⟩ := Subscription.dequeue_of_items hitems
  have hstep : (w.sessions.get i).step? w.kit .dequeued
      = some (some (.dequeue l.sub), (w.sessions.get i).take l ls (some letter)) := by
    rw [Session.step?_running hphase, Session.loop, if_pos hwriter, hget]
    rfl
  have hsub : (w.kit.dequeue l.sub).subs.get l.sub = sub := by
    rw [Server.dequeue, hget]
    exact Heap.get_modify_self w.kit.subs l.sub fun _ => sub
  have hsession : (w.step (.session i .dequeued)).sessions.get i
      = (w.sessions.get i).take l ls (some letter) := by
    rw [step_session hstep]
    exact Heap.get_modify_self w.sessions i fun _ => _
  have hkit : (w.step (.session i .dequeued)).kit = w.kit.dequeue l.sub := by
    rw [step_session hstep]
    rfl
  refine ⟨by rw [hsession]; rfl, by rw [hkit, hsub, hrest], ?_, ?_⟩
  · rw [hkit, Server.objects_dequeue]
  · rw [line, hsession, hkit, hsub, line, hphase, (Subscription.queued_of_dequeue hget).1]
    change ((w.sessions.get i).written ++ [_]).map _ ++ ([] ++ sub.queued) = _
    rw [List.map_append, List.append_assoc]
    rfl

/-- The frame is sent. -/
theorem sendsOn_writerSent (hphase : (w.sessions.get i).phase = .running l ls)
    (hwriter : ls.writer = .sending) (hstop : ls.stop = false) :
    ((w.step (.session i (.writerSent true))).sessions.get i).phase
        = .running l { ls with writer := .getting } ∧
      (w.step (.session i (.writerSent true))).kit = w.kit ∧
      SendsOn i l.sub w (w.step (.session i (.writerSent true))) := by
  have hnext : ls.writerNext = { ls with writer := .getting } := by
    rw [Loops.writerNext, hstop]
    rfl
  have hstep : (w.sessions.get i).step? w.kit (.writerSent true)
      = some (none, (w.sessions.get i).goto (.running l { ls with writer := .getting })) := by
    rw [Session.step?_running hphase, Session.loop, if_pos hwriter, ← hnext]
    rfl
  have hsession : (w.step (.session i (.writerSent true))).sessions.get i
      = (w.sessions.get i).goto (.running l { ls with writer := .getting }) := by
    rw [step_session hstep]
    exact Heap.get_modify_self w.sessions i fun _ => _
  have hkit : (w.step (.session i (.writerSent true))).kit = w.kit := by
    rw [step_session hstep]
    rfl
  refine ⟨by rw [hsession]; rfl, hkit, by rw [hkit], ?_⟩
  rw [line, hsession, hkit, line, hphase]
  rfl

/-- An initial frame is sent. -/
theorem sendsOn_sent {rest : List Frame} (hphase : (w.sessions.get i).phase = .initial l rest) :
    ((w.step (.session i (.sent true))).sessions.get i).phase
        = ((w.sessions.get i).sendInitial l rest).phase ∧
      (w.step (.session i (.sent true))).kit = w.kit ∧
      SendsOn i l.sub w (w.step (.session i (.sent true))) := by
  have hstep : (w.sessions.get i).step? w.kit (.sent true)
      = some (none, (w.sessions.get i).sendInitial l rest) := by
    unfold Session.step?
    rw [hphase]
  have hsession : (w.step (.session i (.sent true))).sessions.get i
      = (w.sessions.get i).sendInitial l rest := by
    rw [step_session hstep]
    exact Heap.get_modify_self w.sessions i fun _ => _
  have hkit : (w.step (.session i (.sent true))).kit = w.kit := by
    rw [step_session hstep]
    rfl
  refine ⟨by rw [hsession], hkit, by rw [hkit], ?_⟩
  rw [line, hsession, hkit, line, hphase]
  rcases rest with _ | ⟨f, rest⟩
  · rfl
  · change ((w.sessions.get i).written ++ [_]).map _ ++ (rest ++ _) = _
    rw [List.map_append, List.append_assoc]
    rfl

/-- The loops, and the wakeups that empty the queue. -/
theorem run_drain (hwriter : ls.writer = .getting) (hstop : ls.stop = false)
    (hphase : (w.sessions.get i).phase = .running l ls)
    (hframes : none ∉ (w.kit.subs.get l.sub).queue.items) {w' : World}
    (hw' : w' = run step w
      ((drain (w.kit.subs.get l.sub).queue.items.length).map (.session i))) :
    (w'.sessions.get i).phase = .running l ls ∧ (w'.kit.subs.get l.sub).queue.items = [] ∧
      SendsOn i l.sub w w' := by
  generalize hitems : (w.kit.subs.get l.sub).queue.items = items at hframes hw'
  induction items generalizing w with
  | nil =>
    subst hw'
    exact ⟨hphase, hitems, .refl ..⟩
  | cons item items ih =>
    rcases item with _ | letter
    · exact absurd List.mem_cons_self hframes
    have hagain : { ls with writer := .getting } = ls := by rw [← hwriter]
    obtain ⟨htaken, hrest, hsends⟩ := sendsOn_dequeued hphase hwriter hitems
    obtain ⟨hsent, hkit, hsends'⟩ := sendsOn_writerSent htaken rfl hstop
    rw [hagain] at hsent
    have hrest' := (congrArg (fun k : Server => (k.subs.get l.sub).queue.items) hkit).trans hrest
    obtain ⟨hend, hempty, hsends''⟩ := ih hsent hrest'
      (fun hmem => hframes (List.mem_cons_of_mem _ hmem)) hw'
    exact ⟨hend, hempty, (hsends.trans hsends').trans hsends''⟩

/-- The initial frames, and the wakeups that send them. -/
theorem run_initial {rest : List Frame} (hphase : (w.sessions.get i).phase = .initial l rest)
    {w' : World} (hw' : w' = run step w
      ((SessionEvent.sent true :: rest.map fun _ => .sent true).map (.session i))) :
    (w'.sessions.get i).phase = .running l {} ∧ w'.kit = w.kit ∧ SendsOn i l.sub w w' := by
  induction rest generalizing w with
  | nil =>
    subst hw'
    exact sendsOn_sent hphase
  | cons f rest ih =>
    obtain ⟨hnext, hkit, hsends⟩ := sendsOn_sent hphase
    obtain ⟨hend, hkit', hsends'⟩ := ih hnext hw'
    exact ⟨hend, hkit'.trans hkit, hsends.trans hsends'⟩

/-- **A session sends all that is on the way**, wherever it is suspended. -/
theorem run_catchUp (hl : (w.sessions.get i).phase.locals? = some l)
    (hgoing : ¬ (w.sessions.get i).phase.Stopping) (hinStep : (w.sessions.get i).InStep)
    (hframes : none ∉ (w.kit.subs.get l.sub).queue.items) {w' : World}
    (hw' : w' = run step w (((w.sessions.get i).phase.catchUp
      (w.kit.subs.get l.sub).queue.items.length).map (.session i))) :
    (∃ ls, (w'.sessions.get i).phase = .running l ls ∧ ls.writer = .getting) ∧
      (w'.kit.subs.get l.sub).queue.items = [] ∧ SendsOn i l.sub w w' := by
  rcases hphase : (w.sessions.get i).phase with _ | _ | _ | f | _ | _ | ⟨l', rest⟩ | ⟨l', ls⟩ | sub <;>
    rw [hphase] at hl <;> cases hl
  case initial =>
    rw [hphase, Phase.catchUp, List.map_append, run_append] at hw'
    obtain ⟨hrunning, hkit, hsends⟩ := run_initial hphase rfl
    rw [← hkit] at hframes hw'
    obtain ⟨hend, hempty, hsends'⟩ := run_drain rfl rfl hrunning hframes hw'
    exact ⟨⟨_, hend, rfl⟩, hempty, hsends.trans hsends'⟩
  case running =>
    rw [hphase, Phase.catchUp, List.map_append, run_append] at hw'
    have hstop : ls.stop = false := by
      rw [hphase] at hgoing
      exact Bool.eq_false_iff.mpr hgoing
    rcases hwriter : ls.writer with _ | _ | _
    case getting =>
      rw [hwriter, if_neg (by decide)] at hw'
      obtain ⟨hend, hempty, hsends⟩ := run_drain hwriter hstop hphase hframes hw'
      exact ⟨⟨ls, hend, hwriter⟩, hempty, hsends⟩
    case sending =>
      rw [if_pos hwriter] at hw'
      obtain ⟨hsent, hkit, hsends⟩ := sendsOn_writerSent hphase hwriter hstop
      rw [← hkit] at hframes hw'
      have hgetting : ({ ls with writer := .getting } : Loops).writer = .getting := rfl
      obtain ⟨hend, hempty, hsends'⟩ := run_drain hgetting hstop hsent hframes hw'
      exact ⟨⟨_, hend, rfl⟩, hempty, hsends.trans hsends'⟩
    case done =>
      have htold := hinStep ls (by rw [hphase]; rfl) hwriter
      rw [hstop] at htold
      cases htold

variable [PyParse]

/-- **A client catches up.**  Whatever the interleaving was, when a session is not on its way out
and nobody else reads its queue, some wakeups of its own sends and of its queue, two for each frame
that is on the way and one more at most, leave the scenes as they are and the client with a mirror
that is the scene that serves it; then its session is idle. -/
theorem catches_up (es : List Event) (i : ℕ) (halone : Steps step (ReadsAlone i) {} es)
    {l : Locals} {f : Snapshot} {c : SceneRef}
    (hl : ((after es).sessions.get i).phase.locals? = some l)
    (hgoing : ¬ ((after es).sessions.get i).phase.Stopping)
    (hopen : ((after es).kit.subs.get l.sub).closed = false)
    (hopening : ((after es).kit.subs.get l.sub).opening = .snapshot f)
    (hstale : ((after es).kit.subs.get l.sub).stale = false)
    (howns : (after es).kit.Owns c l.sub)
    (hloads : ∀ f ∈ (after es).line i l.sub,
      PyParse.loads (encode f) = .ok (.obj (frameToDict f))) :
    ∃ wakeups : List SessionEvent,
      wakeups.length ≤ 2 * (((after es).sessions.get i).phase.pending.length
        + ((after es).kit.subs.get l.sub).queued.length) + 1 ∧
      (∀ e ∈ wakeups, e = .sent true ∨ e = .dequeued ∨ e = .writerSent true) ∧
      (after (es ++ wakeups.map (.session i))).kit.objects = (after es).kit.objects ∧
      (∀ state, absorbTexts state
          (((after (es ++ wakeups.map (.session i))).sessions.get i).frames.map encode)
        = some ((after es).kit.objects.get c).store.state) ∧
      (∃ ls, ((after (es ++ wakeups.map (.session i))).sessions.get i).phase = .running l ls ∧
        ls.writer = .getting) ∧
      ((after (es ++ wakeups.map (.session i))).kit.subs.get l.sub).queue.items = [] := by
  have hframes : none ∉ ((after es).kit.subs.get l.sub).queue.items := by
    obtain ⟨ops, hops⟩ := kit_after es
    rw [hops] at hopen ⊢
    exact Server.framesOnly_after ops l.sub hopen
  have hlength := Subscription.length_queued hframes
  obtain ⟨⟨ls, hidle, hwriter⟩, hempty, hsends⟩ :=
    run_catchUp hl hgoing (inStep_after es i) hframes rfl
  refine ⟨((after es).sessions.get i).phase.catchUp
    ((after es).kit.subs.get l.sub).queue.items.length, ?_, fun e => Phase.mem_catchUp, ?_⟩
  · rw [hlength]
    exact Phase.length_catchUp ..
  rw [after_append]
  refine ⟨hsends.objects, fun state => ?_, ⟨ls, hidle, hwriter⟩, hempty⟩
  have hline := hsends.line
  rw [line, hidle, Subscription.queued, hempty] at hline
  change _ ++ ([] ++ []) = _ at hline
  rw [List.append_nil, List.append_nil] at hline
  rw [hline, absorbTexts_encode _ state hloads]
  exact congrArg some (foldl_caughtUp halone hl hopen hopening hstale howns state)

end World

/-- The delta that waits at first in `pingedRun`. -/
def pingedDelta : Delta := { patches := [{ path := "x", value := .int 1 }], seq := 2 }

namespace World

theorem catches_up_pingedRun :
    letI := PyRepr.plain
    letI := PyParse.both (encode (.snapshot pingedSnapshot))
      (.obj (frameToDict (.snapshot pingedSnapshot))) (encode (.delta pingedDelta))
      (.obj (frameToDict (.delta pingedDelta)))
    ∃ wakeups : List SessionEvent, wakeups.length ≤ 3 ∧ ∀ state, absorbTexts state
        (((after (pingedRun.take 7 ++ wakeups.map (.session 0))).sessions.get 0).frames.map encode)
      = some (.ofList [("x", .int 1)]) := by
  let := PyRepr.plain
  let := PyParse.both (encode (.snapshot pingedSnapshot))
    (.obj (frameToDict (.snapshot pingedSnapshot))) (encode (.delta pingedDelta))
    (.obj (frameToDict (.delta pingedDelta)))
  have halone : Steps step (ReadsAlone 0) {} (pingedRun.take 7) := by
    simp only [pingedRun, List.take, steps_cons]
    refine ⟨?_, ?_, ?_, ?_, ?_, ?_, ?_, steps_nil⟩ <;> decide
  have hloads : ∀ f ∈ ([.snapshot pingedSnapshot, .delta pingedDelta] : List Frame),
      PyParse.loads (encode f) = .ok (.obj (frameToDict f)) := by
    intro f hf
    rcases List.mem_pair.mp hf with rfl | rfl
    · exact if_pos rfl
    · exact (if_neg (by decide)).trans (if_pos rfl)
  obtain ⟨wakeups, hlength, -, -, hmirror, -⟩ := @catches_up .plain _ (pingedRun.take 7) 0 halone
    ⟨0, 0, { role := some .viewer }⟩ pingedSnapshot 0 rfl (fun h => by cases h) rfl rfl rfl
    (by decide) hloads
  exact ⟨wakeups, hlength, hmirror⟩

end World

end Lumencast
