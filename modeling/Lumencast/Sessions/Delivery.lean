import Lumencast.Fanout.Poison
import Lumencast.Sessions.Order

/-!
# Sessions/Delivery — every frame once, in order

What a session takes out of its queue it writes, and nothing else bears the number of a scene.  So
what it has written of the stream, what it has still to send and what waits in its queue are, one
after another, the frames it was opened with and the frames put in its queue since.  Only a close
takes a frame away: the oldest of a queue that is full, to make room for the sentinel.
-/

namespace Lumencast

open Machinery

/-- `xs` is `ys` with the stretch `gap` left out. -/
def ButFor {α : Type} (gap xs ys : List α) : Prop :=
  ∃ pre post, xs = pre ++ post ∧ ys = pre ++ gap ++ post

theorem butFor_nil {α : Type} {xs ys : List α} : ButFor [] xs ys ↔ xs = ys := by
  constructor
  · rintro ⟨pre, post, rfl, rfl⟩
    rw [List.append_nil]
  · rintro rfl
    exact ⟨xs, [], (List.append_nil xs).symm, by rw [List.append_nil, List.append_nil]⟩

theorem ButFor.append {α : Type} {gap xs ys : List α} (h : ButFor gap xs ys) (zs : List α) :
    ButFor gap (xs ++ zs) (ys ++ zs) := by
  obtain ⟨pre, post, rfl, rfl⟩ := h
  exact ⟨pre, post ++ zs, List.append_assoc .., List.append_assoc ..⟩

/-- A stretch that is left out in the middle. -/
theorem butFor_middle {α : Type} (pre gap post : List α) :
    ButFor gap (pre ++ post) (pre ++ (gap ++ post)) :=
  ⟨pre, post, rfl, (List.append_assoc ..).symm⟩

/-! ## What happens to a queue

Between two reads a queue only grows at its end, unless it is closed.  `Spared` says so of any
step that does not read it. -/

namespace Subscription

@[simp] theorem closed_sendOrDrop (sub : Subscription) (msg : Letter) :
    (sub.sendOrDrop msg).closed = sub.closed := by
  rw [sendOrDrop, putNowait]
  rcases sub.queue.putNowait (some msg) with _ | q <;> rfl

@[simp] theorem closed_sendDelta (sub : Subscription) (delta snap : Letter) :
    (sub.sendDelta delta snap).closed = sub.closed := by
  by_cases h : sub.HasRoom
  · rw [sendDelta_of_hasRoom h, closed_sendOrDrop]
  · rw [sendDelta_of_full h]
    rfl

/-- More is put in the queue, and that is all. -/
structure Grown (sub sub' : Subscription) : Prop where
  opening : sub'.opening = sub.opening
  closed : sub'.closed = sub.closed
  frames : ∃ more, sub'.frames = sub.frames ++ more ∧ sub'.queued = sub.queued ++ more

theorem Grown.refl (sub : Subscription) : sub.Grown sub :=
  ⟨rfl, rfl, [], (List.append_nil _).symm, (List.append_nil _).symm⟩

theorem Grown.trans {a b c : Subscription} (h : a.Grown b) (h' : b.Grown c) : a.Grown c := by
  obtain ⟨more, hframes, hqueued⟩ := h.frames
  obtain ⟨more', hframes', hqueued'⟩ := h'.frames
  refine ⟨h'.opening.trans h.opening, h'.closed.trans h.closed, more ++ more', ?_, ?_⟩
  · rw [hframes', hframes, List.append_assoc]
  · rw [hqueued', hqueued, List.append_assoc]

theorem grown_sendOrDrop (sub : Subscription) (msg : Letter) : sub.Grown (sub.sendOrDrop msg) := by
  refine ⟨opening_sendOrDrop .., closed_sendOrDrop .., _, frames_sendOrDrop .., ?_⟩
  rw [queued_sendOrDrop]
  split
  · rfl
  · exact (List.append_nil _).symm

theorem grown_sendDelta (sub : Subscription) (delta snap : Letter) :
    sub.Grown (sub.sendDelta delta snap) := by
  by_cases h : sub.HasRoom
  · rw [sendDelta_of_hasRoom h]
    exact grown_sendOrDrop sub delta
  · rw [sendDelta_of_full h]
    refine ⟨rfl, rfl, [], ?_, (List.append_nil _).symm⟩
    rw [frames, frames, delivered, delivered, miss, miss]
    simp

/-- **A close costs an open queue its oldest frame at most**, and a closed one nothing. -/
theorem queued_close (sub : Subscription) : ∃ gap : List Frame, gap.length ≤ 1 ∧
    sub.queued = gap ++ sub.close.queued ∧ (sub.closed = true → gap = []) := by
  have hput : ∀ {q q' : BoundedQueue (Option Letter)}, q.putNowait none = some q' →
      q'.items.filterMap (fun item => item.map (·.frame))
        = q.items.filterMap fun item => item.map (·.frame) := fun h => by
    rw [BoundedQueue.items_of_putNowait h, List.filterMap_append]
    exact List.append_nil _
  rw [close]
  by_cases hclosed : sub.closed = true
  · rw [if_pos hclosed]
    exact ⟨[], Nat.zero_le _, rfl, fun _ => rfl⟩
  rw [if_neg hclosed]
  change ∃ gap : List Frame, _ ∧ sub.queued = gap ++
    (pushSentinel sub.queue).items.filterMap _ ∧ _
  rw [pushSentinel]
  split
  · rename_i q hq
    exact ⟨[], Nat.zero_le _, (hput hq).symm, fun h => absurd h hclosed⟩
  · split
    · exact ⟨[], Nat.zero_le _, rfl, fun h => absurd h hclosed⟩
    · rename_i item q hget
      have hrest : ((q.putNowait none).getD q).items.filterMap (fun item => item.map (·.frame))
          = q.items.filterMap fun item => item.map (·.frame) := by
        rcases hq : q.putNowait none with _ | q'
        · rfl
        · exact hput hq
      refine ⟨(item.map (·.frame)).toList, ?_, ?_, fun h => absurd h hclosed⟩
      · cases item <;> simp
      · rw [hrest, queued, (BoundedQueue.items_of_getNowait hget).1]
        cases item <;> rfl

end Subscription

namespace Server

open Subscription (Grown grown_sendDelta grown_sendOrDrop)

theorem grown_handed (k : Server) (r : SubRef) (a : Act) : (k.subs.get r).Grown (k.handed r a) := by
  cases a with
  | post c patches cause =>
      rw [handed]
      split
      · exact grown_sendDelta ..
      · exact Grown.refl _
  | seed c patches =>
      rw [handed]
      split
      · exact grown_sendOrDrop ..
      · exact Grown.refl _
  | move prev next =>
      rw [handed]
      split
      · exact (grown_sendOrDrop ..).trans (grown_sendOrDrop ..)
      · exact Grown.refl _
  | _ => exact Grown.refl _

/-- **What a step leaves of a queue that it does not read**: more of it, and perhaps closed. -/
theorem spared_step {k : Server} {r : SubRef} (hr : r < k.subs.next) {op : Op}
    (hop : op ≠ .dequeue r) : (k.handed r (k.act op)).Spared ((k.step op).subs.get r) := by
  have hafter := aftermath_step k r op
  generalize (k.step op).subs.get r = sub at hafter ⊢
  rcases hafter with h | ⟨hread, -⟩ | ⟨-, -, hfresh⟩
  · exact h
  · exact absurd hread hop
  · exact absurd hfresh hr.ne

/-- What a subscriber was opened with is never taken back. -/
theorem opening_step {k : Server} {r : SubRef} (hr : r < k.subs.next) (op : Op) :
    ((k.step op).subs.get r).opening = (k.subs.get r).opening := by
  by_cases hop : op = .dequeue r
  · rw [hop]
    exact ((quiet_dequeue k r).history r).opening
  · have hhanded := (grown_handed k r (k.act op)).opening
    rcases spared_step hr hop with hsub | hsub
    · rw [hsub, hhanded]
    · rw [hsub, (Subscription.sameHistory_close _).opening, hhanded]

end Server

theorem frames_openingOf (answer : Option Snapshot × List ReplayRecord) :
    (Scene.openingOf answer).frames = openingFrames answer := by
  rcases answer with ⟨_ | f, records⟩ <;> rfl

/-! ## The ledger of one session

The frames are in three places, and each way of moving them is one lemma: from the queue to the
wire, from the opening to the wire, and into the queue. -/

namespace Session

/-- What a session has written of the stream: the frames that bear the number of a scene it was
served, or tell it of one. -/
def streamed (s : Session) : List Frame := (s.written.filter (·.issuer.isSome)).map (·.frame)

theorem streamed_write_none (s : Session) (frame : Frame) (p : Phase) :
    (s.write frame none p).streamed = s.streamed := by
  rw [streamed, write, List.filter_append, List.map_append]
  exact List.append_nil _

theorem streamed_write_some (s : Session) (frame : Frame) (c : SceneRef) (p : Phase) :
    (s.write frame (some c) p).streamed = s.streamed ++ [frame] := by
  rw [streamed, write, List.filter_append, List.map_append]
  rfl

/-- What a session has written of the stream goes on, with what it has still to send and what waits
in its queue, to all that was ever sent to `r`; one frame may be left out once `r` is closed. -/
def Delivered (k : Server) (s : Session) (r : SubRef) : Prop :=
  ∃ rest gap : List Frame, gap.length ≤ 1 ∧
    ButFor gap (s.streamed ++ rest) ((k.subs.get r).opening.frames ++ (k.subs.get r).frames) ∧
    (s.phase.locals?.isSome = true → rest = s.phase.pending ++ (k.subs.get r).queued ∧
      ((k.subs.get r).closed = false → gap = []))

section Ledger

variable {k k' : Server} {s s' : Session} {r : SubRef}

/-- A stretch that writes nothing of the stream, and leaves what is still to be sent. -/
structure Still (s s' : Session) : Prop where
  streamed : s'.streamed = s.streamed
  pending : s'.phase.locals?.isSome = true →
    s.phase.locals?.isSome = true ∧ s'.phase.pending = s.phase.pending

theorem Still.refl (s : Session) : Still s s := ⟨rfl, fun h => ⟨h, rfl⟩⟩

/-- A session that is attached no more. -/
theorem still_of_detached (hlocals : s'.phase.locals? = none) (hstreamed : s'.streamed = s.streamed) :
    Still s s' := ⟨hstreamed, fun h => by rw [hlocals] at h; cases h⟩

theorem Delivered.grown (h : Delivered k s r) (hstill : Still s s')
    (hsub : (k.subs.get r).Grown (k'.subs.get r)) : Delivered k' s' r := by
  obtain ⟨rest, gap, hgap, hall, hrest⟩ := h
  obtain ⟨more, hframes, hqueued⟩ := hsub.frames
  refine ⟨rest ++ more, gap, hgap, ?_, fun hlocals => ?_⟩
  · rw [hstill.streamed, hsub.opening, hframes, ← List.append_assoc, ← List.append_assoc]
    exact hall.append more
  · obtain ⟨hbefore, hpending⟩ := hstill.pending hlocals
    obtain ⟨hrest, hopen⟩ := hrest hbefore
    refine ⟨by rw [hrest, hpending, hqueued, List.append_assoc], fun hclosed => hopen ?_⟩
    rw [← hsub.closed]
    exact hclosed

/-- **A close takes one frame away at most.** -/
theorem Delivered.close (h : Delivered k s r)
    (hsub : k'.subs.get r = (k.subs.get r).close) : Delivered k' s r := by
  obtain ⟨rest, gap, hgap, hall, hrest⟩ := h
  have hsame := Subscription.sameHistory_close (k.subs.get r)
  by_cases hattached : s.phase.locals?.isSome = true
  · obtain ⟨hrest, hopen⟩ := hrest hattached
    obtain ⟨lost, hlost, hqueued, hclosed⟩ := Subscription.queued_close (k.subs.get r)
    rcases hbefore : (k.subs.get r).closed with _ | _
    · rw [hopen hbefore, butFor_nil] at hall
      refine ⟨s.phase.pending ++ (k'.subs.get r).queued, lost, hlost, ?_, fun _ => ⟨rfl, ?_⟩⟩
      · rw [hsub, hsame.opening, hsame.frames, ← hall, hrest, hqueued, ← List.append_assoc,
          ← List.append_assoc]
        exact butFor_middle ..
      · rw [hsub, Subscription.closed_close]
        exact fun h => by cases h
    · rw [hclosed hbefore, List.nil_append] at hqueued
      refine ⟨rest, gap, hgap, ?_, fun _ => ⟨?_, ?_⟩⟩
      · rwa [hsub, hsame.opening, hsame.frames]
      · rw [hsub, hrest, hqueued]
      · rw [hsub, Subscription.closed_close]
        exact fun h => by cases h
  · refine ⟨rest, gap, hgap, ?_, fun h => absurd h hattached⟩
    rwa [hsub, hsame.opening, hsame.frames]

/-- Once its session is not attached any more, a queue may be read by anyone. -/
theorem Delivered.detached (h : Delivered k s r) (hlocals : s.phase.locals? = none)
    (hsame : (k.subs.get r).SameHistory (k'.subs.get r)) : Delivered k' s r := by
  obtain ⟨rest, gap, hgap, hall, -⟩ := h
  refine ⟨rest, gap, hgap, ?_, fun hattached => ?_⟩
  · rwa [hsame.opening, hsame.frames]
  · rw [hlocals] at hattached
    cases hattached

/-- **What is done to the kit keeps the ledger.** -/
theorem Delivered.step_kit (h : Delivered k s r) (hr : r < k.subs.next) {op : Op}
    (hop : op ≠ .dequeue r) (hstill : Still s s') : Delivered (k.step op) s' r := by
  have hgrown : Delivered { k with subs := k.subs.modify r fun _ => k.handed r (k.act op) } s' r := by
    refine h.grown hstill ?_
    dsimp only
    rw [Heap.get_modify_self]
    exact Server.grown_handed ..
  rcases Server.spared_step hr hop with hsub | hsub
  · refine hgrown.grown (Still.refl s') ?_
    rw [hsub]
    dsimp only
    rw [Heap.get_modify_self]
    exact Subscription.Grown.refl _
  · refine hgrown.close ?_
    rw [hsub]
    dsimp only
    rw [Heap.get_modify_self]

/-- The next frame in line is written. -/
theorem Delivered.sent {f : Frame} {c : SceneRef} {p : Phase} (h : Delivered k s r)
    (hlocals : s.phase.locals?.isSome = true) (hopening : (k'.subs.get r).opening = (k.subs.get r).opening)
    (hframes : (k'.subs.get r).frames = (k.subs.get r).frames)
    (hclosed : (k'.subs.get r).closed = (k.subs.get r).closed)
    (hline : s.phase.pending ++ (k.subs.get r).queued = f :: (p.pending ++ (k'.subs.get r).queued)) :
    Delivered k' (s.write f (some c) p) r := by
  obtain ⟨rest, gap, hgap, hall, hrest⟩ := h
  obtain ⟨hrest, hopen⟩ := hrest hlocals
  refine ⟨p.pending ++ (k'.subs.get r).queued, gap, hgap, ?_, fun _ => ⟨rfl, ?_⟩⟩
  · rw [streamed_write_some, hopening, hframes, List.append_assoc, List.singleton_append, ← hline,
      ← hrest]
    exact hall
  · rwa [hclosed]

end Ledger

/-- The ledger of a session, as long as it has a subscription; before, it has written nothing of a
stream. -/
structure Balanced (k : Server) (s : Session) : Prop where
  before : s.phase.sub? = none → s.streamed = []
  delivered : ∀ r, s.phase.sub? = some r → Delivered k s r

section Stretch

variable {k : Server} {s s' : Session}

theorem balanced_unattached (h : s.Balanced k) {k' : Server} (hsub : s.phase.sub? = none)
    (hsub' : s'.phase.sub? = none) (hstreamed : s'.streamed = s.streamed) : s'.Balanced k' :=
  ⟨fun _ => hstreamed.trans (h.before hsub), fun r hr => by rw [hsub'] at hr; cases hr⟩

/-- Nothing happens to the kit. -/
theorem Balanced.still (h : s.Balanced k) (hstill : Still s s')
    (hsub : s'.phase.sub? = s.phase.sub?) : s'.Balanced k :=
  ⟨fun hnone => hstill.streamed.trans (h.before (hsub ▸ hnone)),
    fun r hr => (h.delivered r (hsub ▸ hr)).grown hstill (Subscription.Grown.refl _)⟩

theorem Balanced.step_kit (h : s.Balanced k)
    (hlt : ∀ r, s.phase.sub? = some r → r < k.subs.next) {op : Op}
    (hop : ∀ r, s.phase.sub? = some r → op ≠ .dequeue r) (hstill : Still s s')
    (hsub : s'.phase.sub? = s.phase.sub?) : s'.Balanced (k.step op) :=
  ⟨fun hnone => hstill.streamed.trans (h.before (hsub ▸ hnone)),
    fun r hr => (h.delivered r (hsub ▸ hr)).step_kit (hlt r (hsub ▸ hr)) (hop r (hsub ▸ hr)) hstill⟩

/-- The next initial frame is written, or the loops start. -/
theorem Delivered.sendInitial {l : Locals} {frames : List Frame}
    (h : Delivered k (s.goto (.initial l frames)) l.sub) :
    Delivered k (s.sendInitial l frames) l.sub := by
  rcases frames with _ | ⟨f, rest⟩
  · exact h.grown ⟨rfl, fun _ => ⟨rfl, rfl⟩⟩ (Subscription.Grown.refl _)
  · exact @Delivered.sent k k (s.goto (.initial l (f :: rest))) l.sub f l.scene (.initial l rest) h
      rfl rfl rfl rfl rfl

/-- **A client is attached**: what it is opened with is still to be sent. -/
theorem delivered_attach (hs : s.streamed = []) {c : SceneRef} (hc : c < k.objects.next)
    (live : Bool) (since : Option ℤ) (identity : Identity) :
    Delivered (k.step (.scene c (.subscribeWithResume live since)))
      (s.goto (.initial ⟨c, k.subs.next, identity⟩
        (openingFrames ((k.objects.get c).resumeAnswer since)))) k.subs.next := by
  have hsub : (k.step (.scene c (.subscribeWithResume live since))).subs.get k.subs.next
      = { live := live, opening := Scene.openingOf ((k.objects.get c).resumeAnswer since) } := by
    rw [Server.step_subscribeWithResume hc, Server.sub_attach_next]
  refine ⟨openingFrames ((k.objects.get c).resumeAnswer since), [], Nat.zero_le _, ?_, fun _ => ?_⟩
  · rw [hsub, butFor_nil, frames_openingOf]
    change s.streamed ++ _ = _ ++ []
    rw [hs, List.nil_append, List.append_nil]
  · rw [hsub]
    exact ⟨(List.append_nil _).symm, fun _ => rfl⟩

/-- Making a call that reads no queue, or none. -/
theorem Balanced.perform (h : s.Balanced k)
    (hlt : ∀ r, s.phase.sub? = some r → r < k.subs.next) {call : Option Call}
    (hcall : ∀ r, call ≠ some (.dequeue r)) (hstill : Still s s')
    (hsub : s'.phase.sub? = s.phase.sub?) : s'.Balanced (k.perform call) := by
  rcases call with _ | call
  · exact h.still hstill hsub
  · refine h.step_kit hlt (fun r _ hop => ?_) hstill hsub
    cases call with
    | dequeue r' =>
        cases hop
        exact hcall r rfl
    | _ => cases hop

variable [PyRepr]

/-- **A client frame** is answered past the queue, and leads to one input at most. -/
theorem receive_still {l : Locals} {ls : Loops} (hphase : s.phase = .running l ls) (r : Received) :
    (Still s (s.receive k l ls r).2 ∧ (s.receive k l ls r).2.phase.sub? = s.phase.sub?) ∧
      ∀ r', (s.receive k l ls r).1 ≠ some (.dequeue r') := by
  have hgoto : ∀ ls', Still s (s.goto (.running l ls')) ∧
      (s.goto (.running l ls')).phase.sub? = s.phase.sub? := fun ls' =>
    ⟨⟨rfl, fun _ => by rw [hphase]; exact ⟨rfl, rfl⟩⟩, by rw [hphase]; rfl⟩
  have hwrite : ∀ (frame : Frame) ls', Still s (s.write frame none (.running l ls')) ∧
      (s.write frame none (.running l ls')).phase.sub? = s.phase.sub? := fun frame ls' =>
    ⟨⟨streamed_write_none .., fun _ => by rw [hphase]; exact ⟨rfl, rfl⟩⟩, by rw [hphase]; rfl⟩
  have hnone : ∀ r', (none : Option Call) ≠ some (.dequeue r') := fun _ h => by cases h
  rcases r with f | message | message | message
  · rcases f with f | f | f | f | nonce | nonce | f | f | _
    case input =>
      refine ⟨?_, fun _ h => by cases h⟩
      change Still s (s.input k l ls f).2 ∧ (s.input k l ls f).2.phase.sub? = s.phase.sub?
      rw [input]
      split
      · exact hgoto _
      · exact hgoto _
      · exact hwrite ..
    case ping => exact ⟨hwrite .., hnone⟩
    case subscribe => exact ⟨hwrite .., hnone⟩
    all_goals exact ⟨hgoto _, hnone⟩
  · exact ⟨hwrite .., hnone⟩
  · exact ⟨hwrite .., hnone⟩
  · exact ⟨hgoto _, hnone⟩

theorem balanced_looped {l : Locals} {ls : Loops} (h : s.Balanced k)
    (hlt : ∀ r, s.phase.sub? = some r → r < k.subs.next) (hphase : s.phase = .running l ls)
    {e : SessionEvent} {call : Option Call} (hlooped : Looped k s l ls e call s') :
    s'.Balanced (k.perform call) := by
  have hgoto : ∀ ls', Still s (s.goto (.running l ls')) := fun ls' =>
    ⟨rfl, fun _ => by rw [hphase]; exact ⟨rfl, rfl⟩⟩
  have hsub : s.phase.sub? = some l.sub := by rw [hphase]; rfl
  rcases hlooped with @⟨hreader, r⟩ | hsent | @⟨item, sub, hwriter, hget⟩ | _ | _ | _ | _
  case received =>
    obtain ⟨⟨hstill, hsame⟩, hcall⟩ := @receive_still k s _ l ls hphase r
    exact h.perform hlt hcall hstill hsame
  case readerSent =>
    obtain ⟨ls', rfl, -⟩ := readerSent_eq_some hsent
    exact h.still (hgoto ls') hsub.symm
  case dequeued =>
    have hdequeue : (k.perform (some (.dequeue l.sub))).subs.get l.sub = sub := by
      change (k.dequeue l.sub).subs.get l.sub = sub
      rw [Server.dequeue, hget]
      exact Heap.get_modify_self k.subs l.sub fun _ => sub
    have hsame := Subscription.sameHistory_dequeue hget
    obtain ⟨hqueued, hclosed⟩ := Subscription.queued_of_dequeue hget
    have hsub' : (s.take l ls item).phase.sub? = some l.sub := by cases item <;> rfl
    refine ⟨fun hnone => absurd (hsub'.symm.trans hnone) (by simp), fun r hr => ?_⟩
    obtain rfl : l.sub = r := Option.some.inj (hsub'.symm.trans hr)
    rcases item with _ | letter
    · refine (h.delivered _ hsub).grown (hgoto _) ?_
      rw [hdequeue]
      refine ⟨hsame.opening, hclosed, [], ?_, ?_⟩
      · rw [hsame.frames, List.append_nil]
      · rw [hqueued]
        exact (List.append_nil _).symm
    · refine (h.delivered _ hsub).sent (by rw [hphase]; rfl) ?_ ?_ ?_ ?_
      · rw [hdequeue]
        exact hsame.opening
      · rw [hdequeue]
        exact hsame.frames
      · rw [hdequeue]
        exact hclosed
      · rw [hphase, hdequeue, hqueued]
        rfl
  case pingDue =>
    exact h.still ⟨streamed_write_none .., fun _ => by rw [hphase]; exact ⟨rfl, rfl⟩⟩ hsub.symm
  case gathered =>
    exact h.perform hlt (fun _ h => by cases h) (still_of_detached rfl rfl) hsub.symm
  all_goals exact h.still (hgoto _) hsub.symm

/-- **What a stretch of the session itself leaves of its ledger.** -/
theorem balanced_step? (h : s.Balanced k) (hwf : k.Wf)
    (hlt : ∀ r, s.phase.sub? = some r → r < k.subs.next) {e : SessionEvent} {call : Option Call}
    (hstep : s.step? k e = some (call, s')) : s'.Balanced (k.perform call) := by
  rcases stepped hstep with ⟨hphase, -, rfl | rfl⟩ | ⟨hphase | hphase | hphase, -, rfl | rfl⟩ |
    ⟨hphase, r⟩ | hphase | @⟨f, a, _, _, hphase, hanswered⟩ | hphase |
    @⟨l, rest, hphase⟩ | @⟨l, rest, hphase⟩ | @⟨l, rest, hphase⟩ |
    ⟨hphase, hlooped⟩
  case read =>
    refine balanced_unattached h (by rw [hphase]; rfl) ?_ ?_
    all_goals unfold readSubscribe; split
    case h_1 | h_3 => rfl
    all_goals first | rfl | exact streamed_write_none ..
  case readCancelled =>
    exact balanced_unattached h (by rw [hphase]; rfl) rfl (streamed_write_none ..)
  case answered =>
    have hsub : s.phase.sub? = none := by rw [hphase]; rfl
    rcases hanswered with @⟨identity, c, -, hscene⟩ | _ | _
    · have hlocals := locals?_sendInitial s ⟨c, k.subs.next, identity⟩
        (openingFrames ((k.objects.get c).resumeAnswer f.sinceSequence))
      have hc := hwf.registered_lt c (Server.registered_of_resolveScene hscene)
      refine ⟨fun hnone => ?_, fun r hr => ?_⟩
      · rw [Phase.sub?_of_locals? hlocals] at hnone
        cases hnone
      · rw [Phase.sub?_of_locals? hlocals] at hr
        cases hr
        exact (delivered_attach (h.before hsub) hc f.live f.sinceSequence identity).sendInitial
    · exact balanced_unattached h hsub rfl (streamed_write_none ..)
    · exact balanced_unattached h hsub rfl rfl
  case initialSent =>
    have hsub : s.phase.sub? = some l.sub := by rw [hphase]; rfl
    have hsub' := Phase.sub?_of_locals? (locals?_sendInitial s l rest)
    have hs : s.goto (.initial l rest) = s := by rw [goto, ← hphase]
    refine ⟨fun hnone => ?_, fun r hr => ?_⟩
    · rw [hsub'] at hnone
      cases hnone
    · rw [hsub'] at hr
      cases hr
      exact (hs.symm ▸ h.delivered l.sub hsub).sendInitial
  case initialFailed =>
    refine h.perform hlt (fun _ h => by cases h) (still_of_detached rfl rfl) ?_
    rw [hphase]
    rfl
  case initialCancelled =>
    refine h.still (still_of_detached rfl rfl) ?_
    rw [hphase]
    rfl
  case running => exact balanced_looped h hlt hphase hlooped
  all_goals exact balanced_unattached h (by rw [hphase]; rfl) rfl rfl

end Stretch

end Session

/-! ## Any interleaving

What others do only adds to a queue, as long as they do not read it.  So the ledger is kept by
every event of a run. -/

namespace World

variable [PyRepr]

/-- While the session `i` is attached, nobody else reads its queue. -/
def ReadsAlone (i : ℕ) (w : World) (e : Event) : Prop :=
  ∀ l ∈ (w.sessions.get i).phase.locals?, e.readsQueue l.sub = false

instance (i : ℕ) (w : World) (e : Event) : Decidable (w.ReadsAlone i e) := by
  unfold ReadsAlone
  infer_instance

/-- **What others do keeps the ledger of a session.** -/
theorem balanced_others {w : World} (hwf : w.Wf) {i : ℕ}
    (h : (w.sessions.get i).Balanced w.kit) {e : Event} (halone : w.ReadsAlone i e)
    (hother : ∀ a, e ≠ .session i a) : (w.sessions.get i).Balanced (w.step e).kit := by
  refine ⟨h.before, fun r hr => ?_⟩
  have hdelivered := h.delivered r hr
  rw [kit_step]
  rcases hop : w.opOf e with _ | op
  · exact hdelivered
  · dsimp only
    by_cases hreads : op = .dequeue r
    · rcases hlocals : (w.sessions.get i).phase.locals? with _ | l
      · refine hdelivered.detached hlocals ?_
        rw [hreads]
        exact (Server.quiet_dequeue w.kit r).history r
      · have hl : l.sub = r :=
          Option.some.inj ((Phase.sub?_of_locals? hlocals).symm.trans hr)
        have hread := readsQueue_of_dequeue hwf hlocals (by rw [hop, hreads, hl]) hother
        rw [halone l hlocals] at hread
        cases hread
    · exact hdelivered.step_kit (hwf.sub_lt i r hr) hreads (Session.Still.refl _)

theorem balanced_step {w : World} (hwf : w.Wf) {i : ℕ}
    (h : (w.sessions.get i).Balanced w.kit) {e : Event} (halone : w.ReadsAlone i e) :
    ((w.step e).sessions.get i).Balanced (w.step e).kit := by
  by_cases hown : ∃ a, e = .session i a
  · obtain ⟨a, rfl⟩ := hown
    rcases hstep : (w.sessions.get i).step? w.kit a with _ | ⟨call, s'⟩
    · rw [step_session_of_none hstep]
      exact h
    · rw [step_session hstep]
      dsimp only
      rw [Heap.get_modify_self]
      exact Session.balanced_step? h hwf.kit (hwf.sub_lt i) hstep
  · have hother : ∀ a, e ≠ .session i a := fun a he => hown ⟨a, he⟩
    rcases (w.did e).session_cases i with hsame | ⟨requested, hnew, -⟩ | ⟨a, call, s', he, -⟩
    · rw [hsame]
      exact balanced_others hwf h halone hother
    · rw [hnew]
      refine ⟨fun _ => rfl, fun r hr => ?_⟩
      rw [Session.sub?_connecting] at hr
      cases hr
    · exact absurd he (hother a)

theorem balanced_after {es : List Event} {i : ℕ} (halone : Steps step (ReadsAlone i) {} es) :
    ((after es).sessions.get i).Balanced (after es).kit := by
  have hstart : ({} : World).Wf ∧ (({} : World).sessions.get i).Balanced ({} : World).kit :=
    ⟨wf_start Server.wf_empty, fun _ => rfl, fun _ hr => by cases hr⟩
  exact (Steps.invariant (P := fun w => w.Wf ∧ (w.sessions.get i).Balanced w.kit) hstart
    (fun w e h hc => ⟨wf_step w e h.1, balanced_step h.1 h.2 hc⟩) halone).2

/-- While a client is attached and its subscription is open, what it was sent of the stream lacks
what its session has still to send and what waits in its queue, and nothing else. -/
theorem streamed_append {es : List Event} {i : ℕ} (halone : Steps step (ReadsAlone i) {} es)
    {r : SubRef} (hr : ((after es).sessions.get i).phase.sub? = some r)
    (hlocals : ((after es).sessions.get i).phase.locals?.isSome = true)
    (hopen : ((after es).kit.subs.get r).closed = false) :
    ((after es).sessions.get i).streamed ++ (((after es).sessions.get i).phase.pending ++
        ((after es).kit.subs.get r).queued)
      = ((after es).kit.subs.get r).opening.frames ++ ((after es).kit.subs.get r).frames := by
  obtain ⟨rest, gap, -, hall, hrest⟩ := (balanced_after halone).delivered r hr
  obtain ⟨hrest, hnone⟩ := hrest hlocals
  rwa [hnone hopen, butFor_nil, hrest] at hall

/-- **Nothing is lost, repeated or reordered on the way to the wire.**  Whatever the interleaving, as
long as nobody else reads the queue of a session: what it has written of the stream goes on to be
the frames it was opened with and all that was put in its queue, but for one frame at most; and
while it is attached and its subscription is open, nothing is left out, and what is missing yet is
what it has still to send and what waits in its queue. -/
theorem delivered_in_order (es : List Event) (i : ℕ) (halone : Steps step (ReadsAlone i) {} es)
    {r : SubRef} (hr : ((after es).sessions.get i).phase.sub? = some r) :
    (∃ rest gap : List Frame, gap.length ≤ 1 ∧
      ButFor gap (((after es).sessions.get i).streamed ++ rest)
        (((after es).kit.subs.get r).opening.frames ++ ((after es).kit.subs.get r).frames)) ∧
      (((after es).sessions.get i).phase.locals?.isSome = true →
        ((after es).kit.subs.get r).closed = false →
        ((after es).sessions.get i).streamed ++ (((after es).sessions.get i).phase.pending ++
            ((after es).kit.subs.get r).queued)
          = ((after es).kit.subs.get r).opening.frames ++ ((after es).kit.subs.get r).frames) := by
  obtain ⟨rest, gap, hgap, hall, -⟩ := (balanced_after halone).delivered r hr
  exact ⟨⟨rest, gap, hgap, hall⟩, streamed_append halone hr⟩

/-- A viewer watches a scene that emits twice; the second delta waits when it sends a second
`Subscribe`, which is refused. -/
def watchedRun : List Event :=
  [.trusted (.newScene "a" "v1" [] true), .connect ["lsdp.v1"], .session 0 (.sent true),
    .session 0 (.received (.frame (.subscribe { token := .str "t" }))),
    .session 0 (.authenticated (.identity { role := some .viewer })), .session 0 (.sent true),
    .trusted (.scene 0 (.emit (.ofList [("x", .int 1)]) none)), .session 0 .dequeued,
    .trusted (.scene 0 (.emit (.ofList [("x", .int 2)]) none)),
    .session 0 (.received (.frame (.subscribe { token := .str "t" })))]

end World

namespace World

theorem delivered_watchedRun :
    ((@after .plain watchedRun).sessions.get 0).frames.map Frame.seq? = [some 1, some 2, some 3] ∧
      ((@after .plain watchedRun).sessions.get 0).streamed
          ++ ((@after .plain watchedRun).kit.subs.get 0).queued
        = ((@after .plain watchedRun).kit.subs.get 0).opening.frames
          ++ ((@after .plain watchedRun).kit.subs.get 0).frames := by
  refine ⟨rfl, (@delivered_in_order .plain watchedRun 0 ?_ 0 rfl).2 rfl rfl⟩
  simp only [watchedRun, steps_cons]
  refine ⟨?_, ?_, ?_, ?_, ?_, ?_, ?_, ?_, ?_, ?_, steps_nil⟩ <;> decide

end World

end Lumencast
