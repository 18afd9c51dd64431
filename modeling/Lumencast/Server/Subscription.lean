import Lumencast.Machinery.Buffer
import Lumencast.Machinery.Heap
import Lumencast.Server.ReplayBuffer

/-!
# Server/Subscription — one client's pipe

A `Subscription` is the bounded queue a scene puts frames in and a writer takes them out of.  Next
to the fields of the source it carries a history that no operation reads: what the client was opened
with, and every frame offered since, taken or not.  A queued frame is a `Letter`, which remembers
the scene whose counter numbered it and what that scene's store held.
-/

namespace Lumencast

open Machinery

/-- A `Subscription` object, by reference. -/
abbrev SubRef := ℕ

/-- A `Scene` object, by reference. -/
abbrev SceneRef := ℕ

/-- A frame on its way; `issuer` and `content` are history. -/
structure Letter where
  frame : Frame
  /-- The scene whose counter issued the frame's number. -/
  issuer : SceneRef
  /-- What the store of the scene that sent it held. -/
  content : Dict PyStr Json

/-- An attempt to put a letter in a queue. -/
structure Offer where
  letter : Letter
  taken : Bool

/-- What a subscriber was handed when it was attached. -/
inductive Opening where
  | snapshot (f : Snapshot)
  | replay (records : List ReplayRecord)

/-- The capacity of a subscription's queue. -/
def QUEUE_MAXSIZE : ℕ := 256

/-- One subscriber's pipe; `opening` and `offers` are history. -/
structure Subscription where
  /-- Frames waiting for the writer; `none` is the sentinel that ends it. -/
  queue : BoundedQueue (Option Letter) := .new QUEUE_MAXSIZE
  live : Bool := false
  closed : Bool := false
  stale : Bool := false
  opening : Opening := .replay []
  offers : List Offer := []

instance : Inhabited Subscription := ⟨{}⟩

namespace Subscription

/-- Whether the queue takes one more item. -/
def HasRoom (sub : Subscription) : Prop := sub.queue.HasRoom

instance (sub : Subscription) : Decidable sub.HasRoom := inferInstanceAs (Decidable (_ < _))

/-- `queue.put_nowait(msg)`; `none` is `QueueFull`. -/
def putNowait (sub : Subscription) (msg : Letter) : Option Subscription :=
  (sub.queue.putNowait (some msg)).map fun q =>
    { sub with queue := q, offers := sub.offers ++ [⟨msg, true⟩] }

/-- Note in the history that a frame was refused. -/
def miss (sub : Subscription) (msg : Letter) : Subscription :=
  { sub with offers := sub.offers ++ [⟨msg, false⟩] }

/-- `_send_or_drop`: enqueue a frame, or mark the subscription stale. -/
def sendOrDrop (sub : Subscription) (msg : Letter) : Subscription :=
  match sub.putNowait msg with
  | some sub' => sub'
  | none => { sub.miss msg with stale := true }

/-- `_send_delta`: enqueue a delta, or fall back to a snapshot. -/
def sendDelta (sub : Subscription) (delta snap : Letter) : Subscription :=
  match sub.putNowait delta with
  | some sub' => sub'
  | none => (sub.miss delta).sendOrDrop snap

/-- The sentinel that wakes the writer, at the price of the oldest item if the queue is full. -/
def pushSentinel (q : BoundedQueue (Option Letter)) : BoundedQueue (Option Letter) :=
  match q.putNowait none with
  | some q' => q'
  | none =>
      match q.getNowait with
      | none => q
      | some (_, q') => (q'.putNowait none).getD q'

/-- `close`: mark the subscription closed and wake its reader. -/
def close (sub : Subscription) : Subscription :=
  if sub.closed then sub else { sub with closed := true, queue := pushSentinel sub.queue }

/-- `queue.get()`, once there is something to get. -/
def dequeue (sub : Subscription) : Option (Option Letter × Subscription) :=
  sub.queue.getNowait.map fun r => (r.1, { sub with queue := r.2 })

/-- The frames put in the queue, in order. -/
def delivered (sub : Subscription) : List Letter :=
  (sub.offers.filter (·.taken)).map (·.letter)

/-- The same, as frames. -/
def frames (sub : Subscription) : List Frame := sub.delivered.map (·.frame)

/-- What a client opened with the snapshot `f` has been sent. -/
def stream (sub : Subscription) (f : Snapshot) : List Frame := .snapshot f :: sub.frames

/-! ## What each operation changes

Each operation gets one lemma for each field it may touch, the history included, so that nothing
later unfolds an operation. -/

theorem putNowait_of_hasRoom {sub : Subscription} (h : sub.HasRoom) (msg : Letter) :
    ∃ q, sub.queue.putNowait (some msg) = some q ∧ sub.putNowait msg
      = some { sub with queue := q, offers := sub.offers ++ [⟨msg, true⟩] } := by
  obtain ⟨q, hq, -⟩ := BoundedQueue.putNowait_of_hasRoom h (some msg)
  exact ⟨q, hq, by rw [putNowait, hq, Option.map_some]⟩

theorem putNowait_of_full {sub : Subscription} (h : ¬ sub.HasRoom) (msg : Letter) :
    sub.putNowait msg = none := by
  rw [putNowait, BoundedQueue.putNowait_of_full h, Option.map_none]

/-- A full queue takes neither the delta nor the snapshot it would fall back to. -/
theorem sendDelta_of_full {sub : Subscription} (h : ¬ sub.HasRoom) (delta snap : Letter) :
    sub.sendDelta delta snap = { (sub.miss delta).miss snap with stale := true } := by
  have hsnap : (sub.miss delta).putNowait snap = none :=
    @putNowait_of_full (sub.miss delta) h snap
  rw [sendDelta, putNowait_of_full h, sendOrDrop, hsnap]

/-- A queue with room takes the delta, and the fallback is never built. -/
theorem sendDelta_of_hasRoom {sub : Subscription} (h : sub.HasRoom) (delta snap : Letter) :
    sub.sendDelta delta snap = sub.sendOrDrop delta := by
  obtain ⟨q, -, hput⟩ := putNowait_of_hasRoom h delta
  simp only [sendDelta, sendOrDrop, hput]

theorem offers_sendOrDrop (sub : Subscription) (msg : Letter) :
    (sub.sendOrDrop msg).offers = sub.offers ++ [⟨msg, decide sub.HasRoom⟩] := by
  by_cases h : sub.HasRoom
  · obtain ⟨q, -, hput⟩ := putNowait_of_hasRoom h msg
    rw [sendOrDrop, hput, decide_eq_true h]
  · rw [sendOrDrop, putNowait_of_full h, decide_eq_false h]
    rfl

theorem delivered_sendOrDrop (sub : Subscription) (msg : Letter) :
    (sub.sendOrDrop msg).delivered
      = sub.delivered ++ if sub.HasRoom then [msg] else [] := by
  rw [delivered, delivered, offers_sendOrDrop, List.filter_append, List.map_append]
  split
  · rename_i h
    simp [h]
  · rename_i h
    simp [h]

theorem frames_sendOrDrop (sub : Subscription) (msg : Letter) :
    (sub.sendOrDrop msg).frames = sub.frames ++ if sub.HasRoom then [msg.frame] else [] := by
  rw [frames, frames, delivered_sendOrDrop, List.map_append]
  split <;> rfl

theorem stream_sendOrDrop (sub : Subscription) (msg : Letter) (f : Snapshot) :
    (sub.sendOrDrop msg).stream f
      = if sub.HasRoom then sub.stream f ++ [msg.frame] else sub.stream f := by
  rw [stream, stream, frames_sendOrDrop]
  split
  · rw [List.cons_append]
  · rw [List.append_nil]

theorem stale_sendOrDrop (sub : Subscription) (msg : Letter) :
    (sub.sendOrDrop msg).stale = (sub.stale || !decide sub.HasRoom) := by
  by_cases h : sub.HasRoom
  · obtain ⟨q, -, hput⟩ := putNowait_of_hasRoom h msg
    rw [sendOrDrop, hput, decide_eq_true h, Bool.not_true, Bool.or_false]
  · rw [sendOrDrop, putNowait_of_full h, decide_eq_false h, Bool.not_false, Bool.or_true]

/-- A flag that stays down means the frame was taken. -/
theorem hasRoom_of_stale {sub : Subscription} {msg : Letter}
    (h : (sub.sendOrDrop msg).stale = false) : sub.HasRoom ∧ sub.stale = false := by
  rw [stale_sendOrDrop, Bool.or_eq_false_iff, Bool.not_eq_false', decide_eq_true_iff] at h
  exact h.symm

theorem queue_sendOrDrop (sub : Subscription) (msg : Letter) :
    (sub.sendOrDrop msg).queue.items
      = if sub.HasRoom then sub.queue.items ++ [some msg] else sub.queue.items := by
  by_cases h : sub.HasRoom
  · obtain ⟨q, hq, hput⟩ := putNowait_of_hasRoom h msg
    rw [sendOrDrop, hput, if_pos h]
    exact BoundedQueue.items_of_putNowait hq
  · rw [sendOrDrop, putNowait_of_full h, if_neg h]
    rfl

theorem maxsize_sendOrDrop (sub : Subscription) (msg : Letter) :
    (sub.sendOrDrop msg).queue.maxsize = sub.queue.maxsize := by
  by_cases h : sub.HasRoom
  · obtain ⟨q, hq, hput⟩ := putNowait_of_hasRoom h msg
    rw [sendOrDrop, hput]
    exact BoundedQueue.maxsize_of_putNowait hq
  · rw [sendOrDrop, putNowait_of_full h]
    rfl

/-- One frame leaves room for another if there were two free slots. -/
theorem hasRoom_sendOrDrop (sub : Subscription) (msg : Letter) :
    (sub.sendOrDrop msg).HasRoom ↔ sub.queue.items.length + 1 < sub.queue.maxsize := by
  rw [HasRoom, BoundedQueue.HasRoom, queue_sendOrDrop, maxsize_sendOrDrop]
  by_cases h : sub.HasRoom
  · rw [if_pos h, List.length_append, List.length_singleton]
  · have hfull : ¬ sub.queue.items.length < sub.queue.maxsize := h
    rw [if_neg h]
    omega

@[simp] theorem opening_sendOrDrop (sub : Subscription) (msg : Letter) :
    (sub.sendOrDrop msg).opening = sub.opening := by
  rw [sendOrDrop, putNowait]
  rcases sub.queue.putNowait (some msg) with _ | q <;> rfl

@[simp] theorem live_sendOrDrop (sub : Subscription) (msg : Letter) :
    (sub.sendOrDrop msg).live = sub.live := by
  rw [sendOrDrop, putNowait]
  rcases sub.queue.putNowait (some msg) with _ | q <;> rfl

/-- Sending a delta leaves one offer when it is taken and two when it is not. -/
theorem offers_sendDelta (sub : Subscription) (delta snap : Letter) :
    (sub.sendDelta delta snap).offers = sub.offers ++
      if sub.HasRoom then [⟨delta, true⟩] else [⟨delta, false⟩, ⟨snap, false⟩] := by
  by_cases h : sub.HasRoom
  · rw [sendDelta_of_hasRoom h, offers_sendOrDrop, decide_eq_true h, if_pos h]
  · rw [sendDelta_of_full h, if_neg h]
    change sub.offers ++ [⟨delta, false⟩] ++ [⟨snap, false⟩] = _
    rw [List.append_assoc, List.singleton_append]

theorem delivered_sendDelta (sub : Subscription) (delta snap : Letter) :
    (sub.sendDelta delta snap).delivered
      = sub.delivered ++ if sub.HasRoom then [delta] else [] := by
  rw [delivered, delivered, offers_sendDelta, List.filter_append, List.map_append]
  split
  · rfl
  · rfl

theorem stale_sendDelta (sub : Subscription) (delta snap : Letter) :
    (sub.sendDelta delta snap).stale = (sub.stale || !decide sub.HasRoom) := by
  by_cases h : sub.HasRoom
  · rw [sendDelta_of_hasRoom h, stale_sendOrDrop]
  · rw [sendDelta_of_full h, decide_eq_false h, Bool.not_false, Bool.or_true]

@[simp] theorem opening_sendDelta (sub : Subscription) (delta snap : Letter) :
    (sub.sendDelta delta snap).opening = sub.opening := by
  by_cases h : sub.HasRoom
  · rw [sendDelta_of_hasRoom h, opening_sendOrDrop]
  · rw [sendDelta_of_full h]
    rfl

@[simp] theorem live_sendDelta (sub : Subscription) (delta snap : Letter) :
    (sub.sendDelta delta snap).live = sub.live := by
  by_cases h : sub.HasRoom
  · rw [sendDelta_of_hasRoom h, live_sendOrDrop]
  · rw [sendDelta_of_full h]
    rfl

theorem maxsize_sendDelta (sub : Subscription) (delta snap : Letter) :
    (sub.sendDelta delta snap).queue.maxsize = sub.queue.maxsize := by
  by_cases h : sub.HasRoom
  · rw [sendDelta_of_hasRoom h, maxsize_sendOrDrop]
  · rw [sendDelta_of_full h]
    rfl

theorem queue_sendDelta (sub : Subscription) (delta snap : Letter) :
    (sub.sendDelta delta snap).queue.items
      = if sub.HasRoom then sub.queue.items ++ [some delta] else sub.queue.items := by
  by_cases h : sub.HasRoom
  · rw [sendDelta_of_hasRoom h, queue_sendOrDrop]
  · rw [sendDelta_of_full h, if_neg h]
    rfl

/-- Two subscriptions with one history: closing and dequeuing change neither what a client was
opened with nor what it was offered. -/
structure SameHistory (sub sub' : Subscription) : Prop where
  live : sub'.live = sub.live
  stale : sub'.stale = sub.stale
  opening : sub'.opening = sub.opening
  offers : sub'.offers = sub.offers
  maxsize : sub'.queue.maxsize = sub.queue.maxsize

theorem SameHistory.frames {sub sub' : Subscription} (h : SameHistory sub sub') :
    sub'.frames = sub.frames := by
  rw [Subscription.frames, Subscription.delivered, h.offers]
  rfl

theorem SameHistory.refl (sub : Subscription) : SameHistory sub sub := ⟨rfl, rfl, rfl, rfl, rfl⟩

theorem SameHistory.trans {a b c : Subscription} (h : SameHistory a b) (k : SameHistory b c) :
    SameHistory a c :=
  ⟨k.live.trans h.live, k.stale.trans h.stale, k.opening.trans h.opening,
    k.offers.trans h.offers, k.maxsize.trans h.maxsize⟩

theorem maxsize_pushSentinel (q : BoundedQueue (Option Letter)) :
    (pushSentinel q).maxsize = q.maxsize := by
  rw [pushSentinel]
  split
  · rename_i q' hq'
    exact BoundedQueue.maxsize_of_putNowait hq'
  · split
    · rfl
    · rename_i a q' hget
      have hsize : q'.maxsize = q.maxsize := (BoundedQueue.items_of_getNowait hget).2
      rcases hput : q'.putNowait none with _ | q''
      · rwa [Option.getD_none]
      · rw [Option.getD_some, BoundedQueue.maxsize_of_putNowait hput, hsize]

theorem sameHistory_close (sub : Subscription) : SameHistory sub sub.close := by
  rw [close]
  split
  · exact SameHistory.refl sub
  · exact ⟨rfl, rfl, rfl, rfl, maxsize_pushSentinel sub.queue⟩

theorem sameHistory_dequeue {sub sub' : Subscription} {a : Option Letter}
    (h : sub.dequeue = some (a, sub')) : SameHistory sub sub' := by
  rw [dequeue] at h
  rcases hget : sub.queue.getNowait with _ | ⟨b, q⟩
  · simp [hget] at h
  · rw [hget, Option.map_some, Option.some.injEq, Prod.mk.injEq] at h
    obtain ⟨-, rfl⟩ := h
    exact ⟨rfl, rfl, rfl, rfl, (BoundedQueue.items_of_getNowait hget).2⟩

end Subscription

end Lumencast
