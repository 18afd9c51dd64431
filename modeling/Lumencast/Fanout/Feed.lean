import Lumencast.Conformance.Harness
import Lumencast.Machinery.Replica
import Lumencast.Server.Acts

/-!
# Fanout/Feed — a subscription as a lossy channel

A subscriber is a replica of the scene that owns it: a `Snapshot` posts the whole state, a `Delta`
one update, a `SceneChanged` nothing.  `feed` reads a subscription's offers that way, so the rules
of `Machinery/Replica` apply to them.
-/

namespace Lumencast

open Machinery

/-- What a frame posts. -/
def Frame.post : Frame → Post (Dict PyStr Json) (List (PyStr × Json))
  | .snapshot f => .full f.state
  | .delta f => .update (f.patches.map fun p => (p.path, p.value))
  | _ => .mark

/-- The offers of a subscription, as posts. -/
def feed : Feed Offer (Dict PyStr Json) (List (PyStr × Json)) where
  post o := o.letter.frame.post
  taken := Offer.taken
  act := Dict.update

/-- Absorbing a frame is absorbing what it posts. -/
theorem shadowAfter_eq (state : Dict PyStr Json) (f : Frame) :
    shadowAfter state f = feed.absorb state f.post := by cases f <;> rfl

/-- **Folding the frames put in a queue is the replica's view of its offers.** -/
theorem foldl_frames (sub : Subscription) (state : Dict PyStr Json) :
    sub.frames.foldl shadowAfter state = feed.shadow state sub.offers := by
  rw [Subscription.frames, Subscription.delivered]
  induction sub.offers using List.reverseRecOn with
  | nil => rfl
  | append_singleton offers o ih =>
    rw [Feed.shadow_concat, ← ih, Feed.receive, List.filter_append, List.map_append,
      List.map_append, List.foldl_append]
    rcases htaken : o.taken with _ | _
    · simp [feed, htaken]
    · simp [feed, htaken, shadowAfter_eq]

/-- The patches of an emission, put on the wire and read back. -/
theorem map_wirePatches (entries : List (PyStr × Json)) :
    (Scene.wirePatches entries).map (fun p => (p.path, p.value)) = entries := by
  rw [Scene.wirePatches, List.map_map]
  exact List.map_id entries

@[simp] theorem post_deltaLetter (sc : Scene) (entries : List (PyStr × Json))
    (cause : Option Cause) :
    (sc.deltaLetter (Scene.wirePatches entries) cause).frame.post = .update entries :=
  congrArg Post.update (map_wirePatches entries)

/-! ## What each way of sending does to the replica -/

section Sending

variable {s₀ s : Dict PyStr Json} {sub : Subscription}

/-- A snapshot brings the replica in step, or is lost and recorded so. -/
theorem inSync_sendOrDrop_snapshot (sc : Scene) :
    feed.InSync s₀ (sub.sendOrDrop sc.snapshotLetter).offers sc.store.state := by
  rw [Subscription.offers_sendOrDrop]
  exact Feed.inSync_full rfl

/-- A delta keeps the replica in step: it is taken, or both it and its fallback are lost. -/
theorem inSync_deliver {sc : Scene} {patches : Dict PyStr Json} {cause : Option Cause}
    (h : feed.InSync s₀ sub.offers s) :
    feed.InSync s₀ (sc.deliver patches cause sub).offers (s.update patches.entries) := by
  rw [Scene.deliver, Subscription.offers_sendDelta]
  split
  · exact Feed.inSync_update h (post_deltaLetter ..) rfl
  · rw [List.append_cons]
    exact Feed.inSync_lost rfl

/-- A hand-over ends with a snapshot. -/
theorem inSync_handOver (sc prev : Scene) :
    feed.InSync s₀ (sc.handOver prev sub).offers sc.store.state := inSync_sendOrDrop_snapshot sc

end Sending

end Lumencast
