import Lumencast.Fanout.Feed

/-!
# Fanout/BackPressure — what follows a frame that was refused

A full queue refuses a delta, then the snapshot that was to replace it, and all that is left is the
`stale` flag, which nothing reads: the next emission that finds room is put in the queue as if
nothing were missing.  An observer keeps the set of subscribers that are `owing` a snapshot, judged
by the fill of their queues alone, and `recovering_iff` says that a run recovers from its losses
exactly when no emission reaches one of them.
-/

namespace Lumencast

open Machinery

/-- A snapshot is full: it carries all that the store of its sender held. -/
def Letter.Full (l : Letter) : Prop := ∀ f, l.frame = .snapshot f → f.state = l.content

theorem full_snapshotLetter (sc : Scene) : sc.snapshotLetter.Full := fun f hf => by
  cases hf
  rfl

theorem full_deltaLetter (sc : Scene) (wire : List Patch) (cause : Option Cause) :
    (sc.deltaLetter wire cause).Full := fun f hf => by cases hf

theorem full_changedLetter (sc prev : Scene) : (sc.changedLetter prev).Full :=
  fun f hf => by cases hf

namespace Subscription

/-- Between a refused frame and a delta put in the queue after it, a snapshot was put in the queue
that carries the full state of the scene that sent it. -/
def Recovering (sub : Subscription) : Prop :=
  ∀ a x b y c, sub.offers = a ++ x :: (b ++ y :: c) → x.taken = false → y.taken = true →
    (∃ d, y.letter.frame = .delta d) →
    ∃ z ∈ b, z.taken = true ∧ ∃ f, z.letter.frame = .snapshot f ∧ f.state = z.letter.content

/-- No snapshot was ever partial. -/
def Faithful (sub : Subscription) : Prop := ∀ o ∈ sub.offers, o.letter.Full

theorem Faithful.sendOrDrop {sub : Subscription} (h : sub.Faithful) {msg : Letter}
    (hmsg : msg.Full) : (sub.sendOrDrop msg).Faithful := by
  intro o ho
  rw [offers_sendOrDrop, List.mem_append, List.mem_singleton] at ho
  rcases ho with ho | rfl
  · exact h o ho
  · exact hmsg

theorem Faithful.sendDelta {sub : Subscription} (h : sub.Faithful) {delta snap : Letter}
    (hdelta : delta.Full) (hsnap : snap.Full) : (sub.sendDelta delta snap).Faithful := by
  intro o ho
  rw [offers_sendDelta, List.mem_append] at ho
  rcases ho with ho | ho
  · exact h o ho
  · split at ho
    · obtain rfl := List.mem_singleton.mp ho
      exact hdelta
    · rcases List.mem_pair.mp ho with rfl | rfl
      · exact hdelta
      · exact hsnap

/-- **Recovery, as the feed has it.** -/
theorem recovering_iff_feed {sub : Subscription} (h : sub.Faithful) :
    sub.Recovering ↔ feed.Recovers sub.offers := by
  have hdelta : ∀ o : Offer, (∃ d, o.letter.frame = .delta d) ↔ ∃ u, feed.post o = .update u := by
    intro o
    change _ ↔ ∃ u, o.letter.frame.post = .update u
    rcases o.letter.frame <;> simp [Frame.post]
  have hfull : ∀ o : Offer, (∃ f, o.letter.frame = .snapshot f) ↔ ∃ s, feed.post o = .full s := by
    intro o
    change _ ↔ ∃ s, o.letter.frame.post = .full s
    rcases o.letter.frame <;> simp [Frame.post]
  constructor
  · intro hr a x b y c heq hx hy hu
    obtain ⟨z, hz, hzt, f, hf, -⟩ := hr a x b y c heq hx hy ((hdelta y).mpr hu)
    exact ⟨z, hz, hzt, (hfull z).mp ⟨f, hf⟩⟩
  · intro hr a x b y c heq hx hy hd
    obtain ⟨z, hz, hzt, hs⟩ := hr a x b y c heq hx hy ((hdelta y).mp hd)
    obtain ⟨f, hf⟩ := (hfull z).mpr hs
    have hmem : z ∈ sub.offers := by
      rw [heq]
      simp [hz]
    exact ⟨z, hz, hzt, f, hf, h z hmem f hf⟩

/-! ## What each way of sending leaves owing

A feed is owing from the first frame that is refused to the next snapshot that is taken.  Whether
a frame is taken depends on the fill of the queue, so the debt can be told before the step. -/

/-- Two free slots. -/
def HasRoomForTwo (sub : Subscription) : Prop :=
  sub.queue.items.length + 1 < sub.queue.maxsize

instance (sub : Subscription) : Decidable sub.HasRoomForTwo :=
  inferInstanceAs (Decidable (_ < _))

/-- A snapshot settles what was owing, if there is room for it. -/
theorem owed_sendOrDrop_snapshot (sub : Subscription) (sc : Scene) :
    feed.owed (sub.sendOrDrop sc.snapshotLetter).offers = !decide sub.HasRoom := by
  rw [offers_sendOrDrop, Feed.owed_concat, Feed.owedAfter]
  by_cases h : sub.HasRoom
  · rw [decide_eq_true h]
    rfl
  · rw [decide_eq_false h]
    rfl

/-- An emission settles nothing, and is owing itself if there is no room for it. -/
theorem owed_deliver (sub : Subscription) (sc : Scene) (patches : Dict PyStr Json)
    (cause : Option Cause) : feed.owed (sc.deliver patches cause sub).offers
      = (feed.owed sub.offers || !decide sub.HasRoom) := by
  rw [Scene.deliver, offers_sendDelta]
  by_cases h : sub.HasRoom
  · rw [if_pos h, Feed.owed_concat, decide_eq_true h, Bool.not_true, Bool.or_false]
    rfl
  · rw [if_neg h, List.append_cons, Feed.owed_concat, decide_eq_false h, Bool.not_false,
      Bool.or_true]
    rfl

/-- A hand-over settles what was owing, if there is room for both its frames. -/
theorem owed_handOver (sub : Subscription) (sc prev : Scene) :
    feed.owed (sc.handOver prev sub).offers = !decide sub.HasRoomForTwo := by
  have hiff : (sub.sendOrDrop (sc.changedLetter prev)).HasRoom ↔ sub.HasRoomForTwo :=
    hasRoom_sendOrDrop sub (sc.changedLetter prev)
  rw [Scene.handOver, owed_sendOrDrop_snapshot, decide_eq_decide.mpr hiff]

/-- Anything but a delta keeps a recovering feed recovering. -/
theorem recovers_sendOrDrop {sub : Subscription} (h : feed.Recovers sub.offers) {msg : Letter}
    (hmsg : ∀ u, msg.frame.post ≠ .update u) : feed.Recovers (sub.sendOrDrop msg).offers := by
  rw [offers_sendOrDrop, Feed.recovers_concat]
  exact ⟨h, fun _ hu => absurd hu.choose_spec (hmsg _)⟩

/-- **A delta keeps it recovering unless it finds room while something is owing.** -/
theorem recovers_deliver_iff {sub : Subscription} (h : feed.Recovers sub.offers) (sc : Scene)
    (patches : Dict PyStr Json) (cause : Option Cause) :
    feed.Recovers (sc.deliver patches cause sub).offers ↔
      (sub.HasRoom → feed.owed sub.offers = false) := by
  rw [Scene.deliver, offers_sendDelta]
  by_cases hroom : sub.HasRoom
  · rw [if_pos hroom, Feed.recovers_concat]
    exact ⟨fun hr _ => hr.2 rfl ⟨_, post_deltaLetter ..⟩, fun hr => ⟨h, fun _ _ => hr hroom⟩⟩
  · rw [if_neg hroom, List.append_cons, Feed.recovers_concat, Feed.recovers_concat]
    exact ⟨fun _ hr => absurd hr hroom, fun _ => ⟨⟨h, by rintro ⟨⟩⟩, by rintro ⟨⟩⟩⟩

end Subscription

namespace Server

/-- Every subscriber recovers from its losses. -/
def AllRecovering (k : Server) : Prop := ∀ r, (k.subs.get r).Recovering

/-- Who is owing a snapshot after an act: those it reaches and finds no room at, until a seeding or
a move finds room for all it sends. -/
def owing (k : Server) (owed : Finset SubRef) : Act → Finset SubRef
  | .post c _ _ =>
      owed ∪ (k.objects.get c).subscribers.filter fun r => ¬ (k.subs.get r).HasRoom
  | .seed c _ => (owed \ (k.objects.get c).subscribers) ∪
      (k.objects.get c).subscribers.filter fun r => ¬ (k.subs.get r).HasRoom
  | .move prev _ => (owed \ (k.objects.get prev).liveSubscribers k.subs) ∪
      ((k.objects.get prev).liveSubscribers k.subs).filter fun r => ¬ (k.subs.get r).HasRoomForTwo
  | _ => owed

/-- An emission finds room at nobody who is owing a snapshot. -/
def FindsNobodyOwing (k : Server) (owed : Finset SubRef) (a : Act) : Prop :=
  ∀ c patches cause, a = .post c patches cause → ∀ r, k.Owns c r → (k.subs.get r).HasRoom →
    r ∉ owed

/-- The observer is right about every subscriber. -/
structure Owed (k : Server) (owed : Finset SubRef) : Prop where
  faithful : ∀ r, (k.subs.get r).Faithful
  mem_iff : ∀ r, r ∈ owed ↔ r < k.subs.next ∧ feed.owed (k.subs.get r).offers = true

section Step

variable {k k' : Server} {a : Act} {owed : Finset SubRef}

theorem Did.faithful (h : Did k a k') (hf : ∀ r, (k.subs.get r).Faithful) :
    ∀ r, (k'.subs.get r).Faithful := fun r =>
  h.keeps (hf r) (fun hsame hsub o ho => hsub o (hsame.offers ▸ ho))
    (fun _ _ _ ho => absurd ho List.not_mem_nil)
    (fun _ _ _ _ _ => (hf r).sendDelta (full_deltaLetter _ _ _) (full_snapshotLetter _))
    (fun _ _ hsub => hsub.sendOrDrop (full_snapshotLetter _))
    (fun _ _ _ _ => ((hf r).sendOrDrop (full_changedLetter _ _)).sendOrDrop (full_snapshotLetter _))

/-- **The observer follows every loss and every settlement.** -/
theorem Did.keepsOwed (h : Did k a k') (hwf : k.Wf) (ho : Owed k owed) :
    Owed k' (k.owing owed a) := by
  refine ⟨h.faithful ho.faithful, fun r => ?_⟩
  have hr := ho.mem_iff r
  rcases h with h | ⟨live, opening, -, -⟩ | ⟨cause, -, -⟩ | ⟨-, -⟩ | ⟨active, -, -, -, hsome⟩
  · rw [(h.history r).offers, h.subs_next]
    exact hr
  · change r ∈ owed ↔ r < k.subs.next + 1 ∧ _
    by_cases hnew : r = k.subs.next
    · rw [hnew, sub_attach_next, ho.mem_iff]
      exact ⟨fun h => absurd h.1 (lt_irrefl _), fun h => by cases h.2⟩
    · rw [sub_attach_of_ne _ _ _ _ hnew, hr]
      exact and_congr_left fun _ => ⟨fun h => h.trans (Nat.lt_succ_self _),
        fun h => (Nat.lt_succ_iff_lt_or_eq.mp h).resolve_right hnew⟩
  · rename_i c patches
    change r ∈ owed ∪ _ ↔ r < k.subs.next ∧ _
    rw [sub_post, Finset.mem_union, Finset.mem_filter]
    by_cases hown : k.Owns c r
    · rw [if_pos hown, Subscription.owed_deliver, hr]
      have hlt := hwf.owned_lt c r hown
      simp [hlt, show r ∈ (k.objects.get c).subscribers from hown]
    · rw [if_neg hown, hr]
      simp [show r ∉ (k.objects.get c).subscribers from hown]
  · rename_i c patches
    change r ∈ (owed \ _) ∪ _ ↔ r < k.subs.next ∧ _
    rw [sub_seed, Finset.mem_union, Finset.mem_sdiff, Finset.mem_filter]
    by_cases hown : k.Owns c r
    · rw [if_pos hown, Subscription.owed_sendOrDrop_snapshot]
      have hlt := hwf.owned_lt c r hown
      simp [hlt, show r ∈ (k.objects.get c).subscribers from hown]
    · rw [if_neg hown, hr]
      simp [show r ∉ (k.objects.get c).subscribers from hown]
  · rename_i prev next
    change r ∈ (owed \ _) ∪ _ ↔ _
    rw [sub_move active hsome, subs_next_move active hsome, Finset.mem_union, Finset.mem_sdiff,
      Finset.mem_filter, mem_liveSubscribers]
    by_cases hmoves : k.Moves prev r
    · rw [if_pos hmoves, Subscription.owed_handOver]
      have hlt := hwf.owned_lt prev r hmoves.1
      simp [hlt, hmoves]
    · rw [if_neg hmoves, hr]
      simp [hmoves]

/-- **One step, judged before it is taken.** -/
theorem Did.recovering_step (h : Did k a k') (hwf : k.Wf) (ho : Owed k owed)
    (hrec : k.AllRecovering) : k'.AllRecovering ↔ FindsNobodyOwing k owed a := by
  have hfeed : ∀ r, feed.Recovers (k.subs.get r).offers := fun r =>
    (Subscription.recovering_iff_feed (ho.faithful r)).mp (hrec r)
  have hgoal : k'.AllRecovering ↔ ∀ r, feed.Recovers (k'.subs.get r).offers :=
    forall_congr' fun r => Subscription.recovering_iff_feed (h.faithful ho.faithful r)
  rw [hgoal]
  constructor
  · rintro hk' c patches cause rfl r hown hroom hmem
    have hr := hk' r
    cases h with
    | post _ _ _ =>
      rw [sub_post, if_pos hown, Subscription.recovers_deliver_iff (hfeed r),
        ((ho.mem_iff r).mp hmem).2] at hr
      cases hr hroom
  · intro hnobody r
    refine @Did.keeps k k' a (fun sub => feed.Recovers sub.offers) r h (hfeed r)
      (fun hsame hsub => ?_) (fun _ _ => Feed.recovers_nil) (fun c patches cause heq hown => ?_)
      (fun sc sub hsub => ?_) (fun prev next _ _ => ?_)
    · rw [hsame.offers]
      exact hsub
    · rw [Subscription.recovers_deliver_iff (hfeed r)]
      intro hroom
      have hnot := hnobody c patches cause heq r hown hroom
      by_contra howed
      exact hnot ((ho.mem_iff r).mpr ⟨hwf.owned_lt c r hown, by simpa using howed⟩)
    · exact Subscription.recovers_sendOrDrop hsub fun u h => by cases h
    · have hmark : ∀ u, ((k.objects.get next).changedLetter (k.objects.get prev)).frame.post
          ≠ .update u := fun u h => by cases h
      have hchanged := Subscription.recovers_sendOrDrop (hfeed r) hmark
      exact Subscription.recovers_sendOrDrop hchanged fun u h => by cases h

end Step

/-- **When a run recovers from all its losses**: exactly when no emission finds room in the queue of
a subscriber that is owing a snapshot. -/
theorem recovering_iff (ops : List Op) : Always step AllRecovering {} ops ↔
    Steps (watch owing) (fun w op => FindsNobodyOwing w.1 w.2 (w.1.act op)) ({}, ∅) ops := by
  have hI : Owed {} ∅ :=
    ⟨fun _ o ho => absurd ho List.not_mem_nil,
      fun r => ⟨fun h => absurd h (Finset.notMem_empty r), fun h => by cases h.2⟩⟩
  have hP : ({} : Server).AllRecovering := fun r =>
    (Subscription.recovering_iff_feed (hI.faithful r)).mpr Feed.recovers_nil
  exact always_iff_watch owing hI hP (fun h hwf ho => h.keepsOwed hwf ho)
    (fun h hwf ho hrec => h.recovering_step hwf ho hrec) ops

/-- A client is attached to a scene. -/
def attachedRun : List Op := [.newScene "a" "v1" [] true, .scene 0 (.subscribe true)]

/-- It reads nothing while the scene emits `256` times. -/
def fullRun : List Op :=
  attachedRun ++ List.replicate 256 (.scene 0 (.emit (.ofList [("x", .int 1)]) none))

/-- One more emission, one frame read, and another emission. -/
def emitReadEmit : List Op :=
  [.scene 0 (.emit (.ofList [("x", .int 1)]) none), .dequeue 0,
    .scene 0 (.emit (.ofList [("y", .int 2)]) none)]

theorem filled_fullRun : Filled (after attachedRun) (after fullRun) 0 0 256 := by
  have hlen : ((after attachedRun).subs.get 0).queue.items.length = 0 := rfl
  have hmax : ((after attachedRun).subs.get 0).queue.maxsize = 256 := rfl
  have hrun : after fullRun = run step (after attachedRun)
      (List.replicate 256 (.scene 0 (.emit (.ofList [("x", .int 1)]) none))) := run_append ..
  rw [hrun]
  exact filled_emits none rfl 256 (after attachedRun) (by decide) (by decide) (by omega)

/-- The second emission is put in the queue though the first was refused. -/
theorem not_recovering_of_full {k : Server} (hc : 0 < k.objects.next) (ho : k.Owns 0 0)
    (hlen : (k.subs.get 0).queue.items ≠ []) (hfull : ¬ (k.subs.get 0).HasRoom) :
    ¬ (run step k emitReadEmit).AllRecovering := by
  set k₁ := k.post 0 (.ofList [("x", .int 1)]) none with hk₁
  have hstep₁ : k.step (.scene 0 (.emit (.ofList [("x", .int 1)]) none)) = k₁ :=
    step_emit none hc rfl
  have hoffers₁ : ∃ delta snap, (k₁.subs.get 0).offers
      = (k.subs.get 0).offers ++ [⟨delta, false⟩, ⟨snap, false⟩] := by
    rw [hk₁, sub_post, if_pos ho, Scene.deliver, Subscription.offers_sendDelta, if_neg hfull]
    exact ⟨_, _, rfl⟩
  have hitems₁ : (k₁.subs.get 0).queue.items ≠ [] := by
    rw [hk₁, sub_post, if_pos ho, Scene.deliver, Subscription.queue_sendDelta, if_neg hfull]
    exact hlen
  set k₂ := k₁.dequeue 0 with hk₂
  have ho₂ : k₂.Owns 0 0 := by
    rw [Owns, hk₂, objects_dequeue]
    exact (owns_post ..).mpr ho
  have hc₂ : 0 < k₂.objects.next := by
    rw [hk₂, objects_dequeue]
    exact hc
  have hroom₂ : (k₂.subs.get 0).HasRoom := hasRoom_dequeue hitems₁
  have hrun : run step k emitReadEmit = k₂.post 0 (.ofList [("y", .int 2)]) none := by
    rw [emitReadEmit, run_cons, hstep₁, run_cons, run_cons, run_nil]
    exact step_emit none hc₂ rfl
  obtain ⟨delta, snap, hoffers₁⟩ := hoffers₁
  intro h
  have hrec := h 0
  rw [hrun, sub_post, if_pos ho₂, Scene.deliver] at hrec
  have hsplit : ∃ delta' : Letter, (∃ d, delta'.frame = .delta d) ∧
      (((k₂.objects.get 0).emitted (.ofList [("y", .int 2)]) none).deliver
        (.ofList [("y", .int 2)]) none (k₂.subs.get 0)).offers
      = (k.subs.get 0).offers ++ ⟨delta, false⟩ :: ([⟨snap, false⟩] ++ ⟨delta', true⟩ :: []) := by
    rw [Scene.deliver, Subscription.offers_sendDelta, if_pos hroom₂,
      ((quiet_dequeue k₁ 0).history 0).offers, hoffers₁, List.append_assoc]
    exact ⟨_, ⟨_, rfl⟩, rfl⟩
  obtain ⟨delta', hd, hsplit⟩ := hsplit
  obtain ⟨z, hz, hzt, -⟩ := hrec _ _ _ _ _ hsplit rfl rfl hd
  rw [List.mem_singleton.mp hz] at hzt
  cases hzt

theorem not_recovering_of_filled {k : Server} (hwf : k.Wf)
    (h : Filled (after attachedRun) k 0 0 256) : ¬ (run step k emitReadEmit).AllRecovering := by
  have hlen : (k.subs.get 0).queue.items.length = 256 := h.length
  refine not_recovering_of_full h.next_lt h.owns (fun hnil => ?_) fun hroom => ?_
  · rw [hnil] at hlen
    cases hlen
  · rw [Subscription.HasRoom, BoundedQueue.HasRoom, hlen, hwf.maxsize_eq] at hroom
    exact absurd hroom (lt_irrefl _)

/-- **A delta after a loss**: the last emission reaches a client that was never told of the one
before, and no snapshot comes between. -/
theorem fullRun_not_recovering : ¬ (after (fullRun ++ emitReadEmit)).AllRecovering := by
  rw [after, run_append]
  exact not_recovering_of_filled (wf_after fullRun) filled_fullRun

end Server

end Lumencast
