import Lumencast.Server.Acts

/-!
# Server/Queues — what a step leaves of a queue

Apart from its own writer, which takes items out of it, an open queue is only ever changed by what
its subscription is handed (`handed`): a subscription that something else happens to is closed by
it.
-/

namespace Lumencast

open Machinery

namespace Subscription

/-- Left as it was, or closed. -/
def KeptOpen (sub sub' : Subscription) : Prop := sub' = sub ∨ sub'.closed = true

/-- Left as it was, or closed just now. -/
def Spared (sub sub' : Subscription) : Prop := sub' = sub ∨ sub' = sub.close

theorem closed_close (sub : Subscription) : sub.close.closed = true := by
  rw [close]
  split
  · rename_i h
    exact h
  · rfl

/-- Closing twice is closing once. -/
theorem close_close (sub : Subscription) : sub.close.close = sub.close := by
  rw [close, if_pos (closed_close sub)]

theorem Spared.trans {a b c : Subscription} (h : Spared a b) (h' : Spared b c) : Spared a c := by
  rcases h with rfl | rfl
  · exact h'
  · rcases h' with rfl | rfl
    · exact Or.inr rfl
    · exact Or.inr (close_close a)

/-- What is still to be written was there before. -/
theorem mem_queue_close {sub : Subscription} {letter : Letter}
    (h : some letter ∈ sub.close.queue.items) : some letter ∈ sub.queue.items := by
  rw [close] at h
  split at h
  · exact h
  change some letter ∈ (pushSentinel sub.queue).items at h
  have hput : ∀ {q q' : BoundedQueue (Option Letter)}, q.putNowait none = some q' →
      some letter ∈ q'.items → some letter ∈ q.items := fun hq hmem => by
    rw [BoundedQueue.items_of_putNowait hq] at hmem
    simpa using hmem
  rw [pushSentinel] at h
  split at h
  · rename_i q hq
    exact hput hq h
  · split at h
    · exact h
    · rename_i item q hget
      rw [(BoundedQueue.items_of_getNowait hget).1]
      refine List.mem_cons_of_mem _ ?_
      rcases hq : q.putNowait none with _ | q'
      · rwa [hq] at h
      · rw [hq] at h
        exact hput hq h

/-- What a subscription that is not handed anything can still go through. -/
inductive Aftermath (k : Server) (op : Op) (r : SubRef) (sub : Subscription) : Subscription → Prop
  | spared {sub' : Subscription} (h : Spared sub sub') : Aftermath k op r sub sub'
  /-- Its writer takes an item. -/
  | read {item : Option Letter} {sub' : Subscription} (hop : op = .dequeue r)
      (hget : sub.dequeue = some (item, sub')) : Aftermath k op r sub sub'
  /-- It did not exist. -/
  | fresh (live : Bool) (opening : Opening) (hr : r = k.subs.next) :
      Aftermath k op r sub { live := live, opening := opening }

/-- The frames that wait in a queue. -/
def queued (sub : Subscription) : List Frame :=
  sub.queue.items.filterMap fun item => item.map (·.frame)

theorem queued_sendOrDrop (sub : Subscription) (msg : Letter) : (sub.sendOrDrop msg).queued
    = if sub.HasRoom then sub.queued ++ [msg.frame] else sub.queued := by
  rw [queued, queue_sendOrDrop]
  split
  · exact List.filterMap_append
  · rfl

theorem queued_sendDelta (sub : Subscription) (delta snap : Letter) :
    (sub.sendDelta delta snap).queued
      = if sub.HasRoom then sub.queued ++ [delta.frame] else sub.queued := by
  rw [queued, queue_sendDelta]
  split
  · exact List.filterMap_append
  · rfl

/-- The first item that waits is the next one out. -/
theorem dequeue_of_items {sub : Subscription} {item : Option Letter} {items : List (Option Letter)}
    (h : sub.queue.items = item :: items) :
    ∃ sub', sub.dequeue = some (item, sub') ∧ sub'.queue.items = items := by
  obtain ⟨item', q, hget, -⟩ := BoundedQueue.getNowait_of_ne_nil (q := sub.queue)
    (by rw [h]; exact List.cons_ne_nil item items)
  have hitems := (BoundedQueue.items_of_getNowait hget).1
  rw [h, List.cons.injEq] at hitems
  refine ⟨{ sub with queue := q }, ?_, hitems.2.symm⟩
  rw [dequeue, hget, hitems.1]
  rfl

theorem queued_of_dequeue {sub sub' : Subscription} {item : Option Letter}
    (h : sub.dequeue = some (item, sub')) :
    sub.queued = (item.map (·.frame)).toList ++ sub'.queued ∧ sub'.closed = sub.closed := by
  rw [dequeue] at h
  obtain ⟨⟨a, q⟩, hget, heq⟩ := Option.map_eq_some_iff.mp h
  cases heq
  refine ⟨?_, rfl⟩
  rw [queued, (BoundedQueue.items_of_getNowait hget).1, queued]
  rcases a with _ | letter
  · rfl
  · rfl

end Subscription

namespace Server

open Subscription (Aftermath KeptOpen Spared)

/-- What an act hands a subscription. -/
def handed (k : Server) (r : SubRef) : Act → Subscription
  | .post c patches cause =>
      if k.Owns c r then ((k.objects.get c).emitted patches cause).deliver patches cause (k.subs.get r)
      else k.subs.get r
  | .seed c patches =>
      if k.Owns c r then
        (k.subs.get r).sendOrDrop ((k.objects.get c).seeded patches).snapshotLetter
      else k.subs.get r
  | .move prev next =>
      if k.Moves prev r then (k.objects.get next).handOver (k.objects.get prev) (k.subs.get r)
      else k.subs.get r
  | _ => k.subs.get r

variable {k : Server} {r : SubRef}

/-- A loop that leaves a subscription as it was or closes it. -/
theorem spared_foldl {α : Type} {f : Server → α → Server}
    (hf : ∀ k a, Spared (k.subs.get r) ((f k a).subs.get r)) : ∀ (as : List α) (k : Server),
      Spared (k.subs.get r) ((as.foldl f k).subs.get r)
  | [], _ => Or.inl rfl
  | a :: as, k => (hf k a).trans (spared_foldl hf as (f k a))

theorem spared_unsubscribe (k : Server) (c : SceneRef) (r' : SubRef) :
    Spared (k.subs.get r) ((k.onScene c fun st => st.1.unsubscribe st.2 r').subs.get r) := by
  change Spared _ ((k.subs.modify r' Subscription.close).get r)
  rw [Heap.get_modify]
  split
  · rename_i hr
    rw [hr]
    exact Or.inr rfl
  · exact Or.inl rfl

theorem spared_reset (k : Server) (c : SceneRef) :
    Spared (k.subs.get r) ((k.onScene c fun st => st.1.reset st.2).subs.get r) := by
  change Spared _ ((k.subs.modifyAll _ Subscription.close).get r)
  rw [Heap.get_modifyAll]
  split
  · exact Or.inr rfl
  · exact Or.inl rfl

theorem aftermath_same {op : Op} (sub : Subscription) : Aftermath k op r sub sub :=
  .spared (Or.inl rfl)

theorem aftermath_alloc (op : Op) (live : Bool) (opening : Opening) :
    Aftermath k op r (k.subs.get r)
      ((k.subs.alloc { live := live, opening := opening }).get r) := by
  by_cases hr : r = k.subs.next
  · rw [hr, Heap.get_alloc_next]
    exact .fresh live opening rfl
  · rw [Heap.get_alloc_of_ne _ _ hr]
    exact aftermath_same _

/-- A call on a scene. -/
theorem aftermath_scene (k : Server) (r : SubRef) (c : SceneRef) (op : SceneOp) :
    Aftermath k (.scene c op) r (k.handed r ((k.objects.get c).act c op))
      ((k.onScene c (Scene.step · op)).subs.get r) := by
  have hunchanged : ∀ {m : Scene × Subs → Scene × Subs},
      m (k.objects.get c, k.subs) = (k.objects.get c, k.subs) →
        Aftermath k (.scene c op) r (k.subs.get r) ((k.onScene c m).subs.get r) :=
    fun h => by rw [onScene_of_unchanged h]; exact aftermath_same _
  rcases op with version | specs | patches | ⟨patches, cause⟩ | ⟨identity, ps, cause⟩ | _ | live |
    ⟨live, since⟩ | r'
  · exact aftermath_same _
  · exact aftermath_same _
  · rw [Scene.act]
    split
    · rename_i hp
      exact hunchanged ((Scene.step_set ..).trans (if_pos hp))
    · rename_i hp
      rw [subs_onScene, Scene.step_set, if_neg hp]
      exact aftermath_same _
  · rw [Scene.act]
    split
    · rename_i hp
      exact hunchanged ((Scene.step_emit ..).trans (if_pos hp))
    · rename_i hp
      rw [subs_onScene, Scene.step_emit, if_neg hp]
      exact aftermath_same _
  · rw [Scene.act]
    split
    · rename_i hv
      rw [subs_onScene, Scene.step_applyInput_of_ok cause hv]
      exact aftermath_same _
    · rename_i hv
      exact hunchanged (Scene.step_applyInput_of_ne cause hv)
  · exact .spared (spared_reset k c)
  · exact aftermath_alloc ..
  · exact aftermath_alloc ..
  · by_cases hr' : r' < k.subs.next
    · rw [onScene_unsubscribe c hr']
      exact .spared (spared_unsubscribe k c r')
    · rw [onScene_unsubscribe_of_not c hr']
      exact aftermath_same _

/-- **What a step does to a subscription** besides handing it something. -/
theorem aftermath_step (k : Server) (r : SubRef) (op : Op) :
    Aftermath k op r (k.handed r (k.act op)) ((k.step op).subs.get r) := by
  rcases op with ⟨id, version, operatorInputs, loopRunning⟩ | id | ⟨c, op⟩ | r' | _ | _ | r'
  · exact aftermath_same _
  · rcases step_setActive k id with ⟨prev, next, hswap, hstep⟩ | ⟨hswap, active, hstep⟩
    · rw [hstep]
      simp only [act, hswap]
      split
      · rename_i hlive
        change Aftermath k _ r _ ((k.move id prev next).subs.get r)
        rw [move, migrate, Scene.migrate_of_empty hlive]
        exact aftermath_same _
      · rename_i hlive
        exact .spared (Or.inl (sub_move id hlive r))
    · rw [hstep]
      simp only [act, hswap]
      exact aftermath_same _
  · rw [act, step]
    split
    · exact aftermath_scene k r c op
    · exact aftermath_same _
  · change Aftermath k _ r (k.subs.get r) _
    rw [step]
    split
    · exact .spared (spared_foldl (fun k c => spared_unsubscribe k c r') k.scenes.values k)
    · exact aftermath_same _
  · exact .spared (spared_foldl (fun k c => spared_reset k c) k.scenes.values
      { k with scenes := .empty, active := "" })
  · change Aftermath k _ r (k.subs.get r) _
    rw [step, runTask]
    rcases k.tasks with _ | ⟨c, rest⟩
    · exact aftermath_same _
    · exact .spared (spared_reset { k with tasks := rest } c)
  · change Aftermath k _ r (k.subs.get r) ((k.dequeue r').subs.get r)
    rw [dequeue]
    rcases hget : (k.subs.get r').dequeue with _ | ⟨item, sub⟩
    · exact aftermath_same _
    · change Aftermath k _ r _ ((k.subs.modify r' fun _ => sub).get r)
      by_cases hr : r = r'
      · subst hr
        rw [Heap.get_modify_self]
        exact .read rfl hget
      · rw [Heap.get_modify_of_ne _ _ hr]
        exact aftermath_same _

/-- **What a step leaves of a subscription**: what it is handed, unless it is closed, or its own
queue is read. -/
theorem keptOpen_step (hr : r < k.subs.next) {op : Op} (hop : op ≠ .dequeue r) :
    KeptOpen (k.handed r (k.act op)) ((k.step op).subs.get r) := by
  have hafter := aftermath_step k r op
  generalize (k.step op).subs.get r = sub at hafter ⊢
  rcases hafter with (h | h) | ⟨hread, -⟩ | ⟨-, -, hfresh⟩
  · exact Or.inl h
  · rw [h]
    exact Or.inr (Subscription.closed_close _)
  · exact absurd hread hop
  · exact absurd hfresh hr.ne

/-- **What waits in a queue after a step** waited in it before, or was handed to it. -/
theorem mem_queue_step {op : Op} {letter : Letter}
    (h : some letter ∈ ((k.step op).subs.get r).queue.items) :
    some letter ∈ (k.handed r (k.act op)).queue.items := by
  have hafter := aftermath_step k r op
  generalize (k.step op).subs.get r = sub at hafter h
  rcases hafter with (hsame | hclosed) | ⟨-, hget⟩ | ⟨live, opening, -⟩
  · rwa [hsame] at h
  · rw [hclosed] at h
    exact Subscription.mem_queue_close h
  · obtain ⟨⟨a, q⟩, hq, heq⟩ := Option.map_eq_some_iff.mp hget
    rw [(BoundedQueue.items_of_getNowait hq).1]
    refine List.mem_cons_of_mem _ ?_
    cases heq
    exact h
  · exact absurd h List.not_mem_nil

theorem sub_step (hr : r < k.subs.next) {op : Op} (hop : op ≠ .dequeue r)
    (hopen : ((k.step op).subs.get r).closed = false) :
    (k.step op).subs.get r = k.handed r (k.act op) := by
  rcases keptOpen_step hr hop with h | h
  · exact h
  · rw [hopen] at h
    cases h

/-- The numbers an act draws from the counter of `c`. -/
def drawn (c : SceneRef) : Act → ℤ
  | .post c' _ _ => if c' = c then 1 else 0
  | .move prev _ => if prev = c then 1 else 0
  | _ => 0

theorem currentSeq_step {c : SceneRef} (hc : c < k.objects.next) (op : Op) :
    ((k.step op).objects.get c).currentSeq = (k.objects.get c).currentSeq + drawn c (k.act op) := by
  have hdid := did k op
  generalize k.act op = a at hdid ⊢
  generalize k.step op = k' at hdid ⊢
  rcases hdid with h | ⟨live, opening, -, -⟩ | @⟨c', patches, cause, -, -⟩ | ⟨-, -⟩ |
    @⟨prev, next, active, -, -, hne, hsome⟩
  · rw [Scene.currentSeq, h.seq c hc]
    exact (Int.add_zero _).symm
  · rw [Scene.currentSeq, seq_attach]
    exact (Int.add_zero _).symm
  · rw [scene_post, drawn]
    by_cases hcc : c = c'
    · rw [if_pos hcc, if_pos hcc.symm, hcc]
      rfl
    · rw [if_neg hcc, if_neg (Ne.symm hcc), Int.add_zero]
  · rw [Scene.currentSeq, seq_seed]
    exact (Int.add_zero _).symm
  · rw [drawn]
    by_cases hp : c = prev
    · rw [hp, if_pos rfl, scene_move_prev active hsome]
      rfl
    · rw [Scene.currentSeq, seq_move_of_ne active hsome hne hp, if_neg (Ne.symm hp), Int.add_zero]
      rfl

end Server

end Lumencast
