import Lumencast.Machinery.Graft
import Lumencast.Server.Retired
import Lumencast.Server.WsHandler

/-!
# Server/Graft — a kit and what is left of the one before it

After a reset nothing of a kit is registered any more, but its scenes are still there for whoever
holds them.  What is built then comes behind what is left: the kit is an old one and a new one side
by side (`Server.graft`), where the new one has its references relocated.  A method called on one
side is a method of that side.
-/

namespace Lumencast

open Machinery

/-! ## References, relocated

The addresses of the new kit start where the old one's end.  Relocating adds the offset to every
reference, and commutes with whatever does not follow one. -/

/-- Where the addresses of a kit begin. -/
structure Base where
  objects : ℕ
  subs : ℕ

def Letter.relocate (b : Base) (letter : Letter) : Letter :=
  { letter with issuer := b.objects + letter.issuer }

def Subscription.relocate (b : Base) (sub : Subscription) : Subscription :=
  { sub with
    queue := sub.queue.map (Option.map (Letter.relocate b))
    offers := sub.offers.map fun o => ⟨o.letter.relocate b, o.taken⟩ }

def Scene.relocate (b : Base) (sc : Scene) : Scene :=
  { sc with
    ref := b.objects + sc.ref
    subscribers := sc.subscribers.map (behindAddr b.subs) }

namespace Subscription

variable (b : Base) (sub : Subscription) (msg : Letter)

theorem putNowait_relocate :
    (sub.relocate b).putNowait (msg.relocate b) = (sub.putNowait msg).map (relocate b) := by
  have hput : (sub.relocate b).queue.putNowait (some (msg.relocate b))
      = (sub.queue.putNowait (some msg)).map (BoundedQueue.map (Option.map (Letter.relocate b))) :=
    BoundedQueue.putNowait_map (Option.map (Letter.relocate b)) sub.queue (some msg)
  rw [putNowait, putNowait, hput]
  rcases sub.queue.putNowait (some msg) with _ | q
  · rfl
  · simp [relocate]

theorem miss_relocate : (sub.relocate b).miss (msg.relocate b) = (sub.miss msg).relocate b := by
  simp [miss, relocate]

theorem sendOrDrop_relocate :
    (sub.relocate b).sendOrDrop (msg.relocate b) = (sub.sendOrDrop msg).relocate b := by
  rw [sendOrDrop, sendOrDrop, putNowait_relocate, miss_relocate]
  rcases sub.putNowait msg with _ | sub'
  · rfl
  · rfl

theorem sendDelta_relocate (snap : Letter) :
    (sub.relocate b).sendDelta (msg.relocate b) (snap.relocate b)
      = (sub.sendDelta msg snap).relocate b := by
  rw [sendDelta, sendDelta, putNowait_relocate, miss_relocate, sendOrDrop_relocate]
  rcases sub.putNowait msg with _ | sub'
  · rfl
  · rfl

theorem pushSentinel_map (f : Letter → Letter) (q : BoundedQueue (Option Letter)) :
    pushSentinel (q.map (Option.map f)) = (pushSentinel q).map (Option.map f) := by
  have hput (q : BoundedQueue (Option Letter)) : (q.map (Option.map f)).putNowait none
      = (q.putNowait none).map (BoundedQueue.map (Option.map f)) :=
    BoundedQueue.putNowait_map (Option.map f) q none
  rw [pushSentinel, pushSentinel, hput, BoundedQueue.getNowait_map]
  rcases q.putNowait none with _ | q'
  · rcases q.getNowait with _ | ⟨a, q'⟩
    · rfl
    · simp only [Option.map_none, Option.map_some, hput]
      rcases q'.putNowait none with _ | q''
      · rfl
      · rfl
  · rfl

theorem close_relocate : (sub.relocate b).close = sub.close.relocate b := by
  have hclosed : (sub.relocate b).closed = sub.closed := rfl
  rw [close, close, hclosed]
  split
  · rfl
  · simp only [relocate, pushSentinel_map]

theorem dequeue_relocate : (sub.relocate b).dequeue
    = sub.dequeue.map fun a => (a.1.map (Letter.relocate b), a.2.relocate b) := by
  rw [dequeue, dequeue]
  have hget : (sub.relocate b).queue.getNowait = sub.queue.getNowait.map fun r =>
      (r.1.map (Letter.relocate b), r.2.map (Option.map (Letter.relocate b))) :=
    BoundedQueue.getNowait_map (Option.map (Letter.relocate b)) sub.queue
  rw [hget, Option.map_map, Option.map_map]
  rfl

end Subscription

/-! ## Two kits side by side

Nothing of the old kit is registered, but its scenes and subscriptions are still there for
whoever holds them.  `Contained` says that no reference leads from the new side to the old. -/

namespace Server

variable (old k : Server)

/-- Where what comes behind a kit begins. -/
def base : Base := ⟨old.objects.next, old.subs.next⟩

/-- Subscriptions behind those of `old`. -/
def behind (subs : Subs) : Subs := .graft (Subscription.relocate old.base) old.subs subs

/-- A scene and the subscriptions, behind `old`. -/
def relocated (st : Scene × Subs) : Scene × Subs := (st.1.relocate old.base, old.behind st.2)

/-- The kit `k`, with what is left of `old` in front of it: nothing of `old` is registered. -/
def graft : Server where
  objects := .graft (Scene.relocate old.base) old.objects k.objects
  scenes := k.scenes.mapValues (old.objects.next + ·)
  active := k.active
  subs := old.behind k.subs
  tasks := old.tasks ++ k.tasks.map (old.objects.next + ·)

/-- What is kept of a kit points into it. -/
structure Contained : Prop where
  owned_lt : ∀ c r, k.Owns c r → r < k.subs.next
  tasks_lt : ∀ c ∈ k.tasks, c < k.objects.next

/-- `w` is `k` still, and what is left in front of it takes as much room as `old`. -/
def InFront (w : Server) : Prop :=
  ∃ old', w = graft old' k ∧ old'.base = old.base ∧ old'.tasks = old.tasks ∧ old'.Contained

theorem ext_fields {k k' : Server} (hobjects : k.objects = k'.objects)
    (hscenes : k.scenes = k'.scenes) (hactive : k.active = k'.active) (hsubs : k.subs = k'.subs)
    (htasks : k.tasks = k'.tasks) : k = k' := by
  obtain ⟨objects, scenes, active, subs, tasks⟩ := k
  cases hobjects
  cases hscenes
  cases hactive
  cases hsubs
  cases htasks
  rfl

/-- **A reset leaves a kit with nothing behind it.** -/
theorem graft_reset : old.reset = graft old.reset {} := by
  obtain ⟨hscenes, hactive⟩ := scenes_reset old
  refine ext_fields (Heap.graft_blank _).symm hscenes hactive (Heap.graft_blank _).symm ?_
  simp [graft]

end Server

namespace Scene

variable {old : Server} {sc : Scene} {subs : Subs}

theorem modifyAll_behind (hlt : ∀ r ∈ sc.subscribers, r < subs.next)
    (f f' : Subscription → Subscription)
    (h : ∀ sub, f' (sub.relocate old.base) = (f sub).relocate old.base) :
    (old.behind subs).modifyAll (sc.relocate old.base).subscribers f'
      = old.behind (subs.modifyAll sc.subscribers f) :=
  Heap.modifyAll_graft hlt h

theorem set_relocate (hlt : ∀ r ∈ sc.subscribers, r < subs.next) (patches : Dict PyStr Json) :
    (sc.relocate old.base).set (old.behind subs) patches
      = (sc.set subs patches).map old.relocated := by
  rcases hempty : patches.isEmpty with _ | _
  · rw [set_eq_ok _ _ hempty, set_eq_ok _ _ hempty]
    have hsubs := @modifyAll_behind old (sc.seeded patches) subs hlt
      (·.sendOrDrop (sc.seeded patches).snapshotLetter)
      (·.sendOrDrop ((sc.seeded patches).snapshotLetter.relocate old.base))
      fun sub => sub.sendOrDrop_relocate old.base _
    exact congrArg Except.ok (Prod.ext rfl hsubs)
  · rw [set_eq_error _ _ hempty, set_eq_error _ _ hempty]
    rfl

theorem emit_relocate (hlt : ∀ r ∈ sc.subscribers, r < subs.next) (patches : Dict PyStr Json)
    (cause : Option Cause) : (sc.relocate old.base).emit (old.behind subs) patches cause
      = (sc.emit subs patches cause).map old.relocated := by
  rcases hempty : patches.isEmpty with _ | _
  · rw [emit_eq_ok _ _ _ hempty, emit_eq_ok _ _ _ hempty]
    let delta := (sc.emitted patches cause).deltaLetter (wirePatches patches.entries) cause
    let snap := (sc.emitted patches cause).snapshotLetter
    have hsubs := @modifyAll_behind old sc subs hlt (·.sendDelta delta snap)
      (·.sendDelta (delta.relocate old.base) (snap.relocate old.base))
      fun sub => sub.sendDelta_relocate old.base delta snap
    exact congrArg Except.ok (Prod.ext rfl hsubs)
  · rw [emit_eq_error _ _ _ hempty, emit_eq_error _ _ _ hempty]
    rfl

theorem applyInput_relocate (hlt : ∀ r ∈ sc.subscribers, r < subs.next) (identity : Identity)
    (patches : List Patch) (cause : Option Cause) :
    (sc.relocate old.base).applyInput (old.behind subs) identity patches cause
      = (sc.applyInput subs identity patches cause).map fun a => (a.1, old.relocated a.2) := by
  have hverdict : ∀ ps, (sc.relocate old.base).checkPatches identity ps
      = sc.checkPatches identity ps := by
    intro ps
    induction ps with
    | nil => rfl
    | cons p ps ih =>
      rw [checkPatches, checkPatches, ih]
      rfl
  rw [applyInput, applyInput, verdict, verdict, hverdict, emit_relocate hlt]
  rcases (if patches.isEmpty then Except.ok (some Refusal.emptyPatches)
    else sc.checkPatches identity patches) with e | _ | refusal
  · rfl
  · dsimp only
    rcases sc.emit subs (asDict patches) cause with e | st
    · rfl
    · rfl
  · rfl

theorem reset_relocate (hlt : ∀ r ∈ sc.subscribers, r < subs.next) :
    (sc.relocate old.base).reset (old.behind subs) = old.relocated (sc.reset subs) :=
  Prod.ext rfl (modifyAll_behind hlt _ _ fun sub => sub.close_relocate old.base)

theorem unsubscribe_relocate {r : SubRef} (hr : r < subs.next) :
    (sc.relocate old.base).unsubscribe (old.behind subs) (old.subs.next + r)
      = old.relocated (sc.unsubscribe subs r) := by
  refine Prod.ext ?_ (Heap.modify_graft hr ((subs.get r).close_relocate old.base))
  simp only [unsubscribe, relocate, Server.relocated, Finset.map_erase]
  rfl

theorem subscribeWithResume_relocate (live : Bool) (since : Option ℤ) :
    (sc.relocate old.base).subscribeWithResume (old.behind subs) live since
      = (old.subs.next + subs.next, (sc.subscribeWithResume subs live since).2.1,
        old.relocated (sc.subscribeWithResume subs live since).2.2) := by
  have hanswer : (sc.relocate old.base).resumeAnswer since = sc.resumeAnswer since := rfl
  refine Prod.ext rfl (Prod.ext hanswer (Prod.ext ?_ ?_))
  · simp only [subscribeWithResume, relocate, Server.relocated, Finset.map_insert]
    rfl
  · exact @Heap.alloc_graft _ (Subscription.relocate old.base) old.subs subs
      { live := live, opening := openingOf (sc.resumeAnswer since) }

end Scene

namespace Server

variable {old k : Server}

/-! ## Calls on the kit behind

Each method of a server commutes with the graft.  Switches are the laborious case, since a
migration goes through the subscriptions of two scenes. -/

theorem scene_graft {c : SceneRef} (hc : c < k.objects.next) :
    (old.graft k).objects.get (old.objects.next + c) = (k.objects.get c).relocate old.base :=
  Heap.get_graft hc

/-- A method called on a scene of the kit behind. -/
theorem onScene_graft {c : SceneRef} (hc : c < k.objects.next)
    {m m' : Scene × Subs → Scene × Subs}
    (h : m' (old.relocated (k.objects.get c, k.subs))
      = old.relocated (m (k.objects.get c, k.subs))) :
    (old.graft k).onScene (old.objects.next + c) m' = old.graft (k.onScene c m) := by
  have hm : m' ((old.graft k).objects.get (old.objects.next + c), (old.graft k).subs)
      = old.relocated (m (k.objects.get c, k.subs)) := by
    rw [scene_graft hc]
    exact h
  have hobjects : (old.graft k).objects.modify (old.objects.next + c)
      (fun _ => (m (k.objects.get c, k.subs)).1.relocate old.base)
        = .graft (Scene.relocate old.base) old.objects
          (k.objects.modify c fun _ => (m (k.objects.get c, k.subs)).1) :=
    Heap.modify_graft hc rfl
  rw [onScene, onScene, hm]
  exact ext_fields hobjects rfl rfl rfl rfl

theorem activeScene_graft :
    (old.graft k).activeScene = k.activeScene.map (old.objects.next + ·) := by
  have hactive : (old.graft k).active = k.active := rfl
  rw [activeScene, activeScene, hactive]
  split
  · rfl
  · exact Dict.get?_mapValues ..

theorem newScene_graft (id version : PyStr) (specs : List InputSpec) (loopRunning : Bool) :
    (old.graft k).newScene id version specs loopRunning
      = old.graft (k.newScene id version specs loopRunning) := by
  have hobjects : (old.graft k).objects.alloc
      (Scene.new (old.graft k).objects.next id version specs)
        = .graft (Scene.relocate old.base) old.objects
          (k.objects.alloc (Scene.new k.objects.next id version specs)) := by
    rw [← Heap.alloc_graft]
    rfl
  have hget : (old.graft k).scenes.get? id = (k.scenes.get? id).map (old.objects.next + ·) :=
    Dict.get?_mapValues ..
  refine ext_fields hobjects
    (Dict.set_mapValues (old.objects.next + ·) k.scenes id k.objects.next) rfl rfl ?_
  change (old.tasks ++ k.tasks.map (old.objects.next + ·))
    ++ (if loopRunning then ((old.graft k).scenes.get? id).toList else []) = _
  rw [hget]
  simp only [graft, newScene, List.map_append, List.append_assoc]
  rcases loopRunning with _ | _
  · rfl
  · rcases k.scenes.get? id with _ | c
    · rfl
    · rfl

theorem liveSubscribers_graft {sc : Scene} (hlt : ∀ r ∈ sc.subscribers, r < k.subs.next) :
    (sc.relocate old.base).liveSubscribers (old.graft k).subs
      = (sc.liveSubscribers k.subs).map (behindAddr old.subs.next) := by
  rw [Scene.liveSubscribers, Scene.liveSubscribers, Scene.relocate, Finset.filter_map]
  refine congrArg (Finset.map _) (Finset.filter_congr fun r hr => ?_)
  have hget : (old.graft k).subs.get (old.subs.next + r)
      = (k.subs.get r).relocate old.base := Heap.get_graft (hlt r hr)
  change ((old.graft k).subs.get (old.subs.next + r)).live = true ↔ _
  rw [hget]
  rfl

theorem migrate_relocate {sc prev : Scene} (hlt : ∀ r ∈ prev.subscribers, r < k.subs.next) :
    (sc.relocate old.base).migrateSubscribersFrom (prev.relocate old.base) (old.graft k).subs
      = ((sc.migrateSubscribersFrom prev k.subs).1.relocate old.base,
        old.relocated (sc.migrateSubscribersFrom prev k.subs).2) := by
  have hnone : prev.liveSubscribers k.subs = ∅ ↔
      (prev.liveSubscribers k.subs).map (behindAddr old.subs.next) = ∅ :=
    Finset.map_eq_empty.symm
  rw [Scene.migrateSubscribersFrom, Scene.migrateSubscribersFrom, liveSubscribers_graft hlt]
  by_cases hlive : prev.liveSubscribers k.subs = ∅
  · rw [if_pos hlive, if_pos (hnone.mp hlive)]
    rfl
  · rw [if_neg hlive, if_neg (mt hnone.mpr hlive)]
    let changed : Letter := sc.changedLetter prev
    have hsubs : (old.behind k.subs).modifyAll
        ((prev.liveSubscribers k.subs).map (behindAddr old.subs.next))
        (fun sub => (sub.sendOrDrop (changed.relocate old.base)).sendOrDrop
          (sc.snapshotLetter.relocate old.base))
          = old.behind (k.subs.modifyAll (prev.liveSubscribers k.subs) fun sub =>
            (sub.sendOrDrop changed).sendOrDrop sc.snapshotLetter) := by
      refine Heap.modifyAll_graft (fun r hr => hlt r (Finset.mem_filter.mp hr).1) fun sub => ?_
      rw [Subscription.sendOrDrop_relocate, Subscription.sendOrDrop_relocate]
    refine Prod.ext ?_ (Prod.ext ?_ hsubs)
    · simp only [Scene.relocate, Finset.map_union]
      rfl
    · simp only [Scene.relocate, relocated, Finset.map_sdiff]
      rfl

/-- A switch between scenes of the kit behind. -/
theorem migrate_graft (hk : k.Contained) {prev next : SceneRef} (hprev : prev < k.objects.next)
    (hnext : next < k.objects.next) : (old.graft k).migrate (old.objects.next + prev)
      (old.objects.next + next) = old.graft (k.migrate prev next) := by
  let st := (k.objects.get next).migrateSubscribersFrom (k.objects.get prev) k.subs
  have hst : ((k.objects.get next).relocate old.base).migrateSubscribersFrom
      ((k.objects.get prev).relocate old.base) (old.graft k).subs
        = (st.1.relocate old.base, old.relocated st.2) := migrate_relocate (hk.owned_lt prev)
  have hone : (old.graft k).objects.modify (old.objects.next + next)
      (fun _ => st.1.relocate old.base)
        = .graft (Scene.relocate old.base) old.objects (k.objects.modify next fun _ => st.1) :=
    Heap.modify_graft hnext rfl
  have htwo := @Heap.modify_graft _ (Scene.relocate old.base) old.objects
    (k.objects.modify next fun _ => st.1) prev hprev (fun _ => st.2.1)
    (fun _ => st.2.1.relocate old.base) rfl
  rw [migrate, migrate, scene_graft hprev, scene_graft hnext, hst]
  refine ext_fields ?_ rfl rfl rfl rfl
  dsimp only [relocated]
  rw [hone]
  exact htwo

theorem setActive_graft (hk : k.Contained) (hreg : ∀ c, k.Registered c → c < k.objects.next)
    (id : PyStr) : (old.graft k).setActive id = (k.setActive id).map old.graft := by
  have hget (id : PyStr) : (old.graft k).scenes.get? id
      = (k.scenes.get? id).map (old.objects.next + ·) := Dict.get?_mapValues ..
  have hactive : (old.graft k).active = k.active := rfl
  have hswap : (old.graft k).swap id = (k.swap id).map fun s =>
      (old.objects.next + s.1, old.objects.next + s.2) := by
    rw [swap, swap, hactive, activeScene_graft, hget]
    split
    · rfl
    · rcases k.activeScene with _ | prev
      · rfl
      · rcases k.scenes.get? id with _ | next
        · rfl
        · simp only [Option.map_some, Nat.add_left_cancel_iff]
          split <;> rfl
  rw [setActive, setActive, hget, hactive, hswap]
  rcases k.scenes.get? id with _ | c
  · rfl
  · dsimp only [Option.map_some]
    by_cases hid : k.active = id
    · rw [if_pos hid, if_pos hid]
      rfl
    · rw [if_neg hid, if_neg hid]
      rcases hs : k.swap id with _ | ⟨prev, next⟩
      · rfl
      · obtain ⟨-, hprev, hnext, -⟩ := swap_eq_some hs
        have hk' : ({ k with active := id } : Server).Contained := ⟨hk.owned_lt, hk.tasks_lt⟩
        have hmigrate := @migrate_graft old { k with active := id } hk' prev next
          (hreg prev (registered_of_activeScene hprev)) (hreg next (registered_of_get? hnext))
        exact congrArg Except.ok hmigrate

/-- A method called on every scene that is registered. -/
theorem foldl_onScene_graft {m m' : Scene × Subs → Scene × Subs}
    {P : Server → Prop} (hP : ∀ k c, P k → c < k.objects.next → P (k.onScene c m))
    (h : ∀ k c, P k → c < k.objects.next →
      m' (old.relocated (k.objects.get c, k.subs)) = old.relocated (m (k.objects.get c, k.subs))) :
    ∀ (cs : List SceneRef) (k : Server), P k → (∀ c ∈ cs, c < k.objects.next) →
      (cs.map (old.objects.next + ·)).foldl (fun k c => k.onScene c m') (old.graft k)
        = old.graft (cs.foldl (fun k c => k.onScene c m) k)
  | [], _, _, _ => rfl
  | c :: cs, k, hk, hlt => by
      have hc := hlt c List.mem_cons_self
      rw [List.map_cons, List.foldl_cons, List.foldl_cons, onScene_graft hc (h k c hk hc)]
      exact foldl_onScene_graft hP h cs _ (hP k c hk hc) fun c' hc' =>
        hlt c' (List.mem_cons_of_mem _ hc')

/-- What is done to a scene, if nobody joins it. -/
theorem Contained.onScene {c : SceneRef} {m : Scene × Subs → Scene × Subs} (hk : k.Contained)
    (hsub : (m (k.objects.get c, k.subs)).1.subscribers ⊆ (k.objects.get c).subscribers)
    (hnext : (m (k.objects.get c, k.subs)).2.next = k.subs.next) : (k.onScene c m).Contained where
  owned_lt c' r ho := by
    rw [subs_onScene, hnext]
    rw [Owns, get_onScene] at ho
    split at ho
    · exact hk.owned_lt c r (hsub ho)
    · exact hk.owned_lt c' r ho
  tasks_lt := hk.tasks_lt

theorem reset_graft (hk : k.Contained) (hreg : ∀ c, k.Registered c → c < k.objects.next) :
    (old.graft k).reset = old.graft k.reset := by
  have hvalues : (old.graft k).scenes.values = k.scenes.values.map (old.objects.next + ·) :=
    Dict.values_mapValues ..
  rw [reset, reset, hvalues]
  refine @foldl_onScene_graft old _ _ Contained (fun k c hk _ => hk.onScene ?_ rfl)
    (fun k c hk _ => Scene.reset_relocate (hk.owned_lt c)) k.scenes.values
    { k with scenes := .empty, active := "" } ⟨hk.owned_lt, hk.tasks_lt⟩ hreg
  exact Finset.empty_subset _

theorem detach_graft (hreg : ∀ c, k.Registered c → c < k.objects.next) {r : SubRef}
    (hr : r < k.subs.next) : (old.graft k).detach (old.subs.next + r) = old.graft (k.detach r) := by
  have hvalues : (old.graft k).scenes.values = k.scenes.values.map (old.objects.next + ·) :=
    Dict.values_mapValues ..
  rw [detach, detach, hvalues]
  exact @foldl_onScene_graft old (fun st => st.1.unsubscribe st.2 r)
    (fun st => st.1.unsubscribe st.2 (old.subs.next + r)) (fun k => r < k.subs.next)
    (fun k c hr _ => hr) (fun k c hr _ => Scene.unsubscribe_relocate hr) k.scenes.values k hr hreg

theorem dequeue_graft {r : SubRef} (hr : r < k.subs.next) :
    (old.graft k).dequeue (old.subs.next + r) = old.graft (k.dequeue r) := by
  have hget : (old.graft k).subs.get (old.subs.next + r)
      = (k.subs.get r).relocate old.base := Heap.get_graft hr
  rw [dequeue, dequeue, hget, Subscription.dequeue_relocate]
  rcases (k.subs.get r).dequeue with _ | ⟨item, sub⟩
  · rfl
  · have hsubs := @Heap.modify_graft _ (Subscription.relocate old.base) old.subs k.subs r hr
      (fun _ => sub) (fun _ => sub.relocate old.base) rfl
    exact ext_fields rfl rfl rfl hsubs rfl

/-- The oldest scheduled reset, when it is one of the kit behind. -/
theorem runTask_graft (hk : k.Contained) (htasks : old.tasks = []) :
    (old.graft k).runTask = old.graft k.runTask := by
  have hall : (old.graft k).tasks = k.tasks.map (old.objects.next + ·) := by
    simp [graft, htasks]
  rw [runTask, runTask, hall]
  rcases hks : k.tasks with _ | ⟨c, rest⟩
  · rfl
  · have hrest : ({ old.graft k with tasks := rest.map (old.objects.next + ·) } : Server)
        = old.graft { k with tasks := rest } :=
      ext_fields rfl rfl rfl rfl (by simp [graft, htasks])
    simp only [List.map_cons]
    rw [hrest]
    exact @onScene_graft old { k with tasks := rest } c
      (hk.tasks_lt c (hks ▸ List.mem_cons_self)) (fun st => st.1.reset st.2)
      (fun st => st.1.reset st.2) (Scene.reset_relocate (hk.owned_lt c))

/-! ## Calls on what is left -/

theorem scene_graft_of_lt {c : SceneRef} (hc : c < old.objects.next) :
    (old.graft k).objects.get c = old.objects.get c := Heap.get_graft_of_lt hc

/-- A method called on a scene in front. -/
theorem inFront_onScene (hold : old.Contained) {c : SceneRef} (hc : c < old.objects.next)
    {m : Scene × Subs → Scene × Subs} {sc : Scene} {subs : Subs} (hnext : subs.next = old.subs.next)
    (hm : m (old.objects.get c, (old.graft k).subs)
      = (sc, .graft (Subscription.relocate old.base) subs k.subs))
    (hsub : sc.subscribers ⊆ (old.objects.get c).subscribers) :
    InFront old k ((old.graft k).onScene c m) := by
  let old' : Server := { old with objects := old.objects.modify c fun _ => sc, subs := subs }
  have hbase : old'.base = old.base := by
    rw [base, base, ← hnext]
    rfl
  have hobjects : (old.graft k).objects.modify c (fun _ => sc)
      = .graft (Scene.relocate old.base) (old.objects.modify c fun _ => sc) k.objects :=
    Heap.modify_graft_of_lt hc _
  refine ⟨old', ?_, hbase, rfl, ?_⟩
  · rw [onScene, scene_graft_of_lt hc, hm]
    refine ext_fields ?_ rfl rfl ?_ rfl
    · dsimp only
      rw [hobjects, ← hbase]
      rfl
    · dsimp only
      rw [← hbase]
      rfl
  · refine ⟨fun c' r ho => ?_, hold.tasks_lt⟩
    change r < subs.next
    rw [hnext]
    rw [Owns, Heap.get_modify] at ho
    split at ho
    · exact hold.owned_lt c r (hsub ho)
    · exact hold.owned_lt c' r ho

theorem inFront_unsubscribe (hold : old.Contained) {c : SceneRef} (hc : c < old.objects.next)
    {r : SubRef} (hr : r < old.subs.next) :
    InFront old k ((old.graft k).onScene c fun st => st.1.unsubscribe st.2 r) :=
  let st := (old.objects.get c).unsubscribe old.subs r
  @inFront_onScene old k hold c hc _ st.1 st.2 rfl
    (Prod.ext rfl (Heap.modify_graft_of_lt hr Subscription.close)) (Finset.erase_subset ..)

theorem inFront_reset (hold : old.Contained) {c : SceneRef} (hc : c < old.objects.next) :
    InFront old k ((old.graft k).onScene c fun st => st.1.reset st.2) :=
  let st := (old.objects.get c).reset old.subs
  @inFront_onScene old k hold c hc _ st.1 st.2 rfl
    (Prod.ext rfl (Heap.modifyAll_graft_of_lt (hold.owned_lt c) Subscription.close))
    (Finset.empty_subset _)

theorem inFront_applyInput (hold : old.Contained) {c : SceneRef} (hc : c < old.objects.next)
    (identity : Identity) (patches : List Patch) (cause : Option Cause) :
    InFront old k ((old.graft k).onScene c
      (Scene.step · (.applyInput identity patches cause))) := by
  let sc := old.objects.get c
  have hsame : InFront old k ((old.graft k).onScene c fun st => (sc, st.2)) :=
    inFront_onScene hold hc rfl rfl (Finset.Subset.refl _)
  have hstep (m : Scene × Subs → Scene × Subs)
      (h : Scene.step (sc, (old.graft k).subs) (.applyInput identity patches cause)
        = m (sc, (old.graft k).subs)) (hm : InFront old k ((old.graft k).onScene c m)) :
      InFront old k ((old.graft k).onScene c
        (Scene.step · (.applyInput identity patches cause))) := by
    rwa [onScene_congr (show _ = m _ by rw [scene_graft_of_lt hc]; exact h)]
  rcases hverdict : sc.verdict identity patches with e | _ | refusal
  · exact hstep _ (by simp only [Scene.step, Scene.applyInput, hverdict]; rfl) hsame
  · have hne := Scene.isEmpty_asDict_of_verdict hverdict
    let after := sc.emitted (Scene.asDict patches) cause
    refine hstep (fun st => (after, st.2.modifyAll sc.subscribers
      (after.deliver (Scene.asDict patches) cause))) ?_ ?_
    · simp only [Scene.step, Scene.applyInput, hverdict, Scene.emit_eq_ok _ _ cause hne]
      rfl
    · let deliver := after.deliver (Scene.asDict patches) cause
      have hsubs := @Heap.modifyAll_graft_of_lt _ (Subscription.relocate old.base) old.subs k.subs
        _ (hold.owned_lt c) deliver
      exact @inFront_onScene old k hold c hc _ after (old.subs.modifyAll sc.subscribers deliver) rfl
        (Prod.ext rfl hsubs) (Finset.Subset.refl _)
  · exact hstep _ (by simp only [Scene.step, Scene.applyInput, hverdict]; rfl) hsame

theorem inFront_dequeue (hold : old.Contained) {r : SubRef} (hr : r < old.subs.next) :
    InFront old k ((old.graft k).dequeue r) := by
  have hget : (old.graft k).subs.get r = old.subs.get r := Heap.get_graft_of_lt hr
  rw [dequeue, hget]
  rcases (old.subs.get r).dequeue with _ | ⟨item, sub⟩
  · exact ⟨old, rfl, rfl, rfl, hold⟩
  · have hsubs := @Heap.modify_graft_of_lt _ (Subscription.relocate old.base) old.subs k.subs r hr
      fun _ => sub
    exact ⟨{ old with subs := old.subs.modify r fun _ => sub }, ext_fields rfl rfl rfl hsubs rfl,
      rfl, rfl, hold.owned_lt, hold.tasks_lt⟩

/-- A subscription in front is in no scene behind: to be told so closes it, and no more. -/
theorem onScene_unsubscribe_graft {c : SceneRef} (hc : c < k.objects.next) {r : SubRef}
    (hr : r < old.subs.next) :
    (old.graft k).onScene (old.objects.next + c) (fun st => st.1.unsubscribe st.2 r)
      = graft { old with subs := old.subs.modify r Subscription.close } k := by
  have hsame : ((k.objects.get c).relocate old.base).subscribers.erase r
      = ((k.objects.get c).relocate old.base).subscribers := by
    refine Finset.erase_eq_of_notMem fun hmem => ?_
    obtain ⟨r', -, hr'⟩ := Finset.mem_map.mp hmem
    have hle : old.subs.next ≤ r := Nat.le.intro hr'
    exact absurd hr (Nat.not_lt.mpr hle)
  rw [onScene, scene_graft hc, Scene.unsubscribe, hsame, ← scene_graft hc]
  exact ext_fields (Heap.modify_get ..) rfl rfl (Heap.modify_graft_of_lt hr Subscription.close) rfl

/-- A detach of what is left goes through the scenes that are registered, and is in none. -/
theorem inFront_detach (hold : old.Contained) (hreg : ∀ c, k.Registered c → c < k.objects.next)
    {r : SubRef} (hr : r < old.subs.next) : InFront old k ((old.graft k).detach r) := by
  have hvalues : (old.graft k).scenes.values = k.scenes.values.map (old.objects.next + ·) :=
    Dict.values_mapValues ..
  have hloop : ∀ (cs : List SceneRef), (∀ c ∈ cs, c < k.objects.next) → ∀ old' : Server,
      old'.base = old.base → old'.tasks = old.tasks → old'.Contained →
      InFront old k ((cs.map (old.objects.next + ·)).foldl
        (fun k c => k.onScene c fun st => st.1.unsubscribe st.2 r) (old'.graft k)) := by
    intro cs
    induction cs with
    | nil => exact fun _ old' hbase htasks hold' => ⟨old', rfl, hbase, htasks, hold'⟩
    | cons c cs ih =>
      intro hlt old' hbase htasks hold'
      have hobjects : old'.objects.next = old.objects.next := congrArg Base.objects hbase
      have hsubs : old'.subs.next = old.subs.next := congrArg Base.subs hbase
      rw [List.map_cons, List.foldl_cons, ← hobjects,
        onScene_unsubscribe_graft (hlt c List.mem_cons_self) (hsubs ▸ hr), hobjects]
      exact ih (fun c' hc' => hlt c' (List.mem_cons_of_mem _ hc')) _ hbase htasks
        ⟨hold'.owned_lt, hold'.tasks_lt⟩
  rw [detach, hvalues]
  exact hloop k.scenes.values hreg old rfl rfl hold

/-- The oldest scheduled reset, when it is one of what is left. -/
theorem inFront_runTask (hold : old.Contained) {c : SceneRef} {rest : List SceneRef}
    (htasks : old.tasks = c :: rest) :
    InFront { old with tasks := rest } k (old.graft k).runTask := by
  have hall : (old.graft k).tasks = c :: (rest ++ k.tasks.map (old.objects.next + ·)) := by
    simp [graft, htasks]
  have hrest : ({ old.graft k with tasks := rest ++ k.tasks.map (old.objects.next + ·) } : Server)
      = graft { old with tasks := rest } k := rfl
  have hold' : ({ old with tasks := rest } : Server).Contained :=
    ⟨hold.owned_lt, fun c' hc' => hold.tasks_lt c' (htasks ▸ List.mem_cons_of_mem c hc')⟩
  simp only [runTask, hall]
  rw [hrest]
  exact inFront_reset hold' (hold.tasks_lt c (htasks ▸ List.mem_cons_self))

end Server

end Lumencast
