import Lumencast.Resume.Serial
import Lumencast.Server.KitTasks

/-!
# Server/Refines — the coroutines of the kit refine its steps

`Server.step` runs one call of the kit to its end before the next begins.  The coroutines do not
have to: they take up to three locks, two scenes' among them, and await one another.  But a scene's
method, once it has begun, goes to its end without letting go of control (`keeps_task`), so it is
one stretch of code to whoever awaits it (`kitRuns_await`); so is every method of the kit
(`kitRuns_op`), and the calls of all tasks run one after another, as steps of `Server`.
-/

namespace Lumencast

open Machinery Server

/-! ## A scene's method goes to its end

A lock that is free is taken at once, and a method awaits nothing but locks and other methods.
So once it has control it keeps it, and `Machinery/Coroutine` turns what it does into one step. -/

section Keeps

variable {next : Coroutine}

/-- A method of a scene neither lets go of control nor touches the history of calls. -/
abbrev KeepsCalls (p : Coroutine) : Prop := p.Keeps Shared.calls

theorem keeps_snapshot {next : Dict PyStr Json → Coroutine} (h : ∀ state, KeepsCalls (next state)) :
    KeepsCalls (Store.snapshotTask next) :=
  Prog.keeps_acquire (Prog.keeps_step (fun _ => rfl) fun _ => Prog.keeps_release (h _))

theorem keeps_apply {w : Write} {patches : Dict PyStr Json} {raised : Coroutine}
    {next : List (PyStr × Json) → Coroutine} (hraised : KeepsCalls raised)
    (h : ∀ applied, KeepsCalls (next applied)) :
    KeepsCalls (Store.applyTask w patches raised next) := by
  rw [Store.applyTask]
  split
  · exact hraised
  · exact Prog.keeps_acquire (Prog.keeps_step (fun _ => rfl) fun _ => Prog.keeps_release (h _))

theorem keeps_sendOrDrop {r : SubRef} {msg : Shared → Letter} (h : KeepsCalls next) :
    KeepsCalls (Scene.sendOrDropTask r msg next) := Prog.keeps_step (fun _ => rfl) fun _ => h

theorem keeps_sendDelta {seq : ℤ} {wire : List Patch} {cause : Option Cause} {r : SubRef}
    (h : KeepsCalls next) : KeepsCalls (Scene.sendDeltaTask seq wire cause r next) := by
  refine Prog.keeps_step (fun _ => rfl) fun s => ?_
  split
  · exact h
  · exact keeps_snapshot fun _ => keeps_sendOrDrop h

theorem keeps_refreshAll (h : KeepsCalls next) : KeepsCalls (Scene.refreshAllTask next) :=
  Prog.keeps_acquire (keeps_snapshot fun _ => Prog.keeps_step (fun _ => rfl) fun _ =>
    Prog.keeps_forEach (fun _ _ => keeps_sendOrDrop) (Prog.keeps_release h) _)

theorem keeps_emit {patches : Dict PyStr Json} {cause : Option Cause} (h : KeepsCalls next) :
    KeepsCalls (Scene.emitTask patches cause next) := by
  rw [Scene.emitTask]
  split
  · exact h
  · exact keeps_apply h fun _ => Prog.keeps_acquire (Prog.keeps_step (fun _ => rfl) fun _ =>
      Prog.keeps_forEach (fun _ _ => keeps_sendDelta) (Prog.keeps_release h) _)

theorem keeps_set {patches : Dict PyStr Json} (h : KeepsCalls next) :
    KeepsCalls (Scene.setTask patches next) := by
  rw [Scene.setTask]
  split
  · exact h
  · exact keeps_apply h fun _ => keeps_refreshAll h

theorem keeps_applyInput {identity : Identity} {patches : List Patch} {cause : Option Cause}
    (h : KeepsCalls next) : KeepsCalls (Scene.applyInputTask identity patches cause next) := by
  refine Prog.keeps_step (fun _ => rfl) fun s => ?_
  split
  · exact keeps_emit h
  · exact h

theorem keeps_clear (h : KeepsCalls next) : KeepsCalls (Store.resetTask next) :=
  Prog.keeps_acquire (Prog.keeps_step (fun _ => rfl) fun _ => Prog.keeps_release h)

theorem keeps_close {r : SubRef} (h : KeepsCalls next) :
    KeepsCalls (.step (fun s => Scene.onSub s r Subscription.close) fun _ => next) :=
  Prog.keeps_step (fun _ => rfl) fun _ => h

theorem keeps_reset (h : KeepsCalls next) : KeepsCalls (Scene.resetTask next) :=
  Prog.keeps_acquire (Prog.keeps_step (fun _ => rfl) fun _ => Prog.keeps_release
    (Prog.keeps_forEach (fun _ _ => keeps_close) (keeps_clear h) _))

theorem keeps_subscribe {live : Bool} (h : KeepsCalls next) :
    KeepsCalls (Scene.subscribeTask live next) :=
  Prog.keeps_step (fun _ => rfl) fun _ => Prog.keeps_acquire (Prog.keeps_step (fun _ => rfl) fun _ =>
    keeps_snapshot fun _ => Prog.keeps_release (Prog.keeps_step (fun _ => rfl) fun _ => h))

theorem keeps_subscribeWithResume {live : Bool} {since : Option ℤ} (h : KeepsCalls next) :
    KeepsCalls (Scene.subscribeWithResumeTask live since next) := by
  refine Prog.keeps_step (fun _ => rfl) fun _ => Prog.keeps_acquire <|
    Prog.keeps_step (fun _ => rfl) fun _ => keeps_snapshot fun _ =>
    Prog.keeps_step (fun _ => rfl) fun s => ?_
  dsimp only
  split
  · exact Prog.keeps_step (fun _ => rfl) fun _ => Prog.keeps_release h
  · exact Prog.keeps_release (Prog.keeps_step (fun _ => rfl) fun _ => h)

theorem keeps_unsubscribe {r : SubRef} (h : KeepsCalls next) :
    KeepsCalls (Scene.unsubscribeTask r next) := by
  refine Prog.keeps_step (fun _ => rfl) fun s => ?_
  split
  · exact Prog.keeps_acquire (Prog.keeps_step (fun _ => rfl) fun _ =>
      Prog.keeps_release (Prog.keeps_step (fun _ => rfl) fun _ => h))
  · exact h

/-- **A method that has begun goes to its end.** -/
theorem keeps_task (op : SceneOp) (h : KeepsCalls next) : KeepsCalls (op.task next) := by
  cases op with
  | setVersion version => exact Prog.keeps_step (fun _ => rfl) fun _ => h
  | declareInputs specs => exact Prog.keeps_step (fun _ => rfl) fun _ => h
  | set patches => exact keeps_set h
  | emit patches cause => exact keeps_emit h
  | applyInput identity patches cause => exact keeps_applyInput h
  | reset => exact keeps_reset h
  | subscribe live => exact keeps_subscribe h
  | subscribeWithResume live since => exact keeps_subscribeWithResume h
  | unsubscribe r => exact keeps_unsubscribe h

end Keeps

/-- A method alone with its scene, the history holding nothing but its call. -/
def Shared.calling (st : Scene × Subs) (op : SceneOp) : Shared where
  scene := st.1
  subs := st.2
  calls := [.call op]

theorem runs_calling (st : Scene × Subs) (op : SceneOp) :
    Runs st (op.task .done) ∅ (Shared.calling st op) := by
  have hstart : ({ scene := st.1, subs := st.2 } : Shared).Serial st := serial_start
  have hsettled : (Shared.calling st op).Settled st :=
    ⟨hstart.settled.overlay, hstart.settled.issued, hstart.settled.seq, hstart.settled.ring⟩
  exact runs_op op hsettled ⟨rfl, hstart.call (.call op)⟩

/-- **What a method comes to is the step.** -/
theorem finish_task (st : Scene × Subs) (op : SceneOp) :
    (((op.task .done).finish (Shared.calling st op)).scene,
      ((op.task .done).finish (Shared.calling st op)).subs) = Scene.step st op := by
  have hkeeps : KeepsCalls (op.task .done) := keeps_task op trivial
  have hserial := Prog.finish_of_sound _ ∅ _ (runs_calling st op) hkeeps
  rw [hserial.ran, Prog.finish_of_keeps _ (Shared.calling st op) hkeeps]
  rfl

/-! ## The methods of the kit, one after another

Between two methods the kit is what the calls so far have made of it.  That is the invariant, and
each rule below is for one way of awaiting. -/

section KitRuns

variable (k : Server)

/-- Between calls: the kit is what the calls made of it, one after another. -/
def KitShared.Serial (s : KitShared) : Prop := s.kit = run Server.step k s.calls

abbrev KitRuns : KitCoroutine → Set KitLock → KitShared → Prop :=
  Prog.Sound (KitShared.Serial k) fun _ => True

variable {k} {next : KitCoroutine} {H : Set KitLock} {s : KitShared}

/-- `next` goes on from the kit `k'`, whatever the last method noted. -/
def GoesOn (k : Server) (next : KitCoroutine) (H : Set KitLock) (s : KitShared) (k' : Server) :
    Prop :=
  ∀ noted, KitRuns k next H { s with kit := k', noted := noted }

/-- **A method of a scene, awaited.** -/
theorem kitRuns_await {c : SceneRef} {op : SceneOp} (hH : ∀ l, KitLock.scene c l ∉ H)
    (hnext : GoesOn k next H s (s.kit.onScene c (Scene.step · op))) :
    KitRuns k (awaitTask c op next) H s := by
  refine ⟨trivial, ?_⟩
  have hinj : Function.Injective (KitLock.scene c) := fun l l' h => by cases h; rfl
  have hlift := @Prog.sound_lift _ _ _ _ _ _ _ (KitShared.Serial k) (KitShared.scenePart c) _
    hinj next H hH Shared.calls (op.task .done) ∅ { s with noted := ([.call op], [], []) }
    (runs_calling (s.kit.objects.get c, s.kit.subs) op) (keeps_task op trivial)
  rw [Set.image_empty, Set.empty_union] at hlift
  refine hlift ?_
  let sh := (op.task .done).finish (Shared.calling (s.kit.objects.get c, s.kit.subs) op)
  have hput := hnext (sh.calls, sh.reached, sh.issued)
  have hkit : s.kit.onScene c (Scene.step · op) = s.kit.onScene c fun _ => (sh.scene, sh.subs) :=
    Server.onScene_congr (finish_task (s.kit.objects.get c, s.kit.subs) op).symm
  rw [hkit] at hput
  exact hput

/-- The same method of one scene after another, awaited. -/
theorem kitRuns_awaitEach {op : SceneOp} (hH : ∀ c l, KitLock.scene c l ∉ H) :
    ∀ (cs : List SceneRef) (s : KitShared),
      GoesOn k next H s (cs.foldl (fun k c => k.onScene c (Scene.step · op)) s.kit) →
      KitRuns k (awaitEach op next cs) H s
  | [], s, hnext => hnext s.noted
  | c :: cs, s, hnext =>
      kitRuns_await (hH c) fun noted => kitRuns_awaitEach hH cs
        { s with kit := s.kit.onScene c (Scene.step · op), noted := noted } hnext

/-! ## A switch

A migration is written as a loop over subscribers with a method of another scene in its body.  It
has to be shown to be the one step that `Scene.migrateSubscribersFrom` takes. -/

theorem foldl_onKit {α : Type} (f : Server → α → Server) : ∀ (as : List α) (s : KitShared),
    as.foldl (fun s a => s.onKit (f · a)) s = { s with kit := as.foldl f s.kit }
  | [], _ => rfl
  | a :: as, s => foldl_onKit f as (s.onKit (f · a))

theorem onScene_onScene (k : Server) (c : SceneRef) (m m' : Scene × Subs → Scene × Subs) :
    (k.onScene c m).onScene c m' = k.onScene c fun st => m' (m st) := by
  rw [onScene, onScene, onScene, Heap.get_modify_self]
  dsimp only
  congr 1
  exact Heap.ext (Function.update_idem ..) rfl

theorem foldl_onScene {α : Type} (c : SceneRef) (m : α → Scene × Subs → Scene × Subs) :
    ∀ (as : List α) (k : Server), as.foldl (fun k a => k.onScene c (m a)) k
      = k.onScene c fun st => as.foldl (fun st a => m a st) st
  | [], k => (onScene_of_unchanged rfl).symm
  | a :: as, k => by
      rw [List.foldl_cons, foldl_onScene c m as, onScene_onScene]
      rfl

/-- What taking one subscriber over does, as a method of the scene that does it. -/
def takeOver (prevSeq : ℤ) (prev : SceneRef) (state : Dict PyStr Json) (curSeq : ℤ) (r : SubRef)
    (st : Scene × Subs) : Scene × Subs :=
  ({ st.1 with subscribers := insert r st.1.subscribers },
    (st.2.modify r (Subscription.sendOrDrop · ⟨.sceneChanged
      { sceneId := .str st.1.id, sceneVersion := .str st.1.version, seq := prevSeq },
      prev, st.1.store.state⟩)).modify r
        (Subscription.sendOrDrop · (st.1.snapshotWith state curSeq)))

theorem kitRuns_takeOver {c prev r : SceneRef} {prevSeq curSeq : ℤ} {state : Dict PyStr Json}
    (hnext : KitRuns k next H
      (s.onKit fun k => k.onScene c (takeOver prevSeq prev state curSeq r))) :
    KitRuns k (takeOverTask c prevSeq prev state curSeq r next) H s := by
  refine ⟨trivial, trivial, trivial, ?_⟩
  dsimp only [KitShared.onKit]
  rw [onScene_onScene, onScene_onScene]
  exact hnext

theorem takeOver_eq (sc prev : Scene) (X : Finset SubRef) (subs : Subs) (r : SubRef) :
    takeOver (prev.currentSeq + 1) prev.ref sc.store.state sc.currentSeq r
        ({ sc with subscribers := X }, subs)
      = ({ sc with subscribers := insert r X }, subs.modify r (sc.handOver prev)) :=
  Prod.ext rfl (Heap.modify_modify subs r (Subscription.sendOrDrop · (sc.changedLetter prev))
    (Subscription.sendOrDrop · sc.snapshotLetter))

/-- All of them taken over. -/
theorem foldl_takeOver (sc prev : Scene) : ∀ (rs : List SubRef) (X : Finset SubRef) (subs : Subs),
    rs.foldl (fun st r =>
        takeOver (prev.currentSeq + 1) prev.ref sc.store.state sc.currentSeq r st)
        ({ sc with subscribers := X }, subs)
      = ({ sc with subscribers := X ∪ rs.toFinset },
        rs.foldl (fun subs r => subs.modify r (sc.handOver prev)) subs)
  | [], X, subs => by rw [List.toFinset_nil, Finset.union_empty]; rfl
  | r :: rs, X, subs => by
      rw [List.foldl_cons, takeOver_eq, foldl_takeOver sc prev rs, List.foldl_cons,
        List.toFinset_cons, Finset.insert_union, Finset.union_insert]

/-- Once `prev` has given up its live subscribers and drawn a number, the other scene and all that
is read of `prev` are as they were. -/
theorem get_draw_giveUp {k : Server} {prev c : SceneRef} (hne : prev ≠ c) :
    ((k.giveUp prev).draw prev).objects.get c = k.objects.get c := by
  rw [draw, get_onScene, if_neg hne.symm, giveUp, get_onScene, if_neg hne.symm]

theorem get_giveUp (k : Server) (prev : SceneRef) :
    (k.giveUp prev).objects.get prev = { k.objects.get prev with
      subscribers :=
        (k.objects.get prev).subscribers \ (k.objects.get prev).liveSubscribers k.subs } := by
  rw [giveUp, get_onScene, if_pos rfl]

theorem ref_draw_giveUp (k : Server) (prev : SceneRef) :
    (((k.giveUp prev).draw prev).objects.get prev).ref = (k.objects.get prev).ref := by
  rw [draw, get_onScene, if_pos rfl, get_giveUp]

/-- A migration in the order in which it happens. -/
theorem migrate_eq {k : Server} {prev c : SceneRef} (hne : prev ≠ c)
    (hlive : (k.objects.get prev).liveSubscribers k.subs ≠ ∅) :
    k.migrate prev c = (((k.objects.get prev).liveSubscribers k.subs).sort (· ≤ ·)).foldl
      (fun k' r => k'.onScene c (takeOver ((k.objects.get prev).currentSeq + 1)
        (k.objects.get prev).ref (k.objects.get c).store.state (k.objects.get c).currentSeq r))
      ((k.giveUp prev).draw prev) := by
  have hfold := foldl_takeOver (k.objects.get c) (k.objects.get prev)
    (((k.objects.get prev).liveSubscribers k.subs).sort (· ≤ ·)) (k.objects.get c).subscribers
    k.subs
  rw [Finset.sort_toFinset, Heap.foldl_modify _ _ _ (Finset.sort_nodup ..),
    Finset.sort_toFinset] at hfold
  rw [foldl_onScene, onScene, get_draw_giveUp hne, draw, giveUp, onScene_onScene, onScene]
  dsimp only
  rw [hfold, migrate, Scene.migrate_of_ne_empty hlive]
  dsimp only
  congr 1
  exact Heap.ext (Function.update_comm hne.symm ..) rfl

/-- With nobody live there is nothing to give up, and no number is drawn. -/
theorem migrate_of_none_live {k : Server} {prev c : SceneRef}
    (hlive : (k.objects.get prev).liveSubscribers k.subs = ∅) :
    k.giveUp prev = k ∧ k.migrate prev c = k := by
  constructor
  · refine onScene_of_unchanged ?_
    dsimp only
    rw [hlive, Finset.sdiff_empty]
  · rw [migrate, Scene.migrate_of_empty hlive]
    dsimp only
    rw [Heap.modify_get, Heap.modify_get]

theorem kitRuns_snapshot {c : SceneRef} {next : Dict PyStr Json → KitCoroutine}
    (hH : KitLock.scene c .store ∉ H)
    (hnext : KitRuns k (next (s.kit.objects.get c).store.state) H s) :
    KitRuns k (snapshotTask c next) H s :=
  ⟨trivial, hH, trivial, Prog.sound_release trivial hH hnext⟩

/-- **A switch comes to one migration.** -/
theorem kitRuns_migrate {prev c : SceneRef} (hne : prev ≠ c)
    (hnext : KitRuns k next ∅ (s.onKit fun k => k.migrate prev c)) :
    KitRuns k (migrateTask prev c next) ∅ s := by
  have hprev : KitLock.scene prev .scene ∉ (∅ : Set KitLock) := Set.notMem_empty _
  have hscene : KitLock.scene c .scene ∉ (∅ : Set KitLock) := Set.notMem_empty _
  have hstore : KitLock.scene c .store ∉ insert (KitLock.scene c .scene) (∅ : Set KitLock) := by
    simp
  refine ⟨trivial, hprev, trivial, Prog.sound_release trivial hprev ?_⟩
  by_cases hlive : (s.kit.objects.get prev).liveSubscribers s.kit.subs = ∅
  · obtain ⟨hgiveUp, hmigrate⟩ := @migrate_of_none_live s.kit prev c hlive
    rw [if_pos hlive]
    dsimp only [KitShared.onKit] at hnext ⊢
    rw [hmigrate] at hnext
    rw [hgiveUp]
    exact hnext
  · rw [if_neg hlive]
    refine ⟨trivial, trivial, hscene, kitRuns_snapshot hstore ⟨trivial, ?_⟩⟩
    dsimp only [KitShared.onKit] at hnext ⊢
    rw [get_draw_giveUp hne, ref_draw_giveUp, get_giveUp]
    refine Prog.sound_forEach (I := fun _ => True) (g := fun s' r => s'.onKit fun k =>
      k.onScene c (takeOver ((s.kit.objects.get prev).currentSeq + 1) (s.kit.objects.get prev).ref
        (s.kit.objects.get c).store.state (s.kit.objects.get c).currentSeq r))
      (fun _ _ _ => trivial) (fun p s' r _ hp => kitRuns_takeOver hp) _ _ trivial
      (Prog.sound_release trivial hscene ?_)
    rw [foldl_onKit, ← migrate_eq hne hlive]
    exact hnext

/-! ## Every method -/

theorem GoesOn.goesOn {k' : Server} (h : GoesOn k next H s k') :
    KitRuns k next H { s with kit := k' } := h s.noted

/-- A switch, its guards in the order they are checked. -/
theorem step_setActive_eq (k : Server) (id : PyStr) : k.step (.setActive id) =
    match k.scenes.get? id with
    | none => k
    | some c =>
        if k.active = id then k
        else
          match k.activeScene with
          | none => { k with active := id }
          | some prev =>
              if prev = c then { k with active := id } else { k with active := id }.migrate prev c := by
  rw [step, setActive]
  rcases hid : k.scenes.get? id with _ | c <;> dsimp only
  · rfl
  · by_cases hact : k.active = id
    · rw [if_pos hact, if_pos hact]
      rfl
    · rw [if_neg hact, if_neg hact, swap, if_neg hact, hid]
      rcases k.activeScene with _ | prev <;> dsimp only
      · rfl
      · by_cases hne : prev = c
        · rw [if_pos hne, if_pos hne]
          rfl
        · rw [if_neg hne, if_neg hne]
          rfl

theorem kitRuns_setActive {id : PyStr} (hnext : GoesOn k next ∅ s (s.kit.step (.setActive id))) :
    KitRuns k (setActiveTask id next) ∅ s := by
  refine ⟨trivial, ?_⟩
  rw [step_setActive_eq] at hnext
  dsimp only
  rcases hid : s.kit.scenes.get? id with _ | c <;> rw [hid] at hnext <;> dsimp only at hnext ⊢
  · exact hnext.goesOn
  · by_cases hact : s.kit.active = id
    · rw [if_pos hact] at hnext ⊢
      exact hnext.goesOn
    · rw [if_neg hact] at hnext ⊢
      refine ⟨trivial, ?_⟩
      dsimp only
      rcases hprev : s.kit.activeScene with _ | prev <;> rw [hprev] at hnext <;>
        dsimp only at hnext ⊢
      · exact hnext.goesOn
      · by_cases hne : prev = c
        · rw [if_pos hne] at hnext ⊢
          exact hnext.goesOn
        · rw [if_neg hne] at hnext ⊢
          exact kitRuns_migrate hne hnext.goesOn

theorem kitRuns_reset (hnext : GoesOn k next ∅ s s.kit.reset) :
    KitRuns k (Server.resetTask next) ∅ s :=
  ⟨trivial, Set.notMem_empty _, trivial, Prog.sound_release trivial (Set.notMem_empty _)
    (kitRuns_awaitEach (fun _ _ => Set.notMem_empty _) _ _ hnext)⟩

theorem foldl_unsubscribe {r : SubRef} : ∀ (cs : List SceneRef) (k : Server), r < k.subs.next →
    cs.foldl (fun k c => k.onScene c (Scene.step · (.unsubscribe r))) k
      = cs.foldl (fun k c => k.onScene c fun st => st.1.unsubscribe st.2 r) k
  | [], _, _ => rfl
  | c :: cs, k, hr => by
      rw [List.foldl_cons, List.foldl_cons, onScene_unsubscribe c hr]
      exact foldl_unsubscribe cs _ hr

theorem kitRuns_detach {r : SubRef} (hnext : GoesOn k next ∅ s (s.kit.step (.detach r))) :
    KitRuns k (detachTask r next) ∅ s := by
  refine ⟨trivial, ?_⟩
  rw [step] at hnext
  dsimp only
  split
  · rename_i hr
    rw [if_pos hr, detach, ← foldl_unsubscribe _ _ hr] at hnext
    exact kitRuns_awaitEach (fun _ _ => Set.notMem_empty _) _ _ hnext
  · rename_i hr
    rw [if_neg hr] at hnext
    exact hnext.goesOn

theorem kitRuns_replaced (hnext : GoesOn k next ∅ s s.kit.runTask) :
    KitRuns k (replacedTask next) ∅ s := by
  refine ⟨trivial, ?_⟩
  rw [runTask] at hnext
  dsimp only
  rcases htasks : s.kit.tasks with _ | ⟨c, rest⟩ <;> rw [htasks] at hnext <;> dsimp only at hnext ⊢
  · exact hnext.goesOn
  · exact ⟨trivial, kitRuns_await (fun _ => Set.notMem_empty _) hnext⟩

/-- **A call comes to one step.** -/
theorem kitRuns_op (op : Op) (hs : s.Serial k)
    (hnext : ∀ s', s'.Serial k → KitRuns k next ∅ s') : KitRuns k (op.task next) ∅ s := by
  have hgoesOn : GoesOn k next ∅ { s with calls := s.calls ++ [op] } (s.kit.step op) :=
    fun noted => hnext _ (by rw [KitShared.Serial, run_concat, ← hs])
  refine ⟨trivial, ?_⟩
  cases op with
  | newScene id version operatorInputs loopRunning => exact ⟨trivial, hgoesOn.goesOn⟩
  | setActive id => exact kitRuns_setActive hgoesOn
  | scene c op =>
      refine ⟨trivial, ?_⟩
      rw [step] at hgoesOn
      dsimp only
      split
      · rename_i hc
        rw [if_pos hc] at hgoesOn
        exact kitRuns_await (fun _ => Set.notMem_empty _) hgoesOn
      · rename_i hc
        rw [if_neg hc] at hgoesOn
        exact hgoesOn.goesOn
  | detach r => exact kitRuns_detach hgoesOn
  | reset => exact kitRuns_reset hgoesOn
  | runTask => exact kitRuns_replaced hgoesOn
  | dequeue r => exact ⟨trivial, hgoesOn.goesOn⟩

/-- **Every task runs its calls one after another.** -/
theorem sound_kitTaskOf : ∀ (ops : List Op) (s : KitShared), s.Serial k →
    KitRuns k (kitTaskOf ops) ∅ s
  | [], _, hs => ⟨rfl, hs⟩
  | op :: ops, _, hs => kitRuns_op op hs fun _ hs' => ⟨rfl, hs', sound_kitTaskOf ops⟩

end KitRuns

/-- **The kit is atomic.**  Any number of tasks, each making any calls, given control in any order:
a lock is only ever held by the task that has control, no task ever waits for one, and whenever no
task has control the kit is what `Server.step` makes of the calls, in the order they began. -/
theorem coroutines_refine (k : Server) (turns : List (Turn (List Op))) :
    let m := run (EventLoop.step kitTaskOf) ({ state := { kit := k } }) turns
    (∀ l t, m.holder l = some t → m.running = some t) ∧
      (∀ t l next, m.running = some t → m.tasks.get t = .acquire l next → m.holder l = none) ∧
      (m.running = none → m.state.kit = run Server.step k m.state.calls) := by
  have hinv := EventLoop.inv_run (R := KitShared.Serial k) (Q := fun _ => True) sound_kitTaskOf
    (s := { kit := k }) rfl turns
  exact ⟨hinv.holder, fun t l next ht hp => hinv.free_of_acquire ht hp, hinv.idle⟩

end Lumencast
