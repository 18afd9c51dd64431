import Lumencast.Machinery.Embed
import Lumencast.Server.Server
import Lumencast.Server.Tasks

/-!
# Server/KitTasks — the kit's methods as coroutines

The methods of `Server` again, as the coroutines they are: they await the methods of scenes, and a
switch of the active scene takes the locks of two scenes in turn.  A scene's method is the coroutine
it was (`SceneOp.task`), run on the part of the state it works on.
-/

namespace Lumencast

open Machinery

/-- The locks of a kit. -/
inductive KitLock where
  /-- A lock of a scene. -/
  | scene (c : SceneRef) (l : SceneLock)
  /-- `Server._lock`. -/
  | server
  deriving DecidableEq

/-- What the tasks share: the kit, and the history. -/
structure KitShared where
  kit : Server
  /-- The calls, in the order they began. -/
  calls : List Op := []
  /-- The history of the scene's method that is under way: its calls, its writes, its records. -/
  noted : List SceneCall × List Write × List ReplayRecord := ([], [], [])

/-- What is left of a task. -/
abbrev KitCoroutine := Prog KitLock KitShared

namespace KitShared

/-- Change the kit. -/
def onKit (s : KitShared) (f : Server → Server) : KitShared := { s with kit := f s.kit }

/-- The part of the state that a method of the scene `c` works on. -/
def scenePart (c : SceneRef) : Part KitShared Shared where
  get s :=
    { scene := s.kit.objects.get c, subs := s.kit.subs
      calls := s.noted.1, reached := s.noted.2.1, issued := s.noted.2.2 }
  put sh s :=
    { s with
      kit := s.kit.onScene c fun _ => (sh.scene, sh.subs)
      noted := (sh.calls, sh.reached, sh.issued) }
  get_put sh s := by
    dsimp only [Server.onScene]
    rw [Heap.get_modify_self]
  put_get s := by
    rw [Server.onScene_of_unchanged rfl]
  put_put sh sh' s := by
    dsimp only [Server.onScene]
    congr 2
    exact Heap.ext (Function.update_idem ..) rfl

end KitShared

namespace Server

open KitShared

/-- Await a method of the scene `c`. -/
def awaitTask (c : SceneRef) (op : SceneOp) (next : KitCoroutine) : KitCoroutine :=
  .step (fun s => { s with noted := ([.call op], [], []) }) fun _ =>
    (op.task .done).lift (scenePart c) (.scene c) next

/-- `Store.snapshot`, of the scene `c`. -/
def snapshotTask (c : SceneRef) (next : Dict PyStr Json → KitCoroutine) : KitCoroutine :=
  .acquire (.scene c .store) <|
  .step (fun s => s) fun s =>
  .release (.scene c .store) (next (s.kit.objects.get c).store.snapshot)

/-- Send the subscription `r` a letter of the scene `c`, or mark it. -/
def sendTask (c : SceneRef) (r : SubRef) (msg : Scene → Letter) (next : KitCoroutine) :
    KitCoroutine :=
  .step (fun s => s.onKit fun k => k.onScene c fun st =>
    (st.1, st.2.modify r (Subscription.sendOrDrop · (msg st.1)))) fun _ => next

/-- One live subscriber taken over by the scene `c`. -/
def takeOverTask (c : SceneRef) (prevSeq : ℤ) (prev : SceneRef) (state : Dict PyStr Json)
    (curSeq : ℤ) (r : SubRef) (next : KitCoroutine) : KitCoroutine :=
  sendTask c r (fun sc => ⟨.sceneChanged
    { sceneId := .str sc.id, sceneVersion := .str sc.version, seq := prevSeq },
    prev, sc.store.state⟩) <|
  sendTask c r (fun sc => sc.snapshotWith state curSeq) <|
  .step (fun s => s.onKit fun k => k.onScene c fun st =>
    ({ st.1 with subscribers := insert r st.1.subscribers }, st.2)) fun _ =>
  next

/-- The scene `prev` gives its live subscribers up. -/
def giveUp (k : Server) (prev : SceneRef) : Server :=
  k.onScene prev fun st =>
    ({ st.1 with subscribers := st.1.subscribers \ st.1.liveSubscribers st.2 }, st.2)

/-- The scene `prev` draws a number. -/
def draw (k : Server) (prev : SceneRef) : Server :=
  k.onScene prev fun st => ({ st.1 with seq := st.1.seq.nextServer.2 }, st.2)

/-- `migrate_subscribers_from`, of the scene `c`.  The last number of `prev` is
drawn when its lock has been given back. -/
def migrateTask (prev c : SceneRef) (next : KitCoroutine) : KitCoroutine :=
  .acquire (.scene prev .scene) <|
  .step (fun s => s.onKit (giveUp · prev)) fun s =>
  let live := (s.kit.objects.get prev).liveSubscribers s.kit.subs
  .release (.scene prev .scene) <|
  if live = ∅ then next
  else
    .step (fun s => s.onKit (draw · prev)) fun s =>
    let prevSeq := (s.kit.objects.get prev).seq.nextServer.1
    .acquire (.scene c .scene) <|
    snapshotTask c fun state =>
    .step (fun s => s) fun s =>
    let curSeq := (s.kit.objects.get c).currentSeq
    Prog.forEach (takeOverTask c prevSeq (s.kit.objects.get prev).ref state curSeq)
      (.release (.scene c .scene) next) (live.sort (· ≤ ·))

/-- `set_active`; of an id that is not registered it raises. -/
def setActiveTask (id : PyStr) (next : KitCoroutine) : KitCoroutine :=
  .step (fun s => s) fun s =>
    match s.kit.scenes.get? id with
    | none => next
    | some c =>
        if s.kit.active = id then next
        else
          .step (fun s => s.onKit fun k => { k with active := id }) fun s =>
            match s.kit.activeScene with
            | none => next
            | some prev => if prev = c then next else migrateTask prev c next

/-- Await the same method of one scene after another. -/
def awaitEach (op : SceneOp) (next : KitCoroutine) (cs : List SceneRef) : KitCoroutine :=
  Prog.forEach (fun c => awaitTask c op) next cs

/-- `Server.reset`: the scenes are dropped under the server's lock, and only then reset. -/
def resetTask (next : KitCoroutine) : KitCoroutine :=
  .acquire .server <|
  .step (fun s => s.onKit fun k => { k with scenes := .empty, active := "" }) fun s =>
  .release .server <|
  awaitEach .reset next s.kit.scenes.values

/-- `detach`, of a subscription there is. -/
def detachTask (r : SubRef) (next : KitCoroutine) : KitCoroutine :=
  .step (fun s => s) fun s =>
    if r < s.kit.subs.next then awaitEach (.unsubscribe r) next s.kit.scenes.values else next

/-- The task that resets a replaced scene. -/
def replacedTask (next : KitCoroutine) : KitCoroutine :=
  .step (fun s => s) fun s =>
    match s.kit.tasks with
    | [] => next
    | c :: rest =>
        .step (fun s => s.onKit fun k => { k with tasks := rest }) fun _ => awaitTask c .reset next

end Server

open Server

/-- The coroutine of something done to a kit; the history notes it as it begins. -/
def Op.task (next : KitCoroutine) (op : Op) : KitCoroutine :=
  .step (fun s => { s with calls := s.calls ++ [op] }) fun _ =>
    match op with
    | .newScene id version operatorInputs loopRunning =>
        .step (fun s => s.onKit fun k => k.newScene id version operatorInputs loopRunning)
          fun _ => next
    | .setActive id => setActiveTask id next
    | .scene c op =>
        .step (fun s => s) fun s => if c < s.kit.objects.next then awaitTask c op next else next
    | .detach r => detachTask r next
    | .reset => Server.resetTask next
    | .runTask => replacedTask next
    | .dequeue r => .step (fun s => s.onKit fun k => k.dequeue r) fun _ => next

/-- A task that does one thing after another, and awaits other things in between. -/
def kitTaskOf : List Op → KitCoroutine
  | [] => .done
  | op :: ops => op.task (.pause (kitTaskOf ops))

end Lumencast
