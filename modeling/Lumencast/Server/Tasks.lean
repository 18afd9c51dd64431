import Lumencast.Machinery.Coroutine
import Lumencast.Resume.Equivalence
import Mathlib.Data.Finset.Sort

/-!
# Server/Tasks — the scene's methods as coroutines

The same methods once more, now as the coroutines they are: each takes the scene's lock or the
store's around the stretches it protects, and awaits the methods it calls.  The shared state carries
a history that no method reads: the calls in the order they began, the writes in the order they
reached the store, and the records in the order they were numbered.
-/

namespace Lumencast

open Machinery

/-- The locks of a scene. -/
inductive SceneLock where
  /-- `Scene._lock`. -/
  | scene
  /-- `Store._lock`. -/
  | store
  deriving DecidableEq

/-- What a task awaits. -/
inductive SceneCall where
  /-- A call on the scene. -/
  | call (op : SceneOp)
  /-- `Scene.state`. -/
  | state
  /-- `queue.get`, when it is the consumer's turn: it takes what there is. -/
  | get (r : SubRef)

/-- What the tasks share: a scene, the subscriptions, and the history. -/
structure Shared where
  scene : Scene
  subs : Subs
  calls : List SceneCall := []
  reached : List Write := []
  issued : List ReplayRecord := []

/-- What is left of a task. -/
abbrev Coroutine := Prog SceneLock Shared

/-! ## The store -/

namespace Store

/-- `Store.snapshot`. -/
def snapshotTask (next : Dict PyStr Json → Coroutine) : Coroutine :=
  .acquire .store <| .step (fun s => s) fun s => .release .store (next s.scene.store.snapshot)

/-- `Store.apply`, on behalf of `w`; `raised` is what becomes of a caller with no patches. -/
def applyTask (w : Write) (patches : Dict PyStr Json) (raised : Coroutine)
    (next : List (PyStr × Json) → Coroutine) : Coroutine :=
  if patches.isEmpty then raised
  else
    .acquire .store <|
    .step (fun s => { s with
      scene := { s.scene with store := ⟨s.scene.store.state.update patches.entries⟩ }
      reached := s.reached ++ [w] }) fun _ =>
    .release .store (next patches.entries)

/-- `Store.reset`. -/
def resetTask (next : Coroutine) : Coroutine :=
  .acquire .store <|
  .step (fun s => { s with
    scene := { s.scene with store := s.scene.store.reset }
    reached := s.reached ++ [.clearing] }) fun _ =>
  .release .store next

end Store

/-! ## Sending -/

namespace Scene

open Store

/-- Change one subscription. -/
def onSub (s : Shared) (r : SubRef) (f : Subscription → Subscription) : Shared :=
  { s with subs := s.subs.modify r f }

/-- The subscribers, in the order a loop visits them. -/
def visit (sc : Scene) : List SubRef := sc.subscribers.sort (· ≤ ·)

/-- A snapshot frame with a state and a number read before. -/
def snapshotWith (sc : Scene) (state : Dict PyStr Json) (seq : ℤ) : Letter :=
  sc.letter (.snapshot
    { sceneId := .str sc.id, sceneVersion := .str sc.version, state := state, seq := seq })

/-- A delta frame with a number drawn before. -/
def deltaWith (sc : Scene) (seq : ℤ) (wire : List Patch) (cause : Option Cause) : Letter :=
  sc.letter (.delta { patches := wire, seq := seq, cause := cause })

/-- `_send_or_drop`. -/
def sendOrDropTask (r : SubRef) (msg : Shared → Letter) (next : Coroutine) : Coroutine :=
  .step (fun s => onSub s r (Subscription.sendOrDrop · (msg s))) fun _ => next

/-- `_send_delta`. -/
def sendDeltaTask (seq : ℤ) (wire : List Patch) (cause : Option Cause) (r : SubRef)
    (next : Coroutine) : Coroutine :=
  .step (fun s =>
    let delta := s.scene.deltaWith seq wire cause
    onSub s r fun sub => (sub.putNowait delta).getD (sub.miss delta)) fun s =>
    if ((s.subs.get r).putNowait (s.scene.deltaWith seq wire cause)).isSome then next
    else
      snapshotTask fun state =>
        sendOrDropTask r (fun s => s.scene.snapshotWith state s.scene.currentSeq) next

/-- `_refresh_all`. -/
def refreshAllTask (next : Coroutine) : Coroutine :=
  .acquire .scene <|
  snapshotTask fun state =>
  .step (fun s => s) fun s =>
    let curSeq := s.scene.currentSeq
    Prog.forEach (fun r => sendOrDropTask r fun s => s.scene.snapshotWith state curSeq)
      (.release .scene next) s.scene.visit

/-! ## The methods

Read next to the source: an `async with` is an `acquire` and a `release`, an `await` of a method
is that method with what comes after it as its continuation. -/

/-- `Scene.set`; without patches it raises. -/
def setTask (patches : Dict PyStr Json) (next : Coroutine) : Coroutine :=
  if patches.isEmpty then next
  else applyTask (.seeding patches) patches next fun _ => refreshAllTask next

/-- `Scene.emit`; without patches it raises. -/
def emitTask (patches : Dict PyStr Json) (cause : Option Cause) (next : Coroutine) : Coroutine :=
  if patches.isEmpty then next
  else
    applyTask (.emission patches cause) patches next fun applied =>
      let wire := wirePatches applied
      .acquire .scene <|
      .step (fun s =>
        let (seq, tracker) := s.scene.seq.nextServer
        { s with
          scene := { s.scene with
            seq := tracker, replay := s.scene.replay.push ⟨seq, wire, cause⟩ }
          issued := s.issued ++ [⟨seq, wire, cause⟩] }) fun s =>
      Prog.forEach (sendDeltaTask s.scene.seq.nextServer.1 wire cause) (.release .scene next)
        s.scene.visit

/-- `Scene.apply_input`: nothing is awaited before the input is accepted. -/
def applyInputTask (identity : Identity) (patches : List Patch) (cause : Option Cause)
    (next : Coroutine) : Coroutine :=
  .step (fun s => s) fun s =>
    match s.scene.verdict identity patches with
    | .ok none => emitTask (asDict patches) cause next
    | _ => next

/-- `Scene.reset`. -/
def resetTask (next : Coroutine) : Coroutine :=
  .acquire .scene <|
  .step (fun s => { s with scene := { s.scene with subscribers := ∅ } }) fun s =>
  .release .scene <|
  Prog.forEach (fun r next => .step (fun s => onSub s r Subscription.close) fun _ => next)
    (Store.resetTask next) s.scene.visit

/-- Attach the subscription `r`. -/
def addSubscriber (s : Shared) (r : SubRef) : Shared :=
  { s with scene := { s.scene with subscribers := insert r s.scene.subscribers } }

/-- Note in the history what a subscriber is opened with. -/
def noteOpening (s : Shared) (r : SubRef) (opening : Opening) : Shared :=
  onSub s r fun sub => { sub with opening := opening }

/-- `Scene.subscribe`. -/
def subscribeTask (live : Bool) (next : Coroutine) : Coroutine :=
  .step (fun s => { s with subs := s.subs.alloc { live := live } }) fun s =>
    let r := s.subs.next
    .acquire .scene <|
    .step (fun s => addSubscriber s r) fun _ =>
    snapshotTask fun state =>
    .release .scene <|
    .step (fun s => noteOpening s r (.snapshot
      { s.scene.snapshotFrame with state := state, seq := s.scene.currentSeq })) fun _ =>
    next

/-- `Scene.subscribe_with_resume`. -/
def subscribeWithResumeTask (live : Bool) (since : Option ℤ) (next : Coroutine) : Coroutine :=
  .step (fun s => { s with subs := s.subs.alloc { live := live } }) fun s =>
    let r := s.subs.next
    .acquire .scene <|
    .step (fun s => addSubscriber s r) fun _ =>
    snapshotTask fun state =>
    .step (fun s => s) fun s =>
      let curSeq := s.scene.currentSeq
      if s.scene.resumes since then
        .step (fun s => noteOpening s r
          (.replay ((since.map fun n => (s.scene.replay.since n).records).getD []))) fun _ =>
        .release .scene next
      else
        .release .scene <|
        .step (fun s => noteOpening s r (.snapshot
          { s.scene.snapshotFrame with state := state, seq := curSeq })) fun _ =>
        next

/-- `Scene.unsubscribe`, of a subscription there is. -/
def unsubscribeTask (r : SubRef) (next : Coroutine) : Coroutine :=
  .step (fun s => s) fun s =>
    if r < s.subs.next then
      .acquire .scene <|
      .step (fun s => { s with
        scene := { s.scene with subscribers := s.scene.subscribers.erase r } }) fun _ =>
      .release .scene <|
      .step (fun s => onSub s r Subscription.close) fun _ =>
      next
    else next

end Scene

/-! ## Tasks

Between two calls a task awaits something else, and any other task may run. -/

/-- The coroutine of a call; what it returns and what it raises are its caller's business. -/
def SceneOp.task (next : Coroutine) : SceneOp → Coroutine
  | .setVersion version =>
      .step (fun s => { s with scene := s.scene.setVersion version }) fun _ => next
  | .declareInputs specs =>
      .step (fun s => { s with scene := s.scene.declareInputs specs }) fun _ => next
  | .set patches => Scene.setTask patches next
  | .emit patches cause => Scene.emitTask patches cause next
  | .applyInput identity patches cause => Scene.applyInputTask identity patches cause next
  | .reset => Scene.resetTask next
  | .subscribe live => Scene.subscribeTask live next
  | .subscribeWithResume live since => Scene.subscribeWithResumeTask live since next
  | .unsubscribe r => Scene.unsubscribeTask r next

/-- What a consumer leaves of a subscription. -/
def Subscription.drained (sub : Subscription) : Subscription := (sub.dequeue.map (·.2)).getD sub

/-- The coroutine of what is awaited; the history notes it as it begins. -/
def SceneCall.task (next : Coroutine) (c : SceneCall) : Coroutine :=
  .step (fun s => { s with calls := s.calls ++ [c] }) fun _ =>
    match c with
    | .call op => op.task next
    | .state => Store.snapshotTask fun _ => next
    | .get r => .step (fun s => Scene.onSub s r Subscription.drained) fun _ => next

/-- The same, as one step. -/
def SceneCall.step (st : Scene × Subs) : SceneCall → Scene × Subs
  | .call op => Scene.step st op
  | .state => st
  | .get r => (st.1, st.2.modify r Subscription.drained)

/-- What it writes to the store. -/
def SceneCall.write (sc : Scene) : SceneCall → Option Write
  | .call op => sc.write op
  | _ => none

/-- The writes of a history, in order. -/
def SceneCall.writes (st : Scene × Subs) : List SceneCall → List Write
  | [] => []
  | c :: cs => (c.write st.1).toList ++ writes (c.step st) cs

end Lumencast
