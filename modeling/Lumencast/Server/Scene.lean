import Lumencast.Protocol.Sequence
import Lumencast.Server.Auth
import Lumencast.Server.Input
import Lumencast.Server.Subscription

/-!
# Server/Scene — state, counter and fan-out

A `Scene` owns a store, one sequence counter for all its subscribers, a replay ring and a set of
subscribers.  Its methods never suspend on the kit's one event loop, so each is a function of the
scene and of the heap the subscriptions live in.  `SceneOp` lists the methods and `Scene.step` runs
one; an exception leaves everything as it was, since each is raised before anything is mutated.
-/

namespace Lumencast

open Machinery

def DEFAULT_SCENE_VERSION : PyStr :=
  "sha256:0000000000000000000000000000000000000000000000000000000000000000"

/-- The subscriptions, by reference. -/
abbrev Subs := Heap Subscription

/-- Server-side scene; `ref` is the identity of the object. -/
structure Scene where
  ref : SceneRef
  id : PyStr
  version : PyStr
  store : Store := {}
  subscribers : Finset SubRef := ∅
  declaredInputs : Dict PyStr InputSpec := .empty
  seq : SequenceTracker
  replay : ReplayBuffer

/-- Why an input is refused, with the patch that is to blame. -/
inductive Refusal where
  | emptyPatches
  | writeForbidden (path : PyStr)
  | unknownPath (path : PyStr)
  | invalidValue (path : PyStr) (v : Violation)

namespace Refusal

/-- The error code of the refusal. -/
def code : Refusal → ErrorCode
  | .emptyPatches => .invalidValue
  | .writeForbidden _ => .writeForbidden
  | .unknownPath _ => .unknownPath
  | .invalidValue _ _ => .invalidValue

/-- The path it names, if it names one. -/
def path : Refusal → Option PyStr
  | .emptyPatches => none
  | .writeForbidden path => some path
  | .unknownPath path => some path
  | .invalidValue path _ => some path

/-- The message shown to the client. -/
def message [PyRepr] : Refusal → PyStr
  | .emptyPatches => "input: empty patches"
  | .writeForbidden path => "write forbidden: " ++ path
  | .unknownPath path => "unknown path: " ++ path
  | .invalidValue path v => "invalid value at " ++ path ++ ": " ++ v.message

end Refusal

namespace Scene

/-- A fresh scene: no state, no subscriber, its counter at `1`. -/
def new (ref : SceneRef) (id version : PyStr) (operatorInputs : List InputSpec) : Scene where
  ref := ref
  id := id
  version := version
  declaredInputs := .ofList (operatorInputs.map fun spec => (spec.path, spec))
  seq := (SequenceTracker.nextServer {}).2
  replay := .new DEFAULT_REPLAY_BUFFER_SIZE

instance : Inhabited Scene := ⟨new 0 "" DEFAULT_SCENE_VERSION []⟩

/-- The scene's counter: the number of its last emission, `1` when it is fresh. -/
def currentSeq (sc : Scene) : ℤ := sc.seq.current

def setVersion (sc : Scene) (version : PyStr) : Scene := { sc with version := version }

def declareInputs (sc : Scene) (specs : List InputSpec) : Scene :=
  { sc with declaredInputs := .ofList (specs.map fun spec => (spec.path, spec)) }

/-! ## Sending -/

/-- A snapshot of the scene as it stands. -/
def snapshotFrame (sc : Scene) : Snapshot where
  sceneId := .str sc.id
  sceneVersion := .str sc.version
  state := sc.store.snapshot
  seq := sc.currentSeq

/-- A frame this scene numbers and sends. -/
def letter (sc : Scene) (frame : Frame) : Letter := ⟨frame, sc.ref, sc.store.state⟩

/-- The snapshot, as a letter. -/
def snapshotLetter (sc : Scene) : Letter := sc.letter (.snapshot sc.snapshotFrame)

/-- `_refresh_all`: a fresh snapshot to every subscriber. -/
def refreshAll (sc : Scene) (subs : Subs) : Subs :=
  subs.modifyAll sc.subscribers fun sub => sub.sendOrDrop sc.snapshotLetter

/-- `set`: seed the state; existing subscribers receive a fresh snapshot. -/
def set (sc : Scene) (subs : Subs) (patches : Dict PyStr Json) : Except PyError (Scene × Subs) :=
  if patches.isEmpty then .error .emptyPatches
  else
    match sc.store.apply patches with
    | .error e => .error e
    | .ok (_, store) =>
        let sc := { sc with store := store }
        .ok (sc, sc.refreshAll subs)

/-- A batch of leaves as wire patches. -/
def wirePatches (applied : List (PyStr × Json)) : List Patch := applied.map fun e => ⟨e.1, e.2, none⟩

/-- The delta an emission sends, numbered by the counter as it stands. -/
def deltaLetter (sc : Scene) (wire : List Patch) (cause : Option Cause) : Letter :=
  sc.letter (.delta { patches := wire, seq := sc.currentSeq, cause := cause })

/-- `emit`: apply a delta, number it, remember it, and fan it out. -/
def emit (sc : Scene) (subs : Subs) (patches : Dict PyStr Json) (cause : Option Cause) :
    Except PyError (Scene × Subs) :=
  if patches.isEmpty then .error .emptyPatches
  else
    match sc.store.apply patches with
    | .error e => .error e
    | .ok (applied, store) =>
        let wire := wirePatches applied
        let (seq, tracker) := sc.seq.nextServer
        let sc := { sc with
          store := store, seq := tracker, replay := sc.replay.push ⟨seq, wire, cause⟩ }
        .ok (sc, subs.modifyAll sc.subscribers fun sub =>
          sub.sendDelta (sc.deltaLetter wire cause) sc.snapshotLetter)

/-- `reset`: drop every subscriber and clear the state. -/
def reset (sc : Scene) (subs : Subs) : Scene × Subs :=
  ({ sc with subscribers := ∅, store := sc.store.reset },
    subs.modifyAll sc.subscribers Subscription.close)

/-! ## Attaching and detaching

A client that resumes is given records when the ring reaches back to it, and a snapshot
otherwise.  What a subscriber was opened with is remembered on its subscription. -/

/-- `subscribe`: attach a subscriber and hand it a snapshot. -/
def subscribe (sc : Scene) (subs : Subs) (live : Bool) : SubRef × Snapshot × Scene × Subs :=
  (subs.next, sc.snapshotFrame, { sc with subscribers := insert subs.next sc.subscribers },
    subs.alloc { live := live, opening := .snapshot sc.snapshotFrame })

/-- Whether a client last at `since` is given replay records rather than a snapshot. -/
def resumes (sc : Scene) (since : Option ℤ) : Bool :=
  match since with
  | none => false
  | some s => decide (0 < s) && decide (s ≤ sc.currentSeq) && (sc.replay.since s).covered

/-- What a client last at `since` is handed: a snapshot, or the records it is missing. -/
def resumeAnswer (sc : Scene) (since : Option ℤ) : Option Snapshot × List ReplayRecord :=
  if sc.resumes since then (none, (since.map fun s => (sc.replay.since s).records).getD [])
  else (some sc.snapshotFrame, [])

/-- An answer, as it is remembered. -/
def openingOf : Option Snapshot × List ReplayRecord → Opening
  | (some f, _) => .snapshot f
  | (none, records) => .replay records

/-- `subscribe_with_resume`: attach a subscriber, and resume it if the ring reaches back far
enough. -/
def subscribeWithResume (sc : Scene) (subs : Subs) (live : Bool) (since : Option ℤ) :
    SubRef × (Option Snapshot × List ReplayRecord) × Scene × Subs :=
  let answer := sc.resumeAnswer since
  (subs.next, answer, { sc with subscribers := insert subs.next sc.subscribers },
    subs.alloc { live := live, opening := openingOf answer })

/-- `unsubscribe`: detach a subscriber.  It is closed even if it was attached elsewhere. -/
def unsubscribe (sc : Scene) (subs : Subs) (r : SubRef) : Scene × Subs :=
  ({ sc with subscribers := sc.subscribers.erase r }, subs.modify r Subscription.close)

/-! ## Inputs

The patches are checked in order and nothing is changed before all of them have passed. -/

/-- `_accepts_input_path`: the namespaces an input may touch. -/
def acceptsInputPath (sc : Scene) (role : Option Role) (path : PyStr) : Bool :=
  if hasPrefix path "__inputs" then
    sc.declaredInputs.isEmpty || (sc.declaredInputs.get? path).isSome
  else hasPrefix path "__test" && role == some .test

/-- One patch of an input: the first objection to it, if any. -/
def checkPatch (sc : Scene) (identity : Identity) (p : Patch) :
    Except PyError (Option Refusal) :=
  if !identity.canWrite p.path then .ok (some (.writeForbidden p.path))
  else if !sc.acceptsInputPath identity.role p.path then .ok (some (.unknownPath p.path))
  else
    match sc.declaredInputs.get? p.path with
    | none => .ok none
    | some spec =>
        match checkConstraint spec p.value with
        | .error e => .error e
        | .ok err => .ok (err.map (.invalidValue p.path))

/-- The patches of an input in order, up to the first objection. -/
def checkPatches (sc : Scene) (identity : Identity) : List Patch → Except PyError (Option Refusal)
  | [] => .ok none
  | p :: ps =>
      match sc.checkPatch identity p with
      | .error e => .error e
      | .ok (some refusal) => .ok (some refusal)
      | .ok none => sc.checkPatches identity ps

/-- The verdict on an input. -/
def verdict (sc : Scene) (identity : Identity) (patches : List Patch) :
    Except PyError (Option Refusal) :=
  if patches.isEmpty then .ok (some .emptyPatches) else sc.checkPatches identity patches

/-- The patches of an input as a map; the last value of a path wins. -/
def asDict (patches : List Patch) : Dict PyStr Json :=
  .ofList (patches.map fun p => (p.path, p.value))

/-- `apply_input`: validate an input and, if nothing is objected to, emit it. -/
def applyInput (sc : Scene) (subs : Subs) (identity : Identity) (patches : List Patch)
    (cause : Option Cause) : Except PyError (Option Refusal × Scene × Subs) :=
  match sc.verdict identity patches with
  | .error e => .error e
  | .ok (some refusal) => .ok (some refusal, sc, subs)
  | .ok none => (sc.emit subs (asDict patches) cause).map fun r => (none, r)

/-! ## Taking over another scene's live subscribers

The new scene does it, but one number is drawn from the counter of the scene that is left, for
the frame that says so. -/

/-- The live subscribers. -/
def liveSubscribers (sc : Scene) (subs : Subs) : Finset SubRef :=
  sc.subscribers.filter fun r => (subs.get r).live

/-- `migrate_subscribers_from`: take over the live subscribers of `prev`, which numbers one last
frame for them.  The result is this scene, `prev` and the subscriptions. -/
def migrateSubscribersFrom (sc prev : Scene) (subs : Subs) : Scene × Scene × Subs :=
  let live := prev.liveSubscribers subs
  if live = ∅ then (sc, prev, subs)
  else
    let (prevSeq, tracker) := prev.seq.nextServer
    let prev := { prev with subscribers := prev.subscribers \ live, seq := tracker }
    let changed : Letter := ⟨.sceneChanged
      { sceneId := .str sc.id, sceneVersion := .str sc.version, seq := prevSeq },
      prev.ref, sc.store.state⟩
    ({ sc with subscribers := sc.subscribers ∪ live }, prev,
      subs.modifyAll live fun sub => (sub.sendOrDrop changed).sendOrDrop sc.snapshotLetter)

end Scene

/-! ## One method after another -/

/-- A call of one of a scene's methods. -/
inductive SceneOp where
  | setVersion (version : PyStr)
  | declareInputs (specs : List InputSpec)
  | set (patches : Dict PyStr Json)
  | emit (patches : Dict PyStr Json) (cause : Option Cause)
  | applyInput (identity : Identity) (patches : List Patch) (cause : Option Cause)
  | reset
  | subscribe (live : Bool)
  | subscribeWithResume (live : Bool) (since : Option ℤ)
  | unsubscribe (r : SubRef)

/-- Keep the state a call left, or the one before it if it raised. -/
def orUnchanged {α : Type} (a : α) : Except PyError α → α
  | .ok b => b
  | .error _ => a

/-- Run one call; its result and its exceptions are its caller's business. -/
def Scene.step (st : Scene × Subs) : SceneOp → Scene × Subs
  | .setVersion version => (st.1.setVersion version, st.2)
  | .declareInputs specs => (st.1.declareInputs specs, st.2)
  | .set patches => orUnchanged st (st.1.set st.2 patches)
  | .emit patches cause => orUnchanged st (st.1.emit st.2 patches cause)
  | .applyInput identity patches cause =>
      orUnchanged st ((st.1.applyInput st.2 identity patches cause).map (·.2))
  | .reset => st.1.reset st.2
  | .subscribe live => (st.1.subscribe st.2 live).2.2
  | .subscribeWithResume live since => (st.1.subscribeWithResume st.2 live since).2.2
  | .unsubscribe r => if r < st.2.next then st.1.unsubscribe st.2 r else st

namespace Scene

/-! ## What a call comes to

`seeded` and `emitted` are the scenes that `set` and `emit` leave; the equations below are how every
proof about those calls starts. -/

/-- The scene after a batch of leaves was seeded. -/
def seeded (sc : Scene) (patches : Dict PyStr Json) : Scene :=
  { sc with store := ⟨sc.store.state.update patches.entries⟩ }

/-- The scene after an emission. -/
def emitted (sc : Scene) (patches : Dict PyStr Json) (cause : Option Cause) : Scene :=
  { sc with
    store := ⟨sc.store.state.update patches.entries⟩
    seq := ⟨sc.seq.cur + 1⟩
    replay := sc.replay.push ⟨sc.seq.cur + 1, wirePatches patches.entries, cause⟩ }

/-- What an emission does to one subscriber, `sc` being the scene after it. -/
def deliver (sc : Scene) (patches : Dict PyStr Json) (cause : Option Cause)
    (sub : Subscription) : Subscription :=
  sub.sendDelta (sc.deltaLetter (wirePatches patches.entries) cause) sc.snapshotLetter

/-- The frame that tells a client it is now served this scene, numbered by `prev`. -/
def changedLetter (sc prev : Scene) : Letter where
  frame := .sceneChanged
    { sceneId := .str sc.id, sceneVersion := .str sc.version, seq := prev.currentSeq + 1 }
  issuer := prev.ref
  content := sc.store.state

/-- What a migration does to one subscriber. -/
def handOver (sc prev : Scene) (sub : Subscription) : Subscription :=
  (sub.sendOrDrop (sc.changedLetter prev)).sendOrDrop sc.snapshotLetter

theorem set_eq_ok (sc : Scene) (subs : Subs) {patches : Dict PyStr Json}
    (h : patches.isEmpty = false) :
    sc.set subs patches = .ok (sc.seeded patches, (sc.seeded patches).refreshAll subs) := by
  simp only [set, Store.apply, h, Bool.false_eq_true, if_false]
  rfl

theorem emit_eq_ok (sc : Scene) (subs : Subs) {patches : Dict PyStr Json} (cause : Option Cause)
    (h : patches.isEmpty = false) : sc.emit subs patches cause = .ok (sc.emitted patches cause,
      subs.modifyAll sc.subscribers ((sc.emitted patches cause).deliver patches cause)) := by
  simp only [emit, Store.apply, h, Bool.false_eq_true, if_false]
  rfl

theorem set_eq_error (sc : Scene) (subs : Subs) {patches : Dict PyStr Json}
    (h : patches.isEmpty = true) : sc.set subs patches = .error .emptyPatches := if_pos h

theorem emit_eq_error (sc : Scene) (subs : Subs) {patches : Dict PyStr Json}
    (cause : Option Cause) (h : patches.isEmpty = true) :
    sc.emit subs patches cause = .error .emptyPatches := if_pos h

/-- A key an input changes is the path of one of its patches. -/
theorem exists_of_get?_asDict {d : Dict PyStr Json} {patches : List Patch} {key : PyStr}
    (h : (d.update (asDict patches).entries).get? key ≠ d.get? key) :
    ∃ p ∈ patches, p.path = key := by
  have hmem : key ∈ (asDict patches).entries.map Prod.fst := by
    by_contra hno
    exact h (Dict.get?_update_of_notMem _ d hno)
  have hkey := Dict.mem_keys_ofList.mp hmem
  rw [List.map_map] at hkey
  exact List.mem_map.mp hkey

/-- An input nothing is objected to has patches to apply. -/
theorem isEmpty_asDict_of_verdict {sc : Scene} {identity : Identity} {patches : List Patch}
    (h : sc.verdict identity patches = .ok none) : (asDict patches).isEmpty = false := by
  rcases patches with _ | ⟨p, ps⟩
  · simp [verdict] at h
  · have hne : asDict (p :: ps) ≠ .empty := Dict.update_ne_empty
    by_contra hempty
    rw [Bool.not_eq_false] at hempty
    exact hne (Dict.isEmpty_iff.mp hempty)

theorem checkPatch_of_checkPatches {sc : Scene} {identity : Identity} : ∀ {patches : List Patch},
    sc.checkPatches identity patches = .ok none → ∀ p ∈ patches, sc.checkPatch identity p = .ok none
  | [], _, _, hp => absurd hp List.not_mem_nil
  | q :: ps, h, p, hp => by
      rw [checkPatches] at h
      split at h
      · cases h
      · cases h
      · rename_i hq
        rcases List.mem_cons.mp hp with rfl | hp
        · exact hq
        · exact checkPatch_of_checkPatches h p hp

/-- **An input nothing is objected to was let through both gates**, path by path. -/
theorem gates_of_verdict {sc : Scene} {identity : Identity} {patches : List Patch}
    (h : sc.verdict identity patches = .ok none) : ∀ p ∈ patches,
      identity.canWrite p.path = true ∧ sc.acceptsInputPath identity.role p.path = true := by
  intro p hp
  rw [verdict] at h
  split at h
  · cases h
  have hcheck := checkPatch_of_checkPatches h p hp
  rw [checkPatch] at hcheck
  refine ⟨by_contra fun hno => ?_, by_contra fun hno => ?_⟩
  · rw [Bool.not_eq_true] at hno
    simp [hno] at hcheck
  · rw [Bool.not_eq_true] at hno
    rw [hno, Bool.not_false, if_pos rfl] at hcheck
    split at hcheck
    · cases hcheck
    · cases hcheck

theorem canWrite_of_verdict {sc : Scene} {identity : Identity} {patches : List Patch}
    (h : sc.verdict identity patches = .ok none) :
    ∀ p ∈ patches, identity.canWrite p.path = true := fun p hp => (gates_of_verdict h p hp).1

/-- What `apply_input` returns is the verdict: once nothing is objected to, the emission goes
through. -/
theorem applyInput_result (sc : Scene) (subs : Subs) (identity : Identity) (patches : List Patch)
    (cause : Option Cause) : (sc.applyInput subs identity patches cause).map (·.1)
      = sc.verdict identity patches := by
  rw [applyInput]
  rcases hv : sc.verdict identity patches with e | _ | refusal
  · rfl
  · dsimp only
    rw [emit_eq_ok sc subs cause (isEmpty_asDict_of_verdict hv)]
    rfl
  · rfl

/-! ## The scene without its subscribers -/

/-- A scene without its subscribers: what a client can learn of it. -/
def bare (sc : Scene) : Scene := { sc with subscribers := ∅ }

theorem checkPatches_bare (sc : Scene) (identity : Identity) : ∀ patches : List Patch,
    sc.bare.checkPatches identity patches = sc.checkPatches identity patches
  | [] => rfl
  | p :: ps => by
      have hp : sc.bare.checkPatch identity p = sc.checkPatch identity p := rfl
      rw [checkPatches, checkPatches, hp, checkPatches_bare sc identity ps]

/-- A verdict does not depend on who is watching. -/
theorem verdict_bare (sc : Scene) (identity : Identity) (patches : List Patch) :
    sc.bare.verdict identity patches = sc.verdict identity patches := by
  rw [verdict, verdict, checkPatches_bare]

/-! ## The calls that change a store, run -/

theorem step_set (st : Scene × Subs) (patches : Dict PyStr Json) :
    step st (.set patches) = if patches.isEmpty then st
      else (st.1.seeded patches, (st.1.seeded patches).refreshAll st.2) := by
  rw [step]
  split
  · rename_i h
    rw [set_eq_error _ _ h]
    rfl
  · rename_i h
    rw [set_eq_ok _ _ (Bool.not_eq_true _ ▸ h)]
    rfl

theorem step_emit (st : Scene × Subs) (patches : Dict PyStr Json) (cause : Option Cause) :
    step st (.emit patches cause) = if patches.isEmpty then st
      else (st.1.emitted patches cause, st.2.modifyAll st.1.subscribers
        ((st.1.emitted patches cause).deliver patches cause)) := by
  rw [step]
  split
  · rename_i h
    rw [emit_eq_error _ _ cause h]
    rfl
  · rename_i h
    rw [emit_eq_ok _ _ cause (Bool.not_eq_true _ ▸ h)]
    rfl

/-- **An accepted input is an emission.** -/
theorem step_applyInput_of_ok {st : Scene × Subs} {identity : Identity} {patches : List Patch}
    (cause : Option Cause) (h : st.1.verdict identity patches = .ok none) :
    step st (.applyInput identity patches cause)
      = (st.1.emitted (asDict patches) cause, st.2.modifyAll st.1.subscribers
        ((st.1.emitted (asDict patches) cause).deliver (asDict patches) cause)) := by
  rw [step, applyInput, h, emit_eq_ok _ _ cause (isEmpty_asDict_of_verdict h)]
  rfl

/-- **An input that is refused, or that raises, changes nothing.** -/
theorem step_applyInput_of_ne {st : Scene × Subs} {identity : Identity} {patches : List Patch}
    (cause : Option Cause) (h : st.1.verdict identity patches ≠ .ok none) :
    step st (.applyInput identity patches cause) = st := by
  rw [step, applyInput]
  rcases hv : st.1.verdict identity patches with e | refusal | refusal
  · rfl
  · exact absurd hv h
  · rfl

/-! ## Migrations -/

/-- **Nobody live, nothing moves.** -/
theorem migrate_of_empty {sc prev : Scene} {subs : Subs} (h : prev.liveSubscribers subs = ∅) :
    sc.migrateSubscribersFrom prev subs = (sc, prev, subs) := if_pos h

theorem migrate_of_ne_empty {sc prev : Scene} {subs : Subs} (h : prev.liveSubscribers subs ≠ ∅) :
    sc.migrateSubscribersFrom prev subs =
      ({ sc with subscribers := sc.subscribers ∪ prev.liveSubscribers subs },
        { prev with
          subscribers := prev.subscribers \ prev.liveSubscribers subs, seq := ⟨prev.seq.cur + 1⟩ },
        subs.modifyAll (prev.liveSubscribers subs) (sc.handOver prev)) := if_neg h

/-! ## What a subscriber is left with -/

section Sending

variable {sc prev : Scene} {patches : Dict PyStr Json} {cause : Option Cause} {sub : Subscription}

@[simp] theorem opening_deliver : (sc.deliver patches cause sub).opening = sub.opening :=
  Subscription.opening_sendDelta ..

@[simp] theorem live_deliver : (sc.deliver patches cause sub).live = sub.live :=
  Subscription.live_sendDelta ..

@[simp] theorem maxsize_deliver :
    (sc.deliver patches cause sub).queue.maxsize = sub.queue.maxsize :=
  Subscription.maxsize_sendDelta ..

theorem queue_deliver : (sc.deliver patches cause sub).queue.items = if sub.HasRoom
    then sub.queue.items ++ [some (sc.deltaLetter (wirePatches patches.entries) cause)]
    else sub.queue.items := Subscription.queue_sendDelta ..

/-- A flag that stays down means the delta was taken. -/
theorem stale_deliver :
    (sc.deliver patches cause sub).stale = false ↔ sub.stale = false ∧ sub.HasRoom := by
  rw [deliver, Subscription.stale_sendDelta, Bool.or_eq_false_iff, Bool.not_eq_false',
    decide_eq_true_iff]

@[simp] theorem opening_handOver : (sc.handOver prev sub).opening = sub.opening := by
  rw [handOver, Subscription.opening_sendOrDrop, Subscription.opening_sendOrDrop]

@[simp] theorem live_handOver : (sc.handOver prev sub).live = sub.live := by
  rw [handOver, Subscription.live_sendOrDrop, Subscription.live_sendOrDrop]

@[simp] theorem maxsize_handOver :
    (sc.handOver prev sub).queue.maxsize = sub.queue.maxsize := by
  rw [handOver, Subscription.maxsize_sendOrDrop, Subscription.maxsize_sendOrDrop]

theorem stale_of_handOver (h : (sc.handOver prev sub).stale = false) : sub.stale = false :=
  (Subscription.hasRoom_of_stale (Subscription.hasRoom_of_stale h).2).2

end Sending

end Scene

end Lumencast
