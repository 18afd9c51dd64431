import Lumencast.Machinery.Run
import Lumencast.Server.Scene

/-!
# Server/Server — scenes under ids, one of them active

A `Server` maps ids to scenes and names the active one.  Scenes and subscriptions are objects held
by reference, so both live in heaps: a scene that was replaced or dropped from the map is still
there for whoever holds it.  `Op` lists what trusted code and the sessions do to a server, each
without suspending; `Server.step` runs one.
-/

namespace Lumencast

open Machinery

/-- The server kit; `objects` and `subs` are the scenes and subscriptions ever constructed, `tasks`
the resets of replaced scenes that have been scheduled and not run yet. -/
structure Server where
  objects : Heap Scene := .blank default
  scenes : Dict PyStr SceneRef := .empty
  active : PyStr := ""
  subs : Subs := .blank default
  tasks : List SceneRef := []

namespace Server

/-- Apply a method of the scene `c`. -/
def onScene (k : Server) (c : SceneRef) (method : Scene × Subs → Scene × Subs) : Server :=
  let st := method (k.objects.get c, k.subs)
  { k with objects := k.objects.modify c fun _ => st.1, subs := st.2 }

/-- `new_scene`: register a fresh scene, replacing the one under its id.  The replaced scene is
reset by a task of the running event loop, and not at all when there is none. -/
def newScene (k : Server) (id version : PyStr) (operatorInputs : List InputSpec)
    (loopRunning : Bool) : Server :=
  let c := k.objects.next
  { k with
    objects := k.objects.alloc (Scene.new c id version operatorInputs)
    scenes := k.scenes.set id c
    active := if k.active = "" then id else k.active
    tasks := k.tasks ++ if loopRunning then (k.scenes.get? id).toList else [] }

/-- `active_scene`: the scene live clients are served. -/
def activeScene (k : Server) : Option SceneRef :=
  if k.active = "" then none else k.scenes.get? k.active

/-- The migration a switch to `id` makes: from the scene that was active to the one that will be. -/
def swap (k : Server) (id : PyStr) : Option (SceneRef × SceneRef) :=
  if k.active = id then none
  else
    match k.activeScene, k.scenes.get? id with
    | some prev, some next => if prev = next then none else some (prev, next)
    | _, _ => none

/-- Move the live subscribers of `prev` to `next`. -/
def migrate (k : Server) (prev next : SceneRef) : Server :=
  let st := (k.objects.get next).migrateSubscribersFrom (k.objects.get prev) k.subs
  { k with
    objects := (k.objects.modify next fun _ => st.1).modify prev fun _ => st.2.1
    subs := st.2.2 }

/-- `set_active`: change which scene the live endpoint serves. -/
def setActive (k : Server) (id : PyStr) : Except PyError Server :=
  match k.scenes.get? id with
  | none => .error .notRegistered
  | some _ =>
      if k.active = id then .ok k
      else
        let k' := { k with active := id }
        match k.swap id with
        | some (prev, next) => .ok (k'.migrate prev next)
        | none => .ok k'

/-- `reset`: drop every registered scene and clear the active one. -/
def reset (k : Server) : Server :=
  k.scenes.values.foldl (fun k c => k.onScene c fun st => st.1.reset st.2)
    { k with scenes := .empty, active := "" }

/-- `detach`: unsubscribe from every registered scene. -/
def detach (k : Server) (r : SubRef) : Server :=
  k.scenes.values.foldl (fun k c => k.onScene c fun st => st.1.unsubscribe st.2 r) k

/-- `resolve_scene`: the scene a `Subscribe` is served from, or the error that answers it. -/
def resolveScene (k : Server) (subscribe : Subscribe) (identity : Identity) :
    Except PyError (Except (ErrorCode × PyStr) SceneRef) :=
  if !subscribe.scene.truthy then
    match k.activeScene with
    | none => .ok (.error (.sceneNotFound, "no active scene"))
    | some c => .ok (.ok c)
  else if identity.role ≠ some .test ∧ identity.role ≠ some .operator then
    .ok (.error (.authDenied, "test mode requires test or operator role"))
  else if !subscribe.session.truthy then
    .ok (.error (.sceneNotFound, "test mode requires session"))
  else
    match subscribe.scene with
    | .arr _ => .error .unhashable
    | .obj _ => .error .unhashable
    | .str id =>
        match k.scenes.get? id with
        | none => .ok (.error (.sceneNotFound, "scene not registered"))
        | some c => .ok (.ok c)
    | _ => .ok (.error (.sceneNotFound, "scene not registered"))

/-- A client that names no scene is served from the active one. -/
theorem resolveScene_live {k : Server} {subscribe : Subscribe} {identity : Identity}
    (h : subscribe.scene = .str "") : k.resolveScene subscribe identity
      = .ok (k.activeScene.elim (.error (.sceneNotFound, "no active scene")) .ok) := by
  have hfalsy : (!subscribe.scene.truthy) = true := by
    rw [h]
    rfl
  rw [resolveScene, if_pos hfalsy]
  cases k.activeScene <;> rfl

/-- Run the oldest scheduled reset. -/
def runTask (k : Server) : Server :=
  match k.tasks with
  | [] => k
  | c :: rest => { k with tasks := rest }.onScene c fun st => st.1.reset st.2

/-- A writer takes the next item out of its queue. -/
def dequeue (k : Server) (r : SubRef) : Server :=
  match (k.subs.get r).dequeue with
  | none => k
  | some (_, sub) => { k with subs := k.subs.modify r fun _ => sub }

end Server

/-- Something done to a server. -/
inductive Op where
  | newScene (id version : PyStr) (operatorInputs : List InputSpec) (loopRunning : Bool)
  | setActive (id : PyStr)
  | scene (c : SceneRef) (op : SceneOp)
  | detach (r : SubRef)
  | reset
  | runTask
  | dequeue (r : SubRef)

namespace Server

/-- Do it; a reference to an object that does not exist is no call at all. -/
def step (k : Server) : Op → Server
  | .newScene id version operatorInputs loopRunning =>
      k.newScene id version operatorInputs loopRunning
  | .setActive id => orUnchanged k (k.setActive id)
  | .scene c op => if c < k.objects.next then k.onScene c (Scene.step · op) else k
  | .detach r => if r < k.subs.next then k.detach r else k
  | .reset => k.reset
  | .runTask => k.runTask
  | .dequeue r => k.dequeue r

/-- A run of the kit from an empty server. -/
def after (ops : List Op) : Server := run step {} ops

/-- `r` is in the subscriber set of `c`. -/
def Owns (k : Server) (c : SceneRef) (r : SubRef) : Prop := r ∈ (k.objects.get c).subscribers

instance (k : Server) (c : SceneRef) (r : SubRef) : Decidable (k.Owns c r) :=
  inferInstanceAs (Decidable (_ ∈ _))

/-- `c` is registered under some id. -/
def Registered (k : Server) (c : SceneRef) : Prop := c ∈ k.scenes.values

instance (k : Server) (c : SceneRef) : Decidable (k.Registered c) :=
  inferInstanceAs (Decidable (_ ∈ _))

/-! ## Reading through a method call -/

theorem get_onScene (k : Server) (c c' : SceneRef) (m : Scene × Subs → Scene × Subs) :
    (k.onScene c m).objects.get c'
      = if c' = c then (m (k.objects.get c, k.subs)).1 else k.objects.get c' :=
  Heap.get_modify k.objects c c' fun _ => (m (k.objects.get c, k.subs)).1

/-- What a method leaves of its own scene is left of every scene. -/
theorem field_onScene {γ : Type} (f : Scene → γ) {k : Server} {c : SceneRef}
    {m : Scene × Subs → Scene × Subs}
    (h : f (m (k.objects.get c, k.subs)).1 = f (k.objects.get c)) (c' : SceneRef) :
    f ((k.onScene c m).objects.get c') = f (k.objects.get c') := by
  rw [get_onScene]
  split
  · rename_i hc
    rw [hc, h]
  · rfl

@[simp] theorem subs_onScene (k : Server) (c : SceneRef) (m : Scene × Subs → Scene × Subs) :
    (k.onScene c m).subs = (m (k.objects.get c, k.subs)).2 := rfl

@[simp] theorem scenes_onScene (k : Server) (c : SceneRef) (m : Scene × Subs → Scene × Subs) :
    (k.onScene c m).scenes = k.scenes := rfl

theorem scenes_foldl_onScene (m : Scene × Subs → Scene × Subs) :
    ∀ (cs : List SceneRef) (k : Server),
    (cs.foldl (fun k c => k.onScene c m) k).scenes = k.scenes ∧
      (cs.foldl (fun k c => k.onScene c m) k).active = k.active
  | [], _ => ⟨rfl, rfl⟩
  | c :: cs, k => scenes_foldl_onScene m cs (k.onScene c m)

/-- A reset leaves nothing registered and nothing active. -/
theorem scenes_reset (k : Server) : k.reset.scenes = .empty ∧ k.reset.active = "" :=
  scenes_foldl_onScene (fun st => st.1.reset st.2) k.scenes.values
    { k with scenes := .empty, active := "" }

/-- A method that changes nothing. -/
theorem onScene_of_unchanged {k : Server} {c : SceneRef} {m : Scene × Subs → Scene × Subs}
    (h : m (k.objects.get c, k.subs) = (k.objects.get c, k.subs)) : k.onScene c m = k := by
  rw [onScene]
  simp only [h, Heap.modify_get]

/-- Methods that do the same to a scene. -/
theorem onScene_congr {k : Server} {c : SceneRef} {m m' : Scene × Subs → Scene × Subs}
    (h : m (k.objects.get c, k.subs) = m' (k.objects.get c, k.subs)) :
    k.onScene c m = k.onScene c m' := by
  rw [onScene, onScene, h]

theorem onScene_unsubscribe {k : Server} (c : SceneRef) {r : SubRef} (hr : r < k.subs.next) :
    k.onScene c (Scene.step · (.unsubscribe r)) = k.onScene c fun st => st.1.unsubscribe st.2 r :=
  onScene_congr (if_pos hr)

theorem onScene_unsubscribe_of_not {k : Server} (c : SceneRef) {r : SubRef}
    (hr : ¬ r < k.subs.next) : k.onScene c (Scene.step · (.unsubscribe r)) = k :=
  onScene_of_unchanged (if_neg hr)

@[simp] theorem objects_dequeue (k : Server) (r : SubRef) :
    (k.dequeue r).objects = k.objects := by
  rw [dequeue]
  split <;> rfl

/-- Reading from a full queue makes room in it. -/
theorem hasRoom_dequeue {k : Server} {r : SubRef} (h : (k.subs.get r).queue.items ≠ []) :
    ((k.dequeue r).subs.get r).HasRoom := by
  obtain ⟨a, q, hget, hlen⟩ := BoundedQueue.getNowait_of_ne_nil h
  have hdeq : (k.subs.get r).dequeue = some (a, { k.subs.get r with queue := q }) := by
    rw [Subscription.dequeue, hget, Option.map_some]
  have hsub : (k.dequeue r).subs.get r = { k.subs.get r with queue := q } := by
    rw [dequeue, hdeq]
    exact Heap.get_modify_self k.subs r fun _ => { k.subs.get r with queue := q }
  rw [hsub]
  exact hlen

/-! ## A fresh scene -/

section NewScene

variable {k : Server} (id version : PyStr) (operatorInputs : List InputSpec) (loopRunning : Bool)

theorem scene_newScene :
    (k.newScene id version operatorInputs loopRunning).objects.get k.objects.next
      = Scene.new k.objects.next id version operatorInputs := Heap.get_alloc_next ..

theorem scene_newScene_of_ne {c : SceneRef} (hc : c ≠ k.objects.next) :
    (k.newScene id version operatorInputs loopRunning).objects.get c = k.objects.get c :=
  Heap.get_alloc_of_ne _ _ hc

/-- It serves nobody. -/
theorem owns_newScene {c : SceneRef} {r : SubRef} :
    (k.newScene id version operatorInputs loopRunning).Owns c r
      ↔ c ≠ k.objects.next ∧ k.Owns c r := by
  by_cases hc : c = k.objects.next
  · rw [Owns, hc, scene_newScene]
    exact iff_of_false (Finset.notMem_empty r) fun h => h.1 rfl
  · rw [Owns, scene_newScene_of_ne _ _ _ _ hc]
    exact (and_iff_right hc).symm

/-- Its id is its own from now on. -/
theorem get?_newScene {id' : PyStr} {c : SceneRef} :
    (k.newScene id version operatorInputs loopRunning).scenes.get? id' = some c
      ↔ (id' = id ∧ k.objects.next = c) ∨ (id' ≠ id ∧ k.scenes.get? id' = some c) := by
  change (k.scenes.set id k.objects.next).get? id' = some c ↔ _
  by_cases hid : id' = id
  · rw [hid, Dict.get?_set_self, Option.some.injEq]
    simp
  · rw [Dict.get?_set_of_ne _ _ hid]
    simp [hid]

end NewScene

/-! ## Switches -/

/-- What a switch that migrates knows: both ends are registered, and they differ. -/
theorem swap_eq_some {k : Server} {id : PyStr} {prev next : SceneRef}
    (h : k.swap id = some (prev, next)) : k.active ≠ id ∧ k.activeScene = some prev ∧
      k.scenes.get? id = some next ∧ prev ≠ next := by
  rw [swap] at h
  split at h
  · exact absurd h (by simp)
  · rename_i hid
    rcases hprev : k.activeScene with _ | p <;> rcases hnext : k.scenes.get? id with _ | n <;>
      simp only [hprev, hnext, reduceCtorEq] at h
    by_cases hpn : p = n
    · simp [hpn] at h
    · rw [if_neg hpn, Option.some.injEq, Prod.mk.injEq] at h
      obtain ⟨rfl, rfl⟩ := h
      exact ⟨hid, rfl, rfl, hpn⟩

theorem registered_of_get? {k : Server} {id : PyStr} {c : SceneRef}
    (h : k.scenes.get? id = some c) : k.Registered c := Dict.mem_values_of_get? h

theorem registered_of_activeScene {k : Server} {c : SceneRef} (h : k.activeScene = some c) :
    k.Registered c := by
  rw [activeScene] at h
  split at h
  · exact absurd h (by simp)
  · exact registered_of_get? h

/-- A switch either migrates, or at most renames the active scene. -/
theorem step_setActive (k : Server) (id : PyStr) :
    (∃ prev next, k.swap id = some (prev, next) ∧
      k.step (.setActive id) = { k with active := id }.migrate prev next) ∨
    (k.swap id = none ∧ ∃ active, k.step (.setActive id) = { k with active := active }) := by
  rw [step, setActive]
  rcases hid : k.scenes.get? id with _ | c
  · refine Or.inr ⟨?_, k.active, rfl⟩
    rw [swap]
    split
    · rfl
    · rw [hid]
      rcases k.activeScene with _ | p <;> rfl
  · by_cases hact : k.active = id
    · exact Or.inr ⟨if_pos hact, k.active, by rw [if_pos hact]; rfl⟩
    · rcases hswap : k.swap id with _ | ⟨prev, next⟩
      · exact Or.inr ⟨rfl, id, by rw [if_neg hact]; rfl⟩
      · exact Or.inl ⟨prev, next, rfl, by rw [if_neg hact]; rfl⟩

end Server

end Lumencast
