import Lumencast.Interop.ControlPlane
import Lumencast.Protocol.WellFormed
import Lumencast.Server.Acts

/-!
# Interop/Requests — the endpoints of the control plane

Besides `/test/setup`, the control plane resets the server, tells its state, and emits on the active
scene.  Each handler runs to the end once its body is read, so a request is one step
(`ControlPlane.handle`); what it does to the kit is what calls on the kit do (`runsTo_handle`), and
an `/test/emit` is one emission or nothing (`emit_cases`).
-/

namespace Lumencast

open Machinery

/-- A request; a body is what `request.json()` comes to. -/
inductive Request where
  | setup (body : Except PyStr Json)
  | reset
  | state
  | emit (body : Except PyStr Json)
  | health

/-- What it is answered with. -/
inductive Answer where
  /-- `200`, from `/test/setup`. -/
  | setup (wsUrl sceneId sceneVersion : PyStr)
  /-- `204`. -/
  | noContent
  /-- `200`, from `/test/state`. -/
  | state (sceneId sceneVersion : PyStr) (state : Dict PyStr Json)
  /-- `200`, from `/test/health`. -/
  | health (status : PyStr) (version : ℤ) (server : PyStr)
  | problem (status : ℕ) (code detail : PyStr)
  | serverError

def Response.answer : Response → Answer
  | .ok wsUrl id version => .setup wsUrl id version
  | .problem status code detail => .problem status code detail
  | .serverError => .serverError

section Patches

variable [PyRepr]

/-- The patches of an `/test/emit`; `none` when one of them names no path. -/
def readPatches : List Json → Option (List (PyStr × Json))
  | [] => some []
  | .obj p :: ps =>
      match Json.lookup p "path" with
      | none => none
      | some path => (readPatches ps).map
          ((path.toStr, (Json.lookup p "value").getD .null) :: ·)
  | _ :: _ => none

theorem readPatches_ne_nil {p : Json} {ps : List Json} {entries : List (PyStr × Json)}
    (h : readPatches (p :: ps) = some entries) : entries ≠ [] := by
  cases p with
  | obj kvs =>
    rw [readPatches] at h
    split at h
    · cases h
    · obtain ⟨rest, -, rfl⟩ := Option.map_eq_some_iff.mp h
      exact List.cons_ne_nil _ _
  | _ => cases h

end Patches

namespace ControlPlane

/-- `_problem`, as an answer. -/
def problem (status : ℕ) (code detail : PyStr) : Answer := (problemResponse status code detail).answer

theorem problem_ne_noContent (status : ℕ) (code detail : PyStr) :
    problem status code detail ≠ .noContent := by
  rw [problem, problemResponse, jsonResponse]
  split
  · exact fun h => by cases h
  · exact fun h => by cases h

theorem problem_ne_state (status : ℕ) (code detail id version : PyStr) (state : Dict PyStr Json) :
    problem status code detail ≠ .state id version state := by
  rw [problem, problemResponse, jsonResponse]
  split
  · exact fun h => by cases h
  · exact fun h => by cases h

section Handlers

variable [PyRepr] (p : ControlPlane)

/-- `reset`. -/
def reset : Answer × ControlPlane :=
  (.noContent, { p with kit := p.kit.reset, auth := p.auth.map fun _ => .empty })

/-- `state`. -/
def state : Answer × ControlPlane :=
  match p.kit.activeScene with
  | none => (problem 409 "no-active-scene" "/test/setup not called since last /test/reset", p)
  | some c =>
      let sc := p.kit.objects.get c
      let content : Json := .obj [("scene_id", .str sc.id), ("scene_version", .str sc.version),
        ("state", .obj sc.store.state.entries)]
      -- `JSONResponse` raises on a float that is no number, and on a lone surrogate
      (if content.clean then .state sc.id sc.version sc.store.state else .serverError, p)

/-- `emit`, on what `request.json()` comes to. -/
def emit : Except PyStr Json → Answer × ControlPlane
  | .error e => (problem 400 "bad-body" ("invalid JSON: " ++ e), p)
  | .ok (.obj body) =>
      match (Json.lookup body "patches").getD .null with
      | .arr (first :: rest) =>
          match readPatches (first :: rest) with
          | none => (problem 400 "bad-patch" "each patch needs a 'path'", p)
          | some entries =>
              match p.kit.activeScene with
              | none => (problem 409 "no-active-scene" "/test/setup not called", p)
              | some c =>
                  match (p.kit.objects.get c).emit p.kit.subs (Dict.ofList entries) none with
                  | .ok st => (.noContent, { p with kit := p.kit.onScene c fun _ => st })
                  | .error .emptyPatches =>
                      (problem 400 "empty-patches" "no patches applied", p)
                  | .error .storeEmpty => (problem 400 "INVALID_VALUE" "store: empty patches", p)
                  | .error _ => (.serverError, p)
      | _ => (problem 400 "empty-patches" "at least one patch required", p)
  | .ok _ => (problem 400 "bad-body" "request body must be a JSON object", p)

/-- `health`. -/
def health : Answer := .health "ok" 1 "lumencast-py"

/-- One request. -/
def handle : Request → Answer × ControlPlane
  | .setup body => ((p.setup body).1.answer, (p.setup body).2)
  | .reset => p.reset
  | .state => p.state
  | .emit body => p.emit body
  | .health => (health, p)

end Handlers

/-- What `/test/state` tells is what the active scene holds. -/
theorem active_of_state {p : ControlPlane} {id version : PyStr} {content : Dict PyStr Json}
    (h : p.state.1 = .state id version content) :
    ∃ c, p.kit.activeScene = some c ∧ content = (p.kit.objects.get c).store.state := by
  rw [state] at h
  split at h
  · exact absurd h (problem_ne_state 409 "no-active-scene"
      "/test/setup not called since last /test/reset" id version content)
  · rename_i c hactive
    dsimp only at h
    split at h
    · cases h
      exact ⟨c, hactive, rfl⟩
    · cases h

/-- What a body of `/test/emit` asks to be written, if it asks for anything. -/
def patchesOf [PyRepr] : Except PyStr Json → Option (Dict PyStr Json)
  | .ok (.obj body) =>
      match (Json.lookup body "patches").getD .null with
      | .arr (first :: rest) => (readPatches (first :: rest)).map .ofList
      | _ => none
  | _ => none

variable [PyRepr] {p : ControlPlane}

/-- **An emission or nothing**: a request that names its patches is one emission of the active
scene, and any other leaves everything as it was. -/
theorem emit_cases (p : ControlPlane) (body : Except PyStr Json) :
    (∃ patches c, patchesOf body = some patches ∧ patches.isEmpty = false ∧
      p.kit.activeScene = some c ∧
      p.emit body = (.noContent, { p with kit := p.kit.post c patches none })) ∨
    ((patchesOf body = none ∨ p.kit.activeScene = none) ∧ (p.emit body).1 ≠ .noContent ∧
      (p.emit body).2 = p) := by
  have hrefused : ∀ {a : Answer × ControlPlane} (status : ℕ) (code detail : PyStr),
      a = (problem status code detail, p) → a.1 ≠ .noContent ∧ a.2 = p := by
    rintro _ status code detail rfl
    exact ⟨problem_ne_noContent status code detail, rfl⟩
  rcases body with e | body
  · exact Or.inr ⟨Or.inl rfl, hrefused _ _ _ rfl⟩
  · cases body with
    | obj body =>
      rw [patchesOf, emit]
      rcases (Json.lookup body "patches").getD .null with _ | _ | _ | _ | _ | _ | _
      case arr xs =>
        rcases xs with _ | ⟨first, rest⟩
        · exact Or.inr ⟨Or.inl rfl, hrefused _ _ _ rfl⟩
        · dsimp only
          rcases hread : readPatches (first :: rest) with _ | entries
          · exact Or.inr ⟨Or.inl rfl, hrefused _ _ _ rfl⟩
          · have hne : (Dict.ofList entries).isEmpty = false := by
              rw [← Bool.not_eq_true, Dict.isEmpty_iff, Dict.ofList_eq_empty_iff]
              exact readPatches_ne_nil hread
            rcases hactive : p.kit.activeScene with _ | c
            · exact Or.inr ⟨Or.inr rfl, hrefused _ _ _ rfl⟩
            · refine Or.inl ⟨_, c, rfl, hne, rfl, ?_⟩
              dsimp only
              rw [Scene.emit_eq_ok _ _ none hne]
              rfl
      all_goals exact Or.inr ⟨Or.inl rfl, hrefused _ _ _ rfl⟩
    | _ => exact Or.inr ⟨Or.inl rfl, hrefused _ _ _ rfl⟩

end ControlPlane

/-! ## Requests are runs of the kit -/

namespace Server

/-- `k'` is reached from `k` by calls on the kit. -/
def RunsTo (k k' : Server) : Prop := ∃ ops, k' = run step k ops

theorem RunsTo.refl (k : Server) : RunsTo k k := ⟨[], rfl⟩

theorem RunsTo.step {k k' : Server} (h : RunsTo k k') (op : Op) : RunsTo k (k'.step op) := by
  obtain ⟨ops, rfl⟩ := h
  exact ⟨ops ++ [op], (run_concat ..).symm⟩

theorem RunsTo.trans {k k' k'' : Server} (h : RunsTo k k') (h' : RunsTo k' k'') :
    RunsTo k k'' := by
  obtain ⟨ops, rfl⟩ := h
  obtain ⟨ops', rfl⟩ := h'
  exact ⟨ops ++ ops', (run_append ..).symm⟩

variable {k : Server}

theorem runsTo_seedScene {c : SceneRef} (hc : c < k.objects.next)
    (state : Option (List (PyStr × Json))) {k' : Server} (h : k.seedScene c state = .ok k') :
    RunsTo k k' := by
  rcases state with _ | state
  · cases h
    exact .refl k
  · rw [seedScene] at h
    rcases hset : (k.objects.get c).set k.subs (Dict.ofList state) with e | st
    · rw [hset] at h
      cases h
    · rw [hset] at h
      cases h
      have hstep : k.step (.scene c (.set (Dict.ofList state))) = k.onScene c fun _ => st := by
        rw [Server.step, if_pos hc]
        refine onScene_congr ?_
        rw [Scene.step, hset]
        rfl
      change RunsTo k (k.onScene c fun _ => st)
      rw [← hstep]
      exact (RunsTo.refl k).step _

variable [PyRepr]

theorem runsTo_registerSecondaries : ∀ (secondaries : List Json) (k : Server),
    RunsTo k (secondaries.foldl registerSecondary k)
  | [], k => .refl k
  | secondary :: secondaries, k => by
      have hone : RunsTo k (k.registerSecondary secondary) := by
        unfold registerSecondary
        split
        · rename_i bundle
          exact (RunsTo.refl k).step (.newScene (effectiveId bundle) (versionOf bundle) [] true)
        · exact .refl k
      exact hone.trans (runsTo_registerSecondaries secondaries _)

theorem runsTo_load (k : Server) (hint : PyStr) (body primary : List (PyStr × Json))
    (secondaries : List Json) : RunsTo k (k.load hint body primary secondaries).2 := by
  rw [load]
  rcases specsOf primary with e | specs
  · exact .refl k
  · have hregistered := (RunsTo.refl k).step
      (.newScene (effectiveId primary) (versionOf primary) specs true)
    dsimp only
    split
    · exact hregistered
    · exact hregistered
    · exact hregistered
    · rename_i seeded hseeded
      have hseed := hregistered.trans (runsTo_seedScene (Nat.lt_succ_self _) _ hseeded)
      split
      · exact hseed
      · rename_i active hactive
        have hstep : seeded.step (.setActive (effectiveId primary)) = active := by
          rw [Server.step, hactive]
          rfl
        exact (hstep ▸ hseed.step _).trans (runsTo_registerSecondaries secondaries active)

end Server

namespace ControlPlane

variable [PyRepr]

/-- **What a request does to the kit, calls on the kit do.** -/
theorem runsTo_handle (p : ControlPlane) (hwf : p.kit.Wf) (r : Request) :
    p.kit.RunsTo (p.handle r).2.kit := by
  have hreset : p.kit.RunsTo p.kit.reset := (Server.RunsTo.refl p.kit).step .reset
  rcases r with body | _ | _ | body | _
  · change p.kit.RunsTo (p.setup body).2.kit
    rcases p.setup_cases body with ⟨body, primary, secondaries, -, -, hsetup⟩ |
      ⟨body, first, rest, -, -, -, hsetup⟩ | ⟨-, code, detail, hsetup⟩
    · rw [hsetup]
      exact hreset.trans (Server.runsTo_load ..)
    · rw [hsetup]
      exact hreset
    · rw [hsetup]
      exact .refl _
  · exact hreset
  · change p.kit.RunsTo p.state.2.kit
    rw [state]
    split <;> exact .refl _
  · change p.kit.RunsTo (p.emit body).2.kit
    rcases p.emit_cases body with ⟨patches, c, -, hne, hactive, hemit⟩ | ⟨-, -, hsame⟩
    · have hc := hwf.registered_lt c (Server.registered_of_activeScene hactive)
      rw [hemit]
      change p.kit.RunsTo (p.kit.post c patches none)
      rw [← Server.step_emit none hc hne]
      exact (Server.RunsTo.refl _).step _
    · rw [hsame]
      exact .refl _
  · exact .refl _

end ControlPlane

end Lumencast
