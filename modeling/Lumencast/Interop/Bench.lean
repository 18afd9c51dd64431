import Lumencast.Interop.Requests
import Lumencast.Sessions.Clients
import Lumencast.Server.Retired

/-!
# Interop/Bench — the server a harness drives

`serve-scenario` runs a kit whose clients are let in by a `StaticTokens`, next to a control plane
that resets it, sets it up and emits on it.  A `Bench` interleaves requests, connections and wakeups
in any order; what it reaches, a `World` reaches (`world_after`).  The driver's state is the
driver's: whatever the clients write, outside of their own namespaces `/test/state` tells what was
set up, overlaid with what was emitted (`state_driven`).
-/

namespace Lumencast

open Machinery

/-- `StaticTokens.authenticate`; a token that is no string is not found, or not even hashable. -/
def authenticateToken (tokens : StaticTokens) : Json → Authentication
  | .str token =>
      match tokens.get? token with
      | some identity => .identity identity
      | none => .denied "auth: token invalid, expired, or revoked"
  | .arr _ => .raised
  | .obj _ => .raised
  | _ => .denied "auth: token invalid, expired, or revoked"

/-- The kit, the sessions and the control plane of one process. -/
structure Bench where
  plane : ControlPlane
  sessions : Heap Session := .blank default

/-- What happens next. -/
inductive BenchEvent where
  | request (r : Request)
  /-- The loop runs the oldest scheduled reset. -/
  | task
  | connect (requested : List PyStr)
  | wake (i : ℕ) (e : SessionEvent)

namespace Bench

/-- A process that has just started, with no tokens. -/
def start (hint : PyStr) : Bench where
  plane := { kit := {}, auth := some .empty, wsUrlHint := hint }

/-- Its kit and its sessions. -/
def world (b : Bench) : World := { kit := b.plane.kit, sessions := b.sessions }

def put (b : Bench) (w : World) : Bench where
  plane := { b.plane with kit := w.kit }
  sessions := w.sessions

section Step

variable [PyRepr]

/-- `StaticTokens` answers at once: a session that asks it does not suspend. -/
def settle (b : Bench) (i : ℕ) (w : World) : World :=
  match (w.sessions.get i).phase, b.plane.auth with
  | .authenticating f, some tokens =>
      w.step (.session i (.authenticated (authenticateToken tokens f.token)))
  | _, _ => w

def step (b : Bench) : BenchEvent → Bench
  | .request r => { b with plane := (b.plane.handle r).2 }
  | .task => b.put (b.world.step (.trusted .runTask))
  | .connect requested => b.put (b.world.step (.connect requested))
  | .wake i e => b.put (b.settle i (b.world.step (.session i e)))

/-- A run of a process that starts. -/
def after (hint : PyStr) (es : List BenchEvent) : Bench := run step (start hint) es

end Step

@[simp] theorem world_put (b : Bench) (w : World) : (b.put w).world = w := rfl

/-! ## What a bench reaches, a world reaches

A request is a few trusted calls that nothing comes between.  So whatever holds after every run
of a world holds of a bench. -/

variable [PyRepr]

/-- Trusted calls, as a run of a world. -/
theorem run_trusted (w : World) : ∀ ops : List Op, run World.step w (ops.map .trusted)
    = { kit := run Server.step w.kit ops, sessions := w.sessions }
  | [] => rfl
  | op :: ops => by
      rw [List.map_cons, run_cons, run_trusted _ ops]
      rfl

/-- **An event of a bench is a few events of its world.** -/
theorem world_step (b : Bench) (hwf : b.world.Wf) (e : BenchEvent) :
    ∃ fs, (b.step e).world = run World.step b.world fs := by
  rcases e with r | _ | requested | ⟨i, e⟩
  · obtain ⟨ops, hops⟩ := b.plane.runsTo_handle hwf.kit r
    refine ⟨ops.map .trusted, ?_⟩
    rw [run_trusted]
    exact World.mk.injEq .. ▸ ⟨hops, rfl⟩
  · exact ⟨[.trusted .runTask], rfl⟩
  · exact ⟨[.connect requested], rfl⟩
  · rw [step, world_put, settle]
    split
    · rename_i f tokens hphase hauth
      exact ⟨[.session i e, .session i (.authenticated (authenticateToken tokens f.token))], rfl⟩
    · exact ⟨[.session i e], rfl⟩

/-- **What a bench reaches, a world reaches**: whatever is requested, connected and woken up, and in
whatever order. -/
theorem world_after (hint : PyStr) (es : List BenchEvent) :
    ∃ fs, (after hint es).world = World.after fs := by
  induction es using List.reverseRecOn with
  | nil => exact ⟨[], rfl⟩
  | append_singleton es e ih =>
    obtain ⟨fs, hfs⟩ := ih
    obtain ⟨gs, hgs⟩ := world_step (after hint es) (hfs ▸ World.wf_after fs) e
    refine ⟨fs ++ gs, ?_⟩
    rw [after, run_concat]
    refine hgs.trans ?_
    rw [hfs, World.after, World.after, run_append]

theorem wf_after (hint : PyStr) (es : List BenchEvent) : (after hint es).world.Wf := by
  obtain ⟨fs, hfs⟩ := world_after hint es
  exact hfs ▸ World.wf_after fs

end Bench

/-! ## What a setup leaves, whatever it answers

The reset comes before the first bundle is looked at, so a setup that is rejected for it has
dropped everything already. -/

section SeedLeft

variable [PyRepr]

/-- What the scene that is active after a setup holds; `none` for a request that is rejected before
anything is cleared. -/
def seedLeft : Except PyStr Json → Option (Dict PyStr Json)
  | .ok (.obj body) =>
      match bundlesOf body with
      | .arr (.obj primary :: secondaries) =>
          some (if effectiveId primary = "" then .empty
            else (governing (effectiveId primary) secondaries).elim (stateOf body primary)
              fun _ => .empty)
      | .arr (_ :: _) => some .empty
      | _ => none
  | _ => none

namespace Server

/-- All that is registered under an id holds nothing yet. -/
def Untold (k : Server) : Prop := ∀ (id : PyStr) c, id ≠ "" → k.scenes.get? id = some c →
  c < k.objects.next ∧ (k.objects.get c).store.state = .empty

theorem untold_registerSecondaries : ∀ (secondaries : List Json) (k : Server), k.Untold →
    (secondaries.foldl registerSecondary k).Untold
  | [], _, h => h
  | secondary :: secondaries, k, h => by
      refine untold_registerSecondaries secondaries _ ?_
      unfold registerSecondary
      split
      · rename_i bundle
        intro id c hid hget
        rcases (get?_newScene ..).mp hget with ⟨rfl, rfl⟩ | ⟨-, hget⟩
        · rw [scene_newScene]
          exact ⟨Nat.lt_succ_self _, rfl⟩
        · obtain ⟨hlt, hempty⟩ := h id c hid hget
          rw [scene_newScene_of_ne _ _ _ _ hlt.ne]
          exact ⟨hlt.trans (Nat.lt_succ_self _), hempty⟩
      · exact h

/-- A primary bundle without an id is not what is active. -/
theorem untold_load {k : Server} (hint : PyStr) (body : List (PyStr × Json))
    {primary : List (PyStr × Json)} (secondaries : List Json) (hscenes : k.scenes = .empty)
    (hid : effectiveId primary = "") : (k.load hint body primary secondaries).2.Untold := by
  have hnone : ∀ {k' : Server}, k'.scenes = (k.scenes.set "" k.objects.next) → k'.Untold := by
    intro k' hk' id c hne hget
    rw [hk', hscenes, Dict.get?_set_of_ne _ _ hne] at hget
    cases hget
  rw [load]
  rcases specsOf primary with e | specs
  · intro id c hne hget
    rw [hscenes] at hget
    cases hget
  · dsimp only
    rw [hid]
    obtain ⟨k₁, hseed, -, hscenes₁, -⟩ := seedScene_eq
      (k := k.newScene "" (versionOf primary) specs true) (c := k.objects.next)
      (by rw [scene_newScene]; rfl) body primary
    rw [hseed]
    dsimp only
    split
    · exact hnone hscenes₁
    · rename_i active hactive
      refine untold_registerSecondaries secondaries active ?_
      rcases setActive_eq_ok hactive with rfl | ⟨hsame, -⟩
      · exact hnone hscenes₁
      · exact hnone (hsame.trans hscenes₁)

end Server

namespace ControlPlane

/-- **Whatever is active after a setup holds what the setup leaves.** -/
theorem state_of_setup {p : ControlPlane} {request : Except PyStr Json} {d : Dict PyStr Json}
    (h : seedLeft request = some d) {c : SceneRef}
    (hactive : (p.setup request).2.kit.activeScene = some c) :
    ((p.setup request).2.kit.objects.get c).store.state = d := by
  obtain ⟨hscenes, hinactive⟩ := p.kit.scenes_reset
  have hreset : p.kit.reset.activeScene = none := by rw [Server.activeScene, if_pos hinactive]
  rcases p.setup_cases request with ⟨body, primary, secondaries, rfl, hbundles, hsetup⟩ |
    ⟨body, first, rest, -, -, -, hsetup⟩ | ⟨hnone, -⟩
  · rw [seedLeft, hbundles, Option.some.injEq] at h
    rw [hsetup] at hactive ⊢
    change (p.kit.reset.load p.wsUrlHint body primary secondaries).2.activeScene = some c at hactive
    change ((p.kit.reset.load p.wsUrlHint body primary secondaries).2.objects.get c).store.state = d
    by_cases hid : effectiveId primary = ""
    · obtain ⟨hne, hget⟩ := Server.active_of_activeScene hactive
      rw [if_pos hid] at h
      rw [← h]
      exact (Server.untold_load p.wsUrlHint body secondaries hscenes hid _ c hne hget).2
    · rcases hspecs : specsOf primary with e | specs
      · rw [Server.load, hspecs] at hactive
        change p.kit.reset.activeScene = some c at hactive
        rw [hreset] at hactive
        cases hactive
      · obtain ⟨c', hscene, hobject⟩ :=
          Server.activeScene_load p.wsUrlHint body secondaries hscenes hinactive hspecs hid
        cases hactive.symm.trans hscene
        rw [hobject, ← h, if_neg hid]
        rcases governing (effectiveId primary) secondaries with _ | bundle
        · rfl
        · rfl
  · rw [hsetup] at hactive
    change p.kit.reset.activeScene = some c at hactive
    rw [hreset] at hactive
    cases hactive
  · unfold seedLeft at h
    split at h
    · rename_i body
      split at h
      · rename_i hbundles
        exact absurd hbundles (hnone body _ _ rfl)
      · rename_i hbundles
        exact absurd hbundles (hnone body _ _ rfl)
      · cases h
    · cases h

/-- A request that is rejected before anything is cleared changes nothing. -/
theorem setup_of_seedLeft_none {p : ControlPlane} {request : Except PyStr Json}
    (h : seedLeft request = none) : (p.setup request).2 = p := by
  rcases p.setup_cases request with ⟨body, primary, secondaries, rfl, hbundles, -⟩ |
    ⟨body, first, rest, rfl, hbundles, hobj, -⟩ | ⟨-, code, detail, hsetup⟩
  · rw [seedLeft, hbundles] at h
    cases h
  · rw [seedLeft, hbundles] at h
    cases first <;> cases h
  · rw [hsetup]

end ControlPlane

end SeedLeft

namespace Bench

/-! ## The driver's state

Clients write in two namespaces.  Outside of these the state is a matter of the requests alone,
which is why the harness can compare it with what it asked for. -/

section Driven

/-- Calls that leave the map of ids alone leave the active scene where it is. -/
theorem activeScene_step (k : Server) (op : Op) (h : Server.KeepsMap op) :
    (k.step op).activeScene = k.activeScene :=
  Server.activeScene_congr (Server.scenes_step k h).1 (Server.scenes_step k h).2

variable [PyRepr]

/-- What the driver makes of a request that is accepted: a setup starts anew, and an emission
overlays its patches. -/
def told (b : Bench) (d : Dict PyStr Json) : BenchEvent → Dict PyStr Json
  | .request (.setup body) => (seedLeft body).getD d
  | .request (.emit body) =>
      match ControlPlane.patchesOf body, (b.plane.emit body).1 with
      | some patches, .noContent => d.update patches.entries
      | _, _ => d
  | _ => d

/-- A bench next to what its driver was told. -/
def observe (x : Bench × Dict PyStr Json) (e : BenchEvent) : Bench × Dict PyStr Json :=
  (x.1.step e, x.1.told x.2 e)

theorem fst_run_observe (hint : PyStr) (d : Dict PyStr Json) (es : List BenchEvent) :
    (run observe (start hint, d) es).1 = after hint es :=
  map_run (f := Prod.fst) (fun _ _ => rfl) es (start hint, d)

/-- What is active holds what the driver was told, where clients do not write. -/
def Driven (x : Bench × Dict PyStr Json) : Prop :=
  ∀ c, x.1.plane.kit.activeScene = some c → ∀ path, hasPrefix path "__inputs" = false →
    hasPrefix path "__test" = false →
    (x.1.plane.kit.objects.get c).store.state.get? path = x.2.get? path

/-- A client switches nothing… -/
theorem activeScene_serve (w : World) (e : ClientEvent) :
    (w.serve e).kit.activeScene = w.kit.activeScene := by
  have hkit := World.kit_step w e.toEvent
  rw [World.serve, hkit]
  rcases hop : w.opOf e.toEvent with _ | op
  · rfl
  · refine activeScene_step w.kit _ ?_
    rcases e with requested | ⟨i, e⟩
    · cases hop
    · rw [ClientEvent.toEvent, World.opOf, Option.bind_eq_some_iff] at hop
      obtain ⟨⟨call, s⟩, -, hcall⟩ := hop
      obtain ⟨call', -, rfl⟩ := Option.map_eq_some_iff.mp hcall
      cases call' <;> trivial

/-- …and writes only where clients do. -/
theorem driven_serve {b : Bench} {d : Dict PyStr Json} {w : World} (hwf : w.Wf)
    (h : Driven (b.put w, d)) (e : ClientEvent) : Driven (b.put (w.serve e), d) := by
  intro c hactive path hinputs htest
  have hactive' : w.kit.activeScene = some c := (activeScene_serve w e).symm.trans hactive
  refine (World.get?_serve_of_outside hwf e hinputs htest c).trans ?_
  exact h c hactive' path hinputs htest

theorem driven_request {b : Bench} {d : Dict PyStr Json} (h : Driven (b, d)) (r : Request) :
    Driven (b.step (.request r), b.told d (.request r)) := by
  rcases r with body | _ | _ | body | _
  · intro c hactive path hinputs htest
    rcases hseed : seedLeft body with _ | state
    · have hsame : (b.plane.setup body).2 = b.plane := ControlPlane.setup_of_seedLeft_none hseed
      have htold : b.told d (.request (.setup body)) = d := by rw [told, hseed, Option.getD_none]
      change (b.plane.setup body).2.kit.activeScene = some c at hactive
      change (((b.plane.setup body).2.kit.objects.get c).store.state).get? path = _
      rw [htold]
      rw [hsame] at hactive ⊢
      exact h c hactive path hinputs htest
    · have htold : b.told d (.request (.setup body)) = state := by
        rw [told, hseed, Option.getD_some]
      rw [htold]
      exact congrArg (Dict.get? · path) (ControlPlane.state_of_setup hseed hactive)
  · intro c hactive
    have hnone : b.plane.kit.reset.activeScene = none := by
      rw [Server.activeScene, if_pos b.plane.kit.scenes_reset.2]
    cases hnone.symm.trans hactive
  · change Driven ({ b with plane := b.plane.state.2 }, d)
    have hsame : b.plane.state.2 = b.plane := by
      rw [ControlPlane.state]
      split <;> rfl
    rw [hsame]
    exact h
  · intro c hactive path hinputs htest
    change ((b.plane.emit body).2.kit).activeScene = some c at hactive
    change ((b.plane.emit body).2.kit.objects.get c).store.state.get? path = _
    rcases b.plane.emit_cases body with ⟨patches, c', hpatches, -, hc', hemit⟩ | ⟨hnot, hne, hsame⟩
    · have htold : b.told d (.request (.emit body)) = d.update patches.entries := by
        rw [told, hpatches, hemit]
      rw [hemit] at hactive ⊢
      have hcc : c = c' := Option.some.inj (hactive.symm.trans hc')
      subst hcc
      rw [htold]
      change ((b.plane.kit.post c patches none).objects.get c).store.state.get? path = _
      rw [Server.scene_post, if_pos rfl]
      change ((b.plane.kit.objects.get c).store.state.update patches.entries).get? path = _
      rw [Dict.get?_update _ _ _ patches.nodup, Dict.get?_update _ _ _ patches.nodup,
        h c hc' path hinputs htest]
    · have htold : b.told d (.request (.emit body)) = d := by
        rw [told]
        split
        · rename_i hok
          exact absurd hok hne
        · rfl
      rw [hsame] at hactive ⊢
      rw [htold]
      exact h c hactive path hinputs htest
  · exact h

theorem driven_step {b : Bench} {d : Dict PyStr Json} (hwf : b.world.Wf)
    (hretires : b.plane.kit.Retires) (h : Driven (b, d)) (e : BenchEvent) :
    Driven (observe (b, d) e) := by
  rcases e with r | _ | requested | ⟨i, e⟩
  · exact driven_request h r
  · intro c hactive path hinputs htest
    have hactive' : b.plane.kit.activeScene = some c :=
      (activeScene_step b.plane.kit .runTask trivial).symm.trans hactive
    have hsame := Server.scene_runTask hretires (Server.registered_of_activeScene hactive')
    change (b.plane.kit.runTask.objects.get c).store.state.get? path = _
    rw [hsame]
    exact h c hactive' path hinputs htest
  · exact driven_serve (b := b) hwf h (.connect requested)
  · have hone : Driven (b.put (b.world.step (.session i e)), d) :=
      driven_serve (b := b) hwf h (.session i e)
    change Driven (b.put (b.settle i (b.world.step (.session i e))), d)
    rw [settle]
    split
    · exact driven_serve (World.wf_step _ _ hwf) hone (.session i _)
    · exact hone

/-- **The driver's state is the driver's.**  Whatever is requested, connected and woken up, in
whatever order: outside of the two namespaces clients write in, `/test/state` tells what the last
setup left, overlaid with what was emitted since. -/
theorem state_driven (hint : PyStr) (es : List BenchEvent) {id version : PyStr}
    {state : Dict PyStr Json}
    (h : ((after hint es).plane.handle .state).1 = .state id version state) {path : PyStr}
    (hinputs : hasPrefix path "__inputs" = false) (htest : hasPrefix path "__test" = false) :
    state.get? path = (run observe (start hint, .empty) es).2.get? path := by
  have hdriven : ∀ es, Driven (after hint es, (run observe (start hint, .empty) es).2) := by
    intro es
    induction es using List.reverseRecOn with
    | nil => exact fun c hactive => by cases hactive
    | append_singleton es e ih =>
      obtain ⟨fs, hfs⟩ := world_after hint es
      obtain ⟨ops, hops⟩ := World.kit_after fs
      have hkit : (after hint es).plane.kit = Server.after ops :=
        (congrArg World.kit hfs).trans hops
      have hstep := driven_step (wf_after hint es) (hkit ▸ Server.retires_after ops) ih e
      rw [after, run_concat, run_concat, observe, fst_run_observe]
      exact hstep
  obtain ⟨c, hactive, rfl⟩ := ControlPlane.active_of_state h
  exact hdriven es c hactive path hinputs htest

end Driven

/-- The driver sets a scene up and emits on it, and an operator writes beside it. -/
def driverRun : List BenchEvent :=
  [.request (.setup (.ok (.obj
      [("bundles", .arr [.obj [("id", .str "main"), ("hash", .str "h1"),
        ("inline", .obj [("defaults", .obj [("score", .int 0)])])]]),
      ("tokens", .obj [("$TOKEN_OPERATOR", .str "t"), ("$TOKEN_INVALID", .str "u")])]))),
    .connect ["lsdp.v1"], .wake 0 (.sent true),
    .wake 0 (.received (.frame (.subscribe { token := .str "t" }))), .wake 0 (.sent true),
    .wake 0 (.received (.frame (.input { patches := [⟨"__inputs.x", .int 5, none⟩] }))),
    .request (.emit (.ok (.obj
      [("patches", .arr [.obj [("path", .str "score"), ("value", .int 1)]])])))]

def driverState : Dict PyStr Json := ⟨[("score", .int 1), ("__inputs.x", .int 5)], by decide⟩

theorem state_driven_driverRun :
    driverState.get? "score"
      = (run (@observe .plain) (start "ws", .empty) driverRun).2.get? "score" :=
  @state_driven .plain "ws" driverRun "main" "h1" driverState rfl "score" (by decide) (by decide)

end Bench

end Lumencast
