import Lumencast.Interop.Bench
import Lumencast.Sessions.Epochs
import Lumencast.Sessions.Graft

/-!
# Interop/Hermetic — each setup starts afresh

Between two scenarios the driver resets the server or sets it up anew, while clients of the last
scenario may still be connected and resets may still be scheduled.  None of that shows: what is
requested from then on is answered, and whoever attaches from then on is sent, what a process that
has just started answers and sends (`hermetic`).
-/

namespace Lumencast

open Machinery

/-! ## Requests to the kit behind

The handlers of the control plane, one after another, as methods of a kit with something left in
front of it. -/

namespace Server

variable {old k : Server}

/-- What holds of every kit that is reached. -/
structure Sound (k : Server) : Prop where
  wf : k.Wf
  retires : k.Retires

theorem Sound.contained (h : k.Sound) : k.Contained := ⟨h.wf.owned_lt, h.retires.tasks_lt⟩

theorem Sound.step (h : k.Sound) (op : Op) : (k.step op).Sound :=
  ⟨wf_step k op h.wf, h.retires.step h.wf op⟩

theorem Sound.runsTo {k' : Server} (h : k.Sound) (hruns : k.RunsTo k') : k'.Sound := by
  obtain ⟨ops, rfl⟩ := hruns
  exact run_invariant h (fun _ op h => h.step op) ops

theorem sound_empty : ({} : Server).Sound := ⟨wf_empty, retires_after []⟩

theorem seedScene_graft (hk : k.Contained) {c : SceneRef} (hc : c < k.objects.next)
    (state : Option (List (PyStr × Json))) :
    (old.graft k).seedScene (old.objects.next + c) state = (k.seedScene c state).map old.graft := by
  rcases state with _ | state
  · rfl
  · have hset := @Scene.set_relocate old (k.objects.get c) k.subs (hk.owned_lt c)
      (Dict.ofList state)
    rw [seedScene, seedScene, scene_graft hc]
    change (((k.objects.get c).relocate old.base).set (old.behind k.subs) _).map _ = _
    rw [hset]
    rcases (k.objects.get c).set k.subs (Dict.ofList state) with e | st
    · rfl
    · exact congrArg Except.ok (onScene_graft hc rfl)

variable [PyRepr]

theorem registerSecondaries_graft : ∀ (secondaries : List Json) (k : Server),
    secondaries.foldl registerSecondary (old.graft k)
      = old.graft (secondaries.foldl registerSecondary k)
  | [], _ => rfl
  | secondary :: secondaries, k => by
      have hone : (old.graft k).registerSecondary secondary
          = old.graft (k.registerSecondary secondary) := by
        unfold registerSecondary
        split
        · exact newScene_graft ..
        · rfl
      rw [List.foldl_cons, hone]
      exact registerSecondaries_graft secondaries _

theorem load_graft (hk : k.Sound) (hint : PyStr) (body primary : List (PyStr × Json))
    (secondaries : List Json) : (old.graft k).load hint body primary secondaries
      = ((k.load hint body primary secondaries).1,
        old.graft (k.load hint body primary secondaries).2) := by
  rw [load, load]
  rcases specsOf primary with e | specs
  · rfl
  · have hregistered : (k.newScene (effectiveId primary) (versionOf primary) specs true).Sound :=
      hk.step (.newScene (effectiveId primary) (versionOf primary) specs true)
    have hlt : k.objects.next
        < (k.newScene (effectiveId primary) (versionOf primary) specs true).objects.next :=
      Nat.lt_succ_self _
    dsimp only
    rw [newScene_graft]
    generalize k.newScene (effectiveId primary) (versionOf primary) specs true = registered
      at hregistered hlt
    have hseed : (old.graft registered).seedScene (old.graft k).objects.next (seedOf body primary)
        = (registered.seedScene k.objects.next (seedOf body primary)).map old.graft :=
      seedScene_graft hregistered.contained hlt _
    rw [hseed]
    rcases hseeded : registered.seedScene k.objects.next (seedOf body primary) with e | seeded
    · rcases e with _ | _ | _ | _
      all_goals rfl
    · have hsound : seeded.Sound := hregistered.runsTo (runsTo_seedScene hlt _ hseeded)
      have hactive := @setActive_graft old seeded hsound.contained hsound.wf.registered_lt
        (effectiveId primary)
      dsimp only [Except.map]
      rw [hactive]
      rcases seeded.setActive (effectiveId primary) with e | active
      · rfl
      · exact Prod.ext rfl (registerSecondaries_graft secondaries active)

end Server

/-- The request drops all that is registered: it is a reset, or a setup that names a bundle. -/
def Request.Clears [PyRepr] : Request → Prop
  | .reset => True
  | .setup body => (seedLeft body).isSome = true
  | _ => False

namespace ControlPlane

/-- A control plane whose kit has something left in front of it. -/
def graft (old : Server) (p : ControlPlane) : ControlPlane := { p with kit := old.graft p.kit }

variable {old : Server} {p : ControlPlane}

/-- Two control planes of one process whose kits agree. -/
theorem with_kit {k k' : Server} (h : k = k') :
    ({ p with kit := k } : ControlPlane) = { p with kit := k' } := by rw [h]

theorem cleared_graft (hp : p.kit.Sound) (body : List (PyStr × Json)) :
    (p.graft old).cleared body = (p.cleared body).graft old :=
  @with_kit (p.cleared body) _ _ (Server.reset_graft hp.contained hp.wf.registered_lt)

theorem state_graft (hp : p.kit.Sound) :
    (p.graft old).state = (p.state.1, p.state.2.graft old) := by
  have hactive : (p.graft old).kit.activeScene
      = p.kit.activeScene.map (old.objects.next + ·) := Server.activeScene_graft
  rw [state, state, hactive]
  rcases hc : p.kit.activeScene with _ | c
  · rfl
  · have hscene : (p.graft old).kit.objects.get (old.objects.next + c)
        = (p.kit.objects.get c).relocate old.base :=
      Server.scene_graft (hp.wf.registered_lt c (Server.registered_of_activeScene hc))
    dsimp only [Option.map_some]
    rw [hscene]
    rfl

section Handlers

variable [PyRepr]

/-- A setup does to what it has cleared what it does to a kit with nothing in front of it. -/
theorem setup_of_cleared {p p' : ControlPlane} {body : List (PyStr × Json)}
    (hclear : p.cleared body = (p'.cleared body).graft old) (hhint : p.wsUrlHint = p'.wsUrlHint)
    (hsound : (p'.cleared body).kit.Sound)
    (hmissing : (∀ x xs, bundlesOf body ≠ .arr (x :: xs)) → p = p'.graft old) :
    p.setup (.ok (.obj body))
      = ((p'.setup (.ok (.obj body))).1, (p'.setup (.ok (.obj body))).2.graft old) := by
  have hkit : (p.cleared body).kit = old.graft (p'.cleared body).kit :=
    congrArg ControlPlane.kit hclear
  rw [setup, setup]
  split
  · rename_i primary secondaries _
    have hload := @Server.load_graft old (p'.cleared body).kit _ hsound p'.wsUrlHint body primary
      secondaries
    dsimp only
    rw [hkit, hhint, hload, hclear]
    rfl
  · rw [hclear]
  · rename_i hobject hother
    refine Prod.ext rfl (hmissing fun x xs hbundles => ?_)
    cases x with
    | obj primary => exact hobject primary xs hbundles
    | _ => exact hother _ xs hbundles

theorem setup_graft (hp : p.kit.Sound) (body : Except PyStr Json) :
    (p.graft old).setup body = ((p.setup body).1, (p.setup body).2.graft old) := by
  rcases body with e | body
  · rfl
  · cases body with
    | obj body =>
      exact setup_of_cleared (cleared_graft hp body) rfl (hp.step .reset) fun _ => rfl
    | _ => rfl

theorem emit_graft (hp : p.kit.Sound) (body : Except PyStr Json) :
    (p.graft old).emit body = ((p.emit body).1, (p.emit body).2.graft old) := by
  have hactive : (p.graft old).kit.activeScene
      = p.kit.activeScene.map (old.objects.next + ·) := Server.activeScene_graft
  rcases body with e | body
  · rfl
  · cases body with
    | obj body =>
      rw [emit, emit, hactive]
      rcases (Json.lookup body "patches").getD .null with _ | _ | _ | _ | _ | _ | _
      case arr xs =>
        rcases xs with _ | ⟨first, rest⟩
        · rfl
        · dsimp only
          rcases readPatches (first :: rest) with _ | entries
          · rfl
          · rcases hc : p.kit.activeScene with _ | c
            · rfl
            · have hlt := hp.wf.registered_lt c (Server.registered_of_activeScene hc)
              have hemit : ((p.graft old).kit.objects.get (old.objects.next + c)).emit
                  (p.graft old).kit.subs (Dict.ofList entries) none
                    = ((p.kit.objects.get c).emit p.kit.subs (Dict.ofList entries) none).map
                      old.relocated := by
                have hscene : (p.graft old).kit.objects.get (old.objects.next + c)
                    = (p.kit.objects.get c).relocate old.base := Server.scene_graft hlt
                rw [hscene]
                exact Scene.emit_relocate (hp.wf.owned_lt c) ..
              dsimp only [Option.map_some]
              rw [hemit]
              rcases (p.kit.objects.get c).emit p.kit.subs (Dict.ofList entries) none with e | st
              · rcases e with _ | _ | _ | _
                all_goals rfl
              · exact Prod.ext rfl (@with_kit p _ _ (@Server.onScene_graft old p.kit c hlt
                  (fun _ => st) (fun _ => old.relocated st) rfl))
      all_goals rfl
    | _ => rfl

/-- **A request is answered behind as it is in front.** -/
theorem handle_graft (hp : p.kit.Sound) (r : Request) :
    (p.graft old).handle r = ((p.handle r).1, (p.handle r).2.graft old) := by
  cases r with
  | setup body =>
    rw [handle, handle, setup_graft hp]
  | reset =>
    exact Prod.ext rfl (@with_kit p.reset.2 _ _
      (Server.reset_graft hp.contained hp.wf.registered_lt))
  | state => exact state_graft hp
  | emit body => exact emit_graft hp body
  | health => rfl

/-- A control plane of a process that has just started. -/
def afresh (p : ControlPlane) : ControlPlane :=
  { kit := {}, auth := some .empty, wsUrlHint := p.wsUrlHint }

/-- **A request that clears the kit** leaves what it would leave of a fresh one, behind what is left
of the kit. -/
theorem handle_of_clears (hauth : p.auth.isSome = true) {r : Request} (hr : r.Clears) :
    p.handle r = ((p.afresh.handle r).1, (p.afresh.handle r).2.graft p.kit.reset) := by
  obtain ⟨tokens, htokens⟩ := Option.isSome_iff_exists.mp hauth
  have hcleared (auth : StaticTokens) :
      ({ p with kit := p.kit.reset, auth := p.auth.map fun _ => auth } : ControlPlane)
        = ({ p.afresh with kit := ({} : Server).reset, auth := some auth } : ControlPlane).graft
          p.kit.reset := by
    rw [htokens]
    exact @with_kit { p with auth := some auth } _ _ p.kit.graft_reset
  cases r with
  | reset => exact Prod.ext rfl (hcleared .empty)
  | setup body =>
    rcases body with e | body
    · cases hr
    · cases body with
      | obj body =>
        have hclear : p.cleared body = (p.afresh.cleared body).graft p.kit.reset := hcleared _
        have hsetup := setup_of_cleared hclear rfl Server.sound_empty fun hmissing => by
          rw [Request.Clears, seedLeft] at hr
          split at hr
          · rename_i hbundles
            exact absurd hbundles (hmissing _ _)
          · rename_i hbundles
            exact absurd hbundles (hmissing _ _)
          · cases hr
        rw [handle, handle, hsetup]
      | _ => cases hr
  | _ => cases hr

end Handlers

end ControlPlane

/-! ## Two benches side by side

The second bench is a process that starts when the first is reset.  The resets that are still
scheduled then belong to what is left, and may run at any time after it. -/

namespace World

variable [PyRepr]

/-- A client without a subscription was sent nothing that a scene has numbered. -/
theorem unnumbered_after (es : List Event) (i : ℕ) :
    ((after es).sessions.get i).phase.sub? = none →
      ∀ x ∈ ((after es).sessions.get i).written, x.issuer = none := by
  induction es using List.reverseRecOn with
  | nil => exact fun _ _ hx => absurd hx List.not_mem_nil
  | append_singleton es e ih =>
    rw [after, run_concat]
    change (((after es).step e).sessions.get i).phase.sub? = none → _
    rcases ((after es).did e).session_cases i with hsame | ⟨requested, hnew, -⟩ |
      ⟨a, call, s, -, hstep, hs, -⟩
    · rw [← after, hsame]
      exact ih
    · rw [← after, hnew]
      exact fun _ _ hx => absurd hx List.not_mem_nil
    · rw [← after, hs]
      intro hsub x hx
      rcases (Session.did hstep).kept_or_attached with ⟨hkept, -⟩ | ⟨f, identity, c, -, -, hl, -⟩
      · have hold : ((after es).sessions.get i).phase.sub? = none := hkept ▸ hsub
        rcases Session.issues_step? hstep x hx with hx | hissued
        · exact ih hold x hx
        · refine Option.eq_none_iff_forall_ne_some.mpr fun c hc => ?_
          rcases hissued c hc with ⟨l, hl, -⟩ | ⟨l, -, hl, -⟩
          · rw [Phase.sub?_of_locals? hl] at hsub
            cases hsub
          · rw [Phase.sub?_of_locals? hl] at hold
            cases hold
      · rw [Phase.sub?_of_locals? hl] at hsub
        cases hsub

end World

namespace Bench

/-- A process that has just started, with the connections that are not attached. -/
def afresh (b : Bench) : Bench where
  plane := b.plane.afresh
  sessions :=
    { get := fun i => if (b.sessions.get i).phase.sub?.isSome then default else b.sessions.get i
      next := b.sessions.next }

/-- A run in which the loop has run the oldest `n` scheduled resets already. -/
def dropTasks : ℕ → List BenchEvent → List BenchEvent
  | _, [] => []
  | n, .task :: fs => if n = 0 then .task :: dropTasks 0 fs else dropTasks (n - 1) fs
  | n, e :: fs => e :: dropTasks n fs

theorem dropTasks_cons (n : ℕ) {e : BenchEvent} (he : e ≠ .task) (fs : List BenchEvent) :
    dropTasks n (e :: fs) = e :: dropTasks n fs := by
  cases e with
  | task => exact absurd rfl he
  | _ => rfl

/-- The bench `b` is `b'` with `old` in front of its kit, to which the sessions `out` belong. -/
structure Beside (out : ℕ → Prop) (old : Server) (b b' : Bench) : Prop where
  plane : b.plane = b'.plane.graft old
  world : World.Beside out old b.world b'.world

variable {out : ℕ → Prop} {old : Server} {b b' : Bench}

theorem Beside.sound (h : Beside out old b b') : b'.plane.kit.Sound :=
  ⟨h.world.wf.kit, h.world.retires⟩

theorem Beside.put {old' : Server} {w w' : World} (h : Beside out old b b')
    (hw : World.Beside out old' w w') : Beside out old' (b.put w) (b'.put w') where
  plane := by
    rw [Bench.put, h.plane, hw.kit]
    rfl
  world := hw

variable [PyRepr]

/-- Tokens are looked up at once, in both. -/
theorem Beside.settle {w w' : World} (h : Beside out old b b') (hw : World.Beside out old w w')
    (i : ℕ) : ∃ old', World.Beside out old' (b.settle i w) (b'.settle i w') ∧
      old'.tasks = old.tasks := by
  have hauth : b.plane.auth = b'.plane.auth := by
    rw [h.plane]
    rfl
  by_cases hi : out i
  · have hright : b'.settle i w' = w' := by
      rw [Bench.settle, hw.gone i hi]
    have hleft : b.settle i w = w := by
      unfold Bench.settle
      split
      · rename_i f tokens hphase _
        exact absurd (by rw [hphase]; rfl) (hw.has_sub i hi)
      · rfl
    rw [hleft, hright]
    exact ⟨old, hw, rfl⟩
  · have hphase : (w.sessions.get i).phase = (w'.sessions.get i).phase.relocate old.base :=
      congrArg Session.phase (hw.inside i hi)
    rw [Bench.settle, Bench.settle, hphase, hauth]
    rcases (w'.sessions.get i).phase with _ | _ | _ | f | _ | _ | ⟨l, rest⟩ | ⟨l, ls⟩ | sub
    case authenticating =>
      rcases b'.plane.auth with _ | tokens
      · exact ⟨old, hw, rfl⟩
      · exact hw.session i _
    all_goals exact ⟨old, hw, rfl⟩

/-- **What happens to one bench happens to the other**, but for the resets of what is left. -/
theorem Beside.step (h : Beside out old b b') {e : BenchEvent} (he : e ≠ .task) :
    ∃ old', Beside out old' (b.step e) (b'.step e) ∧ old'.tasks = old.tasks := by
  cases e with
  | task => exact absurd rfl he
  | request r =>
    have hhandle := @ControlPlane.handle_graft old b'.plane _ h.sound r
    rw [← h.plane] at hhandle
    have hplane : (b.plane.handle r).2 = (b'.plane.handle r).2.graft old :=
      congrArg Prod.snd hhandle
    have hsound := h.sound.runsTo (b'.plane.runsTo_handle h.sound.wf r)
    obtain ⟨fs, hfs⟩ := b'.world_step h.world.wf (.request r)
    have hwf : (b'.step (.request r)).world.Wf := by
      rw [hfs]
      exact run_invariant h.world.wf World.wf_step fs
    exact ⟨old, ⟨hplane, h.world.contained, congrArg ControlPlane.kit hplane, hwf, hsound.retires,
      h.world.next, h.world.inside, h.world.gone, h.world.refs, h.world.has_sub,
      h.world.out_lt⟩, rfl⟩
  | connect requested => exact ⟨old, h.put (h.world.connect requested), rfl⟩
  | wake i e =>
    obtain ⟨old', hw, htasks⟩ := h.world.session i e
    obtain ⟨old'', hw', htasks'⟩ := (h.put hw).settle hw i
    exact ⟨old'', h.put hw', htasks'.trans htasks⟩

theorem beside_run (fs : List BenchEvent) : ∀ {old : Server} {b b' : Bench},
    Beside out old b b' → ∃ old',
      Beside out old' (run step b fs) (run step b' (dropTasks old.tasks.length fs)) := by
  induction fs with
  | nil => exact fun h => ⟨_, h⟩
  | cons e fs ih =>
    intro old b b' h
    by_cases he : e = .task
    · subst he
      obtain ⟨old', htasks, hw⟩ := h.world.task
      have hrest := ih (h.put hw)
      rw [htasks, List.length_tail] at hrest
      rw [dropTasks]
      by_cases hold : old.tasks = []
      · rw [if_pos hold] at hrest
        rw [if_pos (List.length_eq_zero_iff.mpr hold)]
        rw [hold] at hrest
        exact hrest
      · rw [if_neg hold] at hrest
        rw [if_neg (mt List.length_eq_zero_iff.mp hold)]
        exact hrest
    · obtain ⟨old', hstep, htasks⟩ := h.step he
      rw [dropTasks_cons _ he, ← htasks]
      exact ih hstep

end Bench

theorem ControlPlane.isSome_auth_handle [PyRepr] (p : ControlPlane) (r : Request) :
    (p.handle r).2.auth.isSome = p.auth.isSome := by
  cases r with
  | setup body =>
    rw [handle, setup.eq_def]
    split
    · rfl
    · split
      · exact Option.isSome_map
      · exact Option.isSome_map
      · rfl
    · rfl
  | reset => exact Option.isSome_map
  | state =>
    rw [handle, state]
    split <;> rfl
  | emit body =>
    rcases emit_cases p body with ⟨patches, c, -, -, -, h⟩ | ⟨-, -, h⟩
    · rw [handle, h]
    · rw [handle, h]
  | health => rfl

namespace Session

/-- A session that holds nothing is the same wherever its kit begins. -/
theorem relocate_eq_self {s : Session} (b : Base) (hsub : s.phase.sub? = none)
    (hwritten : ∀ x ∈ s.written, x.issuer = none) : s.relocate b = s := by
  obtain ⟨phase, written⟩ := s
  have hphase : phase.relocate b = phase := by
    cases phase with
    | initial l rest => cases hsub
    | running l ls => cases hsub
    | ended sub =>
      cases sub with
      | none => rfl
      | some r => cases hsub
    | _ => rfl
  have hsame : written.map (Sent.relocate b) = written := by
    refine (List.map_congr_left fun x hx => ?_).trans (List.map_id _)
    obtain ⟨frame, issuer⟩ := x
    obtain rfl : issuer = none := hwritten _ hx
    rfl
  simp only [relocate, hphase, hsame]

end Session

namespace Bench

theorem wf_afresh {b : Bench} (hwf : b.world.Wf) : b.afresh.world.Wf := by
  have hsub (i : ℕ) : (b.afresh.world.sessions.get i).phase.sub? = none := by
    change (if _ then (default : Session) else b.sessions.get i).phase.sub? = none
    split
    · rfl
    · rename_i hnone
      exact Option.not_isSome_iff_eq_none.mp hnone
  refine ⟨Server.wf_empty, fun i r hr => ?_, fun i j r hr _ => ?_, fun i l hl => ?_, fun i hi => ?_⟩
  · rw [hsub] at hr
    cases hr
  · rw [hsub] at hr
    cases hr
  · have hr := Phase.sub?_of_locals? hl
    rw [hsub] at hr
    cases hr
  · change (if _ then (default : Session) else b.sessions.get i).phase = _
    split
    · rfl
    · exact hwf.blank i hi

variable [PyRepr]

theorem isSome_auth_after (hint : PyStr) (es : List BenchEvent) :
    (after hint es).plane.auth.isSome = true := by
  refine @run_invariant _ _ step (fun b => b.plane.auth.isSome = true) _ rfl (fun b e hb => ?_) es
  cases e with
  | request r => exact (b.plane.isSome_auth_handle r).trans hb
  | _ => exact hb

theorem sound_after (hint : PyStr) (es : List BenchEvent) : (after hint es).plane.kit.Sound := by
  obtain ⟨fs, hfs⟩ := world_after hint es
  obtain ⟨ops, hops⟩ := World.kit_after fs
  have hkit : (after hint es).plane.kit = Server.after ops :=
    (congrArg World.kit hfs).trans hops
  rw [hkit]
  exact ⟨Server.wf_after ops, Server.retires_after ops⟩

/-- A request that clears the kit puts two benches side by side: what is left, and a process that
has just started. -/
theorem beside_of_clears (hint : PyStr) (es : List BenchEvent) {r : Request} (hr : r.Clears) :
    Beside (fun i => ((after hint es).sessions.get i).phase.sub? ≠ none)
      (after hint es).plane.kit.reset ((after hint es).step (.request r))
      ((after hint es).afresh.step (.request r)) := by
  have hsound := sound_after hint es
  have hwf := wf_after hint es
  have hreset : (after hint es).plane.kit.reset.Sound := hsound.step .reset
  have hplane := congrArg Prod.snd
    (ControlPlane.handle_of_clears (isSome_auth_after hint es) hr)
  have hfresh : ((after hint es).afresh.step (.request r)).plane.kit.Sound :=
    Server.sound_empty.runsTo ((after hint es).plane.afresh.runsTo_handle Server.wf_empty r)
  obtain ⟨fs, hfs⟩ := (after hint es).afresh.world_step (wf_afresh hwf) (.request r)
  have hnext := Server.next_le_step (after hint es).plane.kit .reset
  refine ⟨hplane, hreset.contained, congrArg ControlPlane.kit hplane, ?_, hfresh.retires, rfl,
    fun i hi => ?_, fun i hi => ?_, fun i hi => ?_, fun _ => id, fun i hi => ?_⟩
  · rw [hfs]
    exact run_invariant (wf_afresh hwf) World.wf_step fs
  · have hsub : ((after hint es).sessions.get i).phase.sub? = none := not_not.mp hi
    obtain ⟨gs, hgs⟩ := world_after hint es
    have hsessions : (after hint es).sessions = (World.after gs).sessions :=
      congrArg World.sessions hgs
    change (after hint es).sessions.get i
      = (if ((after hint es).sessions.get i).phase.sub?.isSome then default
        else (after hint es).sessions.get i).relocate _
    rw [if_neg (by rw [hsub]; decide)]
    refine (Session.relocate_eq_self _ hsub ?_).symm
    rw [hsessions] at hsub ⊢
    exact World.unnumbered_after gs i hsub
  · change (if ((after hint es).sessions.get i).phase.sub?.isSome then (default : Session)
      else (after hint es).sessions.get i).phase = .ended none
    rw [if_pos (Option.isSome_iff_ne_none.mpr hi)]
    rfl
  · exact ⟨fun l hl => (hwf.scene_lt i l hl).trans_le hnext.1,
      fun r hr => (hwf.sub_lt i r hr).trans_le hnext.2⟩
  · by_contra hle
    exact hi (congrArg Phase.sub? (hwf.blank i (not_lt.mp hle)))

/-- **Each setup starts afresh**: once a request has cleared the kit, every request is answered, and
every client that was not attached yet is sent, what they would be if the process had just started;
whatever happened before, whatever the clients of then still do, and whatever the resets that were
scheduled then still do. -/
theorem hermetic (hint : PyStr) (es : List BenchEvent) {r : Request} (hr : r.Clears)
    (fs : List BenchEvent) :
    ((after hint es).plane.handle r).1 = ((after hint es).afresh.plane.handle r).1 ∧
    (∀ q, ((run step (after hint es) (.request r :: fs)).plane.handle q).1
      = ((run step (after hint es).afresh
        (.request r :: dropTasks (after hint es).plane.kit.tasks.length fs)).plane.handle q).1) ∧
    ∀ i, ((after hint es).sessions.get i).phase.sub? = none →
      ((run step (after hint es) (.request r :: fs)).sessions.get i).frames
        = ((run step (after hint es).afresh
          (.request r :: dropTasks (after hint es).plane.kit.tasks.length fs)).sessions.get
            i).frames := by
  have htasks : (after hint es).plane.kit.reset.tasks = (after hint es).plane.kit.tasks :=
    (Server.tasks_foldl_onScene (fun st => st.1.reset st.2) _ _).1
  obtain ⟨old, hbeside⟩ := beside_run fs (beside_of_clears hint es hr)
  rw [htasks] at hbeside
  have hfirst := ControlPlane.handle_of_clears (isSome_auth_after hint es) hr
  refine ⟨(Prod.ext_iff.mp hfirst).1, fun q => ?_, fun i hi => ?_⟩
  · have hhandle := @ControlPlane.handle_graft old _ _ hbeside.sound q
    rw [← hbeside.plane] at hhandle
    exact (Prod.ext_iff.mp hhandle).1
  · have hinside := hbeside.world.inside i (not_not.mpr hi)
    exact (congrArg Session.frames hinside).trans (Session.frames_relocate _ _)

end Bench

namespace Bench

/-- Another bundle, for another scenario. -/
def secondSetup : Request := .setup (.ok (.obj
  [("bundles", .arr [.obj [("id", .str "next"), ("hash", .str "h2"),
    ("inline", .obj [("defaults", .obj [("score", .int 7)])])]]),
  ("tokens", .obj [("$TOKEN_VIEWER", .str "v")])]))

/-- The client of the first scenario goes on, and another one connects. -/
def secondRun : List BenchEvent :=
  [.wake 0 (.received (.frame (.input { patches := [⟨"__inputs.x", .int 6, none⟩] }))),
    .connect ["lsdp.v1"], .wake 1 (.sent true),
    .wake 1 (.received (.frame (.subscribe { token := .str "v" })))]

theorem hermetic_secondRun :
    ((run (@step .plain) (@after .plain "ws" driverRun)
      (.request secondSetup :: secondRun)).sessions.get 1).frames
      = [.snapshot
          { sceneId := .str "next"
            sceneVersion := .str "h2"
            state := ⟨[("score", .int 7)], by decide⟩
            seq := 1 }] :=
  ((@hermetic .plain "ws" driverRun secondSetup rfl secondRun).2.2 1 rfl).trans rfl

end Bench

end Lumencast
