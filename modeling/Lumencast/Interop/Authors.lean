import Lumencast.Interop.Identified

/-!
# Interop/Authors — who wrote what is served

The state a bench serves is a board that its driver and its clients write on: `/test/state` tells
what the last setup left, overlaid in turn with what was emitted and with the inputs that were
accepted (`shown_eq`).  So each of its leaves has an author, the driver or a client that a token
named and whose identity may write there (`authored`).
-/

namespace Lumencast

open Machinery

namespace World

variable [PyRepr]

/-- **A session that accepts nothing changes no store.** -/
theorem store_serve {w : World} (e : ClientEvent) (h : ∀ l f, ¬ w.Accepts e.toEvent l f)
    (c : SceneRef) :
    ((w.serve e).kit.objects.get c).store = (w.kit.objects.get c).store := by
  rcases e with requested | ⟨i, e⟩
  · rfl
  rcases hstep : (w.sessions.get i).step? w.kit e with _ | ⟨call, s⟩
  · rw [serve, ClientEvent.toEvent, step_session_of_none hstep]
  · have hkit : (w.serve (.session i e)).kit = w.kit.perform call := by
      rw [serve, ClientEvent.toEvent, step_session hstep]
    rw [hkit]
    have hsame (hcall : ∀ c identity patches cause,
        call ≠ some (.applyInput c identity patches cause)) :
        ((w.kit.perform call).objects.get c).store = (w.kit.objects.get c).store :=
      (congrArg (fun b : Scene => b.store) (Server.bare_perform w.kit hcall c) :)
    rcases Session.did hstep with hidle | hphase | ⟨hphase, -, -⟩ | hphase |
      @⟨l, ls, ls', f, -, hphase, hreader, -⟩ | ⟨hphase, -⟩ | hphase
    case input =>
      have hrefused : (w.kit.objects.get l.scene).verdict l.identity f.patches ≠ .ok none :=
        fun hv => h l f ⟨i, ls, rfl, hphase, hreader, by rw [Scene.applyInput_result]; exact hv⟩
      rw [Server.perform, Call.op, Server.step_applyInput_of_ne _ hrefused]
    all_goals exact hsame (by rintro _ _ _ _ ⟨⟩)

end World

namespace Bench

/-! ## The board

The board is a dictionary beside the run, not part of the server.  Two kinds of events write on
it, and on either side the last one wins, path by path. -/

/-- The input that an event has accepted, with the locals of its session. -/
def accepted? (b : Bench) : BenchEvent → Option (Locals × Input)
  | .wake i (.received (.frame (.input f))) =>
      match (b.sessions.get i).phase with
      | .running l ls =>
          match ls.reader, (b.plane.kit.objects.get l.scene).verdict l.identity f.patches with
          | .receiving, .ok none => some (l, f)
          | _, _ => none
      | _ => none
  | _ => none

theorem accepts_of_accepted? {b : Bench} {e : BenchEvent} {l : Locals} {f : Input}
    (h : b.accepted? e = some (l, f)) : ∃ i, e = .wake i (.received (.frame (.input f))) ∧
      b.world.Accepts (.session i (.received (.frame (.input f)))) l f := by
  unfold accepted? at h
  split at h
  · rename_i i f'
    split at h
    · rename_i l' ls hphase
      split at h
      · rename_i hreader hv
        cases h
        exact ⟨i, rfl, i, ls, rfl, hphase, hreader, (Scene.applyInput_result ..).trans hv⟩
      · cases h
    · cases h
  · cases h

theorem accepted?_of_accepts {b : Bench} {i : ℕ} {e : SessionEvent} {l : Locals} {f : Input}
    (h : b.world.Accepts (.session i e) l f) : b.accepted? (.wake i e) = some (l, f) := by
  obtain ⟨j, ls, he, hphase, hreader, hresult⟩ := h
  cases he
  have hphase' : (b.sessions.get i).phase = .running l ls := hphase
  have hv : (b.plane.kit.objects.get l.scene).verdict l.identity f.patches = .ok none :=
    (Scene.applyInput_result ..).symm.trans hresult
  unfold accepted?
  dsimp only
  rw [hphase']
  dsimp only
  rw [hreader, hv]

variable [PyRepr]

/-- What an event makes of the board: it shows what the driver is told, and what clients of the
active scene have accepted. -/
def shownAfter (b : Bench) (d : Dict PyStr Json) (e : BenchEvent) : Dict PyStr Json :=
  match b.accepted? e with
  | some (l, f) =>
      if b.plane.kit.activeScene = some l.scene then d.update (Scene.asDict f.patches).entries
      else d
  | none => b.told d e

/-- A bench next to its board. -/
def display (x : Bench × Dict PyStr Json) (e : BenchEvent) : Bench × Dict PyStr Json :=
  (x.1.step e, x.1.shownAfter x.2 e)

theorem fst_run_display (hint : PyStr) (d : Dict PyStr Json) (es : List BenchEvent) :
    (run display (start hint, d) es).1 = after hint es :=
  map_run (f := Prod.fst) (fun _ _ => rfl) es (start hint, d)

/-- What is active holds what the board shows. -/
def Shown (x : Bench × Dict PyStr Json) : Prop :=
  ∀ c, x.1.plane.kit.activeScene = some c → (x.1.plane.kit.objects.get c).store.state = x.2

theorem shown_request {b : Bench} {d : Dict PyStr Json} (h : Shown (b, d)) (r : Request) :
    Shown (display (b, d) (.request r)) := by
  change Shown (b.step (.request r), b.told d (.request r))
  rcases r with body | _ | _ | body | _
  · intro c hactive
    rcases hseed : seedLeft body with _ | state
    · have hsame : (b.plane.setup body).2 = b.plane := ControlPlane.setup_of_seedLeft_none hseed
      have htold : b.told d (.request (.setup body)) = d := by rw [told, hseed, Option.getD_none]
      change (b.plane.setup body).2.kit.activeScene = some c at hactive
      change ((b.plane.setup body).2.kit.objects.get c).store.state = _
      rw [htold]
      rw [hsame] at hactive ⊢
      exact h c hactive
    · have htold : b.told d (.request (.setup body)) = state := by
        rw [told, hseed, Option.getD_some]
      rw [htold]
      exact ControlPlane.state_of_setup hseed hactive
  · intro c hactive
    have hnone : b.plane.kit.reset.activeScene = none := by
      rw [Server.activeScene, if_pos b.plane.kit.scenes_reset.2]
    cases hnone.symm.trans hactive
  · change Shown ({ b with plane := b.plane.state.2 }, d)
    have hsame : b.plane.state.2 = b.plane := by
      rw [ControlPlane.state]
      split <;> rfl
    rw [hsame]
    exact h
  · intro c hactive
    change ((b.plane.emit body).2.kit).activeScene = some c at hactive
    change ((b.plane.emit body).2.kit.objects.get c).store.state = _
    rcases b.plane.emit_cases body with ⟨patches, c', hpatches, -, hc', hemit⟩ | ⟨hnot, hne, hsame⟩
    · have htold : b.told d (.request (.emit body)) = d.update patches.entries := by
        rw [told, hpatches, hemit]
      rw [hemit] at hactive ⊢
      have hcc : c = c' := Option.some.inj (hactive.symm.trans hc')
      subst hcc
      rw [htold]
      change ((b.plane.kit.post c patches none).objects.get c).store.state = _
      rw [Server.scene_post, if_pos rfl]
      exact congrArg (Dict.update · patches.entries) (h c hc')
    · have htold : b.told d (.request (.emit body)) = d := by
        rw [told]
        split
        · rename_i hok
          exact absurd hok hne
        · rfl
      rw [hsame] at hactive ⊢
      rw [htold]
      exact h c hactive
  · exact h

/-- A client event that accepts nothing changes nothing that is shown. -/
theorem shown_serve {b : Bench} {d : Dict PyStr Json} {w : World} (h : Shown (b.put w, d))
    {e : ClientEvent} (hnot : ∀ l f, ¬ w.Accepts e.toEvent l f) :
    Shown (b.put (w.serve e), d) := by
  intro c hactive
  have hactive' : w.kit.activeScene = some c := (activeScene_serve w e).symm.trans hactive
  exact (congrArg Store.state (World.store_serve e hnot c)).trans (h c hactive')

theorem shown_wake {b : Bench} {d : Dict PyStr Json} (hwf : b.world.Wf) (h : Shown (b, d)) (i : ℕ)
    (e : SessionEvent) :
    Shown (b.put (b.world.step (.session i e)), b.shownAfter d (.wake i e)) := by
  rcases haccepted : b.accepted? (.wake i e) with _ | ⟨l, f⟩
  · have htold : b.shownAfter d (.wake i e) = d := by rw [shownAfter, haccepted]; rfl
    rw [htold]
    refine shown_serve (b := b) (w := b.world) (e := .session i e) h fun l f haccepts => ?_
    cases haccepted.symm.trans (accepted?_of_accepts haccepts)
  · obtain ⟨j, he, haccepts⟩ := accepts_of_accepted? haccepted
    cases he
    have hkit := World.kit_step_of_accepts hwf haccepts
    intro c hactive
    have hsame : b.plane.kit.activeScene = some c :=
      (activeScene_serve b.world (.session i _)).symm.trans hactive
    change ((b.world.step _).kit.objects.get c).store.state = _
    rw [hkit, Server.scene_post, shownAfter, haccepted]
    dsimp only
    rw [hsame]
    by_cases hc : c = l.scene
    · subst hc
      rw [if_pos rfl, if_pos rfl]
      exact congrArg (Dict.update · (Scene.asDict f.patches).entries) (h _ hsame)
    · rw [if_neg hc, if_neg fun heq => hc (Option.some.inj heq)]
      exact h c hsame

theorem shown_display {b : Bench} {d : Dict PyStr Json} (hwf : b.world.Wf)
    (hretires : b.plane.kit.Retires) (h : Shown (b, d)) (e : BenchEvent) :
    Shown (display (b, d) e) := by
  rcases e with r | _ | requested | ⟨i, e⟩
  · exact shown_request h r
  · intro c hactive
    have hactive' : b.plane.kit.activeScene = some c :=
      (activeScene_step b.plane.kit .runTask trivial).symm.trans hactive
    have hsame := Server.scene_runTask hretires (Server.registered_of_activeScene hactive')
    change (b.plane.kit.runTask.objects.get c).store.state = _
    rw [hsame]
    exact h c hactive'
  · exact h
  · have hone := shown_wake hwf h i e
    change Shown (b.put (b.settle i (b.world.step (.session i e))), _)
    rw [settle]
    split
    · refine shown_serve (e := .session i _) hone fun l f haccepts => ?_
      obtain ⟨j, ls, he, -⟩ := haccepts
      cases he
    · exact hone

/-- **The board is what is served.** -/
theorem shown_after (hint : PyStr) (es : List BenchEvent) :
    Shown (after hint es, (run display (start hint, .empty) es).2) := by
  induction es using List.reverseRecOn with
  | nil => exact fun c hactive => by cases hactive
  | append_singleton es e ih =>
    obtain ⟨fs, hfs⟩ := world_after hint es
    obtain ⟨ops, hops⟩ := World.kit_after fs
    have hkit : (after hint es).plane.kit = Server.after ops :=
      (congrArg World.kit hfs).trans hops
    have hstep := shown_display (wf_after hint es) (hkit ▸ Server.retires_after ops) ih e
    rw [after, run_concat, run_concat, display, fst_run_display]
    exact hstep

/-- **What is served is the board**: what the last setup left, overlaid in turn with what was emitted
and with the inputs that clients of the active scene had accepted. -/
theorem shown_eq (hint : PyStr) (es : List BenchEvent) {id version : PyStr} {state : Dict PyStr Json}
    (h : ((after hint es).plane.handle .state).1 = .state id version state) :
    state = (run display (start hint, .empty) es).2 := by
  obtain ⟨c, hactive, rfl⟩ := ControlPlane.active_of_state h
  exact shown_after hint es c hactive

/-! ## The authors

A leaf on the board was put there by one event and has not been overwritten since, so the
induction looks at the last event only. -/

/-- The event after `pre` writes `value` under `path`: it is a setup of the driver, an emission of
it that is answered with 204, or an input that is accepted, of a client of the active scene whose
identity may write there and who was named by a token before. -/
inductive Author (hint : PyStr) (pre : List BenchEvent) (path : PyStr) (value : Json) :
    BenchEvent → Prop
  | setup {body : Except PyStr Json} {d : Dict PyStr Json} (hseed : seedLeft body = some d)
      (hleaf : d.get? path = some value) : Author hint pre path value (.request (.setup body))
  | emit {body : Except PyStr Json} {patches : Dict PyStr Json}
      (hpatches : ControlPlane.patchesOf body = some patches)
      (hanswer : ((after hint pre).plane.handle (.emit body)).1 = .noContent)
      (hleaf : patches.get? path = some value) :
      Author hint pre path value (.request (.emit body))
  | input {i : ℕ} {f : Input} {l : Locals}
      (haccepted : (after hint pre).accepted? (.wake i (.received (.frame (.input f))))
        = some (l, f))
      (hactive : (after hint pre).plane.kit.activeScene = some l.scene)
      (hleaf : (Scene.asDict f.patches).get? path = some value)
      (hwrite : l.identity.canWrite path = true)
      (hnamed : ∃ pre' post s, pre = pre' ++ .wake i (.received (.frame (.subscribe s))) :: post ∧
        AttachedBy hint pre' i s l) :
      Author hint pre path value (.wake i (.received (.frame (.input f))))

/-- A leaf that an event leaves on the board was there before, or the event wrote it. -/
theorem author_or_kept {hint : PyStr} {es : List BenchEvent} {d : Dict PyStr Json} {e : BenchEvent}
    {path : PyStr} {value : Json}
    (h : ((after hint es).shownAfter d e).get? path = some value) :
    Author hint es path value e ∨ d.get? path = some value := by
  rcases haccepted : (after hint es).accepted? e with _ | ⟨l, f⟩
  · rw [shownAfter, haccepted] at h
    change ((after hint es).told d e).get? path = some value at h
    unfold told at h
    split at h
    · rename_i body
      rcases hseed : seedLeft body with _ | d'
      · rw [hseed] at h
        exact Or.inr h
      · rw [hseed] at h
        exact Or.inl (.setup hseed h)
    · rename_i body
      split at h
      · rename_i patches hpatches hemit
        exact (Dict.of_get?_update h).imp (.emit hpatches hemit) id
      · exact Or.inr h
    · exact Or.inr h
  · obtain ⟨i, rfl, haccepts⟩ := accepts_of_accepted? haccepted
    rw [shownAfter, haccepted] at h
    dsimp only at h
    split at h
    · rename_i hactive
      refine (Dict.of_get?_update h).imp (fun hleaf => ?_) id
      obtain ⟨-, hv⟩ := World.opOf_of_accepts haccepts
      obtain ⟨p, hp, rfl⟩ : ∃ p ∈ f.patches, p.path = path := by
        have hkey := Dict.mem_keys_ofList.mp
          (List.mem_map_of_mem (f := Prod.fst) (Dict.mem_of_find hleaf))
        simpa using hkey
      obtain ⟨j, ls, he, hphase, -⟩ := haccepts
      cases he
      exact .input haccepted hactive hleaf (Scene.canWrite_of_verdict hv p hp)
        ((named_after hint es).named i l (congrArg Phase.locals? hphase))
    · exact Or.inr h

/-- **Each leaf that is served has an author.**  Whatever is requested, connected and woken up, in
whatever order: what `/test/state` tells was written by a setup or an accepted emission of the
driver, or by an accepted input of a client that a token named and that may write there; and it has
been served since. -/
theorem authored (hint : PyStr) (es : List BenchEvent) {id version : PyStr}
    {state : Dict PyStr Json}
    (h : ((after hint es).plane.handle .state).1 = .state id version state) {path : PyStr}
    {value : Json} (hleaf : state.get? path = some value) :
    ∃ pre e post, es = pre ++ e :: post ∧ Author hint pre path value e ∧
      ∀ mid, mid <+: post → ∀ c,
        (after hint (pre ++ e :: mid)).plane.kit.activeScene = some c →
        ((after hint (pre ++ e :: mid)).plane.kit.objects.get c).store.state.get? path
          = some value := by
  have hshown : (run display (start hint, .empty) es).2.get? path = some value := by
    obtain ⟨c, hactive, rfl⟩ := ControlPlane.active_of_state h
    rw [← shown_after hint es c hactive]
    exact hleaf
  clear h hleaf
  induction es using List.reverseRecOn with
  | nil => cases hshown
  | append_singleton es e ih =>
    have hstep : ((after hint es).shownAfter (run display (start hint, .empty) es).2 e).get? path
        = some value := by
      rw [run_concat, display, fst_run_display] at hshown
      exact hshown
    have hnow (c : SceneRef) (hactive : (after hint (es ++ [e])).plane.kit.activeScene = some c) :
        ((after hint (es ++ [e])).plane.kit.objects.get c).store.state.get? path = some value := by
      rw [← hshown]
      exact congrArg (Dict.get? · path) (shown_after hint (es ++ [e]) c hactive)
    rcases author_or_kept hstep with hauthor | hkept
    · refine ⟨es, e, [], rfl, hauthor, fun mid hmid => ?_⟩
      rw [List.prefix_nil.mp hmid]
      exact hnow
    · obtain ⟨pre, e', post, rfl, hauthor, hsince⟩ := ih hkept
      refine ⟨pre, e', post ++ [e], by rw [List.append_assoc]; rfl, hauthor, fun mid hmid => ?_⟩
      rcases List.prefix_concat_iff.mp hmid with rfl | hmid
      · rw [List.append_assoc] at hnow
        exact hnow
      · exact hsince mid hmid

end Bench

namespace Bench

theorem shown_eq_driverRun :
    driverState = (run (@display .plain) (start "ws", .empty) driverRun).2 :=
  @shown_eq .plain "ws" driverRun "main" "h1" driverState rfl

theorem authored_driverRun : ∃ pre e post, driverRun = pre ++ e :: post ∧
    @Author .plain "ws" pre "__inputs.x" (.int 5) e := by
  obtain ⟨pre, e, post, hsplit, hauthor, -⟩ := @authored .plain "ws" driverRun "main" "h1"
    driverState rfl "__inputs.x" (.int 5) rfl
  exact ⟨pre, e, post, hsplit, hauthor⟩

end Bench

end Lumencast
