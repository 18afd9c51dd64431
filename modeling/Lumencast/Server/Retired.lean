import Lumencast.Server.Ownership

/-!
# Server/Retired — scenes that were replaced

A scene whose id is reused is reset by a task of the event loop, some time later.  By then it is
registered no more, under any id (`retires_after`), so the task takes nothing from those who are
served meanwhile.
-/

namespace Lumencast

open Machinery

namespace Server

/-- No two ids name one scene, and a scene whose reset is scheduled is registered no more. -/
structure Retires (k : Server) : Prop where
  inj : ∀ id id' c, k.scenes.get? id = some c → k.scenes.get? id' = some c → id = id'
  tasks_lt : ∀ c ∈ k.tasks, c < k.objects.next
  retired : ∀ c ∈ k.tasks, ¬ k.Registered c

theorem Retires.newScene {k : Server} (h : k.Retires) (hwf : k.Wf) (id version : PyStr)
    (specs : List InputSpec) (loopRunning : Bool) :
    (k.newScene id version specs loopRunning).Retires := by
  have hfresh : ∀ {id'}, k.scenes.get? id' ≠ some k.objects.next := fun hget =>
    (hwf.registered_lt _ (registered_of_get? hget)).ne rfl
  have htask : ∀ c ∈ (k.newScene id version specs loopRunning).tasks,
      c ∈ k.tasks ∨ k.scenes.get? id = some c := by
    intro c hc
    rcases List.mem_append.mp hc with hc | hc
    · exact Or.inl hc
    · split at hc
      · exact Or.inr (Option.mem_toList.mp hc)
      · cases hc
  refine ⟨fun id₁ id₂ c h₁ h₂ => ?_, fun c hc => ?_, fun c hc hreg => ?_⟩
  · rcases (get?_newScene ..).mp h₁ with ⟨rfl, rfl⟩ | ⟨-, hold₁⟩ <;>
      rcases (get?_newScene ..).mp h₂ with ⟨rfl, hc⟩ | ⟨-, hold₂⟩
    · rfl
    · exact absurd hold₂ hfresh
    · exact absurd (hc ▸ hold₁) hfresh
    · exact h.inj id₁ id₂ c hold₁ hold₂
  · refine lt_trans ?_ (Nat.lt_succ_self _)
    rcases htask c hc with hold | hreplaced
    · exact h.tasks_lt c hold
    · exact hwf.registered_lt c (registered_of_get? hreplaced)
  · obtain ⟨id', hget⟩ := registered_iff.mp hreg
    rcases htask c hc with hold | hreplaced
    · rcases (get?_newScene ..).mp hget with ⟨-, rfl⟩ | ⟨-, hget⟩
      · exact absurd (h.tasks_lt _ hold) (lt_irrefl _)
      · exact h.retired c hold (registered_of_get? hget)
    · rcases (get?_newScene ..).mp hget with ⟨-, rfl⟩ | ⟨hne, hget⟩
      · exact hfresh hreplaced
      · exact hne (h.inj _ _ c hget hreplaced)

/-- An operation that registers nothing and schedules nothing. -/
theorem Retires.of_le {k k' : Server} (h : k.Retires) (hnext : k.objects.next ≤ k'.objects.next)
    (hscenes : k'.scenes = k.scenes ∨ k'.scenes = .empty) (htasks : ∀ c ∈ k'.tasks, c ∈ k.tasks) :
    k'.Retires := by
  rcases hscenes with hscenes | hscenes
  · refine ⟨hscenes ▸ h.inj, fun c hc => (h.tasks_lt c (htasks c hc)).trans_le hnext,
      fun c hc hreg => h.retired c (htasks c hc) ?_⟩
    rwa [Registered, hscenes] at hreg
  · refine ⟨fun id id' c hget => ?_, fun c hc => (h.tasks_lt c (htasks c hc)).trans_le hnext,
      fun c _ hreg => ?_⟩
    · rw [hscenes] at hget
      cases hget
    · rw [Registered, hscenes] at hreg
      cases hreg

theorem tasks_foldl_onScene (m : Scene × Subs → Scene × Subs) : ∀ (cs : List SceneRef) (k : Server),
    (cs.foldl (fun k c => k.onScene c m) k).tasks = k.tasks ∧
      (cs.foldl (fun k c => k.onScene c m) k).objects.next = k.objects.next
  | [], _ => ⟨rfl, rfl⟩
  | c :: cs, k => tasks_foldl_onScene m cs (k.onScene c m)

theorem Retires.step {k : Server} (h : k.Retires) (hwf : k.Wf) (op : Op) : (k.step op).Retires := by
  rcases op with ⟨id, version, operatorInputs, loopRunning⟩ | id | ⟨c, op⟩ | r | _ | _ | r
  · exact h.newScene hwf id version operatorInputs loopRunning
  · rcases step_setActive k id with ⟨prev, next, -, hstep⟩ | ⟨-, active, hstep⟩
    · rw [hstep]
      exact h.of_le le_rfl (Or.inl rfl) fun _ hc => hc
    · rw [hstep]
      exact h.of_le le_rfl (Or.inl rfl) fun _ hc => hc
  · rw [Server.step]
    split
    · exact h.of_le le_rfl (Or.inl rfl) fun _ hc => hc
    · exact h
  · rw [Server.step]
    split
    · have hloop := tasks_foldl_onScene (fun st => st.1.unsubscribe st.2 r) k.scenes.values k
      refine h.of_le hloop.2.ge (Or.inl (scenes_foldl_onScene _ _ _).1) fun c hc => ?_
      rwa [detach, hloop.1] at hc
    · exact h
  · have hloop := tasks_foldl_onScene (fun st => st.1.reset st.2) k.scenes.values
      { k with scenes := .empty, active := "" }
    refine h.of_le hloop.2.ge (Or.inr k.scenes_reset.1) fun c hc => ?_
    rwa [Server.step, reset, hloop.1] at hc
  · rw [Server.step, runTask]
    split
    · exact h
    · rename_i c rest htasks
      refine h.of_le le_rfl (Or.inl rfl) fun c' hc' => ?_
      rw [htasks]
      exact List.mem_cons_of_mem _ hc'
  · rw [Server.step, dequeue]
    split
    · exact h
    · exact h.of_le le_rfl (Or.inl rfl) fun _ => id

theorem retires_after (ops : List Op) : (after ops).Retires := by
  have hstart : ({} : Server).Wf ∧ ({} : Server).Retires :=
    ⟨wf_empty, (fun _ _ _ hget => by cases hget), fun _ hc => absurd hc List.not_mem_nil,
      fun _ hc => absurd hc List.not_mem_nil⟩
  have hstep : ∀ (k : Server) (op : Op), k.Wf ∧ k.Retires → (k.step op).Wf ∧ (k.step op).Retires :=
    fun k op h => ⟨wf_step k op h.1, h.2.step h.1 op⟩
  exact (@run_invariant _ _ step (fun k => k.Wf ∧ k.Retires) _ hstart hstep ops).2

/-- **A scheduled reset leaves a registered scene alone.** -/
theorem scene_runTask {k : Server} (h : k.Retires) {c : SceneRef} (hc : k.Registered c) :
    k.runTask.objects.get c = k.objects.get c := by
  rw [runTask]
  split
  · rfl
  · rename_i c₀ rest htasks
    have hne : c ≠ c₀ := by
      rintro rfl
      exact h.retired c (htasks ▸ List.mem_cons_self) hc
    rw [get_onScene, if_neg hne]

end Server

end Lumencast
