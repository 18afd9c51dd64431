import Lumencast.Server.Routing

/-!
# Server/Ownership — who is attached where, and who is live

Ownership is spread over one subscriber set per scene object and the active id.  `Ownership` says
what holds between them; `Homed` is what carries it from step to step: ids are not empty and each
names its own object, the active id names one of them, and the live subscribers of registered scenes
are all at the active one.
-/

namespace Lumencast

open Machinery

namespace Server

/-- What callers respect: ids are not empty, and a live subscription is made on the active scene,
where the endpoint makes it. -/
def Respects (k : Server) : Op → Prop
  | .newScene id _ _ _ => id ≠ ""
  | .scene c (.subscribe live) => live = true → k.activeScene = some c
  | .scene c (.subscribeWithResume live _) => live = true → k.activeScene = some c
  | _ => True

instance (k : Server) (op : Op) : Decidable (k.Respects op) := by
  unfold Respects
  split <;> infer_instance

/-- **Ownership**: each subscription is at one scene object at most, the live ones of registered
scenes are at the active scene, the active id is empty exactly when nothing is registered, and a
switch moves the live subscribers and nobody else. -/
structure Ownership (k : Server) : Prop where
  unique : ∀ c c' r, k.Owns c r → k.Owns c' r → c = c'
  live_active : ∀ c r, k.Registered c → k.Owns c r → (k.subs.get r).live = true →
    k.activeScene = some c
  active_empty : k.active = "" ↔ k.scenes = .empty
  active_registered : k.active ≠ "" → ∃ c, k.scenes.get? k.active = some c
  setActive_moves : ∀ id next k', k.scenes.get? id = some next → k.setActive id = .ok k' →
    ∀ c r, k'.Owns c r ↔
      (c = next ∧ (k.subs.get r).live = true ∧ ∃ p, k.Registered p ∧ k.Owns p r) ∨
      (k.Owns c r ∧ ¬ ((k.subs.get r).live = true ∧ k.Registered c))

/-! ## The map of ids

Few operations touch the map.  For the others it is enough to know that they do not. -/

/-- What holds of the ids: none is empty, each names an object of its own, and the active one is
among them as soon as there are any. -/
structure Named (k : Server) : Prop where
  id_ne : ∀ id c, k.scenes.get? id = some c → id ≠ ""
  inj : ∀ id id' c, k.scenes.get? id = some c → k.scenes.get? id' = some c → id = id'
  active_empty : k.active = "" ↔ k.scenes = .empty
  active_registered : k.active ≠ "" → ∃ c, k.scenes.get? k.active = some c

theorem registered_iff {k : Server} {c : SceneRef} :
    k.Registered c ↔ ∃ id, k.scenes.get? id = some c :=
  ⟨Dict.exists_get?_of_mem_values, fun ⟨_, h⟩ => registered_of_get? h⟩

theorem named_empty : ({} : Server).Named where
  id_ne _ _ h := nomatch h
  inj _ _ _ h := nomatch h
  active_empty := ⟨fun _ => rfl, fun _ => rfl⟩
  active_registered h := absurd rfl h

/-- An operation that registers nothing and switches nothing. -/
theorem Named.of_eq {k k' : Server} (h : k.Named) (hscenes : k'.scenes = k.scenes)
    (hactive : k'.active = k.active) : k'.Named := by
  refine ⟨?_, ?_, ?_, ?_⟩ <;> rw [hscenes]
  · exact h.id_ne
  · exact h.inj
  · rw [hactive]
    exact h.active_empty
  · rw [hactive]
    exact h.active_registered

theorem scenes_ne_empty {k : Server} {id : PyStr} {c : SceneRef}
    (h : k.scenes.get? id = some c) : k.scenes ≠ .empty := fun he => by
  rw [he] at h
  cases h

theorem Named.newScene {k : Server} (h : k.Named) (hwf : k.Wf) {id : PyStr} (hid : id ≠ "")
    (version : PyStr) (operatorInputs : List InputSpec) (loopRunning : Bool) :
    (k.newScene id version operatorInputs loopRunning).Named := by
  have hself : (k.newScene id version operatorInputs loopRunning).scenes.get? id
      = some k.objects.next := (get?_newScene ..).mpr (Or.inl ⟨rfl, rfl⟩)
  have hfresh : ∀ {id'}, k.scenes.get? id' ≠ some k.objects.next := fun hget =>
    (hwf.registered_lt _ (registered_of_get? hget)).ne rfl
  refine ⟨fun id' c hget => ?_, fun id₁ id₂ c h₁ h₂ => ?_, ?_, fun hact => ?_⟩
  · rcases (get?_newScene ..).mp hget with ⟨rfl, -⟩ | ⟨-, hget⟩
    · exact hid
    · exact h.id_ne id' c hget
  · rcases (get?_newScene ..).mp h₁ with ⟨rfl, rfl⟩ | ⟨-, hold₁⟩ <;>
      rcases (get?_newScene ..).mp h₂ with ⟨rfl, hc⟩ | ⟨-, hold₂⟩
    · rfl
    · exact absurd hold₂ hfresh
    · exact absurd (hc ▸ hold₁) hfresh
    · exact h.inj id₁ id₂ c hold₁ hold₂
  · have hne : (if k.active = "" then id else k.active) ≠ "" := by
      split
      · exact hid
      · assumption
    exact ⟨fun he => absurd he hne, fun he => absurd he (scenes_ne_empty hself)⟩
  · change ∃ c, (k.newScene id version operatorInputs loopRunning).scenes.get?
      (if k.active = "" then id else k.active) = some c
    by_cases hempty : k.active = ""
    · rw [if_pos hempty]
      exact ⟨_, hself⟩
    · rw [if_neg hempty]
      by_cases hsame : k.active = id
      · rw [hsame]
        exact ⟨_, hself⟩
      · obtain ⟨c, hc⟩ := h.active_registered hempty
        exact ⟨c, (get?_newScene ..).mpr (Or.inr ⟨hsame, hc⟩)⟩

/-- What a switch leaves of the map, whether or not it moves anyone. -/
theorem setActive_eq_ok {k k' : Server} {id : PyStr} (h : k.setActive id = .ok k') :
    k' = k ∨ (k'.scenes = k.scenes ∧ k'.active = id ∧ ∃ c, k.scenes.get? id = some c) := by
  unfold setActive at h
  split at h
  · cases h
  · rename_i c hc
    split at h
    · cases h
      exact Or.inl rfl
    · dsimp only at h
      split at h
      · cases h
        exact Or.inr ⟨rfl, rfl, c, hc⟩
      · cases h
        exact Or.inr ⟨rfl, rfl, c, hc⟩

theorem Named.setActive {k k' : Server} (h : k.Named) {id : PyStr}
    (hok : k.setActive id = .ok k') : k'.Named := by
  rcases setActive_eq_ok hok with rfl | ⟨hscenes, hactive, c, hc⟩
  · exact h
  · refine ⟨?_, ?_, ?_, ?_⟩ <;> rw [hscenes]
    · exact h.id_ne
    · exact h.inj
    · rw [hactive]
      exact ⟨fun he => absurd he (h.id_ne id c hc), fun he => absurd he (scenes_ne_empty hc)⟩
    · rw [hactive]
      exact fun _ => ⟨c, hc⟩

theorem named_reset (k : Server) : k.reset.Named :=
  named_empty.of_eq k.scenes_reset.1 k.scenes_reset.2

theorem scenes_runTask (k : Server) :
    k.runTask.scenes = k.scenes ∧ k.runTask.active = k.active := by
  rw [runTask]
  split <;> exact ⟨rfl, rfl⟩

theorem scenes_dequeue (k : Server) (r : SubRef) :
    (k.dequeue r).scenes = k.scenes ∧ (k.dequeue r).active = k.active := by
  rw [dequeue]
  split <;> exact ⟨rfl, rfl⟩

/-- The operations that leave the map of ids alone. -/
def KeepsMap : Op → Prop
  | .newScene _ _ _ _ => False
  | .setActive _ => False
  | .reset => False
  | _ => True

theorem scenes_step (k : Server) {op : Op} (h : KeepsMap op) :
    (k.step op).scenes = k.scenes ∧ (k.step op).active = k.active := by
  rcases op with ⟨id, version, operatorInputs, loopRunning⟩ | id | ⟨c, op⟩ | r | _ | _ | r
  · exact h.elim
  · exact h.elim
  · rw [step]
    split <;> exact ⟨rfl, rfl⟩
  · rw [step]
    split
    · exact scenes_foldl_onScene _ k.scenes.values k
    · exact ⟨rfl, rfl⟩
  · exact h.elim
  · exact k.scenes_runTask
  · exact k.scenes_dequeue r

theorem Named.step {k : Server} (h : k.Named) (hwf : k.Wf) {op : Op} (hop : k.Respects op) :
    (k.step op).Named := by
  rcases op with ⟨id, version, operatorInputs, loopRunning⟩ | id | ⟨c, op⟩ | r | _ | _ | r
  case newScene => exact h.newScene hwf hop version operatorInputs loopRunning
  case setActive =>
    rw [Server.step]
    rcases hok : k.setActive id with e | k'
    · exact h
    · exact h.setActive hok
  case reset => exact named_reset k
  all_goals exact h.of_eq (scenes_step k (by trivial)).1 (scenes_step k (by trivial)).2

/-! ## The live subscribers

Where live subscribers are only ever attached to the active scene, they are moved along with it,
and can be elsewhere only at a scene that is no longer registered. -/

/-- The live subscribers of registered scenes are at the active one. -/
def Homed (k : Server) : Prop := ∀ c r, k.Registered c → k.Owns c r →
  (k.subs.get r).live = true → k.activeScene = some c

theorem activeScene_of_get? {k : Server} (h : k.Named) {c : SceneRef}
    (hc : k.scenes.get? k.active = some c) : k.activeScene = some c := by
  rw [activeScene, if_neg (h.id_ne _ _ hc), hc]

theorem active_of_activeScene {k : Server} {c : SceneRef} (h : k.activeScene = some c) :
    k.active ≠ "" ∧ k.scenes.get? k.active = some c := by
  rw [activeScene] at h
  split at h
  · cases h
  · exact ⟨‹_›, h⟩

theorem activeScene_congr {k k' : Server} (hscenes : k'.scenes = k.scenes)
    (hactive : k'.active = k.active) : k'.activeScene = k.activeScene := by
  rw [activeScene, activeScene, hscenes, hactive]

/-- A live flag is for life. -/
theorem live_step {k : Server} (hwf : k.Wf) {c : SceneRef} {r : SubRef} (ho : k.Owns c r)
    (op : Op) :
    ((k.step op).subs.get r).live = (k.subs.get r).live :=
  ((did k op).live (hwf.owned_lt c r ho)).1

/-- An operation that attaches nobody and leaves the map of ids alone. -/
theorem Homed.of_owns {k : Server} (h : k.Homed) (hwf : k.Wf) {op : Op} (hop : KeepsMap op)
    (howns : ∀ c r, (k.step op).Owns c r → k.Owns c r) : (k.step op).Homed := by
  obtain ⟨hscenes, hactive⟩ := scenes_step k hop
  intro c r hreg ho hlive
  have hold := howns c r ho
  rw [live_step hwf hold op] at hlive
  rw [activeScene_congr hscenes hactive]
  exact h c r (by rwa [Registered, hscenes] at hreg) hold hlive

/-- …and an attachment, of a live subscriber only to the active scene. -/
theorem Homed.attach {k : Server} (h : k.Homed) (hwf : k.Wf) {c₀ : SceneRef} {live : Bool}
    (hlive : live = true → k.activeScene = some c₀) (opening : Opening) :
    (k.attach c₀ live opening).Homed := by
  intro c r hreg ho hr
  have hactive : (k.attach c₀ live opening).activeScene = k.activeScene := rfl
  rw [hactive]
  rcases hwf.owner_attach ho with ⟨rfl, rfl⟩ | ⟨hold, hne⟩
  · rw [sub_attach_next] at hr
    exact hlive hr
  · rw [sub_attach_of_ne _ _ _ _ hne] at hr
    exact h c r hreg hold hr

theorem Homed.newScene {k : Server} (h : k.Homed) (hn : k.Named) (id version : PyStr)
    (operatorInputs : List InputSpec) (loopRunning : Bool) :
    (k.step (.newScene id version operatorInputs loopRunning)).Homed := by
  intro c r hreg ho hlive
  obtain ⟨hfresh, hold⟩ := (owns_newScene ..).mp ho
  obtain ⟨id', hid'⟩ := registered_iff.mp hreg
  -- the object under a reused id is the fresh one
  obtain ⟨-, hget⟩ := ((get?_newScene ..).mp hid').resolve_left fun h => hfresh h.2.symm
  obtain ⟨hact, hactive⟩ := active_of_activeScene (h c r (registered_of_get? hget) hold hlive)
  have hsame : k.active = id' := hn.inj _ _ c hactive hget
  have hactive' : (k.step (.newScene id version operatorInputs loopRunning)).active = k.active :=
    if_neg hact
  rw [activeScene, hactive', if_neg hact, hsame]
  exact hid'

/-- A switch between two scenes migrates. -/
theorem Named.swap_eq {k : Server} (h : k.Named) {id : PyStr} {next : SceneRef}
    (hnext : k.scenes.get? id = some next) (hid : k.active ≠ id) :
    ∃ prev, k.activeScene = some prev ∧ k.swap id = some (prev, next) := by
  have hact : k.active ≠ "" := fun he => scenes_ne_empty hnext (h.active_empty.mp he)
  obtain ⟨prev, hprev⟩ := h.active_registered hact
  have hscene := activeScene_of_get? h hprev
  have hne : prev ≠ next := fun he => hid (h.inj _ _ next (he ▸ hprev) hnext)
  refine ⟨prev, hscene, ?_⟩
  rw [swap, if_neg hid, hscene, hnext]
  exact if_neg hne

/-- **Who owns whom after `set_active`**: the live subscribers of registered scenes are at the new
active scene, and everyone else is where they were. -/
theorem Homed.owns_setActive {k k' : Server} (h : k.Homed) (hn : k.Named) (hwf : k.Wf) {id : PyStr}
    {next : SceneRef} (hnext : k.scenes.get? id = some next) (hok : k.setActive id = .ok k')
    (c : SceneRef) (r : SubRef) : k'.Owns c r ↔
      (c = next ∧ (k.subs.get r).live = true ∧ ∃ p, k.Registered p ∧ k.Owns p r) ∨
      (k.Owns c r ∧ ¬ ((k.subs.get r).live = true ∧ k.Registered c)) := by
  -- the scene the live subscribers are at before the switch
  have hmoves : ∀ {prev}, k.activeScene = some prev →
      (((k.subs.get r).live = true ∧ ∃ p, k.Registered p ∧ k.Owns p r) ↔ k.Moves prev r) := by
    intro prev hprev
    refine ⟨fun ⟨hlive, p, hreg, ho⟩ => ?_, fun ⟨ho, hlive⟩ =>
      ⟨hlive, prev, registered_of_activeScene hprev, ho⟩⟩
    have hp := (h p r hreg ho hlive).symm.trans hprev
    rw [Option.some.injEq] at hp
    exact ⟨hp ▸ ho, hlive⟩
  have hstays : ∀ {prev}, k.activeScene = some prev → k.Owns c r →
      (((k.subs.get r).live = true ∧ k.Registered c) ↔ c = prev ∧ k.Moves prev r) := by
    intro prev hprev ho
    refine ⟨fun ⟨hlive, hreg⟩ => ?_, fun ⟨hc, hm⟩ =>
      ⟨hm.2, hc ▸ registered_of_activeScene hprev⟩⟩
    have hc := (h c r hreg ho hlive).symm.trans hprev
    rw [Option.some.injEq] at hc
    exact ⟨hc, hc ▸ ho, hlive⟩
  by_cases hid : k.active = id
  · have hsame : k' = k := by
      unfold Server.setActive at hok
      rw [hnext] at hok
      dsimp only at hok
      rw [if_pos hid] at hok
      cases hok
      rfl
    have hactive : k.activeScene = some next := activeScene_of_get? hn (hid ▸ hnext)
    rw [hsame, hmoves hactive]
    by_cases ho : k.Owns c r
    · simp only [hstays hactive ho, ho, true_and, true_iff]
      exact em _
    · simp only [ho, false_and, or_false, false_iff]
      exact fun ⟨hc, hm⟩ => ho (hc ▸ hm.1)
  · obtain ⟨prev, hprev, hswap⟩ := hn.swap_eq hnext hid
    have hrerouted := rerouted hwf (.setActive id)
    rw [reroute, hswap, Server.step, hok] at hrerouted
    rw [hmoves hprev]
    refine (hrerouted c r).trans (or_congr_right (and_congr_right fun ho => ?_))
    rw [hstays hprev ho]

theorem Homed.setActive {k : Server} (h : k.Homed) (hn : k.Named) (hwf : k.Wf) (id : PyStr) :
    (k.step (.setActive id)).Homed := by
  rcases hok : k.setActive id with e | k'
  · rwa [Server.step, hok]
  · have hstep : k.step (.setActive id) = k' := by rw [Server.step, hok]; rfl
    rcases setActive_eq_ok hok with hsame | ⟨hscenes, hactive, next, hnext⟩
    · rwa [hstep, hsame]
    · intro c r hreg ho hlive
      rw [hstep] at hreg ho hlive ⊢
      have hlive' : (k.subs.get r).live = true := by
        rcases (h.owns_setActive hn hwf hnext hok c r).mp ho with ⟨-, hl, -⟩ | ⟨hold, -⟩
        · exact hl
        · rw [← live_step hwf hold (.setActive id), hstep]
          exact hlive
      rw [Registered, hscenes] at hreg
      rcases (h.owns_setActive hn hwf hnext hok c r).mp ho with ⟨rfl, -⟩ | ⟨-, hleft⟩
      · rw [activeScene, hactive, if_neg (hn.id_ne id c hnext), hscenes, hnext]
      · exact absurd ⟨hlive', hreg⟩ hleft

theorem Homed.step {k : Server} (h : k.Homed) (hn : k.Named) (hwf : k.Wf) {op : Op}
    (hop : k.Respects op) : (k.step op).Homed := by
  have howns := rerouted hwf op
  rcases op with ⟨id, version, operatorInputs, loopRunning⟩ | id | ⟨c, op⟩ | r | _ | _ | r
  · exact h.newScene hn id version operatorInputs loopRunning
  · exact h.setActive hn hwf id
  · by_cases hc : c < k.objects.next
    · rw [reroute, if_pos hc] at howns
      rcases op with version | specs | patches | ⟨patches, cause⟩ | ⟨identity, ps, cause⟩ | _ | live |
        ⟨live, since⟩ | r
      case subscribe =>
        rw [Server.step, if_pos hc]
        exact h.attach hwf hop (.snapshot (k.objects.get c).snapshotFrame)
      case subscribeWithResume =>
        rw [step_subscribeWithResume hc]
        exact h.attach hwf hop _
      case unsubscribe =>
        rw [rerouteScene] at howns
        refine h.of_owns hwf (by trivial) fun c' r' ho => ?_
        split at howns <;> exact ((howns c' r').mp ho).1
      all_goals exact h.of_owns hwf (by trivial) fun c' r' ho => ((howns c' r').mp ho).1
    · rwa [Server.step, if_neg hc]
  · refine h.of_owns hwf (by trivial) fun c' r' ho => ?_
    rw [reroute] at howns
    split at howns <;> exact ((howns c' r').mp ho).1
  · intro c r hreg
    have hnone : (k.step .reset).scenes = .empty := k.scenes_reset.1
    rw [Registered, hnone] at hreg
    exact absurd hreg List.not_mem_nil
  · exact h.of_owns hwf (by trivial) fun c' r' ho => ((howns c' r').mp ho).1
  · exact h.of_owns hwf (by trivial) fun c' r' ho => ((howns c' r').mp ho).1

/-- What carries the invariant says all of it. -/
theorem ownership_of {k : Server} (hwf : k.Wf) (hn : k.Named) (h : k.Homed) : k.Ownership where
  unique := hwf.unique
  live_active := h
  active_empty := hn.active_empty
  active_registered := hn.active_registered
  setActive_moves _ _ _ hnext hok := h.owns_setActive hn hwf hnext hok

end Server

end Lumencast
