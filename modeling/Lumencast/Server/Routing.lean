import Lumencast.Server.Acts

/-!
# Server/Routing — which scene a subscription is served from

An operation touches the subscriber sets in three ways only: it **drops** subscriptions,
**attaches** a fresh one, or **moves** the live ones of a scene to another (`rerouted`).  A table
that follows these routing decisions, and never looks at a subscriber set, says of every
subscription which scene serves it (`routes_step`).
-/

namespace Lumencast

open Machinery

/-- A routing decision. -/
inductive Reroute where
  /-- Each `r` with `drops r c` leaves the scene `c`. -/
  | drop (drops : SubRef → SceneRef → Bool)
  /-- The next subscription goes to `c`. -/
  | attach (c : SceneRef)
  /-- The live subscriptions of `prev` go to `next`. -/
  | move (prev next : SceneRef)

/-- Nobody goes anywhere. -/
def Reroute.stay : Reroute := .drop fun _ _ => false

/-- The scene each subscription is served from. -/
abbrev Routing := SubRef → Option SceneRef

namespace Server

/-- What a call on the scene `c` decides. -/
def rerouteScene (k : Server) (c : SceneRef) : SceneOp → Reroute
  | .subscribe _ => .attach c
  | .subscribeWithResume _ _ => .attach c
  | .reset => .drop fun _ c' => c' == c
  | .unsubscribe r => if r < k.subs.next then .drop fun r' c' => c' == c && r' == r else .stay
  | _ => .stay

/-- What an operation decides. -/
def reroute (k : Server) : Op → Reroute
  | .scene c op => if c < k.objects.next then k.rerouteScene c op else .stay
  | .setActive id =>
      match k.swap id with
      | some (prev, next) => .move prev next
      | none => .stay
  | .detach r =>
      if r < k.subs.next then .drop fun r' c => r' == r && decide (k.Registered c) else .stay
  | .reset => .drop fun _ c => decide (k.Registered c)
  | .runTask => .drop fun _ c => k.tasks.head? == some c
  | _ => .stay

/-- The routing table after a decision. -/
def follow (k : Server) (place : Routing) : Reroute → Routing
  | .drop drops => fun r => (place r).filter fun c => !drops r c
  | .attach c => Function.update place k.subs.next (some c)
  | .move prev next => fun r =>
      if place r = some prev ∧ (k.subs.get r).live = true then some next else place r

/-! ## What a decision does to the subscriber sets

Loops over scenes are the reason for stating this by sets: each call of a loop drops something,
and the order does not matter. -/

/-- `k'` comes from `k` by a routing decision. -/
def Rerouted (k : Server) : Reroute → Server → Prop
  | .drop drops, k' => ∀ c r, k'.Owns c r ↔ k.Owns c r ∧ drops r c = false
  | .attach c₀, k' => ∀ c r, k'.Owns c r ↔ (c = c₀ ∧ r = k.subs.next) ∨ k.Owns c r
  | .move prev next, k' => ∀ c r,
      k'.Owns c r ↔ (c = next ∧ k.Moves prev r) ∨ (k.Owns c r ∧ ¬ (c = prev ∧ k.Moves prev r))

variable {k k' : Server}

theorem rerouted_stay (h : ∀ c r, k'.Owns c r ↔ k.Owns c r) : k.Rerouted .stay k' := fun c r => by
  rw [h c r]
  simp

/-- A call that empties the subscriber set of `c`. -/
theorem owns_onScene_reset (k : Server) (c c' : SceneRef) (r : SubRef) :
    (k.onScene c fun st => st.1.reset st.2).Owns c' r ↔ k.Owns c' r ∧ c' ≠ c := by
  rw [Owns, get_onScene]
  split
  · rename_i h
    refine ⟨fun hr => absurd hr (Finset.notMem_empty r), fun hr => absurd h hr.2⟩
  · rename_i h
    exact ⟨fun hr => ⟨hr, h⟩, fun hr => hr.1⟩

/-- A call that takes `r` out of the subscriber set of `c`. -/
theorem owns_onScene_unsubscribe (k : Server) (c c' : SceneRef) (r r' : SubRef) :
    (k.onScene c fun st => st.1.unsubscribe st.2 r).Owns c' r' ↔
      k.Owns c' r' ∧ ¬ (c' = c ∧ r' = r) := by
  rw [Owns, get_onScene]
  split
  · rename_i h
    subst h
    change r' ∈ (k.objects.get c').subscribers.erase r ↔ _
    rw [Finset.mem_erase, and_comm]
    simp [Owns]
  · rename_i h
    simp [Owns, h]

/-- **A loop over scenes** drops what each of its calls drops. -/
theorem owns_foldl {f : Server → SceneRef → Server} {drops : SubRef → SceneRef → Prop}
    (hf : ∀ k c c' r, (f k c).Owns c' r ↔ k.Owns c' r ∧ ¬ (c' = c ∧ drops r c')) :
    ∀ (cs : List SceneRef) (k : Server) (c' : SceneRef) (r : SubRef),
      (cs.foldl f k).Owns c' r ↔ k.Owns c' r ∧ ¬ (c' ∈ cs ∧ drops r c')
  | [], k, c', r => by simp
  | c :: cs, k, c', r => by
      rw [List.foldl_cons, owns_foldl hf cs, hf, List.mem_cons, and_assoc, or_and_right, not_or]

theorem owns_detach (k : Server) (r r' : SubRef) (c : SceneRef) :
    (k.detach r).Owns c r' ↔ k.Owns c r' ∧ ¬ (k.Registered c ∧ r' = r) :=
  @owns_foldl _ (fun r' _ => r' = r)
    (fun k c c' r' => owns_onScene_unsubscribe k c c' r r') _ k c r'

theorem owns_reset (k : Server) (r : SubRef) (c : SceneRef) :
    k.reset.Owns c r ↔ k.Owns c r ∧ ¬ k.Registered c := by
  have hloop := @owns_foldl (fun k c => k.onScene c fun st => st.1.reset st.2) (fun _ _ => True)
    (fun k c c' r => by rw [owns_onScene_reset, and_true]) k.scenes.values
    { k with scenes := .empty, active := "" } c r
  rwa [and_true] at hloop

theorem owns_runTask (k : Server) (r : SubRef) (c : SceneRef) :
    k.runTask.Owns c r ↔ k.Owns c r ∧ k.tasks.head? ≠ some c := by
  rw [runTask]
  rcases htasks : k.tasks with _ | ⟨c₀, rest⟩
  · simp
  · refine (owns_onScene_reset { k with tasks := rest } c₀ c r).trans (and_congr_right fun _ => ?_)
    rw [List.head?_cons, ne_eq, ne_eq, Option.some.injEq, eq_comm]

/-- A call on a scene. -/
theorem rerouted_scene (k : Server) (c : SceneRef) (op : SceneOp) :
    k.Rerouted (k.rerouteScene c op) (k.onScene c (Scene.step · op)) := by
  have hstay : ∀ {op}, (∀ st, (Scene.step st op).1.subscribers = st.1.subscribers) →
      k.Rerouted .stay (k.onScene c (Scene.step · op)) := fun h => rerouted_stay fun c' r => by
    rw [Owns, get_onScene]
    split
    · rename_i hcc
      rw [h, hcc]
      rfl
    · rfl
  rcases op with version | specs | patches | ⟨patches, cause⟩ | ⟨identity, ps, cause⟩ | _ | live |
    ⟨live, since⟩ | r
  · exact hstay fun _ => rfl
  · exact hstay fun _ => rfl
  · refine hstay fun st => ?_
    rw [Scene.step_set]
    split <;> rfl
  · refine hstay fun st => ?_
    rw [Scene.step_emit]
    split <;> rfl
  · refine hstay fun st => ?_
    by_cases hv : st.1.verdict identity ps = .ok none
    · rw [Scene.step_applyInput_of_ok cause hv]
      rfl
    · rw [Scene.step_applyInput_of_ne cause hv]
  · intro c' r
    refine (owns_onScene_reset k c c' r).trans (and_congr_right fun _ => ?_)
    rw [beq_eq_false_iff_ne]
  · exact fun c' r => owns_attach k c c' r live _
  · exact fun c' r => owns_attach k c c' r live _
  · rw [rerouteScene]
    by_cases hr : r < k.subs.next
    · rw [if_pos hr]
      intro c' r'
      rw [onScene_unsubscribe c hr, owns_onScene_unsubscribe]
      simp
    · rw [if_neg hr, onScene_unsubscribe_of_not c hr]
      exact rerouted_stay fun _ _ => Iff.rfl

/-- **Every step follows its routing decision.** -/
theorem rerouted (hwf : k.Wf) (op : Op) : k.Rerouted (k.reroute op) (k.step op) := by
  rcases op with ⟨id, version, operatorInputs, loopRunning⟩ | id | ⟨c, op⟩ | r | _ | _ | r
  · exact rerouted_stay fun c r => (owns_newScene ..).trans
      (and_iff_right_of_imp fun ho => (hwf.owner_lt c r ho).ne)
  · rcases step_setActive k id with ⟨prev, next, hswap, hstep⟩ | ⟨hswap, active, hstep⟩
    · obtain ⟨-, -, -, hne⟩ := swap_eq_some hswap
      rw [hstep]
      simp only [reroute, hswap]
      by_cases hsome : k.MovesSome prev
      · exact owns_move id hsome hne
      · have hnobody : ∀ r, ¬ k.Moves prev r := fun r hr => hsome (movesSome_iff.mpr ⟨r, hr⟩)
        intro c r
        have hobjects : ({ k with active := id }.migrate prev next).objects = k.objects :=
          objects_move_of_nobody id hsome
        rw [Owns, hobjects]
        simp [hnobody, Owns]
    · rw [hstep]
      simp only [reroute, hswap]
      exact rerouted_stay fun _ _ => Iff.rfl
  · rw [reroute, step]
    split
    · exact rerouted_scene k c op
    · exact rerouted_stay fun _ _ => Iff.rfl
  · rw [reroute, step]
    split
    · intro c r'
      rw [owns_detach, @and_comm (k.Registered c)]
      simp
    · exact rerouted_stay fun _ _ => Iff.rfl
  · intro c r
    rw [step, owns_reset]
    simp
  · intro c r
    rw [step, owns_runTask]
    simp
  · refine rerouted_stay fun c r' => ?_
    rw [step, Owns, objects_dequeue]
    rfl

/-! ## The routing table

The table is computed from the operations alone.  It can be compared with the subscriber sets
because both follow the same decisions. -/

/-- The table says who serves whom. -/
def Routes (k : Server) (place : Routing) : Prop := ∀ c r, k.Owns c r ↔ place r = some c

theorem routes_empty : ({} : Server).Routes fun _ => none := fun _ r =>
  ⟨fun ho => absurd ho (Finset.notMem_empty r), fun h => by cases h⟩

/-- **The routing table follows the subscriber sets**, one decision at a time. -/
theorem Routes.follow {place : Routing} (h : k.Routes place) (hwf : k.Wf) {d : Reroute}
    (hd : k.Rerouted d k') : k'.Routes (k.follow place d) := by
  intro c r
  rcases d with drops | c₀ | ⟨prev, next⟩
  · rw [hd c r, h c r, Server.follow, Option.filter_eq_some_iff]
    simp
  · rw [hd c r, Server.follow]
    by_cases hr : r = k.subs.next
    · have hfresh : ¬ k.Owns c r := fun ho => absurd hr (hwf.owned_lt c r ho).ne
      rw [hr] at hfresh ⊢
      rw [Function.update_self]
      simp [hfresh, eq_comm]
    · rw [Function.update_of_ne hr, ← h c r]
      simp [hr]
  · have hmoves : k.Moves prev r ↔ place r = some prev ∧ (k.subs.get r).live = true :=
      and_congr_left fun _ => h prev r
    rw [hd c r]
    change _ ↔ (if place r = some prev ∧ (k.subs.get r).live = true then some next
      else place r) = some c
    by_cases hm : k.Moves prev r
    · rw [if_pos (hmoves.mp hm)]
      have hprev : k.Owns c r → c = prev := fun ho => hwf.unique c prev r ho hm.1
      simp only [hm, and_true, Option.some.injEq]
      refine ⟨fun hc => ?_, fun hc => Or.inl hc.symm⟩
      rcases hc with hc | ⟨ho, hne⟩
      · exact hc.symm
      · exact absurd (hprev ho) hne
    · rw [if_neg (mt hmoves.mpr hm)]
      simp only [hm, and_false, not_false_iff, and_true, false_or]
      exact h c r

theorem Routes.step {place : Routing} (h : k.Routes place) (hwf : k.Wf) (op : Op) :
    (k.step op).Routes (k.follow place (k.reroute op)) := h.follow hwf (rerouted hwf op)

/-! ## Registered owners -/

/-- A registered scene serves `r`. -/
def Reaches (k : Server) (r : SubRef) : Prop := ∃ c, k.Registered c ∧ k.Owns c r

theorem Did.reaches {a : Act} (h : Did k a k') (hwf : k.Wf) {r : SubRef} (hr : r < k.subs.next)
    (hreach : k'.Reaches r) : k.Reaches r := by
  obtain ⟨c, hreg, ho⟩ := hreach
  rcases h with h | ⟨live, opening, -, -⟩ | ⟨cause, -, -⟩ | ⟨-, -⟩ | ⟨active, hprev, -, hne, hsome⟩
  · have howns := h.owns c r ho
    rcases h.registered c hreg with hreg | hfresh
    · exact ⟨c, hreg, howns⟩
    · exact absurd (hwf.owner_lt c r howns) (not_lt.mpr hfresh)
  · rcases (owns_attach ..).mp ho with ⟨-, hnext⟩ | ho
    · exact absurd hnext hr.ne
    · exact ⟨c, hreg, ho⟩
  · exact ⟨c, hreg, (owns_post ..).mp ho⟩
  · exact ⟨c, hreg, (owns_seed ..).mp ho⟩
  · rcases (owns_move active hsome hne c r).mp ho with ⟨-, hmoves⟩ | ⟨ho, -⟩
    · exact ⟨_, hprev, hmoves.1⟩
    · exact ⟨c, hreg, ho⟩

/-- **Nobody comes back**: a subscription no registered scene serves is never served by one
again. -/
theorem reaches_of_step (hwf : k.Wf) (op : Op) {r : SubRef} (hr : r < k.subs.next)
    (h : (k.step op).Reaches r) : k.Reaches r := (did k op).reaches hwf hr h

end Server

end Lumencast
