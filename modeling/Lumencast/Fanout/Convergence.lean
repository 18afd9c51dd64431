import Lumencast.Fanout.Feed

/-!
# Fanout/Convergence — a subscriber holds what its scene holds

A loss makes the `stale` flag true and the flag is never cleared (`Marked`), and until a loss the
replica of `Fanout/Feed` is in step with the scene that owns it, whichever scene that is
(`Converged`).  Each step keeps both, so a subscriber whose flag is down holds its scene's content.
-/

namespace Lumencast

open Machinery

/-- Losing an offer leaves the flag up. -/
def Subscription.Marked (sub : Subscription) : Prop :=
  sub.stale = false → ∀ o ∈ sub.offers, o.taken = true

namespace Subscription

theorem Marked.sendOrDrop {sub : Subscription} (h : sub.Marked) (msg : Letter) :
    (sub.sendOrDrop msg).Marked := by
  intro hstale o ho
  rw [stale_sendOrDrop, Bool.or_eq_false_iff, Bool.not_eq_false'] at hstale
  rw [offers_sendOrDrop, List.mem_append, List.mem_singleton] at ho
  rcases ho with ho | rfl
  · exact h hstale.1 o ho
  · exact hstale.2

theorem Marked.sendDelta {sub : Subscription} (h : sub.Marked) (delta snap : Letter) :
    (sub.sendDelta delta snap).Marked := by
  by_cases hroom : sub.HasRoom
  · rw [sendDelta_of_hasRoom hroom]
    exact h.sendOrDrop delta
  · intro hstale
    rw [stale_sendDelta, decide_eq_false hroom, Bool.not_false, Bool.or_true] at hstale
    cases hstale

theorem Marked.sameHistory {sub sub' : Subscription} (h : sub.Marked)
    (hsame : sub.SameHistory sub') : sub'.Marked := fun hstale => by
  rw [hsame.offers]
  exact h (hsame.stale ▸ hstale)

end Subscription

namespace Server

/-- Every lost frame is remembered by the flag of its subscription. -/
def AllMarked (k : Server) : Prop := ∀ r, (k.subs.get r).Marked

theorem Did.allMarked {k k' : Server} {a : Act} (h : Did k a k') (hmarked : k.AllMarked) :
    k'.AllMarked := fun r =>
  h.keeps (hmarked r) (fun hsame hsub => hsub.sameHistory hsame)
    (fun _ _ _ _ ho => absurd ho List.not_mem_nil)
    (fun _ _ _ _ _ => (hmarked r).sendDelta _ _) (fun _ _ hsub => hsub.sendOrDrop _)
    (fun _ _ _ _ => ((hmarked r).sendOrDrop _).sendOrDrop _)

theorem allMarked_after (ops : List Op) : (after ops).AllMarked :=
  after_invariant (fun _ _ _ ho => absurd ho List.not_mem_nil)
    (fun h _ hmarked => h.allMarked hmarked) ops

/-- A subscriber opened with a snapshot is in step with the scene that owns it. -/
def Converged (k : Server) : Prop :=
  ∀ c r f, k.Owns c r → (k.subs.get r).opening = .snapshot f →
    feed.InSync f.state (k.subs.get r).offers (k.objects.get c).store.state

section Step

variable {k k' : Server}

theorem Converged.quiet (hconv : k.Converged) (h : Quiet k k') : k'.Converged := by
  intro c r f howns hopen
  have hsame := h.history r
  rw [h.content c r howns, hsame.offers]
  exact hconv c r f (h.owns c r howns) (hsame.opening ▸ hopen)

/-- A newcomer holds what the scene holds. -/
theorem Converged.attach (hconv : k.Converged) (hwf : k.Wf) {c₀ : SceneRef} (live : Bool)
    {opening : Opening}
    (hopening : ∀ f, opening = .snapshot f → f = (k.objects.get c₀).snapshotFrame) :
    (k.attach c₀ live opening).Converged := by
  intro c r f howns hopen
  rw [store_attach]
  rcases hwf.owner_attach howns with ⟨hc, hnew⟩ | ⟨ho, hold⟩
  · rw [hnew, sub_attach_next] at hopen ⊢
    intro _
    rw [hopening f hopen, hc]
    rfl
  · rw [sub_attach_of_ne _ _ _ _ hold] at hopen ⊢
    exact hconv c r f ho hopen

/-- The store and everyone attached to it take the same delta. -/
theorem Converged.post (hconv : k.Converged) (hwf : k.Wf) (c₀ : SceneRef)
    (patches : Dict PyStr Json) (cause : Option Cause) : (k.post c₀ patches cause).Converged := by
  intro c r f howns hopen
  have ho : k.Owns c r := (owns_post ..).mp howns
  rw [sub_post] at hopen ⊢
  rw [scene_post]
  by_cases hc : c = c₀
  · subst hc
    rw [if_pos ho, Scene.opening_deliver] at hopen
    rw [if_pos ho, if_pos rfl]
    exact inSync_deliver (hconv c r f ho hopen)
  · rw [if_neg (hwf.notOwns ho hc)] at hopen ⊢
    rw [if_neg hc]
    exact hconv c r f ho hopen

/-- Whoever is attached to a seeded scene is sent all of it. -/
theorem Converged.seed (hconv : k.Converged) (hwf : k.Wf) (c₀ : SceneRef)
    (patches : Dict PyStr Json) : (k.seed c₀ patches).Converged := by
  intro c r f howns hopen
  have ho : k.Owns c r := (owns_seed ..).mp howns
  rw [sub_seed] at hopen ⊢
  rw [scene_seed]
  by_cases hc : c = c₀
  · subst hc
    rw [if_pos ho, if_pos rfl]
    exact inSync_sendOrDrop_snapshot _
  · rw [if_neg (hwf.notOwns ho hc)] at hopen ⊢
    rw [if_neg hc]
    exact hconv c r f ho hopen

/-- Whoever is moved is sent all of the scene it is moved to. -/
theorem Converged.move (hconv : k.Converged) (hwf : k.Wf) (active : PyStr)
    {prev next : SceneRef} (hne : prev ≠ next) (hsome : k.MovesSome prev) :
    (k.move active prev next).Converged := by
  intro c r f howns hopen
  rw [sub_move active hsome] at hopen ⊢
  rw [store_move active hsome hne]
  rcases hwf.owner_move hsome hne howns with ⟨rfl, hmoves⟩ | ⟨ho, hstays⟩
  · rw [if_pos hmoves]
    exact inSync_handOver _ _
  · rw [if_neg hstays] at hopen ⊢
    exact hconv c r f ho hopen

/-- **One step keeps every subscriber in step**, whatever the step does and whoever owns it
after. -/
theorem Did.converged {a : Act} (h : Did k a k') (hwf : k.Wf) (hconv : k.Converged) :
    k'.Converged := by
  rcases h with h | ⟨live, opening, -, hopening⟩ | ⟨cause, -, -⟩ | ⟨-, -⟩ |
    ⟨active, -, -, hne, hsome⟩
  · exact hconv.quiet h
  · exact hconv.attach hwf live hopening
  · exact hconv.post hwf _ _ cause
  · exact hconv.seed hwf _ _
  · exact hconv.move hwf active hne hsome

end Step

theorem converged_after (ops : List Op) : (after ops).Converged :=
  after_invariant (fun _ r _ ho => absurd ho (Finset.notMem_empty r))
    (fun h hwf hconv => h.converged hwf hconv) ops

/-- **Live convergence** — after any run, a subscriber that was opened with a snapshot, is attached
to a scene and is not stale holds that scene's content: folding `absorbServerFrame` over the opening
snapshot and every frame ever put in its queue gives it back. -/
theorem live_convergence [PyRepr] (ops : List Op) (state : Dict PyStr Json) {c : SceneRef}
    {r : SubRef} {f : Snapshot} (howns : (after ops).Owns c r)
    (hopen : ((after ops).subs.get r).opening = .snapshot f)
    (hstale : ((after ops).subs.get r).stale = false) :
    absorbStream state (((after ops).subs.get r).stream f)
      = some ((after ops).objects.get c).store.state := by
  have howed : feed.owed ((after ops).subs.get r).offers = false :=
    Feed.owed_eq_false_of_taken (allMarked_after ops r hstale)
  have hsync := converged_after ops c r f howns hopen howed
  rw [Subscription.stream, absorbStream_eq, List.foldl_cons, foldl_frames]
  exact congrArg some hsync

/-- A live client is handed over from one scene to another, which is then seeded and emits. -/
def handOverRun : List Op :=
  [.newScene "a" "v1" [] true, .newScene "b" "v2" [] true, .scene 0 (.subscribe true),
    .scene 0 (.emit (.ofList [("x", .int 1)]) none), .setActive "b",
    .scene 1 (.set (.ofList [("y", .int 2)])),
    .scene 1 (.emit (.ofList [("x", .int 3)]) none), .dequeue 0]

theorem live_convergence_handOverRun :
    @absorbStream PyRepr.plain .empty (((after handOverRun).subs.get 0).stream
        { sceneId := .str "a", sceneVersion := .str "v1", seq := 1 })
      = some ((after handOverRun).objects.get 1).store.state :=
  @live_convergence PyRepr.plain handOverRun .empty 1 0 _ (by decide) rfl rfl

end Server

end Lumencast
