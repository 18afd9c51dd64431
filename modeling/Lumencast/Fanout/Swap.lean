import Lumencast.Server.Acts

/-!
# Fanout/Swap — a scene change and the snapshot that must follow it

A move offers two frames to each subscriber, a `SceneChanged` and a `Snapshot` of the new scene, and
each may be refused on its own.  They go through together, or are lost together, unless the queue
has exactly one free slot.
-/

namespace Lumencast

open Machinery

/-- Each scene change is immediately followed by a snapshot of the scene it names. -/
def Paired : List Frame → Prop
  | [] => True
  | f :: fs => (∀ s, f = .sceneChanged s → ∃ g, fs.head? = some (.snapshot g) ∧
      g.sceneId = s.sceneId) ∧ Paired fs

namespace Paired

theorem append : ∀ {fs gs : List Frame}, Paired fs → Paired gs → Paired (fs ++ gs)
  | [], _, _, hgs => hgs
  | f :: fs, gs, hfs, hgs => by
      refine ⟨fun s hs => ?_, append hfs.2 hgs⟩
      obtain ⟨g, hhead, hid⟩ := hfs.1 s hs
      refine ⟨g, ?_, hid⟩
      change (fs ++ gs).head? = _
      rw [List.head?_append, hhead]
      rfl

/-- A frame that changes no scene can be added. -/
theorem concat {fs : List Frame} (h : Paired fs) {f : Frame} (hf : ∀ s, f ≠ .sceneChanged s) :
    Paired (fs ++ [f]) := h.append ⟨fun s hs => absurd hs (hf s), trivial⟩

/-- A scene change cannot come last. -/
theorem not_concat (s : SceneChanged) : ∀ fs : List Frame, ¬ Paired (fs ++ [.sceneChanged s])
  | [], h => by
      obtain ⟨g, hhead, -⟩ := h.1 s rfl
      cases hhead
  | _ :: fs, h => not_concat s fs h.2

end Paired

namespace Subscription

/-- A delta or a snapshot keeps the pairs. -/
theorem paired_sendOrDrop {sub : Subscription} (h : Paired sub.frames) {msg : Letter}
    (hmsg : ∀ s, msg.frame ≠ .sceneChanged s) : Paired (sub.sendOrDrop msg).frames := by
  rw [frames_sendOrDrop]
  split
  · exact h.concat hmsg
  · rwa [List.append_nil]

theorem paired_sendDelta {sub : Subscription} (h : Paired sub.frames) {delta snap : Letter}
    (hdelta : ∀ s, delta.frame ≠ .sceneChanged s) : Paired (sub.sendDelta delta snap).frames := by
  by_cases hroom : sub.HasRoom
  · rw [sendDelta_of_hasRoom hroom]
    exact paired_sendOrDrop h hdelta
  · rw [frames, delivered_sendDelta, if_neg hroom, List.append_nil]
    exact h

/-- What a hand-over puts in the queue, by the number of free slots. -/
theorem frames_handOver (sc prev : Scene) (sub : Subscription) :
    (sc.handOver prev sub).frames = sub.frames ++
      if sub.HasRoom then
        if sub.queue.items.length + 1 < sub.queue.maxsize
        then [(sc.changedLetter prev).frame, sc.snapshotLetter.frame]
        else [(sc.changedLetter prev).frame]
      else [] := by
  have hroom₂ := hasRoom_sendOrDrop sub (sc.changedLetter prev)
  rw [Scene.handOver, frames_sendOrDrop, frames_sendOrDrop]
  by_cases hroom : sub.HasRoom
  · rw [if_pos hroom, if_pos hroom, List.append_assoc]
    by_cases htwo : sub.queue.items.length + 1 < sub.queue.maxsize
    · rw [if_pos (hroom₂.mpr htwo), if_pos htwo]
      rfl
    · rw [if_neg fun h => htwo (hroom₂.mp h), if_neg htwo]
      rfl
  · have hone : ¬ sub.queue.items.length < sub.queue.maxsize := hroom
    have hfull : ¬ (sub.sendOrDrop (sc.changedLetter prev)).HasRoom := fun h =>
      hone (Nat.lt_of_succ_lt (hroom₂.mp h))
    rw [if_neg hroom, if_neg hroom, if_neg hfull, List.append_nil]

/-- **A hand-over is complete exactly when the queue does not have one free slot.** -/
theorem paired_handOver_iff {sc prev : Scene} {sub : Subscription} (h : Paired sub.frames) :
    Paired (sc.handOver prev sub).frames ↔ sub.queue.items.length + 1 ≠ sub.queue.maxsize := by
  rw [frames_handOver]
  by_cases hroom : sub.HasRoom
  · have hlt : sub.queue.items.length < sub.queue.maxsize := hroom
    rw [if_pos hroom]
    by_cases htwo : sub.queue.items.length + 1 < sub.queue.maxsize
    · rw [if_pos htwo]
      refine ⟨fun _ => htwo.ne, fun _ => h.append ⟨fun s hs => ?_, fun s hs => ?_, trivial⟩⟩
      · cases hs
        exact ⟨sc.snapshotFrame, rfl, rfl⟩
      · cases hs
    · rw [if_neg htwo]
      exact ⟨fun hp => absurd hp (Paired.not_concat _ _), fun hne => absurd (by omega) hne⟩
  · have hge : ¬ sub.queue.items.length < sub.queue.maxsize := hroom
    rw [if_neg hroom, List.append_nil]
    exact ⟨fun _ => by omega, fun _ => h⟩

end Subscription

namespace Server

/-- Every client is given its scene changes in pairs. -/
def AllPaired (k : Server) : Prop := ∀ r, Paired (k.subs.get r).frames

/-- No subscriber is moved with exactly one free slot. -/
def NoHalfMove (k : Server) (a : Act) : Prop :=
  ∀ prev next, a = .move prev next → ∀ r, k.Moves prev r →
    (k.subs.get r).queue.items.length + 1 ≠ QUEUE_MAXSIZE

theorem Did.paired {k k' : Server} {a : Act} (h : Did k a k') (hwf : k.Wf) (hp : k.AllPaired) :
    k'.AllPaired ↔ NoHalfMove k a := by
  have hmoved : ∀ {prev next : SceneRef} {r : SubRef},
      Paired ((k.objects.get next).handOver (k.objects.get prev) (k.subs.get r)).frames ↔
        (k.subs.get r).queue.items.length + 1 ≠ QUEUE_MAXSIZE := fun {prev next r} => by
    rw [Subscription.paired_handOver_iff (hp r), hwf.maxsize_eq]
  constructor
  · rintro hk' prev next rfl r hmoves
    have hr := hk' r
    rwa [h.sub_moved hmoves, hmoved] at hr
  · intro hroom r
    refine @Did.keeps k k' a (fun sub => Paired sub.frames) r h (hp r) (fun hsame hsub => ?_)
      (fun _ _ => trivial) (fun c patches cause _ _ => ?_) (fun sc sub hsub => ?_)
      (fun prev next heq hmoves => hmoved.mpr (hroom prev next heq r hmoves))
    · rw [hsame.frames]
      exact hsub
    · exact Subscription.paired_sendDelta (hp r) fun s h => by cases h
    · exact Subscription.paired_sendOrDrop hsub fun s h => by cases h

/-- **When every scene change of a run is complete**: exactly when no move of the run finds a
subscriber with `255` frames waiting. -/
theorem paired_iff (ops : List Op) :
    Always step AllPaired {} ops ↔ Steps step (fun k op => NoHalfMove k (k.act op)) {} ops :=
  @always_iff_steps _ _ step Wf _ _ {} wf_empty (fun _ => trivial) wf_step
    (fun k op hwf hp => (did k op).paired hwf hp) ops

/-- A live client on the first of two scenes. -/
def watchedRun : List Op :=
  [.newScene "a" "v1" [] true, .newScene "b" "v2" [] true, .scene 0 (.subscribe true)]

/-- It reads nothing while its scene emits `255` times. -/
def halfMoveRun : List Op :=
  watchedRun ++ List.replicate 255 (.scene 0 (.emit (.ofList [("x", .int 1)]) none))

theorem filled_halfMoveRun : Filled (after watchedRun) (after halfMoveRun) 0 0 255 := by
  have hlen : ((after watchedRun).subs.get 0).queue.items.length = 0 := rfl
  have hmax : ((after watchedRun).subs.get 0).queue.maxsize = 256 := rfl
  have hrun : after halfMoveRun = run step (after watchedRun)
      (List.replicate 255 (.scene 0 (.emit (.ofList [("x", .int 1)]) none))) := run_append ..
  rw [hrun]
  exact filled_emits none rfl 255 (after watchedRun) (by decide) (by decide) (by omega)

/-- A switch that finds one free slot. -/
theorem unpaired_of_filled {k : Server} (hwf : k.Wf) (h : Filled (after watchedRun) k 0 0 255) :
    ¬ (k.step (.setActive "b")).AllPaired := by
  have hswap : k.swap "b" = some (0, 1) := by
    rw [swap, activeScene, h.scenes, h.active]
    rfl
  have hlive : (k.subs.get 0).live = true := by
    rw [h.live]
    rfl
  have hmoves : k.Moves 0 0 := ⟨h.owns, hlive⟩
  have hsome : k.MovesSome 0 := movesSome_iff.mpr ⟨0, hmoves⟩
  have hact : k.act (.setActive "b") = .move 0 1 := by
    simp only [act, hswap]
    exact if_neg hsome
  have hdid := did k (.setActive "b")
  rw [hact] at hdid
  have hlen : (k.subs.get 0).queue.items.length = 255 := h.length
  have hroom : (k.subs.get 0).HasRoom := by
    rw [Subscription.HasRoom, BoundedQueue.HasRoom, hlen, hwf.maxsize_eq]
    decide
  intro hpaired
  have hzero := hpaired 0
  rw [hdid.sub_moved hmoves, Subscription.frames_handOver, if_pos hroom, hlen, hwf.maxsize_eq,
    if_neg (by decide)] at hzero
  exact Paired.not_concat _ _ hzero

/-- **Half a scene change**: the next switch has room for the `SceneChanged` and none for the
snapshot. -/
theorem halfMoveRun_unpaired : ¬ (after (halfMoveRun ++ [.setActive "b"])).AllPaired := by
  rw [after, run_concat]
  exact unpaired_of_filled (wf_after halfMoveRun) filled_halfMoveRun

end Server

end Lumencast
