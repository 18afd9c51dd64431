import Lumencast.Server.Acts

/-!
# Fanout/Contiguity — numbers without gaps, and where they break

A scene has one counter for all its subscribers, and a subscriber that hears of every number drawn
from it stays in line.  One number is not for everyone: when the live subscribers are moved away,
their `SceneChanged` draws a number from the scene they leave, and whoever stays is left `behind`
until the scene is seeded.  An observer keeps the set of those subscribers, and `contiguous_iff`
says that nothing else ever breaks a line.
-/

namespace Lumencast

open Machinery

namespace Subscription

variable {sub : Subscription} {f : Snapshot} {n : ℤ}

/-- Accepting a snapshot that was not lost. -/
theorem accepts_sendOrDrop_snapshot {sc : Scene} (hpos : 1 ≤ sc.currentSeq)
    (h : (sub.sendOrDrop sc.snapshotLetter).stale = false) :
    SequenceTracker.Accepts {} ((sub.sendOrDrop sc.snapshotLetter).stream f) n ↔
      (∃ m, SequenceTracker.Accepts {} (sub.stream f) m) ∧ n = sc.currentSeq := by
  rw [stream_sendOrDrop, if_pos (hasRoom_of_stale h).1]
  exact SequenceTracker.accepts_concat_snapshot hpos

/-- Accepting a delta or a scene change that was not lost. -/
theorem accepts_sendOrDrop_numbered {msg : Letter} {s : ℤ}
    (hmsg : ∀ t : SequenceTracker, t.observe msg.frame = t.observeServer s)
    (hpos : ∀ m, SequenceTracker.Accepts {} (sub.stream f) m → 1 ≤ m)
    (h : (sub.sendOrDrop msg).stale = false) :
    SequenceTracker.Accepts {} ((sub.sendOrDrop msg).stream f) n ↔
      SequenceTracker.Accepts {} (sub.stream f) (s - 1) ∧ n = s := by
  rw [stream_sendOrDrop, if_pos (hasRoom_of_stale h).1]
  exact SequenceTracker.accepts_concat_numbered hmsg hpos

end Subscription

namespace Server

/-- Every subscriber that was opened with a snapshot and lost nothing has a stream its tracker
accepts: no gap, no invalid start, no frame reported as a replay. -/
def Contiguous (k : Server) : Prop :=
  ∀ r f, (k.subs.get r).opening = .snapshot f → (k.subs.get r).stale = false →
    ∃ n, SequenceTracker.Accepts {} ((k.subs.get r).stream f) n

/-- Who is left behind after an act: those a move leaves on `prev`, until their scene is seeded. -/
def leftBehind (k : Server) (behind : Finset SubRef) : Act → Finset SubRef
  | .seed c _ => behind \ (k.objects.get c).subscribers
  | .move prev _ => behind ∪
      ((k.objects.get prev).subscribers \ (k.objects.get prev).liveSubscribers k.subs)
  | _ => behind

/-- An emission reaches, with room in its queue, nobody who is left behind. -/
def ReachesNobody (k : Server) (behind : Finset SubRef) (a : Act) : Prop :=
  ∀ c patches cause, a = .post c patches cause → ∀ r f, k.Owns c r →
    (k.subs.get r).opening = .snapshot f → (k.subs.get r).stale = false →
    (k.subs.get r).HasRoom → r ∉ behind

/-- Where the tracker of a subscriber stands: at `counter`, or short of it if it is left behind. -/
def Stands (sub : Subscription) (counter : ℤ) (behind : Prop) : Prop :=
  ∀ f n, sub.opening = .snapshot f → sub.stale = false →
    SequenceTracker.Accepts {} (sub.stream f) n →
    1 ≤ n ∧ (¬ behind → n = counter) ∧ (behind → n < counter)

/-- Each tracker stands where its scene's counter says, and whoever is left behind is in test
mode. -/
structure Tracked (k : Server) (behind : Finset SubRef) : Prop where
  test : ∀ r ∈ behind, r < k.subs.next ∧ (k.subs.get r).live = false
  stand : ∀ c r, k.Owns c r → Stands (k.subs.get r) (k.objects.get c).currentSeq (r ∈ behind)

/-! ## What each act does to the stream of a subscriber it reaches -/

section Reached

variable {k : Server} {r : SubRef} {f : Snapshot} {n : ℤ}

theorem accepts_fresh {sc : Scene} (hpos : 1 ≤ sc.currentSeq) (live : Bool) (opening : Opening) :
    SequenceTracker.Accepts {}
        (Subscription.stream { live := live, opening := opening } sc.snapshotFrame) n ↔
      n = sc.currentSeq := by
  have hstream : Subscription.stream { live := live, opening := opening } sc.snapshotFrame
      = [] ++ [.snapshot sc.snapshotFrame] := rfl
  rw [hstream, SequenceTracker.accepts_concat_snapshot hpos]
  exact ⟨fun h => h.2, fun h => ⟨⟨0, SequenceTracker.accepts_nil.mpr rfl⟩, h⟩⟩

/-- An emission is accepted by a subscriber whose tracker stands at the scene's counter. -/
theorem accepts_deliver {sc : Scene} {sub : Subscription} {patches : Dict PyStr Json}
    {cause : Option Cause} (hpos : ∀ m, SequenceTracker.Accepts {} (sub.stream f) m → 1 ≤ m)
    (h : ((sc.emitted patches cause).deliver patches cause sub).stale = false) :
    SequenceTracker.Accepts {} (((sc.emitted patches cause).deliver patches cause sub).stream f) n ↔
      SequenceTracker.Accepts {} (sub.stream f) sc.currentSeq ∧ n = sc.currentSeq + 1 := by
  have hroom : sub.HasRoom := (Scene.stale_deliver.mp h).2
  rw [Scene.deliver, Subscription.sendDelta_of_hasRoom hroom] at h ⊢
  rw [Subscription.accepts_sendOrDrop_numbered (fun _ => rfl) hpos h]
  have hseq : (sc.emitted patches cause).currentSeq - 1 = sc.currentSeq := Int.add_sub_cancel _ _
  refine and_congr_left fun _ => ?_
  change SequenceTracker.Accepts {} _ ((sc.emitted patches cause).currentSeq - 1) ↔ _
  rw [hseq]

/-- A hand-over is accepted by a subscriber whose tracker stands at the counter it leaves. -/
theorem accepts_handOver {sc prev : Scene} {sub : Subscription} (hsc : 1 ≤ sc.currentSeq)
    (hpos : ∀ m, SequenceTracker.Accepts {} (sub.stream f) m → 1 ≤ m)
    (h : (sc.handOver prev sub).stale = false) :
    SequenceTracker.Accepts {} ((sc.handOver prev sub).stream f) n ↔
      SequenceTracker.Accepts {} (sub.stream f) prev.currentSeq ∧ n = sc.currentSeq := by
  have hchanged : (sub.sendOrDrop (sc.changedLetter prev)).stale = false :=
    (Subscription.hasRoom_of_stale h).2
  rw [Scene.handOver, Subscription.accepts_sendOrDrop_snapshot hsc h]
  refine and_congr_left fun _ => ⟨?_, fun hprev => ⟨prev.currentSeq + 1, ?_⟩⟩
  · rintro ⟨m, hm⟩
    rw [Subscription.accepts_sendOrDrop_numbered (fun _ => rfl) hpos hchanged,
      Int.add_sub_cancel] at hm
    exact hm.1
  · rw [Subscription.accepts_sendOrDrop_numbered (fun _ => rfl) hpos hchanged, Int.add_sub_cancel]
    exact ⟨hprev, rfl⟩

end Reached

/-! ## One step

A subscriber stands at the counter or is behind it, and which of the two it is follows from what
the steps have been.  The invariant says so of every subscriber at once. -/

section Step

variable {k k' : Server} {a : Act} {behind : Finset SubRef}

theorem Stands.pos {sub : Subscription} {counter : ℤ} {P : Prop} (h : Stands sub counter P)
    {f : Snapshot} (hopen : sub.opening = .snapshot f) (hstale : sub.stale = false) :
    ∀ m, SequenceTracker.Accepts {} (sub.stream f) m → 1 ≤ m :=
  fun m hm => (h f m hopen hstale hm).1

/-- Only one place to stand. -/
theorem Stands.notBehind {sub : Subscription} {counter : ℤ} {P : Prop} (h : Stands sub counter P)
    {f : Snapshot} (hopen : sub.opening = .snapshot f) (hstale : sub.stale = false)
    (hacc : SequenceTracker.Accepts {} (sub.stream f) counter) : ¬ P :=
  fun hP => absurd ((h f counter hopen hstale hacc).2.2 hP) (lt_irrefl _)

/-- A live subscriber is never left behind. -/
theorem Tracked.notMem_of_live (h : Tracked k behind) {r : SubRef}
    (hlive : (k.subs.get r).live = true) : r ∉ behind := fun hr => by
  rw [(h.test r hr).2] at hlive
  cases hlive

/-- Only test-mode subscribers are ever left behind. -/
theorem Tracked.test_leftBehind (h : Tracked k behind) (hwf : k.Wf) :
    ∀ r ∈ k.leftBehind behind a, r < k.subs.next ∧ (k.subs.get r).live = false := by
  intro r hr
  rcases a with _ | c | ⟨c, patches, cause⟩ | ⟨c, patches⟩ | ⟨prev, next⟩
  · exact h.test r hr
  · exact h.test r hr
  · exact h.test r hr
  · exact h.test r (Finset.mem_sdiff.mp hr).1
  · rcases Finset.mem_union.mp hr with hr | hr
    · exact h.test r hr
    · rw [Finset.mem_sdiff, mem_liveSubscribers] at hr
      refine ⟨hwf.owned_lt prev r hr.1, ?_⟩
      by_contra hlive
      exact hr.2 ⟨hr.1, by simpa using hlive⟩

theorem Tracked.quiet (ht : Tracked k behind) (hwf : k.Wf) (h : Quiet k k') :
    ∀ c r, k'.Owns c r → Stands (k'.subs.get r) (k'.objects.get c).currentSeq (r ∈ behind) := by
  intro c r howns f n hopen hstale hacc
  have hsame := h.history r
  have ho := h.owns c r howns
  have hstream : (k'.subs.get r).stream f = (k.subs.get r).stream f := by
    rw [Subscription.stream, Subscription.stream, hsame.frames]
  rw [Scene.currentSeq, h.seq c (hwf.owner_lt c r ho)]
  exact ht.stand c r ho f n (hsame.opening ▸ hopen) (hsame.stale ▸ hstale) (hstream ▸ hacc)

theorem Tracked.attach (ht : Tracked k behind) (hwf : k.Wf) {c₀ : SceneRef} (live : Bool)
    {opening : Opening}
    (hopening : ∀ f, opening = .snapshot f → f = (k.objects.get c₀).snapshotFrame) :
    ∀ c r, (k.attach c₀ live opening).Owns c r → Stands ((k.attach c₀ live opening).subs.get r)
      ((k.attach c₀ live opening).objects.get c).currentSeq (r ∈ behind) := by
  intro c r howns
  rw [Scene.currentSeq, seq_attach]
  rcases hwf.owner_attach howns with ⟨hc, hnew⟩ | ⟨ho, hold⟩
  · have hnot : r ∉ behind := fun hr => absurd (hnew ▸ (ht.test r hr).1) (lt_irrefl _)
    intro f n hopen _ hacc
    rw [hnew, sub_attach_next] at hopen hacc
    rw [hopening f hopen, accepts_fresh (hwf.seq_pos c₀)] at hacc
    rw [hacc, hc]
    exact ⟨hwf.seq_pos c₀, fun _ => rfl, fun hr => absurd hr hnot⟩
  · rw [sub_attach_of_ne _ _ _ _ hold]
    exact ht.stand c r ho

theorem Tracked.post (ht : Tracked k behind) (hwf : k.Wf) (c₀ : SceneRef)
    (patches : Dict PyStr Json) (cause : Option Cause) :
    ∀ c r, (k.post c₀ patches cause).Owns c r → Stands ((k.post c₀ patches cause).subs.get r)
      ((k.post c₀ patches cause).objects.get c).currentSeq (r ∈ behind) := by
  intro c r howns
  have ho : k.Owns c r := (owns_post ..).mp howns
  rw [sub_post, scene_post]
  by_cases hc : c = c₀
  · subst hc
    rw [if_pos ho, if_pos rfl]
    intro f n hopen hstale hacc
    rw [Scene.opening_deliver] at hopen
    have hstale' : (k.subs.get r).stale = false := (Scene.stale_deliver.mp hstale).1
    have hstand := ht.stand c r ho
    rw [accepts_deliver (hstand.pos hopen hstale') hstale] at hacc
    -- the delta was accepted, so the tracker stood at the counter
    have hnot := hstand.notBehind hopen hstale' hacc.1
    have hpos := hstand.pos hopen hstale' _ hacc.1
    exact ⟨by omega, fun _ => hacc.2, fun hr => absurd hr hnot⟩
  · rw [if_neg (hwf.notOwns ho hc), if_neg hc]
    exact ht.stand c r ho

theorem Tracked.seed (ht : Tracked k behind) (hwf : k.Wf) (c₀ : SceneRef)
    (patches : Dict PyStr Json) :
    ∀ c r, (k.seed c₀ patches).Owns c r → Stands ((k.seed c₀ patches).subs.get r)
      ((k.seed c₀ patches).objects.get c).currentSeq
      (r ∈ behind \ (k.objects.get c₀).subscribers) := by
  intro c r howns
  have ho : k.Owns c r := (owns_seed ..).mp howns
  rw [sub_seed, scene_seed, Finset.mem_sdiff]
  by_cases hc : c = c₀
  · subst hc
    rw [if_pos ho, if_pos rfl]
    intro f n hopen hstale hacc
    have hpos : 1 ≤ ((k.objects.get c).seeded patches).currentSeq := hwf.seq_pos c
    rw [Subscription.accepts_sendOrDrop_snapshot hpos hstale] at hacc
    exact ⟨hacc.2 ▸ hpos, fun _ => hacc.2, fun hr => absurd ho hr.2⟩
  · have hother : ¬ k.Owns c₀ r := hwf.notOwns ho hc
    rw [if_neg hother, if_neg hc]
    have hiff : (r ∈ behind ∧ r ∉ (k.objects.get c₀).subscribers) ↔ r ∈ behind :=
      and_iff_left hother
    rw [hiff]
    exact ht.stand c r ho

theorem Tracked.move (ht : Tracked k behind) (hwf : k.Wf) (active : PyStr)
    {prev next : SceneRef} (hne : prev ≠ next) (hsome : k.MovesSome prev) :
    ∀ c r, (k.move active prev next).Owns c r → Stands ((k.move active prev next).subs.get r)
      ((k.move active prev next).objects.get c).currentSeq
      (r ∈ k.leftBehind behind (.move prev next)) := by
  intro c r howns
  have hbehind : r ∈ k.leftBehind behind (.move prev next) ↔
      r ∈ behind ∨ (k.Owns prev r ∧ ¬ k.Moves prev r) := by
    rw [leftBehind, Finset.mem_union, Finset.mem_sdiff, mem_liveSubscribers]
    rfl
  obtain ⟨subscribers, hscene⟩ := scene_move active hsome hne c
  rw [hbehind, hscene, sub_move active hsome]
  rcases hwf.owner_move hsome hne howns with ⟨rfl, hmoves⟩ | ⟨ho, hunmoved⟩
  · have hnot : r ∉ behind := ht.notMem_of_live hmoves.2
    rw [if_pos hmoves, if_neg hne.symm]
    intro f n hopen hstale hacc
    rw [Scene.opening_handOver] at hopen
    have hstale' : (k.subs.get r).stale = false := Scene.stale_of_handOver hstale
    rw [accepts_handOver (hwf.seq_pos c) ((ht.stand prev r hmoves.1).pos hopen hstale') hstale]
      at hacc
    refine ⟨hacc.2 ▸ hwf.seq_pos c, fun _ => hacc.2, fun hr => ?_⟩
    rcases hr with hr | hr
    · exact absurd hr hnot
    · exact absurd hmoves hr.2
  · rw [if_neg hunmoved]
    intro f n hopen hstale hacc
    obtain ⟨hpos, hat, hshort⟩ := ht.stand c r ho f n hopen hstale hacc
    by_cases hc : c = prev
    · subst hc
      rw [if_pos rfl]
      -- the scene drew a number this subscriber is not told
      have hle : n ≤ (k.objects.get c).currentSeq := by
        by_cases hr : r ∈ behind
        · exact (hshort hr).le
        · exact (hat hr).le
      exact ⟨hpos, fun hr => absurd (Or.inr ⟨ho, hunmoved⟩) hr, fun _ => Int.lt_add_one_of_le hle⟩
    · rw [if_neg hc]
      have hother : ¬ k.Owns prev r := hwf.notOwns ho hc
      refine ⟨hpos, fun hr => hat fun hb => hr (Or.inl hb), fun hr => ?_⟩
      rcases hr with hr | hr
      · exact hshort hr
      · exact absurd hr.1 hother

/-- **One step keeps track of every tracker.** -/
theorem Did.tracked (h : Did k a k') (hwf : k.Wf) (ht : Tracked k behind) :
    Tracked k' (k.leftBehind behind a) := by
  refine ⟨fun r hr => ?_, ?_⟩
  · obtain ⟨hlt, hlive⟩ := ht.test_leftBehind hwf r hr
    exact ⟨(h.live hlt).2, (h.live hlt).1.trans hlive⟩
  rcases h with h | ⟨live, opening, -, hopening⟩ | ⟨cause, -, -⟩ | ⟨-, -⟩ |
    ⟨active, -, -, hne, hsome⟩
  · exact ht.quiet hwf h
  · exact ht.attach hwf live hopening
  · exact ht.post hwf _ _ cause
  · exact ht.seed hwf _ _
  · exact ht.move hwf active hne hsome

theorem Contiguous.quiet (hc : k.Contiguous) (h : Quiet k k') : k'.Contiguous := by
  intro r f hopen hstale
  have hsame := h.history r
  obtain ⟨n, hacc⟩ := hc r f (hsame.opening ▸ hopen) (hsame.stale ▸ hstale)
  refine ⟨n, ?_⟩
  rwa [Subscription.stream, hsame.frames]

theorem Contiguous.attach (hc : k.Contiguous) (hwf : k.Wf) {c : SceneRef} (live : Bool)
    {opening : Opening}
    (hopening : ∀ f, opening = .snapshot f → f = (k.objects.get c).snapshotFrame) :
    (k.attach c live opening).Contiguous := by
  intro r f hopen hstale
  by_cases hnew : r = k.subs.next
  · rw [hnew, sub_attach_next] at hopen ⊢
    rw [hopening f hopen]
    exact ⟨_, (accepts_fresh (hwf.seq_pos c) live opening).mpr rfl⟩
  · rw [sub_attach_of_ne _ _ _ _ hnew] at hopen hstale ⊢
    exact hc r f hopen hstale

theorem Contiguous.seed (hc : k.Contiguous) (hwf : k.Wf) (c : SceneRef)
    (patches : Dict PyStr Json) : (k.seed c patches).Contiguous := by
  intro r f hopen hstale
  rw [sub_seed] at hopen hstale ⊢
  split at hopen
  · rename_i ho
    rw [if_pos ho] at hstale ⊢
    rw [Subscription.opening_sendOrDrop] at hopen
    have hacc := hc r f hopen (Subscription.hasRoom_of_stale hstale).2
    have hpos : 1 ≤ ((k.objects.get c).seeded patches).currentSeq := hwf.seq_pos c
    exact ⟨_, (Subscription.accepts_sendOrDrop_snapshot hpos hstale).mpr ⟨hacc, rfl⟩⟩
  · rename_i ho
    rw [if_neg ho] at hstale ⊢
    exact hc r f hopen hstale

/-- A move breaks no line: it takes every live subscriber along, and those are at the counter. -/
theorem Contiguous.move (hc : k.Contiguous) (hwf : k.Wf) (ht : Tracked k behind) (active : PyStr)
    {prev next : SceneRef} (hsome : k.MovesSome prev) :
    (k.move active prev next).Contiguous := by
  intro r f hopen hstale
  rw [sub_move active hsome] at hopen hstale ⊢
  split at hopen
  · rename_i hmoves
    rw [if_pos hmoves] at hstale ⊢
    rw [Scene.opening_handOver] at hopen
    have hstale' : (k.subs.get r).stale = false := Scene.stale_of_handOver hstale
    have hstand := ht.stand prev r hmoves.1
    obtain ⟨n, hacc⟩ := hc r f hopen hstale'
    have hn := (hstand f n hopen hstale' hacc).2.1 (ht.notMem_of_live hmoves.2)
    rw [hn] at hacc
    exact ⟨_, (accepts_handOver (hwf.seq_pos next) (hstand.pos hopen hstale') hstale).mpr
      ⟨hacc, rfl⟩⟩
  · rename_i hmoves
    rw [if_neg hmoves] at hstale ⊢
    exact hc r f hopen hstale

/-- **An emission breaks the line of exactly those it reaches and who are left behind.** -/
theorem contiguous_post_iff (hc : k.Contiguous) (ht : Tracked k behind) (c : SceneRef)
    (patches : Dict PyStr Json) (cause : Option Cause) :
    (k.post c patches cause).Contiguous ↔ ReachesNobody k behind (.post c patches cause) := by
  constructor
  · rintro h c' patches' cause' heq r f ho hopen hstale hroom
    cases heq
    have hr := h r f
    rw [sub_post, if_pos ho] at hr
    rw [Scene.opening_deliver] at hr
    have hstale' : (((k.objects.get c).emitted patches cause).deliver patches cause
        (k.subs.get r)).stale = false := Scene.stale_deliver.mpr ⟨hstale, hroom⟩
    obtain ⟨n, hacc⟩ := hr hopen hstale'
    have hstand := ht.stand c r ho
    exact hstand.notBehind hopen hstale
      ((accepts_deliver (hstand.pos hopen hstale) hstale').mp hacc).1
  · intro h r f hopen hstale
    rw [sub_post] at hopen hstale ⊢
    split at hopen
    · rename_i ho
      rw [if_pos ho] at hstale ⊢
      rw [Scene.opening_deliver] at hopen
      have hboth : (k.subs.get r).stale = false ∧ (k.subs.get r).HasRoom :=
        Scene.stale_deliver.mp hstale
      have hstand := ht.stand c r ho
      have hnot := h c patches cause rfl r f ho hopen hboth.1 hboth.2
      obtain ⟨n, hacc⟩ := hc r f hopen hboth.1
      rw [(hstand f n hopen hboth.1 hacc).2.1 hnot] at hacc
      exact ⟨_, (accepts_deliver (hstand.pos hopen hboth.1) hstale).mpr ⟨hacc, rfl⟩⟩
    · rename_i ho
      rw [if_neg ho] at hstale ⊢
      exact hc r f hopen hstale

/-- **One step, judged before it is taken.** -/
theorem Did.contiguous_step (h : Did k a k') (hwf : k.Wf) (ht : Tracked k behind)
    (hc : k.Contiguous) : k'.Contiguous ↔ ReachesNobody k behind a := by
  have hother : (∀ c patches cause, a ≠ .post c patches cause) → k'.Contiguous →
      (k'.Contiguous ↔ ReachesNobody k behind a) := fun ha hk' =>
    ⟨fun _ c patches cause heq => absurd heq (ha c patches cause), fun _ => hk'⟩
  rcases h with h | ⟨live, opening, -, hopening⟩ | ⟨cause, -, -⟩ | ⟨-, -⟩ |
    ⟨active, -, -, -, hsome⟩
  · exact hother (fun _ _ _ h => by cases h) (hc.quiet h)
  · exact hother (fun _ _ _ h => by cases h) (hc.attach hwf live hopening)
  · exact contiguous_post_iff hc ht _ _ cause
  · exact hother (fun _ _ _ h => by cases h) (hc.seed hwf _ _)
  · exact hother (fun _ _ _ h => by cases h) (hc.move hwf ht active hsome)

end Step

/-! ## Whole runs -/

/-- **When every stream of a run is contiguous**: exactly when no emission of the run reaches a
subscriber that a move has left behind. -/
theorem contiguous_iff (ops : List Op) : Always step Contiguous {} ops ↔
    Steps (watch leftBehind) (fun w op => ReachesNobody w.1 w.2 (w.1.act op)) ({}, ∅) ops := by
  have hI : Tracked {} ∅ :=
    ⟨fun r hr => absurd hr (Finset.notMem_empty r), fun _ r ho => absurd ho (Finset.notMem_empty r)⟩
  exact always_iff_watch leftBehind hI (fun r f hopen => by cases hopen)
    (fun h hwf ht => h.tracked hwf ht) (fun h hwf ht hc => h.contiguous_step hwf ht hc) ops

/-- A test-mode client stays on scene `0` while the live one is moved away, and the scene emits. -/
def leftBehindRun : List Op :=
  [.newScene "a" "v1" [] true, .newScene "b" "v2" [] true, .scene 0 (.subscribe true),
    .scene 0 (.subscribe false), .setActive "b", .scene 0 (.emit (.ofList [("x", .int 1)]) none)]

/-- **A gap**: the test-mode client of `leftBehindRun` is sent a snapshot numbered `1` and then a
delta numbered `3`, though nothing meant for it was lost. -/
theorem leftBehindRun_gap : ((after leftBehindRun).subs.get 1).stale = false ∧
    (SequenceTracker.feed {} (((after leftBehindRun).subs.get 1).stream
      { sceneId := .str "a", sceneVersion := .str "v1", seq := 1 })) = .error (.gap 2 3) ∧
    ¬ (after leftBehindRun).Contiguous := by
  have hgap : SequenceTracker.feed {} (((after leftBehindRun).subs.get 1).stream
      { sceneId := .str "a", sceneVersion := .str "v1", seq := 1 }) = .error (.gap 2 3) := rfl
  refine ⟨rfl, hgap, fun h => ?_⟩
  obtain ⟨n, hn⟩ := h 1 { sceneId := .str "a", sceneVersion := .str "v1", seq := 1 } rfl rfl
  rw [SequenceTracker.Accepts, hgap] at hn
  cases hn

end Server

end Lumencast
