import Lumencast.Server.Tasks

/-!
# Resume/Serial — store order is sequence order

`emit` writes to the store under one lock and draws its number under another, so two emissions could
be published in the wrong order if a task could lose control in between.  None can: every method is
sound (`sound_task`), so the calls of all tasks run one after another, and the writes reach the
store in the order of their numbers.
-/

namespace Lumencast

open Machinery Scene

section Serial

variable (st₀ : Scene × Subs)

/-- While a call runs: the store is what the writes left of it, and the emissions that reached it
were numbered in that order, the last one perhaps not yet. -/
structure Ordered (store : Store) (replay : ReplayBuffer) (reached : List Write)
    (issued : List ReplayRecord) : Prop where
  overlay : store.state = reached.foldl Write.apply st₀.1.store.state
  order : ∃ log pending, reached.filterMap emission? = log ++ pending ∧ pending.length ≤ 1 ∧
    issued = numbered (st₀.1.currentSeq + 1) log
  ring : replay.records.items = (st₀.1.replay.records.items ++ issued).drop
    ((st₀.1.replay.records.items ++ issued).length - replay.records.maxlen)

/-- The same, of what the tasks share. -/
abbrev Shared.Ordered (s : Shared) : Prop :=
  Lumencast.Ordered st₀ s.scene.store s.scene.replay s.reached s.issued

/-- While no emission is under way: each that reached the store has its number. -/
structure Shared.Settled (s : Shared) : Prop where
  overlay : s.scene.store.state = s.reached.foldl Write.apply st₀.1.store.state
  issued : s.issued = numbered (st₀.1.currentSeq + 1) (s.reached.filterMap emission?)
  seq : s.scene.currentSeq = st₀.1.currentSeq + (s.reached.filterMap emission?).length
  ring : s.scene.replay.records.items = (st₀.1.replay.records.items ++ s.issued).drop
    ((st₀.1.replay.records.items ++ s.issued).length - s.scene.replay.records.maxlen)

/-- Between calls: the scene is what the calls left of it, one after another. -/
structure Shared.Serial (s : Shared) : Prop where
  ran : (s.scene, s.subs) = run SceneCall.step st₀ s.calls
  reached : s.reached = SceneCall.writes st₀ s.calls
  settled : s.Settled st₀

variable {st₀}

theorem Shared.Settled.ordered {s : Shared} (h : s.Settled st₀) : s.Ordered st₀ where
  overlay := h.overlay
  order := ⟨_, [], (List.append_nil _).symm, Nat.zero_le 1, h.issued⟩
  ring := h.ring

/-- Nothing has been called yet. -/
theorem serial_start : ({ scene := st₀.1, subs := st₀.2 } : Shared).Serial st₀ where
  ran := rfl
  reached := rfl
  settled := by
    refine ⟨rfl, rfl, (Int.add_zero _).symm, ?_⟩
    have hle := st₀.1.replay.records.length_le
    rw [List.append_nil, Nat.sub_eq_zero_of_le hle]
    rfl

/-- **What a call does to content, counter and ring.** -/
theorem SceneCall.sameLog_step (st : Scene × Subs) (c : SceneCall) :
    SameLog ((c.write st.1).elim st.1 st.1.written) (c.step st).1 := by
  rcases c with op | _ | r
  · exact Scene.sameLog_step st op
  · exact ⟨rfl, rfl, rfl⟩
  · exact ⟨rfl, rfl, rfl⟩

theorem SceneCall.writes_concat (c : SceneCall) : ∀ (cs : List SceneCall) (st : Scene × Subs),
    writes st (cs ++ [c]) = writes st cs ++ (c.write (run SceneCall.step st cs).1).toList
  | [], st => (List.append_nil _).trans (List.nil_append _).symm
  | c' :: cs, st => by
      rw [List.cons_append, writes, writes, writes_concat c cs, run_cons, List.append_assoc]

/-- What a call comes to, if nothing comes between: what it does to the scene, and its entries in
the history. -/
def Shared.after (s : Shared) (c : SceneCall) : Shared where
  scene := (c.step (s.scene, s.subs)).1
  subs := (c.step (s.scene, s.subs)).2
  calls := s.calls
  reached := s.reached ++ (c.write s.scene).toList
  issued := s.issued ++
    numbered (s.scene.currentSeq + 1) ((c.write s.scene).toList.filterMap emission?)

/-- **One more call.** -/
theorem Shared.Serial.call {s : Shared} (h : s.Serial st₀) (c : SceneCall) :
    (Shared.after { s with calls := s.calls ++ [c] } c).Serial st₀ := by
  have hscene : s.scene = (run SceneCall.step st₀ s.calls).1 := congrArg Prod.fst h.ran
  have hlog := SceneCall.sameLog_step (s.scene, s.subs) c
  generalize hs' : Shared.after { s with calls := s.calls ++ [c] } c = s'
  have hscene' : s'.scene = (c.step (s.scene, s.subs)).1 := hs' ▸ rfl
  have hreached : s'.reached = s.reached ++ (c.write s.scene).toList := hs' ▸ rfl
  have hissued : s'.issued = s.issued ++
      numbered (s.scene.currentSeq + 1) ((c.write s.scene).toList.filterMap emission?) := hs' ▸ rfl
  have hcalls : s'.calls = s.calls ++ [c] := hs' ▸ rfl
  refine ⟨?_, ?_, ?_, ?_, ?_, ?_⟩
  · rw [hcalls, run_concat, ← h.ran, ← hs']
    rfl
  · rw [hreached, hcalls, SceneCall.writes_concat, h.reached, ← hscene]
  · rw [hreached, hscene', hlog.store, List.foldl_append, ← h.settled.overlay]
    rcases c.write s.scene with _ | ⟨patches, cause⟩ | patches | _ <;> rfl
  · rw [hissued, hreached, List.filterMap_append, numbered_append, h.settled.issued, h.settled.seq]
    congr 2
    omega
  · have hcur : s'.scene.currentSeq
        = s.scene.currentSeq + ((c.write s.scene).toList.filterMap emission?).length := by
      rw [hscene', currentSeq, hlog.seq]
      rcases c.write s.scene with _ | ⟨patches, cause⟩ | patches | _
      · exact (Int.add_zero _).symm
      · rfl
      · exact (Int.add_zero _).symm
      · exact (Int.add_zero _).symm
    rw [hcur, h.settled.seq, hreached, List.filterMap_append, List.length_append, Int.natCast_add,
      Int.add_assoc]
  · rw [hissued, hscene', hlog.replay]
    have hring := h.settled.ring
    have hsame : s.scene.replay.records.items = (st₀.1.replay.records.items ++ (s.issued ++ [])).drop
        ((st₀.1.replay.records.items ++ (s.issued ++ [])).length
          - s.scene.replay.records.maxlen) := by
      rwa [List.append_nil]
    rcases c.write s.scene with _ | ⟨patches, cause⟩ | patches | _
    · exact hsame
    · have hpush := BoundedDeque.items_append_of_suffix hring
        ⟨s.scene.seq.cur + 1, wirePatches patches.entries, cause⟩
      rw [List.append_assoc] at hpush
      exact hpush
    · exact hsame
    · exact hsame

/-! ## The coroutines, one after another

Each lemma says what a coroutine comes to: it goes on with `next` from the state it leaves. -/

abbrev Runs (st₀ : Scene × Subs) : Coroutine → Set SceneLock → Shared → Prop :=
  Prog.Sound (Shared.Serial st₀) (Shared.Ordered st₀)

variable {s : Shared} {H : Set SceneLock} {next : Coroutine}

theorem runs_snapshot {next : Dict PyStr Json → Coroutine} (hs : s.Ordered st₀)
    (hl : SceneLock.store ∉ H) (hnext : Runs st₀ (next s.scene.store.state) H s) :
    Runs st₀ (Store.snapshotTask next) H s :=
  ⟨hs, hl, hs, Prog.sound_release hs hl hnext⟩

theorem runs_sendOrDrop {r : SubRef} {msg : Shared → Letter} (hs : s.Ordered st₀)
    (hnext : Runs st₀ next H (onSub s r (Subscription.sendOrDrop · (msg s)))) :
    Runs st₀ (sendOrDropTask r msg next) H s := ⟨hs, hnext⟩

theorem onSub_congr {r : SubRef} {f g : Subscription → Subscription}
    (h : f (s.subs.get r) = g (s.subs.get r)) : onSub s r f = onSub s r g := by
  rw [onSub, onSub, Heap.modify, Heap.modify, h]

theorem onSub_onSub (s : Shared) (r : SubRef) (f g : Subscription → Subscription) :
    onSub (onSub s r f) r g = onSub s r (g ∘ f) := by
  have hheap : (s.subs.modify r f).modify r g = s.subs.modify r (g ∘ f) := by
    refine Heap.ext (funext fun r' => ?_) rfl
    rw [Heap.get_modify, Heap.get_modify, Heap.get_modify, Heap.get_modify]
    by_cases hr : r' = r
    · rw [if_pos hr, if_pos hr, if_pos rfl]
      rfl
    · rw [if_neg hr, if_neg hr, if_neg hr]
  rw [onSub, onSub, onSub]
  exact congrArg (fun subs => { s with subs := subs }) hheap

theorem runs_sendDelta {seq : ℤ} {wire : List Patch} {cause : Option Cause} {r : SubRef}
    (hs : s.Ordered st₀) (hl : SceneLock.store ∉ H)
    (hnext : Runs st₀ next H (onSub s r (Subscription.sendDelta ·
      (s.scene.deltaWith seq wire cause) s.scene.snapshotLetter))) :
    Runs st₀ (sendDeltaTask seq wire cause r next) H s := by
  refine ⟨hs, ?_⟩
  dsimp only
  rcases hput : (s.subs.get r).putNowait (s.scene.deltaWith seq wire cause) with _ | sub
  · rw [if_neg (by simp)]
    refine runs_snapshot hs hl (runs_sendOrDrop hs ?_)
    have hsame := @onSub_congr s r
      (Subscription.sendDelta · (s.scene.deltaWith seq wire cause) s.scene.snapshotLetter)
      ((Subscription.sendOrDrop · s.scene.snapshotLetter) ∘ fun sub =>
        (sub.putNowait (s.scene.deltaWith seq wire cause)).getD
          (sub.miss (s.scene.deltaWith seq wire cause)))
      (by dsimp only [Function.comp]; rw [Subscription.sendDelta, hput]; rfl)
    rw [onSub_onSub]
    rwa [hsame] at hnext
  · rw [if_pos (by simp)]
    have hsame := @onSub_congr s r
      (Subscription.sendDelta · (s.scene.deltaWith seq wire cause) s.scene.snapshotLetter)
      (fun sub => (sub.putNowait (s.scene.deltaWith seq wire cause)).getD
        (sub.miss (s.scene.deltaWith seq wire cause)))
      (by rw [Subscription.sendDelta, hput]; rfl)
    rwa [hsame] at hnext

/-- A loop over subscribers that changes each of them. -/
theorem runs_visit {body : SubRef → Coroutine → Coroutine} (f : Subscription → Subscription)
    {rs : Finset SubRef} (hs : s.Ordered st₀) (hbody : ∀ (p : Coroutine) (s' : Shared) (r : SubRef),
      s'.scene = s.scene → s'.Ordered st₀ → Runs st₀ p H (onSub s' r f) →
        Runs st₀ (body r p) H s')
    (hnext : Runs st₀ next H { s with subs := s.subs.modifyAll rs f }) :
    Runs st₀ (Prog.forEach body next (rs.sort (· ≤ ·))) H s := by
  have hfold : ∀ (rs : List SubRef) (s : Shared), rs.foldl (fun s r => onSub s r f) s
      = { s with subs := rs.foldl (fun subs r => subs.modify r f) s.subs } := by
    intro rs
    induction rs with
    | nil => exact fun _ => rfl
    | cons r rs ih => exact fun s => ih (onSub s r f)
  refine Prog.sound_forEach (g := fun s r => onSub s r f)
    (I := fun s' => s'.scene = s.scene ∧ s'.Ordered st₀) (fun _ _ h => h)
    (fun p s' r h hp => hbody p s' r h.1 h.2 hp) _ s ⟨rfl, hs⟩ ?_
  rw [hfold, Heap.foldl_modify f _ _ (Finset.sort_nodup ..), Finset.sort_toFinset]
  exact hnext

/-- A batch that reaches the store. -/
theorem runs_apply {w : Write} {patches : Dict PyStr Json} {raised : Coroutine}
    {next : List (PyStr × Json) → Coroutine} (hp : patches.isEmpty = false) (hs : s.Ordered st₀)
    (hl : SceneLock.store ∉ H) {s' : Shared}
    (hs' : s' = { s with
      scene := { s.scene with store := ⟨s.scene.store.state.update patches.entries⟩ }
      reached := s.reached ++ [w] })
    (hordered : s'.Ordered st₀) (hnext : Runs st₀ (next patches.entries) H s') :
    Runs st₀ (Store.applyTask w patches raised next) H s := by
  subst hs'
  rw [Store.applyTask, if_neg (by rw [hp]; exact Bool.false_ne_true)]
  exact ⟨hs, hl, hs, Prog.sound_release hordered hl hnext⟩

theorem runs_refreshAll (hs : s.Ordered st₀) (hH : H = ∅)
    (hnext : Runs st₀ next H { s with subs := s.scene.refreshAll s.subs }) :
    Runs st₀ (refreshAllTask next) H s := by
  subst hH
  have hscene : SceneLock.scene ∉ (∅ : Set SceneLock) := Set.notMem_empty _
  have hstore : SceneLock.store ∉ insert SceneLock.scene (∅ : Set SceneLock) := by simp
  refine ⟨hs, hscene, runs_snapshot hs hstore ⟨hs, ?_⟩⟩
  refine runs_visit (Subscription.sendOrDrop · s.scene.snapshotLetter) hs
    (fun p s' r heq hs' hp => runs_sendOrDrop hs' ?_)
    (Prog.sound_release hs hscene hnext)
  rw [heq]
  exact hp

/-- A call that writes nothing has no entry in the history. -/
theorem after_of_no_write {c : SceneCall} (h : c.write s.scene = none) : s.after c
    = { s with
      scene := (c.step (s.scene, s.subs)).1
      subs := (c.step (s.scene, s.subs)).2 } := by
  rw [Shared.after, h, Option.toList_none, List.append_nil, List.filterMap_nil, numbered,
    List.append_nil]

theorem after_of_unchanged {c : SceneCall} (h : c.write s.scene = none)
    (hstep : c.step (s.scene, s.subs) = (s.scene, s.subs)) : s.after c = s := by
  rw [after_of_no_write h, hstep]

theorem runs_set {patches : Dict PyStr Json} (hs : s.Settled st₀)
    (hnext : Runs st₀ next ∅ (s.after (.call (.set patches)))) :
    Runs st₀ (setTask patches next) ∅ s := by
  have hordered := hs.ordered
  rcases hp : patches.isEmpty with _ | _
  · have hafter : s.after (.call (.set patches)) = { s with
        scene := s.scene.seeded patches
        subs := (s.scene.seeded patches).refreshAll s.subs
        reached := s.reached ++ [.seeding patches] } := by
      rw [Shared.after, SceneCall.write, SceneCall.step, write, step_set, hp]
      change Shared.mk _ _ _ _ (s.issued ++ []) = _
      rw [List.append_nil]
      rfl
    rw [hafter] at hnext
    rw [setTask, if_neg (by rw [hp]; exact Bool.false_ne_true)]
    have hseeded : Ordered st₀ (s.scene.seeded patches).store s.scene.replay
        (s.reached ++ [.seeding patches]) s.issued := by
      refine ⟨?_, ?_, hordered.ring⟩
      · rw [List.foldl_concat, ← hordered.overlay]
        rfl
      · rw [List.filterMap_append]
        exact (List.append_nil (s.reached.filterMap emission?)).symm ▸ hordered.order
    exact runs_apply hp hordered (Set.notMem_empty _) rfl hseeded
      (runs_refreshAll hseeded rfl hnext)
  · rw [after_of_unchanged (by rw [SceneCall.write, write, hp]; rfl)
      (by rw [SceneCall.step, step_set, hp]; rfl)] at hnext
    rw [setTask, if_pos hp]
    exact hnext

/-- What an emission comes to. -/
theorem after_emission {c : SceneCall} {patches : Dict PyStr Json} {cause : Option Cause}
    (hwrite : c.write s.scene = some (.emission patches cause))
    (hstep : c.step (s.scene, s.subs) = (s.scene.emitted patches cause,
      s.subs.modifyAll s.scene.subscribers ((s.scene.emitted patches cause).deliver patches cause))) :
    s.after c = { s with
      scene := s.scene.emitted patches cause
      subs := s.subs.modifyAll s.scene.subscribers
        ((s.scene.emitted patches cause).deliver patches cause)
      reached := s.reached ++ [.emission patches cause]
      issued := s.issued ++ [⟨s.scene.seq.cur + 1, wirePatches patches.entries, cause⟩] } := by
  rw [Shared.after, hwrite, hstep]
  rfl

/-- An emission: the write, then the number, and nothing comes between. -/
theorem runs_emit {c : SceneCall} {patches : Dict PyStr Json} {cause : Option Cause}
    (hs : s.Settled st₀) (hp : patches.isEmpty = false)
    (hwrite : c.write s.scene = some (.emission patches cause))
    (hstep : c.step (s.scene, s.subs) = (s.scene.emitted patches cause,
      s.subs.modifyAll s.scene.subscribers ((s.scene.emitted patches cause).deliver patches cause)))
    (hnext : Runs st₀ next ∅ (s.after c)) : Runs st₀ (emitTask patches cause next) ∅ s := by
  have hordered := hs.ordered
  rw [after_emission hwrite hstep] at hnext
  have hemission : List.filterMap emission? (s.reached ++ [.emission patches cause])
      = s.reached.filterMap emission? ++ [⟨wirePatches patches.entries, cause⟩] :=
    List.filterMap_append
  have hoverlay : s.scene.store.state.update patches.entries
      = (s.reached ++ [Write.emission patches cause]).foldl Write.apply st₀.1.store.state := by
    rw [List.foldl_concat, ← hordered.overlay]
    rfl
  -- the write has reached the store, its number is yet to be drawn
  have hpending : Ordered st₀ (s.scene.seeded patches).store s.scene.replay
      (s.reached ++ [.emission patches cause]) s.issued :=
    ⟨hoverlay, ⟨_, [_], hemission, le_rfl, hs.issued⟩, hs.ring⟩
  have hnumbered : Ordered st₀ (s.scene.emitted patches cause).store
      (s.scene.emitted patches cause).replay (s.reached ++ [.emission patches cause])
      (s.issued ++ [⟨s.scene.seq.cur + 1, wirePatches patches.entries, cause⟩]) := by
    refine ⟨hoverlay, ⟨_, [], hemission.trans (List.append_nil _).symm, Nat.zero_le 1, ?_⟩, ?_⟩
    · have hcur : s.scene.seq.cur + 1
          = st₀.1.currentSeq + 1 + (s.reached.filterMap emission?).length := by
        have hseq : s.scene.seq.cur = _ := hs.seq
        omega
      rw [numbered_append, ← hs.issued, hcur]
      rfl
    · rw [← List.append_assoc]
      exact BoundedDeque.items_append_of_suffix hs.ring _
  have hscene : SceneLock.scene ∉ (∅ : Set SceneLock) := Set.notMem_empty _
  have hstore : SceneLock.store ∉ insert SceneLock.scene (∅ : Set SceneLock) := by simp
  rw [emitTask, if_neg (by rw [hp]; exact Bool.false_ne_true)]
  refine runs_apply hp hordered (Set.notMem_empty _) rfl hpending
    ⟨hpending, hscene, hpending, ?_⟩
  refine @runs_visit _ _ _ _ _ ((s.scene.emitted patches cause).deliver patches cause) _ hnumbered
    (fun p s' r heq hs' hp' => runs_sendDelta hs' hstore ?_)
    (Prog.sound_release hnumbered hscene hnext)
  rw [heq]
  exact hp'

theorem runs_applyInput {identity : Identity} {patches : List Patch} {cause : Option Cause}
    (hs : s.Settled st₀)
    (hnext : Runs st₀ next ∅ (s.after (.call (.applyInput identity patches cause)))) :
    Runs st₀ (applyInputTask identity patches cause next) ∅ s := by
  refine ⟨hs.ordered, ?_⟩
  by_cases hv : s.scene.verdict identity patches = .ok none
  · dsimp only
    rw [hv]
    exact @runs_emit _ _ _ (.call (.applyInput identity patches cause)) _ _ hs
      (isEmpty_asDict_of_verdict hv) (by rw [SceneCall.write, write, hv])
      (@step_applyInput_of_ok (s.scene, s.subs) _ _ cause hv) hnext
  · have hwrite : SceneCall.write s.scene (.call (.applyInput identity patches cause)) = none := by
      rw [SceneCall.write, write]
      split
      · exact absurd ‹_› hv
      · rfl
    rw [after_of_unchanged hwrite
      (@step_applyInput_of_ne (s.scene, s.subs) _ _ cause hv)] at hnext
    dsimp only
    split
    · exact absurd ‹_› hv
    · exact hnext

/-- The subscribers are dropped under the scene's lock, and only then is the store cleared. -/
theorem runs_reset (hs : s.Settled st₀) (hnext : Runs st₀ next ∅ (s.after (.call .reset))) :
    Runs st₀ (Scene.resetTask next) ∅ s := by
  have hordered := hs.ordered
  have hafter : s.after (.call .reset) = { s with
      scene := { s.scene with subscribers := ∅, store := s.scene.store.reset }
      subs := s.subs.modifyAll s.scene.subscribers Subscription.close
      reached := s.reached ++ [.clearing] } := by
    change Shared.mk _ _ _ _ (s.issued ++ []) = _
    rw [List.append_nil]
    rfl
  rw [hafter] at hnext
  have hcleared : Ordered st₀ s.scene.store.reset s.scene.replay (s.reached ++ [.clearing])
      s.issued := by
    refine ⟨by rw [List.foldl_concat]; rfl, ?_, hordered.ring⟩
    rw [List.filterMap_append]
    exact (List.append_nil (s.reached.filterMap emission?)).symm ▸ hordered.order
  have hscene : SceneLock.scene ∉ (∅ : Set SceneLock) := Set.notMem_empty _
  refine ⟨hordered, hscene, hordered, Prog.sound_release hordered hscene ?_⟩
  refine @runs_visit _ _ _ _ _ Subscription.close _ hordered
    (fun p s' r heq hs' hp => ⟨hs', hp⟩) ?_
  exact ⟨hordered, Set.notMem_empty _, hordered,
    Prog.sound_release hcleared (Set.notMem_empty _) hnext⟩

/-- A subscription that is created, attached and opened. -/
theorem noteOpening_addSubscriber (s : Shared) (sub : Subscription) (opening : Opening) :
    noteOpening (addSubscriber { s with subs := s.subs.alloc sub } s.subs.next) s.subs.next opening
      = { s with
        scene := { s.scene with subscribers := insert s.subs.next s.scene.subscribers }
        subs := s.subs.alloc { sub with opening := opening } } := by
  rw [noteOpening, onSub]
  exact congrArg (fun subs => Shared.mk _ subs _ _ _) (Heap.modify_alloc ..)

/-- A subscriber is attached and its snapshot read under the scene's lock. -/
theorem runs_subscribe {live : Bool} (hs : s.Settled st₀)
    (hnext : Runs st₀ next ∅ (s.after (.call (.subscribe live)))) :
    Runs st₀ (subscribeTask live next) ∅ s := by
  have hordered := hs.ordered
  have hscene : SceneLock.scene ∉ (∅ : Set SceneLock) := Set.notMem_empty _
  have hstore : SceneLock.store ∉ insert SceneLock.scene (∅ : Set SceneLock) := by simp
  rw [after_of_no_write rfl] at hnext
  refine ⟨hordered, hordered, hscene, hordered, runs_snapshot hordered hstore
    (Prog.sound_release hordered hscene ⟨hordered, ?_⟩)⟩
  exact (congrArg (Runs st₀ next ∅) (noteOpening_addSubscriber s { live := live }
      (.snapshot s.scene.snapshotFrame))).mpr hnext

theorem runs_subscribeWithResume {live : Bool} {since : Option ℤ} (hs : s.Settled st₀)
    (hnext : Runs st₀ next ∅ (s.after (.call (.subscribeWithResume live since)))) :
    Runs st₀ (subscribeWithResumeTask live since next) ∅ s := by
  have hordered := hs.ordered
  have hscene : SceneLock.scene ∉ (∅ : Set SceneLock) := Set.notMem_empty _
  have hstore : SceneLock.store ∉ insert SceneLock.scene (∅ : Set SceneLock) := by simp
  rw [after_of_no_write rfl] at hnext
  refine ⟨hordered, hordered, hscene, hordered, runs_snapshot hordered hstore ⟨hordered, ?_⟩⟩
  dsimp only
  split
  · rename_i hresumes
    replace hresumes : s.scene.resumes since = true := hresumes
    have hopening : openingOf (s.scene.resumeAnswer since)
        = .replay ((since.map fun n => (s.scene.replay.since n).records).getD []) := by
      rw [resumeAnswer, if_pos hresumes]
      rfl
    rw [SceneCall.step, Scene.step, subscribeWithResume, hopening] at hnext
    refine ⟨hordered, Prog.sound_release hordered hscene ?_⟩
    exact (congrArg (Runs st₀ next ∅) (noteOpening_addSubscriber s { live := live } _)).mpr hnext
  · rename_i hresumes
    replace hresumes : ¬ s.scene.resumes since = true := hresumes
    have hopening : openingOf (s.scene.resumeAnswer since) = .snapshot s.scene.snapshotFrame := by
      rw [resumeAnswer, if_neg hresumes]
      rfl
    rw [SceneCall.step, Scene.step, subscribeWithResume, hopening] at hnext
    refine Prog.sound_release hordered hscene ⟨hordered, ?_⟩
    exact (congrArg (Runs st₀ next ∅) (noteOpening_addSubscriber s { live := live }
      (.snapshot s.scene.snapshotFrame))).mpr hnext

theorem runs_unsubscribe {r : SubRef} (hs : s.Settled st₀)
    (hnext : Runs st₀ next ∅ (s.after (.call (.unsubscribe r)))) :
    Runs st₀ (unsubscribeTask r next) ∅ s := by
  have hordered := hs.ordered
  have hscene : SceneLock.scene ∉ (∅ : Set SceneLock) := Set.notMem_empty _
  refine ⟨hordered, ?_⟩
  dsimp only
  split
  · rename_i hr
    rw [after_of_no_write rfl, SceneCall.step, Scene.step, if_pos hr] at hnext
    exact ⟨hordered, hscene, hordered, Prog.sound_release hordered hscene ⟨hordered, hnext⟩⟩
  · rename_i hr
    rw [@after_of_unchanged _ (.call (.unsubscribe r)) rfl (if_neg hr)] at hnext
    exact hnext

/-- **A call comes to one step.** -/
theorem runs_op (op : SceneOp) (hs : s.Settled st₀)
    (hnext : Runs st₀ next ∅ (s.after (.call op))) : Runs st₀ (op.task next) ∅ s := by
  rcases op with version | specs | patches | ⟨patches, cause⟩ | ⟨identity, ps, cause⟩ | _ | live |
    ⟨live, since⟩ | r
  · rw [after_of_no_write rfl] at hnext
    exact ⟨hs.ordered, hnext⟩
  · rw [after_of_no_write rfl] at hnext
    exact ⟨hs.ordered, hnext⟩
  · exact runs_set hs hnext
  · rcases hp : patches.isEmpty with _ | _
    · exact runs_emit hs hp (by rw [SceneCall.write, write, hp]; rfl)
        (by rw [SceneCall.step, step_emit, hp]; rfl) hnext
    · rw [after_of_unchanged (by rw [SceneCall.write, write, hp]; rfl)
        (by rw [SceneCall.step, step_emit, hp]; rfl)] at hnext
      rw [SceneOp.task, emitTask, if_pos hp]
      exact hnext
  · exact runs_applyInput hs hnext
  · exact runs_reset hs hnext
  · exact runs_subscribe hs hnext
  · exact runs_subscribeWithResume hs hnext
  · exact runs_unsubscribe hs hnext

end Serial

end Lumencast
