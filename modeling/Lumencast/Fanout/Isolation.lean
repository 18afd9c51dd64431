import Lumencast.Machinery.Run
import Lumencast.Server.Scene

/-!
# Fanout/Isolation — a subscriber does not notice the others

A run of a scene, as the subscriber `r` sees it, is another run of the same scene: the one in which
nobody but `r` subscribes, reads or leaves (`seen`).  The two leave `r` with the same subscription
and the scene with the same content, counter and ring (`alone_run`), so two runs that `r` sees alike
leave it alike, whoever else was there (`isolated`).
-/

namespace Lumencast

open Machinery

/-- What happens to a scene: a call, or a writer that takes an item out of its queue. -/
inductive SceneEvent where
  | call (op : SceneOp)
  | dequeue (r : SubRef)

namespace Scene

/-- Let it happen. -/
def happen (st : Scene × Subs) : SceneEvent → Scene × Subs
  | .call op => step st op
  | .dequeue r =>
      match (st.2.get r).dequeue with
      | none => st
      | some (_, sub) => (st.1, st.2.modify r fun _ => sub)

/-- A fresh scene that nobody has subscribed to. -/
def opened (ref : SceneRef) (id version : PyStr) (operatorInputs : List InputSpec) : Scene × Subs :=
  (new ref id version operatorInputs, .blank default)

/-- What the subscriber `r` sees of an event: every call that is not about another subscriber, with
itself as the only reference there is. -/
def translate (r : SubRef) (st : Scene × Subs) : SceneEvent → Option SceneEvent
  | .call (.subscribe live) =>
      if st.2.next = r then some (.call (.subscribe live)) else none
  | .call (.subscribeWithResume live since) =>
      if st.2.next = r then some (.call (.subscribeWithResume live since)) else none
  | .call (.unsubscribe r') => if r' = r then some (.call (.unsubscribe 0)) else none
  | .dequeue r' => if r' = r then some (.dequeue 0) else none
  | .call op => some (.call op)

/-- What the subscriber `r` sees of a run. -/
def seen (r : SubRef) : Scene × Subs → List SceneEvent → List SceneEvent :=
  translated happen (translate r)

/-- What there is to compare: the scene without its subscriber set, and the subscription `r` as soon
as it exists, with whether it is attached. -/
def view (r : SubRef) (st : Scene × Subs) : Scene × Option (Subscription × Prop) :=
  (st.1.bare, if r < st.2.next then some (st.2.get r, r ∈ st.1.subscribers) else none)

/-! ## The scene with one subscriber

The second run has the same scene with `r` alone on it, under a reference of its own.  They are
compared on what `r` holds and on the scene without its subscribers. -/

/-- `t` is `st` with `r` as its only subscription, under the reference `0`. -/
structure Alone (r : SubRef) (st t : Scene × Subs) : Prop where
  bare : t.1.bare = st.1.bare
  next : t.2.next = if r < st.2.next then 1 else 0
  sub : r < st.2.next → t.2.get 0 = st.2.get r
  attached : 0 ∈ t.1.subscribers ↔ r ∈ st.1.subscribers
  fresh : ¬ r < st.2.next → r ∉ st.1.subscribers

variable {r : SubRef} {st t : Scene × Subs}

theorem alone_opened (r ref : SceneRef) (id version : PyStr) (operatorInputs : List InputSpec) :
    Alone r (opened ref id version operatorInputs) (opened ref id version operatorInputs) where
  bare := rfl
  next := (if_neg (Nat.not_lt_zero r)).symm
  sub h := absurd h (Nat.not_lt_zero r)
  attached := iff_of_false (Finset.notMem_empty 0) (Finset.notMem_empty r)
  fresh _ := Finset.notMem_empty r

/-- The two leave `r` with the same view. -/
theorem Alone.view_eq (h : Alone r st t) : view r st = view 0 t := by
  rw [view, view, h.bare, h.next]
  by_cases hr : r < st.2.next
  · rw [if_pos hr, if_pos hr, if_pos Nat.zero_lt_one, h.sub hr, propext h.attached]
  · rw [if_neg hr, if_neg hr, if_neg (Nat.lt_irrefl 0)]

/-! ## What `r` does not see -/

/-- An event that leaves the scene, the references and `r` as they are. -/
theorem Alone.left (h : Alone r st t) {st' : Scene × Subs} (hbare : st'.1.bare = st.1.bare)
    (hnext : r < st'.2.next ↔ r < st.2.next) (hsub : r < st.2.next → st'.2.get r = st.2.get r)
    (hattached : r ∈ st'.1.subscribers ↔ r ∈ st.1.subscribers) : Alone r st' t where
  bare := h.bare.trans hbare.symm
  next := h.next.trans (if_congr hnext rfl rfl).symm
  sub hr := (h.sub (hnext.mp hr)).trans (hsub (hnext.mp hr)).symm
  attached := h.attached.trans hattached.symm
  fresh hr := hattached.not.mpr (h.fresh (hnext.not.mp hr))

/-- Somebody else is attached. -/
theorem Alone.others_attach (h : Alone r st t) (hne : st.2.next ≠ r) (sub : Subscription) :
    Alone r ({ st.1 with subscribers := insert st.2.next st.1.subscribers }, st.2.alloc sub) t := by
  refine h.left rfl ?_ (fun hr => Heap.get_alloc_of_ne _ _ hne.symm) ?_
  · exact ⟨fun hlt => lt_of_le_of_ne (Nat.lt_succ_iff.mp hlt) hne.symm,
      fun hlt => hlt.trans (Nat.lt_succ_self _)⟩
  · change r ∈ insert st.2.next st.1.subscribers ↔ _
    rw [Finset.mem_insert]
    exact or_iff_right hne.symm

/-- Somebody else leaves. -/
theorem Alone.others_leave (h : Alone r st t) {r' : SubRef} (hne : r' ≠ r) :
    Alone r (st.1.unsubscribe st.2 r') t := by
  refine h.left rfl Iff.rfl (fun _ => Heap.get_modify_of_ne _ _ hne.symm) ?_
  change r ∈ st.1.subscribers.erase r' ↔ _
  rw [Finset.mem_erase]
  exact and_iff_right hne.symm

/-- Somebody else reads. -/
theorem Alone.others_read (h : Alone r st t) {r' : SubRef} (hne : r' ≠ r) :
    Alone r (happen st (.dequeue r')) t := by
  rw [happen]
  split
  · exact h
  · rename_i sub _
    exact h.left rfl Iff.rfl (fun _ => Heap.get_modify_of_ne st.2 (fun _ => sub) hne.symm) Iff.rfl

/-! ## What `r` sees -/

/-- A call that treats every subscriber alike. -/
theorem Alone.fan (h : Alone r st t) {sc sc' : Scene} (f : Subscription → Subscription)
    (hbare : sc'.bare = sc.bare) (hsc : sc.subscribers = st.1.subscribers)
    (hsc' : sc'.subscribers = t.1.subscribers) :
    Alone r (sc, st.2.modifyAll st.1.subscribers f) (sc', t.2.modifyAll t.1.subscribers f) where
  bare := hbare
  next := h.next
  sub hr := by
    rw [Heap.get_modifyAll, Heap.get_modifyAll, h.sub hr]
    exact if_congr h.attached rfl rfl
  attached := by rw [hsc, hsc', h.attached]
  fresh hr := by rw [hsc]; exact h.fresh hr

/-- `r` is attached. -/
theorem Alone.attach (h : Alone r st t) (hr : st.2.next = r) (sub : Subscription) :
    Alone r ({ st.1 with subscribers := insert st.2.next st.1.subscribers }, st.2.alloc sub)
      ({ t.1 with subscribers := insert t.2.next t.1.subscribers }, t.2.alloc sub) := by
  have hnot : ¬ r < st.2.next := hr ▸ Nat.lt_irrefl _
  have hzero : t.2.next = 0 := h.next.trans (if_neg hnot)
  have hlt : r < (st.2.alloc sub).next := hr ▸ Nat.lt_succ_self _
  exact
    { bare := h.bare
      next := by rw [Heap.next_alloc, hzero, if_pos hlt]
      sub := fun _ => by rw [← hr, Heap.get_alloc_next, ← hzero, Heap.get_alloc_next]
      attached := by
        rw [hr, hzero]
        exact iff_of_true (Finset.mem_insert_self ..) (Finset.mem_insert_self ..)
      fresh := fun hnot => absurd hlt hnot }

/-- `r` leaves. -/
theorem Alone.leave (h : Alone r st t) :
    Alone r (step st (.unsubscribe r)) (step t (.unsubscribe 0)) := by
  rw [step, step, h.next]
  by_cases hr : r < st.2.next
  · rw [if_pos hr, if_pos hr, if_pos Nat.zero_lt_one]
    exact
      { bare := h.bare
        next := h.next
        sub := fun _ => by
          rw [unsubscribe, unsubscribe, Heap.get_modify_self, Heap.get_modify_self, h.sub hr]
        attached := iff_of_false (Finset.notMem_erase 0 _) (Finset.notMem_erase r _)
        fresh := fun hnot => absurd hr hnot }
  · rw [if_neg hr, if_neg hr, if_neg (Nat.lt_irrefl 0)]
    exact h

/-- Reading changes the subscription that reads, and nothing else. -/
theorem happen_dequeue (st : Scene × Subs) (r : SubRef) :
    (happen st (.dequeue r)).1 = st.1 ∧ (happen st (.dequeue r)).2.next = st.2.next ∧
      (happen st (.dequeue r)).2.get r = ((st.2.get r).dequeue.map (·.2)).getD (st.2.get r) := by
  rw [happen]
  rcases hget : (st.2.get r).dequeue with _ | ⟨a, sub⟩
  · exact ⟨rfl, rfl, rfl⟩
  · exact ⟨rfl, rfl, Heap.get_modify_self st.2 r fun _ => sub⟩

/-- `r` reads. -/
theorem Alone.read (h : Alone r st t) :
    Alone r (happen st (.dequeue r)) (happen t (.dequeue 0)) := by
  obtain ⟨hscene, hnext, hsub⟩ := happen_dequeue st r
  obtain ⟨hscene', hnext', hsub'⟩ := happen_dequeue t 0
  exact
    { bare := by rw [hscene, hscene', h.bare]
      next := by rw [hnext, hnext', h.next]
      sub := fun hr => by
        rw [hnext] at hr
        rw [hsub, hsub', h.sub hr]
      attached := by rw [hscene, hscene', h.attached]
      fresh := fun hr => by
        rw [hnext] at hr
        rw [hscene]
        exact h.fresh hr }

/-! ## The scenes' own calls

A call goes through every subscriber in one loop, and what it does to each does not depend on the
others. -/

theorem seeded_bare (sc : Scene) (patches : Dict PyStr Json) :
    (sc.seeded patches).bare = sc.bare.seeded patches := rfl

theorem emitted_bare (sc : Scene) (patches : Dict PyStr Json) (cause : Option Cause) :
    (sc.emitted patches cause).bare = sc.bare.emitted patches cause := rfl

theorem snapshotFrame_bare (sc : Scene) : sc.bare.snapshotFrame = sc.snapshotFrame := rfl

theorem snapshotLetter_bare (sc : Scene) : sc.bare.snapshotLetter = sc.snapshotLetter := rfl

theorem deliver_bare (sc : Scene) : sc.bare.deliver = sc.deliver := rfl

theorem resumeAnswer_bare (sc : Scene) (since : Option ℤ) :
    sc.bare.resumeAnswer since = sc.resumeAnswer since := rfl

/-- An emission, seen from `r`. -/
theorem Alone.emitted (h : Alone r st t) (patches : Dict PyStr Json) (cause : Option Cause) :
    Alone r
      (st.1.emitted patches cause, st.2.modifyAll st.1.subscribers
        ((st.1.emitted patches cause).deliver patches cause))
      (t.1.emitted patches cause, t.2.modifyAll t.1.subscribers
        ((t.1.emitted patches cause).deliver patches cause)) := by
  have hdeliver : (t.1.emitted patches cause).deliver = (st.1.emitted patches cause).deliver := by
    rw [← deliver_bare, emitted_bare, h.bare, ← emitted_bare, deliver_bare]
  rw [hdeliver]
  exact h.fan _ (by rw [emitted_bare, emitted_bare, h.bare]) rfl rfl

/-- A seeding, seen from `r`. -/
theorem Alone.set (h : Alone r st t) (patches : Dict PyStr Json) :
    Alone r (step st (.set patches)) (step t (.set patches)) := by
  rw [step_set, step_set]
  split
  · exact h
  · have hsnap : (t.1.seeded patches).snapshotLetter = (st.1.seeded patches).snapshotLetter := by
      rw [← snapshotLetter_bare, seeded_bare, h.bare, ← seeded_bare, snapshotLetter_bare]
    rw [refreshAll, refreshAll, hsnap]
    exact h.fan _ (by rw [seeded_bare, seeded_bare, h.bare]) rfl rfl

/-- An input, seen from `r`: both scenes accept it, or neither does. -/
theorem Alone.applyInput (h : Alone r st t) (identity : Identity) (ps : List Patch)
    (cause : Option Cause) :
    Alone r (step st (.applyInput identity ps cause)) (step t (.applyInput identity ps cause)) := by
  have hverdict : t.1.verdict identity ps = st.1.verdict identity ps := by
    rw [← verdict_bare, h.bare, verdict_bare]
  by_cases hv : st.1.verdict identity ps = .ok none
  · rw [step_applyInput_of_ok cause hv, step_applyInput_of_ok cause (hverdict.trans hv)]
    exact h.emitted (asDict ps) cause
  · rw [step_applyInput_of_ne cause hv, step_applyInput_of_ne cause (hverdict ▸ hv)]
    exact h

/-- A reset, seen from `r`. -/
theorem Alone.reset (h : Alone r st t) : Alone r (step st .reset) (step t .reset) := by
  have hfan := h.fan Subscription.close h.bare rfl rfl
  exact
    { bare := congrArg (fun sc : Scene => { sc with store := sc.store.reset }) h.bare
      next := hfan.next
      sub := hfan.sub
      attached := iff_of_false (Finset.notMem_empty 0) (Finset.notMem_empty r)
      fresh := fun _ => Finset.notMem_empty r }

/-- `r` attaches, as its first act. -/
theorem Alone.subscribe (h : Alone r st t) (hr : st.2.next = r) (live : Bool) :
    Alone r (step st (.subscribe live)) (step t (.subscribe live)) := by
  have hsnap : t.1.snapshotFrame = st.1.snapshotFrame := by
    rw [← snapshotFrame_bare, h.bare, snapshotFrame_bare]
  change Alone r (st.1.subscribe st.2 live).2.2 (t.1.subscribe t.2 live).2.2
  rw [Scene.subscribe, Scene.subscribe, hsnap]
  exact h.attach hr _

theorem Alone.subscribeWithResume (h : Alone r st t) (hr : st.2.next = r) (live : Bool)
    (since : Option ℤ) : Alone r (step st (.subscribeWithResume live since))
      (step t (.subscribeWithResume live since)) := by
  have hanswer : t.1.resumeAnswer since = st.1.resumeAnswer since := by
    rw [← resumeAnswer_bare, h.bare, resumeAnswer_bare]
  change Alone r (st.1.subscribeWithResume st.2 live since).2.2
    (t.1.subscribeWithResume t.2 live since).2.2
  rw [Scene.subscribeWithResume, Scene.subscribeWithResume, hanswer]
  exact h.attach hr _

/-- **What `r` sees of an event is all that the event does to it.** -/
theorem Alone.happen (h : Alone r st t) (e : SceneEvent) :
    Alone r (happen st e) (run happen t (translate r st e).toList) := by
  rcases e with op | r'
  · rcases op with version | specs | patches | ⟨patches, cause⟩ | ⟨identity, ps, cause⟩ | _ | live |
      ⟨live, since⟩ | r'
    case setVersion =>
      exact ⟨congrArg (Scene.setVersion · version) h.bare, h.next, h.sub, h.attached, h.fresh⟩
    case declareInputs =>
      exact ⟨congrArg (Scene.declareInputs · specs) h.bare, h.next, h.sub, h.attached, h.fresh⟩
    case set => exact h.set patches
    case emit =>
      change Alone r (step st (.emit patches cause)) (step t (.emit patches cause))
      rw [step_emit, step_emit]
      split
      · exact h
      · exact h.emitted patches cause
    case applyInput => exact h.applyInput identity ps cause
    case reset => exact h.reset
    case subscribe =>
      rw [translate]
      split
      · rename_i hr
        exact h.subscribe hr live
      · rename_i hr
        exact h.others_attach hr _
    case subscribeWithResume =>
      rw [translate]
      split
      · rename_i hr
        exact h.subscribeWithResume hr live since
      · rename_i hr
        exact h.others_attach hr _
    case unsubscribe =>
      rw [translate]
      split
      · rename_i hr
        rw [hr]
        exact h.leave
      · rename_i hr
        change Alone r (if r' < st.2.next then _ else st) t
        split
        · exact h.others_leave hr
        · exact h
  · rw [translate]
    split
    · rename_i hr
      rw [hr]
      exact h.read
    · rename_i hr
      exact h.others_read hr

/-- **A subscriber sees a run as if it were alone.** -/
theorem alone_run (ref : SceneRef) (id version : PyStr) (operatorInputs : List InputSpec)
    (r : SubRef) (es : List SceneEvent) :
    Alone r (run happen (opened ref id version operatorInputs) es)
      (run happen (opened ref id version operatorInputs)
        (seen r (opened ref id version operatorInputs) es)) :=
  run_translated (R := Alone r) (fun _ _ e h => Alone.happen h e) es
    (alone_opened r ref id version operatorInputs)

/-- Two runs a subscriber sees alike leave it and the scene alike. -/
theorem view_run_congr (ref : SceneRef) (id version : PyStr) (operatorInputs : List InputSpec)
    {r r' : SubRef} {es es' : List SceneEvent}
    (h : seen r (opened ref id version operatorInputs) es
      = seen r' (opened ref id version operatorInputs) es') :
    view r (run happen (opened ref id version operatorInputs) es)
      = view r' (run happen (opened ref id version operatorInputs) es') := by
  rw [(alone_run ref id version operatorInputs r es).view_eq, h,
    (alone_run ref id version operatorInputs r' es').view_eq]

/-- **Subscribers are isolated from one another**: two runs of a scene that one subscriber sees
alike leave it, at every two points up to which it has seen equally much, with the same opening, the
same queue and the same flags, and leave the scene with the same content, counter and ring. -/
theorem isolated (ref : SceneRef) (id version : PyStr) (operatorInputs : List InputSpec)
    {r r' : SubRef} {es es' : List SceneEvent}
    (h : seen r (opened ref id version operatorInputs) es
      = seen r' (opened ref id version operatorInputs) es')
    {pre post pre' post' : List SceneEvent} (hes : es = pre ++ post) (hes' : es' = pre' ++ post')
    (hlength : (seen r (opened ref id version operatorInputs) pre).length
      = (seen r' (opened ref id version operatorInputs) pre').length) :
    view r (run happen (opened ref id version operatorInputs) pre)
      = view r' (run happen (opened ref id version operatorInputs) pre') := by
  rw [hes, hes', seen, seen, translated_append, translated_append] at h
  exact view_run_congr ref id version operatorInputs (List.append_inj_left h hlength)

/-- A subscriber alone with the scene reads one of two emissions. -/
def aloneEvents : List SceneEvent :=
  [.call (.subscribe true), .call (.emit (.ofList [("x", .int 1)]) none),
    .call (.emit (.ofList [("x", .int 2)]) none), .dequeue 0]

/-- The same subscriber, next to one that never reads and leaves. -/
def crowdedEvents : List SceneEvent :=
  [.call (.subscribe false), .call (.subscribe true), .call (.emit (.ofList [("x", .int 1)]) none),
    .call (.unsubscribe 0), .call (.emit (.ofList [("x", .int 2)]) none), .dequeue 1]

theorem isolated_crowdedEvents :
    view 0 (run happen (opened 0 "a" "v1" []) aloneEvents)
      = view 1 (run happen (opened 0 "a" "v1" []) crowdedEvents) :=
  @isolated 0 "a" "v1" [] 0 1 aloneEvents crowdedEvents rfl aloneEvents [] crowdedEvents []
    rfl rfl rfl

end Scene

end Lumencast
