import Lumencast.Server.Server

/-!
# Server/Acts — what a step does to the subscribers

However many operations there are, a step puts frames in queues in three ways only: a scene
**posts** a delta, a scene is **seeded** and sends its state, or the live subscribers **move** from
one scene to another.  `Server.act` reads off which, `did` is the one case analysis of
`Server.step`, and every result about runs starts from it.
-/

namespace Lumencast

open Machinery

/-- What a step does to the subscribers. -/
inductive Act where
  /-- No frame is offered to anyone. -/
  | quiet
  /-- A fresh subscriber is attached to `c`. -/
  | attach (c : SceneRef)
  /-- `c` emits. -/
  | post (c : SceneRef) (patches : Dict PyStr Json) (cause : Option Cause)
  /-- `c` is seeded. -/
  | seed (c : SceneRef) (patches : Dict PyStr Json)
  /-- The live subscribers of `prev` are moved to `next`. -/
  | move (prev next : SceneRef)

namespace Scene

/-- What a call on the scene `c`, in the state `sc`, does to the subscribers. -/
def act (sc : Scene) (c : SceneRef) : SceneOp → Act
  | .set patches => if patches.isEmpty then .quiet else .seed c patches
  | .emit patches cause => if patches.isEmpty then .quiet else .post c patches cause
  | .applyInput identity patches cause =>
      match sc.verdict identity patches with
      | .ok none => .post c (asDict patches) cause
      | _ => .quiet
  | .subscribe _ => .attach c
  | .subscribeWithResume _ _ => .attach c
  | _ => .quiet

end Scene

namespace Server

/-- What an operation does to the subscribers. -/
def act (k : Server) : Op → Act
  | .scene c op => if c < k.objects.next then (k.objects.get c).act c op else .quiet
  | .setActive id =>
      match k.swap id with
      | none => .quiet
      | some (prev, next) =>
          if (k.objects.get prev).liveSubscribers k.subs = ∅ then .quiet else .move prev next
  | _ => .quiet

/-! ## Well-formed kits

References are never freed, so they point to objects for good.  That nobody is attached to two
scenes is what lets a step be read one subscriber at a time. -/

/-- What holds of every kit that is reached: references point to objects, each subscriber has at
most one owner, and each scene knows its own reference. -/
structure Wf (k : Server) : Prop where
  registered_lt : ∀ c, k.Registered c → c < k.objects.next
  owner_lt : ∀ c r, k.Owns c r → c < k.objects.next
  owned_lt : ∀ c r, k.Owns c r → r < k.subs.next
  unique : ∀ c c' r, k.Owns c r → k.Owns c' r → c = c'
  ref_eq : ∀ c, c < k.objects.next → (k.objects.get c).ref = c
  seq_pos : ∀ c, 1 ≤ (k.objects.get c).currentSeq
  maxsize_eq : ∀ r, (k.subs.get r).queue.maxsize = QUEUE_MAXSIZE

/-- Nobody is at two scenes. -/
theorem Wf.notOwns {k : Server} (hwf : k.Wf) {c c' : SceneRef} {r : SubRef} (ho : k.Owns c r)
    (h : c ≠ c') : ¬ k.Owns c' r := fun ho' => h (hwf.unique c c' r ho ho')

theorem wf_empty : ({} : Server).Wf where
  registered_lt c h := by cases h
  owner_lt c r h := absurd h (Finset.notMem_empty r)
  owned_lt c r h := absurd h (Finset.notMem_empty r)
  unique c c' r h := absurd h (Finset.notMem_empty r)
  ref_eq c h := absurd h (Nat.not_lt_zero c)
  seq_pos _ := le_rfl
  maxsize_eq r := rfl

/-! ## Quiet steps

Nothing is offered, nobody is attached, and whatever still has a subscriber keeps its content. -/

/-- `k'` comes from `k` without a frame being offered to anyone. -/
structure Quiet (k k' : Server) : Prop where
  wf : k.Wf → k'.Wf
  next_le : k.objects.next ≤ k'.objects.next
  subs_next : k'.subs.next = k.subs.next
  history : ∀ r, (k.subs.get r).SameHistory (k'.subs.get r)
  owns : ∀ c r, k'.Owns c r → k.Owns c r
  content : ∀ c r, k'.Owns c r → (k'.objects.get c).store = (k.objects.get c).store
  seq : ∀ c, c < k.objects.next → (k'.objects.get c).seq = (k.objects.get c).seq
  replay : ∀ c, c < k.objects.next → (k'.objects.get c).replay = (k.objects.get c).replay
  fresh : ∀ c, k.objects.next ≤ c → c < k'.objects.next →
    (k'.objects.get c).currentSeq = 1 ∧ (k'.objects.get c).replay = .new DEFAULT_REPLAY_BUFFER_SIZE
  registered : ∀ c, k'.Registered c → k.Registered c ∨ k.objects.next ≤ c

theorem Quiet.refl (k : Server) : Quiet k k :=
  ⟨id, le_rfl, rfl, fun _ => .refl _, fun _ _ => id, fun _ _ _ => rfl, fun _ _ => rfl,
    fun _ _ => rfl, fun _ hle hlt => absurd hlt (not_lt.mpr hle), fun _ => Or.inl⟩

theorem Quiet.trans {k k' k'' : Server} (h : Quiet k k') (h' : Quiet k' k'') : Quiet k k'' where
  wf hwf := h'.wf (h.wf hwf)
  next_le := h.next_le.trans h'.next_le
  subs_next := h'.subs_next.trans h.subs_next
  history r := (h.history r).trans (h'.history r)
  owns c r ho := h.owns c r (h'.owns c r ho)
  content c r ho := (h'.content c r ho).trans (h.content c r (h'.owns c r ho))
  seq c hc := (h'.seq c (hc.trans_le h.next_le)).trans (h.seq c hc)
  replay c hc := (h'.replay c (hc.trans_le h.next_le)).trans (h.replay c hc)
  fresh c hle hlt := by
    by_cases hc : c < k'.objects.next
    · obtain ⟨hseq, hreplay⟩ := h.fresh c hle hc
      rw [Scene.currentSeq, h'.seq c hc, h'.replay c hc]
      exact ⟨hseq, hreplay⟩
    · exact h'.fresh c (not_lt.mp hc) hlt
  registered c hc := by
    rcases h'.registered c hc with hc | hc
    · exact h.registered c hc
    · exact Or.inr (h.next_le.trans hc)

/-- A loop of quiet steps is quiet. -/
theorem Quiet.foldl {α : Type} {f : Server → α → Server} (hf : ∀ k a, Quiet k (f k a)) :
    ∀ (as : List α) (k : Server), Quiet k (as.foldl f k)
  | [], k => .refl k
  | a :: as, k => (hf k a).trans (Quiet.foldl hf as (f k a))

end Server

/-- What a call has to respect, on the scene and the subscriptions it is given, to be quiet. -/
structure Scene.Quiet (st st' : Scene × Subs) : Prop where
  ref : st'.1.ref = st.1.ref
  seq : st'.1.seq = st.1.seq
  replay : st'.1.replay = st.1.replay
  subscribers : st'.1.subscribers ⊆ st.1.subscribers
  content : ∀ r, r ∈ st'.1.subscribers → st'.1.store = st.1.store
  next : st'.2.next = st.2.next
  history : ∀ r, (st.2.get r).SameHistory (st'.2.get r)

namespace Scene

theorem quiet_setVersion (st : Scene × Subs) (version : PyStr) :
    Quiet st (st.1.setVersion version, st.2) :=
  ⟨rfl, rfl, rfl, Finset.Subset.refl _, fun _ _ => rfl, rfl, fun _ => .refl _⟩

theorem quiet_declareInputs (st : Scene × Subs) (specs : List InputSpec) :
    Quiet st (st.1.declareInputs specs, st.2) :=
  ⟨rfl, rfl, rfl, Finset.Subset.refl _, fun _ _ => rfl, rfl, fun _ => .refl _⟩

/-- A reset clears the content, but nobody is left to notice. -/
theorem quiet_reset (st : Scene × Subs) : Quiet st (st.1.reset st.2) where
  ref := rfl
  seq := rfl
  replay := rfl
  subscribers := Finset.empty_subset _
  content r hr := absurd hr (Finset.notMem_empty r)
  next := rfl
  history r := by
    change Subscription.SameHistory _ ((st.2.modifyAll _ _).get r)
    rw [Heap.get_modifyAll]
    split
    · exact Subscription.sameHistory_close _
    · exact .refl _

theorem quiet_unsubscribe (st : Scene × Subs) (r : SubRef) :
    Quiet st (st.1.unsubscribe st.2 r) where
  ref := rfl
  seq := rfl
  replay := rfl
  subscribers := Finset.erase_subset _ _
  content _ _ := rfl
  next := rfl
  history r' := by
    change Subscription.SameHistory _ ((st.2.modify r Subscription.close).get r')
    rw [Heap.get_modify]
    split
    · rename_i hr
      rw [hr]
      exact Subscription.sameHistory_close _
    · exact .refl _

end Scene

namespace Server

/-- A call that attaches nobody keeps a kit well formed. -/
theorem Wf.onScene {k : Server} {c : SceneRef} {m : Scene × Subs → Scene × Subs} (hwf : k.Wf)
    (href : (m (k.objects.get c, k.subs)).1.ref = (k.objects.get c).ref)
    (hseq : 1 ≤ (m (k.objects.get c, k.subs)).1.currentSeq)
    (hsub : (m (k.objects.get c, k.subs)).1.subscribers ⊆ (k.objects.get c).subscribers)
    (hnext : (m (k.objects.get c, k.subs)).2.next = k.subs.next)
    (hmax : ∀ r, ((m (k.objects.get c, k.subs)).2.get r).queue.maxsize = QUEUE_MAXSIZE) :
    (k.onScene c m).Wf := by
  have howns : ∀ c' r, (k.onScene c m).Owns c' r → k.Owns c' r := fun c' r ho => by
    rw [Owns, get_onScene] at ho
    split at ho
    · rename_i hc
      exact hc ▸ hsub ho
    · exact ho
  exact
    { registered_lt := fun c' hc' => hwf.registered_lt c' hc'
      owner_lt := fun c' r ho => hwf.owner_lt c' r (howns c' r ho)
      owned_lt := fun c' r ho => by
        rw [subs_onScene, hnext]
        exact hwf.owned_lt c' r (howns c' r ho)
      unique := fun c₁ c₂ r h₁ h₂ => hwf.unique c₁ c₂ r (howns c₁ r h₁) (howns c₂ r h₂)
      ref_eq := fun c' hc' => (field_onScene Scene.ref href c').trans (hwf.ref_eq c' hc')
      seq_pos := fun c' => by
        rw [get_onScene]
        split
        · exact hseq
        · exact hwf.seq_pos c'
      maxsize_eq := hmax }

/-- A quiet call on one scene is a quiet step of the kit. -/
theorem Quiet.onScene {k : Server} {c : SceneRef} {m : Scene × Subs → Scene × Subs}
    (h : Scene.Quiet (k.objects.get c, k.subs) (m (k.objects.get c, k.subs))) :
    Quiet k (k.onScene c m) where
  wf hwf := by
    have hseq : 1 ≤ (m (k.objects.get c, k.subs)).1.currentSeq := by
      rw [Scene.currentSeq, h.seq]
      exact hwf.seq_pos c
    exact hwf.onScene h.ref hseq h.subscribers h.next fun r =>
      (h.history r).maxsize.trans (hwf.maxsize_eq r)
  next_le := le_rfl
  subs_next := h.next
  history := h.history
  owns c' r ho := by
    rw [Owns, get_onScene] at ho
    split at ho
    · rename_i hc
      exact hc ▸ h.subscribers ho
    · exact ho
  content c' r ho := by
    rw [Owns, get_onScene] at ho
    rw [get_onScene]
    split
    · rename_i hc
      rw [if_pos hc] at ho
      rw [h.content r ho, hc]
    · rfl
  seq c' _ := field_onScene Scene.seq h.seq c'
  replay c' _ := field_onScene Scene.replay h.replay c'
  fresh c' hle hlt := absurd hlt (not_lt.mpr hle)
  registered _ := Or.inl

/-- Changing which scenes are registered, which is active and which wait to be reset is quiet. -/
theorem Quiet.relabel {k k' : Server} (hobjects : k'.objects = k.objects) (hsubs : k'.subs = k.subs)
    (hreg : ∀ c, k'.Registered c → k.Registered c) : Quiet k k' where
  wf hwf :=
    { registered_lt := fun c hc => hobjects ▸ hwf.registered_lt c (hreg c hc)
      owner_lt := fun c r ho => by rw [Owns, hobjects] at ho; exact hobjects ▸ hwf.owner_lt c r ho
      owned_lt := fun c r ho => by rw [Owns, hobjects] at ho; exact hsubs ▸ hwf.owned_lt c r ho
      unique := fun c c' r h h' => by
        rw [Owns, hobjects] at h h'
        exact hwf.unique c c' r h h'
      ref_eq := fun c hc => by rw [hobjects] at hc ⊢; exact hwf.ref_eq c hc
      seq_pos := fun c => by rw [hobjects]; exact hwf.seq_pos c
      maxsize_eq := fun r => by rw [hsubs]; exact hwf.maxsize_eq r }
  next_le := by rw [hobjects]
  subs_next := by rw [hsubs]
  history r := by rw [hsubs]; exact .refl _
  owns c r ho := by rwa [Owns, hobjects] at ho
  content c _ _ := by rw [hobjects]
  seq c _ := by rw [hobjects]
  replay c _ := by rw [hobjects]
  fresh c hle hlt := absurd (hobjects ▸ hlt) (not_lt.mpr hle)
  registered c hc := Or.inl (hreg c hc)

section NewScene

variable (k : Server) (id version : PyStr) (operatorInputs : List InputSpec) (loopRunning : Bool)

theorem Wf.newScene {k : Server} (hwf : k.Wf) :
    (k.newScene id version operatorInputs loopRunning).Wf where
  registered_lt c hc := by
    rcases Dict.mem_values_set hc with rfl | hc
    · exact Nat.lt_succ_self _
    · exact (hwf.registered_lt c hc).trans (Nat.lt_succ_self _)
  owner_lt c r ho :=
    (hwf.owner_lt c r ((owns_newScene ..).mp ho).2).trans (Nat.lt_succ_self _)
  owned_lt c r ho := hwf.owned_lt c r ((owns_newScene ..).mp ho).2
  unique c c' r h h' :=
    hwf.unique c c' r ((owns_newScene ..).mp h).2 ((owns_newScene ..).mp h').2
  ref_eq c hc := by
    by_cases hcn : c = k.objects.next
    · rw [hcn, scene_newScene]
      rfl
    · rw [scene_newScene_of_ne _ _ _ _ hcn]
      exact hwf.ref_eq c (lt_of_le_of_ne (Nat.lt_succ_iff.mp hc) hcn)
  seq_pos c := by
    by_cases hcn : c = k.objects.next
    · rw [hcn, scene_newScene]
      exact le_rfl
    · rw [scene_newScene_of_ne _ _ _ _ hcn]
      exact hwf.seq_pos c
  maxsize_eq := hwf.maxsize_eq

/-- Registering a scene is quiet: the new scene has no subscriber. -/
theorem quiet_newScene : Quiet k (k.newScene id version operatorInputs loopRunning) where
  wf hwf := hwf.newScene id version operatorInputs loopRunning
  next_le := Nat.le_succ _
  subs_next := rfl
  history r := .refl _
  owns c r ho := ((owns_newScene ..).mp ho).2
  content c r ho := by rw [scene_newScene_of_ne _ _ _ _ ((owns_newScene ..).mp ho).1]
  seq c hc := by rw [scene_newScene_of_ne _ _ _ _ hc.ne]
  replay c hc := by rw [scene_newScene_of_ne _ _ _ _ hc.ne]
  fresh c hle hlt := by
    have hc : c = k.objects.next := le_antisymm (Nat.lt_succ_iff.mp hlt) hle
    rw [hc, scene_newScene]
    exact ⟨rfl, rfl⟩
  registered c hc := by
    rcases Dict.mem_values_set hc with rfl | hc
    · exact Or.inr le_rfl
    · exact Or.inl hc

end NewScene

theorem quiet_dequeue (k : Server) (r : SubRef) : Quiet k (k.dequeue r) := by
  rw [dequeue]
  rcases hget : (k.subs.get r).dequeue with _ | ⟨a, sub⟩
  · exact .refl k
  · have hhist : ∀ r', (k.subs.get r').SameHistory ((k.subs.modify r fun _ => sub).get r') := by
      intro r'
      rw [Heap.get_modify]
      split
      · rename_i hr
        rw [hr]
        exact Subscription.sameHistory_dequeue hget
      · exact .refl _
    exact
      { wf := fun hwf => { hwf with
          maxsize_eq := fun r' => (hhist r').maxsize.trans (hwf.maxsize_eq r') }
        next_le := le_rfl
        subs_next := rfl
        history := hhist
        owns := fun _ _ => id
        content := fun _ _ _ => rfl
        seq := fun _ _ => rfl
        replay := fun _ _ => rfl
        fresh := fun _ hle hlt => absurd hlt (not_lt.mpr hle)
        registered := fun _ => Or.inl }

theorem quiet_detach (k : Server) (r : SubRef) : Quiet k (k.detach r) :=
  Quiet.foldl (fun _ _ => .onScene (Scene.quiet_unsubscribe _ r)) k.scenes.values k

theorem quiet_reset (k : Server) : Quiet k k.reset := by
  have hdrop : Quiet k { k with scenes := .empty, active := "" } :=
    .relabel rfl rfl fun c hc => absurd hc List.not_mem_nil
  exact hdrop.trans (Quiet.foldl (fun _ _ => .onScene (Scene.quiet_reset _)) k.scenes.values _)

theorem quiet_runTask (k : Server) : Quiet k k.runTask := by
  rw [runTask]
  rcases k.tasks with _ | ⟨c, rest⟩
  · exact .refl k
  · have htaken : Quiet k { k with tasks := rest } := .relabel rfl rfl fun _ => id
    exact htaken.trans (.onScene (Scene.quiet_reset (k.objects.get c, k.subs)))

/-! ## Steps that send something

What `post`, `seed`, `attach` and `move` leave, read back one subscriber and one scene at a time. -/

/-- The kit after `c` emitted. -/
def post (k : Server) (c : SceneRef) (patches : Dict PyStr Json) (cause : Option Cause) : Server :=
  k.onScene c fun st => (st.1.emitted patches cause,
    st.2.modifyAll st.1.subscribers ((st.1.emitted patches cause).deliver patches cause))

/-- The kit after `c` was seeded. -/
def seed (k : Server) (c : SceneRef) (patches : Dict PyStr Json) : Server :=
  k.onScene c fun st => (st.1.seeded patches, (st.1.seeded patches).refreshAll st.2)

/-- The kit after a fresh subscriber was attached to `c`. -/
def attach (k : Server) (c : SceneRef) (live : Bool) (opening : Opening) : Server :=
  k.onScene c fun st => ({ st.1 with subscribers := insert st.2.next st.1.subscribers },
    st.2.alloc { live := live, opening := opening })

/-- The kit after the live subscribers of `prev` were moved to `next`, now active under `active`. -/
def move (k : Server) (active : PyStr) (prev next : SceneRef) : Server :=
  { k with active := active }.migrate prev next

section Reading

variable (k : Server) (c c' : SceneRef) (r : SubRef) (patches : Dict PyStr Json)
  (cause : Option Cause) (live : Bool) (opening : Opening)

theorem sub_post : (k.post c patches cause).subs.get r = if k.Owns c r
    then ((k.objects.get c).emitted patches cause).deliver patches cause (k.subs.get r)
    else k.subs.get r := rfl

theorem owns_post : (k.post c patches cause).Owns c' r ↔ k.Owns c' r := by
  rw [Owns, Owns, post, field_onScene Scene.subscribers rfl]

theorem scene_post : (k.post c patches cause).objects.get c'
    = if c' = c then (k.objects.get c).emitted patches cause else k.objects.get c' :=
  get_onScene ..

theorem sub_seed : (k.seed c patches).subs.get r = if k.Owns c r
    then (k.subs.get r).sendOrDrop ((k.objects.get c).seeded patches).snapshotLetter
    else k.subs.get r := rfl

theorem owns_seed : (k.seed c patches).Owns c' r ↔ k.Owns c' r := by
  rw [Owns, Owns, seed, field_onScene Scene.subscribers rfl]

theorem scene_seed : (k.seed c patches).objects.get c'
    = if c' = c then (k.objects.get c).seeded patches else k.objects.get c' :=
  get_onScene ..

@[simp] theorem seq_seed :
    ((k.seed c patches).objects.get c').seq = (k.objects.get c').seq :=
  field_onScene Scene.seq rfl c'

@[simp] theorem replay_seed :
    ((k.seed c patches).objects.get c').replay = (k.objects.get c').replay :=
  field_onScene Scene.replay rfl c'

theorem sub_attach_next :
    (k.attach c live opening).subs.get k.subs.next = { live := live, opening := opening } :=
  Heap.get_alloc_next ..

theorem sub_attach_of_ne {r : SubRef} (h : r ≠ k.subs.next) :
    (k.attach c live opening).subs.get r = k.subs.get r := Heap.get_alloc_of_ne _ _ h

theorem owns_attach :
    (k.attach c live opening).Owns c' r ↔ (c' = c ∧ r = k.subs.next) ∨ k.Owns c' r := by
  rw [Owns, Owns, attach, get_onScene]
  split
  · rename_i h
    subst h
    simp
  · rename_i h
    simp [h]

theorem scene_attach : (k.attach c live opening).objects.get c' = if c' = c
    then { k.objects.get c with subscribers := insert k.subs.next (k.objects.get c).subscribers }
    else k.objects.get c' := get_onScene ..

@[simp] theorem seq_attach :
    ((k.attach c live opening).objects.get c').seq = (k.objects.get c').seq :=
  field_onScene Scene.seq rfl c'

@[simp] theorem replay_attach :
    ((k.attach c live opening).objects.get c').replay = (k.objects.get c').replay :=
  field_onScene Scene.replay rfl c'

@[simp] theorem store_attach :
    ((k.attach c live opening).objects.get c').store = (k.objects.get c').store :=
  field_onScene Scene.store rfl c'

@[simp] theorem ref_attach :
    ((k.attach c live opening).objects.get c').ref = (k.objects.get c').ref :=
  field_onScene Scene.ref rfl c'

end Reading

section Moving

variable {k : Server} {prev next : SceneRef} (active : PyStr)

/-- The subscribers a switch from `prev` moves. -/
def Moves (k : Server) (prev : SceneRef) (r : SubRef) : Prop :=
  k.Owns prev r ∧ (k.subs.get r).live = true

instance (k : Server) (prev : SceneRef) (r : SubRef) : Decidable (k.Moves prev r) :=
  inferInstanceAs (Decidable (_ ∧ _))

theorem mem_liveSubscribers {r : SubRef} :
    r ∈ (k.objects.get prev).liveSubscribers k.subs ↔ k.Moves prev r := Finset.mem_filter

/-- Whether a switch from `prev` moves anyone. -/
def MovesSome (k : Server) (prev : SceneRef) : Prop :=
  (k.objects.get prev).liveSubscribers k.subs ≠ ∅

instance (k : Server) (prev : SceneRef) : Decidable (k.MovesSome prev) :=
  inferInstanceAs (Decidable (_ ≠ _))

theorem movesSome_iff : k.MovesSome prev ↔ ∃ r, k.Moves prev r := by
  rw [MovesSome, ← Finset.nonempty_iff_ne_empty]
  exact exists_congr fun r => mem_liveSubscribers

theorem sub_move (hsome : k.MovesSome prev) (r : SubRef) :
    (k.move active prev next).subs.get r = if k.Moves prev r
      then (k.objects.get next).handOver (k.objects.get prev) (k.subs.get r)
      else k.subs.get r := by
  rw [move, migrate, Scene.migrate_of_ne_empty hsome, Heap.get_modifyAll]
  exact if_congr mem_liveSubscribers rfl rfl

theorem subs_next_move (hsome : k.MovesSome prev) :
    (k.move active prev next).subs.next = k.subs.next := by
  rw [move, migrate, Scene.migrate_of_ne_empty hsome]
  rfl

theorem scene_move_next (hsome : k.MovesSome prev) (hne : prev ≠ next) :
    (k.move active prev next).objects.get next
      = { k.objects.get next with
          subscribers := (k.objects.get next).subscribers
            ∪ (k.objects.get prev).liveSubscribers k.subs } := by
  rw [move, migrate, Scene.migrate_of_ne_empty hsome]
  change ((k.objects.modify next fun _ => _).modify prev fun _ => _).get next = _
  rw [Heap.get_modify_of_ne _ _ hne.symm, Heap.get_modify_self]

theorem scene_move_prev (hsome : k.MovesSome prev) :
    (k.move active prev next).objects.get prev
      = { k.objects.get prev with
          subscribers := (k.objects.get prev).subscribers
            \ (k.objects.get prev).liveSubscribers k.subs
          seq := ⟨(k.objects.get prev).seq.cur + 1⟩ } := by
  rw [move, migrate, Scene.migrate_of_ne_empty hsome]
  change ((k.objects.modify next fun _ => _).modify prev fun _ => _).get prev = _
  rw [Heap.get_modify_self]

theorem scene_move_of_ne {c : SceneRef} (hp : c ≠ prev) (hn : c ≠ next) :
    (k.move active prev next).objects.get c = k.objects.get c := by
  rw [move, migrate]
  change ((k.objects.modify next fun _ => _).modify prev fun _ => _).get c = _
  rw [Heap.get_modify_of_ne _ _ hp, Heap.get_modify_of_ne _ _ hn]

/-- **What becomes of the scenes in a switch**: each keeps all but its subscribers, and `prev` has
drawn one number. -/
theorem scene_move (hsome : k.MovesSome prev) (hne : prev ≠ next) (c : SceneRef) :
    ∃ subscribers, (k.move active prev next).objects.get c
      = { k.objects.get c with
          subscribers := subscribers
          seq := if c = prev then ⟨(k.objects.get prev).seq.cur + 1⟩
            else (k.objects.get c).seq } := by
  by_cases hp : c = prev
  · rw [hp, scene_move_prev active hsome, if_pos rfl]
    exact ⟨_, rfl⟩
  · rw [if_neg hp]
    by_cases hn : c = next
    · rw [hn, scene_move_next active hsome hne]
      exact ⟨_, rfl⟩
    · rw [scene_move_of_ne active hp hn]
      exact ⟨_, rfl⟩

theorem seq_move_of_ne (hsome : k.MovesSome prev) (hne : prev ≠ next) {c : SceneRef}
    (hp : c ≠ prev) : ((k.move active prev next).objects.get c).seq = (k.objects.get c).seq := by
  obtain ⟨subscribers, hscene⟩ := scene_move active hsome hne c
  rw [hscene, if_neg hp]

theorem replay_move (hsome : k.MovesSome prev) (hne : prev ≠ next) (c : SceneRef) :
    ((k.move active prev next).objects.get c).replay = (k.objects.get c).replay := by
  obtain ⟨subscribers, hscene⟩ := scene_move active hsome hne c
  rw [hscene]

theorem store_move (hsome : k.MovesSome prev) (hne : prev ≠ next) (c : SceneRef) :
    ((k.move active prev next).objects.get c).store = (k.objects.get c).store := by
  obtain ⟨subscribers, hscene⟩ := scene_move active hsome hne c
  rw [hscene]

theorem ref_move (hsome : k.MovesSome prev) (hne : prev ≠ next) (c : SceneRef) :
    ((k.move active prev next).objects.get c).ref = (k.objects.get c).ref := by
  obtain ⟨subscribers, hscene⟩ := scene_move active hsome hne c
  rw [hscene]

theorem objects_move_of_nobody (hnone : ¬ k.MovesSome prev) :
    (k.move active prev next).objects = k.objects := by
  have hnobody : Scene.liveSubscribers (k.objects.get prev) k.subs = ∅ := not_not.mp hnone
  rw [move, migrate, Scene.migrate_of_empty hnobody]
  refine Heap.ext (funext fun c => ?_) rfl
  change ((k.objects.modify next fun _ => _).modify prev fun _ => _).get c = _
  rw [Heap.get_modify, Heap.get_modify]
  split
  · rename_i h
    rw [h]
  · split
    · rename_i h
      rw [h]
    · rfl

/-- A switch that finds nobody live moves nobody. -/
theorem quiet_move (hnone : ¬ k.MovesSome prev) : Quiet k (k.move active prev next) := by
  have hnobody : Scene.liveSubscribers (k.objects.get prev) k.subs = ∅ := not_not.mp hnone
  have hsubs : (k.move active prev next).subs = k.subs := by
    rw [move, migrate, Scene.migrate_of_empty hnobody]
  exact .relabel (objects_move_of_nobody active hnone) hsubs fun _ h => h

/-- **Who owns whom after a switch**: the moved subscribers belong to `next`, everyone else
stays. -/
theorem owns_move (hsome : k.MovesSome prev) (hne : prev ≠ next) (c : SceneRef) (r : SubRef) :
    (k.move active prev next).Owns c r ↔
      (c = next ∧ k.Moves prev r) ∨ (k.Owns c r ∧ ¬ (c = prev ∧ k.Moves prev r)) := by
  by_cases hp : c = prev
  · rw [hp, Owns, scene_move_prev active hsome, Finset.mem_sdiff, mem_liveSubscribers]
    simp [hne, Owns]
  · by_cases hn : c = next
    · rw [hn, Owns, scene_move_next active hsome hne, Finset.mem_union, mem_liveSubscribers]
      simp [hne.symm, Owns, or_comm]
    · rw [Owns, scene_move_of_ne active hp hn]
      simp [hp, hn, Owns]

end Moving

section Owners

variable {k : Server} {c : SceneRef} {r : SubRef}

/-- Who is attached after an attachment: the newcomer, or whoever was before. -/
theorem Wf.owner_attach (hwf : k.Wf) {c₀ : SceneRef} {live : Bool} {opening : Opening}
    (ho : (k.attach c₀ live opening).Owns c r) :
    (c = c₀ ∧ r = k.subs.next) ∨ (k.Owns c r ∧ r ≠ k.subs.next) := by
  rcases (owns_attach ..).mp ho with hnew | hold
  · exact Or.inl hnew
  · exact Or.inr ⟨hold, (hwf.owned_lt c r hold).ne⟩

/-- Who is attached after a switch: whoever was moved to `next`, or whoever was left where it
was. -/
theorem Wf.owner_move (hwf : k.Wf) {active : PyStr} {prev next : SceneRef}
    (hsome : k.MovesSome prev) (hne : prev ≠ next) (ho : (k.move active prev next).Owns c r) :
    (c = next ∧ k.Moves prev r) ∨ (k.Owns c r ∧ ¬ k.Moves prev r) := by
  rcases (owns_move active hsome hne c r).mp ho with hmoved | ⟨hold, hleft⟩
  · exact Or.inl hmoved
  · exact Or.inr ⟨hold, fun hm => hleft ⟨hwf.unique c prev r hold hm.1, hm⟩⟩

end Owners

/-! ## The one case analysis

Each constructor of `Did` carries all that a step of its kind leaves, so nothing below looks at
the operations again. -/

/-- What a step leaves, by what it does. -/
inductive Did (k : Server) : Act → Server → Prop
  | quiet {k' : Server} (h : Quiet k k') : Did k .quiet k'
  | attach {c : SceneRef} (live : Bool) (opening : Opening) (hc : c < k.objects.next)
      (hopening : ∀ f, opening = .snapshot f → f = (k.objects.get c).snapshotFrame) :
      Did k (.attach c) (k.attach c live opening)
  | post {c : SceneRef} {patches : Dict PyStr Json} (cause : Option Cause)
      (hc : c < k.objects.next) (hp : patches.isEmpty = false) :
      Did k (.post c patches cause) (k.post c patches cause)
  | seed {c : SceneRef} {patches : Dict PyStr Json} (hc : c < k.objects.next)
      (hp : patches.isEmpty = false) : Did k (.seed c patches) (k.seed c patches)
  | move {prev next : SceneRef} (active : PyStr) (hprev : k.Registered prev)
      (hnext : k.Registered next) (hne : prev ≠ next)
      (hsome : k.MovesSome prev) :
      Did k (.move prev next) (k.move active prev next)

theorem Did.onScene_of_eq {k : Server} {c : SceneRef} {m m' : Scene × Subs → Scene × Subs}
    {a : Act} (h : Did k a (k.onScene c m')) (heq : m (k.objects.get c, k.subs)
      = m' (k.objects.get c, k.subs)) : Did k a (k.onScene c m) := by
  rwa [onScene_congr heq]

/-- A call on a scene. -/
theorem did_scene (k : Server) {c : SceneRef} (hc : c < k.objects.next) (op : SceneOp) :
    Did k ((k.objects.get c).act c op) (k.onScene c (Scene.step · op)) := by
  have hunchanged : ∀ {m : Scene × Subs → Scene × Subs},
      m (k.objects.get c, k.subs) = (k.objects.get c, k.subs) → Did k .quiet (k.onScene c m) :=
    fun h => .quiet (by rw [onScene_of_unchanged h]; exact .refl k)
  rcases op with version | specs | patches | ⟨patches, cause⟩ | ⟨identity, ps, cause⟩ | _ | live |
    ⟨live, since⟩ | r
  · exact .quiet (.onScene (Scene.quiet_setVersion _ version))
  · exact .quiet (.onScene (Scene.quiet_declareInputs _ specs))
  · rw [Scene.act]
    split
    · rename_i hp
      exact hunchanged ((Scene.step_set ..).trans (if_pos hp))
    · rename_i hp
      exact (Did.seed hc (Bool.not_eq_true _ ▸ hp)).onScene_of_eq
        ((Scene.step_set ..).trans (if_neg hp))
  · rw [Scene.act]
    split
    · rename_i hp
      exact hunchanged ((Scene.step_emit ..).trans (if_pos hp))
    · rename_i hp
      exact (Did.post cause hc (Bool.not_eq_true _ ▸ hp)).onScene_of_eq
        ((Scene.step_emit ..).trans (if_neg hp))
  · rw [Scene.act]
    split
    · rename_i hv
      exact (Did.post cause hc (Scene.isEmpty_asDict_of_verdict hv)).onScene_of_eq
        (Scene.step_applyInput_of_ok cause hv)
    · rename_i hv
      exact hunchanged (Scene.step_applyInput_of_ne cause hv)
  · exact .quiet (.onScene (Scene.quiet_reset _))
  · exact .attach live (.snapshot (k.objects.get c).snapshotFrame) hc fun f hf => by cases hf; rfl
  · refine .attach live (Scene.openingOf ((k.objects.get c).resumeAnswer since)) hc fun f hf => ?_
    rw [Scene.resumeAnswer] at hf
    split at hf
    · cases hf
    · cases hf
      rfl
  · change Did k .quiet _
    by_cases hr : r < k.subs.next
    · rw [onScene_unsubscribe c hr]
      exact .quiet (.onScene (Scene.quiet_unsubscribe (k.objects.get c, k.subs) r))
    · rw [onScene_unsubscribe_of_not c hr]
      exact .quiet (.refl k)

/-- An emission, run. -/
theorem step_emit {k : Server} {c : SceneRef} {patches : Dict PyStr Json} (cause : Option Cause)
    (hc : c < k.objects.next) (hp : patches.isEmpty = false) :
    k.step (.scene c (.emit patches cause)) = k.post c patches cause := by
  rw [step, if_pos hc, post]
  refine onScene_congr ((Scene.step_emit ..).trans (if_neg ?_))
  rw [hp]
  exact Bool.false_ne_true

/-- An accepted input, run. -/
theorem step_applyInput {k : Server} {c : SceneRef} {identity : Identity} {patches : List Patch}
    (cause : Option Cause) (hc : c < k.objects.next)
    (hv : (k.objects.get c).verdict identity patches = .ok none) :
    k.step (.scene c (.applyInput identity patches cause))
      = k.post c (Scene.asDict patches) cause := by
  rw [step, if_pos hc, post]
  exact onScene_congr (Scene.step_applyInput_of_ok cause hv)

/-- …and one that is not accepted. -/
theorem step_applyInput_of_ne {k : Server} {c : SceneRef} {identity : Identity}
    {patches : List Patch} (cause : Option Cause)
    (hv : (k.objects.get c).verdict identity patches ≠ .ok none) :
    k.step (.scene c (.applyInput identity patches cause)) = k := by
  rw [step]
  split
  · exact onScene_of_unchanged (Scene.step_applyInput_of_ne cause hv)
  · rfl

/-- An attachment, run. -/
theorem step_subscribeWithResume {k : Server} {c : SceneRef} (hc : c < k.objects.next)
    (live : Bool) (since : Option ℤ) : k.step (.scene c (.subscribeWithResume live since))
      = k.attach c live (Scene.openingOf ((k.objects.get c).resumeAnswer since)) := by
  rw [step, if_pos hc]
  rfl

/-- **What every step does.** -/
theorem did (k : Server) (op : Op) : Did k (k.act op) (k.step op) := by
  rcases op with ⟨id, version, operatorInputs, loopRunning⟩ | id | ⟨c, op⟩ | r | _ | _ | r
  · exact .quiet (quiet_newScene k id version operatorInputs loopRunning)
  · rcases step_setActive k id with ⟨prev, next, hswap, hstep⟩ | ⟨hswap, active, hstep⟩
    · obtain ⟨-, hprev, hnext, hne⟩ := swap_eq_some hswap
      rw [hstep]
      simp only [act, hswap]
      split
      · rename_i hlive
        exact .quiet (quiet_move id (not_not.mpr hlive))
      · rename_i hlive
        exact .move id (registered_of_activeScene hprev) (registered_of_get? hnext) hne hlive
    · rw [hstep]
      simp only [act, hswap]
      exact .quiet (.relabel rfl rfl fun _ h => h)
  · rw [act, step]
    split
    · rename_i hc
      exact did_scene k hc op
    · exact .quiet (.refl k)
  · change Did k .quiet _
    rw [step]
    split
    · exact .quiet (quiet_detach k r)
    · exact .quiet (.refl k)
  · exact .quiet (quiet_reset k)
  · exact .quiet (quiet_runTask k)
  · exact .quiet (quiet_dequeue k r)

/-- What a subscriber that is moved is sent. -/
theorem Did.sub_moved {k k' : Server} {prev next : SceneRef} (h : Did k (.move prev next) k')
    {r : SubRef} (hr : k.Moves prev r) : k'.subs.get r
      = (k.objects.get next).handOver (k.objects.get prev) (k.subs.get r) := by
  cases h with
  | move active _ _ _ hsome => rw [sub_move active hsome, if_pos hr]

/-- A live flag is for life. -/
theorem Did.live {k k' : Server} {a : Act} (h : Did k a k') {r : SubRef} (hr : r < k.subs.next) :
    (k'.subs.get r).live = (k.subs.get r).live ∧ r < k'.subs.next := by
  rcases h with h | ⟨live, opening, -, -⟩ | ⟨cause, -, -⟩ | ⟨-, -⟩ | ⟨active, -, -, -, hsome⟩
  · exact ⟨(h.history r).live, h.subs_next ▸ hr⟩
  · rw [sub_attach_of_ne _ _ _ _ hr.ne]
    exact ⟨rfl, hr.trans (Nat.lt_succ_self _)⟩
  · refine ⟨?_, hr⟩
    rw [sub_post]
    split
    · exact Scene.live_deliver
    · rfl
  · refine ⟨?_, hr⟩
    rw [sub_seed]
    split
    · exact Subscription.live_sendOrDrop ..
    · rfl
  · refine ⟨?_, subs_next_move active hsome ▸ hr⟩
    rw [sub_move active hsome]
    split
    · exact Scene.live_handOver
    · rfl

/-- **What every way of sending keeps, a step keeps**: a property of a subscriber's history, with a
delta and a hand-over judged where they happen. -/
theorem Did.keeps {k k' : Server} {a : Act} {P : Subscription → Prop} {r : SubRef} (h : Did k a k')
    (hr : P (k.subs.get r))
    (hsame : ∀ {sub sub' : Subscription}, sub.SameHistory sub' → P sub → P sub')
    (hnew : ∀ live opening, P { live := live, opening := opening })
    (hpost : ∀ c patches cause, a = .post c patches cause → k.Owns c r →
      P (((k.objects.get c).emitted patches cause).deliver patches cause (k.subs.get r)))
    (hsnap : ∀ (sc : Scene) (sub : Subscription), P sub → P (sub.sendOrDrop sc.snapshotLetter))
    (hmove : ∀ prev next, a = .move prev next → k.Moves prev r →
      P ((k.objects.get next).handOver (k.objects.get prev) (k.subs.get r))) :
    P (k'.subs.get r) := by
  rcases h with h | ⟨live, opening, -, -⟩ | ⟨cause, -, -⟩ | ⟨-, -⟩ | ⟨active, -, -, -, hsome⟩
  · exact hsame (h.history r) hr
  · by_cases hfresh : r = k.subs.next
    · rw [hfresh, sub_attach_next]
      exact hnew live opening
    · rwa [sub_attach_of_ne _ _ _ _ hfresh]
  · rw [sub_post]
    split
    · rename_i hown
      exact hpost _ _ cause rfl hown
    · exact hr
  · rw [sub_seed]
    split
    · exact hsnap _ _ hr
    · exact hr
  · rw [sub_move active hsome]
    split
    · rename_i hmoves
      exact hmove _ _ rfl hmoves
    · exact hr

/-! ## Every reached kit is well formed -/

theorem wf_post {k : Server} (hwf : k.Wf) (c : SceneRef) (patches : Dict PyStr Json)
    (cause : Option Cause) : (k.post c patches cause).Wf := by
  have hseq : 1 ≤ ((k.objects.get c).emitted patches cause).currentSeq :=
    (hwf.seq_pos c).trans (Int.le_add_one le_rfl)
  refine hwf.onScene rfl hseq (Finset.Subset.refl _) rfl fun r => ?_
  rw [Heap.get_modifyAll]
  split
  · rw [Scene.maxsize_deliver, hwf.maxsize_eq]
  · exact hwf.maxsize_eq r

theorem wf_seed {k : Server} (hwf : k.Wf) (c : SceneRef) (patches : Dict PyStr Json) :
    (k.seed c patches).Wf := by
  refine hwf.onScene rfl (hwf.seq_pos c) (Finset.Subset.refl _) rfl fun r => ?_
  rw [Scene.refreshAll, Heap.get_modifyAll]
  split
  · rw [Subscription.maxsize_sendOrDrop, hwf.maxsize_eq]
  · exact hwf.maxsize_eq r

theorem wf_attach {k : Server} (hwf : k.Wf) {c : SceneRef} (hc : c < k.objects.next) (live : Bool)
    (opening : Opening) : (k.attach c live opening).Wf where
  registered_lt c' hc' := hwf.registered_lt c' hc'
  owner_lt c' r ho := by
    rcases (owns_attach ..).mp ho with ⟨rfl, -⟩ | ho
    · exact hc
    · exact hwf.owner_lt c' r ho
  owned_lt c' r ho := by
    rcases (owns_attach ..).mp ho with ⟨-, rfl⟩ | ho
    · exact Nat.lt_succ_self _
    · exact (hwf.owned_lt c' r ho).trans (Nat.lt_succ_self _)
  unique c₁ c₂ r h₁ h₂ := by
    rcases hwf.owner_attach h₁ with ⟨hc₁, hr⟩ | ⟨ho₁, hold₁⟩ <;>
      rcases hwf.owner_attach h₂ with ⟨hc₂, hr'⟩ | ⟨ho₂, hold₂⟩
    · exact hc₁.trans hc₂.symm
    · exact absurd hr hold₂
    · exact absurd hr' hold₁
    · exact hwf.unique c₁ c₂ r ho₁ ho₂
  ref_eq c' hc' := (ref_attach ..).trans (hwf.ref_eq c' hc')
  seq_pos c' := by
    rw [Scene.currentSeq, seq_attach]
    exact hwf.seq_pos c'
  maxsize_eq r := by
    by_cases hr : r = k.subs.next
    · rw [hr, sub_attach_next]
      rfl
    · rw [sub_attach_of_ne _ _ _ _ hr]
      exact hwf.maxsize_eq r

theorem wf_move {k : Server} (hwf : k.Wf) (active : PyStr) {prev next : SceneRef}
    (hnext : k.Registered next) (hne : prev ≠ next) (hsome : k.MovesSome prev) :
    (k.move active prev next).Wf where
  registered_lt c hc := hwf.registered_lt c hc
  owner_lt c r ho := by
    rcases (owns_move active hsome hne c r).mp ho with ⟨rfl, -⟩ | ⟨ho, -⟩
    · exact hwf.registered_lt c hnext
    · exact hwf.owner_lt c r ho
  owned_lt c r ho := by
    rw [subs_next_move active hsome]
    rcases (owns_move active hsome hne c r).mp ho with ⟨-, hmoves⟩ | ⟨ho, -⟩
    · exact hwf.owned_lt prev r hmoves.1
    · exact hwf.owned_lt c r ho
  unique c₁ c₂ r h₁ h₂ := by
    rcases hwf.owner_move hsome hne h₁ with ⟨hc₁, hm₁⟩ | ⟨ho₁, hn₁⟩ <;>
      rcases hwf.owner_move hsome hne h₂ with ⟨hc₂, hm₂⟩ | ⟨ho₂, hn₂⟩
    · exact hc₁.trans hc₂.symm
    · exact absurd hm₁ hn₂
    · exact absurd hm₂ hn₁
    · exact hwf.unique c₁ c₂ r ho₁ ho₂
  ref_eq c hc := (ref_move active hsome hne c).trans (hwf.ref_eq c hc)
  seq_pos c := by
    by_cases hp : c = prev
    · rw [hp, scene_move_prev active hsome]
      exact (hwf.seq_pos prev).trans (Int.le_add_one le_rfl)
    · rw [Scene.currentSeq, seq_move_of_ne active hsome hne hp]
      exact hwf.seq_pos c
  maxsize_eq r := by
    rw [sub_move active hsome]
    split
    · rw [Scene.maxsize_handOver, hwf.maxsize_eq]
    · exact hwf.maxsize_eq r

theorem Did.wf {k k' : Server} {a : Act} (h : Did k a k') (hwf : k.Wf) : k'.Wf := by
  rcases h with h | ⟨live, opening, hc, -⟩ | ⟨cause, -, -⟩ | ⟨-, -⟩ | ⟨active, -, hnext, hne, hsome⟩
  · exact h.wf hwf
  · exact wf_attach hwf hc live opening
  · exact wf_post hwf _ _ cause
  · exact wf_seed hwf _ _
  · exact wf_move hwf active hnext hne hsome

theorem wf_step (k : Server) (op : Op) (hwf : k.Wf) : (k.step op).Wf := (did k op).wf hwf

theorem wf_after (ops : List Op) : (after ops).Wf := run_invariant wf_empty wf_step ops

/-- **Induction over runs of the kit**, one case per act: what the empty kit has and every act keeps
is had by every kit that is reached. -/
theorem after_invariant {P : Server → Prop} (h0 : P {})
    (hstep : ∀ {k k' : Server} {a : Act}, Did k a k' → k.Wf → P k → P k') (ops : List Op) :
    P (after ops) := by
  induction ops using List.reverseRecOn with
  | nil => exact h0
  | append_singleton ops op ih =>
    rw [after, run_concat]
    exact hstep (did _ op) (wf_after ops) ih

/-! ## Filling a queue

Room is a number of free slots.  A client that does not read loses one for each emission, and
that is how the counterexamples fill a queue without a run of hundreds of events. -/

/-- `k'` comes from `k` by `n` more frames in the queue of `r`, a subscriber of `c`. -/
structure Filled (k k' : Server) (c : SceneRef) (r : SubRef) (n : ℕ) : Prop where
  next_lt : c < k'.objects.next
  owns : k'.Owns c r
  length : (k'.subs.get r).queue.items.length = (k.subs.get r).queue.items.length + n
  live : (k'.subs.get r).live = (k.subs.get r).live
  scenes : k'.scenes = k.scenes
  active : k'.active = k.active

theorem Filled.trans {k k' k'' : Server} {c : SceneRef} {r : SubRef} {m n : ℕ}
    (h : Filled k k' c r m) (h' : Filled k' k'' c r n) : Filled k k'' c r (m + n) where
  next_lt := h'.next_lt
  owns := h'.owns
  length := by rw [h'.length, h.length, Nat.add_assoc]
  live := h'.live.trans h.live
  scenes := h'.scenes.trans h.scenes
  active := h'.active.trans h.active

/-- An emission that finds room. -/
theorem filled_post {k : Server} {c : SceneRef} {r : SubRef} (patches : Dict PyStr Json)
    (cause : Option Cause) (hc : c < k.objects.next) (ho : k.Owns c r)
    (hroom : (k.subs.get r).HasRoom) : Filled k (k.post c patches cause) c r 1 where
  next_lt := hc
  owns := (owns_post ..).mpr ho
  length := by
    rw [sub_post, if_pos ho, Scene.queue_deliver, if_pos hroom, List.length_append,
      List.length_singleton]
  live := by rw [sub_post, if_pos ho, Scene.live_deliver]
  scenes := rfl
  active := rfl

/-- **A scene that emits to a client that does not read fills its queue**, one slot each time. -/
theorem filled_emits {c : SceneRef} {r : SubRef} {patches : Dict PyStr Json}
    (cause : Option Cause) (hp : patches.isEmpty = false) : ∀ (n : ℕ) (k : Server),
    c < k.objects.next → k.Owns c r →
    (k.subs.get r).queue.items.length + n ≤ (k.subs.get r).queue.maxsize →
    Filled k (run step k (List.replicate n (.scene c (.emit patches cause)))) c r n
  | 0, _, hc, ho, _ => ⟨hc, ho, rfl, rfl, rfl, rfl⟩
  | n + 1, k, hc, ho, hfit => by
      have hroom : (k.subs.get r).HasRoom :=
        (Nat.lt_add_of_pos_right (Nat.succ_pos n)).trans_le hfit
      have hone := filled_post patches cause hc ho hroom
      have hmax : ((k.post c patches cause).subs.get r).queue.maxsize
          = (k.subs.get r).queue.maxsize := by
        rw [sub_post, if_pos ho, Scene.maxsize_deliver]
      have hrest := filled_emits cause hp n (k.post c patches cause) hone.next_lt hone.owns
        (by rw [hone.length, hmax]; omega)
      rw [List.replicate_succ, run_cons, step_emit cause hc hp, Nat.add_comm]
      exact hone.trans hrest

/-! ## Watching a run

Some properties of a run depend on more than the kit: who was left out by an earlier step.  An
observer sees every act and keeps what it needs next to the kit. -/

section Watching

variable {α : Type} (f : Server → α → Act → α)

/-- The kit next to an observer. -/
def watch (w : Server × α) (op : Op) : Server × α := (w.1.step op, f w.1 w.2 (w.1.act op))

/-- **A property of every state, decided by an observer**: where it holds before a step, it holds
after it exactly when the act meets `C`. -/
theorem always_iff_watch {I : Server → α → Prop} {P : Server → Prop}
    {C : Server → α → Act → Prop} {x₀ : α} (hI : I {} x₀) (hP : P {})
    (hkeep : ∀ {k k' : Server} {a : Act} {x : α}, Did k a k' → k.Wf → I k x → I k' (f k x a))
    (hstep : ∀ {k k' : Server} {a : Act} {x : α}, Did k a k' → k.Wf → I k x → P k →
      (P k' ↔ C k x a)) (ops : List Op) :
    Always step P {} ops ↔ Steps (watch f) (fun w op => C w.1 w.2 (w.1.act op)) ({}, x₀) ops := by
  have hwatch : Always (watch f) (fun w => P w.1) ({}, x₀) ops ↔
      Steps (watch f) (fun w op => C w.1 w.2 (w.1.act op)) ({}, x₀) ops :=
    @always_iff_steps _ _ (watch f) (fun w => w.1.Wf ∧ I w.1 w.2) _ _ ({}, x₀) ⟨wf_empty, hI⟩ hP
      (fun w op h => ⟨wf_step w.1 op h.1, hkeep (did w.1 op) h.1 h.2⟩)
      (fun w op h hp => hstep (did w.1 op) h.1 h.2 hp) ops
  rw [← hwatch]
  exact (@always_map _ _ _ (watch f) Prod.fst step (fun _ _ => rfl) P ({}, x₀) ops).symm

end Watching

end Server

end Lumencast
