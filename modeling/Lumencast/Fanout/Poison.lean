import Lumencast.Protocol.Decode
import Lumencast.Protocol.WellFormed
import Lumencast.Server.Answers
import Lumencast.Server.Acts

/-!
# Fanout/Poison — what the viewers of a scene can still read

The decoder lets NaN, the infinities and lone surrogates through, and nothing between it and the
encoder stops them: once stored, such a value is in every snapshot of the scene.  `Server.Clean`
says that a kit holds none, which is the case exactly when every text it encodes can be read.
-/

namespace Lumencast

open Machinery Grammar

/-! ## Frames that can be read

A frame is an object of fields, and each of them is clean or not by itself.  So a frame can be
read exactly when none of its values is poisoned. -/

namespace Frame

/-- A frame whose text is well formed and has a UTF-8 encoding. -/
def Readable [PyRepr] (f : Frame) : Prop := IsText (encode f).points ∧ (encode f).encodable = true

/-- A frame without a float that is no number, and without a lone surrogate. -/
def clean (f : Frame) : Bool := (Json.obj (frameToDict f)).clean

theorem readable_iff_clean [PyRepr] (hrepr : ReprNumbers) {f : Frame} :
    f.Readable ↔ f.clean = true :=
  clean_iff hrepr _

end Frame

/-- A batch of leaves that can be read. -/
def cleanEntries (es : List (PyStr × Json)) : Bool := (Json.obj es).clean

/-- A provenance that can be read. -/
def cleanCause : Option Cause → Bool
  | none => true
  | some c => c.source.encodable && c.inputId.clean

theorem cleanEntries_cons (k : PyStr) (v : Json) (es : List (PyStr × Json)) :
    cleanEntries ((k, v) :: es) = (k.encodable && v.clean && cleanEntries es) := rfl

theorem cleanEntries_iff {es : List (PyStr × Json)} : cleanEntries es = true ↔
    ∀ e ∈ es, e.1.encodable = true ∧ e.2.clean = true := by
  induction es with
  | nil => exact iff_of_true rfl (List.forall_mem_nil _)
  | cons e es ih =>
      obtain ⟨k, v⟩ := e
      rw [List.forall_mem_cons, ← ih, cleanEntries_cons, Bool.and_eq_true, Bool.and_eq_true]

theorem cleanEntries_append (es es' : List (PyStr × Json)) :
    cleanEntries (es ++ es') = (cleanEntries es && cleanEntries es') := by
  rw [Bool.eq_iff_iff, Bool.and_eq_true, cleanEntries_iff, cleanEntries_iff, cleanEntries_iff]
  exact List.forall_mem_append

theorem cleanEntries_pair (k : PyStr) (v : Json) :
    cleanEntries (pair k v) = (k.encodable && v.clean) := Bool.and_true _

theorem cleanEntries_pairSome {α : Type} (k : PyStr) (toJson : α → Json) (o : Option α) :
    cleanEntries (pairSome k toJson o) = o.all fun a => k.encodable && (toJson a).clean := by
  rcases o with _ | a
  · rfl
  · exact Bool.and_true _

theorem clean_arr (xs : List Json) : (Json.arr xs).clean = xs.all Json.clean := by
  induction xs with
  | nil => rfl
  | cons x xs ih =>
      rw [List.all_cons, ← ih]
      rfl

theorem clean_cause (c : Cause) :
    (causeToDict c).clean = (c.source.encodable && c.inputId.clean) := by
  have hsource : cleanEntries (pair "source" (.str c.source)) = c.source.encodable := by
    rw [cleanEntries_pair]
    rfl
  have hid : cleanEntries (pairNotNone "input_id" c.inputId) = c.inputId.clean := by
    rcases c.inputId with _ | b | n | x | s | xs | kvs
    case null => rfl
    all_goals exact cleanEntries_pair "input_id" _
  change cleanEntries _ = _
  rw [cleanEntries_append, hsource, hid]

/-- The delta of an emission can be read exactly when its leaves and its provenance can. -/
theorem clean_delta (seq : ℤ) (es : List (PyStr × Json)) (cause : Option Cause) :
    (Frame.delta { patches := Scene.wirePatches es, seq := seq, cause := cause }).clean =
      (cleanEntries es && cleanCause cause) := by
  have hpatches : Json.clean (.arr ((Scene.wirePatches es).map patchToDict)) = cleanEntries es := by
    rw [clean_arr]
    induction es with
    | nil => rfl
    | cons e es ih =>
        rw [Scene.wirePatches, List.map_cons, List.map_cons, List.all_cons, cleanEntries_cons, ← ih]
        refine congrArg (· && _) ?_
        change (true && _ && (true && _ && true)) = _
        rw [Bool.true_and, Bool.true_and, Bool.and_true]
        rfl
  have hcause : cleanEntries (pairSome "cause" causeToDict cause) = cleanCause cause := by
    rw [cleanEntries_pairSome]
    rcases cause with _ | c
    · rfl
    · rw [Option.all_some, clean_cause]
      rfl
  change cleanEntries _ = _
  rw [frameToDict, cleanEntries_append, hcause, cleanEntries_append, cleanEntries_append,
    cleanEntries_pair "patches", hpatches]
  exact congrArg (· && _) (Bool.and_true _)

/-- A snapshot can be read exactly when the names of its scene and its leaves can. -/
theorem clean_snapshot (sc : Scene) : (Frame.snapshot sc.snapshotFrame).clean =
    (sc.id.encodable && sc.version.encodable && cleanEntries sc.store.state.entries) := by
  change cleanEntries _ = _
  rw [frameToDict, cleanEntries_append, cleanEntries_append, cleanEntries_append,
    cleanEntries_append, cleanEntries_append, cleanEntries_pair "scene_id",
    cleanEntries_pair "scene_version", cleanEntries_pair "state"]
  exact Bool.and_true _

theorem clean_changed (sc prev : Scene) :
    (sc.changedLetter prev).frame.clean = (sc.id.encodable && sc.version.encodable) := by
  change cleanEntries _ = _
  rw [Scene.changedLetter, frameToDict, cleanEntries_append, cleanEntries_append,
    cleanEntries_append, cleanEntries_append, cleanEntries_append, cleanEntries_pair "scene_id",
    cleanEntries_pair "scene_version"]
  exact (Bool.and_true _).trans ((Bool.and_true _).trans (Bool.and_true _))

/-! ## What a kit sends

Frames that would be sent count too: a snapshot that cannot be read is no less poisoned for
having no subscriber yet. -/

/-- The frames a subscriber is opened with. -/
def Opening.frames : Opening → List Frame
  | .snapshot f => [.snapshot f]
  | .replay records => records.map ReplayRecord.delta

section Serves

variable (P : Frame → Prop)

/-- Whatever a scene would send a new subscriber, a snapshot or replayed records. -/
structure Scene.Serves (sc : Scene) : Prop where
  snapshot : P (.snapshot sc.snapshotFrame)
  replay : ∀ r ∈ sc.replay.records.items, P r.delta

/-- Whatever a subscriber was opened with, or has been sent since. -/
structure Subscription.Sent (sub : Subscription) : Prop where
  opening : ∀ f ∈ sub.opening.frames, P f
  frames : ∀ f ∈ sub.frames, P f

/-- Every frame that reaches a subscriber, or would reach one that attaches now. -/
structure Server.Serves (k : Server) : Prop where
  scenes : ∀ c, (k.objects.get c).Serves P
  subs : ∀ r, (k.subs.get r).Sent P

end Serves

theorem Server.serves_congr {P Q : Frame → Prop} (h : ∀ f, P f ↔ Q f) {k : Server} :
    k.Serves P ↔ k.Serves Q := by
  have hPQ : P = Q := funext fun f => propext (h f)
  rw [hPQ]

/-- Every frame of a kit can be read. -/
abbrev Server.Clean (k : Server) : Prop := k.Serves fun f => f.clean = true

/-- A kit whose scenes remember at least their last emission. -/
def Server.Remembers (k : Server) : Prop :=
  ∀ c, c < k.objects.next → 0 < (k.objects.get c).replay.records.maxlen

namespace Subscription

variable {P : Frame → Prop} {sub : Subscription}

theorem Sent.sendOrDrop (h : sub.Sent P) {msg : Letter} (hmsg : P msg.frame) :
    (sub.sendOrDrop msg).Sent P := by
  refine ⟨by rw [opening_sendOrDrop]; exact h.opening, fun f hf => ?_⟩
  rw [frames_sendOrDrop] at hf
  rcases List.mem_append.mp hf with hf | hf
  · exact h.frames f hf
  · split at hf
    · rw [List.mem_singleton.mp hf]
      exact hmsg
    · cases hf

theorem Sent.sendDelta (h : sub.Sent P) {delta snap : Letter} (hdelta : P delta.frame) :
    (sub.sendDelta delta snap).Sent P := by
  refine ⟨by rw [opening_sendDelta]; exact h.opening, fun f hf => ?_⟩
  rw [Subscription.frames, delivered_sendDelta, List.map_append] at hf
  rcases List.mem_append.mp hf with hf | hf
  · exact h.frames f hf
  · split at hf
    · rw [List.mem_singleton.mp hf]
      exact hdelta
    · cases hf

theorem Sent.of_sameHistory {sub' : Subscription} (h : sub.Sent P) (hsame : SameHistory sub sub') :
    sub'.Sent P :=
  ⟨by rw [hsame.opening]; exact h.opening, by rw [hsame.frames]; exact h.frames⟩

end Subscription

/-! ## What a step writes

A value enters with an operation and stays in the store until it is overwritten.  So the
condition is on what an operation leaves, path by path. -/

/-- What a call on a scene writes can be read. -/
def SceneOp.Clean (sc : Scene) : SceneOp → Prop
  | .setVersion version => version.encodable = true
  | .set patches => cleanEntries patches.entries = true
  | .emit patches cause => patches.isEmpty = false →
      cleanEntries patches.entries = true ∧ cleanCause cause = true
  | .applyInput identity patches cause => sc.verdict identity patches = .ok none →
      cleanEntries (Scene.asDict patches).entries = true ∧ cleanCause cause = true
  | _ => True

/-- What an operation writes can be read. -/
def Op.Clean (k : Server) : Op → Prop
  | .newScene id version _ _ => id.encodable = true ∧ version.encodable = true
  | .scene c op => c < k.objects.next → op.Clean (k.objects.get c)
  | _ => True

namespace Scene

variable {sc : Scene}

theorem serves_iff : (sc.Serves fun f => f.clean = true) ↔
    (sc.id.encodable = true ∧ sc.version.encodable = true ∧
      cleanEntries sc.store.state.entries = true) ∧
    ∀ r ∈ sc.replay.records.items, r.delta.clean = true := by
  constructor
  · intro h
    have hsnapshot := h.snapshot
    rw [clean_snapshot, Bool.and_eq_true, Bool.and_eq_true, and_assoc] at hsnapshot
    exact ⟨hsnapshot, h.replay⟩
  · intro h
    refine ⟨?_, h.2⟩
    rw [clean_snapshot, Bool.and_eq_true, Bool.and_eq_true, and_assoc]
    exact h.1

/-- A batch is clean exactly when what it leaves of a clean store is. -/
theorem cleanEntries_update {d patches : Dict PyStr Json} (hd : cleanEntries d.entries = true) :
    cleanEntries (d.update patches.entries).entries = true ↔
      cleanEntries patches.entries = true := by
  rw [cleanEntries_iff] at hd
  rw [cleanEntries_iff, cleanEntries_iff]
  constructor
  · exact fun h e he => h e (Dict.mem_update_of_mem patches.nodup he)
  · exact fun h e he => (Dict.mem_entries_update _ _ he).elim (hd e) (h e)

theorem serves_seeded (h : sc.Serves fun f => f.clean = true) (patches : Dict PyStr Json) :
    ((sc.seeded patches).Serves fun f => f.clean = true) ↔ cleanEntries patches.entries = true := by
  rw [serves_iff] at h ⊢
  have hstate := @cleanEntries_update sc.store.state patches h.1.2.2
  exact ⟨fun h' => hstate.mp h'.1.2.2, fun h' => ⟨⟨h.1.1, h.1.2.1, hstate.mpr h'⟩, h.2⟩⟩

theorem serves_emitted (h : sc.Serves fun f => f.clean = true)
    (hmax : 0 < sc.replay.records.maxlen) (patches : Dict PyStr Json) (cause : Option Cause) :
    ((sc.emitted patches cause).Serves fun f => f.clean = true) ↔
      cleanEntries patches.entries = true ∧ cleanCause cause = true := by
  have hrecord : (ReplayRecord.delta ⟨sc.seq.cur + 1, wirePatches patches.entries, cause⟩).clean
      = (cleanEntries patches.entries && cleanCause cause) := clean_delta ..
  rw [Bool.eq_iff_iff, Bool.and_eq_true] at hrecord
  rw [serves_iff] at h ⊢
  rw [← hrecord]
  constructor
  · exact fun h' => h'.2 _ (BoundedDeque.mem_append_self hmax _)
  · intro hclean
    refine ⟨⟨h.1.1, h.1.2.1, (cleanEntries_update h.1.2.2).mpr (hrecord.mp hclean).1⟩,
      fun r hr => ?_⟩
    rcases BoundedDeque.mem_of_mem_append hr with hr | rfl
    · exact h.2 r hr
    · exact hclean

/-- The scene and the subscriptions a call is made on. -/
def Serving (st : Scene × Subs) : Prop :=
  (st.1.Serves fun f => f.clean = true) ∧ ∀ r, (st.2.get r).Sent fun f => f.clean = true

theorem serving_refreshAll {subs : Subs} (h : sc.Serves fun f => f.clean = true)
    (hsubs : ∀ r, (subs.get r).Sent fun f => f.clean = true) (r : SubRef) :
    ((sc.refreshAll subs).get r).Sent fun f => f.clean = true := by
  rw [refreshAll, Heap.get_modifyAll]
  split
  · exact (hsubs r).sendOrDrop h.snapshot
  · exact hsubs r

theorem serving_deliver {patches : Dict PyStr Json} {cause : Option Cause} {subs : Subs}
    {visit : Finset SubRef} (hsubs : ∀ r, (subs.get r).Sent fun f => f.clean = true)
    (hclean : cleanEntries patches.entries = true ∧ cleanCause cause = true) (r : SubRef) :
    ((subs.modifyAll visit (sc.deliver patches cause)).get r).Sent fun f => f.clean = true := by
  rw [Heap.get_modifyAll]
  split
  · refine (hsubs r).sendDelta ?_
    change (Frame.delta { patches := wirePatches patches.entries, seq := _, cause := cause }).clean
      = true
    rw [clean_delta, Bool.and_eq_true]
    exact hclean
  · exact hsubs r

/-- A subscriber that attaches is opened with what the scene serves. -/
theorem serving_alloc {st : Scene × Subs} (h : Serving st) {live : Bool} {opening : Opening}
    (hopening : ∀ f ∈ opening.frames, f.clean = true) :
    Serving ({ st.1 with subscribers := insert st.2.next st.1.subscribers },
      st.2.alloc { live := live, opening := opening }) := by
  refine ⟨⟨h.1.snapshot, h.1.replay⟩, fun r => ?_⟩
  change Subscription.Sent _ ((st.2.alloc _).get r)
  rw [Heap.get_alloc]
  split
  · exact ⟨hopening, fun f hf => nomatch hf⟩
  · exact h.2 r

theorem serving_sameHistory {st st' : Scene × Subs} (h : Serving st)
    (hscene : st'.1.Serves fun f => f.clean = true)
    (hsame : ∀ r, (st.2.get r).SameHistory (st'.2.get r)) : Serving st' :=
  ⟨hscene, fun r => (h.2 r).of_sameHistory (hsame r)⟩

/-- Emptying the store leaves nothing that cannot be read. -/
theorem serving_reset {st : Scene × Subs} (h : Serving st) : Serving (st.1.reset st.2) := by
  refine serving_sameHistory h ?_ (quiet_reset st).history
  obtain ⟨hnames, hreplay⟩ := serves_iff.mp h.1
  exact serves_iff.mpr ⟨⟨hnames.1, hnames.2.1, rfl⟩, hreplay⟩

theorem serving_unsubscribe {st : Scene × Subs} (h : Serving st) (r : SubRef) :
    Serving (st.1.unsubscribe st.2 r) :=
  serving_sameHistory h ⟨h.1.snapshot, h.1.replay⟩ (quiet_unsubscribe st r).history

/-- A subscriber that is moved is sent the names and the state of its new scene. -/
theorem serving_migrate {prev : Scene} {subs : Subs} (h : sc.Serves fun f => f.clean = true)
    (hprev : prev.Serves fun f => f.clean = true)
    (hsubs : ∀ r, (subs.get r).Sent fun f => f.clean = true) :
    ((sc.migrateSubscribersFrom prev subs).1.Serves fun f => f.clean = true) ∧
      ((sc.migrateSubscribersFrom prev subs).2.1.Serves fun f => f.clean = true) ∧
      ∀ r, ((sc.migrateSubscribersFrom prev subs).2.2.get r).Sent fun f => f.clean = true := by
  by_cases hlive : prev.liveSubscribers subs = ∅
  · rw [migrate_of_empty hlive]
    exact ⟨h, hprev, hsubs⟩
  · rw [migrate_of_ne_empty hlive]
    refine ⟨⟨h.snapshot, h.replay⟩, ?_, fun r => ?_⟩
    · have hprev' := serves_iff.mp hprev
      exact serves_iff.mpr hprev'
    · rw [Heap.get_modifyAll]
      split
      · obtain ⟨hnames, -⟩ := serves_iff.mp h
        have hchanged : (sc.changedLetter prev).frame.clean = true := by
          rw [clean_changed, Bool.and_eq_true]
          exact ⟨hnames.1, hnames.2.1⟩
        exact ((hsubs r).sendOrDrop hchanged).sendOrDrop h.snapshot
      · exact hsubs r

theorem openingOf_resumeAnswer (h : sc.Serves fun f => f.clean = true) (since : Option ℤ) :
    ∀ f ∈ (openingOf (sc.resumeAnswer since)).frames, f.clean = true := by
  intro f hf
  rw [resumeAnswer] at hf
  split at hf
  · rename_i hresumes
    obtain ⟨r, hr, rfl⟩ := List.mem_map.mp hf
    rcases since with _ | s
    · cases hr
    · have hcovered : (sc.replay.since s).covered = true := by
        rw [resumes, Bool.and_eq_true] at hresumes
        exact hresumes.2
      change r ∈ (sc.replay.since s).records at hr
      rw [ReplayBuffer.records_of_covered hcovered] at hr
      exact h.replay r (List.mem_of_mem_filter hr)
  · rw [List.mem_singleton.mp hf]
    exact h.snapshot

/-- **A call on a scene leaves it readable exactly when what it writes is.** -/
theorem serving_step {st : Scene × Subs} (h : Serving st)
    (hmax : 0 < st.1.replay.records.maxlen) (op : SceneOp) :
    Serving (step st op) ↔ op.Clean st.1 := by
  have hemit : ∀ (patches : Dict PyStr Json) (cause : Option Cause),
      Serving (st.1.emitted patches cause, st.2.modifyAll st.1.subscribers
        ((st.1.emitted patches cause).deliver patches cause)) ↔
        cleanEntries patches.entries = true ∧ cleanCause cause = true := fun patches cause =>
    ⟨fun h' => (serves_emitted h.1 hmax patches cause).mp h'.1, fun hclean =>
      ⟨(serves_emitted h.1 hmax patches cause).mpr hclean, serving_deliver h.2 hclean⟩⟩
  rcases op with version | specs | patches | ⟨patches, cause⟩ | ⟨identity, ps, cause⟩ | _ | live |
    ⟨live, since⟩ | r
  · obtain ⟨hnames, hreplay⟩ := serves_iff.mp h.1
    exact ⟨fun h' => (serves_iff.mp h'.1).1.2.1, fun hversion =>
      ⟨serves_iff.mpr ⟨⟨hnames.1, hversion, hnames.2.2⟩, hreplay⟩, h.2⟩⟩
  · exact iff_of_true ⟨⟨h.1.snapshot, h.1.replay⟩, h.2⟩ trivial
  · rw [step_set]
    split
    · rename_i hempty
      refine iff_of_true h ?_
      rw [SceneOp.Clean, Dict.isEmpty_iff.mp hempty]
      rfl
    · have hseeded := serves_seeded h.1 patches
      exact ⟨fun h' => hseeded.mp h'.1, fun hclean =>
        ⟨hseeded.mpr hclean, serving_refreshAll (hseeded.mpr hclean) h.2⟩⟩
  · rw [step_emit]
    split
    · rename_i hempty
      exact iff_of_true h fun hne => absurd (hempty.symm.trans hne) (by decide)
    · rename_i hne
      rw [hemit]
      exact ⟨fun hclean _ => hclean, fun hclean => hclean (Bool.not_eq_true _ ▸ hne)⟩
  · by_cases hv : st.1.verdict identity ps = .ok none
    · rw [step_applyInput_of_ok cause hv, hemit]
      exact ⟨fun hclean _ => hclean, fun hclean => hclean hv⟩
    · rw [step_applyInput_of_ne cause hv]
      exact iff_of_true h fun hok => absurd hok hv
  · exact iff_of_true (serving_reset h) trivial
  · refine iff_of_true (serving_alloc h fun f hf => ?_) trivial
    rw [List.mem_singleton.mp hf]
    exact h.1.snapshot
  · exact iff_of_true (serving_alloc h (openingOf_resumeAnswer h.1 since)) trivial
  · refine iff_of_true ?_ trivial
    rw [step]
    split
    · exact serving_unsubscribe h r
    · exact h

end Scene

/-! ## Kits -/

namespace Server

/-- What a method leaves of a kit. -/
theorem clean_onScene {k : Server} (hk : k.Clean) {c : SceneRef}
    {m : Scene × Subs → Scene × Subs} :
    (k.onScene c m).Clean ↔ Scene.Serving (m (k.objects.get c, k.subs)) := by
  constructor
  · intro h
    have hscene := h.scenes c
    rw [get_onScene, if_pos rfl] at hscene
    exact ⟨hscene, h.subs⟩
  · intro h
    refine ⟨fun c' => ?_, h.2⟩
    rw [get_onScene]
    split
    · exact h.1
    · exact hk.scenes c'

theorem serving_of_clean {k : Server} (hk : k.Clean) (c : SceneRef) :
    Scene.Serving (k.objects.get c, k.subs) := ⟨hk.scenes c, hk.subs⟩

/-- A loop of methods that keep every kit readable. -/
theorem clean_foldl {α : Type} {f : Server → α → Server} (hf : ∀ k a, k.Clean → (f k a).Clean) :
    ∀ (as : List α) {k : Server}, k.Clean → (as.foldl f k).Clean
  | [], _, h => h
  | a :: as, k, h => clean_foldl hf as (hf k a h)

theorem clean_relabel {k k' : Server} (hk : k.Clean) (hobjects : k'.objects = k.objects)
    (hsubs : k'.subs = k.subs) : k'.Clean :=
  ⟨fun c => by rw [hobjects]; exact hk.scenes c, fun r => by rw [hsubs]; exact hk.subs r⟩

theorem clean_newScene {k : Server} (hk : k.Clean) (id version : PyStr)
    (operatorInputs : List InputSpec) (loopRunning : Bool) :
    (k.newScene id version operatorInputs loopRunning).Clean ↔
      id.encodable = true ∧ version.encodable = true := by
  have hnew : (Scene.new k.objects.next id version operatorInputs).Serves (fun f => f.clean = true)
      ↔ id.encodable = true ∧ version.encodable = true := by
    rw [Scene.serves_iff]
    exact ⟨fun h => ⟨h.1.1, h.1.2.1⟩, fun h => ⟨⟨h.1, h.2, rfl⟩, fun _ hr => nomatch hr⟩⟩
  rw [← hnew]
  constructor
  · intro h
    rw [← scene_newScene id version operatorInputs loopRunning]
    exact h.scenes k.objects.next
  · intro h
    refine ⟨fun c => ?_, hk.subs⟩
    by_cases hc : c = k.objects.next
    · rw [hc, scene_newScene]
      exact h
    · rw [scene_newScene_of_ne _ _ _ _ hc]
      exact hk.scenes c

theorem clean_migrate {k : Server} (hk : k.Clean) (prev next : SceneRef) :
    (k.migrate prev next).Clean := by
  obtain ⟨hnext, hprev, hsubs⟩ :=
    Scene.serving_migrate (hk.scenes next) (hk.scenes prev) hk.subs
  refine ⟨fun c => ?_, hsubs⟩
  rw [migrate, Heap.get_modify, Heap.get_modify]
  split
  · exact hprev
  · split
    · exact hnext
    · exact hk.scenes c

theorem clean_dequeue {k : Server} (hk : k.Clean) (r : SubRef) : (k.dequeue r).Clean :=
  ⟨fun c => by rw [objects_dequeue]; exact hk.scenes c,
    fun r' => (hk.subs r').of_sameHistory ((quiet_dequeue k r).history r')⟩

/-- **A step leaves a kit readable exactly when what it writes is.** -/
theorem clean_step {k : Server} (hk : k.Clean) (hmax : k.Remembers) (op : Op) :
    (k.step op).Clean ↔ op.Clean k := by
  rcases op with ⟨id, version, operatorInputs, loopRunning⟩ | id | ⟨c, op⟩ | r | _ | _ | r
  · exact clean_newScene hk ..
  · refine iff_of_true ?_ trivial
    rcases step_setActive k id with ⟨prev, next, -, hstep⟩ | ⟨-, active, hstep⟩
    · have hactive : ({ k with active := id } : Server).Clean := clean_relabel hk rfl rfl
      rw [hstep]
      exact clean_migrate hactive prev next
    · rw [hstep]
      exact clean_relabel hk rfl rfl
  · rw [step, Op.Clean]
    split
    · rename_i hc
      rw [clean_onScene hk, Scene.serving_step (serving_of_clean hk c) (hmax c hc)]
      exact ⟨fun h _ => h, fun h => h hc⟩
    · rename_i hc
      exact iff_of_true hk fun hlt => absurd hlt hc
  · refine iff_of_true ?_ trivial
    rw [step]
    split
    · exact clean_foldl (fun k c hk =>
        (clean_onScene hk).mpr (Scene.serving_unsubscribe (serving_of_clean hk c) r)) _ hk
    · exact hk
  · exact iff_of_true (clean_foldl (fun k c hk =>
      (clean_onScene hk).mpr (Scene.serving_reset (serving_of_clean hk c))) _
      (clean_relabel hk rfl rfl)) trivial
  · refine iff_of_true ?_ trivial
    rw [step, runTask]
    split
    · exact hk
    · rename_i c rest _
      have htaken : ({ k with tasks := rest } : Server).Clean := clean_relabel hk rfl rfl
      exact (clean_onScene htaken).mpr (Scene.serving_reset (serving_of_clean htaken c))
  · exact iff_of_true (clean_dequeue hk r) trivial

/-! ## Whole runs -/

theorem clean_empty : ({} : Server).Clean where
  scenes _ := Scene.serves_iff.mpr ⟨⟨rfl, rfl, rfl⟩, fun _ hr => nomatch hr⟩
  subs _ := ⟨fun _ hf => (nomatch hf), fun _ hf => (nomatch hf)⟩

theorem Did.remembers {k k' : Server} {a : Act} (h : Did k a k') (hk : k.Remembers) :
    k'.Remembers := by
  intro c hc
  rcases h with hquiet | ⟨live, opening, -, -⟩ | ⟨cause, -, -⟩ | ⟨-, -⟩ |
    ⟨active, -, -, hne, hsome⟩
  · by_cases hold : c < k.objects.next
    · rw [hquiet.replay c hold]
      exact hk c hold
    · rw [(hquiet.fresh c (not_lt.mp hold) hc).2]
      exact Nat.succ_pos 255
  · rw [replay_attach]
    exact hk c hc
  · rw [scene_post]
    split
    · rename_i hown
      exact hk _ (hown ▸ hc)
    · exact hk c hc
  · rw [replay_seed]
    exact hk c hc
  · rw [replay_move active hsome hne]
    exact hk c hc

theorem remembers_step (k : Server) (op : Op) (hk : k.Remembers) : (k.step op).Remembers :=
  (did k op).remembers hk

end Server

end Lumencast
