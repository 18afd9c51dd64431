import Lumencast.Sessions.Clients

/-!
# Sessions/Agree — kits that differ in some subscriptions only

`Agree gone k k'`: the two kits are the same but for the subscriptions in `gone`, and for where
these are attached.  No session can tell them apart unless its own subscription is gone
(`Agree.step?`), and no call of a session makes them differ in more (`Agree.perform`).
-/

namespace Lumencast

open Machinery

namespace Server

/-- Two kits that agree on everything but the subscriptions in `gone`. -/
structure Agree (gone : SubRef → Prop) (k k' : Server) : Prop where
  next : k'.objects.next = k.objects.next
  scenes : k'.scenes = k.scenes
  active : k'.active = k.active
  subs_next : k'.subs.next = k.subs.next
  bare : ∀ c, (k'.objects.get c).bare = (k.objects.get c).bare
  sub : ∀ r, ¬ gone r → k'.subs.get r = k.subs.get r
  owns : ∀ c r, ¬ gone r → (k'.Owns c r ↔ k.Owns c r)

variable {gone gone' : SubRef → Prop} {k k' : Server}

theorem Agree.refl (gone : SubRef → Prop) (k : Server) : Agree gone k k :=
  ⟨rfl, rfl, rfl, rfl, fun _ => rfl, fun _ _ => rfl, fun _ _ _ => Iff.rfl⟩

theorem Agree.mono (h : Agree gone k k') (hle : ∀ r, gone r → gone' r) : Agree gone' k k' where
  next := h.next
  scenes := h.scenes
  active := h.active
  subs_next := h.subs_next
  bare := h.bare
  sub r hr := h.sub r (mt (hle r) hr)
  owns c r hr := h.owns c r (mt (hle r) hr)

/-! ## Calls

A call either treats all subscriptions alike, or changes one.  A subscription that is gone may be
treated differently on the two sides, and may be missing from the sets of one of them. -/

/-- A method that treats the two kits alike. -/
theorem Agree.onScene (h : Agree gone k k') {c : SceneRef} {m : Scene × Subs → Scene × Subs}
    (hbare : (m (k'.objects.get c, k'.subs)).1.bare = (m (k.objects.get c, k.subs)).1.bare)
    (hnext : (m (k'.objects.get c, k'.subs)).2.next = (m (k.objects.get c, k.subs)).2.next)
    (hsub : ∀ r, ¬ gone r →
      (m (k'.objects.get c, k'.subs)).2.get r = (m (k.objects.get c, k.subs)).2.get r)
    (howns : ∀ r, ¬ gone r → (r ∈ (m (k'.objects.get c, k'.subs)).1.subscribers ↔
      r ∈ (m (k.objects.get c, k.subs)).1.subscribers)) :
    Agree gone (k.onScene c m) (k'.onScene c m) where
  next := h.next
  scenes := h.scenes
  active := h.active
  subs_next := hnext
  bare c' := by
    rw [get_onScene, get_onScene]
    split
    · exact hbare
    · exact h.bare c'
  sub := hsub
  owns c' r hr := by
    rw [Owns, Owns, get_onScene, get_onScene]
    split
    · exact howns r hr
    · exact h.owns c' r hr

/-- A change of one subscription, the same on both sides. -/
theorem Agree.get_modify (h : Agree gone k k') (r : SubRef) (f : Subscription → Subscription)
    {r' : SubRef} (hr' : ¬ gone r') : (k'.subs.modify r f).get r' = (k.subs.modify r f).get r' := by
  rw [Heap.get_modify, Heap.get_modify]
  split
  · rename_i hr
    rw [h.sub r (hr ▸ hr')]
  · exact h.sub r' hr'

theorem Agree.unsubscribe (h : Agree gone k k') (c : SceneRef) (r : SubRef) :
    Agree gone (k.onScene c fun st => st.1.unsubscribe st.2 r)
      (k'.onScene c fun st => st.1.unsubscribe st.2 r) := by
  refine h.onScene (h.bare c) h.subs_next (fun r' hr' => h.get_modify r _ hr') fun r' hr' => ?_
  exact Finset.mem_erase.trans ((and_congr_right fun _ => h.owns c r' hr').trans
    Finset.mem_erase.symm)

theorem Agree.detach (h : Agree gone k k') (r : SubRef) :
    Agree gone (k.detach r) (k'.detach r) := by
  rw [Server.detach, Server.detach, h.scenes]
  generalize k.scenes.values = cs
  induction cs generalizing k k' with
  | nil => exact h
  | cons c cs ih => exact ih (h.unsubscribe c r)

/-- Detaching a subscription that is gone need not be done on both sides. -/
theorem Agree.detach_left (h : Agree gone k k') {r : SubRef} (hr : gone r) :
    Agree gone (k.detach r) k' := by
  rw [Server.detach]
  generalize k.scenes.values = cs
  induction cs generalizing k with
  | nil => exact h
  | cons c cs ih =>
    have hne : ∀ {r'}, ¬ gone r' → r' ≠ r := fun hr' heq => hr' (heq ▸ hr)
    have hone : Agree gone (k.onScene c fun st => st.1.unsubscribe st.2 r) k' :=
      { next := h.next
        scenes := h.scenes
        active := h.active
        subs_next := h.subs_next
        bare := fun c' => (h.bare c').trans
          (field_onScene Scene.bare rfl c').symm
        sub := fun r' hr' =>
          (h.sub r' hr').trans (Heap.get_modify_of_ne k.subs Subscription.close (hne hr')).symm
        owns := fun c' r' hr' => by
          rw [owns_onScene_unsubscribe, h.owns c' r' hr']
          simp [hne hr'] }
    exact ih hone

theorem Agree.post (h : Agree gone k k') (c : SceneRef) (patches : Dict PyStr Json)
    (cause : Option Cause) : Agree gone (k.post c patches cause) (k'.post c patches cause) := by
  have hemitted := congrArg (fun sc : Scene => sc.emitted patches cause) (h.bare c)
  refine h.onScene hemitted h.subs_next (fun r hr => ?_) fun r hr => h.owns c r hr
  have hdeliver := congrArg (fun sc : Scene => (sc.emitted patches cause).deliver patches cause)
    (h.bare c)
  change ((k'.objects.get c).emitted patches cause).deliver patches cause
    = ((k.objects.get c).emitted patches cause).deliver patches cause at hdeliver
  rw [Heap.get_modifyAll, Heap.get_modifyAll, hdeliver, h.sub r hr]
  exact if_congr (h.owns c r hr) rfl rfl

theorem Agree.attach (h : Agree gone k k') (c : SceneRef) (live : Bool) (opening : Opening) :
    Agree gone (k.attach c live opening) (k'.attach c live opening) := by
  refine h.onScene (h.bare c) (congrArg (· + 1) h.subs_next) (fun r hr => ?_) fun r hr => ?_
  · change (k'.subs.alloc { live := live, opening := opening }).get r
      = (k.subs.alloc { live := live, opening := opening }).get r
    rw [Heap.get_alloc, Heap.get_alloc, h.subs_next, h.sub r hr]
  · change r ∈ insert k'.subs.next _ ↔ r ∈ insert k.subs.next _
    rw [h.subs_next, Finset.mem_insert, Finset.mem_insert]
    exact or_congr_right (h.owns c r hr)

/-- What taking an item does to the subscription. -/
theorem subs_dequeue (k : Server) (r : SubRef) : (k.dequeue r).subs = k.subs.modify r fun sub =>
    match sub.dequeue with
    | none => sub
    | some (_, sub') => sub' := by
  rw [dequeue]
  change _ = (⟨Function.update k.subs.get r (match (k.subs.get r).dequeue with
    | none => k.subs.get r
    | some (_, sub') => sub'), k.subs.next⟩ : Subs)
  rcases (k.subs.get r).dequeue with _ | ⟨item, sub⟩
  · exact (Heap.modify_get k.subs r).symm
  · rfl

theorem dequeue_fields (k : Server) (r : SubRef) :
    (k.dequeue r).scenes = k.scenes ∧ (k.dequeue r).active = k.active := by
  rw [dequeue]
  split <;> exact ⟨rfl, rfl⟩

theorem Agree.dequeue (h : Agree gone k k') (r : SubRef) :
    Agree gone (k.dequeue r) (k'.dequeue r) where
  next := by rw [objects_dequeue, objects_dequeue, h.next]
  scenes := by rw [(dequeue_fields k r).1, (dequeue_fields k' r).1, h.scenes]
  active := by rw [(dequeue_fields k r).2, (dequeue_fields k' r).2, h.active]
  subs_next := by
    rw [subs_dequeue, subs_dequeue]
    exact h.subs_next
  bare c := by rw [objects_dequeue, objects_dequeue, h.bare]
  sub r' hr' := by
    rw [subs_dequeue, subs_dequeue]
    exact h.get_modify r _ hr'
  owns c r' hr' := by
    rw [Owns, Owns, objects_dequeue, objects_dequeue]
    exact h.owns c r' hr'

/-! ## What a session sees

A session reads the scene that serves it and its own subscription, and nothing else of the kit.
What it has written so far does not matter for what it does next. -/

theorem Agree.verdict (h : Agree gone k k') (c : SceneRef) (identity : Identity)
    (patches : List Patch) :
    (k'.objects.get c).verdict identity patches = (k.objects.get c).verdict identity patches := by
  rw [← Scene.verdict_bare, h.bare c, Scene.verdict_bare]

theorem Agree.resumeAnswer (h : Agree gone k k') (c : SceneRef) (since : Option ℤ) :
    (k'.objects.get c).resumeAnswer since = (k.objects.get c).resumeAnswer since :=
  (congrArg (fun sc : Scene => sc.resumeAnswer since) (h.bare c) :)

theorem Agree.currentSeq (h : Agree gone k k') (c : SceneRef) :
    (k'.objects.get c).currentSeq = (k.objects.get c).currentSeq :=
  (congrArg (fun sc : Scene => sc.currentSeq) (h.bare c) :)

theorem Agree.resolveScene (h : Agree gone k k') (f : Subscribe) (identity : Identity) :
    k'.resolveScene f identity = k.resolveScene f identity := by
  unfold Server.resolveScene activeScene
  rw [h.scenes, h.active]

/-- **No call of a session makes the two kits differ in more.** -/
theorem Agree.perform (h : Agree gone k k') (call : Option Call) :
    Agree gone (k.perform call) (k'.perform call) := by
  rcases call with _ | ⟨c, live, since⟩ | ⟨c, r⟩ | ⟨c, identity, patches, cause⟩ | r | r
  · exact h
  · by_cases hc : c < k.objects.next
    · rw [Server.perform, Server.perform, Call.op, step_subscribeWithResume hc,
        step_subscribeWithResume (h.next ▸ hc), h.resumeAnswer]
      exact h.attach c live _
    · have hc' : ¬ c < k'.objects.next := h.next ▸ hc
      rw [Server.perform, Server.perform, Call.op, step, step, if_neg hc, if_neg hc']
      exact h
  · rw [Server.perform, Server.perform, Call.op, step, step, h.next]
    split
    · by_cases hr : r < k.subs.next
      · rw [onScene_unsubscribe c hr, onScene_unsubscribe c (h.subs_next ▸ hr)]
        exact h.unsubscribe c r
      · rw [onScene_unsubscribe_of_not c hr, onScene_unsubscribe_of_not c (h.subs_next ▸ hr)]
        exact h
    · exact h
  · by_cases hv : (k.objects.get c).verdict identity patches = .ok none
    · have hv' := hv
      rw [← h.verdict] at hv'
      by_cases hc : c < k.objects.next
      · rw [Server.perform, Server.perform, Call.op, step_applyInput cause hc hv,
          step_applyInput cause (h.next ▸ hc) hv']
        exact h.post c _ cause
      · have hc' : ¬ c < k'.objects.next := h.next ▸ hc
        rw [Server.perform, Server.perform, Call.op, step, step, if_neg hc, if_neg hc']
        exact h
    · have hv' := hv
      rw [← h.verdict] at hv'
      rw [Server.perform, Server.perform, Call.op, step_applyInput_of_ne cause hv,
        step_applyInput_of_ne cause hv']
      exact h
  · exact h.dequeue r
  · rw [Server.perform, Server.perform, Call.op, step, step, h.subs_next]
    split
    · exact h.detach r
    · exact h

end Server

namespace Session

/-- What a session did from the phase of `s` on, added to what `s` had written. -/
def resume (s t : Session) : Session := ⟨t.phase, s.written ++ t.written⟩

/-- A session in the phase of `s` that has written nothing. -/
def blank (s : Session) : Session := ⟨s.phase, []⟩

@[simp] theorem resume_blank_goto (s : Session) (p : Phase) :
    s.resume (s.blank.goto p) = s.goto p := by
  simp [resume, blank, goto]

@[simp] theorem resume_blank_write (s : Session) (frame : Frame) (issuer : Option SceneRef)
    (p : Phase) : s.resume (s.blank.write frame issuer p) = s.write frame issuer p := by
  simp [resume, blank, write]

section Blank

variable (k : Server) (s : Session) (l : Locals) (ls : Loops)

theorem resume_readSubscribe (r : Received) :
    s.resume (s.blank.readSubscribe r) = s.readSubscribe r := by
  unfold readSubscribe
  split <;> simp [reject]

theorem resume_sendInitial (frames : List Frame) :
    s.resume (s.blank.sendInitial l frames) = s.sendInitial l frames := by
  cases frames <;> simp [sendInitial]

theorem resume_authenticate (f : Subscribe) (a : Authentication) :
    ((s.blank.authenticate k f a).1, s.resume (s.blank.authenticate k f a).2)
      = s.authenticate k f a := by
  rcases a with identity | message | _
  · rw [authenticate, authenticate]
    split
    · rw [letIn, letIn]
      rcases k.resolveScene f identity with e | ⟨code, message⟩ | c
      · simp
      · simp [reject]
      · simp [resume_sendInitial]
    · simp [reject]
  · simp [authenticate, reject]
  · simp [authenticate]

theorem resume_readerSent (ok : Bool) :
    (s.blank.readerSent l ls ok).map s.resume = s.readerSent l ls ok := by
  unfold readerSent
  split <;> simp

variable [PyRepr]

theorem resume_receive (r : Received) : ((s.blank.receive k l ls r).1,
    s.resume (s.blank.receive k l ls r).2) = s.receive k l ls r := by
  rcases r with f | message | message | message
  · rcases f with f | f | f | f | nonce | nonce | f | f | _
    case input =>
      rw [receive, receive, dispatch, dispatch, input, input, Scene.applyInput_result]
      rcases (k.objects.get l.scene).verdict l.identity f.patches with e | _ | refusal
      · simp
      · simp
      · simp [replyError]
    all_goals simp [receive, dispatch, replyError]
  · simp [receive, replyError]
  · simp [receive, replyError]
  · simp [receive]

theorem resume_loop (e : SessionEvent) :
    (s.blank.loop k l ls e).map (fun a => (a.1, s.resume a.2)) = s.loop k l ls e := by
  rcases e with ok | r | a | ok | _ | _ | ok | _ | _ <;> dsimp only [loop]
  case received =>
    split
    · rw [Option.map_some, resume_receive]
    · rfl
  case readerSent =>
    rw [← resume_readerSent s, Option.map_map, Option.map_map]
    rfl
  case dequeued =>
    split
    · rw [Option.map_map]
      rcases (k.subs.get l.sub).dequeue with _ | ⟨_ | letter, sub⟩
      · rfl
      · simp [take]
      · simp [take]
    · rfl
  case pingDue => split <;> simp
  case writerSent => split <;> simp
  case gathered => split <;> simp
  case cancelled => simp
  all_goals rfl

/-- **What a session does next does not depend on what it has written.** -/
theorem step?_blank (e : SessionEvent) :
    (s.blank.step? k e).map (fun a => (a.1, s.resume a.2)) = s.step? k e := by
  unfold step?
  have hphase : s.blank.phase = s.phase := rfl
  rw [hphase]
  rcases s.phase with _ | _ | _ | f | _ | _ | ⟨l, rest⟩ | ⟨l, ls⟩ | sub
  case running => exact resume_loop k s l ls e
  case initial =>
    dsimp only
    split <;> simp [resume_sendInitial]
  case reading =>
    dsimp only
    split <;> simp [resume_readSubscribe, reject]
  case authenticating =>
    dsimp only
    split
    · rw [Option.map_some, resume_authenticate]
    · simp
    · rfl
  case ended => rfl
  all_goals
    dsimp only
    unfold afterSend
    split <;> simp

end Blank

end Session

namespace Server

section Seeing

variable {gone : SubRef → Prop} {k k' : Server} {s : Session} {l : Locals} {ls : Loops}

theorem Agree.authenticate (h : Agree gone k k') (s : Session) (f : Subscribe)
    (a : Authentication) : s.authenticate k' f a = s.authenticate k f a := by
  rcases a with identity | message | _
  · rw [Session.authenticate, Session.authenticate, Session.letIn, Session.letIn, h.resolveScene,
      h.subs_next]
    simp only [h.resumeAnswer]
  · rfl
  · rfl

variable [PyRepr]

theorem Agree.receive (h : Agree gone k k') (r : Received) :
    s.receive k' l ls r = s.receive k l ls r := by
  have hreply : ∀ code message recoverable path reader,
      s.replyError k' l ls code message recoverable path reader
        = s.replyError k l ls code message recoverable path reader :=
    fun _ _ _ _ _ => by rw [Session.replyError, Session.replyError, h.currentSeq]
  rcases r with f | message | message | message
  · rcases f with f | f | f | f | nonce | nonce | f | f | _
    case input =>
      rw [Session.receive, Session.receive, Session.dispatch, Session.dispatch, Session.input,
        Session.input, Scene.applyInput_result, Scene.applyInput_result, h.verdict]
      simp only [hreply]
    case subscribe =>
      rw [Session.receive, Session.receive, Session.dispatch, Session.dispatch, hreply]
    all_goals rfl
  · rw [Session.receive, Session.receive, hreply]
  · rw [Session.receive, Session.receive, hreply]
  · rfl

/-- **No session tells the two kits apart**, unless its own subscription is gone. -/
theorem Agree.step? (h : Agree gone k k')
    (hs : ∀ l, s.phase.locals? = some l → ¬ gone l.sub) (e : SessionEvent) :
    s.step? k' e = s.step? k e := by
  unfold Session.step?
  rcases hphase : s.phase with _ | _ | _ | f | _ | _ | ⟨l, rest⟩ | ⟨l, ls⟩ | sub
  case running =>
    have hsub : k'.subs.get l.sub = k.subs.get l.sub := h.sub _ (hs l (by rw [hphase]; rfl))
    rcases e with ok | r | a | ok | _ | _ | ok | _ | _ <;> dsimp only [Session.loop]
    case received => rw [h.receive]
    case dequeued => rw [hsub]
  case authenticating =>
    rcases e with ok | r | a | ok | _ | _ | ok | _ | _ <;> dsimp only
    rw [h.authenticate]
  all_goals rfl

end Seeing

end Server

end Lumencast
