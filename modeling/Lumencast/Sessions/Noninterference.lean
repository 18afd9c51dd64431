import Lumencast.Sessions.Agree

/-!
# Sessions/Noninterference — leaving the refused inputs out

A run that only clients make is compared with the same run without the inputs that were answered
with an error.  The sender of such an input is held up by the answer, and may end without it where
it would still be waiting otherwise (`Lag`); nobody else can tell the two runs apart
(`shadow_withoutRefused`).
-/

namespace Lumencast

open Machinery

/-- How far a session may be behind the same session without its refused inputs. -/
inductive Lag : Phase → Phase → Prop
  | same (p : Phase) : Lag p p
  /-- One answers an input with an error, the other receives. -/
  | replying (l : Locals) (writer : Writer) (stop : Bool) :
      Lag (.running l ⟨.sendingError, writer, stop⟩) (.running l ⟨.receiving, writer, stop⟩)
  /-- Both are told to stop, and the one that answered has noticed. -/
  | stopped (l : Locals) (writer : Writer) :
      Lag (.running l ⟨.done, writer, true⟩) (.running l ⟨.receiving, writer, true⟩)
  | over (r : SubRef) (p : Phase) : Lag (.ended (some r)) p

namespace World

variable [PyRepr]

/-- The event is an input of a session in `senders` that `apply_input` answers with an error. -/
def refuses (senders : ℕ → Bool) (w : World) : ClientEvent → Bool
  | .session i (.received (.frame (.input f))) =>
      match (w.sessions.get i).phase with
      | .running l ls => senders i && ls.reader == .receiving &&
          match ((w.kit.objects.get l.scene).applyInput w.kit.subs l.identity f.patches
            (causeOf l.identity f.clientMsgId)).map (·.1) with
          | .ok (some _) => true
          | _ => false
      | _ => false
  | _ => false

/-- The event happens: the session awaits it. -/
def happens (w : World) : ClientEvent → Bool
  | .connect _ => true
  | .session i e => ((w.sessions.get i).step? w.kit e).isSome

/-- The events of a run that happen, the refused inputs of `senders` left out. -/
def withoutRefused (senders : ℕ → Bool) : World → List ClientEvent → List ClientEvent :=
  kept serve fun w e => w.happens e && !w.refuses senders e

/-- The subscriptions of senders that are over. -/
def gone (senders : ℕ → Bool) (w : World) (r : SubRef) : Prop :=
  ∃ i, senders i = true ∧ (w.sessions.get i).phase = .ended (some r)

/-- `w'` is what `w` would be without the refused inputs of `senders`. -/
structure Shadow (senders : ℕ → Bool) (w w' : World) : Prop where
  kit : Server.Agree (w.gone senders) w.kit w'.kit
  next : w'.sessions.next = w.sessions.next
  others : ∀ i, senders i = false → w'.sessions.get i = w.sessions.get i
  lag : ∀ i, senders i = true → Lag (w.sessions.get i).phase (w'.sessions.get i).phase

end World

namespace Session

variable [PyRepr] {gone : SubRef → Prop} {k k' : Server} {s s' : Session}

/-- A session in the same phase does the same next. -/
theorem step?_of_phase (h : Server.Agree gone k k') (hphase : s'.phase = s.phase)
    (hs : ∀ l, s.phase.locals? = some l → ¬ gone l.sub) {e : SessionEvent} {call : Option Call}
    {t : Session} (hstep : s.step? k e = some (call, t)) :
    ∃ t', s'.step? k' e = some (call, t') ∧ t'.phase = t.phase := by
  have hblank : s'.blank = s.blank := by rw [blank, blank, hphase]
  rw [← step?_blank] at hstep
  obtain ⟨⟨call', t₀⟩, ht₀, heq⟩ := Option.map_eq_some_iff.mp hstep
  rw [Prod.mk.injEq] at heq
  obtain ⟨rfl, rfl⟩ := heq
  refine ⟨s'.resume t₀, ?_, rfl⟩
  rw [← step?_blank, hblank, h.step? (s := s.blank) hs, ht₀]
  rfl

/-- **What the writer does has nothing to do with where the reader is.** -/
theorem loop_writer {l : Locals} {reader reader' : Reader} {writer : Writer} {stop : Bool}
    (hsub : k'.subs.get l.sub = k.subs.get l.sub) {e : SessionEvent} {call : Option Call}
    {t : Session} (he : e = .dequeued ∨ e = .pingDue ∨ ∃ ok, e = .writerSent ok)
    (hstep : s.loop k l ⟨reader, writer, stop⟩ e = some (call, t)) :
    ∃ t' writer₁ stop₁, s'.loop k' l ⟨reader', writer, stop⟩ e = some (call, t') ∧
      t.phase = .running l ⟨reader, writer₁, stop₁⟩ ∧
      t'.phase = .running l ⟨reader', writer₁, stop₁⟩ ∧ (stop = true → stop₁ = true) := by
  rcases he with rfl | rfl | ⟨ok, rfl⟩ <;> dsimp only [loop] at hstep ⊢
  · by_cases hw : writer = .getting
    · rw [if_pos hw] at hstep ⊢
      obtain ⟨⟨item, sub⟩, hget, heq⟩ := Option.map_eq_some_iff.mp hstep
      cases heq
      rw [hsub, hget]
      rcases item with _ | letter
      · exact ⟨_, _, _, rfl, rfl, rfl, fun _ => rfl⟩
      · exact ⟨_, _, _, rfl, rfl, rfl, id⟩
    · rw [if_neg hw] at hstep
      cases hstep
  · by_cases hw : writer = .getting
    · rw [if_pos hw] at hstep ⊢
      cases hstep
      exact ⟨_, _, _, rfl, rfl, rfl, id⟩
    · rw [if_neg hw] at hstep
      cases hstep
  · by_cases hw : writer = .sending
    · rw [if_pos hw] at hstep ⊢
      cases hstep
      rcases ok with _ | _
      · exact ⟨_, _, _, rfl, rfl, rfl, fun _ => rfl⟩
      · exact ⟨_, _, _, rfl, rfl, rfl, id⟩
    · rw [if_neg hw] at hstep
      cases hstep

/-- What `s'` does while `s` makes `call` and goes on as `t`: the same call, or nothing at all if
`s` at most lets its client go. -/
def Follows (k' : Server) (s' : Session) (e : SessionEvent) (call : Option Call) (t : Session) :
    Prop :=
  (∃ t', s'.step? k' e = some (call, t') ∧ Lag t.phase t'.phase) ∨
  (s'.step? k' e = none ∧ Lag t.phase s'.phase ∧
    (call = none ∨ ∃ r, call = some (.detach r) ∧ t.phase = .ended (some r)))

section Lagging

variable {l : Locals} {writer : Writer} {stop : Bool} {e : SessionEvent} {call : Option Call}
  {t : Session}

/-- While its reply is on its way, the writer and the end of a session are what they would be. -/
theorem follows_of_replying (hsub : k'.subs.get l.sub = k.subs.get l.sub)
    (hp : s.phase = .running l ⟨.sendingError, writer, stop⟩)
    (hp' : s'.phase = .running l ⟨.receiving, writer, stop⟩)
    (hstep : s.step? k e = some (call, t)) : Follows k' s' e call t := by
  unfold Follows
  rw [hp']
  unfold step? at hstep ⊢
  rw [hp] at hstep
  rw [hp']
  dsimp only at hstep ⊢
  rcases e with ok | r | a | ok | _ | _ | ok | _ | _
  case readerSent =>
    cases hstep
    refine Or.inr ⟨rfl, ?_, Or.inl rfl⟩
    rcases stop with _ | _
    · exact .same _
    · exact .stopped l writer
  case cancelled =>
    cases hstep
    exact Or.inl ⟨_, rfl, .same _⟩
  case dequeued | pingDue | writerSent =>
    obtain ⟨t', writer₁, stop₁, ht', hphase, hphase', -⟩ :=
      @loop_writer _ k k' s s' l _ .receiving _ _ hsub _ _ _ (by simp) hstep
    refine Or.inl ⟨t', ht', ?_⟩
    rw [hphase, hphase']
    exact .replying l writer₁ stop₁
  all_goals cases hstep

/-- When it is told to stop, only the reader is still to notice. -/
theorem follows_of_stopped (hsub : k'.subs.get l.sub = k.subs.get l.sub)
    (hp : s.phase = .running l ⟨.done, writer, true⟩)
    (hp' : s'.phase = .running l ⟨.receiving, writer, true⟩)
    (hstep : s.step? k e = some (call, t)) : Follows k' s' e call t := by
  unfold Follows
  rw [hp']
  unfold step? at hstep ⊢
  rw [hp] at hstep
  rw [hp']
  dsimp only at hstep ⊢
  rcases e with ok | r | a | ok | _ | _ | ok | _ | _
  case gathered =>
    dsimp only [loop] at hstep ⊢
    split at hstep
    · cases hstep
      exact Or.inr ⟨rfl, .over _ _, Or.inr ⟨_, rfl, rfl⟩⟩
    · cases hstep
  case cancelled =>
    cases hstep
    exact Or.inl ⟨_, rfl, .same _⟩
  case dequeued | pingDue | writerSent =>
    obtain ⟨t', writer₁, stop₁, ht', hphase, hphase', hstop⟩ :=
      @loop_writer _ k k' s s' l _ .receiving _ _ hsub _ _ _ (by simp) hstep
    refine Or.inl ⟨t', ht', ?_⟩
    rw [hphase, hphase', hstop rfl]
    exact .stopped l writer₁
  all_goals cases hstep

/-- **A session that lags behind catches up, or stays behind.** -/
theorem follows_of_lag (h : Server.Agree gone k k') (hlag : Lag s.phase s'.phase)
    (hs : ∀ l, s.phase.locals? = some l → ¬ gone l.sub) (hstep : s.step? k e = some (call, t)) :
    Follows k' s' e call t := by
  generalize hp : s.phase = p at hlag
  generalize hp' : s'.phase = p' at hlag
  have hsub : ∀ {l}, p.locals? = some l → k'.subs.get l.sub = k.subs.get l.sub := fun hl =>
    h.sub _ (hs _ (hp ▸ hl))
  rcases hlag with _ | ⟨l, writer, stop⟩ | ⟨l, writer⟩ | ⟨r, p'⟩
  · obtain ⟨t', ht', hphase⟩ := step?_of_phase h (hp'.trans hp.symm) hs hstep
    exact Or.inl ⟨t', ht', hphase ▸ .same _⟩
  · exact follows_of_replying (hsub rfl) hp hp' hstep
  · exact follows_of_stopped (hsub rfl) hp hp' hstep
  · rw [step?_ended hp] at hstep
    cases hstep

end Lagging

end Session

namespace World

variable {senders : ℕ → Bool} {w w' : World}

theorem Shadow.refl (senders : ℕ → Bool) (w : World) : Shadow senders w w :=
  ⟨.refl _ _, rfl, fun _ _ => rfl, fun _ _ => .same _⟩

/-- The subscription of a session that still runs is not gone. -/
theorem not_gone (hwf : w.Wf) {i : ℕ} {l : Locals}
    (hl : (w.sessions.get i).phase.locals? = some l) : ¬ w.gone senders l.sub := by
  rintro ⟨j, -, hj⟩
  have hij : i = j := hwf.sub_inj i j l.sub (Phase.sub?_of_locals? hl) (by rw [hj]; rfl)
  rw [hij, hj] at hl
  cases hl

/-- Both worlds after their sessions `i` went on. -/
theorem Shadow.modify (h : Shadow senders w w') {k k' : Server} {i : ℕ} {s s' : Session}
    (hkit : Server.Agree
      (gone senders { kit := k, sessions := w.sessions.modify i fun _ => s }) k k')
    (hothers : senders i = false → s' = s) (hlag : senders i = true → Lag s.phase s'.phase) :
    Shadow senders { kit := k, sessions := w.sessions.modify i fun _ => s }
      { kit := k', sessions := w'.sessions.modify i fun _ => s' } where
  kit := hkit
  next := h.next
  others j hj := by
    rw [Heap.get_modify, Heap.get_modify]
    split
    · rename_i hji
      exact hothers (hji ▸ hj)
    · exact h.others j hj
  lag j hj := by
    rw [Heap.get_modify, Heap.get_modify]
    split
    · rename_i hji
      exact hlag (hji ▸ hj)
    · exact h.lag j hj

/-- Both worlds after the session `i` of the first went on. -/
theorem Shadow.modify_left (h : Shadow senders w w') {k : Server} {i : ℕ} {s : Session}
    (hkit : Server.Agree
      (gone senders { kit := k, sessions := w.sessions.modify i fun _ => s }) k w'.kit)
    (hothers : senders i = false → w'.sessions.get i = s)
    (hlag : senders i = true → Lag s.phase (w'.sessions.get i).phase) :
    Shadow senders { kit := k, sessions := w.sessions.modify i fun _ => s } w' := by
  have hboth := h.modify hkit hothers hlag
  rwa [Heap.modify_get] at hboth

variable [PyRepr]

theorem serve_session {i : ℕ} {e : SessionEvent} {call : Option Call} {s : Session}
    (hstep : (w.sessions.get i).step? w.kit e = some (call, s)) : w.serve (.session i e)
      = { kit := w.kit.perform call, sessions := w.sessions.modify i fun _ => s } :=
  step_session hstep

theorem serve_session_of_none {i : ℕ} {e : SessionEvent}
    (hstep : (w.sessions.get i).step? w.kit e = none) : w.serve (.session i e) = w :=
  step_session_of_none hstep

theorem get_serve_connect (w : World) (requested : List PyStr) (i : ℕ) :
    (w.serve (.connect requested)).sessions.get i
      = if i = w.sessions.next then .connecting requested else w.sessions.get i :=
  Heap.get_alloc ..

/-- Who is gone stays gone. -/
theorem gone_serve {i : ℕ} {e : SessionEvent} {call : Option Call} {s : Session}
    (hstep : (w.sessions.get i).step? w.kit e = some (call, s)) {r : SubRef}
    (hr : w.gone senders r) : (w.serve (.session i e)).gone senders r := by
  obtain ⟨j, hj, hphase⟩ := hr
  have hne : j ≠ i := by
    rintro rfl
    rw [Session.step?_ended hphase] at hstep
    cases hstep
  refine ⟨j, hj, ?_⟩
  rw [serve_session hstep, Heap.get_modify_of_ne _ _ hne]
  exact hphase

/-- A client connects on both sides. -/
theorem Shadow.connect (h : Shadow senders w w') (hwf : w.Wf) (requested : List PyStr) :
    Shadow senders (w.serve (.connect requested)) (w'.serve (.connect requested)) := by
  have hgone : ∀ r, w.gone senders r → (w.serve (.connect requested)).gone senders r := by
    rintro r ⟨i, hi, hphase⟩
    have hne : i ≠ w.sessions.next := by
      rintro rfl
      rw [hwf.blank _ le_rfl] at hphase
      cases hphase
    exact ⟨i, hi, by rw [get_serve_connect, if_neg hne]; exact hphase⟩
  refine ⟨h.kit.mono hgone, congrArg (· + 1) h.next, fun i hi => ?_, fun i hi => ?_⟩
  · rw [get_serve_connect, get_serve_connect, h.next, h.others i hi]
  · rw [get_serve_connect, get_serve_connect, h.next]
    split
    · exact .same _
    · exact h.lag i hi

/-- **A session wakes up on both sides**, or only the one held up by its replies does. -/
theorem Shadow.session (h : Shadow senders w w') (hwf : w.Wf) {i : ℕ} {e : SessionEvent}
    (hhappens : w.happens (.session i e) = true) :
    Shadow senders (w.serve (.session i e)) (w'.serve (.session i e)) := by
  obtain ⟨⟨call, s⟩, hstep⟩ := Option.isSome_iff_exists.mp hhappens
  have hagree : Server.Agree ((w.serve (.session i e)).gone senders) w.kit w'.kit :=
    h.kit.mono fun r hr => gone_serve hstep hr
  have hnotGone : ∀ l, (w.sessions.get i).phase.locals? = some l → ¬ w.gone senders l.sub :=
    fun l hl => not_gone hwf hl
  rw [serve_session hstep] at hagree ⊢
  rcases hi : senders i with _ | _
  · have hstep' : (w'.sessions.get i).step? w'.kit e = some (call, s) := by
      rw [h.others i hi, h.kit.step? hnotGone, hstep]
    rw [serve_session hstep']
    exact h.modify (hagree.perform call) (fun _ => rfl) fun _ => .same _
  · have hsender : ¬ senders i = false := by rw [hi]; decide
    rcases Session.follows_of_lag h.kit (h.lag i hi) hnotGone hstep with ⟨s', hstep', hlag⟩ |
      ⟨hnone, hlag, hcall⟩
    · rw [serve_session hstep']
      exact h.modify (hagree.perform call) (fun hno => absurd hno hsender) fun _ => hlag
    · rw [serve_session_of_none hnone]
      refine h.modify_left ?_ (fun hno => absurd hno hsender) fun _ => hlag
      · rcases hcall with rfl | ⟨r, rfl, hended⟩
        · exact hagree
        · rw [Server.perform, Call.op, Server.step]
          split
          · refine hagree.detach_left ⟨i, hi, ?_⟩
            rw [Heap.get_modify_self]
            exact hended
          · exact hagree

/-- The stretch in which an input is refused. -/
theorem step?_refused {i : ℕ} {l : Locals} {ls : Loops} {f : Input} {refusal : Refusal}
    (hphase : (w.sessions.get i).phase = .running l ls) (hreader : ls.reader = .receiving)
    (hv : (w.kit.objects.get l.scene).verdict l.identity f.patches = .ok (some refusal)) :
    (w.sessions.get i).step? w.kit (.received (.frame (.input f)))
      = some (some (.applyInput l.scene l.identity f.patches (causeOf l.identity f.clientMsgId)),
          (w.sessions.get i).replyError w.kit l ls refusal.code refusal.message
            (refusal.code != .authDenied) refusal.path .sendingError) := by
  unfold Session.step?
  rw [hphase]
  dsimp only
  rw [Session.loop, if_pos hreader, Session.receive, Session.dispatch, Session.input,
    Scene.applyInput_result, hv]

/-- **A refused input changes nothing but its sender**, who is held up by the reply. -/
theorem Shadow.refused (h : Shadow senders w w') {e : ClientEvent}
    (hrefuses : w.refuses senders e = true) : Shadow senders (w.serve e) w' := by
  unfold refuses at hrefuses
  split at hrefuses
  · rename_i i f
    split at hrefuses
    · rename_i l ls hphase
      rw [Bool.and_eq_true, Bool.and_eq_true, beq_iff_eq, Scene.applyInput_result] at hrefuses
      obtain ⟨⟨hi, hreader⟩, hresult⟩ := hrefuses
      split at hresult
      · rename_i refusal hv
        have hstep := step?_refused hphase hreader hv
        have hgone := fun r (hr : w.gone senders r) => gone_serve hstep hr
        have hkit : w.kit.perform (some (.applyInput l.scene l.identity f.patches
            (causeOf l.identity f.clientMsgId))) = w.kit :=
          Server.step_applyInput_of_ne _ (by rw [hv]; nofun)
        rw [serve_session hstep, hkit] at hgone ⊢
        refine h.modify_left (h.kit.mono hgone) (fun hno => absurd hno (by rw [hi]; decide))
          fun _ => ?_
        have hlag := h.lag i hi
        rw [hphase] at hlag
        obtain ⟨reader, writer, stop⟩ := ls
        obtain rfl : reader = .receiving := hreader
        generalize (w'.sessions.get i).phase = p at hlag ⊢
        rcases hlag with _ | _
        exact .replying l writer stop
      · cases hresult
    · cases hrefuses
  · cases hrefuses

/-- **What is left out cannot be told**: with the refused inputs of `senders` left out, a run ends
in the same world, up to those senders. -/
theorem shadow_withoutRefused (senders : ℕ → Bool) {start : World} (hwf : start.Wf)
    (es : List ClientEvent) :
    Shadow senders (run serve start es) (run serve start (withoutRefused senders start es)) := by
  refine run_kept (I := Wf) wf_serve (fun w w' e hwf h hkeep => ?_) (fun w w' e hwf h hdrop => ?_)
    es hwf (.refl senders start)
  · rw [Bool.and_eq_true] at hkeep
    rcases e with requested | ⟨i, e⟩
    · exact h.connect hwf requested
    · exact h.session hwf hkeep.1
  · rw [Bool.and_eq_false_iff, Bool.not_eq_false'] at hdrop
    rcases hdrop with hno | hrefuses
    · rcases e with requested | ⟨i, e⟩
      · cases hno
      · have hnone : (w.sessions.get i).step? w.kit e = none := Option.not_isSome_iff_eq_none.mp
          (Bool.not_eq_true _ ▸ hno)
        rw [serve_session_of_none hnone]
        exact h
    · exact h.refused hrefuses

/-! ## What clients can do -/

/-- **Clients influence nothing they are not entitled to.**  On a kit that was set up and left
alone: keys outside the two input namespaces never change; a key changes only by an accepted input
of a session that may write it; leaving out the inputs that are answered with an error changes no
store, no counter, no ring, and neither the frames nor the queue of any session but their senders';
and no session is sent state before an authenticator has let it in with a role. -/
theorem clients_entitled (setup : List Op) :
    let start : World := { kit := Server.after setup }
    (∀ es c key, hasPrefix key "__inputs" = false → hasPrefix key "__test" = false →
      ((run serve start es).kit.objects.get c).store.state.get? key
        = (start.kit.objects.get c).store.state.get? key) ∧
    (∀ es, Steps serve OnlyInputs start es) ∧
    (∀ senders es,
      let w := run serve start es
      let w' := run serve start (withoutRefused senders start es)
      (∀ c, (w'.kit.objects.get c).store = (w.kit.objects.get c).store ∧
        (w'.kit.objects.get c).seq = (w.kit.objects.get c).seq ∧
        (w'.kit.objects.get c).replay = (w.kit.objects.get c).replay) ∧
      ∀ i, senders i = false → w'.sessions.get i = w.sessions.get i ∧
        ∀ r, (w.sessions.get i).phase.sub? = some r → w'.kit.subs.get r = w.kit.subs.get r) ∧
    ∀ es i x, x ∈ ((run serve start es).sessions.get i).written → x.frame.carriesState = true →
      Admitted start es i := by
  intro start
  have hwf : start.Wf := wf_start (Server.wf_after setup)
  refine ⟨fun es c key hinputs htest => get?_run_of_outside hwf es hinputs htest c,
    fun es pre e post _ => onlyInputs_serve (run_invariant hwf wf_serve pre) e,
    fun senders es => ?_,
    fun es i x hx hstate => admitted_of_served i es (Or.inr ⟨x, hx, hstate⟩)⟩
  have hshadow := shadow_withoutRefused senders hwf es
  have hend : (run serve start es).Wf := run_invariant hwf wf_serve es
  refine ⟨fun c => ?_, fun i hi => ⟨hshadow.others i hi, fun r hr => ?_⟩⟩
  · have hbare := hshadow.kit.bare c
    exact ⟨(congrArg (fun sc : Scene => sc.store) hbare :),
      (congrArg (fun sc : Scene => sc.seq) hbare :),
      (congrArg (fun sc : Scene => sc.replay) hbare :)⟩
  · refine hshadow.kit.sub r ?_
    rintro ⟨j, hj, hended⟩
    have hij : i = j := hend.sub_inj i j r hr (by rw [hended]; rfl)
    rw [hij, hj] at hi
    cases hi

/-- One scene, and no client yet. -/
def oneScene : World := { kit := Server.after [.newScene "a" "v1" [] true] }

/-- Two viewers are attached, and the second one sends an input. -/
def viewersRun : List ClientEvent :=
  let attach (i : ℕ) : List ClientEvent :=
    [.connect ["lsdp.v1"], .session i (.sent true),
      .session i (.received (.frame (.subscribe { token := .str "t" }))),
      .session i (.authenticated (.identity { role := some .viewer })), .session i (.sent true)]
  attach 0 ++ attach 1 ++
    [.session 1 (.received (.frame (.input { patches := [⟨"__inputs.x", .int 1, none⟩] })))]

end World

namespace World

/-- The guarantees at `viewersRun`: the second viewer's input is refused, and without it the first
viewer has the same session and the same queue. -/
theorem clients_entitled_viewersRun :
    let w := run (@serve .plain) oneScene viewersRun
    let w' := run (@serve .plain) oneScene (@withoutRefused .plain (· == 1) oneScene viewersRun)
    (@withoutRefused .plain (· == 1) oneScene viewersRun).length + 1 = viewersRun.length ∧
      (w.kit.objects.get 0).store.state.get? "x"
        = (oneScene.kit.objects.get 0).store.state.get? "x" ∧
      Steps (@serve .plain) (@OnlyInputs .plain) oneScene viewersRun ∧
      (w'.kit.objects.get 0).store = (w.kit.objects.get 0).store ∧
      w'.sessions.get 0 = w.sessions.get 0 ∧ w'.kit.subs.get 0 = w.kit.subs.get 0 ∧
      @Admitted .plain oneScene viewersRun 0 := by
  intro w w'
  obtain ⟨hkeys, honly, hrefused, hstate⟩ :=
    @clients_entitled .plain [.newScene "a" "v1" [] true]
  obtain ⟨hscenes, hothers⟩ := hrefused (· == 1) viewersRun
  have hsent : ⟨.snapshot { sceneId := .str "a", sceneVersion := .str "v1", seq := 1 }, some 0⟩
      ∈ (w.sessions.get 0).written := List.mem_singleton.mpr rfl
  refine ⟨by decide, hkeys viewersRun 0 "x" (by decide) (by decide), honly viewersRun,
    (hscenes 0).1, (hothers 0 rfl).1, (hothers 0 rfl).2 0 rfl, hstate viewersRun 0 _ hsent rfl⟩

end World

end Lumencast
