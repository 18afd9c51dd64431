import Lumencast.Sessions.Ending
import Lumencast.Sessions.Speech

/-!
# Sessions/Epochs — a reset cuts a world in two

Between two scenarios the kit is reset and built anew, while sessions of the first may still be
there.  A session stays within any set of scenes that switches respect (`within_step`): what it is
served from, what waits for it and what it was sent.  A reset makes two such sets, the scenes before
it and those after it, so no session of one side hears of a scene of the other, or changes one
(`cut_by_reset`).
-/

namespace Lumencast

open Machinery

namespace Server

/-- Switches do not lead out of `P`. -/
def Closed (P : SceneRef → Prop) (k : Server) : Prop :=
  ∀ prev next, k.Registered prev → k.Registered next → P prev → P next

variable {P : SceneRef → Prop} {k : Server} {r : SubRef}

/-- Whoever serves a subscription after a step, if it did not just come to be. -/
theorem owner_step (hclosed : k.Closed P) (hr : r < k.subs.next) (hP : ∀ c, k.Owns c r → P c)
    (op : Op) : ∀ c, (k.step op).Owns c r → P c := by
  intro c ho
  have hdid := did k op
  generalize k.act op = a at hdid
  generalize k.step op = k' at hdid ho
  rcases hdid with h | ⟨live, opening, -, -⟩ | ⟨cause, -, -⟩ | ⟨-, -⟩ |
    @⟨prev, next, active, hprev, hnext, hne, hsome⟩
  · exact hP c (h.owns c r ho)
  · rcases (owns_attach ..).mp ho with ⟨-, hfresh⟩ | hold
    · exact absurd hfresh hr.ne
    · exact hP c hold
  · exact hP c ((owns_post ..).mp ho)
  · exact hP c ((owns_seed ..).mp ho)
  · rcases (owns_move active hsome hne c r).mp ho with ⟨rfl, hmoves⟩ | ⟨hold, -⟩
    · exact hclosed prev c hprev hnext (hP prev hmoves.1)
    · exact hP c hold

/-- A switch that migrates is one between registered scenes. -/
theorem registered_of_act_move {op : Op} {prev next : SceneRef} (h : k.act op = .move prev next) :
    k.Registered prev ∧ k.Registered next := by
  have hdid := did k op
  rw [h] at hdid
  generalize k.step op = k' at hdid
  cases hdid with
  | move _ hprev hnext _ _ => exact ⟨hprev, hnext⟩

/-- What is registered after a step was, or is new. -/
theorem registered_of_step (op : Op) {c : SceneRef} (h : (k.step op).Registered c) :
    k.Registered c ∨ k.objects.next ≤ c := by
  have hdid := did k op
  generalize k.act op = a at hdid
  generalize k.step op = k' at hdid h
  rcases hdid with hquiet | ⟨live, opening, -, -⟩ | ⟨cause, -, -⟩ | ⟨-, -⟩ | ⟨active, -, -, -, -⟩
  · exact hquiet.registered c h
  all_goals exact Or.inl h

/-- Whatever waits for a subscription after a step was issued within `P`. -/
theorem issuer_step (hclosed : k.Closed P) (hwf : k.Wf) (hP : ∀ c, k.Owns c r → P c)
    (hqueued : ∀ letter, some letter ∈ (k.subs.get r).queue.items → P letter.issuer) (op : Op) :
    ∀ letter, some letter ∈ ((k.step op).subs.get r).queue.items → P letter.issuer := by
  have href : ∀ {c}, k.Owns c r → (k.objects.get c).ref = c := fun ho =>
    hwf.ref_eq _ (hwf.owner_lt _ r ho)
  intro letter hmem
  replace hmem := mem_queue_step hmem
  rcases hact : k.act op with _ | _ | ⟨c, patches, cause⟩ | ⟨c, patches⟩ | ⟨prev, next⟩ <;>
    rw [hact] at hmem
  case post =>
    rw [handed] at hmem
    split at hmem
    · rename_i ho
      rcases mem_queue_deliver hmem with hold | rfl
      · exact hqueued letter hold
      · change P (k.objects.get c).ref
        rw [href ho]
        exact hP c ho
    · exact hqueued letter hmem
  case seed =>
    rw [handed] at hmem
    split at hmem
    · rename_i ho
      rcases mem_queue_sendOrDrop hmem with hold | rfl
      · exact hqueued letter hold
      · change P (k.objects.get c).ref
        rw [href ho]
        exact hP c ho
    · exact hqueued letter hmem
  case move =>
    obtain ⟨hprev, hnext⟩ := registered_of_act_move hact
    rw [handed] at hmem
    split at hmem
    · rename_i hmoves
      have hPprev := hP prev hmoves.1
      rcases mem_queue_sendOrDrop hmem with hold | rfl
      · rcases mem_queue_sendOrDrop hold with hold | rfl
        · exact hqueued letter hold
        · change P (k.objects.get prev).ref
          rw [href hmoves.1]
          exact hPprev
      · change P (k.objects.get next).ref
        rw [hwf.ref_eq next (hwf.registered_lt next hnext)]
        exact hclosed prev next hprev hnext hPprev
    · exact hqueued letter hmem
  all_goals exact hqueued letter hmem

/-- Detaching leaves a scene alone that does not serve the subscription. -/
theorem scene_detach_of_not {c : SceneRef} (h : ¬ k.Owns c r) :
    (k.detach r).objects.get c = k.objects.get c := by
  have hloop : ∀ (cs : List SceneRef) (k : Server), ¬ k.Owns c r →
      (cs.foldl (fun k c => k.onScene c fun st => st.1.unsubscribe st.2 r) k).objects.get c
        = k.objects.get c := by
    intro cs
    induction cs with
    | nil => exact fun _ _ => rfl
    | cons c' cs ih =>
      intro k hk
      have hsame : (k.onScene c' fun st => st.1.unsubscribe st.2 r).objects.get c
          = k.objects.get c := by
        rw [get_onScene]
        split
        · rename_i hc
          subst hc
          rw [Scene.unsubscribe, Finset.erase_eq_of_notMem hk]
        · rfl
      rw [List.foldl_cons, ih _ (by rwa [Owns, hsame]), hsame]
  exact hloop k.scenes.values k h

end Server

namespace Session

/-- All that a session is served from, that waits for it and that it was sent is within `P`. -/
structure Within (P : SceneRef → Prop) (k : Server) (s : Session) : Prop where
  scene : ∀ l, s.phase.locals? = some l → P l.scene
  owner : ∀ r, s.phase.sub? = some r → ∀ c, k.Owns c r → P c
  queued : ∀ r, s.phase.sub? = some r →
    ∀ letter, some letter ∈ (k.subs.get r).queue.items → P letter.issuer
  written : ∀ x ∈ s.written, ∀ c, x.issuer = some c → P c

theorem Within.mono {P Q : SceneRef → Prop} {k : Server} {s : Session} (h : s.Within P k)
    (hPQ : ∀ c, P c → Q c) : s.Within Q k where
  scene l hl := hPQ _ (h.scene l hl)
  owner r hr c ho := hPQ c (h.owner r hr c ho)
  queued r hr letter hletter := hPQ _ (h.queued r hr letter hletter)
  written x hx c hc := hPQ c (h.written x hx c hc)

variable {P : SceneRef → Prop} {k : Server} {s s' : Session}

/-- What is done to the kit leaves a session within a closed set. -/
theorem Within.step_kit (h : s.Within P k) (hclosed : k.Closed P) (hwf : k.Wf)
    (hlt : ∀ r, s.phase.sub? = some r → r < k.subs.next) (op : Op) : s.Within P (k.step op) where
  scene := h.scene
  owner r hr := Server.owner_step hclosed (hlt r hr) (h.owner r hr) op
  queued r hr := Server.issuer_step hclosed hwf (h.owner r hr) (h.queued r hr) op
  written := h.written

/-- Every frame that is new was issued by the scene the client is attached to, or comes out of its
queue, or bears no number of a scene. -/
def Issues (k : Server) (s s' : Session) : Prop :=
  ∀ x ∈ s'.written, x ∈ s.written ∨ ∀ c, x.issuer = some c →
    (∃ l, s'.phase.locals? = some l ∧ l.scene = c) ∨
    ∃ l letter, s.phase.locals? = some l ∧ some letter ∈ (k.subs.get l.sub).queue.items ∧
      letter.issuer = c

theorem issues_goto (p : Phase) : Issues k s (s.goto p) := fun _ hx => Or.inl hx

/-- A reply is nobody's. -/
theorem issues_write (frame : Frame) (p : Phase) : Issues k s (s.write frame none p) := by
  intro x hx
  rcases List.mem_append.mp hx with hx | hx
  · exact Or.inl hx
  · refine Or.inr fun c hc => ?_
    rw [List.mem_singleton.mp hx] at hc
    cases hc

theorem issues_sendInitial (l : Locals) (frames : List Frame) :
    Issues k s (s.sendInitial l frames) := by
  rcases frames with _ | ⟨f, rest⟩
  · exact issues_goto _
  · intro x hx
    rcases List.mem_append.mp hx with hx | hx
    · exact Or.inl hx
    · refine Or.inr fun c hc => Or.inl ⟨l, rfl, ?_⟩
      rw [List.mem_singleton.mp hx] at hc
      exact Option.some.inj hc

theorem issues_take {l : Locals} {ls : Loops} (hphase : s.phase = .running l ls)
    {item : Option Letter} {sub : Subscription}
    (hget : (k.subs.get l.sub).dequeue = some (item, sub)) : Issues k s (s.take l ls item) := by
  rcases item with _ | letter
  · exact issues_goto _
  · intro x hx
    rcases List.mem_append.mp hx with hx | hx
    · exact Or.inl hx
    · refine Or.inr fun c hc => Or.inr ⟨l, letter, by rw [hphase]; rfl, ?_, ?_⟩
      · obtain ⟨⟨a, q⟩, hq, heq⟩ := Option.map_eq_some_iff.mp hget
        cases heq
        rw [(BoundedQueue.items_of_getNowait hq).1]
        exact List.mem_cons_self
      · rw [List.mem_singleton.mp hx] at hc
        exact Option.some.inj hc

theorem issues_readSubscribe (r : Received) : Issues k s (s.readSubscribe r) := by
  unfold readSubscribe
  split
  · exact issues_goto _
  · exact issues_write _ _
  · exact issues_goto _
  · exact issues_write _ _
  · exact issues_write _ _

variable [PyRepr]

theorem issues_receive (l : Locals) (ls : Loops) (r : Received) :
    Issues k s (s.receive k l ls r).2 := by
  rcases r with f | message | message | message
  · rcases f with f | f | f | f | nonce | nonce | f | f | _
    case input =>
      change Issues k s (s.input k l ls f).2
      rw [input]
      split
      · exact issues_goto _
      · exact issues_goto _
      · exact issues_write _ _
    case ping => exact issues_write _ _
    case subscribe => exact issues_write _ _
    all_goals exact issues_goto _
  · exact issues_write _ _
  · exact issues_write _ _
  · exact issues_goto _

theorem issues_looped {l : Locals} {ls : Loops} (hphase : s.phase = .running l ls)
    {e : SessionEvent} {call : Option Call} (h : Looped k s l ls e call s') : Issues k s s' := by
  rcases h with @⟨hreader, r⟩ | hsent | ⟨hwriter, hget⟩ | _ | _ | _ | _
  case received => exact issues_receive l ls r
  case readerSent =>
    obtain ⟨ls', rfl, -⟩ := readerSent_eq_some hsent
    exact issues_goto _
  case dequeued => exact issues_take hphase hget
  case pingDue => exact issues_write _ _
  all_goals exact issues_goto _

/-- **Where a frame that is written comes from.** -/
theorem issues_step? {e : SessionEvent} {call : Option Call} (h : s.step? k e = some (call, s')) :
    Issues k s s' := by
  rcases stepped h with _ | _ | ⟨-, r⟩ | _ | ⟨-, hanswered⟩ | _ | _ | _ | _ | ⟨hphase, hlooped⟩
  case read => exact issues_readSubscribe r
  case readCancelled => exact issues_write _ _
  case answered =>
    rcases hanswered with _ | _ | _
    · exact issues_sendInitial _ _
    · exact issues_write _ _
    · exact issues_goto _
  case initialSent => exact issues_sendInitial _ _
  case running => exact issues_looped hphase hlooped
  all_goals exact issues_goto _

/-- A stretch of an attached session leaves it within a closed set. -/
theorem Within.stretch (h : s.Within P k) (hclosed : k.Closed P) (hwf : k.Wf)
    (hlt : ∀ r, s.phase.sub? = some r → r < k.subs.next) {e : SessionEvent} {call : Option Call}
    (hstep : s.step? k e = some (call, s')) (hsub : s'.phase.sub? = s.phase.sub?)
    (hlocals : ∀ l, s'.phase.locals? = some l → s.phase.locals? = some l) :
    s'.Within P (k.perform call) := by
  have hkept : s.Within P (k.perform call) := by
    rcases call with _ | call
    · exact h
    · exact h.step_kit hclosed hwf hlt call.op
  refine ⟨fun l hl => h.scene l (hlocals l hl), fun r hr => hkept.owner r (hsub ▸ hr),
    fun r hr => hkept.queued r (hsub ▸ hr), fun x hx c hc => ?_⟩
  rcases issues_step? hstep x hx with hold | hnew
  · exact h.written x hold c hc
  · rcases hnew c hc with ⟨l, hl, rfl⟩ | ⟨l, letter, hl, hletter, rfl⟩
    · exact h.scene l (hlocals l hl)
    · exact h.queued l.sub (Phase.sub?_of_locals? hl) letter hletter

/-- **A session changes no scene outside of what it is within.** -/
theorem Within.untouched (h : s.Within P k) {r : SubRef} (hsub : s.phase.sub? = some r)
    (hlt : r < k.subs.next) {e : SessionEvent} {call : Option Call}
    (hstep : s.step? k e = some (call, s')) {c : SceneRef} (hc : ¬ P c) :
    (k.perform call).objects.get c = k.objects.get c := by
  have hmethod : ∀ {l : Locals} {op : SceneOp}, s.phase.locals? = some l →
      (k.step (.scene l.scene op)).objects.get c = k.objects.get c := fun {l op} hl => by
    have hne : c ≠ l.scene := fun he => hc (he ▸ h.scene l hl)
    rw [Server.step]
    split
    · rw [Server.get_onScene, if_neg hne]
    · rfl
  rcases did hstep with _ | _ | ⟨hphase, -, -⟩ | hphase | ⟨hphase, -, -⟩ | ⟨-, -⟩ | @⟨l, ls, hphase⟩
  case idle => rfl
  case abandon => rfl
  case attach =>
    rw [hphase] at hsub
    cases hsub
  case fail => exact hmethod (by rw [hphase]; rfl)
  case input => exact hmethod (by rw [hphase]; rfl)
  case dequeue => rw [Server.perform, Call.op, Server.step, Server.objects_dequeue]
  case detach =>
    have hl : l.sub = r := by
      rw [hphase] at hsub
      exact Option.some.inj hsub
    have hnot : ¬ k.Owns c l.sub := fun ho => hc (h.owner l.sub (by rw [hphase]; rfl) c ho)
    rw [Server.perform, Call.op, Server.step, if_pos (hl ▸ hlt)]
    exact Server.scene_detach_of_not hnot

end Session

/-! ## Any interleaving

The two sides are told apart by reference: what is made after the reset has a higher one.  A side
is closed under switches because nothing of the older side is registered any more. -/

namespace World

variable [PyRepr] {P : SceneRef → Prop} {w : World}

/-- **What a session with a client is within after an event**: the closed set it was within before,
or, if it was attached just now, any set with all that is registered. -/
theorem within_step (h : w.AllSpoken) (hclosed : w.kit.Closed P) (e : Event) {i : ℕ} {r : SubRef}
    (hr : ((w.step e).sessions.get i).phase.sub? = some r) :
    ((w.sessions.get i).phase.sub? = some r ∧ ((w.sessions.get i).Within P w.kit →
        ((w.step e).sessions.get i).Within P (w.step e).kit)) ∨
      (r = w.kit.subs.next ∧ ((∀ c, w.kit.Registered c → P c) →
        ((w.step e).sessions.get i).Within P (w.step e).kit)) := by
  rcases (w.did e).session_cases i with hsame | ⟨requested, hnew, -⟩ |
    ⟨a, call, s, rfl, hstep, hs, hkit⟩
  · rw [hsame] at hr ⊢
    refine Or.inl ⟨hr, fun hin => ?_⟩
    rw [kit_step]
    split
    · exact hin
    · exact hin.step_kit hclosed h.wf.kit (h.wf.sub_lt i) _
  · rw [hnew, Session.sub?_connecting] at hr
    cases hr
  · rw [hs] at hr
    rw [hs, hkit]
    rcases (Session.did hstep).kept_or_attached with ⟨hsub, hlocals⟩ |
      ⟨f, identity, c, hphase, hscene, hlocals, hcall⟩
    · exact Or.inl ⟨hsub ▸ hr, fun hin =>
        hin.stretch hclosed h.wf.kit (h.wf.sub_lt i) hstep hsub hlocals⟩
    · have hc := Server.registered_of_resolveScene hscene
      have hlt := h.wf.kit.registered_lt c hc
      have hfresh : w.kit.subs.next = r :=
        Option.some.inj ((Phase.sub?_of_locals? hlocals).symm.trans hr)
      refine Or.inr ⟨hfresh.symm, fun hP => ?_⟩
      rw [hcall, Server.perform, Call.op, Server.step_subscribeWithResume hlt]
      refine ⟨fun l hl => ?_, fun r' hr' c' ho => ?_, fun r' hr' letter hletter => ?_,
        fun x hx c' hc' => ?_⟩
      · rw [hlocals] at hl
        cases hl
        exact hP c hc
      · rw [hr] at hr'
        cases hr'
        rcases h.wf.kit.owner_attach ho with ⟨rfl, -⟩ | ⟨-, hne⟩
        · exact hP c' hc
        · exact absurd hfresh.symm hne
      · rw [hr] at hr'
        cases hr'
        rw [← hfresh, Server.sub_attach_next] at hletter
        cases hletter
      · have hnothing : (w.sessions.get i).written = [] :=
          (h.spoken i).fresh (by rw [hphase]; trivial)
        rcases Session.issues_step? hstep x hx with hold | hnew
        · rw [hnothing] at hold
          cases hold
        · rcases hnew c' hc' with ⟨l, hl, rfl⟩ | ⟨l, letter, hl, -⟩
          · rw [hlocals] at hl
            cases hl
            exact hP c hc
          · rw [hphase] at hl
            cases hl

/-- Every session with a client is within the scenes there are. -/
def InBounds (w : World) : Prop := ∀ i r, (w.sessions.get i).phase.sub? = some r →
  (w.sessions.get i).Within (· < w.kit.objects.next) w.kit

theorem inBounds_step (h : w.AllSpoken) (hin : w.InBounds) (e : Event) : (w.step e).InBounds := by
  intro i r hr
  have hmono : ∀ c, c < w.kit.objects.next → c < (w.step e).kit.objects.next :=
    fun c hc => hc.trans_le (w.next_le_kit_step e).1
  have hclosed : w.kit.Closed (· < w.kit.objects.next) :=
    fun prev next _ hnext _ => h.wf.kit.registered_lt next hnext
  rcases within_step h hclosed e hr with ⟨hold, hkept⟩ | ⟨-, hfresh⟩
  · exact (hkept (hin i r hold)).mono hmono
  · exact (hfresh h.wf.kit.registered_lt).mono hmono

theorem inBounds_after (es : List Event) : (after es).InBounds := by
  have hstart : (after []).AllSpoken ∧ (after []).InBounds :=
    ⟨allSpoken_after [], fun _ _ hr => by cases hr⟩
  have hstep : ∀ (w : World) (e : Event), w.AllSpoken ∧ w.InBounds →
      (w.step e).AllSpoken ∧ (w.step e).InBounds :=
    fun w e hw => ⟨hw.1.step e, inBounds_step hw.1 hw.2 e⟩
  exact (@run_invariant _ _ step (fun w => w.AllSpoken ∧ w.InBounds) _ hstart hstep es).2

/-- The scene and the subscription were both there already, or neither was. -/
def SameSide (w : World) (r : SubRef) (c : SceneRef) : Prop :=
  c < w.kit.objects.next ↔ r < w.kit.subs.next

instance (w : World) (r : SubRef) (c : SceneRef) : Decidable (w.SameSide r c) :=
  inferInstanceAs (Decidable (_ ↔ _))

/-- What holds from a reset of `w₀` on: nothing that was there is registered again, and each session
with a client is within its own side. -/
structure CutAt (w₀ w : World) : Prop where
  spoken : w.AllSpoken
  objects : w₀.kit.objects.next ≤ w.kit.objects.next
  subs : w₀.kit.subs.next ≤ w.kit.subs.next
  registered : ∀ c, w.kit.Registered c → w₀.kit.objects.next ≤ c
  within : ∀ i r, (w.sessions.get i).phase.sub? = some r →
    (w.sessions.get i).Within (w₀.SameSide r) w.kit

theorem cutAt_reset (h : w.AllSpoken) (hin : w.InBounds) :
    CutAt w (w.step (.trusted .reset)) where
  spoken := h.step _
  objects := (w.next_le_kit_step _).1
  subs := (w.next_le_kit_step _).2
  registered c hc := by
    have hnone : (w.kit.step .reset).scenes = .empty := w.kit.scenes_reset.1
    change w.kit.step .reset |>.Registered c at hc
    rw [Server.Registered, hnone] at hc
    cases hc
  within i r hr := by
    have hlt := h.wf.sub_lt i r hr
    have hclosed : w.kit.Closed (· < w.kit.objects.next) :=
      fun prev next _ hnext _ => h.wf.kit.registered_lt next hnext
    have hkept : (w.sessions.get i).Within (· < w.kit.objects.next) (w.kit.step .reset) :=
      (hin i r hr).step_kit hclosed h.wf.kit (h.wf.sub_lt i) .reset
    exact hkept.mono fun c hc => iff_of_true hc hlt

theorem CutAt.step {w₀ : World} (h : CutAt w₀ w) (e : Event) : CutAt w₀ (w.step e) where
  spoken := h.spoken.step e
  objects := h.objects.trans (w.next_le_kit_step e).1
  subs := h.subs.trans (w.next_le_kit_step e).2
  registered c hc := by
    rw [kit_step] at hc
    split at hc
    · exact h.registered c hc
    · rcases Server.registered_of_step _ hc with hold | hfresh
      · exact h.registered c hold
      · exact h.objects.trans hfresh
  within i r hr := by
    -- what is registered is on the far side, so that no switch crosses the cut
    have hclosed : w.kit.Closed (w₀.SameSide r) := fun prev next hprev hnext hside => by
      have hfar : ¬ r < w₀.kit.subs.next := fun hr' =>
        absurd (hside.mpr hr') (not_lt.mpr (h.registered prev hprev))
      exact iff_of_false (not_lt.mpr (h.registered next hnext)) hfar
    rcases within_step h.spoken hclosed e hr with ⟨hold, hkept⟩ | ⟨rfl, hfresh⟩
    · exact hkept (h.within i r hold)
    · exact hfresh fun c hc =>
        iff_of_false (not_lt.mpr (h.registered c hc)) (not_lt.mpr h.subs)

/-- **A reset cuts a world in two.**  Whatever happens before and after it, a session is sent only
what scenes of its own side issue, those that were there if its client was attached before the reset
and those made since if it was attached after; and it changes no scene of the other side. -/
theorem cut_by_reset (es fs : List Event) (i : ℕ) {r : SubRef}
    (hr : ((after (es ++ .trusted .reset :: fs)).sessions.get i).phase.sub? = some r) :
    (∀ x ∈ ((after (es ++ .trusted .reset :: fs)).sessions.get i).written, ∀ c,
      x.issuer = some c → (after es).SameSide r c) ∧
    ∀ e c, ¬ (after es).SameSide r c →
      ((after (es ++ .trusted .reset :: fs)).step (.session i e)).kit.objects.get c
        = (after (es ++ .trusted .reset :: fs)).kit.objects.get c := by
  have hcut : CutAt (after es) (after (es ++ .trusted .reset :: fs)) := by
    rw [after_append, run_cons]
    exact run_invariant (cutAt_reset (allSpoken_after es) (inBounds_after es))
      (fun w e h => h.step e) fs
  generalize after (es ++ .trusted .reset :: fs) = w at hcut hr
  have hin := hcut.within i r hr
  refine ⟨hin.written, fun e c hc => ?_⟩
  rcases hstep : (w.sessions.get i).step? w.kit e with _ | ⟨call, s⟩
  · rw [step_session_of_none hstep]
  · rw [step_session hstep]
    exact hin.untouched hr (hcut.spoken.wf.sub_lt i r hr) hstep hc

end World

/-- A viewer is attached before a reset, and an operator to the scene built after it. -/
def rebuiltRun : List Event :=
  [.trusted (.newScene "b" "v2" [] true), .connect ["lsdp.v1"], .session 1 (.sent true),
    .session 1 (.received (.frame (.subscribe { token := .str "t" }))),
    .session 1 (.authenticated (.identity { role := some .operator }))]

namespace World

theorem cut_by_reset_rebuiltRun :
    let w := @after .plain (departedRun ++ .trusted .reset :: rebuiltRun)
    (w.sessions.get 1).phase.sub? = some 1 ∧
      (@step .plain w (.session 1 (.sent false))).kit.objects.get 0 = w.kit.objects.get 0 := by
  have hr : ((@after .plain (departedRun ++ .trusted .reset :: rebuiltRun)).sessions.get 1).phase.sub?
      = some 1 := by decide
  have hside : ¬ (@after .plain departedRun).SameSide 1 0 := by decide
  exact ⟨hr, (@cut_by_reset .plain departedRun rebuiltRun 1 1 hr).2 (.sent false) 0 hside⟩

end World

end Lumencast
