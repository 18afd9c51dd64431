import Lumencast.Sessions.World

/-!
# Sessions/Leaks — what a session leaves behind

A session that is over should be served by no registered scene (`NoLeak`).  Two of its exits miss
that: a cancellation while the initial frames are sent detaches nothing, and a failed initial send
detaches from the scene the session was attached to, which need not be the one that serves it by
then. `noLeak_iff` says that these are the only two.
-/

namespace Lumencast

open Machinery

namespace Session

variable [PyRepr] {k : Server} {s : Session} {l : Locals} {rest : List Frame}

theorem step?_initial_cancelled (h : s.phase = .initial l rest) :
    s.step? k .cancelled = some (none, s.goto (.ended (some l.sub))) := by
  unfold step?
  rw [h]

theorem step?_initial_failed (h : s.phase = .initial l rest) : s.step? k (.sent false)
    = some (some (.unsubscribe l.scene l.sub), s.goto (.ended (some l.sub))) := by
  unfold step?
  rw [h]

end Session

namespace World

/-- No session that is over is served by a registered scene. -/
def NoLeak (w : World) : Prop :=
  ∀ i r, (w.sessions.get i).phase = .ended (some r) → ¬ w.kit.Reaches r

/-- The event does not end a session in a way that misses the scene serving it: it cancels no
initial send while a registered scene serves the client, and fails none while another scene than the
one it was attached to does. -/
def LetsGo (w : World) : Event → Prop
  | .session i .cancelled => ∀ l rest, (w.sessions.get i).phase = .initial l rest →
      ¬ w.kit.Reaches l.sub
  | .session i (.sent false) => ∀ l rest, (w.sessions.get i).phase = .initial l rest →
      ∀ c, w.kit.Registered c → w.kit.Owns c l.sub → c = l.scene
  | _ => True

variable [PyRepr]

/-- An event that ends no session with a subscription is harmless. -/
theorem letsGo_of_not_ended {w : World} {i : ℕ} {e : SessionEvent}
    (h : ∀ call s, (w.sessions.get i).step? w.kit e = some (call, s) →
      ∀ r, s.phase ≠ .ended (some r)) : w.LetsGo (.session i e) := by
  unfold LetsGo
  split
  · rename_i heq
    cases heq
    exact fun l rest hp => absurd rfl (h _ _ (Session.step?_initial_cancelled hp) l.sub)
  · rename_i heq
    cases heq
    exact fun l rest hp => absurd rfl (h _ _ (Session.step?_initial_failed hp) l.sub)
  · trivial

/-- Who was let go stays so, whatever happens. -/
theorem NoLeak.stays {w : World} (hno : w.NoLeak) (hwf : w.Wf) (e : Event) {i : ℕ} {r : SubRef}
    (hended : (w.sessions.get i).phase = .ended (some r)) : ¬ (w.step e).kit.Reaches r := by
  intro hreach
  rw [kit_step] at hreach
  split at hreach
  · exact hno i r hended hreach
  · have hlt : r < w.kit.subs.next := hwf.sub_lt i r (by rw [hended]; rfl)
    exact hno i r hended (Server.reaches_of_step hwf.kit _ hlt hreach)

/-- After a stretch of the session `i`, only `i` itself is in question. -/
theorem noLeak_session_iff {w : World} {i : ℕ} {e : SessionEvent} {call : Option Call}
    {s : Session} (hno : w.NoLeak) (hwf : w.Wf)
    (hstep : (w.sessions.get i).step? w.kit e = some (call, s)) :
    (w.step (.session i e)).NoLeak ↔
      ∀ r, s.phase = .ended (some r) → ¬ (w.kit.perform call).Reaches r := by
  have hw := step_session hstep
  constructor
  · intro h r hr
    rw [hw] at h
    exact h i r (by rw [Heap.get_modify_self]; exact hr)
  · intro h j r hj
    by_cases hji : j = i
    · rw [hw, hji, Heap.get_modify_self] at hj
      rw [hw]
      exact h r hj
    · refine hno.stays hwf _ (i := j) ?_
      rwa [hw, Heap.get_modify_of_ne _ _ hji] at hj

end World

namespace Server

variable {k : Server} {r : SubRef}

/-- Unsubscribing from `c` does not help a client that another registered scene serves. -/
theorem reaches_unsubscribe_iff (hwf : k.Wf) {c : SceneRef} (hc : c < k.objects.next)
    (hr : r < k.subs.next) : (k.perform (some (.unsubscribe c r))).Reaches r ↔
      ∃ c', k.Registered c' ∧ k.Owns c' r ∧ c' ≠ c := by
  have howns := rerouted hwf (.scene c (.unsubscribe r))
  simp only [reroute, rerouteScene, if_pos hc, if_pos hr] at howns
  have hscenes : (k.step (.scene c (.unsubscribe r))).scenes = k.scenes := by
    rw [step, if_pos hc, scenes_onScene]
  refine exists_congr fun c' => ?_
  rw [perform, Call.op, Registered, hscenes, howns c' r]
  simp [Registered]

/-- Detaching lets a client go, wherever it is. -/
theorem not_reaches_detach (hwf : k.Wf) (hr : r < k.subs.next) :
    ¬ (k.perform (some (.detach r))).Reaches r := by
  have hdetach : k.perform (some (.detach r)) = k.detach r := if_pos hr
  rw [hdetach]
  rintro ⟨c, hreg, ho⟩
  obtain ⟨howned, hkept⟩ := (owns_detach k r r c).mp ho
  rcases (quiet_detach k r).registered c hreg with hreg | hfresh
  · exact hkept ⟨hreg, rfl⟩
  · exact absurd (hwf.owner_lt c r howned) (not_lt.mpr hfresh)

end Server

namespace World

variable [PyRepr]

/-- **One stretch of a session, judged before it is run.** -/
theorem letsGo_iff {w : World} (hwf : w.Wf) {i : ℕ} {e : SessionEvent} {call : Option Call}
    {s : Session} (hstep : (w.sessions.get i).step? w.kit e = some (call, s)) :
    (∀ r, s.phase = .ended (some r) → ¬ (w.kit.perform call).Reaches r) ↔
      w.LetsGo (.session i e) := by
  have hsub : ∀ {l rest}, (w.sessions.get i).phase = .initial l rest → l.sub < w.kit.subs.next :=
    fun hp => hwf.sub_lt i _ (by rw [hp]; rfl)
  have hscene : ∀ {l rest}, (w.sessions.get i).phase = .initial l rest →
      l.scene < w.kit.objects.next := fun hp => hwf.scene_lt i _ (by rw [hp]; rfl)
  have hharmless : (∀ r, s.phase ≠ .ended (some r)) →
      ((∀ r, s.phase = .ended (some r) → ¬ (w.kit.perform call).Reaches r) ↔
        w.LetsGo (.session i e)) := fun hp =>
    iff_of_true (fun r hr => absurd hr (hp r)) (letsGo_of_not_ended fun call' s' h => by
      rw [hstep] at h
      cases h
      exact hp)
  rcases Session.did hstep with hidle | hphase | ⟨hphase, -, -⟩ | hphase | ⟨hphase, -, hphase'⟩ |
    @⟨l, ls, item, -, hphase, -⟩ | hphase
  · exact hharmless hidle.attached
  · -- cancelled while the initial frames are sent
    constructor
    · intro h l' rest' hp
      rw [hphase] at hp
      cases hp
      exact h _ rfl
    · intro h r hr
      cases hr
      exact h _ _ hphase
  · refine hharmless fun r hr => ?_
    have hlocals := congrArg Phase.locals? hr
    rw [Session.locals?_sendInitial] at hlocals
    cases hlocals
  · -- an initial frame that cannot be sent
    have hreach := Server.reaches_unsubscribe_iff hwf.kit (hscene hphase) (hsub hphase)
    constructor
    · intro h l' rest' hp c hreg ho
      rw [hphase] at hp
      cases hp
      by_contra hne
      exact h _ rfl (hreach.mpr ⟨c, hreg, ho, hne⟩)
    · intro h r hr hr'
      cases hr
      obtain ⟨c, hreg, ho, hne⟩ := hreach.mp hr'
      exact hne (h _ _ hphase c hreg ho)
  · exact hharmless fun r hr => by rw [hphase'] at hr; cases hr
  · refine hharmless fun r hr => ?_
    obtain ⟨ls', hp'⟩ := Session.phase_take (w.sessions.get i) l ls item
    rw [hp'] at hr
    cases hr
  · refine iff_of_true (fun r hr => ?_) trivial
    cases hr
    exact Server.not_reaches_detach hwf.kit (hwf.sub_lt i _ (by rw [hphase]; rfl))

/-- **One event, judged before it happens.** -/
theorem noLeak_step (w : World) (e : Event) (hwf : w.Wf) (hno : w.NoLeak) :
    (w.step e).NoLeak ↔ w.LetsGo e := by
  rcases e with op | requested | ⟨i, e⟩
  · exact iff_of_true (fun i r hr => hno.stays hwf (.trusted op) hr) trivial
  · refine iff_of_true (fun i r hr => ?_) trivial
    rw [step] at hr
    by_cases hi : i = w.sessions.next
    · have hnone := Session.sub?_connecting requested
      rw [hi, Heap.get_alloc_next] at hr
      rw [hr] at hnone
      cases hnone
    · rw [Heap.get_alloc_of_ne _ _ hi] at hr
      exact hno i r hr
  · rcases hstep : (w.sessions.get i).step? w.kit e with _ | ⟨call, s⟩
    · rw [step_session_of_none hstep]
      refine iff_of_true hno (letsGo_of_not_ended fun call s h => ?_)
      rw [hstep] at h
      cases h
    · rw [noLeak_session_iff hno hwf hstep, letsGo_iff hwf hstep]

/-- **When no run leaks**: exactly when each of its events lets go. -/
theorem noLeak_iff (es : List Event) : Always step NoLeak {} es ↔ Steps step LetsGo {} es :=
  always_iff_steps (wf_start Server.wf_empty) (fun _ _ h => nomatch h) wf_step noLeak_step es

/-- A session is cancelled while its snapshot is on its way. -/
def cancelledRun : List Event :=
  [.trusted (.newScene "a" "v1" [] true), .connect ["lsdp.v1"], .session 0 (.sent true),
    .session 0 (.received (.frame (.subscribe { token := .str "t" }))),
    .session 0 (.authenticated (.identity { role := some .viewer })), .session 0 .cancelled]

end World

namespace World

/-- **A leak**: the session of `cancelledRun` is over, and the registered scene still serves it. -/
theorem cancelledRun_leaks :
    ((@after .plain cancelledRun).sessions.get 0).phase = .ended (some 0) ∧
      (@after .plain cancelledRun).kit.Reaches 0 ∧
      ¬ Always (@step .plain) NoLeak {} cancelledRun := by
  have hended : ((@after .plain cancelledRun).sessions.get 0).phase = .ended (some 0) := rfl
  have hreach : (@after .plain cancelledRun).kit.Reaches 0 :=
    ⟨0, List.mem_singleton.mpr rfl, Finset.mem_insert_self 0 ∅⟩
  exact ⟨hended, hreach, fun h => h.last 0 0 hended hreach⟩

end World

end Lumencast
