import Lumencast.Sessions.Inputs

/-!
# Sessions/Clients — runs that only clients make

When trusted code has set up a kit and left it alone, all that happens is that clients connect and
sessions wake up.  Then only an accepted input changes a store (`onlyInputs_serve`), inside the two
namespaces the write gate opens onto (`get?_serve_of_outside`), and nobody is sent state before an
authenticator has let them in (`admitted_of_served`).
-/

namespace Lumencast

open Machinery

/-- What happens next, when nobody but clients does anything. -/
inductive ClientEvent where
  | connect (requested : List PyStr)
  | session (i : ℕ) (e : SessionEvent)

/-- The same, among all events. -/
def ClientEvent.toEvent : ClientEvent → Event
  | .connect requested => .connect requested
  | .session i e => .session i e

namespace Server

theorem bare_detach (k : Server) (r : SubRef) (c : SceneRef) :
    ((k.detach r).objects.get c).bare = (k.objects.get c).bare := by
  rw [detach]
  generalize k.scenes.values = cs
  induction cs generalizing k with
  | nil => rfl
  | cons c₀ cs ih =>
    rw [List.foldl_cons, ih]
    exact field_onScene Scene.bare rfl c

/-- **A session changes a scene by an input only.** -/
theorem bare_perform (k : Server) {call : Option Call}
    (h : ∀ c identity patches cause, call ≠ some (.applyInput c identity patches cause))
    (c : SceneRef) : ((k.perform call).objects.get c).bare = (k.objects.get c).bare := by
  rcases call with _ | ⟨c₀, live, since⟩ | ⟨c₀, r⟩ | ⟨c₀, identity, patches, cause⟩ | r | r
  · rfl
  · rw [perform, Call.op, step]
    split
    · exact field_onScene Scene.bare rfl c
    · rfl
  · rw [perform, Call.op, step]
    split
    · refine field_onScene Scene.bare ?_ c
      rw [Scene.step]
      split <;> rfl
    · rfl
  · exact absurd rfl (h c₀ identity patches cause)
  · rw [perform, Call.op, step, objects_dequeue]
  · rw [perform, Call.op, step]
    split
    · exact bare_detach k r c
    · rfl

end Server

namespace World

variable [PyRepr]

/-- Let a client event happen. -/
def serve (w : World) (e : ClientEvent) : World := w.step e.toEvent

theorem wf_serve (w : World) (e : ClientEvent) (h : w.Wf) : (w.serve e).Wf := wf_step w _ h

/-- If the event changes what a scene holds under a key, it is an accepted input of a session of
that scene, the key is among its patches, and the session's identity may write it. -/
def OnlyInputs (w : World) (e : ClientEvent) : Prop :=
  ∀ c key, ((w.serve e).kit.objects.get c).store.state.get? key
      ≠ (w.kit.objects.get c).store.state.get? key →
    ∃ l f, w.Accepts e.toEvent l f ∧ c = l.scene ∧ (∃ p ∈ f.patches, p.path = key) ∧
      l.identity.canWrite key = true

/-- **Only accepted inputs change a store**, and only where their sender may write. -/
theorem onlyInputs_serve {w : World} (hwf : w.Wf) (e : ClientEvent) : w.OnlyInputs e := by
  intro c key hne
  rcases e with requested | ⟨i, e⟩
  · exact absurd rfl hne
  · rcases hstep : (w.sessions.get i).step? w.kit e with _ | ⟨call, s⟩
    · rw [serve, ClientEvent.toEvent, step_session_of_none hstep] at hne
      exact absurd rfl hne
    · have hkit : (w.serve (.session i e)).kit = w.kit.perform call := by
        rw [serve, ClientEvent.toEvent, step_session hstep]
      have hsame : (∀ c identity patches cause, call ≠ some (.applyInput c identity patches cause)) →
          ((w.serve (.session i e)).kit.objects.get c).store.state.get? key
            = (w.kit.objects.get c).store.state.get? key := fun hcall => by
        have hbare := Server.bare_perform w.kit hcall c
        have hstore : ((w.kit.perform call).objects.get c).store = (w.kit.objects.get c).store :=
          (congrArg (fun b : Scene => b.store) hbare :)
        rw [hkit, hstore]
      rcases Session.did hstep with hidle | hphase | ⟨hphase, -, -⟩ | hphase |
        @⟨l, ls, ls', f, -, hphase, hreader, -⟩ | ⟨hphase, -⟩ | hphase
      case input =>
        by_cases hv : (w.kit.objects.get l.scene).verdict l.identity f.patches = .ok none
        · have haccepts : w.Accepts (.session i (.received (.frame (.input f)))) l f :=
            ⟨i, ls, rfl, hphase, hreader, by rw [Scene.applyInput_result]; exact hv⟩
          rw [serve, ClientEvent.toEvent, kit_step_of_accepts hwf haccepts, Server.scene_post] at hne
          split at hne
          · rename_i hc
            subst hc
            obtain ⟨p, hp, hpath⟩ := Scene.exists_of_get?_asDict hne
            exact ⟨l, f, haccepts, rfl, ⟨p, hp, hpath⟩, hpath ▸ Scene.canWrite_of_verdict hv p hp⟩
          · exact absurd rfl hne
        · rw [hkit, Server.perform, Call.op, Server.step_applyInput_of_ne _ hv] at hne
          exact absurd rfl hne
      all_goals exact absurd (hsame (by rintro _ _ _ _ ⟨⟩)) hne

/-- A key outside the two namespaces keeps its value, in every scene. -/
theorem get?_serve_of_outside {w : World} (hwf : w.Wf) (e : ClientEvent) {key : PyStr}
    (hinputs : hasPrefix key "__inputs" = false) (htest : hasPrefix key "__test" = false)
    (c : SceneRef) : ((w.serve e).kit.objects.get c).store.state.get? key
      = (w.kit.objects.get c).store.state.get? key := by
  by_contra hne
  obtain ⟨l, f, -, -, -, hwrite⟩ := onlyInputs_serve hwf e c key hne
  rcases canWrite_namespace hwrite with h | h
  · rw [hinputs] at h
    cases h
  · rw [htest] at h
    cases h

/-- **Keys outside the two namespaces never change.** -/
theorem get?_run_of_outside {w : World} (hwf : w.Wf) (es : List ClientEvent) {key : PyStr}
    (hinputs : hasPrefix key "__inputs" = false) (htest : hasPrefix key "__test" = false)
    (c : SceneRef) : ((run serve w es).kit.objects.get c).store.state.get? key
      = (w.kit.objects.get c).store.state.get? key := by
  induction es generalizing w with
  | nil => rfl
  | cons e es ih =>
    rw [run_cons, ih (wf_serve w e hwf), get?_serve_of_outside hwf e hinputs htest]

/-! ## Nobody is sent state unasked -/

/-- An authenticator has let the client of the session `i` in, with a role. -/
def Admitted (start : World) (es : List ClientEvent) (i : ℕ) : Prop :=
  ∃ pre identity post f, es = pre ++ .session i (.authenticated (.identity identity)) :: post ∧
    identity.isAuthenticated = true ∧
    ((run serve start pre).sessions.get i).phase = .authenticating f

theorem Admitted.concat {start : World} {es : List ClientEvent} {i : ℕ}
    (h : Admitted start es i) (e : ClientEvent) : Admitted start (es ++ [e]) i := by
  obtain ⟨pre, identity, post, f, rfl, hauth, hphase⟩ := h
  exact ⟨pre, identity, post ++ [e], f, by simp, hauth, hphase⟩

end World

/-- The session has been sent state, or is about to be. -/
def Session.Served (s : Session) : Prop :=
  s.phase.locals?.isSome = true ∨ ∃ x ∈ s.written, x.frame.carriesState = true

theorem Session.not_served_connecting (requested : List PyStr) :
    ¬ (connecting requested).Served := by
  rintro (h | ⟨x, hx, -⟩)
  · obtain ⟨l, hl⟩ := Option.isSome_iff_exists.mp h
    have hsub := Phase.sub?_of_locals? hl
    rw [sub?_connecting] at hsub
    cases hsub
  · exact absurd hx List.not_mem_nil

/-- Only the authenticator starts serving a session. -/
theorem Session.Did.served {k : Server} {s s' : Session} {e : SessionEvent} {call : Option Call}
    (h : s.Did k e call s') (hserved : s'.Served) : s.Served ∨
    ∃ f identity, s.phase = .authenticating f ∧ identity.isAuthenticated = true ∧
      e = .authenticated (.identity identity) := by
  have hlocals : ∀ {p l}, s.phase = p → p.locals? = some l → s.Served := fun hp hl =>
    Or.inl (by rw [hp, hl]; rfl)
  rcases h with h | hphase | ⟨hphase, hauth, -⟩ | hphase | ⟨hphase, -, -⟩ | ⟨hphase, -⟩ | hphase
  · refine Or.inl ?_
    rcases hserved with hserved | ⟨x, hx, hstate⟩
    · exact Or.inl (h.locals ▸ hserved)
    · obtain ⟨sent, hwritten, hsent⟩ := h.written
      rw [hwritten, List.mem_append] at hx
      rcases hx with hx | hx
      · exact Or.inr ⟨x, hx, hstate⟩
      · exact Or.inl (hsent x hx hstate)
  · exact Or.inl (hlocals hphase rfl)
  · exact Or.inr ⟨_, _, hphase, hauth, rfl⟩
  · exact Or.inl (hlocals hphase rfl)
  · exact Or.inl (hlocals hphase rfl)
  · exact Or.inl (hlocals hphase rfl)
  · exact Or.inl (hlocals hphase rfl)

namespace World

variable [PyRepr]

/-- A session that has been sent state was let in. -/
theorem admitted_of_served {k : Server} (i : ℕ) (es : List ClientEvent)
    (h : ((run serve { kit := k } es).sessions.get i).Served) : Admitted { kit := k } es i := by
  induction es using List.reverseRecOn with
  | nil =>
    rcases h with h | ⟨x, hx, -⟩
    · cases h
    · exact absurd hx List.not_mem_nil
  | append_singleton es e ih =>
    rw [run_concat] at h
    rcases (did _ e.toEvent).session_cases i with hsame | ⟨requested, hnew, -⟩ |
      ⟨a, call, s, he, hstep, hs, -⟩
    · rw [serve, hsame] at h
      exact (ih h).concat _
    · rw [serve, hnew] at h
      exact absurd h (Session.not_served_connecting requested)
    · rw [serve, hs] at h
      rcases (Session.did hstep).served h with hold | ⟨f, identity, hphase, hauth, rfl⟩
      · exact (ih hold).concat _
      · rcases e with requested | ⟨j, e⟩
        · cases he
        · cases he
          exact ⟨es, identity, [], f, rfl, hauth, hphase⟩

end World

end Lumencast
