import Lumencast.Interop.Bench

/-!
# Interop/Identified — who the clients of a bench are

A setup replaces the tokens and a reset drops them; a session asks for its identity once, when it
subscribes, and keeps it however often the tokens are replaced after that.  So a client that is
attached named a token that the last of these requests before its subscribe had listed, and is who
that list says (`identified`).
-/

namespace Lumencast

open Machinery

/-! ## What a list of tokens says -/

/-- The request lists `token` under the placeholder that `identity` is named after. -/
def Lists (tokens : Json) (token : PyStr) (identity : Identity) : Prop :=
  ∃ entries placeholder role, tokens = .obj entries ∧ (placeholder, .str token) ∈ entries ∧
    (placeholder, role) ∈ PLACEHOLDER_ROLES ∧
    identity = { subject := placeholder, role := some role }

/-- One entry installs a token it lists, or changes nothing. -/
theorem get?_installToken {tokens : StaticTokens} {entry : PyStr × Json} {token : PyStr}
    {identity : Identity} (h : (installToken tokens entry).get? token = some identity) :
    tokens.get? token = some identity ∨ ∃ role, entry.2 = .str token ∧
      (entry.1, role) ∈ PLACEHOLDER_ROLES ∧
      identity = { subject := entry.1, role := some role } := by
  unfold installToken at h
  split at h
  · exact Or.inl h
  · split at h
    · rename_i value hvalue
      split at h
      · exact Or.inl h
      · split at h
        · exact Or.inl h
        · rename_i role hrole
          by_cases hv : token = value
          · subst hv
            rw [Dict.get?_set_self, Option.some.injEq] at h
            exact Or.inr ⟨role, hvalue, Dict.mem_of_find hrole, h.symm⟩
          · rw [Dict.get?_set_of_ne _ _ hv] at h
            exact Or.inl h
    · exact Or.inl h

/-- **Only what is listed is installed.** -/
theorem lists_of_installTokens {tokens : Json} {token : PyStr} {identity : Identity}
    (h : (installTokens tokens).get? token = some identity) : Lists tokens token identity := by
  unfold installTokens at h
  split at h
  · rename_i entries
    induction entries using List.reverseRecOn with
    | nil => cases h
    | append_singleton entries entry ih =>
      rw [List.foldl_concat] at h
      rcases get?_installToken h with h | ⟨role, hvalue, hrole, rfl⟩
      · obtain ⟨_, placeholder, role, heq, hmem, hrole⟩ := ih h
        cases heq
        exact ⟨_, placeholder, role, rfl, List.mem_append_left _ hmem, hrole⟩
      · refine ⟨_, entry.1, role, rfl, ?_, hrole, rfl⟩
        rw [← hvalue]
        exact List.mem_append_right _ List.mem_cons_self
  · cases h

/-- Whoever the authenticator lets in, it looked up. -/
theorem get?_of_authenticateToken {tokens : StaticTokens} {token : Json} {identity : Identity}
    (h : authenticateToken tokens token = .identity identity) :
    ∃ text, token = .str text ∧ tokens.get? text = some identity := by
  unfold authenticateToken at h
  split at h
  · rename_i text
    split at h
    · rename_i found hfound
      cases h
      exact ⟨text, rfl, hfound⟩
    · cases h
  all_goals cases h

/-! ## One subscribe, one question -/

namespace Session

variable {k : Server} {s s' : Session}

/-- A session asks for an identity when it reads a subscribe. -/
theorem reading_of_authenticating [PyRepr] {e : SessionEvent} {call : Option Call} {f : Subscribe}
    (h : s.step? k e = some (call, s')) (hf : s'.phase = .authenticating f) :
    s.phase = .reading ∧ e = .received (.frame (.subscribe f)) := by
  have hattached : ∀ l, s.phase.locals? ≠ some l := by
    intro l hl
    rcases did h with h | _ | ⟨hphase, -, -⟩ | _ | ⟨-, -, hphase'⟩ | @⟨l, ls, item, -, -, -⟩ | _
    · have hlocals := h.locals
      rw [hf, hl] at hlocals
      cases hlocals
    · cases hf
    · rw [hphase] at hl
      cases hl
    · cases hf
    · cases hphase'.symm.trans hf
    · obtain ⟨ls', hphase'⟩ := phase_take s l ls item
      cases hphase'.symm.trans hf
    · cases hf
  rcases stepped h with ⟨-, -, hp⟩ | ⟨-, -, hp⟩ | ⟨hphase, r⟩ | _ | ⟨-, hanswered⟩ | _ | hphase |
    hphase | hphase | ⟨hphase, -⟩
  · rcases hp with rfl | rfl
    · cases hf
    · cases hf
  · rcases hp with rfl | rfl
    · cases hf
    · cases hf
  · unfold readSubscribe at hf
    split at hf
    · cases hf
      exact ⟨hphase, rfl⟩
    all_goals cases hf
  · cases hf
  · rcases hanswered with _ | _ | _
    · cases (locals?_sendInitial ..).symm.trans (congrArg Phase.locals? hf)
    · cases hf
    · cases hf
  · cases hf
  all_goals exact absurd (by rw [hphase]; rfl) (hattached _)

theorem step?_authenticated [PyRepr] {f : Subscribe} (hphase : s.phase = .authenticating f)
    (a : Authentication) : s.step? k (.authenticated a)
      = some ((s.authenticate k f a).1, (s.authenticate k f a).2) := by
  simp only [step?, hphase]

/-- …and once it is answered it never asks again. -/
theorem locals?_authenticate {f : Subscribe} {a : Authentication} {l : Locals}
    (h : (s.authenticate k f a).2.phase.locals? = some l) : a = .identity l.identity := by
  have hanswered := answered_authenticate k s f a
  generalize (s.authenticate k f a).1 = call at hanswered
  generalize (s.authenticate k f a).2 = s'' at hanswered h
  rcases hanswered with _ | _ | _
  · rw [locals?_sendInitial] at h
    cases h
    rfl
  · cases h
  · cases h

theorem not_authenticating_authenticate (f f' : Subscribe) (a : Authentication) :
    (s.authenticate k f a).2.phase ≠ .authenticating f' := by
  have hanswered := answered_authenticate k s f a
  generalize (s.authenticate k f a).1 = call at hanswered
  generalize (s.authenticate k f a).2 = s'' at hanswered
  intro hf
  rcases hanswered with _ | _ | _
  · cases (locals?_sendInitial ..).symm.trans (congrArg Phase.locals? hf)
  · cases hf
  · cases hf

end Session

namespace Bench

variable [PyRepr]

/-! ## The list that is in force

Two requests replace the tokens: a reset, and a setup that gets as far as its bundles. -/

/-- The list that is in force after an event, `tokens` being the one before it. -/
def relist (tokens : Json) : BenchEvent → Json
  | .request .reset => .null
  | .request (.setup (.ok (.obj body))) =>
      match bundlesOf body with
      | .arr (_ :: _) => (Json.lookup body "tokens").getD .null
      | _ => tokens
  | _ => tokens

/-- The tokens that the last request to replace them lists. -/
def listed (es : List BenchEvent) : Json := run relist .null es

theorem auth_handle {p : ControlPlane} {tokens : Json}
    (h : p.auth = some (installTokens tokens)) (r : Request) :
    (p.handle r).2.auth = some (installTokens (relist tokens (.request r))) := by
  rcases r with body | _ | _ | body | _
  · change (p.setup body).2.auth = _
    have hcleared : ∀ body : List (PyStr × Json), (p.cleared body).auth
        = some (installTokens ((Json.lookup body "tokens").getD .null)) := fun body => by
      rw [ControlPlane.cleared, h]
      rfl
    rcases p.setup_cases body with ⟨body, primary, secondaries, rfl, hbundles, hsetup⟩ |
      ⟨body, first, rest, rfl, hbundles, -, hsetup⟩ | ⟨hnone, code, detail, hsetup⟩
    · rw [hsetup, relist, hbundles]
      exact hcleared body
    · rw [hsetup, relist, hbundles]
      exact hcleared body
    · rw [hsetup]
      have hsame : relist tokens (.request (.setup body)) = tokens := by
        unfold relist
        split
        · rename_i heq
          cases heq
        · rename_i heq
          cases heq
          split
          · rename_i hbundles
            exact absurd hbundles (hnone _ _ _ rfl)
          · rfl
        · rfl
      rw [hsame]
      exact h
  · change p.auth.map _ = _
    rw [h]
    rfl
  · change p.state.2.auth = _
    rw [ControlPlane.state]
    split <;> exact h
  · change (p.emit body).2.auth = _
    rcases p.emit_cases body with ⟨patches, c, -, -, -, hemit⟩ | ⟨-, -, hsame⟩
    · rw [hemit]
      exact h
    · rw [hsame]
      exact h
  · exact h

/-- **The authenticator holds the list that is in force.** -/
theorem auth_after (hint : PyStr) (es : List BenchEvent) :
    (after hint es).plane.auth = some (installTokens (listed es)) := by
  induction es using List.reverseRecOn with
  | nil => rfl
  | append_singleton es e ih =>
    rw [after, listed, run_concat, run_concat]
    rcases e with r | _ | requested | ⟨i, e⟩
    · exact auth_handle ih r
    · exact ih
    · exact ih
    · exact ih

/-! ## Who is attached

Asking for an identity and being given one is one event of a bench.  So nobody is ever found
waiting for an answer, and no other request can come in between. -/

/-- The session `i` was attached as `l` by the subscribe `f`, which came after `pre`: it was not
attached before, and is who the tokens say that the list then in force installed. -/
structure AttachedBy (hint : PyStr) (pre : List BenchEvent) (i : ℕ) (f : Subscribe) (l : Locals) :
    Prop where
  before : ((after hint pre).sessions.get i).phase.locals? = none
  attached : ((after hint (pre ++ [.wake i (.received (.frame (.subscribe f)))])).sessions.get
    i).phase.locals? = some l
  named : ∃ token, f.token = .str token ∧
    (installTokens (listed pre)).get? token = some l.identity ∧ Lists (listed pre) token l.identity

/-- Nobody waits for an answer, and whoever is attached was listed. -/
structure Named (hint : PyStr) (es : List BenchEvent) : Prop where
  answered : ∀ i f, ((after hint es).sessions.get i).phase ≠ .authenticating f
  named : ∀ i l, ((after hint es).sessions.get i).phase.locals? = some l →
    ∃ pre post f, es = pre ++ .wake i (.received (.frame (.subscribe f))) :: post ∧
      AttachedBy hint pre i f l

/-- What a session holds is what it held. -/
theorem Named.keeps {hint : PyStr} {es : List BenchEvent} (h : Named hint es) {e : BenchEvent}
    {i : ℕ} {l : Locals} (hl : ((after hint es).sessions.get i).phase.locals? = some l) :
    ∃ pre post f, es ++ [e] = pre ++ .wake i (.received (.frame (.subscribe f))) :: post ∧
      AttachedBy hint pre i f l := by
  obtain ⟨pre, post, f, rfl, hattached⟩ := h.named i l hl
  refine ⟨pre, post ++ [e], f, ?_, hattached⟩
  rw [List.append_assoc, List.cons_append]

theorem Named.of_sessions {hint : PyStr} {es : List BenchEvent} (h : Named hint es) {e : BenchEvent}
    (hsame : (after hint (es ++ [e])).sessions = (after hint es).sessions) :
    Named hint (es ++ [e]) where
  answered i f := by
    rw [hsame]
    exact h.answered i f
  named i l hl := by
    rw [hsame] at hl
    exact h.keeps hl

theorem Named.connect {hint : PyStr} {es : List BenchEvent} (h : Named hint es)
    (requested : List PyStr) : Named hint (es ++ [.connect requested]) := by
  have hsessions : (after hint (es ++ [.connect requested])).sessions
      = (after hint es).sessions.alloc (.connecting requested) := by
    rw [after, run_concat]
    rfl
  have hnew : (Session.connecting requested).phase = .accepting ∨
      (Session.connecting requested).phase = .refusing := by
    rw [Session.connecting]
    split
    · exact Or.inl rfl
    · exact Or.inr rfl
  refine ⟨fun i f hf => ?_, fun i l hl => ?_⟩
  · rw [hsessions, Heap.get_alloc] at hf
    split at hf
    · rcases hnew with hnew | hnew
      · cases hnew.symm.trans hf
      · cases hnew.symm.trans hf
    · exact h.answered i f hf
  · rw [hsessions, Heap.get_alloc] at hl
    split at hl
    · rcases hnew with hnew | hnew
      · rw [hnew] at hl
        cases hl
      · rw [hnew] at hl
        cases hl
    · exact h.keeps hl

theorem settle_of_ne (b : Bench) {i : ℕ} {w : World}
    (h : ∀ f, (w.sessions.get i).phase ≠ .authenticating f) : b.settle i w = w := by
  unfold settle
  split
  · rename_i f tokens hphase hauth
    exact absurd hphase (h f)
  · rfl

theorem settle_of_authenticating {b : Bench} {tokens : StaticTokens}
    (hauth : b.plane.auth = some tokens) {i : ℕ} {w : World} {f : Subscribe}
    (h : (w.sessions.get i).phase = .authenticating f) : b.settle i w
      = w.step (.session i (.authenticated (authenticateToken tokens f.token))) := by
  rw [settle, h, hauth]

/-- **A wakeup of a bench**: the session it wakes up is not left waiting for an answer, and is
attached by the subscribe it was woken up with, or as before. -/
theorem wake_cases (b : Bench) {tokens : StaticTokens} (hauth : b.plane.auth = some tokens) {i : ℕ}
    (hi : ∀ f, (b.sessions.get i).phase ≠ .authenticating f) (e : SessionEvent) :
    ∃ s, (∀ j, (b.step (.wake i e)).sessions.get j = if j = i then s else b.sessions.get j) ∧
      (∀ f, s.phase ≠ .authenticating f) ∧
      ∀ l, s.phase.locals? = some l → (b.sessions.get i).phase.locals? = some l ∨
        (b.sessions.get i).phase.locals? = none ∧ ∃ f, e = .received (.frame (.subscribe f)) ∧
          authenticateToken tokens f.token = .identity l.identity := by
  change ∃ s, (∀ j, (b.settle i (b.world.step (.session i e))).sessions.get j = _) ∧ _
  rcases hstep : (b.world.sessions.get i).step? b.world.kit e with _ | ⟨call, s⟩
  · rw [World.step_session_of_none hstep, b.settle_of_ne hi]
    refine ⟨b.sessions.get i, fun j => ?_, hi, fun l hl => Or.inl hl⟩
    split
    · rename_i hj
      rw [hj]
      rfl
    · rfl
  · have hget : ∀ j, (b.world.step (.session i e)).sessions.get j
        = if j = i then s else b.sessions.get j := fun j => by
      rw [World.step_session hstep]
      exact Heap.get_modify b.sessions i j fun _ => s
    by_cases hasks : ∃ f, s.phase = .authenticating f
    · obtain ⟨f, hf⟩ := hasks
      obtain ⟨hreading, rfl⟩ := Session.reading_of_authenticating hstep hf
      have hnone : (b.sessions.get i).phase.locals? = none := by
        change (b.world.sessions.get i).phase.locals? = none
        rw [hreading]
        rfl
      generalize b.world.step (.session i (.received (.frame (.subscribe f)))) = w at hget ⊢
      have hphase : (w.sessions.get i).phase = .authenticating f := by rw [hget, if_pos rfl, hf]
      rw [settle_of_authenticating hauth hphase,
        World.step_session (Session.step?_authenticated hphase (authenticateToken tokens f.token))]
      refine ⟨(Session.authenticate w.kit (w.sessions.get i) f (authenticateToken tokens f.token)).2,
        fun j => ?_, fun f' => Session.not_authenticating_authenticate f f' _,
        fun l hl => Or.inr ⟨hnone, f, rfl, Session.locals?_authenticate hl⟩⟩
      rw [Heap.get_modify]
      split
      · rfl
      · rename_i hj
        rw [hget, if_neg hj]
    · have hnot : ∀ f, s.phase ≠ .authenticating f := fun f hf => hasks ⟨f, hf⟩
      rw [b.settle_of_ne (by rw [hget, if_pos rfl]; exact hnot)]
      refine ⟨s, hget, hnot, fun l hl => ?_⟩
      rcases (Session.did hstep).kept_or_attached with ⟨-, hkept⟩ | ⟨f, _, _, hphase, -⟩
      · exact Or.inl (hkept l hl)
      · exact absurd hphase (hi f)

theorem Named.wake {hint : PyStr} {es : List BenchEvent} (h : Named hint es) (i : ℕ)
    (e : SessionEvent) : Named hint (es ++ [.wake i e]) := by
  obtain ⟨s, hsessions, hasks, hlocals⟩ :=
    wake_cases (after hint es) (auth_after hint es) (h.answered i) e
  have hstep : ∀ j, (after hint (es ++ [.wake i e])).sessions.get j
      = if j = i then s else (after hint es).sessions.get j := fun j => by
    rw [← hsessions, after, run_concat]
    rfl
  refine ⟨fun j f hf => ?_, fun j l hl => ?_⟩
  · rw [hstep] at hf
    split at hf
    · exact hasks f hf
    · exact h.answered j f hf
  · rw [hstep] at hl
    split at hl
    · rename_i hj
      subst hj
      rcases hlocals l hl with hkept | ⟨hbefore, f, rfl, hanswer⟩
      · exact h.keeps hkept
      · obtain ⟨token, htoken, hget⟩ := get?_of_authenticateToken hanswer
        have hattached := (congrArg (·.phase.locals?) ((hstep j).trans (if_pos rfl))).trans hl
        exact ⟨es, [], f, rfl, hbefore, hattached, token, htoken, hget,
          lists_of_installTokens hget⟩
    · exact h.keeps hl

theorem named_after (hint : PyStr) (es : List BenchEvent) : Named hint es := by
  induction es using List.reverseRecOn with
  | nil => exact ⟨(fun i f hf => by cases hf), (fun i l hl => by cases hl)⟩
  | append_singleton es e ih =>
    rcases e with r | _ | requested | ⟨i, e⟩
    · refine ih.of_sessions ?_
      rw [after, run_concat]
      rfl
    · refine ih.of_sessions ?_
      rw [after, run_concat]
      rfl
    · exact ih.connect requested
    · exact ih.wake i e

/-- **Whoever is attached was listed.**  In every run, a client that is attached was attached by a
subscribe that it had sent, with a token that the request that last replaced the tokens before had
listed; it is who the authenticator held for that token then, whatever became of the tokens
since. -/
theorem identified (hint : PyStr) (es : List BenchEvent) {i : ℕ} {l : Locals}
    (h : ((after hint es).sessions.get i).phase.locals? = some l) :
    ∃ pre post f, es = pre ++ .wake i (.received (.frame (.subscribe f))) :: post ∧
      AttachedBy hint pre i f l :=
  (named_after hint es).named i l h

end Bench

namespace Bench

theorem identified_driverRun : ∃ pre post f,
    driverRun = pre ++ .wake 0 (.received (.frame (.subscribe f))) :: post ∧
      @AttachedBy .plain "ws" pre 0 f
        ⟨0, 0, { subject := "$TOKEN_OPERATOR", role := some .operator }⟩ :=
  @identified .plain "ws" driverRun 0 ⟨0, 0, _⟩ rfl

end Bench

end Lumencast
