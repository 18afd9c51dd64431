import Lumencast.Sessions.World

/-!
# Sessions/Reconnect — resuming on the wrong scene

A client comes back with the last number it saw, and numbers are counted by each scene for itself.
The live scene is resolved anew when it comes back, so the records it is given may continue another
scene than the one its state is of.  `extendsOwn_iff` says when they do not.
-/

namespace Lumencast

open Machinery

/-- The last frame with a number, among the first `m` frames a session was sent. -/
def Session.lastNumbered (s : Session) (m : ℕ) : Option Sent :=
  ((s.written.take m).filter fun x => x.frame.seq?.isSome).getLast?

namespace World

variable [PyRepr]

/-! ## What a client comes back with

What a client has seen is a start of what its session was sent; the server does not learn how much
of it.  An error frame counts: it bears a number too, read off the scene that the session is served
from. -/

/-- At some point of the run, the client of the session `j` was served from `c`. -/
def ServedBy (es : List Event) (j : ℕ) (c : SceneRef) : Prop :=
  ∃ pre l, pre <+: es ∧ ((after pre).sessions.get j).phase.locals? = some l ∧ l.scene = c

/-- The number of a frame that the session `j` was sent is from the counter of `c`. -/
inductive NumberedBy (es : List Event) (j : ℕ) (c : SceneRef) (x : Sent) : Prop
  /-- A frame of the stream, numbered by whoever issued it. -/
  | stream (hissuer : x.issuer = some c)
  /-- An error, numbered by the scene of the session. -/
  | error {f : ErrorFrame} (hissuer : x.issuer = none) (hframe : x.frame = .error f)
      (hserved : ServedBy es j c)

/-- The client of the session `j`, having received the first `m` frames it was sent, saw `n` last, a
number of `c`. -/
def Observed (es : List Event) (j m : ℕ) (n : ℤ) (c : SceneRef) : Prop :=
  ∃ x, ((after es).sessions.get j).lastNumbered m = some x ∧ x.frame.seq? = some n ∧
    NumberedBy es j c x

/-- The client of the session `j`, having received the first `m` frames it was sent, is back: as the
session `i` it asks the live endpoint for what came after `n`, the last number it saw, of the scene
`c`; and it is authenticated. -/
def Returns (j m i : ℕ) (es : List Event) (e : Event) (n : ℤ) (c : SceneRef) : Prop :=
  ∃ f identity, e = .session i (.authenticated (.identity identity)) ∧
    identity.isAuthenticated = true ∧ ((after es).sessions.get i).phase = .authenticating f ∧
    f.scene = .str "" ∧ f.sinceSequence = some n ∧ Observed es j m n c

/-- If the client of `j` is back as `i` and is answered with records, they are those of the scene
that issued the last number it saw. -/
def ExtendsOwn (j m i : ℕ) (es : List Event) (e : Event) : Prop :=
  ∀ n c, Returns j m i es e n c → ∀ l records,
    ((after (es ++ [e])).sessions.get i).phase.locals? = some l →
    ((after (es ++ [e])).kit.subs.get l.sub).opening = .replay records → l.scene = c

/-- If the client of `j` is back as `i`, the active scene is the one that issued the last number it
saw, or that number is out of its reach: above its counter, or too far below the oldest record of
its ring. -/
def NoDrift (j m i : ℕ) (es : List Event) (e : Event) : Prop :=
  ∀ n c, Returns j m i es e n c → ∀ c', (after es).kit.activeScene = some c' →
    c' = c ∨ n < 1 ∨ ((after es).kit.objects.get c').currentSeq < n ∨
    ∃ earliest, ((after es).kit.objects.get c').replay.records.items.head? = some earliest ∧
      n + 1 < earliest.seq

end World

/-- Which numbers a scene resumes a client from. -/
theorem Scene.resumes_some_iff {sc : Scene} {n : ℤ} : sc.resumes (some n) = true ↔
    1 ≤ n ∧ n ≤ sc.currentSeq ∧
      ∀ earliest, sc.replay.records.items.head? = some earliest → earliest.seq ≤ n + 1 := by
  rw [resumes, Bool.and_eq_true, Bool.and_eq_true, decide_eq_true_iff, decide_eq_true_iff,
    ReplayBuffer.covered_iff, and_assoc]
  rfl

/-- An answer is remembered as records exactly when the client resumes. -/
theorem Scene.openingOf_eq_replay {sc : Scene} {since : Option ℤ} :
    (∃ records, openingOf (sc.resumeAnswer since) = .replay records) ↔ sc.resumes since = true := by
  rw [resumeAnswer]
  split
  · rename_i h
    exact iff_of_true ⟨_, rfl⟩ h
  · rename_i h
    exact iff_of_false (by rintro ⟨_, ⟨⟩⟩) h

namespace World

variable [PyRepr]

/-- A client of the live endpoint is attached to the active scene, if there is one. -/
theorem step_returns {w : World} (hwf : w.Wf) {i : ℕ} {f : Subscribe} {identity : Identity}
    (hauth : identity.isAuthenticated = true)
    (hphase : (w.sessions.get i).phase = .authenticating f) (hscene : f.scene = .str "")
    {c : SceneRef} {opening : Opening} :
    (∃ l, ((w.step (.session i (.authenticated (.identity identity)))).sessions.get i).phase.locals?
        = some l ∧ l.scene = c ∧
      ((w.step (.session i (.authenticated (.identity identity)))).kit.subs.get l.sub).opening
        = opening) ↔
    w.kit.activeScene = some c ∧
      opening = Scene.openingOf ((w.kit.objects.get c).resumeAnswer f.sinceSequence) := by
  have hstep : (w.sessions.get i).step? w.kit (.authenticated (.identity identity))
      = some ((w.sessions.get i).letIn w.kit f identity) := by
    unfold Session.step?
    rw [hphase]
    dsimp only
    rw [Session.authenticate, if_pos hauth]
  rw [step, hstep, Session.letIn, Server.resolveScene_live hscene]
  rcases hactive : w.kit.activeScene with _ | c'
  · dsimp only [Option.elim]
    rw [Heap.get_modify_self]
    exact iff_of_false (by rintro ⟨_, ⟨⟩, _⟩) (by rintro ⟨⟨⟩, _⟩)
  · have hc' : c' < w.kit.objects.next :=
      hwf.kit.registered_lt c' (Server.registered_of_activeScene hactive)
    have hkit : w.kit.perform (some (.subscribeWithResume c' f.live f.sinceSequence))
        = w.kit.attach c' f.live
          (Scene.openingOf ((w.kit.objects.get c').resumeAnswer f.sinceSequence)) :=
      Server.step_subscribeWithResume hc' ..
    dsimp only [Option.elim]
    rw [hkit, Heap.get_modify_self, Session.locals?_sendInitial]
    simp only [Option.some.injEq, exists_eq_left', Server.sub_attach_next]
    constructor
    · rintro ⟨rfl, hopening⟩
      exact ⟨rfl, hopening.symm⟩
    · rintro ⟨rfl, hopening⟩
      exact ⟨rfl, hopening.symm⟩

/-- A session is served from one scene, as long as it is served. -/
theorem locals_of_run {es : List Event} {j : ℕ} {l : Locals}
    (hl : ((after es).sessions.get j).phase.locals? = some l) (fs : List Event) :
    ((after (es ++ fs)).sessions.get j).phase.sub? ≠ none ∧
      ∀ l', ((after (es ++ fs)).sessions.get j).phase.locals? = some l' → l' = l := by
  induction fs using List.reverseRecOn with
  | nil =>
    rw [List.append_nil, Phase.sub?_of_locals? hl, hl]
    exact ⟨Option.some_ne_none _, fun l' h => (Option.some.inj h).symm⟩
  | append_singleton fs e ih =>
    rw [← List.append_assoc]
    generalize es ++ fs = gs at ih
    rw [after, run_concat]
    change ((step (after gs) e).sessions.get j).phase.sub? ≠ none ∧
      ∀ l', ((step (after gs) e).sessions.get j).phase.locals? = some l' → l' = l
    rcases ((after gs).did e).session_cases j with hsame | ⟨requested, -, hle, -⟩ |
      ⟨a, call, s, -, hstep, hs, -⟩
    · rw [hsame]
      exact ih
    · exact absurd (by rw [(wf_after gs).blank j hle]; rfl) ih.1
    · rw [hs]
      rcases (Session.did hstep).kept_or_attached with ⟨hsub, hkept⟩ | ⟨f, _, _, hphase, -, -, -⟩
      · exact ⟨hsub ▸ ih.1, fun l' hl' => ih.2 l' (hkept l' hl')⟩
      · exact absurd (by rw [hphase]; rfl) ih.1

/-- So it has one scene… -/
theorem ServedBy.unique {es : List Event} {j : ℕ} {c c' : SceneRef} (h : ServedBy es j c)
    (h' : ServedBy es j c') : c = c' := by
  obtain ⟨pre, l, hpre, hl, rfl⟩ := h
  obtain ⟨pre', l', hpre', hl', rfl⟩ := h'
  rcases List.prefix_or_prefix_of_prefix hpre hpre' with ⟨fs, rfl⟩ | ⟨fs, rfl⟩
  · rw [(locals_of_run hl fs).2 l' hl']
  · rw [(locals_of_run hl' fs).2 l hl]

/-- …and what a client saw last is one number of one scene. -/
theorem Observed.unique {es : List Event} {j m : ℕ} {n n' : ℤ} {c c' : SceneRef}
    (h : Observed es j m n c) (h' : Observed es j m n' c') : n = n' ∧ c = c' := by
  obtain ⟨x, hx, hn, hc⟩ := h
  obtain ⟨x', hx', hn', hc'⟩ := h'
  obtain rfl : x = x' := Option.some.inj (hx.symm.trans hx')
  refine ⟨Option.some.inj (hn.symm.trans hn'), ?_⟩
  rcases hc with hissuer | ⟨hnone, -, hserved⟩ <;>
    rcases hc' with hissuer' | ⟨hnone', -, hserved'⟩
  · exact Option.some.inj (hissuer.symm.trans hissuer')
  · cases hissuer.symm.trans hnone'
  · cases hnone.symm.trans hissuer'
  · exact hserved.unique hserved'

/-- **One return, judged before the client is attached.** -/
theorem extendsOwn_iff_noDrift (j m i : ℕ) (es : List Event) (e : Event) :
    ExtendsOwn j m i es e ↔ NoDrift j m i es e := by
  refine forall₃_congr fun n c h => ?_
  obtain ⟨f, identity, rfl, hauth, hphase, hscene, hsince, -⟩ := h
  have hanswer : ∀ {c' opening}, _ :=
    @step_returns _ (after es) (wf_after es) i f identity hauth hphase hscene
  have hreach : ∀ c', ((after es).kit.objects.get c').resumes f.sinceSequence = true ↔
      ¬ (n < 1 ∨ ((after es).kit.objects.get c').currentSeq < n ∨
        ∃ earliest, ((after es).kit.objects.get c').replay.records.items.head? = some earliest ∧
          n + 1 < earliest.seq) := fun c' => by
    rw [hsince, Scene.resumes_some_iff]
    simp only [not_or, not_lt, not_exists, not_and]
  have hstep : after (es ++ [.session i (.authenticated (.identity identity))])
      = (after es).step (.session i (.authenticated (.identity identity))) := run_concat ..
  rw [hstep]
  constructor
  · intro h c' hactive
    by_cases hresumes : ((after es).kit.objects.get c').resumes f.sinceSequence = true
    · obtain ⟨records, hrecords⟩ := Scene.openingOf_eq_replay.mpr hresumes
      obtain ⟨l, hl, rfl, hopening⟩ := hanswer.mpr ⟨hactive, rfl⟩
      exact Or.inl (h l records hl (hopening.trans hrecords))
    · exact Or.inr (by_contra fun hnot => hresumes ((hreach c').mpr hnot))
  · intro h l records hl hopening
    obtain ⟨hactive, hrecords⟩ := hanswer.mp ⟨l, hl, rfl, hopening⟩
    rcases h l.scene hactive with hc | hout
    · exact hc
    · exact absurd hout
        ((hreach l.scene).mp (Scene.openingOf_eq_replay.mp ⟨records, hrecords.symm⟩))

/-- **When a client that is back continues its own scene**: all along a run, and however much it has
received, exactly when no number drifts. -/
theorem extendsOwn_iff (j m i : ℕ) (es : List Event) :
    (∀ pre e post, es = pre ++ e :: post → ExtendsOwn j m i pre e) ↔
      ∀ pre e post, es = pre ++ e :: post → NoDrift j m i pre e :=
  forall₄_congr fun pre e _ _ => extendsOwn_iff_noDrift j m i pre e

/-- A viewer of `a` leaves; the active scene is switched to `b`, which has emitted; the viewer is
back. -/
def driftingRun : List Event :=
  [.trusted (.newScene "a" "v1" [] true), .trusted (.newScene "b" "v2" [] true),
    .trusted (.scene 1 (.emit (.ofList [("x", .int 1)]) none)),
    .connect ["lsdp.v1.1"], .session 0 (.sent true),
    .session 0 (.received (.frame (.subscribe { token := .str "t" }))),
    .session 0 (.authenticated (.identity { role := some .viewer })), .session 0 (.sent true),
    .session 0 .cancelled, .session 0 .gathered,
    .trusted (.setActive "b"), .connect ["lsdp.v1.1"], .session 1 (.sent true),
    .session 1 (.received (.frame (.subscribe { token := .str "t", sinceSequence := some 1 })))]

/-- The authenticator lets the viewer in that is back. -/
def viewerAdmitted : Event := .session 1 (.authenticated (.identity { role := some .viewer }))

/-- The same, but `b` has emitted twice, and the last frame that the viewer is sent is an error,
numbered as the emission of `a` that still waits in its queue. -/
def erringRun : List Event :=
  [.trusted (.newScene "a" "v1" [] true), .trusted (.newScene "b" "v2" [] true),
    .trusted (.scene 1 (.emit (.ofList [("x", .int 1)]) none)),
    .trusted (.scene 1 (.emit (.ofList [("x", .int 2)]) none)),
    .connect ["lsdp.v1.1"], .session 0 (.sent true),
    .session 0 (.received (.frame (.subscribe { token := .str "t" }))),
    .session 0 (.authenticated (.identity { role := some .viewer })), .session 0 (.sent true),
    .trusted (.scene 0 (.emit (.ofList [("x", .int 3)]) none)),
    .session 0 (.received (.frame (.input { patches := [] }))),
    .session 0 .cancelled, .session 0 .gathered,
    .trusted (.setActive "b"), .connect ["lsdp.v1.1"], .session 1 (.sent true),
    .session 1 (.received (.frame (.subscribe { token := .str "t", sinceSequence := some 2 })))]

end World

namespace World

/-- **Records of another scene**: the viewer of `driftingRun` has received the snapshot numbered `1`
of scene `0`, and is given the emission numbered `2` of scene `1`. -/
theorem driftingRun_mixes :
    @Observed .plain driftingRun 0 1 1 0 ∧
      ((@after .plain (driftingRun ++ [viewerAdmitted])).kit.subs.get 1).opening
        = .replay [⟨2, [⟨"x", .int 1, none⟩], none⟩] ∧
      ¬ ∀ pre e post, driftingRun ++ [viewerAdmitted] = pre ++ e :: post →
        @ExtendsOwn .plain 0 1 1 pre e := by
  have hobserved : @Observed .plain driftingRun 0 1 1 0 :=
    ⟨_, rfl, rfl, @NumberedBy.stream .plain _ _ _ _ rfl⟩
  have hopening : ((@after .plain (driftingRun ++ [viewerAdmitted])).kit.subs.get 1).opening
      = .replay [⟨2, [⟨"x", .int 1, none⟩], none⟩] := rfl
  refine ⟨hobserved, hopening, fun h => ?_⟩
  have hown := h driftingRun viewerAdmitted [] rfl 1 0
    ⟨{ token := .str "t", sinceSequence := some 1 }, { role := some .viewer }, rfl, rfl, rfl, rfl,
      rfl, hobserved⟩ ⟨1, 1, { role := some .viewer }⟩ _ rfl hopening
  exact absurd hown (by decide)

/-- An error is a number like any other: the viewer of `erringRun` saw the error numbered `2` of
scene `0` last, and is given the emission numbered `3` of scene `1`. -/
theorem extendsOwn_iff_erringRun :
    @Observed .plain erringRun 0 2 2 0 ∧
      ((@after .plain (erringRun ++ [viewerAdmitted])).kit.subs.get 1).opening
        = .replay [⟨3, [⟨"x", .int 2, none⟩], none⟩] ∧
      ¬ ∀ pre e post, erringRun ++ [viewerAdmitted] = pre ++ e :: post →
        @NoDrift .plain 0 2 1 pre e := by
  have hserved : @ServedBy .plain erringRun 0 0 :=
    ⟨erringRun.take 10, ⟨0, 0, { role := some .viewer }⟩, List.take_prefix .., rfl, rfl⟩
  have hobserved : @Observed .plain erringRun 0 2 2 0 :=
    ⟨_, rfl, rfl, @NumberedBy.error .plain _ _ _ _ _ rfl rfl hserved⟩
  have hopening : ((@after .plain (erringRun ++ [viewerAdmitted])).kit.subs.get 1).opening
      = .replay [⟨3, [⟨"x", .int 2, none⟩], none⟩] := rfl
  refine ⟨hobserved, hopening, fun h => ?_⟩
  have hown := (@extendsOwn_iff .plain 0 2 1 (erringRun ++ [viewerAdmitted])).mpr h erringRun
    viewerAdmitted [] rfl 2 0
    ⟨{ token := .str "t", sinceSequence := some 2 }, { role := some .viewer }, rfl, rfl, rfl, rfl,
      rfl, hobserved⟩ ⟨1, 1, { role := some .viewer }⟩ _ rfl hopening
  exact absurd hown (by decide)

end World

end Lumencast
