import Lumencast.Sessions.Delivery

/-!
# Sessions/Speech — what a session says

Whatever a client sends, its session keeps to a grammar.  A client that is turned away is sent one
error, numbered `0`, and nothing of any scene.  A client that is attached is first sent all it is
opened with; after that, what comes out of its queue, mixed with replies: pongs, pings, and errors
that bear a number of the stream and the flag their code calls for.
-/

namespace Lumencast

open Machinery

/-- A frame that tells of a scene. -/
def Frame.ofScene : Frame → Bool
  | .snapshot _ => true
  | .delta _ => true
  | .sceneChanged _ => true
  | _ => false

/-- A frame a session writes past the queue of its client. -/
inductive Reply : Frame → Prop
  /-- An error: only a refused path is recoverable, and only an error that names none ends the
  session. -/
  | error {seq : ℤ} {code : ErrorCode} {path : Option PyStr} (message : PyStr) (hseq : 1 ≤ seq)
      (hcode : code ∈ [.writeForbidden, .unknownPath, .invalidValue, .versionMismatch, .internal])
      (hpath : path.isSome = true → code.recoverable false = true)
      (hnamed : code = .writeForbidden ∨ code = .unknownPath → path.isSome = true) :
      Reply (errorFrame seq code message (code.recoverable false) path)
  | pong (nonce : Json) : Reply (.pong nonce)
  | ping : Reply (.ping .null)

/-- What a session writes once its loops run: a reply, or a frame as it took it from its queue. -/
inductive Utterance (took : Letter → Prop) : Sent → Prop
  | reply {f : Frame} (h : Reply f) : Utterance took ⟨f, none⟩
  | passedOn {letter : Letter} (htook : took letter) (h : letter.frame.ofScene = true) :
      Utterance took ⟨letter.frame, some letter.issuer⟩

theorem Utterance.mono {took took' : Letter → Prop} (hle : ∀ letter, took letter → took' letter)
    {x : Sent} (h : Utterance took x) : Utterance took' x := by
  cases h with
  | reply h => exact .reply h
  | passedOn htook h => exact .passedOn (hle _ htook) h

theorem reply_refusal [PyRepr] {seq : ℤ} (hseq : 1 ≤ seq) (refusal : Refusal) :
    Reply (errorFrame seq refusal.code refusal.message (refusal.code != .authDenied)
      refusal.path) := by
  have hflag : (refusal.code != .authDenied) = refusal.code.recoverable false := by
    cases refusal <;> rfl
  rw [hflag]
  refine .error _ hseq ?_ ?_ ?_ <;> cases refusal <;> simp [Refusal.code, Refusal.path,
    ErrorCode.recoverable]

/-! ## What waits in a queue

Scenes are the only ones that put frames in a queue, and they put no others than these. -/

namespace Server

/-- Everything that waits in a queue tells of a scene. -/
def QueuesOfScenes (k : Server) : Prop :=
  ∀ r letter, some letter ∈ (k.subs.get r).queue.items → letter.frame.ofScene = true

theorem mem_queue_sendOrDrop {sub : Subscription} {msg letter : Letter}
    (h : some letter ∈ (sub.sendOrDrop msg).queue.items) :
    some letter ∈ sub.queue.items ∨ letter = msg := by
  rw [Subscription.queue_sendOrDrop] at h
  split at h
  · simpa using h
  · exact Or.inl h

theorem mem_queue_deliver {sc : Scene} {patches : Dict PyStr Json} {cause : Option Cause}
    {sub : Subscription} {letter : Letter}
    (h : some letter ∈ (sc.deliver patches cause sub).queue.items) :
    some letter ∈ sub.queue.items ∨
      letter = sc.deltaLetter (Scene.wirePatches patches.entries) cause := by
  rw [Scene.queue_deliver] at h
  split at h
  · simpa using h
  · exact Or.inl h

theorem queuesOfScenes_step {k : Server} (h : k.QueuesOfScenes) (op : Op) :
    (k.step op).QueuesOfScenes := by
  intro r letter hmem
  replace hmem := mem_queue_step hmem
  generalize k.act op = a at hmem
  cases a with
  | post c patches cause =>
      rw [handed] at hmem
      split at hmem
      · rcases mem_queue_deliver hmem with hold | rfl
        · exact h r letter hold
        · rfl
      · exact h r letter hmem
  | seed c patches =>
      rw [handed] at hmem
      split at hmem
      · rcases mem_queue_sendOrDrop hmem with hold | rfl
        · exact h r letter hold
        · rfl
      · exact h r letter hmem
  | move prev next =>
      rw [handed] at hmem
      split at hmem
      · rcases mem_queue_sendOrDrop hmem with hold | rfl
        · rcases mem_queue_sendOrDrop hold with hold | rfl
          · exact h r letter hold
          · rfl
        · rfl
      · exact h r letter hmem
  | _ => exact h r letter hmem

end Server

/-! ## One session

The grammar is an invariant with three clauses, one for each part of a session's life.  `took`
stands for what the session has taken from its queue; the run says what that is. -/

namespace Session

/-- What a session has said so far: nothing, or one error, as long as it has no subscription; then
what its client was opened with, and replies and frames out of its queue after all of that. -/
structure Spoken (took : SubRef → Letter → Prop) (k : Server) (s : Session) : Prop where
  fresh : s.phase.Fresh → s.written = []
  turnedAway : s.phase.sub? = none → s.written = [] ∨
    ∃ code message, (code = .authDenied ∨ code = .sceneNotFound) ∧
      s.written = [⟨errorFrame 0 code message (code.recoverable false) none, none⟩]
  attached : ∀ r, s.phase.sub? = some r → ∃ (opened later : List Sent) (rest : List Frame),
    s.written = opened ++ later ∧ (later = [] ∨ rest = []) ∧
      opened.map (·.frame) ++ rest = (k.subs.get r).opening.frames ∧
      (∀ x ∈ opened, x.issuer.isSome = true) ∧ (∀ x ∈ later, Utterance (took r) x) ∧
      (s.phase.locals?.isSome = true → rest = s.phase.pending)

section Stretch

variable {took took' : SubRef → Letter → Prop} {k k' : Server} {s s' : Session}

theorem Spoken.mono (h : s.Spoken took k) (hle : ∀ r letter, took r letter → took' r letter) :
    s.Spoken took' k where
  fresh := h.fresh
  turnedAway := h.turnedAway
  attached r hr := by
    obtain ⟨opened, later, rest, hwritten, hone, hopening, hissued, hsaid, hrest⟩ := h.attached r hr
    exact ⟨opened, later, rest, hwritten, hone, hopening, hissued,
      fun x hx => (hsaid x hx).mono (hle r), hrest⟩

/-- A session that has said nothing. -/
theorem spoken_silent (hs : s.written = []) {p : Phase} (hp : p.sub? = none) :
    (s.goto p).Spoken took k where
  fresh _ := hs
  turnedAway _ := Or.inl hs
  attached r hr := by
    change p.sub? = some r at hr
    rw [hp] at hr
    cases hr

/-- A client that is turned away. -/
theorem spoken_reject (hs : s.written = []) {code : ErrorCode}
    (hcode : code = .authDenied ∨ code = .sceneNotFound) (message : PyStr) :
    (s.reject code message).Spoken took k where
  fresh h := h.elim
  turnedAway _ := by
    refine Or.inr ⟨code, message, hcode, ?_⟩
    have hflag : code.recoverable false = false := by rcases hcode with rfl | rfl <;> rfl
    rw [reject, write, hs, hflag]
    rfl
  attached _ hr := by cases hr

/-- A session that goes on without its client. -/
theorem Spoken.leaving (h : s.Spoken took k) (hsub : s.phase.sub? = none) {p : Phase}
    (hp : p = .closing ∨ p = .ended none) : (s.goto p).Spoken took k where
  fresh hfresh := by rcases hp with rfl | rfl <;> exact hfresh.elim
  turnedAway _ := h.turnedAway hsub
  attached r hr := by rcases hp with rfl | rfl <;> cases hr

/-- Nothing is said, and what was to be sent first still is. -/
theorem Spoken.still {p : Phase} (h : s.Spoken took k) (hfresh : ¬ p.Fresh)
    (hsub : p.sub? = s.phase.sub?)
    (hpending : p.locals?.isSome = true →
      s.phase.locals?.isSome = true ∧ p.pending = s.phase.pending) : (s.goto p).Spoken took k where
  fresh hp := absurd hp hfresh
  turnedAway hnone := h.turnedAway (hsub ▸ hnone)
  attached r hr := by
    obtain ⟨opened, later, rest, hwritten, hone, hopening, hissued, hsaid, hrest⟩ :=
      h.attached r (hsub ▸ hr)
    refine ⟨opened, later, rest, hwritten, hone, hopening, hissued, hsaid, fun hlocals => ?_⟩
    obtain ⟨hbefore, hsame⟩ := hpending hlocals
    exact (hrest hbefore).trans hsame.symm

/-- Something is said once the loops run. -/
theorem Spoken.says {l : Locals} {ls ls' : Loops} (h : s.Spoken took k)
    (hphase : s.phase = .running l ls) {f : Frame} {issuer : Option SceneRef}
    (hf : Utterance (took l.sub) ⟨f, issuer⟩) :
    (s.write f issuer (.running l ls')).Spoken took k where
  fresh hp := hp.elim
  turnedAway hnone := by cases hnone
  attached r hr := by
    cases hr
    obtain ⟨opened, later, rest, hwritten, -, hopening, hissued, hsaid, hrest⟩ :=
      h.attached l.sub (by rw [hphase]; rfl)
    have hnone : rest = [] := by
      rw [hrest (by rw [hphase]; rfl), hphase]
      rfl
    refine ⟨opened, later ++ [⟨f, issuer⟩], rest, ?_, Or.inr hnone, hopening, hissued, ?_,
      fun _ => hnone⟩
    · rw [write, hwritten, List.append_assoc]
    · intro x hx
      rcases List.mem_append.mp hx with hx | hx
      · exact hsaid x hx
      · rw [List.mem_singleton.mp hx]
        exact hf

/-- What is done to the kit takes nothing back. -/
theorem Spoken.step_kit (h : s.Spoken took k) (hlt : ∀ r, s.phase.sub? = some r → r < k.subs.next)
    (op : Op) : s.Spoken took (k.step op) where
  fresh := h.fresh
  turnedAway := h.turnedAway
  attached r hr := by
    obtain ⟨opened, later, rest, hwritten, hone, hopening, hissued, hsaid, hrest⟩ := h.attached r hr
    refine ⟨opened, later, rest, hwritten, hone, ?_, hissued, hsaid, hrest⟩
    rw [Server.opening_step (hlt r hr) op]
    exact hopening

theorem Spoken.perform (h : s.Spoken took k) (hlt : ∀ r, s.phase.sub? = some r → r < k.subs.next)
    (call : Option Call) : s.Spoken took (k.perform call) := by
  cases call with
  | none => exact h
  | some call => exact h.step_kit hlt call.op

/-- The next initial frame is sent, or the loops start. -/
theorem Spoken.sendInitial {l : Locals} {frames : List Frame}
    (h : (s.goto (.initial l frames)).Spoken took k) : (s.sendInitial l frames).Spoken took k := by
  obtain ⟨opened, later, rest, hwritten, hone, hopening, hissued, hsaid, hrest⟩ :=
    h.attached l.sub rfl
  have hpending : rest = frames := hrest rfl
  rcases frames with _ | ⟨f, frames⟩
  · refine ⟨fun hp => hp.elim, (fun hnone => by cases hnone), fun r hr => ?_⟩
    cases hr
    exact ⟨opened, later, rest, hwritten, hone, hopening, hissued, hsaid, fun _ => hpending⟩
  · have hlater : later = [] := hone.resolve_right fun hnil => by
      rw [hpending] at hnil
      cases hnil
    refine ⟨fun hp => hp.elim, (fun hnone => by cases hnone), fun r hr => ?_⟩
    cases hr
    refine ⟨opened ++ [⟨f, some l.scene⟩], [], frames, ?_, Or.inl rfl, ?_, ?_, ?_, fun _ => rfl⟩
    · change s.written ++ _ = _
      change s.written = _ at hwritten
      rw [hwritten, hlater, List.append_nil, List.append_nil]
    · rw [List.map_append, List.append_assoc, ← hopening, hpending]
      rfl
    · intro x hx
      rcases List.mem_append.mp hx with hx | hx
      · exact hissued x hx
      · rw [List.mem_singleton.mp hx]
        rfl
    · exact fun x hx => absurd hx List.not_mem_nil

/-- **A client is attached.** -/
theorem spoken_attach (hs : s.written = []) {c : SceneRef} (hc : c < k.objects.next) (live : Bool)
    (since : Option ℤ) (identity : Identity) :
    (s.goto (.initial ⟨c, k.subs.next, identity⟩
      (openingFrames ((k.objects.get c).resumeAnswer since)))).Spoken took
        (k.step (.scene c (.subscribeWithResume live since))) where
  fresh _ := hs
  turnedAway hnone := by cases hnone
  attached r hr := by
    cases hr
    refine ⟨[], [], openingFrames ((k.objects.get c).resumeAnswer since), hs, Or.inl rfl, ?_,
      fun x hx => absurd hx List.not_mem_nil, fun x hx => absurd hx List.not_mem_nil, fun _ => rfl⟩
    rw [Server.step_subscribeWithResume hc, Server.sub_attach_next, frames_openingOf]
    rfl

theorem code_of_resolveScene {f : Subscribe} {identity : Identity} {code : ErrorCode}
    {message : PyStr} (h : k.resolveScene f identity = .ok (.error (code, message))) :
    code = .authDenied ∨ code = .sceneNotFound := by
  unfold Server.resolveScene at h
  repeat' split at h
  all_goals cases h
  all_goals simp

/-- **What the authenticator's answer leads to.** -/
theorem spoken_authenticate (hs : s.written = []) (hwf : k.Wf) (f : Subscribe) (a : Authentication) :
    (s.authenticate k f a).2.Spoken took (k.perform (s.authenticate k f a).1) := by
  cases a with
  | identity identity =>
      rw [authenticate]
      split
      · rw [letIn]
        split
        · exact spoken_silent hs rfl
        · rename_i code message hscene
          exact spoken_reject hs (code_of_resolveScene hscene) message
        · rename_i c hscene
          have hc := hwf.registered_lt c (Server.registered_of_resolveScene hscene)
          exact (spoken_attach hs hc f.live f.sinceSequence identity).sendInitial
      · exact spoken_reject hs (Or.inl rfl) _
  | denied message => exact spoken_reject hs (Or.inl rfl) message
  | raised => exact spoken_silent hs rfl

theorem spoken_readSubscribe (hs : s.written = []) (r : Received) :
    (s.readSubscribe r).Spoken took k := by
  unfold readSubscribe
  split
  · exact spoken_silent hs rfl
  · exact spoken_reject hs (Or.inl rfl) _
  · exact spoken_silent hs rfl
  · exact spoken_reject hs (Or.inl rfl) _
  · exact spoken_reject hs (Or.inl rfl) _

variable [PyRepr]

theorem spoken_receive {l : Locals} {ls : Loops} (h : s.Spoken took k) (hwf : k.Wf)
    (hphase : s.phase = .running l ls) (r : Received) : (s.receive k l ls r).2.Spoken took k := by
  have hseq : 1 ≤ (k.objects.get l.scene).currentSeq := hwf.seq_pos l.scene
  have hgoto : ∀ ls', (s.goto (.running l ls')).Spoken took k := fun ls' =>
    h.still id (by rw [hphase]; rfl) fun _ => by rw [hphase]; exact ⟨rfl, rfl⟩
  rcases r with f | message | message | message
  · rcases f with f | f | f | f | nonce | nonce | f | f | _
    case input =>
      change (s.input k l ls f).2.Spoken took k
      rw [input]
      split
      · exact hgoto _
      · exact hgoto _
      · exact h.says hphase (.reply (reply_refusal hseq _))
    case ping => exact h.says hphase (.reply (.pong nonce))
    case subscribe =>
      exact h.says hphase (.reply (@Reply.error _ .internal none _ hseq (by simp) (by simp)
        (by simp)))
    all_goals exact hgoto _
  · exact h.says hphase (.reply (@Reply.error _ .versionMismatch none _ hseq (by simp) (by simp)
      (by simp)))
  · exact h.says hphase (.reply (@Reply.error _ .internal none _ hseq (by simp) (by simp)
      (by simp)))
  · exact hgoto _

/-- What the loops say, when the writer is given the letter at the head of the queue. -/
theorem spoken_looped {l : Locals} {ls : Loops} (h : s.Spoken took k) (hwf : k.Wf)
    (hqueues : k.QueuesOfScenes) (hphase : s.phase = .running l ls) {e : SessionEvent}
    (htook : e = .dequeued → ls.writer = .getting → ∀ letter,
      (k.subs.get l.sub).queue.items.head? = some (some letter) → took l.sub letter)
    {call : Option Call} (hlooped : Looped k s l ls e call s') : s'.Spoken took k := by
  have hgoto : ∀ ls', (s.goto (.running l ls')).Spoken took k := fun ls' =>
    h.still id (by rw [hphase]; rfl) fun _ => by rw [hphase]; exact ⟨rfl, rfl⟩
  rcases hlooped with @⟨hreader, r⟩ | hsent | @⟨item, sub, hwriter, hget⟩ | _ | _ | _ | _
  case received => exact spoken_receive h hwf hphase r
  case readerSent =>
    obtain ⟨ls', rfl, -⟩ := readerSent_eq_some hsent
    exact hgoto ls'
  case dequeued =>
    rcases item with _ | letter
    · exact hgoto _
    · obtain ⟨⟨a, q⟩, hq, heq⟩ := Option.map_eq_some_iff.mp hget
      cases heq
      have hitems := (BoundedQueue.items_of_getNowait hq).1
      refine h.says hphase (.passedOn (htook rfl hwriter letter ?_) (hqueues l.sub letter ?_))
      · rw [hitems]
        rfl
      · rw [hitems]
        exact List.mem_cons_self
  case pingDue => exact h.says hphase (.reply .ping)
  case gathered =>
    exact h.still id (by rw [hphase]; rfl) fun hlocals => by cases hlocals
  all_goals exact hgoto _

/-- **What a stretch of a session adds to what it has said.** -/
theorem spoken_step? (h : s.Spoken took k) (hwf : k.Wf) (hqueues : k.QueuesOfScenes)
    (hlt : ∀ r, s.phase.sub? = some r → r < k.subs.next) {e : SessionEvent}
    (htook : e = .dequeued → ∀ l ls letter, s.phase = .running l ls → ls.writer = .getting →
      (k.subs.get l.sub).queue.items.head? = some (some letter) → took l.sub letter)
    {call : Option Call} (hstep : s.step? k e = some (call, s')) :
    s'.Spoken took (k.perform call) := by
  rcases stepped hstep with ⟨hphase, -, rfl | rfl⟩ | ⟨hphase | hphase | hphase, -, hp⟩ |
    ⟨hphase, r⟩ | hphase | @⟨f, a, _, _, hphase, hanswered⟩ | hphase |
    @⟨l, rest, hphase⟩ | @⟨l, rest, hphase⟩ | @⟨l, rest, hphase⟩ |
    @⟨l, ls, _, _, _, hphase, hlooped⟩
  case accepted.inl | accepted.inr =>
    exact spoken_silent (h.fresh (by rw [hphase]; trivial)) rfl
  case closed.inl | closed.inr.inl | closed.inr.inr =>
    exact h.leaving (by rw [hphase]; rfl) hp
  case read => exact spoken_readSubscribe (h.fresh (by rw [hphase]; trivial)) r
  case readCancelled =>
    exact spoken_reject (h.fresh (by rw [hphase]; trivial)) (Or.inl rfl) _
  case answered =>
    have hanswer : s.authenticate k f a = (call, s') := by
      unfold step? at hstep
      rw [hphase] at hstep
      exact Option.some.inj hstep
    have hspoken := @spoken_authenticate took k s (h.fresh (by rw [hphase]; trivial)) hwf f a
    rwa [hanswer] at hspoken
  case answerCancelled => exact spoken_silent (h.fresh (by rw [hphase]; trivial)) rfl
  case initialSent =>
    have hs : s.goto (.initial l rest) = s := by rw [goto, ← hphase]
    exact (hs.symm ▸ h : (s.goto (.initial l rest)).Spoken took k).sendInitial
  case initialFailed =>
    refine (h.still id (by rw [hphase]; rfl) fun hlocals => by cases hlocals).perform ?_ _
    exact fun r hr => hlt r (by rw [hphase]; exact hr)
  case initialCancelled =>
    exact h.still id (by rw [hphase]; rfl) fun hlocals => by cases hlocals
  case running =>
    have hspoken := spoken_looped h hwf hqueues hphase
      (fun he hwriter letter => htook he l ls letter hphase hwriter) hlooped
    refine hspoken.perform (fun r hr => ?_) call
    rcases (did hstep).kept_or_attached with ⟨hsub, -⟩ | ⟨f, identity, c, hauth, -⟩
    · exact hlt r (hsub ▸ hr)
    · rw [hphase] at hauth
      cases hauth

end Stretch

end Session

/-! ## Any interleaving

Each letter that a session passes on was at the head of a queue when its writer was woken up for
one.  The run is what remembers it, so the invariant is about the run and not about the world it
leads to. -/

namespace World

variable [PyRepr]

/-- At some point of the run, the writer of the session `i` waited for the queue of its subscription
`r`, and was woken up with the letter at the head of it. -/
def Took (es : List Event) (i : ℕ) (r : SubRef) (letter : Letter) : Prop :=
  ∃ pre post l ls, es = pre ++ .session i .dequeued :: post ∧
    ((after pre).sessions.get i).phase = .running l ls ∧ ls.writer = .getting ∧ l.sub = r ∧
    ((after pre).kit.subs.get r).queue.items.head? = some (some letter)

theorem Took.concat {es : List Event} {i : ℕ} {r : SubRef} {letter : Letter}
    (h : Took es i r letter) (e : Event) : Took (es ++ [e]) i r letter := by
  obtain ⟨pre, post, l, ls, rfl, htook⟩ := h
  exact ⟨pre, post ++ [e], l, ls, by rw [List.append_assoc, List.cons_append], htook⟩

theorem queuesOfScenes_kit_step {w : World} (h : w.kit.QueuesOfScenes) (e : Event) :
    (w.step e).kit.QueuesOfScenes := by
  rw [kit_step]
  split
  · exact h
  · exact Server.queuesOfScenes_step h _

/-- What one event adds to what a session has said. -/
theorem spoken_step {w : World} (hwf : w.Wf) (hqueues : w.kit.QueuesOfScenes) {i : ℕ}
    {took : SubRef → Letter → Prop} (h : (w.sessions.get i).Spoken took w.kit) (e : Event)
    (htook : e = .session i .dequeued → ∀ l ls letter, (w.sessions.get i).phase = .running l ls →
      ls.writer = .getting → (w.kit.subs.get l.sub).queue.items.head? = some (some letter) →
        took l.sub letter) :
    ((w.step e).sessions.get i).Spoken took (w.step e).kit := by
  rcases (w.did e).session_cases i with hsame | ⟨requested, hnew, -⟩ |
    ⟨a, call, s, rfl, hstep, hs, hkit⟩
  · rw [hsame, kit_step]
    split
    · exact h
    · exact h.step_kit (hwf.sub_lt i) _
  · rw [hnew]
    refine ⟨fun _ => rfl, fun _ => Or.inl rfl, fun r hr => ?_⟩
    rw [Session.sub?_connecting] at hr
    cases hr
  · rw [hs, hkit]
    exact Session.spoken_step? h hwf.kit hqueues (hwf.sub_lt i) (fun he => htook (he ▸ rfl)) hstep

/-- What every session of a world has said, wherever its frames came from. -/
structure AllSpoken (w : World) : Prop where
  wf : w.Wf
  queues : w.kit.QueuesOfScenes
  spoken : ∀ i, (w.sessions.get i).Spoken (fun _ _ => True) w.kit

theorem AllSpoken.step {w : World} (h : w.AllSpoken) (e : Event) : (w.step e).AllSpoken :=
  ⟨wf_step w e h.wf, queuesOfScenes_kit_step h.queues e,
    fun i => spoken_step h.wf h.queues (h.spoken i) e fun _ _ _ _ _ _ _ => trivial⟩

theorem allSpoken_after (es : List Event) : (after es).AllSpoken :=
  run_invariant ⟨wf_start Server.wf_empty, fun _ _ h => absurd h List.not_mem_nil,
    fun _ => ⟨fun _ => rfl, fun _ => Or.inl rfl, fun _ hr => by cases hr⟩⟩
    (fun _ e h => h.step e) es

/-- What a session of a run has said, with where in the run its frames came from. -/
theorem spoken_after (es : List Event) (i : ℕ) :
    ((after es).sessions.get i).Spoken (Took es i) (after es).kit := by
  induction es using List.reverseRecOn with
  | nil => exact ⟨fun _ => rfl, fun _ => Or.inl rfl, fun _ hr => by cases hr⟩
  | append_singleton es e ih =>
    have hspoken := allSpoken_after es
    have hkept := ih.mono fun _ _ htook => htook.concat e
    rw [after, run_concat]
    refine spoken_step hspoken.wf hspoken.queues hkept e ?_
    rintro rfl l ls letter hphase hwriter hhead
    exact ⟨es, [], l, ls, rfl, hphase, hwriter, rfl, hhead⟩

/-- **Every session keeps to the grammar**, whatever its client sends and whatever the interleaving.
A client without a subscription has been sent nothing, or one error that ends the session; one with
a subscription, what it is opened with, and only after all of it replies and the frames its writer
took from the queue of that subscription. -/
theorem grammatical (es : List Event) (i : ℕ) :
    (((after es).sessions.get i).phase.sub? = none →
      ((after es).sessions.get i).written = [] ∨ ∃ code message,
        (code = .authDenied ∨ code = .sceneNotFound) ∧ ((after es).sessions.get i).written
          = [⟨errorFrame 0 code message (code.recoverable false) none, none⟩]) ∧
      ∀ r, ((after es).sessions.get i).phase.sub? = some r →
        ∃ (opened later : List Sent) (rest : List Frame),
          ((after es).sessions.get i).written = opened ++ later ∧ (later = [] ∨ rest = []) ∧
          opened.map (·.frame) ++ rest = ((after es).kit.subs.get r).opening.frames ∧
          ∀ x ∈ later, Utterance (Took es i r) x := by
  have h := spoken_after es i
  refine ⟨h.turnedAway, fun r hr => ?_⟩
  obtain ⟨opened, later, rest, hwritten, hone, hopening, -, hsaid, -⟩ := h.attached r hr
  exact ⟨opened, later, rest, hwritten, hone, hopening, hsaid⟩

end World

end Lumencast
