import Lumencast.Protocol.RoundTrip
import Lumencast.Sessions.Line

/-!
# Sessions/Ledger — what a number stands for

A scene numbers a delta once, and its copies then travel apart: through the queues of the
subscribers, the ring, the initial frames of clients that resume, and what the sessions write.
`emitted_of_held` leads every copy back to an emission of the run, and `emits_unique` says that no
two emissions of a scene share a number, so two copies with one number are the same frame
(`live_eq_replayed`).
-/

namespace Lumencast

open Machinery

namespace Scene

/-- The delta the next emission of `sc` is sent as. -/
def nextDelta (sc : Scene) (patches : Dict PyStr Json) (cause : Option Cause) : Delta where
  patches := wirePatches patches.entries
  seq := sc.currentSeq + 1
  cause := cause

/-- **What a client that resumes is handed**: the records of the ring after its number. -/
theorem mem_opening_iff {sc : Scene} {since : Option ℤ} {d : Delta} :
    .delta d ∈ openingFrames (sc.resumeAnswer since) ↔ sc.resumes since = true ∧
      ∃ r ∈ sc.replay.records.items, (∃ s, since = some s ∧ s < r.seq) ∧ r.delta = .delta d := by
  rw [resumeAnswer]
  split
  · rename_i hresumes
    rw [and_iff_right hresumes]
    rcases since with _ | s
    · exact absurd hresumes Bool.false_ne_true
    · rw [resumes, Bool.and_eq_true] at hresumes
      have hrecords : .delta d ∈ openingFrames (none, (sc.replay.since s).records) ↔
          ∃ r ∈ (sc.replay.since s).records, r.delta = .delta d := List.mem_map
      change .delta d ∈ openingFrames (none, (sc.replay.since s).records) ↔ _
      rw [hrecords, ReplayBuffer.records_of_covered hresumes.2]
      simp only [List.mem_filter, decide_eq_true_iff, Option.some.injEq, exists_eq_left', and_assoc]
  · rename_i hresumes
    exact iff_of_false (fun h => absurd (List.mem_singleton.mp h) (by simp)) fun h => hresumes h.1

end Scene

/-! ## Copies in the kit -/

namespace Server

variable {k : Server} {op : Op}

/-- What a step that does `a` leaves in the ring of `c`. -/
def recorded (c : SceneRef) (sc : Scene) : Act → ReplayBuffer
  | .post c' patches cause =>
      if c' = c then sc.replay.push ⟨sc.currentSeq + 1, Scene.wirePatches patches.entries, cause⟩
      else sc.replay
  | _ => sc.replay

theorem replay_step {c : SceneRef} (hc : c < k.objects.next) (op : Op) :
    ((k.step op).objects.get c).replay = recorded c (k.objects.get c) (k.act op) := by
  have hdid := did k op
  generalize k.act op = a at hdid ⊢
  generalize k.step op = k' at hdid ⊢
  rcases hdid with h | ⟨live, opening, -, -⟩ | @⟨c', patches, cause, -, -⟩ | ⟨-, -⟩ |
    @⟨prev, next, active, -, -, hne, hsome⟩
  · exact h.replay c hc
  · exact replay_attach ..
  · rw [scene_post, recorded]
    by_cases hcc : c = c'
    · rw [if_pos hcc, if_pos hcc.symm, hcc]
      rfl
    · rw [if_neg hcc, if_neg (Ne.symm hcc)]
  · exact replay_seed ..
  · exact replay_move active hsome hne c

/-- A scene that a step makes has an empty ring. -/
theorem replay_step_fresh {c : SceneRef} (hle : k.objects.next ≤ c)
    (hc : c < (k.step op).objects.next) :
    ((k.step op).objects.get c).replay = .new DEFAULT_REPLAY_BUFFER_SIZE := by
  have hdid := did k op
  generalize k.act op = a at hdid
  generalize k.step op = k' at hdid hc ⊢
  cases hdid with
  | quiet h => exact (h.fresh c hle hc).2
  | _ => exact absurd hc (not_lt.mpr hle)

/-- **What is in a ring after a step** was in it before, or has just been emitted. -/
theorem ring_step {c : SceneRef} (hc : c < (k.step op).objects.next) {r : ReplayRecord}
    (hr : r ∈ ((k.step op).objects.get c).replay.records.items) :
    (c < k.objects.next ∧ r ∈ (k.objects.get c).replay.records.items) ∨
      ∃ patches cause, k.act op = .post c patches cause ∧
        r.delta = .delta ((k.objects.get c).nextDelta patches cause) := by
  by_cases hlt : c < k.objects.next
  · rw [replay_step hlt] at hr
    unfold recorded at hr
    split at hr
    · rename_i c' patches cause hact
      split at hr
      · rename_i heq
        subst heq
        rcases BoundedDeque.mem_of_mem_append hr with hr | rfl
        · exact Or.inl ⟨hlt, hr⟩
        · exact Or.inr ⟨patches, cause, hact, rfl⟩
      · exact Or.inl ⟨hlt, hr⟩
    · exact Or.inl ⟨hlt, hr⟩
  · rw [replay_step_fresh (not_lt.mp hlt) hc] at hr
    exact absurd hr List.not_mem_nil

/-- **What waits in a queue after a step** waited in it before, or has just been emitted. -/
theorem queue_step (hwf : k.Wf) {r : SubRef} {letter : Letter} {d : Delta}
    (h : some letter ∈ ((k.step op).subs.get r).queue.items) (hd : letter.frame = .delta d) :
    some letter ∈ (k.subs.get r).queue.items ∨
      ∃ patches cause, k.act op = .post letter.issuer patches cause ∧
        d = (k.objects.get letter.issuer).nextDelta patches cause := by
  have hhanded := mem_queue_step h
  have hsent : ∀ {sub : Subscription} {msg : Letter}, some letter ∈ (sub.sendOrDrop msg).queue.items →
      (∀ d, msg.frame ≠ .delta d) → some letter ∈ sub.queue.items := fun hmem hmsg => by
    rw [Subscription.queue_sendOrDrop] at hmem
    split at hmem
    · rcases List.mem_append.mp hmem with hmem | hmem
      · exact hmem
      · cases List.mem_singleton.mp hmem
        exact absurd hd (hmsg d)
    · exact hmem
  rcases ha : k.act op with _ | c | ⟨c, patches, cause⟩ | ⟨c, patches⟩ | ⟨prev, next⟩ <;>
    rw [ha] at hhanded
  case quiet => exact Or.inl hhanded
  case attach => exact Or.inl hhanded
  case post =>
    rw [handed] at hhanded
    split at hhanded
    · rename_i ho
      rw [Scene.queue_deliver] at hhanded
      split at hhanded
      · rcases List.mem_append.mp hhanded with hmem | hmem
        · exact Or.inl hmem
        · cases List.mem_singleton.mp hmem
          have href : ((k.objects.get c).emitted patches cause).ref = c :=
            hwf.ref_eq c (hwf.owner_lt c r ho)
          have hissuer : (((k.objects.get c).emitted patches cause).deltaLetter
              (Scene.wirePatches patches.entries) cause).issuer = c := href
          rw [hissuer]
          exact Or.inr ⟨patches, cause, rfl, (Frame.delta.inj hd).symm⟩
      · exact Or.inl hhanded
    · exact Or.inl hhanded
  case seed =>
    rw [handed] at hhanded
    split at hhanded
    · exact Or.inl (hsent hhanded fun _ h => by cases h)
    · exact Or.inl hhanded
  case move =>
    rw [handed] at hhanded
    split at hhanded
    · exact Or.inl (hsent (hsent hhanded fun _ h => by cases h) fun _ h => by cases h)
    · exact Or.inl hhanded

theorem lt_of_act_eq_post {c : SceneRef} {patches : Dict PyStr Json} {cause : Option Cause}
    (h : k.act op = .post c patches cause) : c < k.objects.next := by
  have hdid := did k op
  rw [h] at hdid
  generalize k.step op = k' at hdid
  cases hdid with
  | post _ hc _ => exact hc

/-- Every ring has the default capacity. -/
def Ringed (k : Server) : Prop :=
  ∀ c, c < k.objects.next →
    (k.objects.get c).replay.records.maxlen = DEFAULT_REPLAY_BUFFER_SIZE

theorem ringed_step (h : k.Ringed) (op : Op) : (k.step op).Ringed := by
  intro c hc
  by_cases hlt : c < k.objects.next
  · rw [replay_step hlt]
    unfold recorded
    split
    · split
      · exact h c hlt
      · exact h c hlt
    · exact h c hlt
  · rw [replay_step_fresh (not_lt.mp hlt) hc]
    rfl

theorem ringed_after (ops : List Op) : (after ops).Ringed :=
  run_invariant (P := Ringed) (fun c hc => absurd hc (Nat.not_lt_zero c))
    (fun _ op h => ringed_step h op) ops

/-- **An emission is in the ring at once.** -/
theorem ring_post (h : k.Ringed) {c : SceneRef} {patches : Dict PyStr Json} {cause : Option Cause}
    (hact : k.act op = .post c patches cause) : c < (k.step op).objects.next ∧
      ∃ r ∈ ((k.step op).objects.get c).replay.records.items,
        r.delta = .delta ((k.objects.get c).nextDelta patches cause) := by
  have hlt := lt_of_act_eq_post hact
  have hroom : 0 < (k.objects.get c).replay.records.maxlen := by
    rw [h c hlt]
    decide
  refine ⟨hlt.trans_le (next_le_step k op).1, ?_⟩
  rw [replay_step hlt, hact, recorded, if_pos rfl]
  exact ⟨_, BoundedDeque.mem_append_self hroom _, rfl⟩

theorem drawn_nonneg (c : SceneRef) (a : Act) : 0 ≤ drawn c a := by
  rcases a with _ | _ | _ | _ | _ <;> simp only [drawn, le_refl]
  · split <;> omega
  · split <;> omega

end Server

/-! ## Copies in a session

A session is handed deltas out of the ring when its client resumes, and out of its queue
afterwards. -/

namespace Session

/-- The session was handed the frame `f` of the scene `c`: it has written it, or is to write it
before its loops start. -/
def Has (s : Session) (c : SceneRef) (f : Frame) : Prop :=
  ⟨f, some c⟩ ∈ s.written ∨ ∃ l, s.phase.locals? = some l ∧ l.scene = c ∧ f ∈ s.phase.pending

section Stretch

variable {k : Server} {s : Session} {l : Locals} {ls : Loops} {c : SceneRef} {f : Frame}

theorem has_goto {p : Phase} (hp : p.pending = []) (h : (s.goto p).Has c f) : s.Has c f := by
  rcases h with h | ⟨l, -, -, hpending⟩
  · exact Or.inl h
  · rw [goto, hp] at hpending
    exact absurd hpending List.not_mem_nil

theorem has_write {frame : Frame} {issuer : Option SceneRef} {p : Phase} (hp : p.pending = [])
    (h : (s.write frame issuer p).Has c f) : s.Has c f ∨ (frame = f ∧ issuer = some c) := by
  rcases h with h | ⟨l, -, -, hpending⟩
  · rcases List.mem_append.mp h with h | h
    · exact Or.inl (Or.inl h)
    · cases List.mem_singleton.mp h
      exact Or.inr ⟨rfl, rfl⟩
  · rw [write, hp] at hpending
    exact absurd hpending List.not_mem_nil

/-- A frame no scene numbered is no scene's. -/
theorem has_write_none {frame : Frame} {p : Phase} (hp : p.pending = [])
    (h : (s.write frame none p).Has c f) : s.Has c f :=
  (has_write hp h).resolve_right fun h => nomatch h.2

theorem has_sendInitial {frames : List Frame} (h : (s.sendInitial l frames).Has c f) :
    s.Has c f ∨ (l.scene = c ∧ f ∈ frames) := by
  rcases frames with _ | ⟨frame, rest⟩
  · exact Or.inl (has_goto rfl h)
  · rcases h with h | ⟨l', hl, hc, hpending⟩
    · rcases List.mem_append.mp h with h | h
      · exact Or.inl (Or.inl h)
      · cases List.mem_singleton.mp h
        exact Or.inr ⟨rfl, List.mem_cons_self⟩
    · cases hl
      exact Or.inr ⟨hc, List.mem_cons_of_mem _ hpending⟩

/-- Where a frame can come from that a session did not have: it is handed to a client that attaches
to `c`, or is waiting in a queue. -/
def Incoming (k : Server) (c : SceneRef) (f : Frame) : Prop :=
  (k.Registered c ∧ ∃ since, f ∈ openingFrames ((k.objects.get c).resumeAnswer since)) ∨
    ∃ r letter, some letter ∈ (k.subs.get r).queue.items ∧ letter.issuer = c ∧ letter.frame = f

theorem has_readSubscribe {r : Received} (h : (s.readSubscribe r).Has c f) : s.Has c f := by
  unfold readSubscribe at h
  split at h
  · exact has_goto rfl h
  · exact has_write_none rfl h
  · exact has_goto rfl h
  · exact has_write_none rfl h
  · exact has_write_none rfl h

theorem has_answered {g : Subscribe} {a : Authentication} {call : Option Call} {s' : Session}
    (hanswered : Answered k s g a call s') (h : s'.Has c f) : s.Has c f ∨ Incoming k c f := by
  rcases hanswered with ⟨-, hscene⟩ | _ | _
  · rcases has_sendInitial h with h | ⟨rfl, hf⟩
    · exact Or.inl h
    · exact Or.inr (Or.inl ⟨Server.registered_of_resolveScene hscene, _, hf⟩)
  · exact Or.inl (has_write_none rfl h)
  · exact Or.inl (has_goto rfl h)

variable [PyRepr]

theorem has_receive {r : Received} (h : (s.receive k l ls r).2.Has c f) : s.Has c f := by
  rcases r with g | message | message | message
  · rcases g with g | g | g | g | nonce | nonce | g | g | _
    case input =>
      change (s.input k l ls g).2.Has c f at h
      rw [input] at h
      dsimp only at h
      split at h
      · exact has_goto rfl h
      · exact has_goto rfl h
      · exact has_write_none rfl h
    case ping => exact has_write_none rfl h
    case subscribe => exact has_write_none rfl h
    all_goals exact has_goto rfl h
  · exact has_write_none rfl h
  · exact has_write_none rfl h
  · exact has_goto rfl h

theorem has_looped {e : SessionEvent} {call : Option Call} {s' : Session}
    (hlooped : Looped k s l ls e call s') (h : s'.Has c f) : s.Has c f ∨ Incoming k c f := by
  rcases hlooped with _ | hsent | @⟨item, sub, -, hget⟩ | _ | _ | _ | _
  case received => exact Or.inl (has_receive h)
  case readerSent =>
    obtain ⟨ls', rfl, -⟩ := readerSent_eq_some hsent
    exact Or.inl (has_goto rfl h)
  case dequeued =>
    rcases item with _ | letter
    · exact Or.inl (has_goto rfl h)
    · rcases has_write rfl h with h | ⟨hframe, hissuer⟩
      · exact Or.inl h
      · obtain ⟨⟨a, q⟩, hq, heq⟩ := Option.map_eq_some_iff.mp hget
        cases heq
        refine Or.inr (Or.inr ⟨l.sub, letter, ?_, Option.some.inj hissuer, hframe⟩)
        rw [(BoundedQueue.items_of_getNowait hq).1]
        exact List.mem_cons_self
  case pingDue => exact Or.inl (has_write_none rfl h)
  all_goals exact Or.inl (has_goto rfl h)

/-- **What a session has after a stretch** it had before, or it was handed it. -/
theorem has_step? {e : SessionEvent} {call : Option Call} {s' : Session}
    (hstep : s.step? k e = some (call, s')) (h : s'.Has c f) : s.Has c f ∨ Incoming k c f := by
  rcases stepped hstep with ⟨-, -, rfl | rfl⟩ | ⟨-, -, rfl | rfl⟩ | _ | _ | ⟨-, hanswered⟩ | _ |
    hphase | _ | _ | ⟨-, hlooped⟩
  case read => exact Or.inl (has_readSubscribe h)
  case readCancelled => exact Or.inl (has_write_none rfl h)
  case answered => exact has_answered hanswered h
  case initialSent =>
    rcases has_sendInitial h with h | ⟨hc, hf⟩
    · exact Or.inl h
    · exact Or.inl (Or.inr ⟨_, by rw [hphase]; rfl, hc, by rw [hphase]; exact hf⟩)
  case running => exact has_looped hlooped h
  all_goals exact Or.inl (has_goto rfl h)

end Stretch

end Session

/-! ## Copies in a world -/

namespace World

/-- A copy of the delta `d` of the scene `c`. -/
inductive Held (w : World) (c : SceneRef) (d : Delta) : Prop
  | ring {r : ReplayRecord} (hc : c < w.kit.objects.next)
      (hr : r ∈ (w.kit.objects.get c).replay.records.items) (hd : r.delta = .delta d)
  | queue {r : SubRef} {letter : Letter} (h : some letter ∈ (w.kit.subs.get r).queue.items)
      (hissuer : letter.issuer = c) (hd : letter.frame = .delta d)
  | session {i : ℕ} (h : (w.sessions.get i).Has c (.delta d))

/-- What a session is handed is a copy. -/
theorem Held.incoming {w : World} (hwf : w.Wf) {c : SceneRef} {d : Delta}
    (h : Session.Incoming w.kit c (.delta d)) : w.Held c d := by
  rcases h with ⟨hc, since, hd⟩ | ⟨r, letter, hletter, hissuer, hd⟩
  · obtain ⟨-, r, hr, -, hrd⟩ := Scene.mem_opening_iff.mp hd
    exact .ring (hwf.kit.registered_lt c hc) hr hrd
  · exact .queue hletter hissuer hd

/-- The delta `d` of `c` as a subscriber gets it live: it waits for the writer loop of the
subscriber's session, or a session has written it. -/
def Live (w : World) (c : SceneRef) (d : Delta) : Prop :=
  (∃ r letter, some letter ∈ (w.kit.subs.get r).queue.items ∧ letter.issuer = c ∧
    letter.frame = .delta d) ∨
  ∃ i, ⟨.delta d, some c⟩ ∈ (w.sessions.get i).written

/-- The delta `d` of `c` as a client gets it that resumes: `handle_ws` builds it for a client that
attaches now, is to write it to one that attached before, or has written it. -/
def Replayed (w : World) (c : SceneRef) (d : Delta) : Prop :=
  (w.kit.Registered c ∧
    ∃ since, .delta d ∈ openingFrames ((w.kit.objects.get c).resumeAnswer since)) ∨
  (∃ i l rest, (w.sessions.get i).phase = .initial l rest ∧ l.scene = c ∧ .delta d ∈ rest) ∨
  ∃ i, ⟨.delta d, some c⟩ ∈ (w.sessions.get i).written

theorem Live.held {w : World} {c : SceneRef} {d : Delta} (h : w.Live c d) : w.Held c d := by
  rcases h with ⟨r, letter, hletter, hissuer, hd⟩ | ⟨i, h⟩
  · exact .queue hletter hissuer hd
  · exact .session (Or.inl h)

theorem Replayed.held {w : World} (hwf : w.Wf) {c : SceneRef} {d : Delta} (h : w.Replayed c d) :
    w.Held c d := by
  rcases h with h | ⟨i, l, rest, hphase, hc, hd⟩ | ⟨i, h⟩
  · exact .incoming hwf (Or.inl h)
  · exact .session (Or.inr ⟨l, by rw [hphase]; rfl, hc, by rw [hphase]; exact hd⟩)
  · exact .session (Or.inl h)

/-- The counter of `c`, `0` before `c` is made. -/
def clock (c : SceneRef) (w : World) : ℤ :=
  if c < w.kit.objects.next then (w.kit.objects.get c).currentSeq else 0

theorem clock_of_lt {w : World} {c : SceneRef} (hc : c < w.kit.objects.next) :
    clock c w = (w.kit.objects.get c).currentSeq := if_pos hc

variable [PyRepr]

/-- In the world `w`, the event `e` makes the scene `c` emit, and `d` is the delta. -/
def Emits (w : World) (e : Event) (c : SceneRef) (d : Delta) : Prop :=
  ∃ patches cause, (w.opOf e).map w.kit.act = some (.post c patches cause) ∧
    d = (w.kit.objects.get c).nextDelta patches cause

/-- **Every copy of a delta** was there before the event, or the event emits it. -/
theorem held_step {w : World} (hwf : w.Wf) (e : Event) {c : SceneRef} {d : Delta}
    (h : (w.step e).Held c d) : w.Held c d ∨ w.Emits e c d := by
  have hkit := w.kit_step e
  rcases h with @⟨r, hc, hr, hd⟩ | @⟨r, letter, h, hissuer, hd⟩ | @⟨i, h⟩
  · rw [hkit] at hc hr
    rw [Emits]
    generalize w.opOf e = op at hc hr ⊢
    rcases op with _ | op
    · exact Or.inl (.ring hc hr hd)
    · rcases Server.ring_step hc hr with ⟨hlt, hold⟩ | ⟨patches, cause, hact, hnew⟩
      · exact Or.inl (.ring hlt hold hd)
      · exact Or.inr ⟨patches, cause, congrArg some hact, Frame.delta.inj (hd.symm.trans hnew)⟩
  · rw [hkit] at h
    rw [Emits]
    generalize w.opOf e = op at h ⊢
    rcases op with _ | op
    · exact Or.inl (.queue h hissuer hd)
    · subst hissuer
      rcases Server.queue_step hwf.kit h hd with hold | ⟨patches, cause, hact, hnew⟩
      · exact Or.inl (.queue hold rfl hd)
      · exact Or.inr ⟨patches, cause, congrArg some hact, hnew⟩
  · rcases (w.did e).session_cases i with hsame | ⟨requested, hnew, -⟩ |
      ⟨a, call, s, -, hstep, hs, -⟩
    · exact Or.inl (.session (hsame ▸ h))
    · rw [hnew] at h
      rcases h with h | ⟨l, hl, -⟩
      · exact absurd h List.not_mem_nil
      · have hsub := Phase.sub?_of_locals? hl
        rw [Session.sub?_connecting] at hsub
        cases hsub
    · rw [hs] at h
      rcases Session.has_step? hstep h with hold | hincoming
      · exact Or.inl (.session hold)
      · exact Or.inl (.incoming hwf hincoming)

/-- **Every copy of a delta goes back to an emission of the run.** -/
theorem emitted_of_held {es : List Event} {c : SceneRef} {d : Delta} (h : (after es).Held c d) :
    ∃ pre e post, es = pre ++ e :: post ∧ (after pre).Emits e c d := by
  refine @exists_step _ _ step Wf (Held · c d) _ {} (wf_start Server.wf_empty) wf_step ?_
    (fun w e hwf => held_step hwf e) es h
  rintro (⟨hc, -, -⟩ | ⟨hletter, -, -⟩ | ⟨h | ⟨l, hl, -⟩⟩)
  · exact absurd hc (Nat.not_lt_zero c)
  · exact absurd hletter List.not_mem_nil
  · exact absurd h List.not_mem_nil
  · cases hl

/-- **What is emitted is held**, by the ring of the scene if by nobody else. -/
theorem held_of_emits {es : List Event} {e : Event} {c : SceneRef} {d : Delta}
    (h : (after es).Emits e c d) : (after (es ++ [e])).Held c d := by
  obtain ⟨patches, cause, hact, rfl⟩ := h
  obtain ⟨op, hop, hact⟩ := Option.map_eq_some_iff.mp hact
  obtain ⟨ops, hops⟩ := kit_after es
  have hringed : (after es).kit.Ringed := hops ▸ Server.ringed_after ops
  have hkit : (after (es ++ [e])).kit = (after es).kit.step op := by
    rw [after, run_concat, ← after, kit_step, hop]
  obtain ⟨hc, r, hr, hd⟩ := Server.ring_post hringed hact
  rw [← hkit] at hc hr
  exact .ring hc hr hd

/-! ## Numbers

The counter only goes up, and an emission takes it to the number of its delta.  So two emissions
with one number are one. -/

/-- **No event turns a counter back.** -/
theorem clock_le_step {w : World} (hwf : w.Wf) (c : SceneRef) (e : Event) :
    clock c w ≤ clock c (w.step e) := by
  by_cases hc : c < w.kit.objects.next
  · have hc' := hc.trans_le (w.next_le_kit_step e).1
    rw [clock_of_lt hc, clock_of_lt hc', kit_step]
    split
    · exact le_rfl
    · rw [Server.currentSeq_step hc]
      exact Int.le_add_of_nonneg_right (Server.drawn_nonneg c _)
  · rw [clock, if_neg hc, clock]
    split
    · exact le_trans (by decide) ((wf_step w e hwf).kit.seq_pos c)
    · exact le_rfl

/-- **An emission advances its counter**, to the number of the delta. -/
theorem clock_of_emits {w : World} {e : Event} {c : SceneRef} {d : Delta} (h : w.Emits e c d) :
    d.seq = clock c w + 1 ∧ clock c w < clock c (w.step e) := by
  obtain ⟨patches, cause, hact, rfl⟩ := h
  obtain ⟨op, hop, hact⟩ := Option.map_eq_some_iff.mp hact
  have hc := Server.lt_of_act_eq_post hact
  have hc' := hc.trans_le (w.next_le_kit_step e).1
  rw [clock_of_lt hc, clock_of_lt hc', kit_step, hop]
  refine ⟨rfl, ?_⟩
  dsimp only
  rw [Server.currentSeq_step hc, hact, Server.drawn, if_pos rfl]
  exact Int.lt_succ _

/-- An event makes a scene emit once. -/
theorem Emits.unique {w : World} {e : Event} {c : SceneRef} {d d' : Delta} (h : w.Emits e c d)
    (h' : w.Emits e c d') : d = d' := by
  obtain ⟨patches, cause, hact, rfl⟩ := h
  obtain ⟨patches', cause', hact', rfl⟩ := h'
  cases hact.symm.trans hact'
  rfl

/-- **No two emissions of a scene share a number.** -/
theorem emits_unique {es pre pre' post post' : List Event} {e e' : Event} {c : SceneRef}
    {d d' : Delta} (hes : es = pre ++ e :: post) (hes' : es = pre' ++ e' :: post')
    (h : (after pre).Emits e c d) (h' : (after pre').Emits e' c d') (hseq : d.seq = d'.seq) :
    pre = pre' ∧ e = e' ∧ d = d' := by
  obtain ⟨hd, htick⟩ := clock_of_emits h
  obtain ⟨hd', htick'⟩ := clock_of_emits h'
  have hclock : clock c (after pre) = clock c (after pre') := by omega
  obtain ⟨rfl, rfl, -⟩ := eq_of_clock_eq (wf_start Server.wf_empty) wf_step
    (fun w e hwf => clock_le_step hwf c e) (hes.symm.trans hes') htick htick' hclock
  exact ⟨rfl, rfl, h.unique h'⟩

/-- **Two copies with one number are one delta.** -/
theorem eq_of_held {es : List Event} {c : SceneRef} {d d' : Delta} (h : (after es).Held c d)
    (h' : (after es).Held c d') (hseq : d.seq = d'.seq) : d = d' := by
  obtain ⟨pre, e, post, hes, hemits⟩ := emitted_of_held h
  obtain ⟨pre', e', post', hes', hemits'⟩ := emitted_of_held h'
  exact (emits_unique hes hes' hemits hemits' hseq).2.2

/-! ## Live and replayed -/

/-- No emission has a timestamp. -/
theorem ts_of_held {es : List Event} {c : SceneRef} {d : Delta} (h : (after es).Held c d) :
    Json.lookup (frameToDict (.delta d)) "ts" = none := by
  obtain ⟨pre, e, post, -, patches, cause, -, rfl⟩ := emitted_of_held h
  rcases cause with _ | cause
  · rfl
  · rfl

/-- **A delta is one text, live and replayed**: whatever happened in between, a subscriber that gets
the number live and a client that resumes across it are sent the same, without a timestamp. -/
theorem live_eq_replayed (es : List Event) {c : SceneRef} {live replayed : Delta}
    (hlive : (after es).Live c live) (hreplayed : (after es).Replayed c replayed)
    (hseq : live.seq = replayed.seq) :
    encode (.delta live) = encode (.delta replayed) ∧ live.patches = replayed.patches ∧
      live.cause = replayed.cause ∧ Json.lookup (frameToDict (.delta live)) "ts" = none ∧
      Json.lookup (frameToDict (.delta replayed)) "ts" = none := by
  have hheld := hlive.held
  have hheld' := hreplayed.held (wf_after es)
  have heq : live = replayed := eq_of_held hheld hheld' hseq
  exact ⟨by rw [heq], by rw [heq], by rw [heq], ts_of_held hheld, ts_of_held hheld'⟩

/-- A viewer is sent a delta live. -/
def liveRun : List Event :=
  [.trusted (.newScene "a" "v1" [] true), .connect ["lsdp.v1"], .session 0 (.sent true),
    .session 0 (.received (.frame (.subscribe { token := .str "t" }))),
    .session 0 (.authenticated (.identity { role := some .viewer })), .session 0 (.sent true),
    .trusted (.scene 0 (.emit (.ofList [("x", .int 7)]) none)), .session 0 .dequeued]

/-- The delta. -/
def liveDelta : Delta := { patches := [⟨"x", .int 7, none⟩], seq := 2 }

end World

namespace World

/-- A client that was last at `1` is sent the text the viewer was. -/
theorem live_eq_replayed_liveRun :
    letI := PyRepr.plain
    ∃ x ∈ ((after liveRun).sessions.get 0).written,
      ∃ f ∈ openingFrames (((after liveRun).kit.objects.get 0).resumeAnswer (some 1)),
        x.frame = .delta liveDelta ∧ encode x.frame = encode f := by
  let := PyRepr.plain
  have hwritten : ((after liveRun).sessions.get 0).written
      = [⟨.snapshot { sceneId := .str "a", sceneVersion := .str "v1", seq := 1 }, some 0⟩,
        ⟨.delta liveDelta, some 0⟩] := rfl
  have hresumes : ((after liveRun).kit.objects.get 0).resumes (some 1) = true := by decide
  have hring : ⟨2, liveDelta.patches, none⟩
      ∈ ((after liveRun).kit.objects.get 0).replay.records.items :=
    BoundedDeque.mem_append_self (by decide) _
  have hlive : ⟨.delta liveDelta, some 0⟩ ∈ ((after liveRun).sessions.get 0).written := by
    rw [hwritten]
    exact List.mem_cons_of_mem _ List.mem_cons_self
  have hreplayed : .delta liveDelta
      ∈ openingFrames (((after liveRun).kit.objects.get 0).resumeAnswer (some 1)) :=
    Scene.mem_opening_iff.mpr ⟨hresumes, _, hring, ⟨1, rfl, by decide⟩, rfl⟩
  have hregistered : (after liveRun).kit.Registered 0 := List.mem_cons_self
  have hcopy : Live (after liveRun) 0 liveDelta := Or.inr ⟨0, hlive⟩
  have hcopy' : Replayed (after liveRun) 0 liveDelta := Or.inl ⟨hregistered, some 1, hreplayed⟩
  have htext : encode (.delta liveDelta) = encode (.delta liveDelta) :=
    (live_eq_replayed liveRun hcopy hcopy' rfl).1
  exact ⟨⟨.delta liveDelta, some 0⟩, hlive, .delta liveDelta, hreplayed, rfl, htext⟩

end World

end Lumencast
