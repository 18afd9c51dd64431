import Lumencast.Resume.HandOff
import Lumencast.Server.Queues
import Lumencast.Sessions.World

/-!
# Sessions/Line — what a client has been sent, and what is in line for it

A session that stays on its scene owes its client the rest of its initial frames and what waits in
its queue.  `Held` says that all of it fits behind what was written, and ends at the scene's counter
unless the subscriber is short of a number; each way of writing, and each act on the kit, is judged
by what it needs to keep that so.
-/

namespace Lumencast

open Machinery SequenceTracker

/-- A frame that may wait in a queue. -/
def Frame.InStream : Frame → Prop
  | .snapshot f => 1 ≤ f.seq
  | .error _ => False
  | _ => True

namespace SequenceTracker

/-- A frame out of a queue is checked like any other… -/
theorem hear_of_inStream {t : SequenceTracker} {f : Frame} (h : f.InStream) :
    t.hear f = t.observe f := by
  rcases f <;> first | rfl | exact h.elim

/-- …and leaves the tracker at its number, if it has one. -/
theorem eq_of_observe {t t' : SequenceTracker} {f : Frame} (h : f.InStream)
    (hok : t.observe f = .ok (false, t')) : t' = (f.seq?.map SequenceTracker.mk).getD t := by
  rcases f with f | f | f | f | nonce | nonce | f | f | _
  case snapshot =>
    cases hok
    exact if_pos h
  case delta => exact eq_of_observeServer hok
  case sceneChanged => exact eq_of_observeServer hok
  case error => exact h.elim
  all_goals
    cases hok
    rfl

/-- The next number in line, for a tracker that stands at `n` or has seen nothing. -/
theorem accepts_concat_next {t : SequenceTracker} {fs : List Frame} {f : Frame} {n cur : ℤ}
    (hcur : 1 ≤ cur) (hn : n = cur ∨ n = 0) (hfs : t.Accepts fs n)
    (hf : ∀ t : SequenceTracker, t.observe f = t.observeServer (cur + 1)) :
    t.Accepts (fs ++ [f]) (cur + 1) := by
  refine accepts_concat.mpr ⟨n, hfs, ?_⟩
  rw [hf]
  rcases hn with rfl | rfl
  · exact (observeServer_eq_ok_false hcur).mpr ⟨rfl, rfl⟩
  · exact observeServer_fresh (by omega)

end SequenceTracker

/-! ## What a session and its scene owe each other

The tracker is that of a client which checks every number.  It is asked whether it accepts what
is still in line, before any of it is written. -/

/-- The frames an attached session has still to send before its loops start. -/
def Phase.pending : Phase → List Frame
  | .initial _ rest => rest
  | _ => []

/-- A session that has not answered its client yet. -/
def Phase.Fresh : Phase → Prop
  | .accepting => True
  | .reading => True
  | .authenticating _ => True
  | _ => False

/-- The records a client is given bear numbers without a gap. -/
def Scene.Unbroken (sc : Scene) (since : Option ℤ) : Prop :=
  match (sc.resumeAnswer since).2 with
  | [] => True
  | r :: records => (r :: records).map (·.seq) = consecutive r.seq (records.length + 1)

instance (sc : Scene) (since : Option ℤ) : Decidable (sc.Unbroken since) := by
  unfold Scene.Unbroken
  split <;> infer_instance

/-- The records a client is given end before the counter. -/
def Scene.EndsShort (sc : Scene) (since : Option ℤ) : Prop :=
  match (sc.resumeAnswer since).2 with
  | [] => False
  | r :: records => r.seq + records.length ≠ sc.currentSeq

instance (sc : Scene) (since : Option ℤ) : Decidable (sc.EndsShort since) := by
  unfold Scene.EndsShort
  split <;> infer_instance

namespace Session

/-- The frames a session has written, in order. -/
def frames (s : Session) : List Frame := s.written.map (·.frame)

/-- The last number of the stream that a session was sent, and the scene whose counter issued it.
The number of an error is left out: no emission bears it. -/
def lastSeen (s : Session) : Option (ℤ × SceneRef) :=
  (s.written.filterMap fun x => x.frame.seq?.bind fun n => x.issuer.map fun c => (n, c)).getLast?

/-- Where a client that checks every number stands. -/
def heard (s : Session) : SequenceTracker := run listen {} s.frames

/-- Whether a client frame is answered with an error. -/
def refuses (k : Server) (l : Locals) : Received → Bool
  | .frame (.input f) =>
      match (k.objects.get l.scene).verdict l.identity f.patches with
      | .ok (some _) => true
      | _ => false
  | .frame (.subscribe _) => true
  | .mismatch _ => true
  | .malformed _ => true
  | _ => false

/-- Whether the first frame of a line is a snapshot. -/
def opensAnew : List Frame → Bool
  | .snapshot _ :: _ => true
  | _ => false

/-- The client has been sent the number the scene stands at; or it has been sent none of the stream
yet, and either none waits for it or was lost on it, or what waits for it opens with a snapshot and
no error has borne another number. -/
def UpToDate (k : Server) (short : Prop) (s : Session) (l : Locals) : Prop :=
  match s.lastSeen with
  | some (n, _) => n = (k.objects.get l.scene).currentSeq
  | none => ((k.subs.get l.sub).queued = [] ∧ ¬ short) ∨
      (opensAnew (k.subs.get l.sub).queued = true ∧
        (s.heard = {} ∨ s.heard = ⟨(k.objects.get l.scene).currentSeq⟩))

instance (k : Server) (short : Prop) [Decidable short] (s : Session) (l : Locals) :
    Decidable (UpToDate k short s l) := by
  unfold UpToDate
  split <;> infer_instance

/-- A session that stays on its scene: what it has still to send fits behind what it has sent, and
ends at the scene's counter unless it is short of a number. -/
structure Held (k : Server) (short : Prop) (s : Session) (l : Locals) : Prop where
  inStream : ∀ f ∈ s.phase.pending ++ (k.subs.get l.sub).queued, f.InStream
  stands : ∃ n, s.heard.Accepts (s.phase.pending ++ (k.subs.get l.sub).queued) n ∧
    (¬ short → n = (k.objects.get l.scene).currentSeq ∨ n = 0)
  seen : ∀ n c, s.lastSeen = some (n, c) → s.heard = ⟨n⟩

/-- A session whose client finds everything in order. -/
structure Tidy (k : Server) (short : Finset SubRef) (s : Session) : Prop where
  order : InOrder s.frames
  fresh : s.phase.Fresh → s.written = []
  held : ∀ l, s.phase.locals? = some l → Held k (l.sub ∈ short) s l

/-- A snapshot is accepted by every tracker, and so is what comes after it. -/
theorem accepts_of_opensAnew {t t' : SequenceTracker} {fs : List Frame} {n : ℤ}
    (hopens : opensAnew fs = true) (hfs : ∀ f ∈ fs, f.InStream) (h : t.Accepts fs n) :
    t'.Accepts fs n := by
  unfold opensAnew at hopens
  split at hopens
  · rename_i f rest
    have hpos : 1 ≤ f.seq := hfs (.snapshot f) List.mem_cons_self
    obtain ⟨m, hm, hrest⟩ := accepts_cons.mp h
    refine accepts_cons.mpr ⟨m, ?_, hrest⟩
    rw [← hm]
    change Except.ok (false, if 1 ≤ f.seq then _ else t') = .ok (false, if 1 ≤ f.seq then _ else t)
    rw [if_pos hpos, if_pos hpos]
  · cases hopens

section Writing

variable {k : Server} {short : Prop} {s : Session} {l : Locals}

theorem frames_write (s : Session) (frame : Frame) (issuer : Option SceneRef) (p : Phase) :
    (s.write frame issuer p).frames = s.frames ++ [frame] := List.map_append

theorem heard_write (s : Session) (frame : Frame) (issuer : Option SceneRef) (p : Phase) :
    (s.write frame issuer p).heard = s.heard.listen frame := by
  rw [heard, frames_write, run_concat]
  rfl

theorem lastSeen_write_none (s : Session) (frame : Frame) (p : Phase) :
    (s.write frame none p).lastSeen = s.lastSeen := by
  rw [lastSeen, write, List.filterMap_append, lastSeen]
  have hnone : [(⟨frame, none⟩ : Sent)].filterMap
      (fun x => x.frame.seq?.bind fun n => x.issuer.map fun c => (n, c)) = [] := by
    rcases h : frame.seq? with _ | n <;> simp [h]
  rw [hnone, List.append_nil]

theorem lastSeen_write_some (s : Session) (frame : Frame) (c : SceneRef) (p : Phase) :
    (s.write frame (some c) p).lastSeen = (frame.seq?.map fun n => (n, c)).or s.lastSeen := by
  rw [lastSeen, write, List.filterMap_append, lastSeen]
  rcases h : frame.seq? with _ | n <;> simp [h]

/-- Only what was written and what waits matters. -/
theorem Held.congr {k' : Server} {short' : Prop} {s' : Session} {l' : Locals}
    (h : Held k short s l) (hwritten : s'.written = s.written)
    (hpending : s'.phase.pending ++ (k'.subs.get l'.sub).queued
      = s.phase.pending ++ (k.subs.get l.sub).queued)
    (hseq : (k'.objects.get l'.scene).currentSeq = (k.objects.get l.scene).currentSeq)
    (hshort : short → short') : Held k' short' s' l' := by
  have hheard : s'.heard = s.heard := by rw [heard, frames, hwritten]; rfl
  have hlast : s'.lastSeen = s.lastSeen := by rw [lastSeen, hwritten]; rfl
  refine ⟨hpending ▸ h.inStream, ?_, fun n c hn => hheard.trans (h.seen n c (hlast ▸ hn))⟩
  obtain ⟨n, hn, hends⟩ := h.stands
  exact ⟨n, by rwa [hheard, hpending], fun hno => hseq ▸ hends fun hs => hno (hshort hs)⟩

/-- **The next frame in line is sent.** -/
theorem Held.sent {f : Frame} {rest : List Frame} (h : Held k short s l)
    (hline : s.phase.pending ++ (k.subs.get l.sub).queued = f :: rest) {k' : Server} {s' : Session}
    {c : SceneRef} {p : Phase} (hs' : s' = s.write f (some c) p)
    (hline' : p.pending ++ (k'.subs.get l.sub).queued = rest)
    (hseq : (k'.objects.get l.scene).currentSeq = (k.objects.get l.scene).currentSeq) :
    s.heard.fits f = true ∧ Held k' short s' l := by
  subst hs'
  obtain ⟨n, hn, hends⟩ := h.stands
  have hf : f.InStream := h.inStream f (hline ▸ List.mem_cons_self)
  rw [hline] at hn
  obtain ⟨m, hm, hrest⟩ := accepts_cons.mp hn
  obtain ⟨hfits, hlisten⟩ := fits_of_hear ((hear_of_inStream hf).trans hm)
  have hheard : (s.write f (some c) p).heard = ⟨m⟩ := (heard_write s f (some c) p).trans hlisten
  have hcur := eq_of_observe hf hm
  refine ⟨hfits, ?_, ⟨n, ?_, fun hno => hseq ▸ hends hno⟩, fun q c' hq => ?_⟩
  · intro g hg
    exact h.inStream g (hline ▸ List.mem_cons_of_mem f (hline' ▸ hg))
  · change (s.write f (some c) p).heard.Accepts (p.pending ++ _) n
    rw [hheard, hline']
    exact hrest
  · rw [hheard, hcur]
    rw [lastSeen_write_some] at hq
    rcases hfseq : f.seq? with _ | q'
    · rw [hfseq] at hq
      exact h.seen q c' hq
    · rw [hfseq] at hq
      cases hq
      rfl

/-- A frame out of band is written. -/
theorem Held.outOfBand {f : Frame} {p : Phase} (h : Held k short s l)
    (hf : ∀ t : SequenceTracker, t.hear f = .ok (false, t)) (hp : p.pending = s.phase.pending) :
    s.heard.fits f = true ∧ Held k short (s.write f none p) l := by
  obtain ⟨hfits, hlisten⟩ := fits_of_hear (hf s.heard)
  have hheard : (s.write f none p).heard = s.heard := (heard_write s f none p).trans hlisten
  refine ⟨hfits, ?_, ?_, fun n c hn => hheard.trans (h.seen n c ?_)⟩
  · change ∀ f ∈ p.pending ++ _, f.InStream
    rw [hp]
    exact h.inStream
  · obtain ⟨n, hn, hends⟩ := h.stands
    refine ⟨n, ?_, hends⟩
    change (s.write f none p).heard.Accepts (p.pending ++ _) n
    rwa [hheard, hp]
  · rwa [lastSeen_write_none] at hn

/-- An error that fits behind what was written, and in front of what waits. -/
theorem Held.error_of_fits {code : ErrorCode} {message : PyStr} {recoverable drop : Bool}
    {path : Option PyStr} {p : Phase} {cur : ℤ} (h : Held k short s l)
    (hok : s.heard.observeServer cur = .ok (drop, ⟨cur⟩)) (hs : s.phase.pending = [])
    (hp : p.pending = [])
    (hqueued : ∃ n, (⟨cur⟩ : SequenceTracker).Accepts (k.subs.get l.sub).queued n ∧
      (¬ short → n = (k.objects.get l.scene).currentSeq ∨ n = 0))
    (hseen : ∀ n c, s.lastSeen = some (n, c) → n = cur) :
    let frame := errorFrame cur code message recoverable path
    s.heard.fits frame = true ∧ Held k short (s.write frame none p) l := by
  intro frame
  have hhear : s.heard.hear frame = .ok (drop, ⟨cur⟩) := hok
  have hheard : (s.write frame none p).heard = ⟨cur⟩ :=
    (heard_write s frame none p).trans (listen_of_hear hhear)
  refine ⟨by rw [fits, hhear]; rfl, ?_, ?_, fun n c hn => ?_⟩
  · change ∀ f ∈ p.pending ++ _, f.InStream
    rw [hp, ← hs]
    exact h.inStream
  · obtain ⟨n, hn, hends⟩ := hqueued
    refine ⟨n, ?_, hends⟩
    change (s.write frame none p).heard.Accepts (p.pending ++ _) n
    rwa [hheard, hp]
  · rw [lastSeen_write_none] at hn
    rw [hheard, hseen n c hn]

/-- **An error is written** to a client that is up to date. -/
theorem Held.error {code : ErrorCode} {message : PyStr} {recoverable : Bool} {path : Option PyStr}
    {p : Phase} (h : Held k short s l) (hpos : 1 ≤ (k.objects.get l.scene).currentSeq)
    (hup : UpToDate k short s l) (hs : s.phase.pending = []) (hp : p.pending = []) :
    let frame := errorFrame (k.objects.get l.scene).currentSeq code message recoverable path
    s.heard.fits frame = true ∧ Held k short (s.write frame none p) l := by
  obtain ⟨n, hn, hends⟩ := h.stands
  rw [hs, List.nil_append] at hn
  unfold UpToDate at hup
  split at hup
  · rename_i m c hlast
    have hheard : s.heard = ⟨(k.objects.get l.scene).currentSeq⟩ := hup ▸ h.seen m c hlast
    refine h.error_of_fits (by rw [hheard]; exact observeServer_self hpos) hs hp
      ⟨n, by rwa [← hheard], hends⟩ fun m' c' hm' => ?_
    rw [hlast] at hm'
    cases hm'
    exact hup
  · rename_i hlast
    have hnone : ∀ m c, s.lastSeen = some (m, c) → m = (k.objects.get l.scene).currentSeq :=
      fun m c hm => by
        rw [hlast] at hm
        cases hm
    have hfresh (hheard : s.heard = {} ∨ s.heard = ⟨(k.objects.get l.scene).currentSeq⟩) :
        ∃ drop, s.heard.observeServer (k.objects.get l.scene).currentSeq
          = .ok (drop, ⟨(k.objects.get l.scene).currentSeq⟩) := by
      rcases hheard with hheard | hheard
      · exact ⟨false, by rw [hheard]; exact observeServer_fresh hpos⟩
      · exact ⟨true, by rw [hheard]; exact observeServer_self hpos⟩
    rcases hup with ⟨hempty, hno⟩ | ⟨hopens, hheard⟩
    · rw [hempty, accepts_nil] at hn
      obtain ⟨drop, hok⟩ := hfresh ((hends hno).symm.imp (fun h0 => by rw [hn, h0])
        fun hcur => by rw [hn, hcur])
      refine h.error_of_fits hok hs hp ⟨_, ?_, fun _ => Or.inl rfl⟩ hnone
      rw [hempty]
      exact accepts_nil.mpr rfl
    · obtain ⟨drop, hok⟩ := hfresh hheard
      have hstream : ∀ f ∈ (k.subs.get l.sub).queued, f.InStream := fun f hf =>
        h.inStream f (List.mem_append_right _ hf)
      exact h.error_of_fits hok hs hp ⟨n, accepts_of_opensAnew hopens hstream hn, hends⟩ hnone

end Writing

end Session

/-! ## What the kit does in between

A frame joins the end of the line, or is refused and leaves the subscriber short of its number.
A snapshot makes good for that, whatever was missing. -/

namespace Server

/-- Who is short of a number after an act: whoever was refused a delta, or had a number drawn past
it by a move, until a snapshot is put in its queue. -/
def shortAfter (k : Server) (short : Finset SubRef) : Act → Finset SubRef
  | .post c _ _ => short ∪ (k.objects.get c).subscribers.filter fun r => ¬ (k.subs.get r).HasRoom
  | .seed c _ => short \ (k.objects.get c).subscribers.filter fun r => (k.subs.get r).HasRoom
  | .move prev _ => short ∪
      ((k.objects.get prev).subscribers \ (k.objects.get prev).liveSubscribers k.subs)
  | _ => short

/-- An act puts no delta in the queue of a subscriber that is short of a number. -/
def DeliversInTurn (k : Server) (short : Finset SubRef) (r : SubRef) : Act → Prop
  | .post c _ _ => k.Owns c r → (k.subs.get r).HasRoom → r ∉ short
  | _ => True

instance (k : Server) (short : Finset SubRef) (r : SubRef) (a : Act) :
    Decidable (DeliversInTurn k short r a) := by
  unfold DeliversInTurn
  split <;> infer_instance

end Server

/-- An input that is not accepted does nothing to the subscribers. -/
theorem Server.act_applyInput_of_ne {k : Server} (c : SceneRef) {identity : Identity}
    {patches : List Patch} (cause : Option Cause)
    (h : (k.objects.get c).verdict identity patches ≠ .ok none) :
    k.act (.scene c (.applyInput identity patches cause)) = .quiet := by
  rw [act]
  split
  · rw [Scene.act]
    split
    · exact absurd ‹_› h
    · rfl
  · rfl

namespace Session

open Server (DeliversInTurn)

/-- A frame is put in the queue. -/
theorem Held.queued {k k' : Server} {short short' : Prop} {s : Session} {l : Locals} {f : Frame}
    (h : Held k short s l) (hf : f.InStream)
    (hqueued : (k'.subs.get l.sub).queued = (k.subs.get l.sub).queued ++ [f])
    (hends : ∀ n, s.heard.Accepts (s.phase.pending ++ (k.subs.get l.sub).queued) n →
      (¬ short → n = (k.objects.get l.scene).currentSeq ∨ n = 0) →
      s.heard.Accepts (s.phase.pending ++ (k.subs.get l.sub).queued ++ [f])
        (k'.objects.get l.scene).currentSeq) : Held k' short' s l := by
  obtain ⟨n, hn, hcur⟩ := h.stands
  have hline : s.phase.pending ++ (k'.subs.get l.sub).queued
      = s.phase.pending ++ (k.subs.get l.sub).queued ++ [f] := by
    rw [hqueued, List.append_assoc]
  refine ⟨fun g hg => ?_, ⟨_, hline ▸ hends n hn hcur, fun _ => Or.inl rfl⟩, h.seen⟩
  rw [hline, List.mem_append, List.mem_singleton] at hg
  rcases hg with hg | rfl
  · exact h.inStream g hg
  · exact hf

section Sends

variable {k k' : Server} {short : Finset SubRef} {s : Session} {l : Locals}

/-- An emission of the scene, or the overflow it ends in. -/
theorem Held.posted {patches : Dict PyStr Json} {cause : Option Cause}
    (h : Held k (l.sub ∈ short) s l) (hpos : 1 ≤ (k.objects.get l.scene).currentSeq)
    (howns : k.Owns l.scene l.sub) (hturn : (k.subs.get l.sub).HasRoom → l.sub ∉ short)
    (hsub : k'.subs.get l.sub
      = ((k.objects.get l.scene).emitted patches cause).deliver patches cause (k.subs.get l.sub))
    (hcur : (k'.objects.get l.scene).currentSeq = (k.objects.get l.scene).currentSeq + 1) :
    Held k' (l.sub ∈ k.shortAfter short (.post l.scene patches cause)) s l := by
  have hqueued := Subscription.queued_sendDelta (k.subs.get l.sub)
    (((k.objects.get l.scene).emitted patches cause).deltaLetter
      (Scene.wirePatches patches.entries) cause)
    ((k.objects.get l.scene).emitted patches cause).snapshotLetter
  by_cases hroom : (k.subs.get l.sub).HasRoom
  · rw [if_pos hroom] at hqueued
    refine h.queued (f := .delta _) trivial (by rw [hsub]; exact hqueued) fun n hn hends => ?_
    rw [hcur]
    exact accepts_concat_next hpos (hends (hturn hroom)) hn fun _ => rfl
  · rw [if_neg hroom] at hqueued
    have hshort : l.sub ∈ k.shortAfter short (.post l.scene patches cause) :=
      Finset.mem_union_right _ (Finset.mem_filter.mpr ⟨howns, hroom⟩)
    have hline : (k'.subs.get l.sub).queued = (k.subs.get l.sub).queued := by
      rw [hsub]
      exact hqueued
    obtain ⟨n, hn, -⟩ := h.stands
    exact ⟨hline ▸ h.inStream, ⟨n, hline ▸ hn, fun hno => absurd hshort hno⟩, h.seen⟩

/-- A snapshot after a seeding of the scene, if there is room for it. -/
theorem Held.seeded {patches : Dict PyStr Json} (h : Held k (l.sub ∈ short) s l)
    (hpos : 1 ≤ (k.objects.get l.scene).currentSeq)
    (hsub : k'.subs.get l.sub = (k.subs.get l.sub).sendOrDrop
      ((k.objects.get l.scene).seeded patches).snapshotLetter)
    (hcur : (k'.objects.get l.scene).currentSeq = (k.objects.get l.scene).currentSeq) :
    Held k' (l.sub ∈ k.shortAfter short (.seed l.scene patches)) s l := by
  have hqueued := Subscription.queued_sendOrDrop (k.subs.get l.sub)
    ((k.objects.get l.scene).seeded patches).snapshotLetter
  by_cases hroom : (k.subs.get l.sub).HasRoom
  · rw [if_pos hroom] at hqueued
    refine h.queued (f := ((k.objects.get l.scene).seeded patches).snapshotLetter.frame) hpos
      (by rw [hsub]; exact hqueued) fun n hn _ => ?_
    rw [hcur]
    exact (accepts_concat_snapshot hpos).mpr ⟨⟨n, hn⟩, rfl⟩
  · rw [if_neg hroom] at hqueued
    refine h.congr rfl (by rw [hsub, hqueued]) hcur fun hmem => ?_
    exact Finset.mem_sdiff.mpr ⟨hmem, fun hin => hroom (Finset.mem_filter.mp hin).2⟩

end Sends

/-- **What is done to the kit keeps a session in line**, as long as it stays on its scene. -/
theorem Held.step_kit {k : Server} {short : Finset SubRef} {s : Session} {l : Locals} {op : Op}
    (h : Held k (l.sub ∈ short) s l) (hwf : k.Wf) (howns : k.Owns l.scene l.sub)
    (hstays : (k.step op).Owns l.scene l.sub) (hopen : ((k.step op).subs.get l.sub).closed = false)
    (hop : op ≠ .dequeue l.sub) (hturn : DeliversInTurn k short l.sub (k.act op)) :
    Held (k.step op) (l.sub ∈ k.shortAfter short (k.act op)) s l := by
  have hc := hwf.owner_lt _ _ howns
  have hsub := Server.sub_step (hwf.owned_lt _ _ howns) hop hopen
  have hcur := Server.currentSeq_step hc op
  have hdid := Server.did k op
  have hpos := hwf.seq_pos l.scene
  have hsame : ∀ {short' : Prop}, (l.sub ∈ short → short') →
      (k.step op).subs.get l.sub = k.subs.get l.sub →
      ((k.step op).objects.get l.scene).currentSeq = (k.objects.get l.scene).currentSeq →
        Held (k.step op) short' s l := fun hshort hsub hcur =>
    h.congr rfl (by rw [hsub]) hcur hshort
  generalize k.act op = a at hsub hcur hdid hturn ⊢
  generalize k.step op = k' at hsub hcur hdid hstays hopen hsame ⊢
  rcases a with _ | c | ⟨c, patches, cause⟩ | ⟨c, patches⟩ | ⟨prev, next⟩
  · exact hsame id hsub (hcur.trans (Int.add_zero _))
  · exact hsame id hsub (hcur.trans (Int.add_zero _))
  · by_cases ho : k.Owns c l.sub
    · obtain rfl : l.scene = c := hwf.unique _ _ _ howns ho
      rw [Server.handed, if_pos ho] at hsub
      rw [Server.drawn, if_pos rfl] at hcur
      exact h.posted hpos howns (hturn ho) hsub hcur
    · have hne : c ≠ l.scene := fun heq => ho (heq ▸ howns)
      rw [Server.handed, if_neg ho] at hsub
      rw [Server.drawn, if_neg hne] at hcur
      exact hsame (Finset.mem_union_left _) hsub (hcur.trans (Int.add_zero _))
  · have hseq := hcur.trans (Int.add_zero _)
    by_cases ho : k.Owns c l.sub
    · obtain rfl : l.scene = c := hwf.unique _ _ _ howns ho
      rw [Server.handed, if_pos ho] at hsub
      exact h.seeded hpos hsub hseq
    · rw [Server.handed, if_neg ho] at hsub
      refine hsame (fun hmem => ?_) hsub hseq
      exact Finset.mem_sdiff.mpr ⟨hmem, fun hin => ho (Finset.mem_filter.mp hin).1⟩
  · cases hdid with
    | move active _ _ hne hsome =>
      have hmoves : ¬ k.Moves prev l.sub := fun hm => by
        have hprev := hwf.unique _ _ _ howns hm.1
        rcases (Server.owns_move active hsome hne l.scene l.sub).mp hstays with ⟨hnext, -⟩ | hleft
        · exact hne (hprev.symm.trans hnext)
        · exact hleft.2 ⟨hprev, hm⟩
      rw [Server.handed, if_neg hmoves] at hsub
      by_cases hp : prev = l.scene
      · have hshort : l.sub ∈ k.shortAfter short (.move prev next) := by
          refine Finset.mem_union_right _ (Finset.mem_sdiff.mpr ⟨hp ▸ howns, fun hin => ?_⟩)
          exact hmoves (Server.mem_liveSubscribers.mp hin)
        obtain ⟨n, hn, -⟩ := h.stands
        exact ⟨hsub ▸ h.inStream, ⟨n, hsub ▸ hn, fun hno => absurd hshort hno⟩, h.seen⟩
      · rw [Server.drawn, if_neg hp] at hcur
        exact hsame (Finset.mem_union_left _) hsub (hcur.trans (Int.add_zero _))

end Session

/-! ## How a session is opened -/

/-- Numbers without a gap are accepted one after another. -/
theorem SequenceTracker.accepts_records : ∀ (records : List ReplayRecord) {n : ℤ}, 1 ≤ n →
    records.map (·.seq) = consecutive (n + 1) records.length →
      (⟨n⟩ : SequenceTracker).Accepts (records.map ReplayRecord.delta) (n + records.length)
  | [], n, _, _ => accepts_nil.mpr (congrArg SequenceTracker.mk (Int.add_zero n).symm)
  | r :: records, n, hn, h => by
      rw [List.map_cons, List.length_cons, consecutive_cons, List.cons.injEq] at h
      have hrest := accepts_records records (n := n + 1) (by omega) h.2
      rw [List.map_cons, List.length_cons]
      refine accepts_cons.mpr ⟨n + 1, ?_, ?_⟩
      · exact (observeServer_eq_ok_false hn).mpr ⟨h.1, h.1.symm⟩
      · have hlen : n + ((records.length + 1 : ℕ) : ℤ) = n + 1 + records.length := by omega
        rwa [hlen]

/-- A record that is handed over has a number above the one that was asked for. -/
theorem Scene.seq_pos_of_mem_resumeAnswer {sc : Scene} {since : Option ℤ} {r : ReplayRecord}
    (h : r ∈ (sc.resumeAnswer since).2) : 1 ≤ r.seq := by
  rw [resumeAnswer] at h
  split at h
  · rename_i hresumes
    rcases since with _ | n
    · cases hresumes
    · rw [resumes, Bool.and_eq_true, Bool.and_eq_true, decide_eq_true_iff] at hresumes
      change r ∈ (sc.replay.since n).records at h
      rw [ReplayBuffer.records_of_covered hresumes.2, List.mem_filter, decide_eq_true_iff] at h
      omega
  · cases h

/-- **What a client is opened with** fits a fresh tracker, and ends at the counter unless it ends
short of it. -/
theorem Scene.accepts_opening {sc : Scene} {since : Option ℤ} (hpos : 1 ≤ sc.currentSeq)
    (hunbroken : sc.Unbroken since) : ∃ n, SequenceTracker.Accepts {}
      (openingFrames (sc.resumeAnswer since)) n ∧
        (¬ sc.EndsShort since → n = sc.currentSeq ∨ n = 0) := by
  have hmem : ∀ r ∈ (sc.resumeAnswer since).2, 1 ≤ r.seq := fun r => seq_pos_of_mem_resumeAnswer
  unfold Unbroken at hunbroken
  unfold EndsShort
  by_cases hresumes : sc.resumes since = true
  · have hanswer : (sc.resumeAnswer since).1 = none := resumeAnswer_eq_none.mpr hresumes
    have hframes : openingFrames (sc.resumeAnswer since)
        = (sc.resumeAnswer since).2.map ReplayRecord.delta := by
      rw [← Prod.mk.eta (p := sc.resumeAnswer since), hanswer]
      rfl
    rw [hframes]
    generalize (sc.resumeAnswer since).2 = records at hunbroken hmem ⊢
    rcases records with _ | ⟨r, records⟩
    · exact ⟨0, accepts_nil.mpr rfl, fun _ => Or.inr rfl⟩
    · have hr := hmem r List.mem_cons_self
      have hnumbers : (r :: records).map (·.seq) = consecutive r.seq (records.length + 1) :=
        hunbroken
      rw [consecutive_cons, List.map_cons, List.cons.injEq] at hnumbers
      refine ⟨_, accepts_cons.mpr ⟨r.seq, observeServer_fresh hr, ?_⟩,
        fun hno => Or.inl (not_not.mp hno)⟩
      exact accepts_records records hr hnumbers.2
  · have hanswer : sc.resumeAnswer since = (some sc.snapshotFrame, []) := if_neg hresumes
    have hsnap : SequenceTracker.observe {} (.snapshot sc.snapshotFrame)
        = .ok (false, ⟨sc.currentSeq⟩) := by
      change Except.ok (false, if 1 ≤ sc.currentSeq then _ else _) = _
      rw [if_pos hpos]
      rfl
    rw [hanswer]
    exact ⟨_, accepts_cons.mpr ⟨_, hsnap, accepts_nil.mpr rfl⟩, fun _ => Or.inl rfl⟩

theorem Scene.inStream_opening {sc : Scene} {since : Option ℤ} (hpos : 1 ≤ sc.currentSeq) :
    ∀ f ∈ openingFrames (sc.resumeAnswer since), f.InStream := by
  rw [resumeAnswer]
  split
  · intro f hf
    obtain ⟨r, -, rfl⟩ := List.mem_map.mp hf
    trivial
  · intro f hf
    rw [List.mem_singleton.mp hf]
    exact hpos

namespace Session

/-- **The next initial frame is sent**, or the loops start. -/
theorem Held.sendInitial {k : Server} {short : Prop} {s : Session} {l : Locals}
    {frames : List Frame} (horder : InOrder s.frames)
    (h : Held k short (s.goto (.initial l frames)) l) :
    InOrder (s.sendInitial l frames).frames ∧ Held k short (s.sendInitial l frames) l := by
  rcases frames with _ | ⟨f, rest⟩
  · exact ⟨horder, h.congr rfl rfl rfl id⟩
  · obtain ⟨hfits, hheld⟩ := @Held.sent _ _ _ _ _ (rest ++ (k.subs.get l.sub).queued) h rfl k
      ((s.goto (.initial l (f :: rest))).write f (some l.scene) (.initial l rest)) l.scene
      (.initial l rest) rfl rfl rfl
    refine ⟨?_, hheld⟩
    change InOrder (s.write f (some l.scene) (.initial l rest)).frames
    rw [frames_write]
    exact inOrder_concat.mpr ⟨horder, hfits⟩

end Session

end Lumencast
