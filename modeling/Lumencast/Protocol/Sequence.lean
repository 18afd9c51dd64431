import Lumencast.Machinery.Run
import Lumencast.Protocol.Frames

/-!
# Protocol/Sequence — the sequence tracker

`SequenceTracker` counts frames on both ends of a stream.  The sender draws numbers with
`nextServer`; the receiver checks them with `observeServer` and rebases on a snapshot with
`observeSnapshot`. `feed` runs a receiver over a stream of frames; `InOrder` says that a client
which checks every number it is sent, those of error frames included, finds no gap and drops no
delta.
-/

namespace Lumencast

open Machinery

/-- A monotonic counter; `0` means nothing has been seen. -/
structure SequenceTracker where
  cur : ℤ := 0
  deriving DecidableEq

/-- What `observe_server` raises. -/
inductive SequenceError where
  /-- `GapError`: frames are missing. -/
  | gap (expected got : ℤ)
  /-- `InvalidSeqStartError`: a stream may not start here. -/
  | invalidStart (got : ℤ)
  deriving DecidableEq

/-- The text of the exception. -/
def SequenceError.message : SequenceError → PyStr
  | .gap expected got =>
      "protocol: sequence gap, expected " ++ toString expected ++ ", got " ++ toString got
  | .invalidStart got =>
      "protocol: subscription must start at seq>=1, got seq=" ++ toString got

/-- The `m` numbers from `n` on. -/
def consecutive (n : ℤ) (m : ℕ) : List ℤ := (List.range m).map fun i : ℕ => n + i

theorem consecutive_succ (n : ℤ) (m : ℕ) :
    consecutive n (m + 1) = consecutive n m ++ [n + (m : ℤ)] := by
  rw [consecutive, consecutive, List.range_succ, List.map_append, List.map_singleton]

theorem consecutive_cons (n : ℤ) (m : ℕ) : consecutive n (m + 1) = n :: consecutive (n + 1) m := by
  rw [consecutive, consecutive, List.range_succ_eq_map, List.map_cons, List.map_map]
  refine congrArg₂ List.cons (Int.add_zero n) (List.map_congr_left fun i _ => ?_)
  change n + ((i + 1 : ℕ) : ℤ) = n + 1 + i
  omega

namespace SequenceTracker

/-- Allocate the next outgoing number. -/
def nextServer (t : SequenceTracker) : ℤ × SequenceTracker := (t.cur + 1, ⟨t.cur + 1⟩)

/-- Rewind, so that the next number is `1`. -/
def reset (_ : SequenceTracker) : SequenceTracker := ⟨0⟩

/-- The last number allocated or accepted. -/
def current (t : SequenceTracker) : ℤ := t.cur

/-- Check an incoming number; `true` means the frame is a replay, to be dropped. -/
def observeServer (t : SequenceTracker) (seq : ℤ) :
    Except SequenceError (Bool × SequenceTracker) :=
  if t.cur = 0 then
    if seq < 1 then .error (.invalidStart seq) else .ok (false, ⟨seq⟩)
  else if seq = t.cur + 1 then .ok (false, ⟨seq⟩)
  else if seq ≤ t.cur then .ok (true, t)
  else .error (.gap (t.cur + 1) seq)

/-- Rebase on a snapshot's number; a number below `1` is ignored. -/
def observeSnapshot (t : SequenceTracker) (seq : ℤ) : SequenceTracker :=
  if 1 ≤ seq then ⟨seq⟩ else t

/-- One frame of a subscription's stream: a snapshot rebases, a delta or a scene change is checked,
anything else carries no number of the stream. -/
def observe (t : SequenceTracker) : Frame → Except SequenceError (Bool × SequenceTracker)
  | .snapshot f => .ok (false, t.observeSnapshot f.seq)
  | .delta f => t.observeServer f.seq
  | .sceneChanged f => t.observeServer f.seq
  | _ => .ok (false, t)

/-- Feed a stream to the tracker; the flag says whether some frame was reported as a replay. -/
def feed (t : SequenceTracker) : List Frame → Except SequenceError (Bool × SequenceTracker)
  | [] => .ok (false, t)
  | f :: fs =>
      match t.observe f with
      | .error e => .error e
      | .ok (drop, t') =>
          match t'.feed fs with
          | .error e => .error e
          | .ok (drops, t'') => .ok (drop || drops, t'')

/-- The tracker accepts the whole stream and ends at `n`: nothing raised, nothing dropped. -/
def Accepts (t : SequenceTracker) (fs : List Frame) (n : ℤ) : Prop := t.feed fs = .ok (false, ⟨n⟩)

@[simp] theorem accepts_nil {t : SequenceTracker} {n : ℤ} : t.Accepts [] n ↔ t = ⟨n⟩ := by
  simp [Accepts, feed]

theorem accepts_cons {t : SequenceTracker} {f : Frame} {fs : List Frame} {n : ℤ} :
    t.Accepts (f :: fs) n ↔
      ∃ m, t.observe f = .ok (false, ⟨m⟩) ∧ (⟨m⟩ : SequenceTracker).Accepts fs n := by
  rw [Accepts, feed]
  rcases hf : t.observe f with e | ⟨drop, m⟩
  · simp
  · rcases hfs : feed m fs with e | ⟨drops, l⟩
    · have hno : ∀ m', m = ⟨m'⟩ → ¬ (⟨m'⟩ : SequenceTracker).Accepts fs n := fun m' hm h => by
        rw [Accepts, ← hm, hfs] at h
        cases h
      simp only [hfs, reduceCtorEq, false_iff]
      rintro ⟨m', hm, hacc⟩
      obtain ⟨-, rfl⟩ : drop = false ∧ m = ⟨m'⟩ := by simpa using hm
      exact hno m' rfl hacc
    · simp only [hfs, Except.ok.injEq, Prod.mk.injEq, Bool.or_eq_false_iff]
      constructor
      · rintro ⟨⟨rfl, rfl⟩, rfl⟩
        exact ⟨m.cur, ⟨rfl, rfl⟩, hfs⟩
      · rintro ⟨m', ⟨rfl, rfl⟩, hacc⟩
        rw [Accepts, hfs] at hacc
        obtain ⟨rfl, rfl⟩ : drops = false ∧ l = ⟨n⟩ := by simpa using hacc
        exact ⟨⟨rfl, rfl⟩, rfl⟩

/-- **A stream is accepted one frame at a time**: up to its last frame, then that frame. -/
theorem accepts_concat {f : Frame} {n : ℤ} : ∀ {fs : List Frame} {t : SequenceTracker},
    t.Accepts (fs ++ [f]) n ↔
      ∃ m, t.Accepts fs m ∧ (⟨m⟩ : SequenceTracker).observe f = .ok (false, ⟨n⟩)
  | [], ⟨m⟩ => by simp [accepts_cons]
  | g :: fs, t => by
      simp only [List.cons_append, accepts_cons, accepts_concat]
      constructor
      · rintro ⟨l, hg, m, hfs, hf⟩
        exact ⟨m, ⟨l, hg, hfs⟩, hf⟩
      · rintro ⟨m, ⟨l, hg, hfs⟩, hf⟩
        exact ⟨l, hg, m, hfs, hf⟩

/-- Only the next number in line is accepted. -/
theorem observeServer_eq_ok_false {m s n : ℤ} (hm : 1 ≤ m) :
    (⟨m⟩ : SequenceTracker).observeServer s = .ok (false, ⟨n⟩) ↔ s = m + 1 ∧ n = s := by
  rw [observeServer, if_neg (show m ≠ 0 by omega)]
  split
  · rename_i h
    simp [h, eq_comm]
  · rename_i h
    split <;> simp [h]

/-- **A snapshot is always accepted**, and rebases the tracker. -/
theorem accepts_concat_snapshot {t : SequenceTracker} {fs : List Frame} {s : Snapshot} {n : ℤ}
    (hs : 1 ≤ s.seq) : t.Accepts (fs ++ [.snapshot s]) n ↔ (∃ m, t.Accepts fs m) ∧ n = s.seq := by
  have hobserve : ∀ m : ℤ, (⟨m⟩ : SequenceTracker).observe (.snapshot s) = .ok (false, ⟨s.seq⟩) :=
    fun m => by rw [observe, observeSnapshot, if_pos hs]
  rw [accepts_concat]
  constructor
  · rintro ⟨m, hfs, hm⟩
    rw [hobserve] at hm
    exact ⟨⟨m, hfs⟩, by simpa using hm.symm⟩
  · rintro ⟨⟨m, hfs⟩, rfl⟩
    exact ⟨m, hfs, hobserve m⟩

/-- **A numbered frame is accepted exactly when it is the next in line.** -/
theorem accepts_concat_numbered {t : SequenceTracker} {fs : List Frame} {f : Frame} {s n : ℤ}
    (hf : ∀ t : SequenceTracker, t.observe f = t.observeServer s)
    (hpos : ∀ m, t.Accepts fs m → 1 ≤ m) :
    t.Accepts (fs ++ [f]) n ↔ t.Accepts fs (s - 1) ∧ n = s := by
  rw [accepts_concat]
  constructor
  · rintro ⟨m, hfs, hm⟩
    rw [hf, observeServer_eq_ok_false (hpos m hfs)] at hm
    obtain ⟨rfl, rfl⟩ := hm
    exact ⟨by rwa [Int.add_sub_cancel], rfl⟩
  · rintro ⟨hfs, rfl⟩
    refine ⟨n - 1, hfs, ?_⟩
    rw [hf, observeServer_eq_ok_false (hpos _ hfs)]
    exact ⟨(Int.sub_add_cancel n 1).symm, rfl⟩

/-! ## A client that checks every number

The tracker leaves it to its caller which numbers to check.  This client checks all that it is
sent, as the module that defines the tracker asks of a receiver. -/

/-- One frame of everything a client is sent: the number of an error frame is checked as well. -/
def hear (t : SequenceTracker) : Frame → Except SequenceError (Bool × SequenceTracker)
  | .error f => t.observeServer f.seq
  | f => t.observe f

/-- The tracker after a frame; an exception leaves it as it was. -/
def listen (t : SequenceTracker) (f : Frame) : SequenceTracker :=
  match t.hear f with
  | .ok (_, t') => t'
  | .error _ => t

/-- A frame that leaves no gap, and is not dropped if it is a delta. -/
def fits (t : SequenceTracker) (f : Frame) : Bool :=
  match t.hear f with
  | .error (.gap _ _) => false
  | .error (.invalidStart _) => true
  | .ok (drop, _) =>
      match f with
      | .delta _ => !drop
      | _ => true

/-- Frames that fit one after another. -/
def InOrder (fs : List Frame) : Prop := Steps listen (fun t f => t.fits f = true) {} fs

theorem inOrder_concat {fs : List Frame} {f : Frame} :
    InOrder (fs ++ [f]) ↔ InOrder fs ∧ (run listen {} fs).fits f = true := steps_concat

/-- What a tracker is left with that raised nothing. -/
theorem listen_of_hear {t t' : SequenceTracker} {f : Frame} {drop : Bool}
    (h : t.hear f = .ok (drop, t')) : t.listen f = t' := by rw [listen, h]

/-- A frame that is accepted fits. -/
theorem fits_of_hear {t t' : SequenceTracker} {f : Frame} (h : t.hear f = .ok (false, t')) :
    t.fits f = true ∧ t.listen f = t' := by
  refine ⟨?_, listen_of_hear h⟩
  rw [fits, h]
  rcases f <;> rfl

/-- A number that was seen already is not news, and no gap either. -/
theorem observeServer_self {n : ℤ} (hn : 1 ≤ n) :
    (⟨n⟩ : SequenceTracker).observeServer n = .ok (true, ⟨n⟩) := by
  rw [observeServer, if_neg (show n ≠ 0 by omega), if_neg (show n ≠ n + 1 by omega),
    if_pos (le_refl n)]

/-- A fresh tracker takes any number. -/
theorem observeServer_fresh {n : ℤ} (hn : 1 ≤ n) :
    (⟨0⟩ : SequenceTracker).observeServer n = .ok (false, ⟨n⟩) := by
  rw [observeServer, if_pos rfl, if_neg (show ¬ n < 1 by omega)]

/-- An accepted number is where the tracker then stands. -/
theorem eq_of_observeServer {t t' : SequenceTracker} {s : ℤ}
    (h : t.observeServer s = .ok (false, t')) : t' = ⟨s⟩ := by
  rw [observeServer] at h
  split at h
  · split at h
    · cases h
    · cases h
      rfl
  · split at h
    · cases h
      rfl
    · split at h <;> cases h

end SequenceTracker

end Lumencast
