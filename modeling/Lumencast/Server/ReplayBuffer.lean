import Lumencast.Machinery.Buffer
import Lumencast.Protocol.Frames

/-!
# Server/ReplayBuffer — the ring of recent emissions

A scene remembers its last emissions so that a client that was away can be given them instead of a
snapshot.  `since` answers with the records after a number, or says that it cannot (`covered`).
-/

namespace Lumencast

open Machinery

/-- Default capacity. -/
def DEFAULT_REPLAY_BUFFER_SIZE : ℕ := 256

/-- One remembered emission. -/
structure ReplayRecord where
  seq : ℤ
  patches : List Patch
  cause : Option Cause := none

/-- The delta a replayed record is sent as. -/
def ReplayRecord.delta (r : ReplayRecord) : Frame :=
  .delta { patches := r.patches, seq := r.seq, cause := r.cause }

/-- Outcome of a `since` query; `covered = false` means the buffer does not reach back that far. -/
structure ReplaySlice where
  records : List ReplayRecord
  covered : Bool

/-- Bounded ring of replay records. -/
structure ReplayBuffer where
  records : BoundedDeque ReplayRecord

namespace ReplayBuffer

/-- An empty buffer; a capacity that is not positive means the default. -/
def new (capacity : ℤ) : ReplayBuffer :=
  ⟨BoundedDeque.new (if 0 < capacity then capacity.toNat else DEFAULT_REPLAY_BUFFER_SIZE)⟩

/-- Record one emission. -/
def push (b : ReplayBuffer) (record : ReplayRecord) : ReplayBuffer := ⟨b.records.append record⟩

/-- Every record after `sinceSeq`, if the buffer reaches back to it. -/
def since (b : ReplayBuffer) (sinceSeq : ℤ) : ReplaySlice :=
  match b.records.items.head? with
  | none => ⟨[], true⟩
  | some earliest =>
      if sinceSeq + 1 < earliest.seq then ⟨[], false⟩
      else ⟨b.records.items.filter fun r => sinceSeq < r.seq, true⟩

/-- Clear the buffer. -/
def reset (b : ReplayBuffer) : ReplayBuffer := ⟨b.records.clear⟩

/-- **How far back the buffer reaches**: to the number before its oldest record. -/
theorem covered_iff {b : ReplayBuffer} {s : ℤ} : (b.since s).covered = true ↔
    ∀ earliest, b.records.items.head? = some earliest → earliest.seq ≤ s + 1 := by
  rw [since]
  rcases b.records.items.head? with _ | earliest
  · simp
  · dsimp only
    split
    · rename_i hlt
      simp only [Bool.false_eq_true, Option.some.injEq, forall_eq', false_iff]
      exact not_le.mpr hlt
    · rename_i hlt
      simp only [Option.some.injEq, forall_eq', true_iff]
      exact not_lt.mp hlt

/-- What a covered query returns. -/
theorem records_of_covered {b : ReplayBuffer} {s : ℤ} (h : (b.since s).covered = true) :
    (b.since s).records = b.records.items.filter fun r => s < r.seq := by
  rw [since] at h ⊢
  rcases hitems : b.records.items with _ | ⟨r, rs⟩
  · rfl
  · rw [hitems] at h
    change (if s + 1 < r.seq then _ else _ : ReplaySlice).covered = true at h
    change (if s + 1 < r.seq then _ else _ : ReplaySlice).records = _
    split at h
    · exact absurd h Bool.false_ne_true
    · rename_i hlt
      rw [if_neg hlt]

end ReplayBuffer

end Lumencast
