import Lumencast.Machinery.Run
import Lumencast.Server.ReplayBuffer

/-!
# Server/Coverage — what a covered query of the ring leaves out

A history of a `ReplayBuffer` is a list of pushes and resets.  The ring holds the end of what was
pushed since the last reset (`Window`), so a query that is covered by a record leaves nothing out:
what was dropped in front of that record, or cleared before it, has a lower number.  An empty ring
covers every query and knows nothing; `since_complete` says which queries are complete.
-/

namespace Lumencast.ReplayBuffer

open Machinery

/-! ## Histories

Two logs are kept beside the ring: all that was ever pushed, and what was pushed since the last
reset. -/

/-- What is done to a buffer. -/
inductive Op where
  | push (record : ReplayRecord)
  | reset

/-- One operation. -/
def apply (b : ReplayBuffer) : Op → ReplayBuffer
  | .push record => b.push record
  | .reset => b.reset

/-- The record an operation pushes. -/
def Op.pushed? : Op → Option ReplayRecord
  | .push record => some record
  | .reset => none

/-- Every record that was ever pushed. -/
def pushed (ops : List Op) : List ReplayRecord := ops.filterMap Op.pushed?

/-- The records since the last reset, after one more operation. -/
def keep (log : List ReplayRecord) : Op → List ReplayRecord
  | .push record => log ++ [record]
  | .reset => []

/-- What was pushed since the last reset. -/
def sinceReset (ops : List Op) : List ReplayRecord := run keep [] ops

/-- The buffer a history leaves behind. -/
def after (capacity : ℤ) (ops : List Op) : ReplayBuffer := run apply (new capacity) ops

/-- The numbers of records grow. -/
def Increasing (records : List ReplayRecord) : Prop := records.Pairwise fun r r' => r.seq < r'.seq

instance (records : List ReplayRecord) : Decidable (Increasing records) :=
  inferInstanceAs (Decidable (List.Pairwise _ _))

/-- The records after a number. -/
def beyond (s : ℤ) (records : List ReplayRecord) : List ReplayRecord :=
  records.filter fun r => s < r.seq

theorem beyond_eq_nil {s : ℤ} {records : List ReplayRecord} :
    beyond s records = [] ↔ ∀ r ∈ records, r.seq ≤ s := by
  simp only [beyond, List.filter_eq_nil_iff, decide_eq_true_eq, not_lt]

/-- **The end of a log answers for all of it**, if it reaches back far enough. -/
theorem beyond_of_suffix {s : ℤ} {log records : List ReplayRecord} (hlog : Increasing log)
    (hsuffix : records <:+ log) {earliest : ReplayRecord}
    (hhead : records.head? = some earliest) (hreach : earliest.seq ≤ s + 1) :
    beyond s records = beyond s log :=
  filter_of_suffix hlog hsuffix (List.mem_of_head? hhead) fun r hlt => by
    have hpassed : r.seq ≤ s := by omega
    exact decide_eq_false (not_lt.mpr hpassed)

/-! ## The window

The ring is a suffix of the second log, which is a suffix of the first.  Nothing else is needed
to answer a query. -/

/-- The buffer holds the last records pushed since the reset, and of these the last one at least. -/
structure Window (b : ReplayBuffer) (log : List ReplayRecord) : Prop where
  maxlen : 0 < b.records.maxlen
  items : b.records.items = log.drop (log.length - b.records.maxlen)

namespace Window

variable {b : ReplayBuffer} {log : List ReplayRecord}

theorem of_new (capacity : ℤ) : Window (new capacity) [] := by
  refine ⟨?_, List.drop_nil.symm⟩
  change 0 < if 0 < capacity then capacity.toNat else DEFAULT_REPLAY_BUFFER_SIZE
  split
  · omega
  · decide

/-- **One operation**: a push drops from the front what no longer fits, a reset clears. -/
theorem step (h : Window b log) : ∀ op : Op, Window (b.apply op) (keep log op)
  | .push record => ⟨h.maxlen, BoundedDeque.items_append_of_suffix h.items record⟩
  | .reset => ⟨h.maxlen, List.drop_nil.symm⟩

theorem suffix (h : Window b log) : b.records.items <:+ log := by
  rw [h.items]
  exact List.drop_suffix _ _

end Window

/-- **What a history leaves in the ring.** -/
theorem window_after (capacity : ℤ) (ops : List Op) :
    Window (after capacity ops) (sinceReset ops) := by
  induction ops using List.reverseRecOn with
  | nil => exact .of_new capacity
  | append_singleton ops op ih =>
      rw [after, sinceReset, run_concat, run_concat]
      exact ih.step op

theorem pushed_concat (ops : List Op) (op : Op) :
    pushed (ops ++ [op]) = pushed ops ++ op.pushed?.toList := by
  rw [pushed, List.filterMap_append]
  cases op <;> rfl

/-- What was pushed since the last reset was pushed last. -/
theorem sinceReset_suffix (ops : List Op) : sinceReset ops <:+ pushed ops := by
  induction ops using List.reverseRecOn with
  | nil => exact List.nil_suffix
  | append_singleton ops op ih =>
      rw [sinceReset, run_concat, pushed_concat]
      cases op with
      | push record => exact List.suffix_append_inj_of_length_eq rfl |>.mpr ⟨ih, rfl⟩
      | reset => exact List.nil_suffix

/-! ## Coverage

The numbers grow, so what comes after a number is a suffix too, and two suffixes of one list are
comparable. -/

/-- What a query that is covered returns. -/
theorem since_eq {capacity : ℤ} {ops : List Op} (hseq : Increasing (pushed ops)) {s : ℤ}
    (hcovered : ((after capacity ops).since s).covered = true) :
    ((after capacity ops).since s).records = beyond s (sinceReset ops) ∧
      (sinceReset ops ≠ [] → beyond s (sinceReset ops) = beyond s (pushed ops)) := by
  have hwindow := window_after capacity ops
  have hsuffix := sinceReset_suffix ops
  rw [records_of_covered hcovered, ← beyond]
  rcases hitems : (after capacity ops).records.items with _ | ⟨earliest, rest⟩
  · have hnone := (BoundedDeque.items_eq_nil_iff hwindow.maxlen hwindow.items).mp hitems
    exact ⟨by rw [hnone], fun hne => absurd hnone hne⟩
  · have hhead : (after capacity ops).records.items.head? = some earliest := by
      rw [hitems]
      rfl
    have hreach := covered_iff.mp hcovered earliest hhead
    have hsince := beyond_of_suffix (hseq.sublist hsuffix.sublist) hwindow.suffix hhead hreach
    have hpushed := beyond_of_suffix hseq (hwindow.suffix.trans hsuffix) hhead hreach
    rw [hitems] at hsince hpushed
    exact ⟨hsince, fun _ => hsince.symm.trans hpushed⟩

/-- **Which covered queries are complete.**  What is returned is everything after the number since
the last reset, in order.  It is everything after the number that was ever pushed, unless nothing
was pushed since a reset that cleared some of it: whether an empty ring will do is left to the
caller, who knows the current number. -/
theorem since_complete {capacity : ℤ} {ops : List Op} (hseq : Increasing (pushed ops)) {s : ℤ}
    (hcovered : ((after capacity ops).since s).covered = true) :
    ((after capacity ops).since s).records = beyond s (sinceReset ops) ∧
      Increasing ((after capacity ops).since s).records ∧
      (((after capacity ops).since s).records = beyond s (pushed ops) ↔
        sinceReset ops ≠ [] ∨ ∀ r ∈ pushed ops, r.seq ≤ s) := by
  obtain ⟨hrecords, hcomplete⟩ := since_eq hseq hcovered
  have hordered : Increasing (beyond s (sinceReset ops)) :=
    (hseq.sublist (sinceReset_suffix ops).sublist).filter _
  rw [hrecords]
  refine ⟨rfl, hordered, fun heq => ?_, ?_⟩
  · by_cases hnone : sinceReset ops = []
    · rw [hnone] at heq
      exact Or.inr (beyond_eq_nil.mp heq.symm)
    · exact Or.inl hnone
  · rintro (hne | hpassed)
    · exact hcomplete hne
    · have hnil := beyond_eq_nil.mpr hpassed
      have hsub := ((sinceReset_suffix ops).filter fun r => decide (s < r.seq))
      rw [← beyond, ← beyond, hnil] at hsub
      rw [hnil, List.suffix_nil.mp hsub]

/-- A record without patches. -/
def numberedRecord (seq : ℤ) : ReplayRecord := { seq := seq, patches := [] }

/-- Three records, a reset, and three more with gaps between them. -/
def gappyHistory : List Op :=
  [.push (numberedRecord 1), .push (numberedRecord 2), .push (numberedRecord 4), .reset,
    .push (numberedRecord 5), .push (numberedRecord 8), .push (numberedRecord 9)]

/-- A ring of two records answers for all that came after the one it dropped. -/
theorem since_complete_gappy :
    ((after 2 gappyHistory).since 7).records = beyond 7 (pushed gappyHistory) := by
  have hseq : Increasing (pushed gappyHistory) := by decide
  have hcovered : ((after 2 gappyHistory).since 7).covered = true := by decide
  exact (since_complete hseq hcovered).2.2.mpr (Or.inl (List.cons_ne_nil _ _))

/-- A record, and a reset. -/
def clearedHistory : List Op := [.push (numberedRecord 1), .reset]

/-- **An empty ring covers what it has cleared.** -/
theorem clearedHistory_covered : Increasing (pushed clearedHistory) ∧
    ((after 4 clearedHistory).since 0).covered = true ∧
    ((after 4 clearedHistory).since 0).records = [] ∧
    beyond 0 (pushed clearedHistory) = [numberedRecord 1] :=
  ⟨by decide, rfl, rfl, rfl⟩

end Lumencast.ReplayBuffer
