import Lumencast.Server.Acts

/-!
# Resume/Log — what a scene has emitted, and what it remembers of it

`Emission`s are numbered from `2`, the counter of a fresh scene being at `1`.  The ring holds the
last `256` of them (`Remembers`), so a query of the ring is a question about the end of the log:
`resumes_iff` says which numbers it can answer for, `records_eq` what it answers.
-/

namespace Lumencast

open Machinery

/-- What is emitted: patches on the wire, and why. -/
structure Emission where
  patches : List Patch
  cause : Option Cause

/-- The records of a log numbered from `n`. -/
def numbered (n : ℤ) : List Emission → List ReplayRecord
  | [] => []
  | e :: log => ⟨n, e.patches, e.cause⟩ :: numbered (n + 1) log

@[simp] theorem length_numbered : ∀ (log : List Emission) (n : ℤ),
    (numbered n log).length = log.length
  | [], _ => rfl
  | _ :: log, n => congrArg (· + 1) (length_numbered log (n + 1))

theorem numbered_append : ∀ (log log' : List Emission) (n : ℤ),
    numbered n (log ++ log') = numbered n log ++ numbered (n + log.length) log'
  | [], log', n => by
      have hn : n + (([] : List Emission).length : ℤ) = n := Int.add_zero n
      rw [hn]
      rfl
  | e :: log, log', n => by
      have hn : n + ((e :: log).length : ℤ) = n + 1 + (log.length : ℤ) := by
        rw [List.length_cons]
        omega
      rw [List.cons_append, numbered, numbered, numbered_append log log', hn, List.cons_append]

/-- Dropping records drops emissions. -/
theorem drop_numbered : ∀ (log : List Emission) (n : ℤ) (d : ℕ),
    (numbered n log).drop d = numbered (n + d) (log.drop d)
  | log, n, 0 => by
      have hn : n + ((0 : ℕ) : ℤ) = n := Int.add_zero n
      rw [List.drop_zero, List.drop_zero, hn]
  | [], n, d + 1 => rfl
  | e :: log, n, d + 1 => by
      have hn : n + 1 + (d : ℤ) = n + ((d + 1 : ℕ) : ℤ) := by omega
      rw [numbered, List.drop_succ_cons, List.drop_succ_cons, drop_numbered log, hn]

/-- A query keeps everything when it reaches back far enough. -/
theorem filter_numbered_of_lt : ∀ (log : List Emission) {n s : ℤ}, s < n →
    (numbered n log).filter (fun r => s < r.seq) = numbered n log
  | [], _, _, _ => rfl
  | e :: log, n, s, h => by
      rw [numbered, List.filter_cons_of_pos (by simpa using h),
        filter_numbered_of_lt log (by omega)]

/-- **The records after a number are the end of the log.** -/
theorem filter_numbered : ∀ (log : List Emission) {n s : ℤ}, n ≤ s + 1 →
    (numbered n log).filter (fun r => s < r.seq)
      = numbered (s + 1) (log.drop (s + 1 - n).toNat)
  | [], n, s, _ => by rw [List.drop_nil]; rfl
  | e :: log, n, s, h => by
      by_cases hn : n = s + 1
      · have hdrop : (s + 1 - n).toNat = 0 := by omega
        rw [hdrop, List.drop_zero, ← hn]
        exact filter_numbered_of_lt _ (by omega)
      · have hdrop : (s + 1 - n).toNat = (s + 1 - (n + 1)).toNat + 1 := by omega
        have hnot : ¬ s < n := by omega
        rw [numbered, List.filter_cons_of_neg (by simpa using hnot), hdrop, List.drop_succ_cons]
        exact filter_numbered log (by omega)

/-- A client is given no snapshot exactly when it resumes. -/
theorem Scene.resumeAnswer_eq_none {sc : Scene} {since : Option ℤ} :
    (sc.resumeAnswer since).1 = none ↔ sc.resumes since = true := by
  rw [resumeAnswer]
  by_cases h : sc.resumes since = true
  · simp [h]
  · simp [h]

/-! ## What a scene remembers

The log is not in the source: it is what the ring would hold if it had room for everything.  The
ring is its end, so the oldest record says how far back it reaches. -/

/-- The scene has emitted `log`, and its ring holds the last of it. -/
structure Remembers (sc : Scene) (log : List Emission) : Prop where
  seq : sc.currentSeq = 1 + log.length
  maxlen : sc.replay.records.maxlen = DEFAULT_REPLAY_BUFFER_SIZE
  items : sc.replay.records.items
    = (numbered 2 log).drop (log.length - DEFAULT_REPLAY_BUFFER_SIZE)

namespace Remembers

variable {sc sc' : Scene} {log : List Emission}

/-- A scene whose counter and ring are fresh has emitted nothing. -/
theorem of_fresh (hseq : sc.currentSeq = 1)
    (hreplay : sc.replay = .new DEFAULT_REPLAY_BUFFER_SIZE) : Remembers sc [] :=
  ⟨hseq, by rw [hreplay]; rfl, by rw [hreplay]; rfl⟩

/-- Only the counter and the ring matter. -/
theorem congr (h : Remembers sc log) (hseq : sc'.seq = sc.seq) (hreplay : sc'.replay = sc.replay) :
    Remembers sc' log :=
  ⟨by rw [Scene.currentSeq, hseq]; exact h.seq, by rw [hreplay]; exact h.maxlen,
    by rw [hreplay]; exact h.items⟩

/-- An emission is remembered. -/
theorem emitted (h : Remembers sc log) (patches : Dict PyStr Json) (cause : Option Cause) :
    Remembers (sc.emitted patches cause)
      (log ++ [⟨Scene.wirePatches patches.entries, cause⟩]) where
  seq := by
    have hcur : (sc.emitted patches cause).currentSeq = sc.currentSeq + 1 := rfl
    rw [hcur, h.seq, List.length_append, List.length_singleton]
    omega
  maxlen := h.maxlen
  items := by
    have hrecord : numbered (2 + log.length) [⟨Scene.wirePatches patches.entries, cause⟩]
        = [⟨sc.seq.cur + 1, Scene.wirePatches patches.entries, cause⟩] := by
      have hcur : sc.seq.cur = 1 + log.length := h.seq
      rw [numbered, numbered, hcur]
      congr 2
      omega
    have hitems : sc.replay.records.items = (numbered 2 log).drop
        ((numbered 2 log).length - sc.replay.records.maxlen) := by
      rw [h.items, length_numbered, h.maxlen]
    have hpush := BoundedDeque.items_append_of_suffix hitems
      ⟨sc.seq.cur + 1, Scene.wirePatches patches.entries, cause⟩
    rw [← hrecord, ← numbered_append, length_numbered, h.maxlen] at hpush
    exact hpush

/-- The ring, numbered from its oldest record. -/
theorem items_eq (h : Remembers sc log) : sc.replay.records.items
    = numbered (2 + (log.length - DEFAULT_REPLAY_BUFFER_SIZE : ℕ))
        (log.drop (log.length - DEFAULT_REPLAY_BUFFER_SIZE)) := by
  rw [h.items, drop_numbered]

/-- **How far back the ring reaches.** -/
theorem covered_iff (h : Remembers sc log) {s : ℤ} (hs : 1 ≤ s) :
    (sc.replay.since s).covered = true ↔
      sc.currentSeq - s ≤ (DEFAULT_REPLAY_BUFFER_SIZE : ℤ) := by
  have hseq := h.seq
  rw [ReplayBuffer.since, h.items_eq]
  rcases hdrop : log.drop (log.length - DEFAULT_REPLAY_BUFFER_SIZE) with _ | ⟨e, rest⟩
  · have hlen : log.length ≤ log.length - DEFAULT_REPLAY_BUFFER_SIZE :=
      List.drop_eq_nil_iff.mp hdrop
    have hzero : DEFAULT_REPLAY_BUFFER_SIZE = 256 := rfl
    refine ⟨fun _ => ?_, fun _ => rfl⟩
    omega
  · have hsize : DEFAULT_REPLAY_BUFFER_SIZE = 256 := rfl
    change (if s + 1 < 2 + ((log.length - DEFAULT_REPLAY_BUFFER_SIZE : ℕ) : ℤ)
      then _ else _ : ReplaySlice).covered = true ↔ _
    split
    · rename_i hlt
      exact ⟨fun hc => absurd hc Bool.false_ne_true, fun hle => absurd hlt (by omega)⟩
    · rename_i hlt
      exact ⟨fun _ => by omega, fun _ => rfl⟩

/-- **Which numbers a client can resume from.** -/
theorem resumes_iff (h : Remembers sc log) (s : ℤ) : sc.resumes (some s) = true ↔
    1 ≤ s ∧ s ≤ sc.currentSeq ∧ sc.currentSeq - s ≤ (DEFAULT_REPLAY_BUFFER_SIZE : ℤ) := by
  rw [Scene.resumes, Bool.and_eq_true, Bool.and_eq_true, decide_eq_true_iff, decide_eq_true_iff,
    and_assoc]
  refine and_congr_right fun hpos => and_congr_right fun _ => h.covered_iff hpos

/-- **…and what it is given**: the emissions after its number, as they were. -/
theorem records_eq (h : Remembers sc log) {s : ℤ} (hs : sc.resumes (some s) = true) :
    (sc.replay.since s).records = numbered (s + 1) (log.drop (s - 1).toNat) := by
  obtain ⟨hpos, hcur, hreach⟩ := (h.resumes_iff s).mp hs
  have hseq := h.seq
  have hsize : DEFAULT_REPLAY_BUFFER_SIZE = 256 := rfl
  rw [ReplayBuffer.records_of_covered ((h.covered_iff hpos).mpr hreach), h.items_eq,
    filter_numbered _ (by omega), List.drop_drop]
  congr 2
  omega

end Remembers

end Lumencast
