import Lumencast.Protocol.Sequence

/-!
# Protocol/Receiver — once each, and in order

A receiver calls `observe_server` once for each frame that reaches it.  `call` is that call as the
source makes it, with the counter it leaves behind whether it returns or raises; the receiver is a
run of calls.  What it accepts is a stretch of consecutive numbers, and by the time it accepts a
number every smaller one of the stretch has been delivered.

Where the stretch starts is up to the channel: a fresh tracker takes any number from `1` on as its
baseline, so nothing is said of the frames before the first one accepted.
-/

namespace Lumencast

open Machinery

namespace SequenceTracker

/-- One call of `observe_server`: what it returns or raises, and the tracker afterwards. -/
def call (t : SequenceTracker) (seq : ℤ) : Except SequenceError Bool × SequenceTracker :=
  if t.cur = 0 then
    if seq < 1 then (.error (.invalidStart seq), t)
    else (.ok false, { t with cur := seq })
  else if seq = t.cur + 1 then (.ok false, { t with cur := seq })
  else if seq ≤ t.cur then (.ok true, t)
  else (.error (.gap (t.cur + 1) seq), t)

/-- `observeServer` is the call with the tracker an exception leaves forgotten. -/
theorem observeServer_eq_call (t : SequenceTracker) (seq : ℤ) :
    t.observeServer seq = (t.call seq).1.map fun drop => (drop, (t.call seq).2) := by
  rw [observeServer, call]
  split
  · split <;> rfl
  · split
    · rfl
    · split <;> rfl

/-- The tracker after a call. -/
def called (t : SequenceTracker) (seq : ℤ) : SequenceTracker := (t.call seq).2

/-- The call returns `False`: the frame is taken. -/
def takes (t : SequenceTracker) (seq : ℤ) : Bool :=
  match (t.call seq).1 with
  | .ok drop => !drop
  | .error _ => false

/-- What a tracker accepts of the numbers it is called with. -/
def accepted (t : SequenceTracker) (seqs : List ℤ) : List ℤ := kept called takes t seqs

/-- Nothing from `s` on is accepted before every number from `s` up to it has been delivered. -/
def NothingSkipped (s : ℤ) (seqs : List ℤ) : Prop :=
  ∀ pre seq post, seqs = pre ++ seq :: post → (run called {} pre).takes seq = true →
    ∀ k, s ≤ k → k < seq → k ∈ pre

/-! ## One call -/

/-- **What a call can do**: refuse a stream's start, take a baseline, take the next number, report a
replay, or find a gap. -/
theorem call_cases (t : SequenceTracker) (seq : ℤ) :
    (t.cur = 0 ∧ seq < 1 ∧ t.call seq = (.error (.invalidStart seq), t)) ∨
      (t.cur = 0 ∧ 1 ≤ seq ∧ t.call seq = (.ok false, ⟨seq⟩)) ∨
      (t.cur ≠ 0 ∧ seq = t.cur + 1 ∧ t.call seq = (.ok false, ⟨seq⟩)) ∨
      (t.cur ≠ 0 ∧ seq ≤ t.cur ∧ t.call seq = (.ok true, t)) ∨
      (t.cur ≠ 0 ∧ t.cur + 1 < seq ∧ t.call seq = (.error (.gap (t.cur + 1) seq), t)) := by
  rw [call]
  by_cases h0 : t.cur = 0
  · by_cases hstart : seq < 1
    · exact Or.inl ⟨h0, hstart, by rw [if_pos h0, if_pos hstart]⟩
    · exact Or.inr (Or.inl ⟨h0, not_lt.mp hstart, by rw [if_pos h0, if_neg hstart]⟩)
  · rw [if_neg h0]
    by_cases hnext : seq = t.cur + 1
    · exact Or.inr (Or.inr (Or.inl ⟨h0, hnext, if_pos hnext⟩))
    · rw [if_neg hnext]
      by_cases hle : seq ≤ t.cur
      · exact Or.inr (Or.inr (Or.inr (Or.inl ⟨h0, hle, if_pos hle⟩)))
      · exact Or.inr (Or.inr (Or.inr (Or.inr ⟨h0, by omega, if_neg hle⟩)))

/-- A call either takes the number, which is then where the tracker stands, or changes nothing. -/
theorem called_eq (t : SequenceTracker) (seq : ℤ) :
    t.called seq = if t.takes seq = true then ⟨seq⟩ else t := by
  obtain ⟨-, -, h⟩ | ⟨-, -, h⟩ | ⟨-, -, h⟩ | ⟨-, -, h⟩ | ⟨-, -, h⟩ := call_cases t seq <;>
    simp [called, takes, h]

/-- An exception is raised before the counter is touched. -/
theorem called_of_error {t : SequenceTracker} {seq : ℤ} {e : SequenceError}
    (h : (t.call seq).1 = .error e) : t.called seq = t := by
  have hno : t.takes seq = false := by rw [takes, h]
  rw [called_eq, if_neg (by rw [hno]; decide)]

/-- A fresh tracker takes any number from `1` on. -/
theorem takes_fresh {t : SequenceTracker} (h0 : t.cur = 0) {seq : ℤ} :
    t.takes seq = true ↔ 1 ≤ seq := by
  obtain ⟨-, hs, h⟩ | ⟨-, hs, h⟩ | ⟨hne, -, -⟩ | ⟨hne, -, -⟩ | ⟨hne, -, -⟩ := call_cases t seq
  · simpa [takes, h] using hs
  · simpa [takes, h] using hs
  all_goals exact absurd h0 hne

/-- A tracker that has started takes the next number, drops what is behind, and finds a gap in
front of anything else. -/
theorem call_started {t : SequenceTracker} (hne : t.cur ≠ 0) (seq : ℤ) :
    (t.takes seq = true ↔ seq = t.cur + 1) ∧
      ((t.call seq).1 = .ok true ↔ seq ≤ t.cur) ∧
      ((∃ expected got, (t.call seq).1 = .error (.gap expected got)) ↔ t.cur + 1 < seq) := by
  obtain ⟨h0, -, -⟩ | ⟨h0, -, -⟩ | ⟨-, rfl, h⟩ | ⟨-, hs, h⟩ | ⟨-, hs, h⟩ := call_cases t seq
  · exact absurd h0 hne
  · exact absurd h0 hne
  · simp [takes, h, show ¬ t.cur + 1 ≤ t.cur by omega]
  · simp [takes, h, hs, show seq ≠ t.cur + 1 by omega]
    omega
  · simp [takes, h, hs, show seq ≠ t.cur + 1 by omega]
    omega

/-! ## Every call

The invariant names the stretch: what has been taken is the consecutive numbers from the baseline
up to the counter. -/

/-- Where a receiver stands after `seqs`: either nothing has been taken, or the numbers from `b` up
to the counter have, one after another, and each of them has been delivered. -/
def Received (seqs : List ℤ) : Prop :=
  (accepted {} seqs = [] ∧ run called {} seqs = {}) ∨
    ∃ (b : ℤ) (n : ℕ), 1 ≤ b ∧ accepted {} seqs = consecutive b (n + 1) ∧
      run called {} seqs = ⟨b + n⟩ ∧ ∀ k, b ≤ k → k ≤ b + n → k ∈ seqs

theorem received_nil : Received [] := Or.inl ⟨rfl, rfl⟩

theorem accepted_concat (t : SequenceTracker) (seqs : List ℤ) (seq : ℤ) :
    accepted t (seqs ++ [seq])
      = accepted t seqs ++ if (run called t seqs).takes seq = true then [seq] else [] :=
  kept_append takes [seq] seqs t

/-- **One more call** keeps the receiver where it stands or carries the stretch one number on. -/
theorem Received.concat {seqs : List ℤ} (h : Received seqs) (seq : ℤ) :
    Received (seqs ++ [seq]) := by
  rw [Received, accepted_concat, run_concat, called_eq]
  obtain ⟨hacc, hrun⟩ | ⟨b, n, hb, hacc, hrun, hall⟩ := h
  · rw [hrun, hacc]
    by_cases htakes : ({} : SequenceTracker).takes seq = true
    · have hseq : 1 ≤ seq := (takes_fresh rfl).mp htakes
      rw [if_pos htakes, if_pos htakes]
      refine Or.inr ⟨seq, 0, hseq, ?_, ?_, fun k hk hk' => ?_⟩
      · simp [consecutive]
      · simp
      · obtain rfl : k = seq := by omega
        exact List.mem_concat_self
    · rw [if_neg htakes, if_neg htakes]
      exact Or.inl ⟨rfl, rfl⟩
  · rw [hrun, hacc]
    have hne : (⟨b + n⟩ : SequenceTracker).cur ≠ 0 := by
      change b + (n : ℤ) ≠ 0
      omega
    by_cases htakes : (⟨b + n⟩ : SequenceTracker).takes seq = true
    · have hseq : seq = b + n + 1 := (call_started hne seq).1.mp htakes
      rw [if_pos htakes, if_pos htakes]
      refine Or.inr ⟨b, n + 1, hb, ?_, ?_, fun k hk hk' => ?_⟩
      · rw [consecutive_succ b (n + 1), hseq]
        push_cast
        rw [← Int.add_assoc]
      · rw [hseq]
        push_cast
        rw [← Int.add_assoc]
      · rcases eq_or_ne k seq with rfl | hks
        · exact List.mem_concat_self
        · exact List.mem_append_left _ (hall k hk (by omega))
    · rw [if_neg htakes, if_neg htakes, List.append_nil]
      exact Or.inr ⟨b, n, hb, rfl, rfl, fun k hk hk' => List.mem_append_left _ (hall k hk hk')⟩

theorem received (seqs : List ℤ) : Received seqs := by
  induction seqs using List.reverseRecOn with
  | nil => exact received_nil
  | append_singleton seqs seq ih => exact ih.concat seq

/-! ## What the receiver promises -/

theorem nodup_consecutive (b : ℤ) (n : ℕ) : (consecutive b n).Nodup :=
  List.Nodup.map (fun i j hij => by omega) List.nodup_range

/-- A tracker that has taken something has started. -/
theorem started {seqs : List ℤ} (h : accepted {} seqs ≠ []) : (run called {} seqs).cur ≠ 0 := by
  obtain ⟨hacc, -⟩ | ⟨b, n, hb, -, hrun, -⟩ := received seqs
  · exact absurd hacc h
  · rw [hrun]
    change b + (n : ℤ) ≠ 0
    omega

/-- What is accepted later comes after what is accepted first. -/
theorem head_accepted {pre post : List ℤ} {b : ℤ} {rest : List ℤ}
    (h : accepted {} (pre ++ post) = b :: rest) (hne : accepted {} pre ≠ []) :
    ∃ rest', accepted {} pre = b :: rest' := by
  rw [accepted, kept_append] at h
  obtain ⟨b', rest', hpre⟩ := List.exists_cons_of_ne_nil hne
  rw [accepted] at hpre
  rw [hpre, List.cons_append, List.cons.injEq] at h
  exact ⟨rest', h.1 ▸ hpre⟩

/-- **Nothing between the first number taken and the last is missing.** -/
theorem nothingSkipped_of_accepted {seqs : List ℤ} {b : ℤ} {rest : List ℤ}
    (h : accepted {} seqs = b :: rest) : NothingSkipped b seqs := by
  rintro pre seq post rfl htakes k hk hlt
  have hne : accepted {} (pre ++ [seq]) ≠ [] := by
    rw [accepted_concat, if_pos htakes]
    exact List.concat_ne_nil _ _
  rw [List.append_cons] at h
  obtain ⟨rest', hhead⟩ := head_accepted h hne
  obtain ⟨hnone, -⟩ | ⟨b', n, -, hacc, hrun, hall⟩ := received (pre ++ [seq])
  · exact absurd hnone hne
  · -- the stretch starts at `b`, and the call has carried it up to `seq`
    obtain rfl : b' = b := by
      rw [hacc, consecutive_cons, List.cons.injEq] at hhead
      exact hhead.1
    have hseq : seq = b' + n := by
      rw [run_concat, called_eq, if_pos htakes] at hrun
      exact congrArg SequenceTracker.cur hrun
    have hmem := hall k hk (by omega)
    rcases List.mem_append.mp hmem with hin | hin
    · exact hin
    · exact absurd (List.mem_singleton.mp hin) (by omega)

/-- **The receiver accepts each frame once and in order.** -/
theorem receiver_accepts_in_order (seqs : List ℤ) :
    (accepted {} seqs = [] ∨
        ∃ (b : ℤ) (n : ℕ), 1 ≤ b ∧ accepted {} seqs = consecutive b (n + 1)) ∧
      (accepted {} seqs).Nodup ∧
      Steps called (fun t seq =>
        ∀ e, (t.call seq).1 = .error e → (t.called seq).current = t.current) {} seqs ∧
      (∀ pre seq post, seqs = pre ++ seq :: post → accepted {} pre ≠ [] →
        let t := run called {} pre
        ((t.call seq).1 = .ok true ↔ seq ≤ t.current) ∧
          ((∃ expected got, (t.call seq).1 = .error (.gap expected got)) ↔
            t.current + 1 < seq)) ∧
      ∀ b rest, accepted {} seqs = b :: rest → NothingSkipped b seqs := by
  refine ⟨?_, ?_, ?_, ?_, fun b rest h => nothingSkipped_of_accepted h⟩
  · obtain ⟨hnone, -⟩ | ⟨b, n, hb, hacc, -, -⟩ := received seqs
    · exact Or.inl hnone
    · exact Or.inr ⟨b, n, hb, hacc⟩
  · obtain ⟨hnone, -⟩ | ⟨b, n, -, hacc, -, -⟩ := received seqs
    · rw [hnone]
      exact List.nodup_nil
    · rw [hacc]
      exact nodup_consecutive b (n + 1)
  · intro pre seq post _ e he
    rw [called_of_error he]
  · intro pre seq post _ hne
    exact (call_started (started hne) seq).2

/-- **A baseline may come late**: where the channel loses the first frame of a stream, the second
is taken all the same. -/
theorem late_baseline_skips : ¬ ∀ (s : ℤ) (seqs : List ℤ), (∀ seq ∈ seqs, s ≤ seq) →
    NothingSkipped s seqs := by
  intro h
  have hin := h 1 [2] (by decide) [] 2 [] rfl (by decide) 1 (by decide) (by decide)
  cases hin

end SequenceTracker

end Lumencast
