import Mathlib.Data.List.Basic
import Mathlib.Data.List.Induction
import Mathlib.Tactic.Common

/-!
# Machinery/Replica — a replica fed over a lossy channel

A primary holds a state and tells a replica about it by **posts**: its full state, one update, or a
mark that changes nothing.  The channel may lose a post, and both ends keep a log of what was
offered.  The replica is in step with the primary as long as every loss has been made good by a full
state since (`InSync`); a channel `Recovers` when no update is ever delivered before that.
-/

universe u v w

namespace Machinery

/-- What a primary tells its replica: everything, one update, or nothing at all. -/
inductive Post (S : Type u) (U : Type v) where
  | full (s : S)
  | update (u : U)
  | mark

/-- How a log of offers reads: what each one posts, whether the channel took it, and what an update
does to a state. -/
structure Feed (ι : Type w) (S : Type u) (U : Type v) where
  post : ι → Post S U
  taken : ι → Bool
  act : S → U → S

namespace Feed

variable {ι : Type w} {S : Type u} {U : Type v} (F : Feed ι S U)

/-- The replica's state after one post. -/
def absorb (s : S) : Post S U → S
  | .full t => t
  | .update u => F.act s u
  | .mark => s

/-- One offer: absorbed if it was taken, ignored if it was lost. -/
def receive (s : S) (x : ι) : S := if F.taken x then F.absorb s (F.post x) else s

/-- The replica's state after a log of offers. -/
def shadow (s : S) (log : List ι) : S := log.foldl F.receive s

/-- Whether a loss is outstanding after one more offer. -/
def owedAfter (b : Bool) (x : ι) : Bool :=
  if F.taken x then
    match F.post x with
    | .full _ => false
    | _ => b
  else true

/-- Whether some offer was lost and no full state has been delivered since. -/
def owed (log : List ι) : Bool := log.foldl F.owedAfter false

/-- The replica, started at `s₀`, holds `s` unless a loss is outstanding. -/
def InSync (s₀ : S) (log : List ι) (s : S) : Prop := F.owed log = false → F.shadow s₀ log = s

/-- Between a loss and an update delivered after it, a full state was delivered. -/
def Recovers (log : List ι) : Prop :=
  ∀ a x b y c, log = a ++ x :: (b ++ y :: c) → F.taken x = false → F.taken y = true →
    (∃ u, F.post y = .update u) → ∃ z ∈ b, F.taken z = true ∧ ∃ s, F.post z = .full s

variable {F}

@[simp] theorem shadow_concat (s : S) (log : List ι) (x : ι) :
    F.shadow s (log ++ [x]) = F.receive (F.shadow s log) x := List.foldl_concat ..

@[simp] theorem owed_concat (log : List ι) (x : ι) :
    F.owed (log ++ [x]) = F.owedAfter (F.owed log) x := List.foldl_concat ..

/-! ## Staying in step

One rule per kind of offer; a log grows at the end. -/

theorem inSync_lost {s₀ s : S} {log : List ι} {x : ι} (hx : F.taken x = false) :
    F.InSync s₀ (log ++ [x]) s := fun h => by simp [owedAfter, hx] at h

theorem inSync_update {s₀ s : S} {log : List ι} {x : ι} {u : U} (h : F.InSync s₀ log s)
    (hu : F.post x = .update u) (ht : F.taken x = true) : F.InSync s₀ (log ++ [x]) (F.act s u) :=
  fun ho => by
    rw [owed_concat, owedAfter, if_pos ht, hu] at ho
    rw [shadow_concat, receive, if_pos ht, hu, absorb, h ho]

/-- **A full state puts the replica in step, whatever came before** — or is itself lost. -/
theorem inSync_full {s₀ s : S} {log : List ι} {x : ι} (hf : F.post x = .full s) :
    F.InSync s₀ (log ++ [x]) s := by
  rcases ht : F.taken x with _ | _
  · exact inSync_lost ht
  · intro _
    rw [shadow_concat, receive, if_pos ht, hf, absorb]

/-! ## Losses outstanding

A loss is made good by the next full state that is delivered, whatever is lost in between. -/

/-- A log no offer of which was lost has nothing outstanding. -/
theorem owed_eq_false_of_taken {log : List ι} (h : ∀ x ∈ log, F.taken x = true) :
    F.owed log = false := by
  induction log using List.reverseRecOn with
  | nil => rfl
  | append_singleton log x ih =>
    have hlog : F.owed log = false := ih fun y hy => h y (List.mem_append_left _ hy)
    rw [owed_concat, owedAfter, if_pos (h x (by simp)), hlog]
    split <;> rfl

/-- **What it takes to owe a full state**: a loss with no full state delivered after it. -/
theorem owed_iff {log : List ι} : F.owed log = true ↔ ∃ a x b, log = a ++ x :: b ∧
    F.taken x = false ∧ ∀ z ∈ b, F.taken z = true → ∀ s, F.post z ≠ .full s := by
  induction log using List.reverseRecOn with
  | nil => simp [owed]
  | append_singleton log y ih =>
    rw [owed_concat, owedAfter]
    constructor
    · intro h
      rcases hy : F.taken y with _ | _
      · exact ⟨log, y, [], rfl, hy, by simp⟩
      · rw [if_pos hy] at h
        have hfull : ∀ s, F.post y ≠ .full s := fun s hs => by simp [hs] at h
        have hlog : F.owed log = true := by
          split at h
          · cases h
          · exact h
        obtain ⟨a, x, b, rfl, hx, hb⟩ := ih.mp hlog
        refine ⟨a, x, b ++ [y], by simp, hx, fun z hz => ?_⟩
        rcases List.mem_append.mp hz with hz | hz
        · exact hb z hz
        · obtain rfl := List.mem_singleton.mp hz
          exact fun _ => hfull
    · rintro ⟨a, x, b, heq, hx, hb⟩
      rcases List.eq_nil_or_concat b with rfl | ⟨b', y', rfl⟩
      · obtain ⟨-, hxy⟩ := List.append_inj' heq rfl
        cases hxy
        rw [if_neg (by simp [hx])]
      · rw [List.concat_eq_append, ← List.cons_append, ← List.append_assoc] at heq
        obtain ⟨hlog, hyy⟩ := List.append_inj' heq rfl
        cases hyy
        have howed : F.owed log = true :=
          ih.mpr ⟨a, x, b', hlog, hx, fun z hz => hb z (by simp [hz])⟩
        split
        · rename_i ht
          split
          · rename_i s hs
            exact absurd hs (hb y (by simp) ht s)
          · exact howed
        · rfl

/-! ## Recovery

A channel recovers as long as no update gets through while something is missing.  The first that
does is where it fails. -/

theorem recovers_nil : F.Recovers [] := fun a x b y c h => by simp at h

/-- **Recovery fails exactly at an update delivered while a loss is outstanding.** -/
theorem recovers_concat {log : List ι} {y : ι} : F.Recovers (log ++ [y]) ↔ F.Recovers log ∧
    (F.taken y = true → (∃ u, F.post y = .update u) → F.owed log = false) := by
  constructor
  · intro h
    refine ⟨fun a x b z c heq => h a x b z (c ++ [y]) (by rw [heq]; simp), fun ht hu => ?_⟩
    by_contra howed
    obtain ⟨a, x, b, rfl, hx, hb⟩ := owed_iff.mp (by simpa using howed)
    obtain ⟨z, hz, hzt, s, hs⟩ := h a x b y [] (by simp) hx ht hu
    exact hb z hz hzt s hs
  · rintro ⟨h, hlast⟩ a x b z c heq hx hz hu
    rcases List.eq_nil_or_concat c with rfl | ⟨c', y', rfl⟩
    · rw [show a ++ x :: (b ++ [z]) = (a ++ x :: b) ++ [z] by simp] at heq
      obtain ⟨rfl, hyz⟩ := List.append_inj' heq rfl
      cases hyz
      by_contra hno
      push Not at hno
      have howed : F.owed (a ++ x :: b) = true :=
        owed_iff.mpr ⟨a, x, b, rfl, hx, fun w hw hwt s hs => hno w hw hwt s hs⟩
      rw [hlast hz hu] at howed
      cases howed
    · rw [List.concat_eq_append, show a ++ x :: (b ++ z :: (c' ++ [y']))
        = (a ++ x :: (b ++ z :: c')) ++ [y'] by simp] at heq
      obtain ⟨rfl, -⟩ := List.append_inj' heq rfl
      exact h a x b z c' rfl hx hz hu

end Feed

end Machinery
