import Mathlib.Data.List.Basic
import Mathlib.Data.List.Induction
import Mathlib.Tactic.Common

/-!
# Machinery/LastWrite — what a sequence of writes leaves at a key

A write touches some keys and leaves a value, or nothing, at each; what a sequence of writes leaves
at a key is decided by the `lastWriter` of that key.  Leaving some of the writes out therefore
matters at a key exactly when its last writer is left out and had something to say
(`foldl_filter_eq_iff`).
-/

universe u v w

namespace Machinery.LastWrite

variable {κ : Type u} {ν : Type v} {ω : Type w} (touch : ω → κ → Option (Option ν))

/-- A map after one write; `touch w k` is what `w` leaves at `k`, `none` where it does not reach. -/
def write (m : κ → Option ν) (w : ω) : κ → Option ν := fun k => (touch w k).getD (m k)

/-- The last write that touches a key. -/
def lastWriter (ws : List ω) (k : κ) : Option ω :=
  ws.foldl (fun last w => if (touch w k).isSome then some w else last) none

theorem lastWriter_concat (ws : List ω) (w : ω) (k : κ) : lastWriter touch (ws ++ [w]) k
    = if (touch w k).isSome then some w else lastWriter touch ws k := List.foldl_concat ..

/-- **The last writer decides.** -/
theorem foldl_write (m : κ → Option ν) (k : κ) (ws : List ω) : ws.foldl (write touch) m k
    = (lastWriter touch ws k).elim (m k) fun w => (touch w k).getD (m k) := by
  induction ws using List.reverseRecOn with
  | nil => rfl
  | append_singleton ws w ih =>
    rw [List.foldl_concat, lastWriter_concat, write, ih]
    rcases htouch : touch w k with _ | v
    · rfl
    · simp [htouch]

/-- Writes that are left out are no last writers. -/
theorem lastWriter_filter_of_keep {keep : ω → Bool} {w : ω} {k : κ} : ∀ {ws : List ω},
    lastWriter touch ws k = some w → keep w = true →
    lastWriter touch (ws.filter keep) k = some w := by
  intro ws
  induction ws using List.reverseRecOn with
  | nil => exact fun h _ => by cases h
  | append_singleton ws x ih =>
    intro h hkeep
    rw [lastWriter_concat] at h
    rw [List.filter_append]
    split at h
    · rename_i hx
      cases h
      rw [List.filter_singleton, hkeep]
      change lastWriter touch (ws.filter keep ++ [w]) k = _
      rw [lastWriter_concat, if_pos hx]
    · rename_i hx
      rcases hkx : keep x with _ | _
      · rw [List.filter_singleton, hkx]
        change lastWriter touch (ws.filter keep ++ []) k = _
        rw [List.append_nil]
        exact ih h hkeep
      · rw [List.filter_singleton, hkx]
        change lastWriter touch (ws.filter keep ++ [x]) k = _
        rw [lastWriter_concat, if_neg hx]
        exact ih h hkeep

theorem lastWriter_filter_of_none {keep : ω → Bool} {k : κ} {ws : List ω}
    (h : lastWriter touch ws k = none) : lastWriter touch (ws.filter keep) k = none := by
  induction ws using List.reverseRecOn with
  | nil => rfl
  | append_singleton ws x ih =>
    rw [lastWriter_concat] at h
    split at h
    · cases h
    · rename_i hx
      rw [List.filter_append, List.filter_singleton]
      rcases keep x with _ | _
      · change lastWriter touch (ws.filter keep ++ []) k = _
        rw [List.append_nil]
        exact ih h
      · change lastWriter touch (ws.filter keep ++ [x]) k = _
        rw [lastWriter_concat, if_neg hx]
        exact ih h

theorem touch_of_lastWriter {k : κ} {w : ω} {ws : List ω} (h : lastWriter touch ws k = some w) :
    (touch w k).isSome = true := by
  induction ws using List.reverseRecOn with
  | nil => cases h
  | append_singleton ws x ih =>
    rw [lastWriter_concat] at h
    split at h
    · rename_i hx
      cases h
      exact hx
    · exact ih h

/-- **When leaving writes out makes no difference at a key**: exactly when the key's last writer is
kept, or leaves what is there without it. -/
theorem foldl_filter_eq_iff (m : κ → Option ν) (keep : ω → Bool) (ws : List ω) (k : κ) :
    (ws.filter keep).foldl (write touch) m k = ws.foldl (write touch) m k ↔
      ∀ w, lastWriter touch ws k = some w → keep w = false →
        touch w k = some ((ws.filter keep).foldl (write touch) m k) := by
  rcases hlast : lastWriter touch ws k with _ | w
  · rw [foldl_write, foldl_write, hlast, lastWriter_filter_of_none touch hlast]
    exact ⟨fun _ w hw => absurd hw nofun, fun _ => rfl⟩
  · obtain ⟨v, hv⟩ := Option.isSome_iff_exists.mp (touch_of_lastWriter touch hlast)
    have hall : ws.foldl (write touch) m k = v := by
      rw [foldl_write, hlast, Option.elim_some, hv, Option.getD_some]
    rw [hall]
    rcases hkeep : keep w with _ | _
    · refine ⟨fun h w' hw' _ => ?_, fun h => ?_⟩
      · cases hw'
        rw [hv, h]
      · have hw := h w rfl hkeep
        rw [hv, Option.some.injEq] at hw
        exact hw.symm
    · refine ⟨fun _ w' hw' hdrop => ?_, fun _ => ?_⟩
      · cases hw'
        rw [hkeep] at hdrop
        cases hdrop
      · rw [foldl_write, lastWriter_filter_of_keep touch hlast hkeep, Option.elim_some, hv,
          Option.getD_some]

end Machinery.LastWrite
