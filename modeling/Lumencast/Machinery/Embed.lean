import Lumencast.Machinery.Coroutine
import Mathlib.Data.Set.Image

/-!
# Machinery/Embed — a coroutine of a part, awaited by a coroutine of the whole

A coroutine that is written for one part of the state, and for that part's own locks, is run on the
whole by `Prog.lift`.  If it is sound where it was written, and goes from beginning to end without
letting go of control (`Prog.Keeps`), then to whoever awaits it, it is one stretch of plain code:
the part becomes what `Prog.finish` says, and the rest stays (`Prog.sound_lift`).
-/

universe u v w x y

namespace Machinery

/-- A part of a state: how it is read, and how it is written. -/
structure Part (τ : Type u) (σ : Type v) where
  get : τ → σ
  put : σ → τ → τ
  get_put : ∀ s t, get (put s t) = s
  put_get : ∀ t, put (get t) t = t
  put_put : ∀ s s' t, put s (put s' t) = put s t

namespace Prog

variable {L : Type u} {σ : Type v} {L' : Type w} {τ : Type x} {γ : Type y}

/-- The state where the task ends, or lets go of control for the first time. -/
def finish : Prog L σ → σ → σ
  | done, s => s
  | step f next, s => (next s).finish (f s)
  | acquire _ next, s => next.finish s
  | release _ next, s => next.finish s
  | pause _, s => s

/-- The task goes to its end without letting go of control, and no stretch of it touches what `f`
reads. -/
def Keeps (f : σ → γ) : Prog L σ → Prop
  | done => True
  | step g next => ∀ s, f (g s) = f s ∧ (next s).Keeps f
  | acquire _ next => next.Keeps f
  | release _ next => next.Keeps f
  | pause _ => False

/-- The task of a part, run on the whole; its locks are called `lock`, and `next` comes after. -/
def lift (P : Part τ σ) (lock : L → L') : Prog L σ → Prog L' τ → Prog L' τ
  | done, next => next
  | step f p, next =>
      .step (fun t => P.put (f (P.get t)) t) fun t => (p (P.get t)).lift P lock next
  | acquire l p, next => .acquire (lock l) (p.lift P lock next)
  | release l p, next => .release (lock l) (p.lift P lock next)
  | pause p, next => .pause (p.lift P lock next)

section Keeps

variable {f : σ → γ} {l : L} {next : Prog L σ}

theorem keeps_step {g : σ → σ} {next : σ → Prog L σ} (hg : ∀ s, f (g s) = f s)
    (h : ∀ s, (next s).Keeps f) : (step g next).Keeps f := fun s => ⟨hg s, h s⟩

theorem keeps_acquire (h : next.Keeps f) : (acquire l next).Keeps f := h

theorem keeps_release (h : next.Keeps f) : (release l next).Keeps f := h

theorem keeps_forEach {α : Type*} {body : α → Prog L σ → Prog L σ}
    (hbody : ∀ a p, p.Keeps f → (body a p).Keeps f) (hnext : next.Keeps f) :
    ∀ as : List α, (forEach body next as).Keeps f
  | [] => hnext
  | a :: as => hbody a _ (keeps_forEach hbody hnext as)

end Keeps

theorem finish_of_keeps {f : σ → γ} : ∀ (p : Prog L σ) (s : σ), p.Keeps f → f (p.finish s) = f s
  | done, _, _ => rfl
  | step g next, s, h => (finish_of_keeps (next s) (g s) (h s).2).trans (h s).1
  | acquire _ next, s, h => finish_of_keeps next s h
  | release _ next, s, h => finish_of_keeps next s h

variable {R Q : σ → Prop} {R' : τ → Prop}

/-- Where a sound task ends, `R` holds. -/
theorem finish_of_sound {f : σ → γ} : ∀ (p : Prog L σ) (H : Set L) (s : σ), p.Sound R Q H s →
    p.Keeps f → R (p.finish s)
  | done, _, _, h, _ => h.2
  | step g next, H, s, h, hp => finish_of_sound (next s) H (g s) h.2 (hp s).2
  | acquire l next, H, s, h, hp => finish_of_sound next (insert l H) s h.2.2 hp
  | release l next, H, s, h, hp => finish_of_sound next (H \ {l}) s h.2.2 hp

/-- **A sound task of a part is one stretch of code of the whole.** -/
theorem sound_lift {P : Part τ σ} {lock : L → L'} (hlock : Function.Injective lock)
    {next : Prog L' τ} {H' : Set L'} (hH' : ∀ l, lock l ∉ H') {f : σ → γ} :
    ∀ (p : Prog L σ) (H : Set L) (t : τ), p.Sound R Q H (P.get t) → p.Keeps f →
      next.Sound R' (fun _ => True) H' (P.put (p.finish (P.get t)) t) →
      (p.lift P lock next).Sound R' (fun _ => True) (lock '' H ∪ H') t
  | done, H, t, h, _, hnext => by
      rw [h.1, Set.image_empty, Set.empty_union]
      rwa [finish, P.put_get] at hnext
  | step g p, H, t, h, hp, hnext => by
      refine ⟨trivial, sound_lift hlock hH' (p (P.get t)) H _ ?_ (hp _).2 ?_⟩
      · rw [P.get_put]
        exact h.2
      · rw [P.get_put, P.put_put]
        exact hnext
  | acquire l p, H, t, h, hp, hnext => by
      refine ⟨trivial, fun hl => ?_, ?_⟩
      · rcases hl with ⟨l', hl', heq⟩ | hl
        · exact h.2.1 (hlock heq ▸ hl')
        · exact hH' l hl
      · have hlifted := sound_lift hlock hH' p _ t h.2.2 hp hnext
        rwa [Set.image_insert_eq, Set.insert_union] at hlifted
  | release l p, H, t, h, hp, hnext => by
      refine ⟨trivial, Or.inl (Set.mem_image_of_mem lock h.2.1), ?_⟩
      have hlifted := sound_lift hlock hH' p _ t h.2.2 hp hnext
      rwa [Set.image_sdiff hlock, Set.image_singleton,
        ← Set.sdiff_singleton_eq_self (hH' l), ← Set.union_sdiff_distrib] at hlifted

end Prog

end Machinery
