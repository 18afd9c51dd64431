import Lumencast.Machinery.Heap
import Lumencast.Machinery.Run
import Mathlib.Data.Set.Insert

/-!
# Machinery/Coroutine — tasks that share locks on one event loop

A `Prog` is what is left of a task: stretches of plain code, locks it takes and gives back, and
awaits of something else.  An `EventLoop` runs one task at a time; control passes to another only
where the running one ends, awaits something else, or asks for a lock that is held.

`Prog.Sound` says of one task, from one state, that it never asks for a lock it holds and holds none
when it lets go of control, that `Q` holds throughout and that `R` holds where it lets go.  If every
task is sound from every state in `R`, then a task that holds a lock has control, no task ever waits
for a lock, and `Q` and `R` hold of the whole (`inv_run`).
-/

universe u v w

namespace Machinery

/-- What is left of a task, over locks `L` and shared state `σ`. -/
inductive Prog (L : Type u) (σ : Type v) where
  | done
  /-- Run `f`; what follows may depend on the state before. -/
  | step (f : σ → σ) (next : σ → Prog L σ)
  /-- `await lock.acquire()`. -/
  | acquire (l : L) (next : Prog L σ)
  /-- `lock.release()`. -/
  | release (l : L) (next : Prog L σ)
  /-- Await something that is no lock. -/
  | pause (next : Prog L σ)

namespace Prog

variable {L : Type u} {σ : Type v}

/-- Run `body` for each element, one after another. -/
def forEach {α : Type w} (body : α → Prog L σ → Prog L σ) (next : Prog L σ) : List α → Prog L σ
  | [] => next
  | a :: as => body a (forEach body next as)

/-- From `s`, holding the locks in `H`: `Q` holds as long as the task runs, `R` where it lets go of
control, and then it holds no lock. -/
def Sound (R Q : σ → Prop) : Prog L σ → Set L → σ → Prop
  | done, H, s => H = ∅ ∧ R s
  | step f next, H, s => Q s ∧ Sound R Q (next s) H (f s)
  | acquire l next, H, s => Q s ∧ l ∉ H ∧ Sound R Q next (insert l H) s
  | release l next, H, s => Q s ∧ l ∈ H ∧ Sound R Q next (H \ {l}) s
  | pause next, H, s => H = ∅ ∧ R s ∧ ∀ s', R s' → Sound R Q next ∅ s'

variable {R Q : σ → Prop} {H : Set L} {s : σ}

/-- Giving a lock back that was taken last. -/
theorem sound_release {l : L} {next : Prog L σ} (hQ : Q s) (hl : l ∉ H)
    (hnext : Sound R Q next H s) : Sound R Q (.release l next) (insert l H) s :=
  ⟨hQ, Set.mem_insert l H, by rwa [Set.insert_sdiff_self_of_notMem hl]⟩

/-- A loop whose passes each take the state one step of `g` further. -/
theorem sound_forEach {α : Type w} {body : α → Prog L σ → Prog L σ} {next : Prog L σ}
    {g : σ → α → σ} {I : σ → Prop} (hI : ∀ s a, I s → I (g s a))
    (hbody : ∀ (p : Prog L σ) s a, I s → Sound R Q p H (g s a) → Sound R Q (body a p) H s) :
    ∀ (as : List α) (s : σ), I s → Sound R Q next H (as.foldl g s) →
      Sound R Q (forEach body next as) H s
  | [], _, _, hnext => hnext
  | a :: as, s, hs, hnext =>
      hbody _ s a hs (sound_forEach hI hbody as (g s a) (hI s a hs) hnext)

end Prog

/-- The shared state, the locks and the tasks. -/
structure EventLoop (L : Type u) (σ : Type v) where
  state : σ
  /-- Who holds a lock. -/
  holder : L → Option ℕ := fun _ => none
  tasks : Heap (Prog L σ) := .blank .done
  /-- The task that has control. -/
  running : Option ℕ := none

/-- What happens next, tasks being created from `β`. -/
inductive Turn (β : Type w) where
  | spawn (b : β)
  /-- The loop gives control to a task. -/
  | resume (t : ℕ)
  /-- The task that has control goes on. -/
  | advance

namespace EventLoop

variable {L : Type u} {σ : Type v} {β : Type w}

/-- Leave a task with less to do. -/
def leave (m : EventLoop L σ) (t : ℕ) (p : Prog L σ) : EventLoop L σ :=
  { m with tasks := m.tasks.modify t fun _ => p }

/-! ## Sound tasks

The invariant is that locks are held by the running task alone.  A task that lets go of control
holds none, so whoever comes next finds all of them free. -/

variable (R Q : σ → Prop)

/-- What holds of an event loop whose tasks are sound. -/
structure Inv (m : EventLoop L σ) : Prop where
  running_lt : ∀ t, m.running = some t → t < m.tasks.next
  /-- A task that holds a lock has control. -/
  holder : ∀ l t, m.holder l = some t → m.running = some t
  waiting : ∀ t, m.running ≠ some t → ∀ s, R s → (m.tasks.get t).Sound R Q ∅ s
  active : ∀ t, m.running = some t →
    (m.tasks.get t).Sound R Q { l | m.holder l = some t } m.state
  idle : m.running = none → R m.state

variable {R Q}

theorem Inv.free {m : EventLoop L σ} (h : m.Inv R Q) (hidle : m.running = none) (l : L) :
    m.holder l = none := by
  rcases hl : m.holder l with _ | t
  · rfl
  · exact absurd (hidle.symm.trans (h.holder l t hl)) (by simp)

/-- **No task ever waits for a lock**: the one that is asked for is free. -/
theorem Inv.free_of_acquire {m : EventLoop L σ} (h : m.Inv R Q) {t : ℕ}
    (ht : m.running = some t) {l : L} {next : Prog L σ} (hp : m.tasks.get t = .acquire l next) :
    m.holder l = none := by
  have hactive := h.active t ht
  rw [hp] at hactive
  rcases hl : m.holder l with _ | t'
  · rfl
  · have htt : t' = t := Option.some.inj ((h.holder l t' hl).symm.trans ht)
    exact absurd (htt ▸ hl) hactive.2.1

/-- The running task goes on with `p`, holding what `holder'` says. -/
theorem Inv.goOn {m : EventLoop L σ} (h : m.Inv R Q) {t : ℕ} (ht : m.running = some t)
    {p : Prog L σ} {s : σ} {holder' : L → Option ℕ}
    (hholder : ∀ l t', holder' l = some t' → t' = t)
    (hp : p.Sound R Q { l | holder' l = some t } s) :
    ({ m.leave t p with state := s, holder := holder' } : EventLoop L σ).Inv R Q where
  running_lt t' ht' := h.running_lt t' ht'
  holder l t' hl := by rw [hholder l t' hl]; exact ht
  waiting t' ht' s' hs' := by
    have hne : t' ≠ t := fun heq => ht' (heq ▸ ht)
    change ((m.tasks.modify t fun _ => p).get t').Sound R Q ∅ s'
    rw [Heap.get_modify_of_ne _ _ hne]
    exact h.waiting t' ht' s' hs'
  active t' ht' := by
    obtain rfl : t' = t := Option.some.inj (ht'.symm.trans ht)
    change ((m.tasks.modify t' fun _ => p).get t').Sound R Q _ s
    rw [Heap.get_modify_self]
    exact hp
  idle hidle := absurd (hidle.symm.trans ht) (by simp)

/-- The running task lets go of control, `p` being left of it. -/
theorem Inv.letGo {m : EventLoop L σ} (h : m.Inv R Q) {t : ℕ} (ht : m.running = some t)
    {p : Prog L σ} (hempty : { l | m.holder l = some t } = ∅) (hR : R m.state)
    (hp : ∀ s, R s → p.Sound R Q ∅ s) :
    ({ m.leave t p with running := none } : EventLoop L σ).Inv R Q where
  running_lt t' ht' := by cases ht'
  holder l t' hl := by
    obtain rfl : t' = t := Option.some.inj ((h.holder l t' hl).symm.trans ht)
    have hmem : l ∈ { l | m.holder l = some t' } := hl
    rw [hempty] at hmem
    exact hmem.elim
  waiting t' _ s' hs' := by
    change ((m.tasks.modify t fun _ => p).get t').Sound R Q ∅ s'
    by_cases heq : t' = t
    · rw [heq, Heap.get_modify_self]
      exact hp s' hs'
    · rw [Heap.get_modify_of_ne _ _ heq]
      exact h.waiting t' (fun h' => heq (Option.some.inj (h'.symm.trans ht))) s' hs'
  active t' ht' := by cases ht'
  idle _ := hR

section Turns

variable [DecidableEq L]

/-- The task `t`, which has control, goes on. -/
def advance (m : EventLoop L σ) (t : ℕ) : EventLoop L σ :=
  match m.tasks.get t with
  | .done => { m with running := none }
  | .step f next => { m.leave t (next m.state) with state := f m.state }
  | .acquire l next =>
      match m.holder l with
      | none => { m.leave t next with holder := Function.update m.holder l (some t) }
      -- it waits until the lock is released
      | some _ => { m with running := none }
  | .release l next => { m.leave t next with holder := Function.update m.holder l none }
  | .pause next => { m.leave t next with running := none }

variable (body : β → Prog L σ)

/-- One turn. -/
def step (m : EventLoop L σ) : Turn β → EventLoop L σ
  | .spawn b => { m with tasks := m.tasks.alloc (body b) }
  | .resume t =>
      if m.running = none ∧ t < m.tasks.next then { m with running := some t } else m
  | .advance => m.running.elim m m.advance

variable {body}

theorem inv_advance {m : EventLoop L σ} (h : m.Inv R Q) {t : ℕ} (ht : m.running = some t) :
    (m.advance t).Inv R Q := by
  have hactive := h.active t ht
  have hmine : ∀ l t', m.holder l = some t' → t' = t := fun l t' hl =>
    Option.some.inj ((h.holder l t' hl).symm.trans ht)
  rw [advance]
  rcases hp : m.tasks.get t with _ | ⟨f, next⟩ | ⟨l, next⟩ | ⟨l, next⟩ | next <;>
    rw [hp] at hactive <;> dsimp only
  · have hleave : m.leave t .done = m := by
      rw [leave, ← hp, Heap.modify_get]
    have hletGo := h.letGo ht hactive.1 hactive.2 (p := .done) fun s hs => ⟨rfl, hs⟩
    rwa [hleave] at hletGo
  · exact h.goOn ht hmine hactive.2
  · rw [h.free_of_acquire ht hp]
    refine h.goOn ht (fun l' t' hl' => ?_) ?_
    · rw [Function.update_apply] at hl'
      split at hl'
      · exact (Option.some.inj hl').symm
      · exact hmine l' t' hl'
    · have hset : { l' | Function.update m.holder l (some t) l' = some t }
          = insert l { l' | m.holder l' = some t } := by
        ext l'
        by_cases hl' : l' = l <;> simp [Function.update_apply, hl']
      rw [hset]
      exact hactive.2.2
  · refine h.goOn ht (fun l' t' hl' => ?_) ?_
    · rw [Function.update_apply] at hl'
      split at hl'
      · cases hl'
      · exact hmine l' t' hl'
    · have hset : { l' | Function.update m.holder l none l' = some t }
          = { l' | m.holder l' = some t } \ {l} := by
        ext l'
        by_cases hl' : l' = l <;> simp [Function.update_apply, hl']
      rw [hset]
      exact hactive.2.2
  · exact h.letGo ht hactive.1 hactive.2.1 hactive.2.2

theorem inv_step (hbody : ∀ b s, R s → (body b).Sound R Q ∅ s) (m : EventLoop L σ) (e : Turn β)
    (h : m.Inv R Q) : (m.step body e).Inv R Q := by
  rcases e with b | t | _
  · refine ⟨fun t ht => (h.running_lt t ht).trans (Nat.lt_succ_self _), h.holder,
      fun t ht s hs => ?_,
      fun t ht => ?_, h.idle⟩
    · change ((m.tasks.alloc (body b)).get t).Sound R Q ∅ s
      rw [Heap.get_alloc]
      split
      · exact hbody b s hs
      · exact h.waiting t ht s hs
    · change ((m.tasks.alloc (body b)).get t).Sound R Q _ m.state
      rw [Heap.get_alloc_of_ne _ _ (h.running_lt t ht).ne]
      exact h.active t ht
  · rw [step]
    split
    · rename_i hidle
      have hnone : { l | m.holder l = some t } = ∅ :=
        Set.eq_empty_of_forall_notMem fun l hl => by
          have hholder : m.holder l = some t := hl
          rw [h.free hidle.1 l] at hholder
          cases hholder
      have hwaiting : ∀ t', m.running ≠ some t' := fun t' ht' => by
        rw [hidle.1] at ht'
        cases ht'
      refine ⟨fun t' ht' => ?_, fun l t' hl => ?_, fun t' _ => h.waiting t' (hwaiting t'),
        fun t' ht' => ?_, fun hnone => by cases hnone⟩
      · rw [← Option.some.inj ht']
        exact hidle.2
      · exact absurd (h.holder l t' hl) (hwaiting t')
      · obtain rfl : t = t' := Option.some.inj ht'
        change (m.tasks.get t).Sound R Q { l | m.holder l = some t } m.state
        rw [hnone]
        exact h.waiting t (hwaiting t) m.state (h.idle hidle.1)
    · exact h
  · rw [step]
    rcases ht : m.running with _ | t
    · exact h
    · exact inv_advance h ht

/-- **Sound tasks on one event loop**, however many and in whatever order they are given control. -/
theorem inv_run (hbody : ∀ b s, R s → (body b).Sound R Q ∅ s) {s : σ} (hs : R s)
    (es : List (Turn β)) : (run (step body) ({ state := s } : EventLoop L σ) es).Inv R Q := by
  refine run_invariant ⟨fun _ ht => (nomatch ht), fun _ _ hl => (nomatch hl),
    fun _ _ _ hs' => ⟨rfl, hs'⟩, fun _ ht => (nomatch ht), fun _ => hs⟩ (inv_step hbody) es

end Turns

end EventLoop

end Machinery
