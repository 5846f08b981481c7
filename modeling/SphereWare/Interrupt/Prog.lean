import Mathlib.Logic.Basic

/-!
# Interrupt-driven programs

A single processor runs one program and may be preempted between any two atomic steps by an
interrupt handler, which is itself such a program and may be preempted in turn.

* `Prog` — a program as a tree of atomic steps over a state `σ`. Each step may look at an input
  `ι` of the environment (a sensor, the far end of a bus).
* `Machine` — the handler and what the hardware does around it.
* `Sched` — everything the program does not decide: the inputs, and where interrupts strike.
* `run` — the execution under a schedule. Since a schedule is data, a concrete run is evaluated;
  "every run" is "every schedule".
-/

namespace Interrupt

variable {σ ι α β : Type}

/-! ## Programs -/

/--
A program over the state `σ` that returns an `α`.

`step f k` changes the state by `f` in one indivisible step and goes on with `k`, which sees the
input and the state from *before* the step.
-/
inductive Prog (σ ι α : Type) where
  | ret (a : α)
  | step (f : ι → σ → σ) (k : ι → σ → Prog σ ι α)

namespace Prog

/-- Sequential composition. -/
def bind : Prog σ ι α → (α → Prog σ ι β) → Prog σ ι β
  | ret a, q => q a
  | step f k, q => step f fun i s => (k i s).bind q

instance : Monad (Prog σ ι) where
  pure := ret
  bind := bind

/-- One indivisible step that may read the input, change the state and return a value. -/
def atomic (f : ι → σ → α × σ) : Prog σ ι α :=
  step (fun i s => (f i s).2) fun i s => ret (f i s).1

/-- One indivisible change of the state. -/
def act (f : σ → σ) : Prog σ ι Unit := atomic fun _ s => ((), f s)

/-- Reads the state. -/
def read (g : σ → α) : Prog σ ι α := atomic fun _ s => (g s, s)

/-- Reads the environment. -/
def input (g : ι → α) : Prog σ ι α := atomic fun i s => (g i, s)

/-- A loop over a list. -/
def forEach (l : List β) (body : β → Prog σ ι Unit) : Prog σ ι Unit :=
  match l with
  | [] => ret ()
  | b :: bs => (body b).bind fun _ => forEach bs body

/-- A branch without an `else`. -/
def when (c : Prop) [Decidable c] (p : Prog σ ι Unit) : Prog σ ι Unit := if c then p else ret ()

@[simp] theorem pure_eq (a : α) : (pure a : Prog σ ι α) = ret a := rfl

@[simp] theorem bind_eq (p : Prog σ ι α) (q : α → Prog σ ι β) : (p >>= q) = p.bind q := rfl

@[simp] theorem ret_bind (a : α) (q : α → Prog σ ι β) : (ret a : Prog σ ι α).bind q = q a := rfl

theorem bind_ret (p : Prog σ ι α) : p.bind ret = p := by
  induction p with
  | ret a => rfl
  | step f k ih => simp only [bind, ih]

theorem bind_assoc {γ : Type} (p : Prog σ ι α) (q : α → Prog σ ι β) (r : β → Prog σ ι γ) :
    (p.bind q).bind r = p.bind fun a => (q a).bind r := by
  induction p with
  | ret a => rfl
  | step f k ih => simp only [bind, ih]

/-! ## Uninterrupted execution -/

/-- Runs a program to its end with no interrupt. A step from the state `s` sees `env s`. -/
def exec (env : σ → ι) : Prog σ ι α → σ → α × σ
  | ret a, s => (a, s)
  | step f k, s => (k (env s) s).exec env (f (env s) s)

variable (env : σ → ι)

@[simp] theorem exec_ret (a : α) (s : σ) : (ret a : Prog σ ι α).exec env s = (a, s) := rfl

@[simp] theorem exec_bind (p : Prog σ ι α) (q : α → Prog σ ι β) (s : σ) :
    (p.bind q).exec env s = (q (p.exec env s).1).exec env (p.exec env s).2 := by
  induction p generalizing s with
  | ret a => rfl
  | step f k ih => exact ih (env s) s (f (env s) s)

@[simp] theorem exec_atomic (f : ι → σ → α × σ) (s : σ) :
    (atomic f).exec env s = f (env s) s := rfl

@[simp] theorem exec_act (f : σ → σ) (s : σ) :
    (act f : Prog σ ι Unit).exec env s = ((), f s) := rfl

@[simp] theorem exec_read (g : σ → α) (s : σ) :
    (read g : Prog σ ι α).exec env s = (g s, s) := rfl

@[simp] theorem exec_input (g : ι → α) (s : σ) :
    (input g : Prog σ ι α).exec env s = (g (env s), s) := rfl

@[simp] theorem exec_when (c : Prop) [Decidable c] (p : Prog σ ι Unit) (s : σ) :
    (when c p).exec env s = if c then p.exec env s else ((), s) := by
  unfold when
  split <;> rfl

@[simp] theorem exec_ite (c : Prop) [Decidable c] (p q : Prog σ ι α) (s : σ) :
    (if c then p else q).exec env s = if c then p.exec env s else q.exec env s := by
  split <;> rfl

end Prog

/-! ## Machines and schedules -/

/-- What the hardware adds to a program: one interrupt source and its handler. -/
structure Machine (σ ι : Type) where
  handler : Prog σ ι Unit
  /-- An interrupt may be taken in this state. -/
  enabled : σ → Bool
  /-- Done by the hardware when the handler is entered. -/
  enter : σ → σ
  /-- Done by the hardware when the handler returns. -/
  leave : σ → σ
  /-- The inputs a step may see in this state. -/
  admits : σ → ι → Bool

/--
The decisions that are not the program's.

`go i` takes the next step of the running program with the input `i`; `irq` takes an interrupt,
with the schedule of its handler, before the next step; `stop` ends the observation.
-/
inductive Sched (ι : Type) where
  | stop
  | go (i : ι) (rest : Sched ι)
  | irq (inner rest : Sched ι)

namespace Prog

variable (M : Machine σ ι)

/-- The outcome of a run that reaches the end of the program; `none` if it does not. -/
def run : Sched ι → {α : Type} → Prog σ ι α → σ → Option (α × σ)
  | .stop, _, ret a, s => some (a, s)
  | .stop, _, step _ _, _ => none
  | .go _ _, _, ret _, _ => none
  | .go i rest, _, step f k, s =>
    if M.admits s i then run rest (k i s) (f i s) else none
  | .irq inner rest, _, p, s =>
    if M.enabled s then
      match run inner M.handler (M.enter s) with
      | some (_, s₁) => run rest p (M.leave s₁)
      | none => none
    else none

/-- Every state a run passes through, also one that does not reach the end of the program. -/
def visits : Sched ι → {α : Type} → Prog σ ι α → σ → List σ
  | .stop, _, _, s => [s]
  | .go _ _, _, ret _, s => [s]
  | .go i rest, _, step f k, s =>
    s :: if M.admits s i then visits rest (k i s) (f i s) else []
  | .irq inner rest, _, p, s =>
    s :: if M.enabled s then
      visits inner M.handler (M.enter s) ++
        match run M inner M.handler (M.enter s) with
        | some (_, s₁) => visits rest p (M.leave s₁)
        | none => []
    else []

/-- The state a run ends in is one it passes through. -/
theorem mem_visits_of_run : ∀ (sched : Sched ι) {α : Type} (p : Prog σ ι α) (s : σ) {a : α} {t : σ},
    p.run M sched s = some (a, t) → t ∈ p.visits M sched s
  | .stop, _, ret _, s, _, t, hrun => by
    simp only [run, Option.some.injEq, Prod.mk.injEq] at hrun
    exact hrun.2 ▸ List.mem_cons_self
  | .stop, _, step _ _, _, _, _, hrun => by simp [run] at hrun
  | .go _ _, _, ret _, _, _, _, hrun => by simp [run] at hrun
  | .go i rest, _, step f k, s, _, _, hrun => by
    by_cases hadm : M.admits s i = true
    · simp only [run, hadm, if_true] at hrun
      simp only [visits, hadm, if_true]
      exact List.mem_cons_of_mem _ (mem_visits_of_run rest _ _ hrun)
    · simp [run, hadm] at hrun
  | .irq inner rest, _, p, s, _, _, hrun => by
    by_cases hen : M.enabled s = true
    · simp only [run, hen, if_true] at hrun
      simp only [visits, hen, if_true]
      cases hinner : M.handler.run M inner (M.enter s) with
      | none => simp [hinner] at hrun
      | some r =>
        simp only [hinner] at hrun
        exact List.mem_cons_of_mem _ (List.mem_append_right _ (mem_visits_of_run rest p _ hrun))
    · simp [run, hen] at hrun

/-- The schedule of an uninterrupted run. -/
def steady (env : σ → ι) : Prog σ ι α → σ → Sched ι
  | ret _, _ => .stop
  | step f k, s => .go (env s) ((k (env s) s).steady env (f (env s) s))

/-- Uninterrupted execution is a run. -/
theorem run_steady (env : σ → ι) (hadm : ∀ s, M.admits s (env s) = true) (p : Prog σ ι α)
    (s : σ) : p.run M (p.steady env s) s = some (p.exec env s) := by
  induction p generalizing s with
  | ret a => rfl
  | step f k ih =>
    simp only [steady, run, hadm, if_true, exec]
    exact ih (env s) s (f (env s) s)

/-- The same with the result taken apart, as the runs of a larger system ask for it. -/
theorem run_steady_mk (env : σ → ι) (hadm : ∀ s, M.admits s (env s) = true) (p : Prog σ ι α)
    (s : σ) : p.run M (p.steady env s) s = some ((p.exec env s).1, (p.exec env s).2) :=
  run_steady M env hadm p s

/-- The schedule of an uninterrupted run and what `rest` makes of the state it ends in. -/
def steadyThen (env : σ → ι) (rest : σ → Sched ι) : Prog σ ι α → σ → Sched ι
  | ret _, s => rest s
  | step f k, s => .go (env s) ((k (env s) s).steadyThen env rest (f (env s) s))

theorem steadyThen_stop (env : σ → ι) (p : Prog σ ι α) (s : σ) :
    p.steadyThen env (fun _ => .stop) s = p.steady env s := by
  induction p generalizing s with
  | ret a => rfl
  | step f k ih => exact congrArg (Sched.go (env s)) (ih _ _ _)

theorem run_steadyThen (env : σ → ι) (hadm : ∀ s, M.admits s (env s) = true) (rest : σ → Sched ι)
    (p : Prog σ ι α) (s : σ) : p.run M (p.steadyThen env rest s) s
      = (ret (p.exec env s).1).run M (rest (p.exec env s).2) (p.exec env s).2 := by
  induction p generalizing s with
  | ret a => rfl
  | step f k ih =>
    simp only [steadyThen, run, hadm, if_true, exec]
    exact ih (env s) s (f (env s) s)

/-! ## Executions with interrupts -/

/-- The state in which an interrupt that is not itself interrupted leaves the program. -/
def afterIrq (env : σ → ι) (s : σ) : σ := M.leave (M.handler.exec env (M.enter s)).2

/-- The state after `n` interrupts in a row. -/
def afterIrqs (env : σ → ι) : Nat → σ → σ
  | 0, s => s
  | n + 1, s => afterIrqs env n (afterIrq M env s)

theorem afterIrqs_succ (env : σ → ι) (n : Nat) (s : σ) :
    afterIrqs M env (n + 1) s = afterIrq M env (afterIrqs M env n s) := by
  induction n generalizing s with
  | zero => rfl
  | succ n ih => exact ih (afterIrq M env s)

/-- The schedule that begins with `n` interrupts. -/
def irqs (env : σ → ι) : Nat → (σ → Sched ι) → σ → Sched ι
  | 0, rest, s => rest s
  | n + 1, rest, s => .irq (M.handler.steady env (M.enter s)) (irqs env n rest (afterIrq M env s))

theorem run_irqs (env : σ → ι) (hadm : ∀ s, M.admits s (env s) = true) (n : Nat)
    (rest : σ → Sched ι) (p : Prog σ ι α) (s : σ)
    (hen : ∀ k < n, M.enabled (afterIrqs M env k s) = true) :
    p.run M (irqs M env n rest s) s
      = p.run M (rest (afterIrqs M env n s)) (afterIrqs M env n s) := by
  induction n generalizing s with
  | zero => rfl
  | succ n ih =>
    have hfirst : M.enabled s = true := hen 0 (Nat.succ_pos n)
    simp only [irqs, run, hfirst, if_true, run_steady M env hadm]
    exact ih (afterIrq M env s) fun k hk => hen (k + 1) (by omega)

/-- An execution interrupted once, in the first state with `here`. -/
def execIrq (env : σ → ι) (here : σ → Bool) : Prog σ ι α → σ → α × σ
  | ret a, s => (a, s)
  | step f k, s =>
    if here s then
      (step f k).exec env (afterIrq M env s)
    else (k (env s) s).execIrq env here (f (env s) s)

def steadyIrq (env : σ → ι) (here : σ → Bool) : Prog σ ι α → σ → Sched ι
  | ret _, _ => .stop
  | step f k, s =>
    if here s then
      .irq (M.handler.steady env (M.enter s)) ((step f k).steady env (afterIrq M env s))
    else .go (env s) ((k (env s) s).steadyIrq env here (f (env s) s))

/-- Execution with one interrupt is a run. -/
theorem run_steadyIrq (env : σ → ι) (hadm : ∀ s, M.admits s (env s) = true) {here : σ → Bool}
    (hen : ∀ s, here s = true → M.enabled s = true) (p : Prog σ ι α) (s : σ) :
    p.run M (p.steadyIrq M env here s) s = some (p.execIrq M env here s) := by
  induction p generalizing s with
  | ret a => rfl
  | step f k ih =>
    by_cases h : here s = true
    · simp only [steadyIrq, execIrq, h, if_true, run, hen s h, M.handler.run_steady M env hadm]
      exact run_steady M env hadm _ _
    · simp only [steadyIrq, execIrq, h, run, hadm, if_true, Bool.false_eq_true, if_false]
      exact ih (env s) s (f (env s) s)

end Prog

end Interrupt
