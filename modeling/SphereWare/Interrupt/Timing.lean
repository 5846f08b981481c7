import SphereWare.Interrupt.Rules

/-!
# Interrupts that are not interrupted

A `Timing` says before which steps a run takes an interrupt, and what each step and each interrupt
sees. No interrupt is interrupted in turn. Such runs are among those of the machine
(`Timing.sched`).

`run_fold` is the rule for them. A view that the program leaves alone is what the interrupts make
of it, one after the other.
-/

namespace Interrupt

variable {σ ι α τ : Type}

inductive Timing (ι : Type) where
  | stop
  | go (i : ι) (rest : Timing ι)
  /-- An interrupt all steps of which see the same input. -/
  | irq (i : ι) (rest : Timing ι)

namespace Timing

open Prog

variable (M : Machine σ ι)

/-- The schedule of a run with that timing. -/
def sched : Timing ι → Prog σ ι α → σ → Sched ι
  | stop, _, _ => .stop
  | go i _, ret _, _ => .go i .stop
  | go i rest, step f k, s => .go i (sched rest (k i s) (f i s))
  | irq i rest, p, s =>
    .irq (M.handler.steady (fun _ => i) (M.enter s)) (sched rest p (afterIrq M (fun _ => i) s))

/-- The interrupts of a run in the order of time: what each sees, and where its handler begins. -/
def begun : Timing ι → Prog σ ι α → σ → List (ι × σ)
  | stop, _, _ => []
  | go _ _, ret _, _ => []
  | go i rest, step f k, s => begun rest (k i s) (f i s)
  | irq i rest, p, s => (i, M.enter s) :: begun rest p (afterIrq M (fun _ => i) s)

/-- Every step sees `i`, and at the end there is an interrupt that sees `j`. -/
def atEnd (i j : ι) : Prog σ ι α → σ → Timing ι
  | ret _, _ => irq j stop
  | step f k, s => go i (atEnd i j (k i s) (f i s))

variable {M}

theorem run_atEnd (hadm : ∀ s i, M.admits s i = true) {i j : ι} {p : Prog σ ι α} {s : σ}
    (hen : M.enabled (p.exec (fun _ => i) s).2 = true) :
    p.run M ((atEnd i j p s).sched M p s) s
      = some ((p.exec (fun _ => i) s).1, afterIrq M (fun _ => j) (p.exec (fun _ => i) s).2) := by
  induction p generalizing s with
  | ret a =>
    have hen : M.enabled s = true := hen
    simp only [atEnd, sched, run, hen, if_true, run_steady M (fun _ => j) (fun t => hadm t j)]
    rfl
  | step f k ih =>
    simp only [atEnd, sched, run, hadm, if_true, exec]
    exact ih i s hen

theorem begun_atEnd (i j : ι) (p : Prog σ ι α) (s : σ) :
    (atEnd i j p s).begun M p s = [(j, M.enter (p.exec (fun _ => i) s).2)] := by
  induction p generalizing s with
  | ret a => rfl
  | step f k ih => exact ih i s (f i s)

/-- **A view that only interrupts change.** -/
theorem run_fold {g : σ → τ} {F : τ → ι × σ → τ} (I : σ → Prop)
    (hadm : ∀ s i, M.admits s i = true)
    (hirq : ∀ i s, I s → g (afterIrq M (fun _ => i) s) = F (g s) (i, M.enter s) ∧
      I (afterIrq M (fun _ => i) s))
    (timing : Timing ι) (p : Prog σ ι α) (hp : p.Keeps (SameOn g))
    (hI : p.Keeps fun s t => I s → I t)
    {s t : σ} {a : α} (hs : I s) (hrun : p.run M (timing.sched M p s) s = some (a, t)) :
    g t = (timing.begun M p s).foldl F (g s) := by
  induction timing generalizing p s with
  | stop =>
    cases p with
    | ret b =>
      simp only [sched, run, Option.some.injEq, Prod.mk.injEq] at hrun
      rw [begun, List.foldl_nil, hrun.2]
    | step f k => simp [sched, run] at hrun
  | go i rest ih =>
    cases p with
    | ret b => simp [sched, run] at hrun
    | step f k =>
      obtain ⟨hsame, hk⟩ := hp i s
      obtain ⟨hstep, hIk⟩ := hI i s
      simp only [sched, run, hadm, if_true] at hrun
      have hview : g (f i s) = g s := hsame
      rw [begun, ← hview]
      exact ih (k i s) hk hIk (hstep hs) hrun
  | irq i rest ih =>
    obtain ⟨hview, hafter⟩ := hirq i s hs
    by_cases hen : M.enabled s = true
    · simp only [sched, run, hen, if_true, run_steady M (fun _ => i) (fun t => hadm t i)] at hrun
      rw [begun, List.foldl_cons, ← hview]
      exact ih p hp hI hafter hrun
    · simp [sched, run, hen] at hrun

end Timing

end Interrupt
