import SphereWare.Interrupt.Position

/-!
# Counting the steps of a run

`tally c` counts the steps a program itself takes in a run that are of the kind `c`, by the states
before and after them. A run of two programs in sequence is a run of the first and a run of the
second (`run_bind_split`), so tallies add up.

`tally_balance` is the credit rule: where interrupts leave a flag alone, the steps that raise it
and those that lower it differ in number by what the flag is at the start and at the end.
-/

namespace Interrupt

namespace Prog

variable {σ ι α β τ : Type} {M : Machine σ ι}

/-! ## Sequences -/

/-- What a run of two programs in sequence consists of. -/
theorem run_bind_split : ∀ (sched : Sched ι) (p : Prog σ ι α) (q : α → Prog σ ι β) (s : σ) {b : β}
    {t : σ}, (p.bind q).run M sched s = some (b, t) → ∃ sched₁ sched₂ a u,
      p.run M sched₁ s = some (a, u) ∧ (q a).run M sched₂ u = some (b, t) ∧
      (p.bind q).trace M sched s = p.trace M sched₁ s ++ (q a).trace M sched₂ u
  | sched, .ret a, q, s, b, t, hrun => ⟨.stop, sched, a, s, rfl, hrun, rfl⟩
  | .stop, .step f k, q, s, b, t, hrun => by simp [Prog.bind, run] at hrun
  | .go i rest, .step f k, q, s, b, t, hrun => by
    by_cases hadm : M.admits s i = true
    · simp only [Prog.bind, run, hadm, if_true] at hrun
      obtain ⟨sched₁, sched₂, a, u, h₁, h₂, htrace⟩ := run_bind_split rest (k i s) q (f i s) hrun
      refine ⟨.go i sched₁, sched₂, a, u, ?_, h₂, ?_⟩
      · simp only [run, hadm, if_true, h₁]
      · simp only [Prog.bind, trace, hadm, if_true, htrace, List.cons_append]
    · simp [Prog.bind, run, hadm] at hrun
  | .irq inner rest, .step f k, q, s, b, t, hrun => by
    by_cases hen : M.enabled s = true
    · simp only [run, hen, if_true] at hrun
      cases hinner : M.handler.run M inner (M.enter s) with
      | none => simp [hinner] at hrun
      | some r =>
        simp only [hinner] at hrun
        obtain ⟨sched₁, sched₂, a, u, h₁, h₂, htrace⟩ :=
          run_bind_split rest (.step f k) q (M.leave r.2) hrun
        refine ⟨.irq inner sched₁, sched₂, a, u, ?_, h₂, ?_⟩
        · simp only [run, hen, if_true, hinner, h₁]
        · simp only [trace, hen, if_true, hinner, htrace]
    · simp [run, hen] at hrun

/-- Every step of a run is one the program may take. -/
theorem keeps_of_mem_trace {S : σ → σ → Prop} : ∀ (sched : Sched ι) (p : Prog σ ι α) (s : σ),
    p.Keeps S → ∀ x ∈ p.trace M sched s, S x.1 x.2
  | .stop, _, _, _, _, hx => absurd hx List.not_mem_nil
  | .go _ _, .ret _, _, _, _, hx => absurd hx List.not_mem_nil
  | .go i rest, .step f k, s, hp, x, hx => by
    rw [trace] at hx
    split at hx
    · rcases List.mem_cons.mp hx with rfl | hx
      · exact (hp i s).1
      · exact keeps_of_mem_trace rest (k i s) (f i s) (hp i s).2 x hx
    · exact absurd hx List.not_mem_nil
  | .irq inner rest, p, s, hp, x, hx => by
    rw [trace] at hx
    split at hx
    · cases hrun : M.handler.run M inner (M.enter s) with
      | none => simp [hrun] at hx
      | some r =>
        simp only [hrun] at hx
        exact keeps_of_mem_trace rest p (M.leave r.2) hp x hx
    · exact absurd hx List.not_mem_nil

/-! ## Tallies -/

variable (M)

/-- How many of the program's own steps in the run are of the kind `c`. -/
def tally (c : σ → σ → Bool) (sched : Sched ι) (p : Prog σ ι α) (s : σ) : Nat :=
  (p.trace M sched s).countP fun x => c x.1 x.2

variable {c c' : σ → σ → Bool} {p : Prog σ ι α}

/-- A program with no step of the kind. -/
theorem tally_eq_zero (sched : Sched ι) (s : σ) (hp : p.Keeps fun s t => c s t = false) :
    p.tally M c sched s = 0 := by
  rw [tally, List.countP_eq_zero]
  intro x hx
  rw [keeps_of_mem_trace sched p s hp x hx]
  exact Bool.false_ne_true

variable {M}

/-- Two kinds that are the same for every step of the program. -/
theorem tally_congr {sched : Sched ι} {s : σ} (hp : p.Keeps fun s t => c s t = c' s t) :
    p.tally M c sched s = p.tally M c' sched s := by
  refine List.countP_congr fun x hx => ?_
  rw [keeps_of_mem_trace sched p s hp x hx]

/-- The step raises the flag. -/
def raises (flag : σ → Bool) (s t : σ) : Bool := !flag s && flag t

/-- The step lowers the flag. -/
def lowers (flag : σ → Bool) (s t : σ) : Bool := flag s && !flag t

/-- **What was raised and is not lowered again is still up.** -/
theorem tally_balance {flag : σ → Bool} (hM : (Rely.ofView flag).Sound M) :
    ∀ (sched : Sched ι) (p : Prog σ ι α) (s : σ) {a : α} {t : σ},
      p.run M sched s = some (a, t) →
      p.tally M (lowers flag) sched s + (flag t).toNat
        = p.tally M (raises flag) sched s + (flag s).toNat
  | .stop, .ret b, s, a, t, hrun => by
    simp only [run, Option.some.injEq, Prod.mk.injEq] at hrun
    rw [hrun.2]
    rfl
  | .stop, .step f k, s, a, t, hrun => by simp [run] at hrun
  | .go i rest, .ret b, s, a, t, hrun => by simp [run] at hrun
  | .go i rest, .step f k, s, a, t, hrun => by
    by_cases hadm : M.admits s i = true
    · simp only [run, hadm, if_true] at hrun
      have ih := tally_balance hM rest (k i s) (f i s) hrun
      simp only [tally, trace, hadm, if_true, List.countP_cons] at ih ⊢
      cases hs : flag s <;> cases ht : flag (f i s) <;>
        simp [raises, lowers, hs, ht] at ih ⊢ <;> omega
    · simp [run, hadm] at hrun
  | .irq inner rest, p, s, a, t, hrun => by
    by_cases hen : M.enabled s = true
    · simp only [run, hen, if_true] at hrun
      cases hinner : M.handler.run M inner (M.enter s) with
      | none => simp [hinner] at hrun
      | some r =>
        simp only [hinner] at hrun
        have ih := tally_balance hM rest p (M.leave r.2) hrun
        have hflag : flag (M.leave r.2) = flag s := wp_run hM (hM s trivial hen) hinner
        simp only [tally, trace, hen, if_true, hinner, ← hflag] at ih ⊢
        exact ih
    · simp [run, hen] at hrun

end Prog

end Interrupt
