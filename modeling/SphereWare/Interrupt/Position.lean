import SphereWare.Interrupt.View

/-!
# Positions in a program

What is left of a program says where it is. Some conditions on a run are about that: no interrupt
while this loop runs, no such step outside that call.

* `Inside c P` — `P` is left while the part `c` of a program runs.
* `along` — the steps and the interrupts of a run, at any depth, are as a watch allows.
* `everyPoint` — something holds wherever the run takes a step, of what is still to come.
* `pwp` — the weakest precondition under a contract, in which what interrupts may do depends on the
  position they strike at. Besides the postcondition it promises something of every step.
* `Carries` — an invariant that a program keeps under a contract.
* `pwp_sound` — what `pwp` promises holds of every run along the contract.
-/

namespace Interrupt

variable {σ ι α β γ : Type}

/-! ## Positions -/

/-- What is left of a program after some of its steps. -/
inductive Prog.Residual (p : Prog σ ι α) : Prog σ ι α → Prop where
  | refl : p.Residual p
  | step {f : ι → σ → σ} {k : ι → σ → Prog σ ι α} (h : p.Residual (.step f k)) (i : ι) (s : σ) :
      p.Residual (k i s)

/-- A part `c` of the program runs, and `P` is what is left of the program. -/
def Inside (c : Prog σ ι β) (P : Prog σ ι α) : Prop :=
  ∃ f k, ∃ q : β → Prog σ ι α, c.Residual (.step f k) ∧ P = (Prog.step f k).bind q

theorem Inside.bind {c : Prog σ ι β} {P : Prog σ ι α} (h : Inside c P) (q : α → Prog σ ι γ) :
    Inside c (P.bind q) := by
  obtain ⟨f, k, q', hc, rfl⟩ := h
  exact ⟨f, k, fun b => (q' b).bind q, hc, Prog.bind_assoc _ _ _⟩

/-- At its end a program is inside no part of it. -/
theorem not_inside_ret {c : Prog σ ι β} {a : α} : ¬Inside c (Prog.ret a : Prog σ ι α) := by
  rintro ⟨f, k, q, -, h⟩
  cases h

theorem Prog.Residual.inside {c : Prog σ ι β} {f : ι → σ → σ} {k : ι → σ → Prog σ ι β}
    (h : c.Residual (.step f k)) (q : β → Prog σ ι α) : Inside c ((Prog.step f k).bind q) :=
  ⟨f, k, q, h, rfl⟩

theorem Prog.Residual.keeps {p r : Prog σ ι α} {S : σ → σ → Prop} (h : p.Residual r)
    (hp : p.Keeps S) : r.Keeps S := by
  induction h with
  | refl => exact hp
  | step _ i s ih => exact (ih i s).2

/-! ## Watched runs -/

/-- A condition on a step, given what is left of the program before it. -/
abbrev StepProp (σ ι : Type) : Type 1 := ∀ ⦃α : Type⦄, Prog σ ι α → σ → σ → Prop

/-- A condition on an interrupt, given what is left of the program and how the handler runs. -/
abbrev IrqProp (σ ι : Type) : Type 1 := ∀ ⦃α : Type⦄, Prog σ ι α → σ → Sched ι → Prop

/--
Every step the program itself takes in the run meets `A`, every step of a handler meets `A'`, and
every interrupt meets `I`.
-/
def Prog.along (M : Machine σ ι) (A A' : StepProp σ ι) (I : IrqProp σ ι) :
    Sched ι → {α : Type} → Prog σ ι α → σ → Prop
  | .stop, _, _, _ => True
  | .go _ _, _, ret _, _ => True
  | .go i rest, _, step f k, s =>
    M.admits s i = true → A (step f k) s (f i s) ∧ along M A A' I rest (k i s) (f i s)
  | .irq inner rest, _, p, s =>
    M.enabled s = true →
      I p s inner ∧ along M A' A' I inner M.handler (M.enter s) ∧
        match run M inner M.handler (M.enter s) with
        | some (_, s₁) => along M A A' I rest p (M.leave s₁)
        | none => True

/-- Nothing is asked of a step, or of an interrupt. -/
abbrev anyStep : StepProp σ ι := fun _ _ _ _ => True

abbrev anyIrq : IrqProp σ ι := fun _ _ _ _ => True

/-- Every step of the run meets `A`, those of the handlers too. -/
abbrev Prog.everyStep (M : Machine σ ι) (A : StepProp σ ι) (sched : Sched ι) (p : Prog σ ι α)
    (s : σ) : Prop := p.along M A A anyIrq sched s

/-- Every step the program itself takes meets `A`. -/
abbrev Prog.ownSteps (M : Machine σ ι) (A : StepProp σ ι) (sched : Sched ι) (p : Prog σ ι α)
    (s : σ) : Prop := p.along M A anyStep anyIrq sched s

/-- Wherever the run takes a step, `Φ` holds of what is left of the program and of the schedule. -/
def Prog.everyPoint (M : Machine σ ι) (Φ : IrqProp σ ι) :
    Sched ι → {α : Type} → Prog σ ι α → σ → Prop
  | .stop, _, _, _ => True
  | .go _ _, _, ret _, _ => True
  | .go i rest, _, step f k, s =>
    M.admits s i = true → Φ (step f k) s (.go i rest) ∧ everyPoint M Φ rest (k i s) (f i s)
  | .irq inner rest, _, p, s =>
    M.enabled s = true →
      everyPoint M Φ inner M.handler (M.enter s) ∧
        match run M inner M.handler (M.enter s) with
        | some (_, s₁) => everyPoint M Φ rest p (M.leave s₁)
        | none => True

variable {M : Machine σ ι} {A A' : StepProp σ ι} {I : IrqProp σ ι}

namespace Prog

/-- A part of a program runs as the whole does, for as long as it runs. -/
theorem along_of_bind
    (hA : ∀ {α β : Type} (f : ι → σ → σ) (k : ι → σ → Prog σ ι α) (q : α → Prog σ ι β) (s t : σ),
      A ((step f k).bind q) s t → A (step f k) s t)
    (hI : ∀ {α β : Type} (p : Prog σ ι α) (q : α → Prog σ ι β) (s : σ) (inner : Sched ι),
      I (p.bind q) s inner → I p s inner) :
    ∀ (sched : Sched ι) {α β : Type} (p : Prog σ ι α) (q : α → Prog σ ι β) (s : σ),
      (p.bind q).along M A A' I sched s → p.along M A A' I sched s
  | .stop, _, _, _, _, _, _ => trivial
  | .go _ _, _, _, .ret _, _, _, _ => trivial
  | .go i rest, _, _, .step f k, q, s, h => fun hadm =>
    ⟨hA _ _ q _ _ (h hadm).1, along_of_bind hA hI rest _ q _ (h hadm).2⟩
  | .irq inner rest, _, _, p, q, s, h => by
    intro hen
    obtain ⟨hirq, hinner, hrest⟩ := h hen
    refine ⟨hI _ q _ _ hirq, hinner, ?_⟩
    cases hrun : M.handler.run M inner (M.enter s) with
    | none => trivial
    | some r =>
      rw [hrun] at hrest
      exact along_of_bind hA hI rest _ q _ hrest

theorem along_stop (p : Prog σ ι α) (s : σ) : p.along M A A' I .stop s := trivial

/-- Where nothing is asked, every run will do. -/
theorem along_any : ∀ (sched : Sched ι) {α : Type} (p : Prog σ ι α) (s : σ),
    p.along M anyStep anyStep anyIrq sched s
  | .stop, _, _, _ => trivial
  | .go _ _, _, .ret _, _ => trivial
  | .go i rest, _, .step f k, s => fun _ => ⟨trivial, along_any rest _ _⟩
  | .irq inner rest, _, p, s => by
    intro _
    refine ⟨trivial, along_any inner _ _, ?_⟩
    cases M.handler.run M inner (M.enter s) with
    | none => trivial
    | some r => exact along_any rest _ _

/-- The steps of the program itself. -/
theorem ownSteps_of_along {B : StepProp σ ι}
    (hA : ∀ {α : Type} (P : Prog σ ι α) (s t : σ), A P s t → B P s t) :
    ∀ (sched : Sched ι) {α : Type} (p : Prog σ ι α) (s : σ), p.along M A A' I sched s →
      p.ownSteps M B sched s
  | .stop, _, _, _, _ => trivial
  | .go _ _, _, .ret _, _, _ => trivial
  | .go i rest, _, .step f k, s, h => fun hadm =>
    ⟨hA _ _ _ (h hadm).1, ownSteps_of_along hA rest _ _ (h hadm).2⟩
  | .irq inner rest, _, p, s, h => by
    intro hen
    obtain ⟨-, -, hrest⟩ := h hen
    refine ⟨trivial, along_any inner _ _, ?_⟩
    cases hrun : M.handler.run M inner (M.enter s) with
    | none => trivial
    | some r =>
      rw [hrun] at hrest
      exact ownSteps_of_along hA rest _ _ hrest

/-- What the program's own steps meet may follow from two conditions on them. -/
theorem along_own {B C : StepProp σ ι}
    (hA : ∀ {α : Type} (P : Prog σ ι α) (s t : σ), A P s t → B P s t → C P s t) :
    ∀ (sched : Sched ι) {α : Type} (p : Prog σ ι α) (s : σ), p.along M A A' I sched s →
      p.ownSteps M B sched s → p.along M C A' I sched s
  | .stop, _, _, _, _, _ => trivial
  | .go _ _, _, .ret _, _, _, _ => trivial
  | .go i rest, _, .step f k, s, h, hB => fun hadm =>
    ⟨hA _ _ _ (h hadm).1 (hB hadm).1, along_own hA rest _ _ (h hadm).2 (hB hadm).2⟩
  | .irq inner rest, _, p, s, h, hB => by
    intro hen
    obtain ⟨hirq, hinner, hrest⟩ := h hen
    obtain ⟨-, -, hBrest⟩ := hB hen
    refine ⟨hirq, hinner, ?_⟩
    cases hrun : M.handler.run M inner (M.enter s) with
    | none => trivial
    | some r =>
      rw [hrun] at hrest hBrest
      exact along_own hA rest _ _ hrest hBrest

/-- What is asked of all steps may be weakened. -/
theorem everyStep_mono {B : StepProp σ ι}
    (hA : ∀ {α : Type} (P : Prog σ ι α) (s t : σ), A P s t → B P s t) :
    ∀ (sched : Sched ι) {α : Type} (p : Prog σ ι α) (s : σ), p.everyStep M A sched s →
      p.everyStep M B sched s
  | .stop, _, _, _, _ => trivial
  | .go _ _, _, .ret _, _, _ => trivial
  | .go i rest, _, .step f k, s, h => fun hadm =>
    ⟨hA _ _ _ (h hadm).1, everyStep_mono hA rest _ _ (h hadm).2⟩
  | .irq inner rest, _, p, s, h => by
    intro hen
    obtain ⟨-, hinner, hrest⟩ := h hen
    refine ⟨trivial, everyStep_mono hA inner _ _ hinner, ?_⟩
    cases hrun : M.handler.run M inner (M.enter s) with
    | none => trivial
    | some r =>
      rw [hrun] at hrest
      exact everyStep_mono hA rest _ _ hrest

/-- What is left of a run at any of its steps is such a run itself. -/
theorem everyPoint_of_along {B : StepProp σ ι} {Φ : IrqProp σ ι}
    (hΦ : ∀ {α : Type} (p : Prog σ ι α) (s : σ) (i : ι) (rest : Sched ι), M.admits s i = true →
      p.along M A A I (.go i rest) s → p.everyStep M B (.go i rest) s → Φ p s (.go i rest)) :
    ∀ (sched : Sched ι) {α : Type} (p : Prog σ ι α) (s : σ), p.along M A A I sched s →
      p.everyStep M B sched s → p.everyPoint M Φ sched s
  | .stop, _, _, _, _, _ => trivial
  | .go _ _, _, .ret _, _, _, _ => trivial
  | .go i rest, _, .step f k, s, hA, hB => fun hadm =>
    ⟨hΦ _ _ _ _ hadm hA hB, everyPoint_of_along hΦ rest _ _ (hA hadm).2 (hB hadm).2⟩
  | .irq inner rest, _, p, s, hA, hB => by
    intro hen
    obtain ⟨-, hAinner, hArest⟩ := hA hen
    obtain ⟨-, hBinner, hBrest⟩ := hB hen
    refine ⟨everyPoint_of_along hΦ inner _ _ hAinner hBinner, ?_⟩
    cases hrun : M.handler.run M inner (M.enter s) with
    | none => trivial
    | some r =>
      rw [hrun] at hArest hBrest
      exact everyPoint_of_along hΦ rest _ _ hArest hBrest

/-- A run without interrupts. -/
theorem along_steady (env : σ → ι) (hA : ∀ {α : Type} (P : Prog σ ι α) (s t : σ), A P s t)
    (p : Prog σ ι α) (s : σ) : p.along M A A' I (p.steady env s) s := by
  induction p generalizing s with
  | ret a => trivial
  | step f k ih => exact fun _ => ⟨hA _ _ _, ih _ _ _⟩

end Prog

/-! ## Runs that leave a view alone -/

/-- The interrupt leaves the view alone, however the handler works. -/
def leavesView {τ : Type} (M : Machine σ ι) (g : σ → τ) : IrqProp σ ι := fun _ _ s inner =>
  ∀ r, M.handler.run M inner (M.enter s) = some r → g (M.leave r.2) = g s

/-- A specification holds of a run the interrupts of which leave the view alone. -/
theorem Spec.run_of_along {τ : Type} {g : σ → τ} {p : Prog σ ι α} {Q : α → τ → Prop} {s : σ}
    (h : Spec M g (g s) p Q) {sched : Sched ι} {a : α} {t : σ}
    (halong : p.along M anyStep anyStep (leavesView M g) sched s)
    (hrun : p.run M sched s = some (a, t)) : Q a (g t) := by
  have hall : ∀ (sched : Sched ι) (p : Prog σ ι α) (s : σ),
      p.wp M (Rely.ofView g) (fun a t => Q a (g t)) s →
      p.along M anyStep anyStep (leavesView M g) sched s → p.run M sched s = some (a, t) →
      Q a (g t) := by
    intro sched
    induction sched with
    | stop =>
      intro p s hwp _ hrun
      cases p with
      | ret b =>
        simp only [Prog.run, Option.some.injEq, Prod.mk.injEq] at hrun
        obtain ⟨rfl, rfl⟩ := hrun
        exact (hwp s (Interrupt.Irq.refl s)).2
      | step f k => simp [Prog.run] at hrun
    | go i rest ih =>
      intro p s hwp halong hrun
      cases p with
      | ret b => simp [Prog.run] at hrun
      | step f k =>
        by_cases hadm : M.admits s i = true
        · simp only [Prog.run, hadm, if_true] at hrun
          exact ih _ _ ((hwp s (Interrupt.Irq.refl s)).2 i hadm) (halong hadm).2 hrun
        · simp [Prog.run, hadm] at hrun
    | irq inner rest _ ih =>
      intro p s hwp halong hrun
      by_cases hen : M.enabled s = true
      · obtain ⟨hview, -, hrest⟩ := halong hen
        simp only [Prog.run, hen, if_true] at hrun
        cases hinner : M.handler.run M inner (M.enter s) with
        | none => simp [hinner] at hrun
        | some r =>
          simp only [hinner] at hrun hrest
          have hirq : Interrupt.Irq M (Rely.ofView g) s (M.leave r.2) :=
            Or.inr ⟨hen, hview r hinner⟩
          exact ih _ _ (Prog.wp_irq hwp hirq) hrest hrun
      · simp [Prog.run, hen] at hrun
  exact hall sched p s (h s rfl) halong hrun

/-- There is such a run that reaches the end: the one without interrupts. -/
theorem Spec.exists_run {τ : Type} {g : σ → τ} {p : Prog σ ι α} {Q : α → τ → Prop} {s : σ}
    (h : Spec M g (g s) p Q) (env : σ → ι) (hadm : ∀ t, M.admits t (env t) = true) :
    ∃ sched a t, p.run M sched s = some (a, t) ∧ p.along M anyStep anyStep I sched s ∧ Q a (g t) :=
  ⟨p.steady env s, (p.exec env s).1, (p.exec env s).2, Prog.run_steady M env hadm p s,
    Prog.along_steady env (fun _ _ _ => trivial) p s, h.exec env hadm⟩

/-! ## Concrete runs -/

namespace Prog

variable (M)

/-- The states before and after each step the program itself takes in the run. -/
def trace : Sched ι → {α : Type} → Prog σ ι α → σ → List (σ × σ)
  | .stop, _, _, _ => []
  | .go _ _, _, ret _, _ => []
  | .go i rest, _, step f k, s =>
    if M.admits s i then (s, f i s) :: trace rest (k i s) (f i s) else []
  | .irq inner rest, _, p, s =>
    if M.enabled s then
      match run M inner M.handler (M.enter s) with
      | some (_, s₁) => trace rest p (M.leave s₁)
      | none => []
    else []

/-- A condition on the program's own steps is one on the states before and after them. -/
theorem forall_mem_trace {C : σ → σ → Prop} :
    ∀ (sched : Sched ι) {α : Type} (p : Prog σ ι α) (s : σ),
      p.ownSteps M (fun _ _ s t => C s t) sched s → ∀ x ∈ p.trace M sched s, C x.1 x.2
  | .stop, _, _, _, _, _, hx => absurd hx List.not_mem_nil
  | .go _ _, _, .ret _, _, _, _, hx => absurd hx List.not_mem_nil
  | .go i rest, _, .step f k, s, h, x, hx => by
    rw [trace] at hx
    split at hx
    · next hadm =>
      rcases List.mem_cons.mp hx with rfl | hx
      · exact (h hadm).1
      · exact forall_mem_trace rest _ _ (h hadm).2 x hx
    · exact absurd hx List.not_mem_nil
  | .irq inner rest, _, p, s, h, x, hx => by
    rw [trace] at hx
    split at hx
    · next hen =>
      obtain ⟨-, -, hrest⟩ := h hen
      cases hrun : M.handler.run M inner (M.enter s) with
      | none => simp [hrun] at hx
      | some r =>
        rw [hrun] at hrest
        simp only [hrun] at hx
        exact forall_mem_trace rest p _ hrest x hx
    · exact absurd hx List.not_mem_nil

/-- A run without interrupts all of whose steps meet the condition. -/
theorem along_steady_of_trace {C : σ → σ → Prop} (env : σ → ι) (p : Prog σ ι α) (s : σ)
    (h : ∀ x ∈ p.trace M (p.steady env s) s, C x.1 x.2) :
    p.along M (fun _ _ s t => C s t) A' I (p.steady env s) s := by
  induction p generalizing s with
  | ret a => trivial
  | step f k ih =>
    intro hadm
    rw [steady, trace, if_pos hadm] at h
    exact ⟨h _ List.mem_cons_self, ih _ _ _ fun x hx => h x (List.mem_cons_of_mem _ hx)⟩

/-- A part without interrupts that keeps `J`, and then the rest of the run. -/
theorem along_steadyThen {S : σ → σ → Prop} {J : σ → Prop} (env : σ → ι) (rest : σ → Sched ι)
    (hA : ∀ {α : Type} (P : Prog σ ι α) (s t : σ), S s t → J s → A P s t ∧ J t)
    {p : Prog σ ι α} (hp : p.Keeps S) {s : σ} (hs : J s)
    (hrest : (ret (p.exec env s).1 : Prog σ ι α).along M A A' I (rest (p.exec env s).2)
      (p.exec env s).2) : p.along M A A' I (p.steadyThen env rest s) s := by
  induction p generalizing s with
  | ret a => exact hrest
  | step f k ih =>
    obtain ⟨hstep, hk⟩ := hp (env s) s
    obtain ⟨hAs, hJ⟩ := hA (step f k) s _ hstep hs
    exact fun _ => ⟨hAs, ih _ _ hk hJ hrest⟩

/-- Interrupts in a row, none of them interrupted, and then the rest of the run. -/
theorem along_irqs (env : σ → ι) (hadm : ∀ s, M.admits s (env s) = true) {n : Nat}
    (rest : σ → Sched ι) (p : Prog σ ι α) (s : σ)
    (hirq : ∀ k < n, I p (afterIrqs M env k s)
      (M.handler.steady env (M.enter (afterIrqs M env k s))))
    (hinner : ∀ k < n, M.handler.along M A' A' I
      (M.handler.steady env (M.enter (afterIrqs M env k s))) (M.enter (afterIrqs M env k s)))
    (hrest : p.along M A A' I (rest (afterIrqs M env n s)) (afterIrqs M env n s)) :
    p.along M A A' I (irqs M env n rest s) s := by
  induction n generalizing s with
  | zero => exact hrest
  | succ n ih =>
    refine fun _ => ⟨hirq 0 (Nat.succ_pos n), hinner 0 (Nat.succ_pos n), ?_⟩
    rw [run_steady M env hadm]
    exact ih _ (fun k hk => hirq (k + 1) (Nat.succ_lt_succ hk))
      (fun k hk => hinner (k + 1) (Nat.succ_lt_succ hk)) hrest

/-- The schedule of `n` steps without interrupts, and then what `rest` makes of the position. -/
def stepsThen (env : σ → ι) (rest : Prog σ ι α → σ → Sched ι) : Nat → Prog σ ι α → σ → Sched ι
  | 0, p, s => rest p s
  | _ + 1, ret _, _ => .stop
  | n + 1, step f k, s => .go (env s) (stepsThen env rest n (k (env s) s) (f (env s) s))

end Prog

/-! ## Contracts -/

/-- What is assumed and what is promised about the runs of a machine, position by position. -/
structure Contract (σ ι : Type) where
  /-- Every step meets this. -/
  assume : StepProp σ ι
  /-- Every interrupt meets this. -/
  irq : IrqProp σ ι
  /-- What interrupts do to a program they strike. -/
  rel : StepProp σ ι
  /-- What is promised where interrupts are enabled. -/
  safe : ∀ ⦃α : Type⦄, Prog σ ι α → σ → Prop
  /-- What is promised of every step of a handler. -/
  guarantee : StepProp σ ι
  trans : ∀ ⦃α : Type⦄ (P : Prog σ ι α) {s t u : σ}, rel P s t → rel P t u → rel P s u

/-- Nothing happens, or interrupts strike at the position `P` where they are enabled. -/
def Contract.Irq (K : Contract σ ι) (M : Machine σ ι) (P : Prog σ ι α) (s t : σ) : Prop :=
  t = s ∨ (M.enabled s = true ∧ K.rel P s t)

/-- The contract for one program, with a further assumption and a promise about its own steps. -/
def Contract.own (K : Contract σ ι) (B G : StepProp σ ι) : Contract σ ι :=
  { K with assume := fun _ P s t => K.assume P s t ∧ B P s t, guarantee := G }

/-- What holds at a position of a part holds there too when more is to follow. -/
structure Contract.Mono (K : Contract σ ι) : Prop where
  assume : ∀ {α β : Type} {f : ι → σ → σ} {k : ι → σ → Prog σ ι α} {q : α → Prog σ ι β} {s t : σ},
    K.assume ((Prog.step f k).bind q) s t → K.assume (Prog.step f k) s t
  rel : ∀ {α β : Type} {f : ι → σ → σ} {k : ι → σ → Prog σ ι α} {q : α → Prog σ ι β} {s t : σ},
    K.rel ((Prog.step f k).bind q) s t → K.rel (Prog.step f k) s t
  safe : ∀ {α β : Type} {f : ι → σ → σ} {k : ι → σ → Prog σ ι α} {q : α → Prog σ ι β} {s : σ},
    K.safe (Prog.step f k) s → K.safe ((Prog.step f k).bind q) s
  guarantee : ∀ {α β : Type} {f : ι → σ → σ} {k : ι → σ → Prog σ ι α} {q : α → Prog σ ι β}
    {s t : σ}, K.guarantee (Prog.step f k) s t → K.guarantee ((Prog.step f k).bind q) s t

/-! ## Weakest preconditions -/

/--
From this state every run of the program along the contract keeps its promises and ends in `Q` if
it ends.
-/
def Prog.pwp (M : Machine σ ι) (K : Contract σ ι) : Prog σ ι α → (α → σ → Prop) → σ → Prop
  | .ret a, Q, s => ∀ t, K.Irq M (ret a : Prog σ ι α) s t →
      (M.enabled t = true → K.safe (ret a : Prog σ ι α) t) ∧ Q a t
  | .step f k, Q, s => ∀ t, K.Irq M (step f k) s t →
      (M.enabled t = true → K.safe (step f k) t) ∧
        ∀ i, M.admits t i = true → K.assume (step f k) t (f i t) →
          K.guarantee (step f k) t (f i t) ∧ (k i t).pwp M K Q (f i t)

variable {K : Contract σ ι}

theorem Contract.Irq.refl (P : Prog σ ι α) (s : σ) : K.Irq M P s s := Or.inl rfl

theorem Contract.Irq.trans {P : Prog σ ι α} {s t u : σ} (h₁ : K.Irq M P s t) (h₂ : K.Irq M P t u) :
    K.Irq M P s u := by
  rcases h₁ with rfl | ⟨hen, h₁⟩
  · exact h₂
  · rcases h₂ with rfl | ⟨-, h₂⟩
    · exact Or.inr ⟨hen, h₁⟩
    · exact Or.inr ⟨hen, K.trans P h₁ h₂⟩

namespace Prog

theorem pwp_irq {p : Prog σ ι α} {Q : α → σ → Prop} {s t : σ} (h : p.pwp M K Q s)
    (hst : K.Irq M p s t) : p.pwp M K Q t := by
  cases p with
  | ret a => exact fun u hu => h u (hst.trans hu)
  | step f k => exact fun u hu => h u (hst.trans hu)

theorem pwp_safe {p : Prog σ ι α} {Q : α → σ → Prop} {s : σ} (h : p.pwp M K Q s)
    (hen : M.enabled s = true) : K.safe p s := by
  cases p with
  | ret a => exact (h s (Contract.Irq.refl _ s)).1 hen
  | step f k => exact (h s (Contract.Irq.refl _ s)).1 hen

theorem pwp_mono {p : Prog σ ι α} {Q Q' : α → σ → Prop} (hQ : ∀ a t, Q a t → Q' a t) {s : σ}
    (h : p.pwp M K Q s) : p.pwp M K Q' s := by
  induction p generalizing s with
  | ret a => exact fun t ht => ⟨(h t ht).1, hQ a t (h t ht).2⟩
  | step f k ih =>
    intro t ht
    obtain ⟨hsafe, hnext⟩ := h t ht
    refine ⟨hsafe, fun i hi hA => ?_⟩
    obtain ⟨hG, hk⟩ := hnext i hi hA
    exact ⟨hG, ih i t hk⟩

theorem pwp_and {p : Prog σ ι α} {Q Q' : α → σ → Prop} {s : σ} (h : p.pwp M K Q s)
    (h' : p.pwp M K Q' s) : p.pwp M K (fun a t => Q a t ∧ Q' a t) s := by
  induction p generalizing s with
  | ret a => exact fun t ht => ⟨(h t ht).1, (h t ht).2, (h' t ht).2⟩
  | step f k ih =>
    intro t ht
    obtain ⟨hsafe, hnext⟩ := h t ht
    refine ⟨hsafe, fun i hi hA => ?_⟩
    obtain ⟨hG, hk⟩ := hnext i hi hA
    exact ⟨hG, ih i t hk (((h' t ht).2 i hi hA).2)⟩

/-- The rule for sequential composition. -/
theorem pwp_bind (hK : K.Mono) {p : Prog σ ι α} {q : α → Prog σ ι β} {Q : β → σ → Prop} {s : σ}
    (h : p.pwp M K (fun a t => (q a).pwp M K Q t) s) : (p.bind q).pwp M K Q s := by
  induction p generalizing s with
  | ret a => exact (h s (Contract.Irq.refl _ s)).2
  | step f k ih =>
    intro t ht
    have ht' : K.Irq M (step f k) s t := ht.imp_right fun h => ⟨h.1, hK.rel h.2⟩
    obtain ⟨hsafe, hnext⟩ := h t ht'
    refine ⟨fun hen => hK.safe (hsafe hen), fun i hi hA => ?_⟩
    obtain ⟨hG, hk⟩ := hnext i hi (hK.assume hA)
    exact ⟨hK.guarantee hG, ih i t hk⟩

/--
The rule for a part `c` inside which interrupts stay within a relation: there the position no longer
matters.
-/
theorem pwp_bind_of_wp {R : Rely σ} {S : σ → σ → Prop} {c : Prog σ ι α} {q : α → Prog σ ι β}
    {Q : β → σ → Prop}
    (hrel : ∀ (P : Prog σ ι β) (s t : σ), Inside c P → K.rel P s t → R.rel s t)
    (hsafe : ∀ (P : Prog σ ι β) (s : σ), Inside c P → R.safe s → K.safe P s)
    (hstep : ∀ (P : Prog σ ι β) (s t : σ), Inside c P → S s t → K.guarantee P s t)
    (hc : c.Keeps S) {s : σ} (h : c.wp M R (fun a t => (q a).pwp M K Q t) s) :
    (c.bind q).pwp M K Q s := by
  have hall (r : Prog σ ι α) (hr : c.Residual r) (hS : r.Keeps S) (s : σ)
      (h : r.wp M R (fun a t => (q a).pwp M K Q t) s) : (r.bind q).pwp M K Q s := by
    induction r generalizing s with
    | ret a => exact (h s (Irq.refl s)).2
    | step f k ih =>
      intro t ht
      have hinside := hr.inside q
      have ht' : Interrupt.Irq M R s t := ht.imp_right fun h => ⟨h.1, hrel _ s t hinside h.2⟩
      obtain ⟨hs, hnext⟩ := h t ht'
      refine ⟨fun _ => hsafe _ t hinside hs, fun i hi _ => ?_⟩
      exact ⟨hstep _ _ _ hinside (hS i t).1, ih i t (hr.step i t) (hS i t).2 _ (hnext i hi)⟩
  exact hall c .refl hc s h

/-- The rule for a part `c` inside which more is known: another contract may be used. -/
theorem pwp_bind_of_inside {L : Contract σ ι} {c : Prog σ ι α} {q : α → Prog σ ι β}
    {Q : β → σ → Prop}
    (hassume : ∀ {f : ι → σ → σ} {k : ι → σ → Prog σ ι α} (s t : σ), c.Residual (step f k) →
      K.assume ((step f k).bind q) s t → L.assume (step f k) s t)
    (hrel : ∀ {f : ι → σ → σ} {k : ι → σ → Prog σ ι α} (s t : σ), c.Residual (step f k) →
      K.rel ((step f k).bind q) s t → L.rel (step f k) s t)
    (hsafe : ∀ {f : ι → σ → σ} {k : ι → σ → Prog σ ι α} (s : σ), c.Residual (step f k) →
      L.safe (step f k) s → K.safe ((step f k).bind q) s)
    (hguarantee : ∀ {f : ι → σ → σ} {k : ι → σ → Prog σ ι α} (s t : σ), c.Residual (step f k) →
      L.guarantee (step f k) s t → K.guarantee ((step f k).bind q) s t)
    {s : σ} (h : c.pwp M L (fun a t => (q a).pwp M K Q t) s) : (c.bind q).pwp M K Q s := by
  have hall (r : Prog σ ι α) (hr : c.Residual r) (s : σ)
      (h : r.pwp M L (fun a t => (q a).pwp M K Q t) s) : (r.bind q).pwp M K Q s := by
    induction r generalizing s with
    | ret a => exact (h s (Contract.Irq.refl _ s)).2
    | step f k ih =>
      intro t ht
      have ht' : L.Irq M (step f k) s t := ht.imp_right fun h => ⟨h.1, hrel s t hr h.2⟩
      obtain ⟨hs, hnext⟩ := h t ht'
      refine ⟨fun hen => hsafe t hr (hs hen), fun i hi hA => ?_⟩
      obtain ⟨hG, hk⟩ := hnext i hi (hassume _ _ hr hA)
      exact ⟨hguarantee _ _ hr hG, ih i t (hr.step i t) _ hk⟩
  exact hall c .refl s h

end Prog

/-! ## Invariants of programs -/

/-- Interrupts keep `Φ`, and they may strike where it holds. -/
structure Contract.Stable (M : Machine σ ι) (K : Contract σ ι) (Φ : σ → Prop) : Prop where
  rel : ∀ {α : Type} {P : Prog σ ι α} {s t : σ}, M.enabled s = true → K.rel P s t → Φ s → Φ t
  safe : ∀ {α : Type} {P : Prog σ ι α} {s : σ}, M.enabled s = true → Φ s → K.safe P s

variable {Φ : σ → Prop}

theorem Contract.Stable.irq (h : K.Stable M Φ) {P : Prog σ ι α} {s t : σ} (hst : K.Irq M P s t)
    (hs : Φ s) : Φ t := by
  rcases hst with rfl | ⟨hen, hst⟩
  · exact hs
  · exact h.rel hen hst hs

/-- The rule for a step, where `Φ` holds, followed by the rest of the program. -/
theorem Prog.pwp_step (h : K.Stable M Φ) {f : ι → σ → α × σ} {q : α → Prog σ ι β}
    {Q : β → σ → Prop} {s : σ} (hs : Φ s)
    (hstep : ∀ i t, Φ t → K.assume ((atomic f).bind q) t (f i t).2 →
      K.guarantee ((atomic f).bind q) t (f i t).2 ∧ (q (f i t).1).pwp M K Q (f i t).2) :
    ((atomic f).bind q).pwp M K Q s := by
  intro t ht
  have hΦ := h.irq ht hs
  exact ⟨fun hen => h.safe hen hΦ, fun i _ hA => hstep i t hΦ hA⟩

theorem Prog.pwp_ret (h : K.Stable M Φ) {a : α} {s : σ} (hs : Φ s) :
    (ret a : Prog σ ι α).pwp M K (fun _ => Φ) s := by
  intro t ht
  have hΦ := h.irq ht hs
  exact ⟨fun hen => h.safe hen hΦ, hΦ⟩

/-- From every state in which `Φ` holds the program keeps to the contract and leaves one. -/
def Prog.Carries (M : Machine σ ι) (K : Contract σ ι) (Φ : σ → Prop) (p : Prog σ ι α) : Prop :=
  ∀ s, Φ s → p.pwp M K (fun _ => Φ) s

namespace Prog.Carries

theorem bind (hK : K.Mono) {p : Prog σ ι α} {q : α → Prog σ ι β} (hp : p.Carries M K Φ)
    (hq : ∀ a, (q a).Carries M K Φ) : (p.bind q).Carries M K Φ :=
  fun s hs => pwp_bind hK (pwp_mono (fun a t ht => hq a t ht) (hp s hs))

theorem ite {c : Prop} [Decidable c] {p q : Prog σ ι α} (hp : p.Carries M K Φ)
    (hq : q.Carries M K Φ) : (if c then p else q).Carries M K Φ := by
  split
  · exact hp
  · exact hq

theorem ret (h : K.Stable M Φ) (a : α) : (ret a : Prog σ ι α).Carries M K Φ :=
  fun _ hs => pwp_ret h hs

theorem when (h : K.Stable M Φ) {c : Prop} [Decidable c] {p : Prog σ ι Unit}
    (hp : p.Carries M K Φ) : (when c p).Carries M K Φ := ite hp (ret h ())

theorem forEach (hK : K.Mono) (h : K.Stable M Φ) {l : List β} {body : β → Prog σ ι Unit}
    (hbody : ∀ b ∈ l, (body b).Carries M K Φ) : (forEach l body).Carries M K Φ := by
  induction l with
  | nil => exact ret h ()
  | cons b bs ih =>
    exact bind hK (hbody b List.mem_cons_self) fun _ =>
      ih fun x hx => hbody x (List.mem_cons_of_mem _ hx)

/-- A program all of whose steps are in `S`, where such steps keep `Φ`. -/
theorem of_keeps (h : K.Stable M Φ) {S : σ → σ → Prop}
    (hstep : ∀ {α : Type} (P : Prog σ ι α) (s t : σ), S s t → K.assume P s t → Φ s →
      K.guarantee P s t ∧ Φ t)
    {p : Prog σ ι α} (hp : p.Keeps S) : p.Carries M K Φ := by
  intro s hs
  induction p generalizing s with
  | ret a => exact pwp_ret h hs
  | step f k ih =>
    intro t ht
    have hΦ := h.irq ht hs
    refine ⟨fun hen => h.safe hen hΦ, fun i _ hA => ?_⟩
    obtain ⟨hS, hk⟩ := hp i t
    obtain ⟨hG, hΦ'⟩ := hstep _ _ _ hS hA hΦ
    exact ⟨hG, ih i t hk _ hΦ'⟩

end Prog.Carries

/-! ## Soundness -/

/--
A tick that strikes where it may does to the program what the contract says. What is known of the
steps of its handler, `B`, may differ from tick to tick, and with it what is promised of them, `G`.
-/
def Contract.Sound (M : Machine σ ι) (K : Contract σ ι) : Prop :=
  ∀ {α : Type} (P : Prog σ ι α) (s : σ) (inner : Sched ι), M.enabled s = true → K.safe P s →
    K.irq P s inner →
    ∃ (B G : StepProp σ ι) (Q : σ → Prop), M.handler.ownSteps M B inner (M.enter s) ∧
      (∀ {α : Type} (P : Prog σ ι α) (s t : σ), G P s t → B P s t → K.guarantee P s t) ∧
      M.handler.pwp M (K.own B G) (fun _ => Q) (M.enter s) ∧
      ∀ t, M.handler.run M inner (M.enter s) = some ((), t) → Q t → K.rel P s (M.leave t)

/--
**What `pwp` promises holds of every run along the contract.**

The induction is on the schedule, as for `wp_sound`. What is known in addition of the steps of a
handler is used for that handler only, not for those that interrupt it.
-/
theorem Prog.pwp_sound (hK : K.Sound M) : ∀ (sched : Sched ι) {α : Type} (B G : StepProp σ ι)
    (p : Prog σ ι α) (Q : α → σ → Prop) (s : σ), p.along M K.assume K.assume K.irq sched s →
    p.ownSteps M B sched s → p.pwp M (K.own B G) Q s →
    p.along M G K.guarantee anyIrq sched s ∧ ∀ a t, p.run M sched s = some (a, t) → Q a t
  | .stop, _, _, _, .ret b, Q, s, _, _, h => by
    refine ⟨trivial, fun a t hrun => ?_⟩
    simp only [run, Option.some.injEq, Prod.mk.injEq] at hrun
    obtain ⟨rfl, rfl⟩ := hrun
    exact (h _ (Contract.Irq.refl _ _)).2
  | .stop, _, _, _, .step f k, Q, s, _, _, _ => ⟨trivial, fun a t hrun => by simp [run] at hrun⟩
  | .go i rest, _, _, _, .ret b, Q, s, _, _, _ => ⟨trivial, fun a t hrun => by simp [run] at hrun⟩
  | .go i rest, _, B, G, .step f k, Q, s, hA, hB, h => by
    by_cases hadm : M.admits s i = true
    · obtain ⟨hA, hArest⟩ := hA hadm
      obtain ⟨hB, hBrest⟩ := hB hadm
      obtain ⟨hG, hk⟩ := (h s (Contract.Irq.refl _ s)).2 i hadm ⟨hA, hB⟩
      obtain ⟨hall, hend⟩ := pwp_sound hK rest B G (k i s) Q (f i s) hArest hBrest hk
      refine ⟨fun _ => ⟨hG, hall⟩, fun a t hrun => hend a t ?_⟩
      simpa only [run, hadm, if_true] using hrun
    · exact ⟨fun h => absurd h hadm, fun a t hrun => by simp [run, hadm] at hrun⟩
  | .irq inner rest, _, B, G, p, Q, s, hA, hB, h => by
    by_cases hen : M.enabled s = true
    · obtain ⟨hI, hAinner, hArest⟩ := hA hen
      obtain ⟨-, -, hBrest⟩ := hB hen
      have hsafe : (K.own B G).safe p s := pwp_safe h hen
      obtain ⟨B', G', Q', hB', hG', hwp, hback⟩ := hK p s inner hen hsafe hI
      obtain ⟨hown₁, hend₁⟩ := pwp_sound hK inner B' G' M.handler _ (M.enter s) hAinner hB' hwp
      have hall₁ : M.handler.everyStep M K.guarantee inner (M.enter s) :=
        along_own hG' inner M.handler (M.enter s) hown₁ hB'
      simp only [along, run, hen, if_true, forall_const, true_and]
      cases hrun₁ : M.handler.run M inner (M.enter s) with
      | none => exact ⟨⟨hall₁, trivial⟩, fun a t hrun => by simp at hrun⟩
      | some r =>
        rw [hrun₁] at hArest hBrest
        have hrel : (K.own B G).Irq M p s (M.leave r.2) :=
          Or.inr ⟨hen, hback r.2 hrun₁ (hend₁ r.1 r.2 hrun₁)⟩
        obtain ⟨hall, hend⟩ := pwp_sound hK rest B G p Q _ hArest hBrest (pwp_irq h hrel)
        exact ⟨⟨hall₁, hall⟩, hend⟩
    · exact ⟨fun h => absurd h hen, fun a t hrun => by simp [run, hen] at hrun⟩

end Interrupt
