import SphereWare.Interrupt.Prog

/-!
# Rules for interrupt-driven programs

What an interrupt may do is summed up once, in a relation (`Rely`), and proofs about a program use
that relation at every point where interrupts may strike.

* `Keeps S p` — every step of `p` changes the state within `S`.
* `wp` — the weakest precondition under a rely relation. Besides the postcondition it promises
  that every state passed through is `safe`.
* `Ends` — what holds at the end of a program wherever it begins.
* `Rely.Sound` — the handler itself stays within the relation. Nested interrupts are covered: the
  obligation is a `wp` and may use the relation for the handler's own preemptions.
* `wp_sound` — what `wp` promises holds of every run.
-/

namespace Interrupt

variable {σ ι α β τ : Type}

/-! ## Step guarantees -/

/-- Every step of the program changes the state within `S`. -/
def Prog.Keeps (S : σ → σ → Prop) : Prog σ ι α → Prop
  | .ret _ => True
  | .step f k => ∀ i s, S s (f i s) ∧ (k i s).Keeps S

/-- The two states agree on `g`. -/
def SameOn (g : σ → τ) (s t : σ) : Prop := g t = g s

theorem SameOn.refl (g : σ → τ) (s : σ) : SameOn g s s := rfl

theorem SameOn.trans {g : σ → τ} {s t u : σ} (h₁ : SameOn g s t) (h₂ : SameOn g t u) :
    SameOn g s u := Eq.trans h₂ h₁

namespace Prog

variable {S : σ → σ → Prop}

theorem Keeps.ret (a : α) : (ret a : Prog σ ι α).Keeps S := trivial

theorem Keeps.atomic {f : ι → σ → α × σ} (h : ∀ i s, S s (f i s).2) :
    (Prog.atomic f).Keeps S := fun i s => ⟨h i s, trivial⟩

theorem Keeps.act {f : σ → σ} (h : ∀ s, S s (f s)) : (Prog.act f : Prog σ ι Unit).Keeps S :=
  Keeps.atomic fun _ => h

theorem Keeps.bind {p : Prog σ ι α} {q : α → Prog σ ι β} (hp : p.Keeps S)
    (hq : ∀ a, (q a).Keeps S) : (p.bind q).Keeps S := by
  induction p with
  | ret a => exact hq a
  | step f k ih => exact fun i s => ⟨(hp i s).1, ih i s (hp i s).2⟩

/-- Some value is returned, and what follows it is a part of the program. -/
theorem Keeps.of_bind (i : ι) (s : σ) {p : Prog σ ι α} {q : α → Prog σ ι β}
    (h : (p.bind q).Keeps S) : ∃ a, (q a).Keeps S := by
  induction p with
  | ret a => exact ⟨a, h⟩
  | step f k ih => exact ih i s (h i s).2

theorem Keeps.ite {c : Prop} [Decidable c] {p q : Prog σ ι α} (hp : p.Keeps S)
    (hq : q.Keeps S) : (if c then p else q).Keeps S := by
  split
  · exact hp
  · exact hq

theorem Keeps.when {c : Prop} [Decidable c] {p : Prog σ ι Unit} (hp : p.Keeps S) :
    (when c p).Keeps S := Keeps.ite hp (Keeps.ret ())

theorem Keeps.forEach {l : List β} {body : β → Prog σ ι Unit} (h : ∀ b ∈ l, (body b).Keeps S) :
    (forEach l body).Keeps S := by
  induction l with
  | nil => trivial
  | cons b bs ih =>
    exact (h b List.mem_cons_self).bind fun _ => ih fun x hx => h x (List.mem_cons_of_mem _ hx)

theorem Keeps.mono {S' : σ → σ → Prop} (hS : ∀ s t, S s t → S' s t) {p : Prog σ ι α}
    (hp : p.Keeps S) : p.Keeps S' := by
  induction p with
  | ret a => trivial
  | step f k ih => exact fun i s => ⟨hS _ _ (hp i s).1, ih i s (hp i s).2⟩

theorem Keeps.and {S' : σ → σ → Prop} {p : Prog σ ι α} (hp : p.Keeps S) (hp' : p.Keeps S') :
    p.Keeps fun s t => S s t ∧ S' s t := by
  induction p with
  | ret a => trivial
  | step f k ih => exact fun i s => ⟨⟨(hp i s).1, (hp' i s).1⟩, ih i s (hp i s).2 (hp' i s).2⟩

theorem Keeps.any (p : Prog σ ι α) : p.Keeps fun _ _ => True := by
  induction p with
  | ret a => trivial
  | step f k ih => exact fun i s => ⟨trivial, ih i s⟩

/-- An uninterrupted execution stays within what every step keeps. -/
theorem Keeps.exec (hrefl : ∀ s, S s s) (htrans : ∀ s t u, S s t → S t u → S s u)
    {p : Prog σ ι α} (hp : p.Keeps S) (env : σ → ι) (s : σ) : S s (p.exec env s).2 := by
  induction p generalizing s with
  | ret a => exact hrefl s
  | step f k ih =>
    exact htrans _ _ _ (hp (env s) s).1 (ih (env s) s (hp (env s) s).2 (f (env s) s))

end Prog

/-! ## Interference -/

/-- What is assumed of the interrupts: the change they may make, and what holds all along. -/
structure Rely (σ : Type) where
  rel : σ → σ → Prop
  safe : σ → Prop
  trans : ∀ {s t u}, rel s t → rel t u → rel s u

/-- Interrupts that leave a view of the state alone. -/
def Rely.ofView (g : σ → τ) : Rely σ where
  rel := SameOn g
  safe _ := True
  trans := SameOn.trans

variable {M : Machine σ ι} {R : Rely σ}

/-- Nothing happens, or interrupts strike where they are enabled. -/
def Irq (M : Machine σ ι) (R : Rely σ) (s t : σ) : Prop :=
  t = s ∨ (M.enabled s = true ∧ R.rel s t)

theorem Irq.refl (s : σ) : Irq M R s s := Or.inl rfl

theorem Irq.trans {s t u : σ} (h₁ : Irq M R s t) (h₂ : Irq M R t u) : Irq M R s u := by
  rcases h₁ with rfl | ⟨he, h₁⟩
  · exact h₂
  · rcases h₂ with rfl | ⟨-, h₂⟩
    · exact Or.inr ⟨he, h₁⟩
    · exact Or.inr ⟨he, R.trans h₁ h₂⟩

/-- Where interrupts are off, nothing happens. -/
theorem Irq.eq_of_disabled {s t : σ} (h : Irq M R s t) (hs : M.enabled s = false) : t = s := by
  rcases h with h | ⟨he, -⟩
  · exact h
  · rw [hs] at he; simp at he

theorem Irq.rel_of_refl (hrefl : ∀ s, R.rel s s) {s t : σ} (h : Irq M R s t) : R.rel s t := by
  rcases h with rfl | ⟨-, h⟩
  · exact hrefl _
  · exact h

/-! ## Weakest preconditions -/

/--
From this state every run of the program, with interrupts within `R` before each of its steps and
after the last, passes through safe states only and ends in `Q` if it ends.
-/
def Prog.wp (M : Machine σ ι) (R : Rely σ) : Prog σ ι α → (α → σ → Prop) → σ → Prop
  | .ret a, Q, s => ∀ t, Irq M R s t → R.safe t ∧ Q a t
  | .step f k, Q, s => ∀ t, Irq M R s t →
      R.safe t ∧ ∀ i, M.admits t i = true → (k i t).wp M R Q (f i t)

/-- The handler, entered where interrupts are enabled, stays within the relation. -/
def Rely.Sound (M : Machine σ ι) (R : Rely σ) : Prop :=
  ∀ s, R.safe s → M.enabled s = true →
    M.handler.wp M R (fun _ t => R.rel s (M.leave t)) (M.enter s)

namespace Prog

/-- A weakest precondition is stable under interference. -/
theorem wp_irq {p : Prog σ ι α} {Q : α → σ → Prop} {s t : σ} (h : p.wp M R Q s)
    (hst : Irq M R s t) : p.wp M R Q t := by
  cases p with
  | ret a => exact fun u hu => h u (hst.trans hu)
  | step f k => exact fun u hu => h u (hst.trans hu)

theorem wp_safe {p : Prog σ ι α} {Q : α → σ → Prop} {s : σ} (h : p.wp M R Q s) : R.safe s := by
  cases p with
  | ret a => exact (h s (Irq.refl s)).1
  | step f k => exact (h s (Irq.refl s)).1

theorem wp_mono {p : Prog σ ι α} {Q Q' : α → σ → Prop} (hQ : ∀ a t, Q a t → Q' a t) {s : σ}
    (h : p.wp M R Q s) : p.wp M R Q' s := by
  induction p generalizing s with
  | ret a => exact fun t ht => ⟨(h t ht).1, hQ a t (h t ht).2⟩
  | step f k ih => exact fun t ht => ⟨(h t ht).1, fun i hi => ih i t ((h t ht).2 i hi)⟩

/-- The rule for a single step. -/
theorem wp_atomic {f : ι → σ → α × σ} {Q : α → σ → Prop} {s : σ} :
    (atomic f).wp M R Q s ↔ ∀ t, Irq M R s t → R.safe t ∧ ∀ i, M.admits t i = true →
      ∀ u, Irq M R (f i t).2 u → R.safe u ∧ Q (f i t).1 u := Iff.rfl

/-- The rule for a step followed by the rest of the program. -/
theorem wp_atomic_bind {f : ι → σ → α × σ} {q : α → Prog σ ι β} {Q : β → σ → Prop} {s : σ} :
    ((atomic f).bind q).wp M R Q s ↔ ∀ t, Irq M R s t → R.safe t ∧ ∀ i, M.admits t i = true →
      (q (f i t).1).wp M R Q (f i t).2 := Iff.rfl

/-- The rule for sequential composition. -/
theorem wp_bind {p : Prog σ ι α} {q : α → Prog σ ι β} {Q : β → σ → Prop} {s : σ} :
    (p.bind q).wp M R Q s ↔ p.wp M R (fun a t => (q a).wp M R Q t) s := by
  induction p generalizing s with
  | ret a =>
    constructor
    -- the interrupts after `p` are those before the first step of `q`
    · exact fun h t ht => ⟨wp_safe (wp_irq h ht), wp_irq h ht⟩
    · exact fun h => (h s (Irq.refl s)).2
  | step f k ih =>
    constructor
    · exact fun h t ht => ⟨(h t ht).1, fun i hi => (ih i t).mp ((h t ht).2 i hi)⟩
    · exact fun h t ht => ⟨(h t ht).1, fun i hi => (ih i t).mpr ((h t ht).2 i hi)⟩

/--
The frame rule. Where interrupts stay within `S` and so does every step, the whole program does.
-/
theorem wp_of_keeps {S : σ → σ → Prop} (hrefl : ∀ s, S s s)
    (htrans : ∀ s t u, S s t → S t u → S s u) (hrel : ∀ s t, R.rel s t → S s t)
    (hsafe : ∀ s t, R.safe s → S s t → R.safe t) {p : Prog σ ι α} (hp : p.Keeps S) {s : σ}
    (hs : R.safe s) : p.wp M R (fun _ t => S s t) s := by
  have hirq : ∀ s t, Irq M R s t → S s t := by
    rintro s t (rfl | ⟨-, h⟩)
    · exact hrefl _
    · exact hrel _ _ h
  induction p generalizing s with
  | ret a => exact fun t ht => ⟨hsafe s t hs (hirq s t ht), hirq s t ht⟩
  | step f k ih =>
    intro t ht
    have hst := hirq s t ht
    have hsafe_t := hsafe s t hs hst
    refine ⟨hsafe_t, fun i _ => ?_⟩
    obtain ⟨hstep, hrest⟩ := hp i t
    refine wp_mono (fun _ u hu => ?_) (ih i t hrest (hsafe _ _ hsafe_t hstep))
    exact htrans _ _ _ hst (htrans _ _ _ hstep hu)

theorem wp_and {p : Prog σ ι α} {Q Q' : α → σ → Prop} {s : σ} (h : p.wp M R Q s)
    (h' : p.wp M R Q' s) : p.wp M R (fun a t => Q a t ∧ Q' a t) s := by
  induction p generalizing s with
  | ret a => exact fun t ht => ⟨(h t ht).1, (h t ht).2, (h' t ht).2⟩
  | step f k ih =>
    intro t ht
    obtain ⟨hsafe, hnext⟩ := h t ht
    exact ⟨hsafe, fun i hi => ih i t (hnext i hi) ((h' t ht).2 i hi)⟩

/-- The uninterrupted execution is one of the runs. -/
theorem wp_exec {env : σ → ι} (hadm : ∀ t, M.admits t (env t) = true) {p : Prog σ ι α}
    {Q : α → σ → Prop} {s : σ} (h : p.wp M R Q s) : Q (p.exec env s).1 (p.exec env s).2 := by
  induction p generalizing s with
  | ret a => exact (h s (Irq.refl s)).2
  | step f k ih => exact ih (env s) s ((h s (Irq.refl s)).2 (env s) (hadm s))

/-- Interference may be summed up more narrowly where that is right, and more states be unsafe. -/
theorem wp_mono_rely {R' : Rely σ} (hirq : ∀ s t, R'.safe s → Irq M R s t → Irq M R' s t)
    (hsafe : ∀ t, R'.safe t → R.safe t) {p : Prog σ ι α} {Q : α → σ → Prop} {s : σ}
    (h : p.wp M R' Q s) : p.wp M R Q s := by
  have hs := wp_safe h
  induction p generalizing s with
  | ret a =>
    intro t ht
    obtain ⟨hsafe_t, hQ⟩ := h t (hirq s t hs ht)
    exact ⟨hsafe t hsafe_t, hQ⟩
  | step f k ih =>
    intro t ht
    obtain ⟨hsafe_t, hnext⟩ := h t (hirq s t hs ht)
    exact ⟨hsafe t hsafe_t, fun i hi => ih i t (hnext i hi) (wp_safe (hnext i hi))⟩

end Prog

/-! ## Where a program ends -/

/-- Wherever it begins, the program ends in `Φ`. -/
def Prog.Ends (M : Machine σ ι) (R : Rely σ) (Φ : σ → Prop) (p : Prog σ ι α) : Prop :=
  ∀ s, p.wp M R (fun _ => Φ) s

namespace Prog.Ends

variable {Φ : σ → Prop} (hsafe : ∀ s, R.safe s)

include hsafe

/-- What comes before the end does not matter. -/
theorem bind_right {p : Prog σ ι α} {q : α → Prog σ ι β} (hq : ∀ a, (q a).Ends M R Φ) :
    (p.bind q).Ends M R Φ := by
  intro s
  rw [wp_bind]
  exact wp_mono (fun a t _ => hq a t) (wp_of_keeps (fun _ => trivial) (fun _ _ _ _ _ => trivial)
    (fun _ _ _ => trivial) (fun _ t _ _ => hsafe t) (Keeps.any p) (hsafe s))

variable (hrel : ∀ s t, R.rel s t → Φ s → Φ t)

include hrel

/-- Steps that keep `Φ` may follow. -/
theorem bind_keeps {p : Prog σ ι α} {q : α → Prog σ ι β} (hp : p.Ends M R Φ)
    (hq : ∀ a, (q a).Keeps fun s t => Φ s → Φ t) : (p.bind q).Ends M R Φ := by
  intro s
  rw [wp_bind]
  refine wp_mono (fun a t ht => ?_) (hp s)
  refine wp_mono (fun _ u hu => hu ht) (wp_of_keeps (fun _ h => h) (fun _ _ _ h₁ h₂ h => h₂ (h₁ h))
    hrel (fun _ u _ _ => hsafe u) (hq a) (hsafe t))

theorem act {f : σ → σ} (hf : ∀ s, Φ (f s)) : (act f : Prog σ ι Unit).Ends M R Φ := by
  intro s
  rw [Prog.act, wp_atomic]
  refine fun t _ => ⟨hsafe t, fun i _ u hu => ⟨hsafe u, ?_⟩⟩
  rcases hu with rfl | ⟨-, hu⟩
  · exact hf t
  · exact hrel _ _ hu (hf t)

theorem forEach {l : List β} {body : β → Prog σ ι Unit} (hl : l ≠ [])
    (hbody : ∀ b, (body b).Ends M R Φ) : (forEach l body).Ends M R Φ := by
  induction l with
  | nil => exact absurd rfl hl
  | cons b bs ih =>
    cases bs with
    | nil => exact bind_keeps hsafe hrel (hbody b) fun _ => Keeps.ret ()
    | cons c cs => exact bind_right hsafe fun _ => ih (List.cons_ne_nil c cs)

end Prog.Ends

/-! ## Where interrupts are off -/

/-- No interrupt strikes, because none is enabled. -/
def Rely.off (M : Machine σ ι) : Rely σ where
  rel s t := t = s
  safe s := M.enabled s = false
  trans h₁ h₂ := Eq.trans h₂ h₁

theorem Irq.eq_of_off {s t : σ} (h : Irq M (Rely.off M) s t) : t = s := by
  rcases h with h | ⟨-, h⟩
  · exact h
  · exact h

namespace Prog

/-- What was shown with interrupts off throughout holds under any interference. -/
theorem wp_of_off (hsafe : ∀ t, M.enabled t = false → R.safe t) {p : Prog σ ι α}
    {Q : α → σ → Prop} {s : σ} (h : p.wp M (Rely.off M) Q s) : p.wp M R Q s :=
  wp_mono_rely (fun _ _ hs ht => Or.inl (ht.eq_of_disabled hs)) hsafe h

theorem wp_off_ret {a : α} {Q : α → σ → Prop} {s : σ} (hs : M.enabled s = false) (hQ : Q a s) :
    (ret a : Prog σ ι α).wp M (Rely.off M) Q s := by
  intro t ht
  obtain rfl := ht.eq_of_off
  exact ⟨hs, hQ⟩

theorem wp_off_atomic {f : ι → σ → α × σ} {Q : α → σ → Prop} {s : σ} (hs : M.enabled s = false)
    (h : ∀ i, M.admits s i = true → M.enabled (f i s).2 = false ∧ Q (f i s).1 (f i s).2) :
    (atomic f).wp M (Rely.off M) Q s := by
  rw [wp_atomic]
  intro t ht
  obtain rfl := ht.eq_of_off
  refine ⟨hs, fun i hi u hu => ?_⟩
  obtain rfl := hu.eq_of_off
  exact h i hi

theorem wp_off_bind {f : ι → σ → α × σ} {q : α → Prog σ ι β} {Q : β → σ → Prop} {s : σ}
    (hs : M.enabled s = false)
    (h : ∀ i, M.admits s i = true → (q (f i s).1).wp M (Rely.off M) Q (f i s).2) :
    ((atomic f).bind q).wp M (Rely.off M) Q s := by
  rw [wp_atomic_bind]
  intro t ht
  obtain rfl := ht.eq_of_off
  exact ⟨hs, h⟩

/-- A part of the program whose steps stay within `S`, and so leave interrupts off. -/
theorem wp_off_keeps {S : σ → σ → Prop} (hrefl : ∀ s, S s s)
    (htrans : ∀ s t u, S s t → S t u → S s u)
    (hoff : ∀ s t, M.enabled s = false → S s t → M.enabled t = false) {p : Prog σ ι α}
    (hp : p.Keeps S) {s : σ} (hs : M.enabled s = false) :
    p.wp M (Rely.off M) (fun _ t => S s t) s := by
  refine wp_of_keeps hrefl htrans (fun s t hst => ?_) hoff hp hs
  obtain rfl : t = s := hst
  exact hrefl t

/-! ## Soundness -/

/--
**What `wp` promises holds of every run.**

The induction is on the schedule. At an interrupt it is used twice: for the schedule of the
handler, where soundness of the rely relation supplies the precondition, and for the rest.
-/
theorem wp_sound (hR : R.Sound M) : ∀ (sched : Sched ι) {α : Type} (p : Prog σ ι α)
    (Q : α → σ → Prop) (s : σ), p.wp M R Q s →
    (∀ t ∈ p.visits M sched s, R.safe t) ∧ ∀ a t, p.run M sched s = some (a, t) → Q a t
  | .stop, _, p, Q, s, h => by
    refine ⟨fun t ht => ?_, fun a t hrun => ?_⟩
    · simp only [visits, List.mem_singleton] at ht
      rw [ht]; exact wp_safe h
    · cases p with
      | ret b =>
        simp only [run, Option.some.injEq, Prod.mk.injEq] at hrun
        obtain ⟨rfl, rfl⟩ := hrun
        exact (h _ (Irq.refl _)).2
      | step f k => simp [run] at hrun
  | .go i rest, _, p, Q, s, h => by
    cases p with
    | ret b =>
      refine ⟨fun t ht => ?_, fun a t hrun => by simp [run] at hrun⟩
      simp only [visits, List.mem_singleton] at ht
      rw [ht]; exact wp_safe h
    | step f k =>
      obtain ⟨hsafe, hnext⟩ := h s (Irq.refl s)
      by_cases hadm : M.admits s i = true
      · obtain ⟨hvis, hend⟩ := wp_sound hR rest (k i s) Q (f i s) (hnext i hadm)
        simp only [visits, run, hadm, if_true]
        refine ⟨fun t ht => ?_, hend⟩
        rcases List.mem_cons.mp ht with rfl | ht
        · exact hsafe
        · exact hvis t ht
      · simp only [visits, run, hadm]
        refine ⟨fun t ht => ?_, fun a t hrun => by simp at hrun⟩
        simp only [Bool.false_eq_true, if_false, List.mem_singleton] at ht
        rw [ht]; exact hsafe
  -- the handler runs under `inner`; where it ends the relation leads back to the program
  | .irq inner rest, _, p, Q, s, h => by
    have hsafe : R.safe s := wp_safe h
    by_cases hen : M.enabled s = true
    · obtain ⟨hvis₁, hend₁⟩ := wp_sound hR inner M.handler _ (M.enter s) (hR s hsafe hen)
      simp only [visits, run, hen, if_true]
      cases hrun₁ : M.handler.run M inner (M.enter s) with
      | none =>
        refine ⟨fun t ht => ?_, fun a t hrun => by simp at hrun⟩
        simp only [List.append_nil, List.mem_cons] at ht
        rcases ht with rfl | ht
        · exact hsafe
        · exact hvis₁ t ht
      | some r =>
        have hst : Irq M R s (M.leave r.2) := Or.inr ⟨hen, hend₁ r.1 r.2 hrun₁⟩
        obtain ⟨hvis₂, hend₂⟩ := wp_sound hR rest p Q (M.leave r.2) (wp_irq h hst)
        refine ⟨fun t ht => ?_, hend₂⟩
        simp only [List.mem_cons, List.mem_append] at ht
        rcases ht with rfl | ht | ht
        · exact hsafe
        · exact hvis₁ t ht
        · exact hvis₂ t ht
    · simp only [visits, run, hen]
      refine ⟨fun t ht => ?_, fun a t hrun => by simp at hrun⟩
      simp only [Bool.false_eq_true, if_false, List.mem_singleton] at ht
      rw [ht]; exact hsafe

/-- The postcondition alone. -/
theorem wp_run (hR : R.Sound M) {p : Prog σ ι α} {Q : α → σ → Prop} {s : σ} (h : p.wp M R Q s)
    {sched : Sched ι} {a : α} {t : σ} (hrun : p.run M sched s = some (a, t)) : Q a t :=
  (wp_sound hR sched p Q s h).2 a t hrun

end Prog

/-- A handler that leaves a view alone, step by step, is sound for that view. -/
theorem Rely.ofView_sound {g : σ → τ} (henter : ∀ s, g (M.enter s) = g s)
    (hleave : ∀ s, g (M.leave s) = g s) (h : M.handler.Keeps (SameOn g)) :
    (Rely.ofView g).Sound M := by
  intro s _ _
  refine Prog.wp_mono (fun _ t ht => ?_) (Prog.wp_of_keeps (SameOn.refl g)
    (fun _ _ _ => SameOn.trans) (fun _ _ h => h) (fun _ _ _ _ => trivial) h trivial)
  exact (hleave t).trans (Eq.trans ht (henter s))

end Interrupt
