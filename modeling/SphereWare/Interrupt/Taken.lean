import SphereWare.Interrupt.View

/-!
# The interrupts of a run

`taken` lists the states in which a run takes its interrupts, in the order of time. Where the
handler begins with a step of its own, and every other step keeps a preorder, each interrupt finds
what that first step of the one before it has left behind, up to the preorder (`taken_linked`).
-/

namespace Interrupt

open Prog

variable {σ ι α : Type}

/-- The states in which a run takes an interrupt, also one that does not reach the end. -/
def Prog.taken (M : Machine σ ι) : Sched ι → {α : Type} → Prog σ ι α → σ → List σ
  | .stop, _, _, _ => []
  | .go _ _, _, ret _, _ => []
  | .go i rest, _, step f k, s =>
    if M.admits s i then taken M rest (k i s) (f i s) else []
  | .irq inner rest, _, p, s =>
    if M.enabled s then
      s :: (taken M inner M.handler (M.enter s) ++
        match run M inner M.handler (M.enter s) with
        | some (_, s₁) => taken M rest p (M.leave s₁)
        | none => [])
    else []

theorem Prog.taken_steady (M : Machine σ ι) (env : σ → ι) (hadm : ∀ s, M.admits s (env s) = true)
    (p : Prog σ ι α) (s : σ) : p.taken M (p.steady env s) s = [] := by
  induction p generalizing s with
  | ret a => rfl
  | step f k ih =>
    simp only [steady, taken, hadm, if_true]
    exact ih (env s) s (f (env s) s)

/-- A run that begins with `n` interrupts takes them in the states between. -/
theorem Prog.mem_taken_irqs (M : Machine σ ι) (env : σ → ι) (hadm : ∀ s, M.admits s (env s) = true)
    {n : Nat} (rest : σ → Sched ι) (p : Prog σ ι α) (s : σ)
    (hen : ∀ k < n, M.enabled (afterIrqs M env k s) = true) {k : Nat} (hk : k < n) :
    afterIrqs M env k s ∈ p.taken M (irqs M env n rest s) s := by
  induction n generalizing s k with
  | zero => exact absurd hk (Nat.not_lt_zero k)
  | succ n ih =>
    have hfirst : M.enabled s = true := hen 0 (Nat.succ_pos n)
    simp only [irqs, taken, hfirst, if_true, taken_steady M env hadm, run_steady M env hadm,
      List.nil_append]
    cases k with
    | zero => exact List.mem_cons_self
    | succ k =>
      exact List.mem_cons_of_mem _ (ih _ (fun j hj => hen (j + 1) (by omega)) (by omega))

/-- A run that takes its interrupts where `ok` holds is one of the restricted machine. -/
theorem run_restrict {M : Machine σ ι} {ok : σ → Bool} :
    ∀ (sched : Sched ι) {α : Type} (p : Prog σ ι α) (s : σ) (r : α × σ),
      (∀ t ∈ p.taken M sched s, ok t = true) → p.run M sched s = some r →
      p.run (M.restrict ok) sched s = some r
  | .stop, _, .ret _, _, _, _, hrun => hrun
  | .stop, _, .step _ _, _, _, _, hrun => by simp [Prog.run] at hrun
  | .go _ _, _, .ret _, _, _, _, hrun => by simp [Prog.run] at hrun
  | .go i rest, _, .step f k, s, r, hok, hrun => by
    by_cases hadm : M.admits s i = true
    · simp only [Prog.run, hadm, if_true] at hrun
      simp only [Prog.taken, hadm, if_true] at hok
      simp only [Prog.run, Machine.restrict, hadm, if_true]
      exact run_restrict rest (k i s) (f i s) r hok hrun
    · simp [Prog.run, hadm] at hrun
  | .irq inner rest, _, p, s, r, hok, hrun => by
    by_cases hen : M.enabled s = true
    · simp only [Prog.run, hen, if_true] at hrun
      simp only [Prog.taken, hen, if_true, List.forall_mem_cons, List.forall_mem_append] at hok
      have hen' : (M.restrict ok).enabled s = true := Bool.and_eq_true_iff.mpr ⟨hen, hok.1⟩
      simp only [Prog.run, hen', if_true]
      cases hinner : M.handler.run M inner (M.enter s) with
      | none => simp [hinner] at hrun
      | some r₁ =>
        simp only [hinner] at hrun hok
        have hhandler : (M.restrict ok).handler.run (M.restrict ok) inner ((M.restrict ok).enter s)
            = some r₁ := run_restrict inner M.handler (M.enter s) r₁ hok.2.1 hinner
        rw [hhandler]
        exact run_restrict rest p (M.leave r₁.2) r hok.2.2 hrun
    · simp [Prog.run, hen] at hrun

/-! ## Linked states -/

section Linked

variable (Q : σ → σ → Prop) (after : σ → σ)

/-- From `s` on, each state comes after what `after` makes of the one before it. -/
def Linked : σ → List σ → Prop
  | _, [] => True
  | s, t :: l => Q s t ∧ Linked (after t) l

/-- What `after` makes of the last of the states; `s` if there are none. -/
def lastAfter : σ → List σ → σ
  | s, [] => s
  | _, t :: l => lastAfter (after t) l

variable {Q after}

theorem lastAfter_append (s : σ) (l l' : List σ) :
    lastAfter after s (l ++ l') = lastAfter after (lastAfter after s l) l' := by
  induction l generalizing s with
  | nil => rfl
  | cons t l ih => exact ih (after t)

theorem linked_append {s : σ} {l l' : List σ} :
    Linked Q after s (l ++ l') ↔
      Linked Q after s l ∧ Linked Q after (lastAfter after s l) l' := by
  induction l generalizing s with
  | nil => simp [Linked, lastAfter]
  | cons t l ih =>
    rw [List.cons_append, Linked, Linked, ih, and_assoc]
    rfl

variable (htrans : ∀ s t u, Q s t → Q t u → Q s u)

include htrans

theorem Linked.of_rel {s t : σ} {l : List σ} (h : Q s t) (hl : Linked Q after t l) :
    Linked Q after s l := by
  cases l with
  | nil => trivial
  | cons u l => exact ⟨htrans _ _ _ h hl.1, hl.2⟩

theorem lastAfter_of_rel {s t u : σ} {l : List σ} (h : Q s t)
    (hl : Q (lastAfter after t l) u) : Q (lastAfter after s l) u := by
  cases l with
  | nil => exact htrans _ _ _ h hl
  | cons v l => exact hl

end Linked

/-! ## Runs -/

/-- The handler begins with `first`, interrupts still off, and then keeps `Q` like all the rest. -/
structure Machine.BeginsWith (M : Machine σ ι) (Q : σ → σ → Prop) (first : σ → σ) : Prop where
  refl : ∀ s, Q s s
  trans : ∀ s t u, Q s t → Q t u → Q s u
  handler : ∃ rest : Prog σ ι Unit, M.handler = (act first).bind (fun _ => rest) ∧ rest.Keeps Q
  off : ∀ s, M.enabled (M.enter s) = false
  leave : ∀ s, Q s (M.leave s)

/-- The state after the first step of the handler. -/
def Machine.afterFirst (M : Machine σ ι) (first : σ → σ) (s : σ) : σ := first (M.enter s)

variable {M : Machine σ ι} {Q : σ → σ → Prop} {first : σ → σ}

/-- **The interrupts of a run are linked.** -/
theorem Prog.taken_linked (hM : M.BeginsWith Q first) :
    ∀ (sched : Sched ι) {α : Type} (p : Prog σ ι α) (s : σ), p.Keeps Q →
      Linked Q (M.afterFirst first) s (p.taken M sched s) ∧
        ∀ a t, p.run M sched s = some (a, t) →
          Q (lastAfter (M.afterFirst first) s (p.taken M sched s)) t
  | .stop, _, .ret b, s, _ => by
    refine ⟨trivial, fun a t hrun => ?_⟩
    simp only [run, Option.some.injEq, Prod.mk.injEq] at hrun
    rw [← hrun.2]
    exact hM.refl s
  | .stop, _, .step f k, s, _ => ⟨trivial, fun a t hrun => by simp [run] at hrun⟩
  | .go i rest, _, .ret b, s, _ => ⟨trivial, fun a t hrun => by simp [run] at hrun⟩
  | .go i rest, _, .step f k, s, hp => by
    obtain ⟨hstep, hk⟩ := hp i s
    by_cases hadm : M.admits s i = true
    · obtain ⟨hlinked, hend⟩ := taken_linked hM rest (k i s) (f i s) hk
      simp only [taken, run, hadm, if_true]
      exact ⟨hlinked.of_rel hM.trans hstep,
        fun a t hrun => lastAfter_of_rel hM.trans hstep (hend a t hrun)⟩
    · simp only [taken, run, hadm]
      exact ⟨trivial, fun a t hrun => by simp at hrun⟩
  | .irq inner rest, _, p, s, hp => by
    by_cases hen : M.enabled s = true
    · obtain ⟨later, hhandler, hlater⟩ := hM.handler
      -- the handler cannot be interrupted before its first step
      have hinner : Linked Q (M.afterFirst first) (M.afterFirst first s)
            (M.handler.taken M inner (M.enter s)) ∧
          ∀ a t, M.handler.run M inner (M.enter s) = some (a, t) →
            Q (lastAfter (M.afterFirst first) (M.afterFirst first s)
              (M.handler.taken M inner (M.enter s))) t := by
        rw [hhandler]
        cases inner with
        | stop => exact ⟨trivial, fun a t hrun => by simp [act, atomic, Prog.bind, run] at hrun⟩
        | go i inner =>
          by_cases hadm : M.admits (M.enter s) i = true
          · have hrest := taken_linked hM inner later (M.afterFirst first s) hlater
            simp only [act, atomic, Prog.bind, taken, run, hadm, if_true]
            exact hrest
          · simp only [act, atomic, Prog.bind, taken, run, hadm]
            exact ⟨trivial, fun a t hrun => by simp at hrun⟩
        | irq _ _ =>
          simp only [taken, run, hM.off]
          exact ⟨trivial, fun a t hrun => by simp at hrun⟩
      obtain ⟨hlinked, hend⟩ := hinner
      simp only [taken, run, hen, if_true]
      cases hrun₁ : M.handler.run M inner (M.enter s) with
      | none =>
        simp only [List.append_nil]
        exact ⟨⟨hM.refl s, hlinked⟩, fun a t hrun => by simp at hrun⟩
      | some r =>
        obtain ⟨hlinked₂, hend₂⟩ := taken_linked hM rest p (M.leave r.2) hp
        have hback := hM.trans _ _ _ (hend r.1 r.2 hrun₁) (hM.leave r.2)
        refine ⟨⟨hM.refl s, linked_append.mpr ⟨hlinked, hlinked₂.of_rel hM.trans hback⟩⟩, ?_⟩
        intro a t hrun
        rw [lastAfter, lastAfter_append]
        exact lastAfter_of_rel hM.trans hback (hend₂ a t hrun)
    · simp only [taken, run, hen]
      exact ⟨trivial, fun a t hrun => by simp at hrun⟩
termination_by sched => sizeOf sched

end Interrupt
