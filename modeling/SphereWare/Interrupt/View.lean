import SphereWare.Interrupt.Rules

/-!
# Programs on a view

Where interrupts leave a view of the state alone, a program can be read as a program on that view.
`Spec g v p Q` says so: started on the view `v`, the program ends on a view that satisfies `Q`,
wherever interrupts strike. The rules follow a program step by step and carry its view along, as
symbolic execution would.

A machine that is restricted in the interrupts it takes or the inputs it sees (`Restricts`) has
fewer runs: each is a run of the machine itself.
-/

namespace Interrupt

open Prog

variable {σ ι α β τ : Type} {M : Machine σ ι} {g : σ → τ}

/-! ## Specifications -/

/-- From every state with the view `v`, every run of the program ends in `Q`, if it ends. -/
def Spec (M : Machine σ ι) (g : σ → τ) (v : τ) (p : Prog σ ι α) (Q : α → τ → Prop) : Prop :=
  ∀ s, g s = v → p.wp M (Rely.ofView g) (fun a t => Q a (g t)) s

namespace Spec

variable {v : τ} {Q : α → τ → Prop} {R : β → τ → Prop}

/-- Under interrupts that leave the view alone, the view is still what it was. -/
theorem view_irq {s t : σ} (hs : g s = v) (h : Irq M (Rely.ofView g) s t) : g t = v :=
  Eq.trans (h.rel_of_refl (SameOn.refl g)) hs

theorem mono {p : Prog σ ι α} {Q' : α → τ → Prop} (h : Spec M g v p Q)
    (hQ : ∀ a w, Q a w → Q' a w) : Spec M g v p Q' :=
  fun s hs => wp_mono (fun a t => hQ a (g t)) (h s hs)

theorem ret {a : α} (h : Q a v) : Spec M g v (Prog.ret a) Q := by
  intro s hs t ht
  refine ⟨trivial, ?_⟩
  show Q a (g t)
  rw [view_irq hs ht]
  exact h

theorem bind {p : Prog σ ι α} {q : α → Prog σ ι β} (hp : Spec M g v p Q)
    (hq : ∀ a w, Q a w → Spec M g w (q a) R) : Spec M g v (p.bind q) R :=
  fun s hs => wp_bind.mpr (wp_mono (fun a t ht => hq a (g t) ht t rfl) (hp s hs))

/-- A step that sees one of the inputs the machine admits. -/
theorem atomic_bind_of_admits {f : ι → σ → α × σ} {q : α → Prog σ ι β}
    (h : ∀ i t, g t = v → M.admits t i = true → Spec M g (g (f i t).2) (q (f i t).1) R) :
    Spec M g v ((atomic f).bind q) R := by
  intro s hs
  rw [wp_atomic_bind]
  exact fun t ht => ⟨trivial, fun i hi => h i t (view_irq hs ht) hi _ rfl⟩

theorem atomic_bind {f : ι → σ → α × σ} {q : α → Prog σ ι β}
    (h : ∀ i t, g t = v → Spec M g (g (f i t).2) (q (f i t).1) R) :
    Spec M g v ((atomic f).bind q) R :=
  atomic_bind_of_admits fun i t ht _ => h i t ht

theorem atomic {f : ι → σ → α × σ} (h : ∀ i t, g t = v → Q (f i t).1 (g (f i t).2)) :
    Spec M g v (atomic f) Q := by
  intro s hs
  rw [wp_atomic]
  refine fun t ht => ⟨trivial, fun i _ u hu => ⟨trivial, ?_⟩⟩
  show Q (f i t).1 (g u)
  rw [view_irq rfl hu]
  exact h i t (view_irq hs ht)

/-- A step that takes the view `v` to `w`, followed by the rest of the program. -/
theorem act_bind {f : σ → σ} {q : Unit → Prog σ ι β} (w : τ) (hf : ∀ t, g t = v → g (f t) = w)
    (hq : Spec M g w (q ()) R) : Spec M g v ((act f).bind q) R :=
  atomic_bind fun _ t ht => (hf t ht).symm ▸ hq

theorem act {f : σ → σ} {Q : Unit → τ → Prop} (w : τ) (hf : ∀ t, g t = v → g (f t) = w)
    (hQ : Q () w) : Spec M g v (act f) Q :=
  atomic fun _ t ht => (hf t ht).symm ▸ hQ

/-- A step that acts on the view as `F`. -/
theorem map_bind {f : σ → σ} {q : Unit → Prog σ ι β} (F : τ → τ) (hf : ∀ t, g (f t) = F (g t))
    (hq : Spec M g (F v) (q ()) R) : Spec M g v ((Prog.act f).bind q) R :=
  act_bind (F v) (fun t ht => (hf t).trans (congrArg F ht)) hq

theorem map {f : σ → σ} {Q : Unit → τ → Prop} (F : τ → τ) (hf : ∀ t, g (f t) = F (g t))
    (hQ : Q () (F v)) : Spec M g v (Prog.act f) Q :=
  act (F v) (fun t ht => (hf t).trans (congrArg F ht)) hQ

/-- A read of something the view, or what the machine admits, determines. -/
theorem read_bind_of_admits {r : σ → α} {q : α → Prog σ ι β} (a : α)
    (hr : ∀ i t, g t = v → M.admits t i = true → r t = a) (hq : Spec M g v (q a) R) :
    Spec M g v ((read r).bind q) R :=
  atomic_bind_of_admits fun i t ht hi => by
    show Spec M g (g t) (q (r t)) R
    rw [ht, hr i t ht hi]
    exact hq

/-- A read of something the view determines. -/
theorem read_bind {r : σ → α} {q : α → Prog σ ι β} (a : α) (hr : ∀ t, g t = v → r t = a)
    (hq : Spec M g v (q a) R) : Spec M g v ((read r).bind q) R :=
  read_bind_of_admits a (fun _ t ht _ => hr t ht) hq

/-- Of every program nothing can be said. -/
theorem top {p : Prog σ ι α} : Spec M g v p fun _ _ => True := by
  intro s _
  exact wp_mono (fun _ _ _ => trivial) (wp_of_keeps (fun _ => trivial) (fun _ _ _ _ _ => trivial)
    (fun _ _ _ => trivial) (fun _ _ _ _ => trivial) (Keeps.any p) trivial)

/-- A part of the program that does not touch the view. -/
theorem keeps {p : Prog σ ι α} (hp : p.Keeps (SameOn g)) (h : ∀ a, Q a v) : Spec M g v p Q := by
  intro s hs
  refine wp_mono (fun a t ht => ?_) (wp_of_keeps (SameOn.refl g) (fun _ _ _ => SameOn.trans)
    (fun _ _ h => h) (fun _ _ _ _ => trivial) hp trivial)
  rw [show g t = v from Eq.trans ht hs]
  exact h a

/-- A part of the program each step of which changes the view within a preorder. -/
theorem of_keeps {S : τ → τ → Prop} (hrefl : ∀ w, S w w) (htrans : ∀ u w x, S u w → S w x → S u x)
    {p : Prog σ ι α} (hp : p.Keeps fun s t => S (g s) (g t)) :
    Spec M g v p fun _ w => S v w := by
  intro s hs
  rw [← hs]
  have hrel (a b : σ) (hab : SameOn g a b) : S (g a) (g b) := by
    rw [show g b = g a from hab]
    exact hrefl _
  exact wp_of_keeps (S := fun s t => S (g s) (g t)) (fun _ => hrefl _) (fun _ _ _ => htrans _ _ _)
    hrel (fun _ _ _ _ => trivial) hp trivial

theorem keeps_bind {p : Prog σ ι α} {q : α → Prog σ ι β} (hp : p.Keeps (SameOn g))
    (hq : ∀ a, Spec M g v (q a) R) : Spec M g v (p.bind q) R :=
  bind (keeps (Q := fun _ w => w = v) hp fun _ => rfl) fun a _ hw => hw ▸ hq a

theorem ite {c : Prop} [Decidable c] {p q : Prog σ ι α} (hp : c → Spec M g v p Q)
    (hq : ¬c → Spec M g v q Q) : Spec M g v (if c then p else q) Q := by
  split
  · next hc => exact hp hc
  · next hc => exact hq hc

theorem when {c : Prop} [Decidable c] {p : Prog σ ι Unit} {Q : Unit → τ → Prop}
    (hp : c → Spec M g v p Q) (hq : ¬c → Q () v) : Spec M g v (when c p) Q :=
  ite hp fun hc => ret (hq hc)

/-- A loop, with an invariant on views. -/
theorem forEach {l : List β} {body : β → Prog σ ι Unit} {I : τ → Prop}
    (hbody : ∀ b ∈ l, ∀ w, I w → Spec M g w (body b) fun _ => I) (hv : I v) :
    Spec M g v (forEach l body) fun _ => I := by
  induction l generalizing v with
  | nil => exact ret hv
  | cons b bs ih =>
    refine bind (hbody b List.mem_cons_self v hv) fun _ w hw => ?_
    exact ih (fun x hx => hbody x (List.mem_cons_of_mem _ hx)) hw

/-- A loop whose turn for `b` establishes `P b` and keeps what the others have established. -/
theorem forEach_each {l : List β} {body : β → Prog σ ι Unit} (P : β → τ → Prop)
    (hbody : ∀ b ∈ l, ∀ w, Spec M g w (body b) fun _ u => P b u ∧ ∀ c, P c w → P c u) :
    Spec M g v (Prog.forEach l body) fun _ u => ∀ b, b ∈ l ∨ P b v → P b u := by
  induction l generalizing v with
  | nil => exact ret fun b hb => hb.resolve_left List.not_mem_nil
  | cons b bs ih =>
    refine bind (hbody b List.mem_cons_self v) fun _ w hw => ?_
    refine mono (ih fun x hx => hbody x (List.mem_cons_of_mem _ hx)) fun _ u hu c hc => hu c ?_
    rcases hc with hc | hc
    · rcases List.mem_cons.mp hc with rfl | hc
      · exact Or.inr hw.1
      · exact Or.inl hc
    · exact Or.inr (hw.2 c hc)

/-- A loop each turn of which acts on the views with `I` as a function. -/
theorem forEach_fold {l : List β} {body : β → Prog σ ι Unit} {F : τ → β → τ} (I : τ → Prop)
    (hv : I v) (hF : ∀ b w, I w → I (F w b))
    (hbody : ∀ b ∈ l, ∀ w, I w → Spec M g w (body b) fun _ u => u = F w b) :
    Spec M g v (Prog.forEach l body) fun _ u => u = l.foldl F v := by
  induction l generalizing v with
  | nil => exact ret rfl
  | cons b bs ih =>
    refine bind (hbody b List.mem_cons_self v hv) fun _ w hw => ?_
    subst hw
    exact ih (hF b v hv) fun x hx => hbody x (List.mem_cons_of_mem _ hx)

/-- A loop over a range, with an invariant for each index. -/
theorem forEach_range' {m n : Nat} {p : Nat → Prog σ ι Unit} (I : Nat → τ → Prop)
    (hp : ∀ k, m ≤ k → k < m + n → ∀ w, I k w → Spec M g w (p k) fun _ => I (k + 1))
    (hv : I m v) : Spec M g v (Prog.forEach (List.range' m n) p) fun _ => I (m + n) := by
  induction n generalizing m v with
  | zero => exact ret hv
  | succ n ih =>
    refine bind (hp m (Nat.le_refl m) (by omega) v hv) fun _ w hw => ?_
    rw [show m + (n + 1) = m + 1 + n by omega]
    exact ih (fun k hk hkn => hp k (by omega) (by omega)) hw

theorem and {p : Prog σ ι α} {Q' : α → τ → Prop} (h : Spec M g v p Q) (h' : Spec M g v p Q') :
    Spec M g v p fun a w => Q a w ∧ Q' a w :=
  fun s hs => wp_and (h s hs) (h' s hs)

/--
Where interrupts leave the view alone for as long as `W` holds, and `W` does not come back, a
specification says what holds if `W` still does at the end.
-/
theorem wp_while {R : Rely σ} {W : σ → Prop} (hrel : ∀ s t, R.rel s t → W t → W s ∧ SameOn g s t)
    (hsafe : ∀ s, R.safe s) {p : Prog σ ι α} (hp : p.Keeps fun s t => W t → W s)
    (h : Spec M g v p Q) {s : σ} (hs : W s → g s = v) :
    p.wp M R (fun a t => W t → Q a (g t)) s := by
  have hirq {s t : σ} (ht : Irq M R s t) (hW : W t) : W s ∧ Irq M (Rely.ofView g) s t := by
    rcases ht with rfl | ⟨hen, ht⟩
    · exact ⟨hW, Irq.refl _⟩
    · exact ⟨(hrel s t ht hW).1, Or.inr ⟨hen, (hrel s t ht hW).2⟩⟩
  have hall (r : Prog σ ι α) (hr : r.Keeps fun s t => W t → W s) (s : σ)
      (h : W s → r.wp M (Rely.ofView g) (fun a t => Q a (g t)) s) :
      r.wp M R (fun a t => W t → Q a (g t)) s := by
    induction r generalizing s with
    | ret a =>
      refine fun t ht => ⟨hsafe t, fun hW => ?_⟩
      obtain ⟨hWs, ht⟩ := hirq ht hW
      exact (h hWs t ht).2
    | step f k ih =>
      refine fun t ht => ⟨hsafe t, fun i hi => ih i t (hr i t).2 _ fun hW => ?_⟩
      obtain ⟨hWs, ht⟩ := hirq ht ((hr i t).1 hW)
      exact (h hWs t ht).2 i hi
  exact hall p hp s fun hW => h s (hs hW)

/-- A specification for a part of the view is one for the whole view. -/
theorem of_part {τ' : Type} {g' : σ → τ'} {f : τ' → τ} (hg : ∀ s, g s = f (g' s)) {v' : τ'}
    {p : Prog σ ι α} (h : Spec M g (f v') p Q) :
    Spec M g' v' p fun a w => Q a (f w) := by
  intro s hs
  have hQ (a : α) (t : σ) (ht : Q a (g t)) : Q a (f (g' t)) := by rwa [← hg]
  refine wp_mono hQ
    (wp_mono_rely (fun t u _ htu => ?_) (fun _ _ => trivial) (h s ((hg s).trans (hs ▸ rfl))))
  rcases htu with rfl | ⟨hen, hsame⟩
  · exact Irq.refl u
  · refine Or.inr ⟨hen, ?_⟩
    show g u = g t
    rw [hg, hg, show g' u = g' t from hsame]

/-- A specification holds of the uninterrupted execution. -/
theorem exec {p : Prog σ ι α} {s : σ} (h : Spec M g (g s) p Q) (env : σ → ι)
    (hadm : ∀ t, M.admits t (env t) = true) : Q (p.exec env s).1 (g (p.exec env s).2) :=
  wp_exec hadm (h s rfl)

/-- **A specification holds of every run.** -/
theorem run (hM : (Rely.ofView g).Sound M) {p : Prog σ ι α} {s : σ} (h : Spec M g (g s) p Q)
    {sched : Sched ι} {a : α} {t : σ} (hrun : p.run M sched s = some (a, t)) : Q a (g t) :=
  wp_run hM (h s rfl) hrun

end Spec

/-! ## Restricted machines -/

/-- The same machine but for the interrupts it takes and the inputs it sees, which are fewer. -/
structure Machine.Restricts (M' M : Machine σ ι) : Prop where
  handler : M'.handler = M.handler
  enter : M'.enter = M.enter
  leave : M'.leave = M.leave
  enabled : ∀ s, M'.enabled s = true → M.enabled s = true
  admits : ∀ s i, M'.admits s i = true → M.admits s i = true

/-- The machine on which interrupts are taken only where `ok` holds. -/
def Machine.restrict (M : Machine σ ι) (ok : σ → Bool) : Machine σ ι :=
  { M with enabled := fun s => M.enabled s && ok s }

theorem Machine.restrict_restricts (M : Machine σ ι) (ok : σ → Bool) :
    (M.restrict ok).Restricts M where
  handler := rfl
  enter := rfl
  leave := rfl
  enabled _ h := (Bool.and_eq_true_iff.mp h).1
  admits _ _ h := h

/-- A run of the restricted machine is a run of the machine. -/
theorem run_of_restricts {M' : Machine σ ι} (h : M'.Restricts M) :
    ∀ (sched : Sched ι) {α : Type} (p : Prog σ ι α) (s : σ) (r : α × σ),
      p.run M' sched s = some r → p.run M sched s = some r
  | .stop, _, .ret _, _, _, hrun => hrun
  | .stop, _, .step _ _, _, _, hrun => by simp [Prog.run] at hrun
  | .go _ _, _, .ret _, _, _, hrun => by simp [Prog.run] at hrun
  | .go i rest, _, .step f k, s, r, hrun => by
    by_cases hadm : M'.admits s i = true
    · simp only [Prog.run, hadm, if_true] at hrun
      simp only [Prog.run, h.admits s i hadm, if_true]
      exact run_of_restricts h rest (k i s) (f i s) r hrun
    · simp [Prog.run, hadm] at hrun
  | .irq inner rest, _, p, s, r, hrun => by
    by_cases hen : M'.enabled s = true
    · simp only [Prog.run, hen, if_true, h.handler, h.enter, h.leave] at hrun
      simp only [Prog.run, h.enabled s hen, if_true]
      cases hinner : M.handler.run M' inner (M.enter s) with
      | none => simp [hinner] at hrun
      | some r₁ =>
        -- the handler runs on the restricted machine too
        rw [run_of_restricts h inner M.handler (M.enter s) r₁ hinner]
        simp only [hinner] at hrun
        exact run_of_restricts h rest p (M.leave r₁.2) r hrun
    · simp [Prog.run, hen] at hrun

/-- A state the restricted machine passes through is one the machine passes through. -/
theorem visits_of_restricts {M' : Machine σ ι} (h : M'.Restricts M) :
    ∀ (sched : Sched ι) {α : Type} (p : Prog σ ι α) (s t : σ),
      t ∈ p.visits M' sched s → t ∈ p.visits M sched s
  | .stop, _, _, _, _, ht => ht
  | .go _ _, _, .ret _, _, _, ht => ht
  | .go i rest, _, .step f k, s, t, ht => by
    rcases List.mem_cons.mp ht with rfl | ht
    · exact List.mem_cons_self
    · by_cases hadm : M'.admits s i = true
      · rw [if_pos hadm] at ht
        have hrest := visits_of_restricts h rest (k i s) (f i s) t ht
        simp only [Prog.visits, h.admits s i hadm, if_true]
        exact List.mem_cons_of_mem _ hrest
      · simp [hadm] at ht
  | .irq inner rest, _, p, s, t, ht => by
    rcases List.mem_cons.mp ht with rfl | ht
    · exact List.mem_cons_self
    · by_cases hen : M'.enabled s = true
      · simp only [hen, if_true, h.handler, h.enter, h.leave] at ht
        simp only [Prog.visits, h.enabled s hen, if_true]
        refine List.mem_cons_of_mem _ (List.mem_append.mpr ?_)
        rcases List.mem_append.mp ht with ht | ht
        · exact Or.inl (visits_of_restricts h inner M.handler (M.enter s) t ht)
        · cases hinner : M.handler.run M' inner (M.enter s) with
          | none => simp [hinner] at ht
          | some r₁ =>
            simp only [hinner] at ht
            rw [run_of_restricts h inner M.handler (M.enter s) r₁ hinner]
            exact Or.inr (visits_of_restricts h rest p (M.leave r₁.2) t ht)
      · simp [hen] at ht

/-! ## Confined machines -/

/-- The machine on which steps are taken only where `ok` holds. -/
def Machine.confine (M : Machine σ ι) (ok : σ → Bool) : Machine σ ι :=
  { M with admits := fun s i => M.admits s i && ok s }

/-- A run through states in which `c` holds is one of the confined machine. -/
theorem run_confine {c : σ → Bool} :
    ∀ (sched : Sched ι) {α : Type} (p : Prog σ ι α) (s : σ) (r : α × σ),
      (∀ t ∈ p.visits M sched s, c t = true) → p.run M sched s = some r →
      p.run (M.confine c) sched s = some r
  | .stop, _, .ret _, _, _, _, hrun => hrun
  | .stop, _, .step _ _, _, _, _, hrun => by simp [Prog.run] at hrun
  | .go _ _, _, .ret _, _, _, _, hrun => by simp [Prog.run] at hrun
  | .go i rest, _, .step f k, s, r, hok, hrun => by
    by_cases hadm : M.admits s i = true
    · simp only [Prog.run, hadm, if_true] at hrun
      simp only [Prog.visits, hadm, if_true, List.forall_mem_cons] at hok
      simp only [Prog.run, Machine.confine, hadm, hok.1, Bool.and_self, if_true]
      exact run_confine rest (k i s) (f i s) r hok.2 hrun
    · simp [Prog.run, hadm] at hrun
  | .irq inner rest, _, p, s, r, hok, hrun => by
    by_cases hen : M.enabled s = true
    · simp only [Prog.run, hen, if_true] at hrun
      simp only [Prog.visits, hen, if_true, List.forall_mem_cons, List.forall_mem_append] at hok
      simp only [Prog.run, show (M.confine c).enabled s = M.enabled s from rfl, hen, if_true]
      cases hinner : M.handler.run M inner (M.enter s) with
      | none => simp [hinner] at hrun
      | some r₁ =>
        simp only [hinner] at hrun hok
        -- the handler runs on the confined machine too
        have hhandler : (M.confine c).handler.run (M.confine c) inner ((M.confine c).enter s)
            = some r₁ := run_confine inner M.handler (M.enter s) r₁ hok.2.1 hinner
        rw [hhandler]
        exact run_confine rest p (M.leave r₁.2) r hok.2.2 hrun
    · simp [Prog.run, hen] at hrun

/-- The states of an uninterrupted run, if every step keeps `S`. -/
theorem visits_steady_of_keeps {S : σ → σ → Prop} (hrefl : ∀ s, S s s)
    (htrans : ∀ s t u, S s t → S t u → S s u) {p : Prog σ ι α} (hp : p.Keeps S) (env : σ → ι)
    (s t : σ) (ht : t ∈ p.visits M (p.steady env s) s) : S s t := by
  induction p generalizing s with
  | ret a =>
    simp only [steady, Prog.visits, List.mem_singleton] at ht
    exact ht ▸ hrefl s
  | step f k ih =>
    obtain ⟨hstep, hk⟩ := hp (env s) s
    simp only [steady, Prog.visits] at ht
    rcases List.mem_cons.mp ht with rfl | ht
    · exact hrefl _
    · split at ht
      · exact htrans _ _ _ hstep (ih _ _ hk _ ht)
      · simp at ht

end Interrupt
