import SphereWare.Interrupt.Position

/-!
# Logs

A log is a part of the state that only grows. What a program notes in it stays, whatever interrupts
strike, so a log says of a run what its steps have done.

* `Notes` — wherever it begins, the program notes an entry.
* `Contract.logging` — the contract under which a run notes good entries only.
* `everyStep_of_log` — the converse: what the steps of a run were like can be seen from its log.
-/

namespace Interrupt

variable {σ ι α β ε : Type} {M : Machine σ ι} {log : σ → List ε}

/-- The log is as it was, or longer. -/
def Appends (log : σ → List ε) (s t : σ) : Prop := log s <+: log t

theorem Appends.refl (s : σ) : Appends log s s := List.prefix_rfl

theorem Appends.trans {s t u : σ} (h₁ : Appends log s t) (h₂ : Appends log t u) :
    Appends log s u := List.IsPrefix.trans h₁ h₂

/-- The entry is among those the log has got. -/
def Noted (log : σ → List ε) (e : ε) (s t : σ) : Prop := ∃ l, log t = log s ++ l ∧ e ∈ l

theorem Noted.appends {e : ε} {s t : σ} (h : Noted log e s t) : Appends log s t := by
  obtain ⟨l, hl, -⟩ := h
  exact ⟨l, hl.symm⟩

theorem Noted.trans_right {e : ε} {s t u : σ} (h : Noted log e s t) (h' : Appends log t u) :
    Noted log e s u := by
  obtain ⟨l, hl, he⟩ := h
  obtain ⟨l', hl'⟩ := h'
  exact ⟨l ++ l', by rw [← hl', hl, List.append_assoc], List.mem_append_left _ he⟩

theorem Noted.trans_left {e : ε} {s t u : σ} (h : Appends log s t) (h' : Noted log e t u) :
    Noted log e s u := by
  obtain ⟨l, hl⟩ := h
  obtain ⟨l', hl', he⟩ := h'
  exact ⟨l ++ l', by rw [hl', ← hl, List.append_assoc], List.mem_append_right _ he⟩

/-! ## Runs -/

/-- Interrupts that at most add to the log. -/
def Rely.appending (log : σ → List ε) : Rely σ where
  rel := Appends log
  safe _ := True
  trans := Appends.trans

/-- The handler adds to the log, and the hardware leaves it alone. -/
structure Machine.Logs (M : Machine σ ι) (log : σ → List ε) : Prop where
  handler : M.handler.Keeps (Appends log)
  enter : ∀ s, log (M.enter s) = log s
  leave : ∀ s, log (M.leave s) = log s

theorem wp_appending {p : Prog σ ι α} (hp : p.Keeps (Appends log)) (s : σ) :
    p.wp M (Rely.appending log) (fun _ t => Appends log s t) s :=
  Prog.wp_of_keeps Appends.refl (fun _ _ _ => Appends.trans) (fun _ _ h => h)
    (fun _ _ _ _ => trivial) hp trivial

theorem Machine.Logs.sound (hM : M.Logs log) : (Rely.appending log).Sound M := by
  intro s _ _
  refine Prog.wp_mono (fun _ t ht => ?_) (wp_appending hM.handler (M.enter s))
  show log s <+: log (M.leave t)
  rw [hM.leave, ← hM.enter s]
  exact ht

namespace Prog

/-- Over a run the log grows. -/
theorem Keeps.run_appends (hM : M.Logs log) {p : Prog σ ι α} (hp : p.Keeps (Appends log))
    {sched : Sched ι} {s t : σ} {a : α} (hrun : p.run M sched s = some (a, t)) :
    Appends log s t := wp_run hM.sound (wp_appending hp s) hrun

/-! ## Entries that are noted -/

/-- From every state the program notes the entry. -/
def Notes (M : Machine σ ι) (log : σ → List ε) (e : ε) (p : Prog σ ι α) : Prop :=
  ∀ s, p.wp M (Rely.appending log) (fun _ t => Noted log e s t) s

namespace Notes

variable {e : ε}

theorem atomic {f : ι → σ → α × σ} (hf : ∀ i s, Noted log e s (f i s).2) :
    (atomic f).Notes M log e := by
  intro s
  rw [wp_atomic]
  refine fun t ht => ⟨trivial, fun i _ u hu => ⟨trivial, ?_⟩⟩
  have hst : Appends log s t := ht.rel_of_refl Appends.refl
  have hu : Appends log (f i t).2 u := hu.rel_of_refl Appends.refl
  exact ((hf i t).trans_left hst).trans_right hu

/-- What is noted stays. -/
theorem bind_left {p : Prog σ ι α} {q : α → Prog σ ι β} (hp : p.Notes M log e)
    (hq : ∀ a, (q a).Keeps (Appends log)) : (p.bind q).Notes M log e := by
  intro s
  rw [wp_bind]
  refine wp_mono (fun a t ht => ?_) (hp s)
  exact wp_mono (fun _ u hu => ht.trans_right hu) (wp_appending (hq a) t)

/-- What has been noted before does not matter. -/
theorem bind_right {p : Prog σ ι α} {q : α → Prog σ ι β} (hp : p.Keeps (Appends log))
    (hq : ∀ a, (q a).Notes M log e) : (p.bind q).Notes M log e := by
  intro s
  rw [wp_bind]
  refine wp_mono (fun a t ht => ?_) (wp_appending hp s)
  exact wp_mono (fun _ u hu => hu.trans_left ht) (hq a t)

/-- A step that notes the entry, with what the program goes on with. -/
theorem atomic_left {f : ι → σ → α × σ} {q : α → Prog σ ι β}
    (h : ((Prog.atomic f).bind q).Keeps (Appends log)) (hf : ∀ i s, Noted log e s (f i s).2) :
    ((Prog.atomic f).bind q).Notes M log e := by
  intro s
  rw [wp_atomic_bind]
  refine fun t ht => ⟨trivial, fun i _ => ?_⟩
  have hst : Appends log s t := ht.rel_of_refl Appends.refl
  exact wp_mono (fun _ u hu => ((hf i t).trans_left hst).trans_right hu)
    (wp_appending (h i t).2 _)

/-- The rule for a step that returns what `q` goes on with. -/
theorem atomic_bind {f : ι → σ → α × σ} {q : α → Prog σ ι β} (hf : ∀ i s, Appends log s (f i s).2)
    (hq : ∀ i s, (q (f i s).1).Notes M log e) : ((Prog.atomic f).bind q).Notes M log e := by
  intro s
  rw [wp_atomic_bind]
  refine fun t ht => ⟨trivial, fun i _ => ?_⟩
  have hst : Appends log s t := ht.rel_of_refl Appends.refl
  exact wp_mono (fun _ u hu => hu.trans_left (hst.trans (hf i t))) (hq i t _)

theorem ite {c : Prop} [Decidable c] {p q : Prog σ ι α} (hp : c → p.Notes M log e)
    (hq : ¬c → q.Notes M log e) : (if c then p else q).Notes M log e := by
  split
  · next h => exact hp h
  · next h => exact hq h

theorem when {c : Prop} [Decidable c] {p : Prog σ ι Unit} (hc : c) (hp : p.Notes M log e) :
    (when c p).Notes M log e := ite (fun _ => hp) fun h => absurd hc h

/-- A turn of a loop notes what its body does. -/
theorem forEach {l : List β} {body : β → Prog σ ι Unit} {b : β} (hb : b ∈ l)
    (hnotes : (body b).Notes M log e) (hbody : ∀ b, (body b).Keeps (Appends log)) :
    (forEach l body).Notes M log e := by
  induction l with
  | nil => exact absurd hb List.not_mem_nil
  | cons c cs ih =>
    rcases List.mem_cons.mp hb with rfl | hb
    · exact bind_left hnotes fun _ => Keeps.forEach fun c _ => hbody c
    · exact bind_right (hbody c) fun _ => ih hb

/-- **In every run the entry is noted.** -/
theorem run (hM : M.Logs log) {p : Prog σ ι α} (hp : p.Notes M log e) {sched : Sched ι} {s t : σ}
    {a : α} (hrun : p.run M sched s = some (a, t)) : Noted log e s t :=
  wp_run hM.sound (hp s) hrun

end Notes

end Prog

/-! ## Good entries only -/

section Good

variable (log : σ → List ε) (good : ε → Prop) (k : Nat)

/-- All entries but the first `k` are good. -/
def GoodFrom (s : σ) : Prop := ∀ e ∈ (log s).drop k, good e

/-- Runs the steps of which meet `A` note good entries only. -/
def Contract.logging (A : StepProp σ ι) : Contract σ ι where
  assume := A
  irq := anyIrq
  rel _ _ _ t := GoodFrom log good k t
  safe _ _ s := GoodFrom log good k s
  guarantee := anyStep
  trans _ _ _ _ _ _ h := h

variable {log good k} {A B G : StepProp σ ι}

theorem GoodFrom.of_eq {s t : σ} (h : GoodFrom log good k s) (hst : log t = log s) :
    GoodFrom log good k t := by
  rw [GoodFrom, hst]
  exact h

theorem GoodFrom.snoc {s t : σ} {e : ε} (h : GoodFrom log good k s) (hst : log t = log s ++ [e])
    (he : good e) : GoodFrom log good k t := by
  intro x hx
  rw [hst] at hx
  rcases Nat.le_total k (log s).length with hk | hk
  · rw [List.drop_append_of_le_length hk, List.mem_append, List.mem_singleton] at hx
    rcases hx with hx | rfl
    · exact h x hx
    · exact he
  · have hmem : x ∈ [e] := by
      rw [List.drop_append, List.drop_eq_nil_of_le hk, List.nil_append] at hx
      exact List.mem_of_mem_drop hx
    rw [List.mem_singleton.mp hmem]
    exact he

/-- At the start no entry is asked about. -/
theorem goodFrom_length (s : σ) : GoodFrom log good (log s).length s := by
  intro e he
  rw [List.drop_length] at he
  exact absurd he List.not_mem_nil

theorem Contract.logging_stable :
    ((Contract.logging log good k A).own B G).Stable M (GoodFrom log good k) where
  rel _ h _ := h
  safe _ h := h

theorem Contract.logging_mono
    (hA : ∀ {α β : Type} {f : ι → σ → σ} {k : ι → σ → Prog σ ι α} {q : α → Prog σ ι β} {s t : σ},
      A ((Prog.step f k).bind q) s t → A (Prog.step f k) s t) :
    ((Contract.logging log good k A).own anyStep anyStep).Mono where
  assume h := ⟨hA h.1, trivial⟩
  rel h := h
  safe h := h
  guarantee _ := trivial

/-- **A handler that notes good entries.** -/
theorem Contract.logging_sound (hM : M.Logs log)
    (hhandler : M.handler.Carries M ((Contract.logging log good k A).own anyStep anyStep)
      (GoodFrom log good k)) : (Contract.logging log good k A).Sound M := by
  intro _ P s inner _ hsafe _
  refine ⟨anyStep, anyStep, GoodFrom log good k, Prog.along_any _ _ _, fun _ _ _ _ _ => trivial,
    hhandler _ (hsafe.of_eq (hM.enter s)), fun t _ ht => ht.of_eq (hM.leave t)⟩

end Good

/-! ## From the log back to the steps -/

/--
**What a run notes tells what its steps were like.** If a step that does not meet `A` leads to a bad
entry before the program ends, then every step meets `A` in a run with good entries only.

The induction is on the schedule. The log of each handler is a part of that of the run.
-/
theorem everyStep_of_log {good : ε → Prop} {A : StepProp σ ι} (hM : M.Logs log)
    (hA : ∀ {α : Type} {f : ι → σ → σ} {k : ι → σ → Prog σ ι α} {i : ι} {rest : Sched ι} {s t : σ}
      {a : α} {l : List ε}, (Prog.step f k).Keeps (Appends log) →
      (Prog.step f k).run M (.go i rest) s = some (a, t) → log t = log s ++ l →
      (∀ e ∈ l, good e) → A (Prog.step f k) s (f i s)) :
    ∀ (sched : Sched ι) {α : Type} (p : Prog σ ι α) (s : σ) {a : α} {t : σ} {l : List ε},
      p.Keeps (Appends log) → p.run M sched s = some (a, t) → log t = log s ++ l →
      (∀ e ∈ l, good e) → p.everyStep M A sched s
  | .stop, _, _, _, _, _, _, _, _, _, _ => trivial
  | .go _ _, _, .ret _, _, _, _, _, _, _, _, _ => trivial
  | .go i rest, _, .step f k, s, a, t, l, hp, hrun, hlog, hgood => by
    intro hadm
    refine ⟨hA hp hrun hlog hgood, ?_⟩
    obtain ⟨⟨l₁, hl₁⟩, hk⟩ := hp i s
    have hrest : (k i s).run M rest (f i s) = some (a, t) := by
      simpa only [Prog.run, hadm, if_true] using hrun
    obtain ⟨l₂, hl₂⟩ := hk.run_appends hM hrest
    have hl : l = l₁ ++ l₂ := by
      rw [← hl₂, ← hl₁, List.append_assoc] at hlog
      exact (List.append_cancel_left hlog).symm
    exact everyStep_of_log hM hA rest (k i s) (f i s) hk hrest hl₂.symm fun e he =>
      hgood e (hl ▸ List.mem_append_right _ he)
  | .irq inner rest, _, p, s, a, t, l, hp, hrun, hlog, hgood => by
    intro hen
    cases hinner : M.handler.run M inner (M.enter s) with
    | none => simp [Prog.run, hen, hinner] at hrun
    | some r =>
      have hrest : p.run M rest (M.leave r.2) = some (a, t) := by
        simpa only [Prog.run, hen, if_true, hinner] using hrun
      obtain ⟨l₁, hl₁⟩ := hM.handler.run_appends hM hinner
      obtain ⟨l₂, hl₂⟩ := hp.run_appends hM hrest
      rw [hM.enter] at hl₁
      have hl : l = l₁ ++ l₂ := by
        rw [← hl₂, hM.leave, ← hl₁, List.append_assoc] at hlog
        exact (List.append_cancel_left hlog).symm
      refine ⟨trivial, ?_, ?_⟩
      · refine everyStep_of_log hM hA inner M.handler (M.enter s) hM.handler hinner (l := l₁) ?_
          fun e he => hgood e (hl ▸ List.mem_append_left _ he)
        rw [hM.enter, hl₁]
      · exact everyStep_of_log hM hA rest p _ hp hrest hl₂.symm fun e he =>
          hgood e (hl ▸ List.mem_append_right _ he)

end Interrupt
