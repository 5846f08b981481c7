import SphereWare.Interrupt.Taken
import SphereWare.Properties.HeldPad

/-!
# The sticky timeout

At full pressure main adds 50 counts to the threshold of a pad, and after more than `STICKY_TIMEOUT`
releases it takes them back. The counter is advanced in the release branch, which is run once for a
press: the passes in which the pad stays released do not count.

The steps that apply the offset, those that take it back and the recalibrations that forget it are
tallied along a run, and the three numbers balance (`StickyRun.credit`). What is left of the
threshold without any offset stays as it is, unless the run calibrates or loses a standby offset
(`StickyRun.balanced`), so the threshold itself ends 50 counts lower for each offset taken back.
-/

namespace SphereWare

open Interrupt Prog StickyView ThresholdView

variable {p : Nat}

/-! ## Tallies -/

/-- What happened to the offset of a pad and to its threshold. -/
structure StickyTally where
  applied : Nat
  takenBack : Nat
  /-- The recalibrations while the offset was applied. -/
  forgotten : Nat
  /-- All recalibrations. -/
  calibrated : Nat
  /-- The ticks that began or ended standby between a load and its store. -/
  lost : Nat

namespace StickyTally

def zero : StickyTally := ⟨0, 0, 0, 0, 0⟩

def add (m n : StickyTally) : StickyTally where
  applied := m.applied + n.applied
  takenBack := m.takenBack + n.takenBack
  forgotten := m.forgotten + n.forgotten
  calibrated := m.calibrated + n.calibrated
  lost := m.lost + n.lost

/-- The steps and the ticks of a part of main. -/
def ofRun {α : Type} (p : Nat) (sched : Sched Input) (c : Code α) (s : Firmware)
    (forgotten calibrated : Nat) : StickyTally where
  applied := c.tally avr (raises (stickyFlag p)) sched s
  takenBack := c.tally avr (takesBack p) sched s
  forgotten := forgotten
  calibrated := calibrated
  lost := (c.taken avr sched s).countP fun t => !tickHarmless t

end StickyTally

/-- The iteration calibrates while the offset is applied. -/
def forgets (p : Nat) (s : Firmware) (o : Outcome) : Bool := o.recalibrated.isSome && stickyFlag p s

/-- The tally of an iteration that begins in the state `s`. -/
def iterationTally (p : Nat) (sched : Sched Input) (i : Nat) (s : Firmware) (o : Outcome) :
    StickyTally :=
  .ofRun p sched (scanPad i) s (forgets p s o).toNat o.recalibrated.isSome.toNat

/-- What main does from the position `i₀` in the state `s₀` on, with a tally for the pad `p`. -/
inductive StickyRun (p i₀ : Nat) (s₀ : Firmware) :
    List Outcome → StickyTally → Nat → Firmware → Prop where
  | refl : StickyRun p i₀ s₀ [] .zero i₀ s₀
  | pad {os : List Outcome} {n : StickyTally} {i : Nat} {s t : Firmware} {o : Outcome}
      (h : StickyRun p i₀ s₀ os n i s) (sched : Sched Input) (hi : i < numPads)
      (hrun : (scanPad i).run avr sched s = some (o, t)) :
      StickyRun p i₀ s₀ (os ++ [o]) (n.add (iterationTally p sched i s o)) (i + 1) t
  | pass {os : List Outcome} {n : StickyTally} {s t : Firmware}
      (h : StickyRun p i₀ s₀ os n numPads s) (sched : Sched Input)
      (hrun : endPass.run avr sched s = some ((), t)) :
      StickyRun p i₀ s₀ os (n.add (.ofRun p sched endPass s 0 0)) 0 t

/-- Every continuation of the scan loop has a tally. -/
theorem LoopRun.exists_stickyRun {os : List Outcome} {i₀ i : Nat} {s₀ s : Firmware}
    (h : LoopRun avr i₀ s₀ os i s) (p : Nat) : ∃ n, StickyRun p i₀ s₀ os n i s := by
  induction h with
  | refl => exact ⟨_, .refl⟩
  | step h hstep ih =>
    obtain ⟨n, hn⟩ := ih
    cases hstep with
    | pad sched hi hrun => exact ⟨_, .pad hn sched hi hrun⟩
    | pass sched hrun =>
      rw [Option.toList_none, List.append_nil]
      exact ⟨_, .pass hn sched hrun⟩

/-! ## Credit -/

variable {s t : Firmware}

theorem stickyFlag_eq {v : StickyView} (h : stickyView s = v) : stickyFlag p s = v.applied p :=
  congrArg (fun v => StickyView.applied v p) h

theorem scanPad_eq (i : Nat) : scanPad i =
    (read fun s : Firmware => s.pads.padOrder i).bind fun pad => resetButton.bind fun codes =>
      (scanRest i pad).bind fun r => ret ⟨pad, codes, r.1, r.2⟩ := rfl

/-- The part of an iteration after the reset button. -/
theorem rest_credit {i pad : Nat} {codes : Option (Nat → Nat)} {sched : Sched Input} {o : Outcome}
    (hrun : ((scanRest i pad).bind fun r => ret (⟨pad, codes, r.1, r.2⟩ : Outcome)).run avr sched s
      = some (o, t)) :
    o.recalibrated = codes ∧
      ((scanRest i pad).bind fun r => ret (⟨pad, codes, r.1, r.2⟩ : Outcome)).tally avr
          (takesBack p) sched s + (stickyFlag p t).toNat
        = ((scanRest i pad).bind fun r => ret (⟨pad, codes, r.1, r.2⟩ : Outcome)).tally avr
          (raises (stickyFlag p)) sched s + (stickyFlag p s).toNat := by
  constructor
  · refine Spec.run stickyView_sound (Q := fun o _ => o.recalibrated = codes) ?_ hrun
    exact Spec.bind Spec.top fun r _ _ => Spec.ret rfl
  · have hfair := Keeps.bind (scanRest_fair p i pad) fun r =>
      Keeps.ret (⟨pad, codes, r.1, r.2⟩ : Outcome)
    rw [tally_congr hfair]
    exact tally_balance (stickyFlag_sound p) sched _ s hrun

/-- **The offsets of an iteration balance.** -/
theorem iteration_credit (hp : p < numPads) {i : Nat} {sched : Sched Input} {o : Outcome}
    (hrun : (scanPad i).run avr sched s = some (o, t)) :
    (scanPad i).tally avr (takesBack p) sched s + (stickyFlag p t).toNat + (forgets p s o).toNat
      = (scanPad i).tally avr (raises (stickyFlag p)) sched s + (stickyFlag p s).toNat := by
  rw [scanPad_eq] at hrun ⊢
  obtain ⟨sched₁, sched₂, pad, s₁, hread, hrun₁, htrace₁⟩ := run_bind_split sched _ _ s hrun
  obtain ⟨sched₃, sched₄, codes, s₂, hreset, hrest, htrace₂⟩ := run_bind_split sched₂ _ _ s₁ hrun₁
  -- neither the read of the scan order nor the reset button counts
  have hkept : (read fun s : Firmware => s.pads.padOrder i : Code Nat).Keeps (SameOn stickyView) :=
    Keeps.atomic fun _ _ => rfl
  have hread₀ := keeps_neutral (p := p) hkept
  have hback₁ := tally_eq_zero avr sched₁ s (Keeps.mono (fun _ _ h => h.1) hread₀)
  have hback₂ := tally_eq_zero avr sched₃ s₁ (Keeps.mono (fun _ _ h => h.1) (resetButton_neutral p))
  have hraise₁ := tally_eq_zero avr sched₁ s (Keeps.mono (fun _ _ h => h.2) hread₀)
  have hraise₂ := tally_eq_zero avr sched₃ s₁ (Keeps.mono (fun _ _ h => h.2) (resetButton_neutral p))
  have hsame : stickyView s₁ = stickyView s :=
    Spec.run stickyView_sound (Q := fun _ w => w = stickyView s)
      (Spec.keeps hkept fun _ => rfl) hread
  have hsteps : ResetSteps (stickyView s₁) (stickyView s₂) codes :=
    resetButton_sticky.run stickyView_sound hreset
  obtain ⟨hcodes, hcredit⟩ := rest_credit (p := p) hrest
  have hforget : (stickyFlag p s₂).toNat + (forgets p s o).toNat = (stickyFlag p s).toNat := by
    have hflag₁ : stickyFlag p s₁ = stickyFlag p s := stickyFlag_eq hsame
    rw [forgets, hcodes, ← hflag₁]
    cases codes with
    | none =>
      have hflag₂ : stickyFlag p s₂ = stickyFlag p s₁ := stickyFlag_eq hsteps
      simp [hflag₂]
    | some codes =>
      have hflag₂ : stickyFlag p s₂ = false := (hsteps.1 p hp).1
      simp [hflag₂]
  unfold tally at hback₁ hback₂ hraise₁ hraise₂ hcredit ⊢
  rw [htrace₁, htrace₂]
  simp only [List.countP_append]
  omega

/-- **The offsets of a run balance.** -/
theorem StickyRun.credit (hp : p < numPads) {i₀ i : Nat} {s₀ : Firmware} {os : List Outcome}
    {n : StickyTally} (h : StickyRun p i₀ s₀ os n i s) :
    n.takenBack + (stickyFlag p s).toNat + n.forgotten = n.applied + (stickyFlag p s₀).toNat := by
  induction h with
  | refl => simp [StickyTally.zero]
  | pad h sched hi hrun ih =>
    have hstep := iteration_credit hp hrun
    simp only [StickyTally.add, StickyTally.ofRun, iterationTally]
    omega
  | @pass os n s t h sched hrun ih =>
    have hkeeps := keeps_neutral (p := p) endPass_sticky
    have hback := tally_eq_zero avr sched s (Keeps.mono (fun _ _ h => h.1) hkeeps)
    have hraise := tally_eq_zero avr sched s (Keeps.mono (fun _ _ h => h.2) hkeeps)
    have hflag : stickyFlag p t = stickyFlag p s := stickyFlag_eq (Spec.run stickyView_sound
      (Q := fun _ w => w = stickyView s) (Spec.keeps endPass_sticky fun _ => rfl) hrun)
    simp only [StickyTally.add, StickyTally.ofRun, hback, hraise, hflag]
    exact ih

/-! ## The threshold -/

/-- A part of main none of whose ticks loses a standby offset is one without harmful ticks. -/
theorem run_calm {α : Type} {c : Code α} {sched : Sched Input} {r : α × Firmware}
    (hlost : (c.taken avr sched s).countP (fun t => !tickHarmless t) = 0)
    (hrun : c.run avr sched s = some r) : c.run calmAvr sched s = some r := by
  refine run_restrict sched c s r (fun u hu => ?_) hrun
  simpa using List.countP_eq_zero.mp hlost u hu

/-- **What is left of the threshold without offsets stays.** -/
theorem StickyRun.balanced {i₀ i : Nat} {s₀ : Firmware} {os : List Outcome} {n : StickyTally}
    (h : StickyRun p i₀ s₀ os n i s) (hcalibrated : n.calibrated = 0) (hlost : n.lost = 0) :
    Balanced (thresholdView s₀) (thresholdView s) := by
  induction h with
  | refl => exact Balanced.refl _
  | @pad os n i s t o h sched hi hrun ih =>
    simp only [StickyTally.add, StickyTally.ofRun, iterationTally, Nat.add_eq_zero_iff]
      at hcalibrated hlost
    have hnone : o.recalibrated = none := by
      cases hcodes : o.recalibrated with
      | none => rfl
      | some codes => simp [hcodes] at hcalibrated
    have hstep : QuietStep calmAvr s t := .iteration i sched (run_calm hlost.2 hrun) hnone
    exact (ih hcalibrated.1 hlost.1).trans hstep.balanced
  | @pass os n s t h sched hrun ih =>
    simp only [StickyTally.add, StickyTally.ofRun, Nat.add_eq_zero_iff] at hcalibrated hlost
    have hstep : QuietStep calmAvr s t := .pass sched (run_calm hlost.2 hrun)
    exact (ih hcalibrated.1 hlost.1).trans hstep.balanced

/-- The threshold of a pad but for the standby offset and the hysteresis. -/
def settledThreshold (p : Nat) (s : Firmware) : BitVec 16 :=
  s.standby.initVal p - (if s.standby.thresholdsRaised then 100 else 0)
    + (if s.pads.velocitySent p then (if p < 16 then 35 else 25) else 0)

/-- The anti-sticky offset is all that is left in it beside the calibrated threshold. -/
theorem settledThreshold_eq (hp : p < 40) (s : Firmware) :
    settledThreshold p s
      = (thresholdView s).net p + (if s.pads.antiStickyApplied p then 50 else 0) := by
  simp only [settledThreshold, net, offset, thresholdView, Standby.base, Standby.raised, hp,
    if_true, hysterisisAdjust]
  grind

/-! ## Runs with a released pad -/

/-- The offset after readings of the released pad, by what it was before. -/
structure AfterReadings (p : Nat) (v : StickyView) (readings : List Outcome) (w : StickyView) :
    Prop where
  off : v.applied p = false → w.applied p = false
  before : v.applied p = true → v.Due p → readings = [] → SameAt p v w
  due : v.applied p = true → v.Due p → readings ≠ [] → w.applied p = false
  stuck : v.applied p = true → ¬v.Due p → w.applied p = true ∧ ¬w.Due p

theorem AfterReadings.refl (p : Nat) (v : StickyView) : AfterReadings p v [] v where
  off := id
  before _ _ _ := ⟨rfl, rfl, rfl⟩
  due _ _ h := absurd rfl h
  stuck h₁ h₂ := ⟨h₁, h₂⟩

/-- The step lemma: a reading that does not forget the offset. -/
theorem AfterReadings.step {u v w : StickyView} {o : Outcome} {readings : List Outcome}
    (h : AfterReadings p v readings u) (hp : p < 40) (hstep : StickyIteration u o w)
    (ho : o.pad = p → o.NotPressed) (hcodes : u.applied p = true → o.recalibrated = none) :
    AfterReadings p v (readings ++ readingsOf p [o]) w := by
  have hnil : readings ++ readingsOf p [o] = [] ↔ readings = [] ∧ p ≠ o.pad := by
    rw [List.append_eq_nil_iff, readingsOf_singleton]
  refine ⟨fun hoff => hstep.off hp ho (h.off hoff), fun happlied hdue hempty => ?_,
    fun happlied hdue hsome => ?_, fun happlied hdue => ?_⟩
  · obtain ⟨hempty, hne⟩ := hnil.mp hempty
    have hsame := h.before happlied hdue hempty
    have hother := hstep.sameAt (hcodes (hsame.1.trans happlied)) hne
    exact ⟨hother.1.trans hsame.1, hother.2.1.trans hsame.2.1, hother.2.2.trans hsame.2.2⟩
  · by_cases hempty : readings = []
    · have hsame := h.before happlied hdue hempty
      have hu : u.applied p = true := hsame.1.trans happlied
      have hpad : o.pad = p := by
        by_contra hne
        exact hsome (hnil.mpr ⟨hempty, Ne.symm hne⟩)
      subst hpad
      refine hstep.due hp (hcodes hu) (ho rfl) hu ?_
      rw [Due, hsame.2.1, hsame.2.2]
      exact hdue
    · exact hstep.off hp ho (h.due happlied hdue hempty)
  · obtain ⟨happlied', hdue'⟩ := h.stuck happlied hdue
    exact hstep.stuck hp (hcodes happlied') ho happlied' hdue'

theorem StickyRun.afterReadings (hp : p < 40) {i₀ i : Nat} {s₀ : Firmware} {os : List Outcome}
    {n : StickyTally} (h : StickyRun p i₀ s₀ os n i s)
    (hquiet : ∀ o ∈ readingsOf p os, o.NotPressed) (hforgotten : n.forgotten = 0) :
    AfterReadings p (stickyView s₀) (readingsOf p os) (stickyView s) := by
  induction h with
  | refl => exact AfterReadings.refl p _
  | @pad os n i s t o h sched hi hrun ih =>
    have hsplit : readingsOf p (os ++ [o]) = readingsOf p os ++ readingsOf p [o] :=
      List.filter_append _ _
    rw [hsplit] at hquiet ⊢
    simp only [StickyTally.add, StickyTally.ofRun, iterationTally, Nat.add_eq_zero_iff]
      at hforgotten
    have hstep : StickyIteration (stickyView s) o (stickyView t) :=
      (scanPad_sticky i).run stickyView_sound hrun
    refine (ih (fun o ho => hquiet o (List.mem_append_left _ ho)) hforgotten.1).step hp hstep
      (fun hpad => hquiet o (List.mem_append_right _ ?_)) fun happlied => ?_
    · simp [readingsOf, hpad]
    · have hflag : stickyFlag p s = true := happlied
      simpa [forgets, hflag] using hforgotten.2
  | @pass os n s t h sched hrun ih =>
    have hsame : stickyView t = stickyView s := Spec.run stickyView_sound
      (Q := fun _ w => w = stickyView s) (Spec.keeps endPass_sticky fun _ => rfl) hrun
    rw [hsame]
    exact ih hquiet hforgotten

/-! ## The timeout -/

/-- From `s` to `t` the offset is switched off, and its 50 counts are taken back once. -/
structure TakenBackOnce (p : Nat) (s : Firmware) (n : StickyTally) (t : Firmware) : Prop where
  off : t.pads.antiStickyApplied p = false
  /-- The 50 counts are subtracted once for each time they were added, also before `s`. -/
  once : n.takenBack = n.applied + 1
  /-- The threshold is 50 counts lower, and no others are missing from it. -/
  counts : n.calibrated = 0 → n.lost = 0 → settledThreshold p t = settledThreshold p s - 50

/-- What is needed for it. -/
theorem TakenBackOnce.due (hp : p < 40) {i j k : Nat} {s w t : Firmware}
    (happlied : s.pads.antiStickyApplied p = true) {os₁ os₂ : List Outcome} {n₁ n₂ : StickyTally}
    (hbefore : StickyRun p i s os₁ n₁ j w) (hreleased : StickyRun p j w os₂ n₂ k t)
    (hquiet : ∀ o ∈ readingsOf p os₂, o.NotPressed) (h : TakenBackOnce p s (n₁.add n₂) t) :
    (n₁.add n₂).forgotten = 0 ∧ (w.pads.antiStickyApplied p = true → (stickyView w).Due p) := by
  have hp48 : p < numPads := Nat.lt_trans hp (by decide)
  have hcredit₁ := hbefore.credit hp48
  have hcredit₂ := hreleased.credit hp48
  have hflag : stickyFlag p s = true := happlied
  have hoff : stickyFlag p t = false := h.off
  have honce := h.once
  rw [hflag, Bool.toNat_true] at hcredit₁
  rw [hoff, Bool.toNat_false] at hcredit₂
  simp only [StickyTally.add] at honce ⊢
  have hforgotten : n₁.forgotten + n₂.forgotten = 0 := by omega
  refine ⟨hforgotten, fun happlied' => ?_⟩
  have hafter := hreleased.afterReadings hp hquiet (by omega)
  by_contra hdue
  have hstuck := (hafter.stuck happlied' hdue).1
  exact Bool.false_ne_true (hoff.symm.trans hstuck)

/--
**When the offset times out.** From every state with the offset applied, after any run and eleven
readings of the released pad: exactly if no recalibration forgets the offset and, before the first
of these readings, it has been taken back already or the next release brings the counter over the
limit.
-/
theorem takenBackOnce_iff (hp : p < 40) {i j k : Nat} {s w t : Firmware}
    (happlied : s.pads.antiStickyApplied p = true) {os₁ os₂ : List Outcome} {n₁ n₂ : StickyTally}
    (hbefore : StickyRun p i s os₁ n₁ j w) (hreleased : StickyRun p j w os₂ n₂ k t)
    (hcount : (readingsOf p os₂).length = 10 + 1)
    (hquiet : ∀ o ∈ readingsOf p os₂, o.NotPressed) :
    TakenBackOnce p s (n₁.add n₂) t ↔ (n₁.add n₂).forgotten = 0 ∧
      (w.pads.antiStickyApplied p = true →
        w.pads.velocitySent p = true ∧ 10 < (w.pads.stickyCount p + 1) % 65536) := by
  constructor
  · exact fun h => h.due hp happlied hbefore hreleased hquiet
  · rintro ⟨hforgotten, hdue⟩
    have hp48 : p < numPads := Nat.lt_trans hp (by decide)
    have hcredit₁ := hbefore.credit hp48
    have hcredit₂ := hreleased.credit hp48
    have hreadings : readingsOf p os₂ ≠ [] := by
      intro hnil
      rw [hnil] at hcount
      exact absurd hcount (by decide)
    have hflag : stickyFlag p s = true := happlied
    rw [hflag, Bool.toNat_true] at hcredit₁
    simp only [StickyTally.add] at hforgotten
    have hafter := hreleased.afterReadings hp hquiet (by omega)
    have hoff : stickyFlag p t = false := by
      cases happlied' : stickyFlag p w with
      | false => exact hafter.off happlied'
      | true => exact hafter.due happlied' (hdue happlied') hreadings
    rw [hoff, Bool.toNat_false] at hcredit₂
    refine ⟨hoff, ?_, fun hcalibrated hlost => ?_⟩
    · simp only [StickyTally.add]
      omega
    · simp only [StickyTally.add, Nat.add_eq_zero_iff] at hcalibrated hlost
      have hbalanced := (hbefore.balanced hcalibrated.1 hlost.1).trans
        (hreleased.balanced hcalibrated.2 hlost.2) p hp
      have hoff : t.pads.antiStickyApplied p = false := hoff
      rw [settledThreshold_eq hp, settledThreshold_eq hp, hbalanced, happlied, hoff, if_pos rfl,
        if_neg Bool.false_ne_true]
      simp only [BitVec.ofNat_eq_ofNat, BitVec.add_zero, BitVec.add_sub_cancel]

/-! ## A pad let go once -/

/-- A pad is held at full pressure until the offset is applied, and then released once. -/
theorem exists_released_once : ∃ p os s os' n k t, p < 40 ∧ ScanRun avr os 0 s ∧
    s.pads.antiStickyApplied p = true ∧ StickyRun p 0 s os' n k t ∧
      (readingsOf p os').length = 10 + 1 ∧ (∀ o ∈ readingsOf p os', o.NotPressed) ∧
        ¬(stickyView s).Due p := by
  obtain ⟨p, s₀, hstart, hpad, hsent, hcount⟩ := exists_firstPad
  obtain ⟨os, s, hheld, hs, happlied, -, hcount'⟩ := hpad.exists_applied hsent hcount
  obtain ⟨os', t, hreleased, -, hlength, hquiet⟩ := hs.exists_released 11
  obtain ⟨n, htally⟩ := hreleased.exists_stickyRun p
  refine ⟨p, _, s, os', n, 0, t, hs.lt, hstart.append hheld, happlied, htally, hlength, hquiet, ?_⟩
  rintro ⟨-, hdue⟩
  have hzero : (stickyView s).count p = 0 := hcount'
  rw [hzero] at hdue
  exact absurd hdue (by decide)

theorem takenBackOnce_iff_released : ∃ p os s os' n k t, ScanRun avr os 0 s ∧
    StickyRun p 0 s os' n k t ∧ ¬TakenBackOnce p s (StickyTally.zero.add n) t := by
  obtain ⟨p, os, s, os', n, k, t, hp, hs, happlied, hreleased, hlength, hquiet, hdue⟩ :=
    exists_released_once
  refine ⟨p, os, s, os', n, k, t, hs, hreleased, fun h => ?_⟩
  have hiff := takenBackOnce_iff hp happlied .refl hreleased hlength hquiet
  exact hdue ((hiff.mp h).2 happlied)

/-- Eleven readings of the released pad are one release, and the offset is still applied. -/
theorem not_takenBackOnce : ¬∀ (p : Nat) (os : List Outcome) (i : Nat) (s : Firmware), p < 40 →
    ScanRun avr os i s → s.pads.antiStickyApplied p = true →
      ∀ (os₁ os₂ : List Outcome) (n₁ n₂ : StickyTally) (j k : Nat) (w t : Firmware),
        StickyRun p i s os₁ n₁ j w → StickyRun p j w os₂ n₂ k t →
        (readingsOf p os₂).length = 10 + 1 → (∀ o ∈ readingsOf p os₂, o.NotPressed) →
        TakenBackOnce p s (n₁.add n₂) t := by
  intro h
  obtain ⟨p, os, s, os', n, k, t, hp, hs, happlied, hreleased, hlength, hquiet, hdue⟩ :=
    exists_released_once
  have honce := h p os 0 s hp hs happlied [] os' .zero n 0 k s t .refl hreleased hlength hquiet
  exact hdue ((honce.due hp happlied .refl hreleased hquiet).2 happlied)

end SphereWare
