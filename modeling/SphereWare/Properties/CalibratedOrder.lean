import SphereWare.Properties.Recalibration

/-!
# The calibrated scan order

`Calibrate` finds for each velocity pad the first bias code at which its bridge balances, takes the
threshold there, and orders the scan by these codes. Pads with the same code stay in order.
-/

namespace SphereWare

open Interrupt Prog

variable {on : Firmware → Bool} {readings : Readings} {v w : RecalView}

/-! ## Readings -/

/-- The negated reading of a pad at a bias code. -/
def negatedReading (readings : Readings) (pad code : Nat) : Int :=
  -adcResult .diff1X10 (readings pad code)

theorem adcResult_diff1X10 (raw : BitVec 10) :
    -511 ≤ adcResult .diff1X10 raw ∧ adcResult .diff1X10 raw ≤ 511 := by
  revert raw
  decide +kernel

theorem deflection_eq (readings : Readings) (pad code : Nat) :
    deflection readings pad code = negatedReading readings pad code := by
  have hrange := adcResult_diff1X10 (readings pad code)
  unfold deflection negatedReading i16
  omega

/-! ## The first balancing code -/

/-- At the code, and at none before it, the bridge of the pad balances. -/
structure BalancesFirst (readings : Readings) (pad code : Nat) : Prop where
  lt : code < 64
  balances : -400 < negatedReading readings pad code
  first : ∀ k < code, negatedReading readings pad k ≤ -400

/-- The bridge of the pad balances at no code. -/
def NeverBalances (readings : Readings) (pad : Nat) : Prop :=
  ∀ k < 64, negatedReading readings pad k ≤ -400

theorem biasOf_eq_some_iff (readings : Readings) (pad code : Nat) :
    biasOf readings pad = some code ↔ BalancesFirst readings pad code := by
  unfold biasOf
  rw [List.find?_range_eq_some]
  simp only [decide_eq_true_eq, Bool.not_eq_true', decide_eq_false_iff_not, not_lt, deflection_eq,
    List.mem_range]
  constructor
  · rintro ⟨hbalances, hlt, hfirst⟩
    exact ⟨hlt, hbalances, hfirst⟩
  · intro h
    exact ⟨h.balances, h.lt, h.first⟩

theorem biasOf_eq_none_iff (readings : Readings) (pad : Nat) :
    biasOf readings pad = none ↔ NeverBalances readings pad := by
  unfold biasOf NeverBalances
  simp [deflection_eq]

theorem biasOf_getD (readings : Readings) (pad : Nat) :
    BalancesFirst readings pad ((biasOf readings pad).getD 0) ∨
      (biasOf readings pad).getD 0 = 0 ∧ NeverBalances readings pad := by
  cases hbias : biasOf readings pad with
  | some code => exact Or.inl ((biasOf_eq_some_iff readings pad code).mp hbias)
  | none => exact Or.inr ⟨rfl, (biasOf_eq_none_iff readings pad).mp hbias⟩

/-! ## The order -/

/-- The codes found, in the order of the pads. -/
def foundOrder (readings : Readings) : Nat → Nat × Nat := fun p => ((biasOf readings p).getD 0, p)

/-- **The calibrated arrays are the pairs of code and pad, sorted by code.** -/
theorem Recalibrated.pair_eq (h : Recalibrated readings v w) {i : Nat} (hi : i < 40) :
    (w.pads.r2rVal i, w.pads.padOrder i) = Bubble.sortFrom Prod.fst (foundOrder readings) 39 i := by
  obtain ⟨a, hcode, horder, hsorted⟩ := h.order
  have hsame : ∀ p ≤ 39, a.zip p = foundOrder readings p := by
    intro p hp
    rw [ScanOrder.zip, hcode p (by omega), horder p (Nat.lt_of_le_of_lt hp (by decide)), foundOrder]
  calc (w.pads.r2rVal i, w.pads.padOrder i)
      = (ScanOrder.mk w.pads.r2rVal w.pads.padOrder).zip i := rfl
    _ = Bubble.sortFrom Prod.fst a.zip 39 i := by
        rw [hsorted]
        exact congrFun (ScanOrder.zip_bubbleSort a 39) i
    _ = Bubble.sortFrom Prod.fst (foundOrder readings) 39 i :=
        Bubble.sortFrom_congr Prod.fst hsame (Nat.le_refl 39) i (Nat.le_of_lt_succ hi)

theorem Recalibrated.padOrder_rest (h : Recalibrated readings v w) {i : Nat} (hi : 40 ≤ i)
    (hi' : i < numPads) : w.pads.padOrder i = i := by
  obtain ⟨a, -, horder, hsorted⟩ := h.order
  obtain ⟨σ, hσ, hfix⟩ := Bubble.sortFrom_rearranges Prod.fst a.zip 39
  have hpair : (ScanOrder.mk w.pads.r2rVal w.pads.padOrder).zip i = a.zip i := by
    rw [hsorted]
    refine (congrFun (ScanOrder.zip_bubbleSort a 39) i).trans ?_
    rw [hσ, Function.comp_apply, hfix i hi]
  exact (congrArg Prod.snd hpair).trans (horder i hi')

/-- What `Calibrate` is to leave behind. -/
structure CalibratedScan (readings : Readings) (s : Firmware) : Prop where
  /-- The first forty positions are a permutation of the velocity pads. -/
  perm : ((List.range 40).map s.pads.padOrder).Perm (List.range 40)
  rest : ∀ i, 40 ≤ i → i < numPads → s.pads.padOrder i = i
  code : ∀ i < 40, BalancesFirst readings (s.pads.padOrder i) (s.pads.r2rVal i) ∨
    s.pads.r2rVal i = 0 ∧ NeverBalances readings (s.pads.padOrder i)
  sorted : ∀ i j, i ≤ j → j < 40 → s.pads.r2rVal i ≤ s.pads.r2rVal j
  stable : ∀ i j, i < j → j < 40 → s.pads.r2rVal i = s.pads.r2rVal j →
    s.pads.padOrder i < s.pads.padOrder j
  threshold : ∀ p < 40, ∀ code, BalancesFirst readings p code →
    (s.standby.initVal p).toInt = negatedReading readings p code + if p < 8 then 120 else 105

/-- A permutation of the indices up to `n` lists them all. -/
theorem perm_map_range {n : Nat} {σ : Equiv.Perm Nat} (hσ : ∀ i, n < i → σ i = i) :
    ((List.range (n + 1)).map σ).Perm (List.range (n + 1)) := by
  rw [List.perm_ext_iff_of_nodup (List.nodup_range.map σ.injective) List.nodup_range]
  intro j
  simp only [List.mem_map, List.mem_range]
  constructor
  · rintro ⟨i, hi, rfl⟩
    exact Nat.lt_succ_of_le (Bubble.perm_le hσ (Nat.le_of_lt_succ hi))
  · intro hj
    refine ⟨σ.symm j, ?_, Equiv.apply_symm_apply σ j⟩
    by_contra hge
    have hfix := hσ (σ.symm j) (by omega)
    rw [Equiv.apply_symm_apply] at hfix
    omega

theorem toInt_thresholdAt (readings : Readings) (pad code : Nat) :
    (thresholdAt readings pad code).toInt
      = negatedReading readings pad code + if pad < 8 then 120 else 105 := by
  have hrange := adcResult_diff1X10 (readings pad code)
  rw [thresholdAt, deflection_eq, BitVec.toInt_ofInt]
  unfold threshold negatedReading
  split <;> exact Int.bmod_eq_of_le (by omega) (by omega)

/--
**Calibration finds the first balancing codes and orders the scan by them.** From every state and
for all readings, with ticks anywhere but for those that begin or end standby.
-/
theorem calibratedScan_of_calibrate {sched : Sched Input} {codes : Nat → Nat} {s t : Firmware}
    (hrun : calibrate.run (sensingWhile on readings) sched s = some (codes, t)) :
    CalibratedScan readings t := by
  have h : Recalibrated readings (recalView s) (recalView t) :=
    Spec.run recalView_sound (Q := fun _ w => Recalibrated readings (recalView s) w)
      calibrate_sensed hrun
  obtain ⟨σ, hσ, hfix⟩ := Bubble.sortFrom_rearranges Prod.fst (foundOrder readings) 39
  have hpair (i : Nat) (hi : i < 40) : t.pads.padOrder i = σ i ∧
      t.pads.r2rVal i = (biasOf readings (t.pads.padOrder i)).getD 0 := by
    have heq : (t.pads.r2rVal i, t.pads.padOrder i) = foundOrder readings (σ i) :=
      (h.pair_eq hi).trans (congrFun hσ i)
    have horder : t.pads.padOrder i = σ i := congrArg Prod.snd heq
    refine ⟨horder, ?_⟩
    rw [horder]
    exact congrArg Prod.fst heq
  have hcode (i : Nat) (hi : i < 40) : t.pads.r2rVal i
      = (Bubble.sortFrom Prod.fst (foundOrder readings) 39 i).1 := congrArg Prod.fst (h.pair_eq hi)
  have hpad (i : Nat) (hi : i < 40) : t.pads.padOrder i
      = (Bubble.sortFrom Prod.fst (foundOrder readings) 39 i).2 := congrArg Prod.snd (h.pair_eq hi)
  refine ⟨?_, fun i hi hi' => h.padOrder_rest hi hi', ?_, ?_, ?_, ?_⟩
  · have hmap : (List.range 40).map t.pads.padOrder = (List.range 40).map σ :=
      List.map_congr_left fun i hi => (hpair i (List.mem_range.mp hi)).1
    rw [hmap]
    exact perm_map_range hfix
  · intro i hi
    rw [(hpair i hi).2]
    exact biasOf_getD readings _
  · intro i j hij hj
    rw [hcode i (by omega), hcode j hj]
    exact Bubble.key_sortFrom_le Prod.fst _ 39 hij (Nat.le_of_lt_succ hj)
  · intro i j hij hj heq
    rw [hcode i (by omega), hcode j hj] at heq
    rw [hpad i (by omega), hpad j hj]
    exact Bubble.sortFrom_tiesOrdered Prod.fst (r := fun a b => a.2 < b.2) (Nat.le_refl 39)
      (fun i j hij _ _ => hij) i j hij (Nat.le_of_lt_succ hj) heq
  · intro p hp code hbalances
    have hbias := (biasOf_eq_some_iff readings p code).mpr hbalances
    have hinit : t.standby.initVal p = thresholdAt readings p code := by
      rw [show t.standby.initVal p = _ from h.initVal p hp, newThreshold, hbias]
      rfl
    rw [hinit, toInt_thresholdAt]

/-- From power-on, with the readings of a unit in which the bridge of pad 0 never balances. -/
theorem calibratedScan_of_calibrate_powerOn :
    CalibratedScan firstPadStuck (calibrate.exec (sensed firstPadStuck) powerOn).2 := by
  have hrun := run_steady (sensingWhile (fun _ => true) firstPadStuck) (sensed firstPadStuck)
    (fun _ => beq_self_eq_true _) calibrate powerOn
  rw [← Prod.mk.eta (p := calibrate.exec (sensed firstPadStuck) powerOn)] at hrun
  exact calibratedScan_of_calibrate hrun

end SphereWare
