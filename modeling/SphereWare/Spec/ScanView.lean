import SphereWare.Interrupt.View
import SphereWare.Firmware.Frame

/-!
# What the main loop does

The timer interrupt leaves alone what main owns: its variables, the bytes of the pads in the report
and the bias converter (`scanView`). On this view main is a sequential program. This module says
for each of its functions what the function does to the view, and nothing later looks into them.
-/

namespace SphereWare

open Interrupt Prog

/-- A critical section does to a view what its body does. -/
theorem spec_critical_of {α τ : Type} {M : Machine Firmware Input} {g : Firmware → τ}
    (hg : ∀ s i c, g { s with cpu := { s.cpu with iflag := i, region := c } } = g s)
    {r : Region} {v : τ} {body : Code α} {Q : α → τ → Prop} (h : Spec M g v body Q) :
    Spec M g v (critical r body) Q := by
  refine Spec.act_bind v (fun s hs => (hg s false (some r)).trans hs) (Spec.bind h fun a w ha => ?_)
  exact Spec.act_bind w (fun s hs => (hg s true none).trans hs) (Spec.ret ha)

/-! ## The view -/

/-- The pads in the report, as the host decodes them. -/
def Hid.entries (h : Hid) : Nat → Nat × Nat := fun p => if p < numPads then h.entry p else (0, 0)

structure ScanView where
  pads : Pads
  entries : Nat → Nat × Nat
  dac : Nat

def scanView (s : Firmware) : ScanView := ⟨s.pads, s.hid.entries, s.ports.dac⟩

theorem Hid.entries_congr {h h' : Hid} (hb : ∀ j < 97, h'.buffer j = h.buffer j) :
    h'.entries = h.entries := by
  funext p
  unfold Hid.entries Hid.entry
  split
  · next hp =>
    have hlt : p < 48 := hp
    rw [hb (1 + p * 2) (by omega), hb (2 + p * 2) (by omega)]
  · rfl

theorem scanView_of_handlerView {s t : Firmware} (h : SameOn handlerView s t) :
    SameOn scanView s t := by
  simp only [SameOn, handlerView, Prod.mk.injEq] at h
  obtain ⟨h₁, h₂, -, -, h₅, -⟩ := h
  have hentries : t.hid.entries = s.hid.entries :=
    Hid.entries_congr fun j hj => congrFun h₂ ⟨j, hj⟩
  simp only [SameOn, scanView, h₁, h₅, hentries]

theorem scanView_of_ledView {s t : Firmware} (h : SameOn ledView s t) : SameOn scanView s t := by
  simp only [SameOn, ledView, Prod.mk.injEq] at h
  obtain ⟨h₁, -, h₃, -, -, -, -, h₈, -⟩ := h
  simp only [SameOn, scanView, h₁, h₃, h₈]

/-- **Interrupts leave the view alone.** -/
theorem scanView_sound : (Rely.ofView scanView).Sound avr :=
  Rely.ofView_sound (fun _ => rfl) (fun _ => rfl)
    (Keeps.mono (fun _ _ => scanView_of_handlerView) timerHandler_keeps)

/-! ## The report -/

theorem entries_writePadData_pack (h : Hid) {pad : Nat} (hpad : pad < numPads) (value : Int)
    (velocity : UInt8) :
    (h.writePadData pad value velocity).entries
      = Function.update h.entries pad
          (decodePad (Hid.packFirst velocity value) (Hid.packSecond value)) := by
  funext p
  by_cases hp : p = pad
  · subst hp
    simp only [Hid.entries, hpad, if_true, Function.update_self, h.entry_writePadData_pack]
  · rw [Function.update_of_ne hp]
    unfold Hid.entries Hid.entry
    rw [h.buffer_writePadData_of_ne value velocity (by omega) (by omega),
      h.buffer_writePadData_of_ne value velocity (by omega) (by omega)]

theorem entries_writePadData (h : Hid) {pad : Nat} (hpad : pad < numPads) {value : Int}
    (h₀ : 0 ≤ value) (h₁ : value ≤ 511) (velocity : UInt8) :
    (h.writePadData pad value velocity).entries
      = Function.update h.entries pad (value.toNat, velocity.toNat % 128) := by
  rw [entries_writePadData_pack h hpad, ← h.entry_writePadData_pack pad,
    h.entry_writePadData pad h₀ h₁]

theorem entries_writePressureOnly (h : Hid) {pad : Nat} (hpad : pad < numPads) {value : Int}
    (h₀ : 0 ≤ value) (h₁ : value ≤ 511) :
    (h.writePressureOnly pad value).entries
      = Function.update h.entries pad (value.toNat, (h.entries pad).2) := by
  funext p
  by_cases hp : p = pad
  · subst hp
    simp only [Hid.entries, hpad, if_true, Function.update_self,
      h.entry_writePressureOnly p h₀ h₁]
  · rw [Function.update_of_ne hp]
    unfold Hid.entries Hid.entry
    rw [h.buffer_writePressureOnly_of_ne value (by omega) (by omega),
      h.buffer_writePressureOnly_of_ne value (by omega) (by omega)]

/-- What becomes of the entry of pad `p` when the bytes below `k` are cleared. -/
def clearedTo (k p : Nat) (e : Nat × Nat) : Nat × Nat :=
  if 2 + p * 2 < k then (0, 0) else if 1 + p * 2 < k then (2 * (e.1 / 2), 0) else e

theorem entry_fill_byte {h : Hid} {k p : Nat} {e : Nat × Nat} (he : h.entry p = clearedTo k p e) :
    (h.fill k 1 0).entry p = clearedTo (k + 1) p e := by
  have hfirst := (h.buffer (1 + p * 2)).toNat_lt
  have hbyte (j : Nat) : (h.fill k 1 0).buffer j = if j = k then 0 else h.buffer j := by
    rw [Hid.buffer_fill]
    exact if_congr (by omega) rfl rfl
  rw [Hid.entry, decodePad_eq, clearedTo] at he
  rw [Hid.entry, decodePad_eq, hbyte, hbyte, clearedTo]
  rcases lt_trichotomy k (1 + p * 2) with hk | rfl | hk
  · rw [if_neg (by omega), if_neg (by omega)] at he
    rw [if_neg (by omega), if_neg (by omega), if_neg (by omega), if_neg (by omega)]
    exact he
  · -- the first byte holds the velocity and the last bit of the pressure
    rw [if_neg (by omega), if_neg (by omega)] at he
    rw [if_pos rfl, if_neg (by omega), if_neg (by omega), if_pos (by omega), ← he]
    refine Prod.ext ?_ rfl
    show 0 / 128 + _ = 2 * ((_ + _) / 2)
    omega
  · rw [if_neg (by omega)]
    rcases Nat.lt_or_eq_of_le (Nat.succ_le_of_lt hk) with hk | hk
    · rw [if_pos (by omega)] at he
      rw [if_neg (by omega), if_pos (by omega)]
      exact he
    · obtain rfl : k = 2 + p * 2 := by omega
      rw [if_neg (by omega), if_pos (by omega), Prod.mk.injEq] at he
      rw [if_pos rfl, if_pos (by omega)]
      refine Prod.ext ?_ he.2
      show _ + 2 * 0 = 0
      omega

/-- `GenericHID_Clear` leaves out byte 96, which belongs to pad 47. -/
theorem clearedTo_end {p : Nat} (hp : p < 47) (e : Nat × Nat) : clearedTo 96 p e = (0, 0) :=
  if_pos (by omega)

theorem clearedTo_start (p : Nat) (e : Nat × Nat) : clearedTo 1 p e = e := by
  rw [clearedTo, if_neg (by omega), if_neg (by omega)]

/-! ## Sensors -/

variable {v : ScanView}

theorem muxSelect_keeps (channel : Nat) : (muxSelect channel).Keeps (SameOn scanView) :=
  Keeps.act fun _ => rfl

theorem standbyAct_keeps (f : Standby → Standby) : (standbyAct f).Keeps (SameOn scanView) :=
  Keeps.act fun _ => rfl

/-- A step of main on its own variables. -/
theorem spec_padsAct_bind {α : Type} {f : Pads → Pads} {q : Unit → Code α}
    {Q : α → ScanView → Prop} (h : Spec avr scanView { v with pads := f v.pads } (q ()) Q) :
    Spec avr scanView v ((padsAct f).bind q) Q :=
  Spec.act_bind _ (by rintro t rfl; rfl) h

theorem spec_padsAct {f : Pads → Pads} {Q : Unit → ScanView → Prop}
    (h : Q () { v with pads := f v.pads }) : Spec avr scanView v (padsAct f) Q :=
  Spec.act _ (by rintro t rfl; rfl) h

theorem spec_critical {α : Type} {r : Region} {body : Code α} {Q : α → ScanView → Prop}
    (h : Spec avr scanView v body Q) : Spec avr scanView v (critical r body) Q :=
  spec_critical_of (fun _ _ _ => rfl) h

theorem spec_critical_bind {α β : Type} {r : Region} {body : Code α} {q : α → Code β}
    {R : β → ScanView → Prop}
    (h : Spec avr scanView v body fun a w => Spec avr scanView w (q a) R) :
    Spec avr scanView v ((critical r body).bind q) R :=
  Spec.bind (spec_critical h) fun _ _ h => h

/-- `v` with another `being_played` that is the same for the pads. -/
def ElitePlayed (v w : ScanView) : Prop :=
  ∃ played : Nat → Bool, w = { v with pads := { v.pads with beingPlayed := played } } ∧
    ∀ p < numPads, played p = v.pads.beingPlayed p

theorem ElitePlayed.refl (v : ScanView) : ElitePlayed v v :=
  ⟨v.pads.beingPlayed, rfl, fun _ _ => rfl⟩

theorem ElitePlayed.trans {u w : ScanView} (h₁ : ElitePlayed u v) (h₂ : ElitePlayed v w) :
    ElitePlayed u w := by
  obtain ⟨a, rfl, ha⟩ := h₁
  obtain ⟨b, rfl, hb⟩ := h₂
  exact ⟨b, rfl, fun p hp => (hb p hp).trans (ha p hp)⟩

theorem storePlayed_of_lt (a : Nat → Bool) {slot : Option Nat} (b : Bool)
    (hslot : ∀ n ∈ slot, numPads ≤ n) {p : Nat} (hp : p < numPads) :
    storePlayed a slot b p = a p := by
  cases slot with
  | none => rfl
  | some n =>
    exact Function.update_of_ne (Nat.ne_of_lt (Nat.lt_of_lt_of_le hp (hslot n rfl))) _ _

/-- What an elite input may change: its own byte of the report and its own `being_played`. -/
structure EliteFrame (v w : EliteView) : Prop where
  buffer : ∀ j < 97, w.hid.buffer j = v.hid.buffer j
  played : ∀ p < numPads, w.beingPlayed p = v.beingPlayed p

theorem buttonRead_frame (v : EliteView) (kept bit : UInt8) {slot : Option Nat} (pinD : UInt8)
    (hslot : ∀ n ∈ slot, numPads ≤ n) : EliteFrame v (buttonRead v kept bit slot pinD) where
  buffer j hj := v.hid.buffer_writeButtonData _ (by omega)
  played p hp := storePlayed_of_lt _ _ hslot hp

theorem encoderRead_frame (v : EliteView) (number : Nat) {slot : Option Nat} (pinD : UInt8)
    (hslot : ∀ n ∈ slot, numPads ≤ n) : EliteFrame v (encoderRead v number slot pinD) := by
  unfold encoderRead
  simp only
  split
  · split
    · exact ⟨fun j hj => v.hid.buffer_adjustDial _ _ (by omega),
        fun p hp => storePlayed_of_lt _ _ hslot hp⟩
    · split
      · exact ⟨fun j hj => v.hid.buffer_adjustDial _ _ (by omega),
          fun p hp => storePlayed_of_lt _ _ hslot hp⟩
      · exact ⟨fun _ _ => rfl, fun p hp => storePlayed_of_lt _ _ hslot hp⟩
  · exact ⟨fun _ _ => rfl, fun _ _ => rfl⟩

theorem eliteInput_frame (v : EliteView) (eliteMuxNum : Nat) {slot : Option Nat} (pinD : UInt8)
    (hslot : ∀ n ∈ slot, numPads ≤ n) : EliteFrame v (eliteInput v eliteMuxNum slot pinD) := by
  unfold eliteInput
  split
  · exact buttonRead_frame v _ _ pinD hslot
  · exact buttonRead_frame v _ _ pinD hslot
  · exact buttonRead_frame v _ _ pinD hslot
  · exact ⟨fun j hj => v.hid.buffer_writeButtonData _ (by omega), fun _ _ => rfl⟩
  · exact encoderRead_frame v 0 pinD hslot
  · exact encoderRead_frame v 1 pinD hslot
  · exact ⟨fun _ _ => rfl, fun _ _ => rfl⟩

theorem buttonsAndDialsRead_frame (v : EliteView) (pad : Nat) {base : Option Nat} (pinD : UInt8)
    (hbase : ∀ n ∈ base, numPads ≤ n) : EliteFrame v (buttonsAndDialsRead v pad base pinD) := by
  have hslot : ∀ n ∈ base.map (· + pad % 8), numPads ≤ n := by
    intro n hn
    obtain ⟨m, hm, rfl⟩ := Option.mem_map.mp hn
    exact Nat.le_add_right_of_le (hbase m hm)
  have hframe := eliteInput_frame v (pad % 8) pinD hslot
  unfold buttonsAndDialsRead
  simp only
  split
  · refine ⟨hframe.buffer, fun p hp => ?_⟩
    exact (storePlayed_of_lt _ _ hslot hp).trans (hframe.played p hp)
  · exact hframe

theorem buttonsAndDials_spec (pad : Nat) {base : Option Nat} (hbase : ∀ n ∈ base, numPads ≤ n) :
    Spec avr scanView v (buttonsAndDials pad base) fun _ w => ElitePlayed v w := by
  refine Spec.atomic fun i t ht => ?_
  have hframe := buttonsAndDialsRead_frame ⟨t.elite, t.hid, t.pads.beingPlayed⟩ pad i.pinD hbase
  refine ⟨_, ?_, fun p hp => (hframe.played p hp).trans (by rw [← ht]; rfl)⟩
  rw [← ht]
  simp only [scanView, Hid.entries_congr hframe.buffer]

theorem eliteScan_spec (pad : Nat) :
    Spec avr scanView v (eliteScan pad) fun _ w => ElitePlayed v w := by
  refine spec_critical (Spec.forEach (fun i _ w hw => ?_) (ElitePlayed.refl v))
  refine Spec.keeps_bind (muxSelect_keeps _) fun _ => ?_
  refine Spec.mono (buttonsAndDials_spec i fun n hn => ?_) fun _ u hu => hw.trans hu
  exact (Option.mem_some_iff.mp hn).le

/-! ## Calibration -/

theorem r2rWrite_bind {α : Type} {val : Nat} {q : Unit → Code α} {Q : α → ScanView → Prop}
    (h : Spec avr scanView { v with dac := val } (q ()) Q) :
    Spec avr scanView v ((r2rWrite val).bind q) Q :=
  Spec.act_bind _ (by rintro t rfl; rfl) h

theorem findBias_spec (pad : Nat) (l : List Nat) :
    Spec avr scanView v (findBias pad l) fun _ w => ∃ r dac,
      w = { v with pads := { v.pads with r2rVal := Function.update v.pads.r2rVal pad r }
                   dac := dac } := by
  induction l generalizing v with
  | nil =>
    refine Spec.ret ⟨v.pads.r2rVal pad, v.dac, ?_⟩
    rw [Function.update_eq_self]
  | cons i rest ih =>
    refine r2rWrite_bind ?_
    refine Spec.keeps_bind (delay_keeps (fun _ _ => rfl) pad) fun _ => ?_
    refine Spec.keeps_bind (adcRead_keeps (fun _ _ => rfl) _ _) fun a => ?_
    refine Spec.ite (fun _ => ?_) fun _ => Spec.mono ih ?_
    · exact spec_padsAct_bind (Spec.keeps (standbyAct_keeps _) fun _ => ⟨i, i, rfl⟩)
    · rintro - w ⟨r, dac, rfl⟩
      exact ⟨r, dac, rfl⟩

/-- What `Calibrate` has done once it has come to `pad`. -/
theorem calibrateVelocityPad_spec (pad : Nat) :
    Spec avr scanView v (calibrateVelocityPad pad) fun _ w => ∃ r dac,
      w = { v with
        pads := { v.pads with
          r2rVal := Function.update v.pads.r2rVal pad r
          filteredVal := Function.update v.pads.filteredVal pad 0
          padOrder := Function.update v.pads.padOrder pad pad }
        dac := dac } := by
  unfold calibrateVelocityPad
  refine spec_padsAct_bind ?_
  refine Spec.keeps_bind (muxSelect_keeps pad) fun _ => ?_
  refine Spec.keeps_bind (delay_keeps (fun _ _ => rfl) pad) fun _ => ?_
  refine spec_padsAct_bind ?_
  refine Spec.bind (findBias_spec pad _) ?_
  intro _ w hw
  refine spec_padsAct ?_
  obtain ⟨r, dac, rfl⟩ := hw
  exact ⟨r, dac, by simp only [Function.update_idem]⟩

theorem calibratePressurePad_spec (pad : Nat) :
    Spec avr scanView v (calibratePressurePad pad) fun _ w => ∃ a,
      w = { v with pads := { v.pads with
        initValSe := Function.update v.pads.initValSe pad a
        padOrder := Function.update v.pads.padOrder pad pad } } := by
  refine Spec.keeps_bind (muxSelect_keeps _) fun _ => ?_
  refine Spec.keeps_bind (delay_keeps (fun _ _ => rfl) pad) fun _ => ?_
  refine Spec.keeps_bind (adcRead_keeps (fun _ _ => rfl) _ _) fun a => ?_
  exact spec_padsAct_bind (spec_padsAct ⟨_, rfl⟩)

/-- The pads after `Calibrate`, given the codes it found for them. -/
structure Calibrated (codes : Nat → Nat) (w : ScanView) : Prop where
  sorted : ∃ order : Nat → Nat, (∀ i < numPads, order i = i) ∧
    ⟨w.pads.r2rVal, w.pads.padOrder⟩ = (ScanOrder.mk codes order).bubbleSort 40
  played : ∀ p < numPads, w.pads.beingPlayed p = false
  sent : ∀ p < numPads, w.pads.velocitySent p = false
  sticky : ∀ p < numPads, w.pads.antiStickyApplied p = false
  filtered : ∀ p < numPads, w.pads.filteredVal p = 0
  entries : ∀ p < 47, w.entries p = (0, 0)

/-- Both loops of `Calibrate` put the pads in their natural order. -/
theorem inOrder_update {order : Nat → Nat} {pad : Nat} :
    Function.update order pad pad pad = pad ∧
      ∀ c, order c = c → Function.update order pad pad c = c := by
  refine ⟨Function.update_self _ _ _, fun c hc => ?_⟩
  by_cases h : c = pad
  · rw [h, Function.update_self]
  · rw [Function.update_of_ne h, hc]

theorem genericHIDClear_spec : Spec avr scanView v genericHIDClear fun _ w =>
    w = { v with entries := fun p => clearedTo 96 p (v.entries p) } := by
  refine Spec.forEach_range' (fun k w =>
    w = { v with entries := fun p => clearedTo k p (v.entries p) }) (fun k h₁ hk w hw => ?_) ?_
  · refine Spec.act _ (fun s hs => ?_) rfl
    rw [hw] at hs
    have hentries (p : Nat) : s.hid.entries p = clearedTo k p (v.entries p) :=
      congrArg (fun w => w.entries p) hs
    have hfill (p : Nat) : (s.hid.fill k 1 0).entries p = clearedTo (k + 1) p (v.entries p) := by
      have he := hentries p
      rw [Hid.entries] at he ⊢
      split
      · next hp =>
        rw [if_pos hp] at he
        exact entry_fill_byte he
      · next hp =>
        have hp : 48 ≤ p := Nat.le_of_not_lt hp
        rw [if_neg (by omega), clearedTo, if_neg (by omega), if_neg (by omega)] at he
        rw [clearedTo, if_neg (by omega), if_neg (by omega)]
        exact he
    have hpads : s.pads = v.pads := congrArg ScanView.pads hs
    have hdac : s.ports.dac = v.dac := congrArg ScanView.dac hs
    simp only [scanView, hpads, hdac, funext hfill]
  · simp only [clearedTo_start]

theorem calibrateReset_spec (codes : Nat → Nat)
    (hsorted : ∃ order : Nat → Nat, (∀ i < numPads, order i = i) ∧
      ⟨v.pads.r2rVal, v.pads.padOrder⟩ = (ScanOrder.mk codes order).bubbleSort 40) :
    Spec avr scanView v calibrateReset fun _ w => Calibrated codes w := by
  refine Spec.bind genericHIDClear_spec ?_
  rintro _ w rfl
  refine spec_padsAct_bind (spec_padsAct_bind (spec_padsAct_bind ?_))
  refine spec_padsAct_bind (spec_padsAct ?_)
  refine ⟨hsorted, ?_, ?_, ?_, ?_, fun p hp => clearedTo_end hp _⟩
  · intro p hp
    have hlt : p < numPlayed := Nat.lt_of_lt_of_le hp (by decide)
    exact if_pos hlt
  · exact fun p hp => if_pos hp
  · exact fun p hp => if_pos hp
  · exact fun p hp => if_pos hp

theorem calibrate_spec : Spec avr scanView v calibrate fun codes w => Calibrated codes w := by
  have hbody₁ (pad : Nat) (w : ScanView) : Spec avr scanView w (calibrateVelocityPad pad)
      fun _ u => u.pads.padOrder pad = pad ∧
        ∀ c, w.pads.padOrder c = c → u.pads.padOrder c = c := by
    refine Spec.mono (calibrateVelocityPad_spec pad) ?_
    rintro - u ⟨r, dac, rfl⟩
    exact inOrder_update
  have hbody₂ (pad : Nat) (w : ScanView) : Spec avr scanView w (calibratePressurePad pad)
      fun _ u => u.pads.padOrder pad = pad ∧
        ∀ c, w.pads.padOrder c = c → u.pads.padOrder c = c := by
    refine Spec.mono (calibratePressurePad_spec pad) ?_
    rintro - u ⟨a, rfl⟩
    exact inOrder_update
  refine Spec.bind (Spec.forEach_each (fun pad w => w.pads.padOrder pad = pad)
    fun pad _ => hbody₁ pad) fun _ w hw => ?_
  refine Spec.bind (Spec.forEach_each (fun pad w => w.pads.padOrder pad = pad)
    fun pad _ => hbody₂ pad) fun _ u hu => ?_
  have horder : ∀ i < numPads, u.pads.padOrder i = i := by
    intro i hi
    have hi' : i < 48 := hi
    refine hu i ?_
    by_cases h40 : i < 40
    · exact Or.inr (hw i (Or.inl (List.mem_range.mpr h40)))
    · have hmem : i ∈ List.range' 40 8 := List.mem_range'_1.mpr (by omega)
      exact Or.inl hmem
  refine Spec.read_bind u.pads.r2rVal (by rintro t rfl; rfl) (spec_padsAct_bind ?_)
  refine Spec.bind (calibrateReset_spec u.pads.r2rVal
    ⟨u.pads.padOrder, horder, u.pads.scanOrder_bubbleSort 40⟩) fun _ w hw => ?_
  exact Spec.ret hw

end SphereWare
