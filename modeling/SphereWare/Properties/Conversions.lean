import SphereWare.Bits.Register
import SphereWare.Calls.History
import SphereWare.Firmware.Scan

/-!
# Conversions

`ADC_Set` remembers the mode and the channel of the last call and writes only what differs from
them. The registers always select the input that was asked for. What `ADC_Read` makes of a negative
difference is one more than the converter has measured.
-/

namespace SphereWare

open Bits Interrupt Prog

/-! ## Calls -/

/-- A call of `ADC_Read` with one of the named modes, and the ten bits its conversion gives. -/
structure AdcCall where
  mode : AdcMode
  chan : AdcChannel
  raw : BitVec 10
  mode_ne : mode ≠ .previousMode

namespace AdcCall

/-- What the call returns, and the state it leaves. -/
def exec (c : AdcCall) (s : Firmware) : Int × Firmware :=
  (adcRead c.mode c.chan).exec (fun _ => { Input.quiet with adc := c.raw }) s

/-- The state after the calls. -/
def run (s : Firmware) (calls : List AdcCall) : Firmware := calls.foldl (fun s c => (c.exec s).2) s

/-- The voltage the ten bits stand for. -/
def measured (c : AdcCall) : Int := if c.mode = .singleEnded then c.raw.toNat else c.raw.toInt

/-- The ten bits are no negative difference. -/
def NonNegative (c : AdcCall) : Prop := c.mode = .singleEnded ∨ c.raw.toNat < 512

instance (c : AdcCall) : Decidable c.NonNegative := inferInstanceAs (Decidable (_ ∨ _))

end AdcCall

/-- The registers `b` select the input, under the reference of `a`. -/
structure InputSelected (a b : Adc) (mode : AdcMode) (chan : AdcChannel) : Prop where
  admux : b.admux &&& 31 = (mode.code ||| chan.code) &&& 31
  adcsrb : b.adcsrb &&& 0x20 = mode.code &&& 0x20
  reference : b.admux &&& 0xC0 = a.admux &&& 0xC0

/-- A call converts the input it was given and returns what has been measured. -/
structure Converts (s : Firmware) (c : AdcCall) : Prop where
  selected : InputSelected s.adc (c.exec s).2.adc c.mode c.chan
  result : (c.exec s).1 = c.measured

/-! ## What `ADC_Set` remembers -/

/-- The registers hold the mode and the channel that are remembered. -/
structure Remembered (a : Adc) : Prop where
  admux : a.admux &&& 31 = (a.prevMode ||| a.prevChan) &&& 31
  adcsrb : a.adcsrb &&& 0x20 = a.prevMode &&& 0x20
  mode : a.prevMode &&& 3 = 0
  chan : a.prevChan &&& 3 = a.prevChan

section

variable {a : Adc} {mode chan : UInt8}

theorem Adc.setCode_of_ne (hne : mode ≠ a.prevMode) : a.setCode mode chan =
    { admux := setField 31 a.admux (mode ||| chan), adcsrb := setField 0x20 a.adcsrb mode,
      prevChan := chan, prevMode := mode } :=
  if_pos hne

theorem Adc.setCode_of_chan_ne (heq : mode = a.prevMode) (hne : chan ≠ a.prevChan) :
    a.setCode mode chan = { a with admux := setField 3 a.admux chan, prevChan := chan } :=
  (if_neg fun h => h heq).trans (if_pos hne)

theorem Adc.setCode_of_eq (hmode : mode = a.prevMode) (hchan : chan = a.prevChan) :
    a.setCode mode chan = a :=
  (if_neg fun h => h hmode).trans (if_neg fun h => h hchan)

/-- The registers after both have been written. -/
theorem remembered_of_ne (hne : mode ≠ a.prevMode) (hmode : mode &&& 3 = 0)
    (hchan : chan &&& 3 = chan) : Remembered (a.setCode mode chan) := by
  rw [Adc.setCode_of_ne hne]
  exact ⟨setField_and_self 31 _ _, setField_and_self 0x20 _ _, hmode, hchan⟩

/-- The channel fits below the mode. -/
theorem setField_chan {prev : UInt8} (hmode : mode &&& 3 = 0) (hchan : chan &&& 3 = chan)
    (hprev : prev &&& 3 = prev) :
    setField 3 ((mode ||| prev) &&& 31) chan = (mode ||| chan) &&& 31 := by
  have hthree : ∀ n < 8, bit 3 n = decide (n < 2) := by decide
  have hfive : ∀ n < 8, bit 31 n = decide (n < 5) := by decide
  refine eq_of_bit fun n hn => ?_
  have hmode' : (bit mode n && decide (n < 2)) = false := by
    rw [← hthree n hn, ← bit_and, hmode]
    exact BitVec.getLsbD_zero
  have hchan' : (bit chan n && decide (n < 2)) = bit chan n := by
    rw [← hthree n hn, ← bit_and, hchan]
  have hprev' : (bit prev n && decide (n < 2)) = bit prev n := by
    rw [← hthree n hn, ← bit_and, hprev]
  rw [bit_setField 3 _ _ hn, bit_and, bit_or, bit_and, bit_or, hthree n hn, hfive n hn]
  by_cases hlow : n < 2
  · have hmode0 : bit mode n = false := by simpa [hlow] using hmode'
    have hlow' : n < 5 := by omega
    simp [hlow, hlow', hmode0]
  · have hchan0 : bit chan n = false := by simpa [hlow] using hchan'.symm
    have hprev0 : bit prev n = false := by simpa [hlow] using hprev'.symm
    simp [hlow, hchan0, hprev0]

/-- Whatever is written, the registers hold what is remembered. -/
theorem Remembered.setCode (h : Remembered a) (hmode : mode &&& 3 = 0) (hchan : chan &&& 3 = chan) :
    Remembered (a.setCode mode chan) := by
  by_cases hne : mode = a.prevMode
  · by_cases hne' : chan = a.prevChan
    · rw [Adc.setCode_of_eq hne hne']
      exact h
    · rw [Adc.setCode_of_chan_ne hne hne']
      refine ⟨?_, h.adcsrb, h.mode, hchan⟩
      rw [setField_and_of_subset rfl, h.admux]
      rw [← hne]
      exact setField_chan hmode hchan h.chan
  · exact remembered_of_ne hne hmode hchan

theorem Adc.setCode_prev (a : Adc) (mode chan : UInt8) :
    (a.setCode mode chan).prevMode = mode ∧ (a.setCode mode chan).prevChan = chan := by
  by_cases hne : mode = a.prevMode
  · by_cases hne' : chan = a.prevChan
    · rw [Adc.setCode_of_eq hne hne']
      exact ⟨hne.symm, hne'.symm⟩
    · rw [Adc.setCode_of_chan_ne hne hne']
      exact ⟨hne.symm, rfl⟩
  · rw [Adc.setCode_of_ne hne]
    exact ⟨rfl, rfl⟩

theorem Adc.setCode_reference (a : Adc) (mode chan : UInt8) :
    (a.setCode mode chan).admux &&& 0xC0 = a.admux &&& 0xC0 := by
  by_cases hne : mode = a.prevMode
  · by_cases hne' : chan = a.prevChan
    · rw [Adc.setCode_of_eq hne hne']
    · rw [Adc.setCode_of_chan_ne hne hne']
      exact setField_and_of_disjoint rfl _ _
  · rw [Adc.setCode_of_ne hne]
    exact setField_and_of_disjoint rfl _ _

end

theorem Adc.init_remembered (a : Adc) : Remembered a.init :=
  remembered_of_ne (show (0 : UInt8) ≠ 1 by decide) rfl rfl

example : powerOn.adc = Adc.init ⟨0, 0, 0, 0⟩ := rfl

theorem AdcMode.code_and_three {mode : AdcMode} (h : mode ≠ .previousMode) :
    mode.code &&& 3 = 0 := by
  cases mode with
  | previousMode => exact absurd rfl h
  | _ => rfl

theorem AdcChannel.code_and_three (chan : AdcChannel) : chan.code &&& 3 = chan.code := by
  cases chan <;> rfl

theorem Remembered.set {a : Adc} (h : Remembered a) {mode : AdcMode} (hmode : mode ≠ .previousMode)
    (chan : AdcChannel) : Remembered (a.set mode chan) :=
  h.setCode (AdcMode.code_and_three hmode) chan.code_and_three

/-- **`ADC_Set` selects the input**, whatever has been selected before. -/
theorem Remembered.inputSelected {a : Adc} (h : Remembered a) {mode : AdcMode}
    (hmode : mode ≠ .previousMode) (chan : AdcChannel) :
    InputSelected a (a.set mode chan) mode chan := by
  have hset := h.set hmode chan
  obtain ⟨hprev, hprev'⟩ := a.setCode_prev mode.code chan.code
  rw [← Adc.set_eq] at hprev hprev'
  refine ⟨?_, ?_, a.setCode_reference mode.code chan.code⟩
  · rw [hset.admux, hprev, hprev']
  · rw [hset.adcsrb, hprev]

/-! ## What `ADC_Read` returns -/

/-- Of the named modes all but one measure differences. -/
theorem AdcMode.code_and_diff {mode : AdcMode} (h : mode ≠ .previousMode) :
    mode.code &&& 0b110000 = 0 ↔ mode = .singleEnded := by
  cases mode with
  | previousMode => exact absurd rfl h
  | _ => decide

theorem adcResult_of_singleEnded (raw : BitVec 10) : adcResult .singleEnded raw = raw.toNat := by
  unfold adcResult
  revert raw
  decide +kernel

/-- A negative difference comes out one too high. -/
theorem adcResult_of_diff {mode : AdcMode} (h : mode.code &&& 0b110000 ≠ 0) (raw : BitVec 10) :
    adcResult mode raw = if raw.toNat < 512 then raw.toInt else raw.toInt + 1 := by
  simp only [adcResult, h, ne_eq, not_false_eq_true, true_and]
  revert raw
  decide +kernel

theorem adcResult_eq_measured (c : AdcCall) :
    adcResult c.mode c.raw = c.measured ↔ c.NonNegative := by
  unfold AdcCall.measured AdcCall.NonNegative
  by_cases hmode : c.mode = .singleEnded
  · simp [hmode, adcResult_of_singleEnded]
  · rw [adcResult_of_diff fun h => hmode ((AdcMode.code_and_diff c.mode_ne).mp h), if_neg hmode]
    split
    · next hlow => exact ⟨fun _ => Or.inr hlow, fun _ => rfl⟩
    · next hhigh =>
      constructor
      · intro h
        omega
      · rintro (h | h)
        · exact absurd h hmode
        · exact absurd h hhigh

/-! ## Every sequence of calls -/

namespace AdcCall

/-- One call. -/
theorem converts_iff (c : AdcCall) {s : Firmware} (h : Remembered s.adc) :
    Converts s c ↔ c.NonNegative := by
  constructor
  · intro hc
    exact (adcResult_eq_measured c).mp hc.result
  · intro hc
    exact ⟨h.inputSelected c.mode_ne c.chan, (adcResult_eq_measured c).mpr hc⟩

end AdcCall

/-- The state `ADC_Init` leaves. -/
def afterAdcInit (s : Firmware) : Firmware := (adcInit.exec (fun _ => Input.quiet) s).2

/-- Each call of a sequence after `ADC_Init` converts its input. -/
def AllConvert (s : Firmware) (calls : List AdcCall) : Prop :=
  ∀ l c, l ++ [c] <+: calls → Converts (AdcCall.run (afterAdcInit s) l) c

/--
**When `ADC_Read` returns the conversion of the requested input.** In every sequence of calls after
`ADC_Init`: exactly if no call measures a negative difference.
-/
theorem allConvert_iff (s : Firmware) (calls : List AdcCall) :
    AllConvert s calls ↔ ∀ c ∈ calls, c.NonNegative := by
  refine (Calls.each_iff (I := fun t => Remembered t.adc) (Q := fun _ c => c.NonNegative)
    s.adc.init_remembered ?_ ?_ calls).trans (Calls.each_iff_forall_mem calls)
  · intro t c ht
    exact ht.set c.mode_ne c.chan
  · intro t c ht
    exact c.converts_iff ht

/-- The least difference there is. -/
def leastDifference : AdcCall := ⟨.diff1X10, .adc4, 0x200, by decide⟩

/-- It comes out as -511, and it stands for -512. -/
theorem not_allConvert : ¬∀ (s : Firmware) (calls : List AdcCall), AllConvert s calls := by
  intro h
  have hconverts := h powerOn [leastDifference] [] leastDifference (List.prefix_refl _)
  exact absurd hconverts.result (show ¬(-511 : Int) = -512 by decide)

end SphereWare
