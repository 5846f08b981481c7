import Mathlib.Data.List.Induction
import SphereWare.Bits.Register
import SphereWare.Firmware.Scan

/-!
# Channels and pins

The ports B, D and F are shared by the multiplexers, the DAC and the LED. `MUX_Select` clears the
inhibit line it wants by shifting a bit into place. On port F the bit of the second multiplexer ends
up on the data line of the LED.
-/

namespace SphereWare

open Bits

/-! ## Pins -/

/-- A pin of one of the ports B, D and F. -/
inductive Pin where
  | b (n : Fin 8) | d (n : Fin 8) | f (n : Fin 8)
  deriving DecidableEq, Repr

/-- The level a pin is driven to. -/
def Ports.level (p : Ports) : Pin → Bool
  | .b n => bit p.portB n
  | .d n => bit p.portD n
  | .f n => bit p.portF n

namespace Pin

/-- `MUX_A`, `MUX_B` and `MUX_C`. -/
def muxAddress : Fin 3 → Pin
  | 0 => d 2
  | 1 => d 4
  | 2 => d 5

/-- `MUX_INH_1` to `MUX_INH_6`. -/
def muxInhibit : Fin 6 → Pin
  | 0 => f 6
  | 1 => d 7
  | 2 => b 4
  | 3 => b 5
  | 4 => b 6
  | 5 => b 7

/-- The inputs of the DAC, from the lowest bit on. -/
def dacInput : Fin 6 → Pin
  | 0 => f 5
  | 1 => f 0
  | 2 => b 0
  | 3 => b 1
  | 4 => b 2
  | 5 => b 3

/-- `DATPIN`. -/
def ledData : Pin := f 7

/-- The pin is none of the multiplexers'. -/
def Other (pin : Pin) : Prop := (∀ j, pin ≠ muxAddress j) ∧ ∀ k, pin ≠ muxInhibit k

end Pin

/-! ## What a call is to do -/

/-- The pins of the multiplexers select the channel: only its inhibit line is low. -/
structure EncodesChannel (q : Ports) (c : Fin 48) : Prop where
  address : ∀ j : Fin 3, q.level (Pin.muxAddress j) = c.val.testBit j
  inhibit : ∀ k : Fin 6, q.level (Pin.muxInhibit k) = decide (k.val ≠ c.val / 8)

/-- The inputs of the DAC hold the code. -/
def EncodesCode (q : Ports) (val : UInt8) : Prop :=
  ∀ j : Fin 6, q.level (Pin.dacInput j) = bit val j

/-- The channel is selected, and no other pin changes. -/
structure Selected (p q : Ports) (c : Fin 48) : Prop where
  encodes : EncodesChannel q c
  others : ∀ pin : Pin, pin.Other → q.level pin = p.level pin

/-! ## `MUX_Select` -/

variable (p : Ports) (c : Fin 48)

theorem bit_portB_muxSelect {n : Nat} (hn : n < 8) : bit (p.muxSelect c).portB n
    = if n < 4 then bit p.portB n else decide (n - 2 ≠ c.val / 8) := by
  have hset : ∀ n < 8, bit 0xF0 n = decide (4 ≤ n) := by decide
  have hclear : ∀ c : Fin 48, ∀ n < 8,
      bit (~~~(UInt8.ofNat (2 ^ (c.val / 8)) >>> (2 : UInt8) <<< (4 : UInt8))
        &&& ~~~(UInt8.ofNat (2 ^ (c.val / 8)) >>> (3 : UInt8) <<< (5 : UInt8))
        &&& ~~~(UInt8.ofNat (2 ^ (c.val / 8)) >>> (4 : UInt8) <<< (6 : UInt8))
        &&& ~~~(UInt8.ofNat (2 ^ (c.val / 8)) >>> (5 : UInt8) <<< (7 : UInt8))) n
      = decide (n < 4 ∨ n - 2 ≠ c.val / 8) := by decide +kernel
  show bit ((p.portB ||| 0xF0) &&& _) n = _
  rw [bit_and, bit_or, hset n hn, hclear c n hn]
  by_cases hlow : n < 4
  · simp [hlow, Nat.not_le.mpr hlow]
  · simp [hlow, Nat.not_lt.mp hlow]

theorem bit_portD_muxSelect {n : Nat} (hn : n < 8) : bit (p.muxSelect c).portD n
    = if n = 2 then c.val.testBit 0
      else if n = 4 then c.val.testBit 1
      else if n = 5 then c.val.testBit 2
      else if n = 7 then decide (1 ≠ c.val / 8)
      else bit p.portD n := by
  have hkeep : ∀ n < 8, bit 0xCB n = decide (n ≠ 2 ∧ n ≠ 4 ∧ n ≠ 5) := by decide
  have hset : ∀ n < 8, bit 0x80 n = decide (n = 7) := by decide
  have haddress : ∀ c : Fin 48, ∀ n < 8,
      bit (((UInt8.ofNat c.val &&& 1) <<< (2 : UInt8))
        ||| (((UInt8.ofNat c.val >>> (1 : UInt8)) &&& 1) <<< (4 : UInt8))
        ||| (((UInt8.ofNat c.val >>> (2 : UInt8)) &&& 1) <<< (5 : UInt8))) n
      = if n = 2 then c.val.testBit 0
        else if n = 4 then c.val.testBit 1
        else if n = 5 then c.val.testBit 2
        else false := by decide +kernel
  have hclear : ∀ c : Fin 48, ∀ n < 8,
      bit (~~~(UInt8.ofNat (2 ^ (c.val / 8)) >>> (1 : UInt8) <<< (7 : UInt8))) n
      = decide (n = 7 → 1 ≠ c.val / 8) := by decide +kernel
  show bit ((((p.portD &&& 0xCB) ||| _) ||| 0x80) &&& _) n = _
  rw [bit_and, bit_or, bit_or, bit_and, hkeep n hn, hset n hn, haddress c n hn, hclear c n hn]
  by_cases h₂ : n = 2
  · simp [h₂]
  by_cases h₄ : n = 4
  · simp [h₄]
  by_cases h₅ : n = 5
  · simp [h₅]
  by_cases h₇ : n = 7
  · simp [h₇]
  · simp [h₂, h₄, h₅, h₇]

/-- The bit of the second multiplexer, shifted by 6, clears the data line of the LED. -/
theorem bit_portF_muxSelect {n : Nat} (hn : n < 8) : bit (p.muxSelect c).portF n
    = if n = 6 then decide (0 ≠ c.val / 8)
      else if n = 7 then bit p.portF n && decide (1 ≠ c.val / 8)
      else bit p.portF n := by
  have hset : ∀ n < 8, bit 0x40 n = decide (n = 6) := by decide
  have hclear : ∀ c : Fin 48, ∀ n < 8,
      bit (~~~(UInt8.ofNat (2 ^ (c.val / 8)) <<< (6 : UInt8))) n
      = decide (n ≠ c.val / 8 + 6) := by decide +kernel
  show bit ((p.portF ||| 0x40) &&& _) n = _
  rw [bit_and, bit_or, hset n hn, hclear c n hn]
  by_cases h₆ : n = 6
  · simp [h₆, eq_comm]
  by_cases h₇ : n = 7
  · have hspill : 7 = c.val / 8 + 6 ↔ 1 = c.val / 8 := by omega
    simp [h₇, hspill]
  · have hbelow : n ≠ c.val / 8 + 6 := by omega
    simp [h₆, h₇, hbelow]

theorem muxSelect_encodes : EncodesChannel (p.muxSelect c) c := by
  constructor
  · intro j
    have hcases : ∀ j : Fin 3, j = 0 ∨ j = 1 ∨ j = 2 := by decide
    rcases hcases j with rfl | rfl | rfl
    · exact bit_portD_muxSelect p c (show 2 < 8 by decide)
    · exact bit_portD_muxSelect p c (show 4 < 8 by decide)
    · exact bit_portD_muxSelect p c (show 5 < 8 by decide)
  · intro k
    have hcases : ∀ k : Fin 6, k = 0 ∨ k = 1 ∨ k = 2 ∨ k = 3 ∨ k = 4 ∨ k = 5 := by decide
    rcases hcases k with rfl | rfl | rfl | rfl | rfl | rfl
    · exact bit_portF_muxSelect p c (show 6 < 8 by decide)
    · exact bit_portD_muxSelect p c (show 7 < 8 by decide)
    · exact bit_portB_muxSelect p c (show 4 < 8 by decide)
    · exact bit_portB_muxSelect p c (show 5 < 8 by decide)
    · exact bit_portB_muxSelect p c (show 6 < 8 by decide)
    · exact bit_portB_muxSelect p c (show 7 < 8 by decide)

/-- Of the other pins only the data line of the LED may change. -/
theorem level_muxSelect {pin : Pin} (hpin : pin.Other) : (p.muxSelect c).level pin
    = if pin = Pin.ledData then p.level pin && decide (1 ≠ c.val / 8) else p.level pin := by
  obtain ⟨haddress, hinhibit⟩ := hpin
  cases pin with
  | b n =>
    have hlow : n.val < 4 := by
      by_contra hhigh
      have hcases : ∀ n : Fin 8, ¬n.val < 4 → n = 4 ∨ n = 5 ∨ n = 6 ∨ n = 7 := by decide
      rcases hcases n hhigh with rfl | rfl | rfl | rfl
      · exact hinhibit 2 rfl
      · exact hinhibit 3 rfl
      · exact hinhibit 4 rfl
      · exact hinhibit 5 rfl
    refine (bit_portB_muxSelect p c n.isLt).trans ?_
    simp [hlow, Pin.ledData, Ports.level]
  | d n =>
    have h₂ : n.val ≠ 2 := fun h => haddress 0 (congrArg Pin.d (Fin.ext h))
    have h₄ : n.val ≠ 4 := fun h => haddress 1 (congrArg Pin.d (Fin.ext h))
    have h₅ : n.val ≠ 5 := fun h => haddress 2 (congrArg Pin.d (Fin.ext h))
    have h₇ : n.val ≠ 7 := fun h => hinhibit 1 (congrArg Pin.d (Fin.ext h))
    refine (bit_portD_muxSelect p c n.isLt).trans ?_
    simp [h₂, h₄, h₅, h₇, Pin.ledData, Ports.level]
  | f n =>
    have h₆ : n.val ≠ 6 := fun h => hinhibit 0 (congrArg Pin.f (Fin.ext h))
    have hseven : Pin.f n = Pin.ledData ↔ n.val = 7 := by
      rw [Pin.ledData, Pin.f.injEq, Fin.ext_iff]
      rfl
    refine (bit_portF_muxSelect p c n.isLt).trans ?_
    simp only [if_neg h₆, hseven, Ports.level]

theorem Pin.other_ledData : Pin.ledData.Other := by
  unfold Pin.Other
  decide

theorem Pin.other_dacInput (j : Fin 6) : (Pin.dacInput j).Other := by
  have hall : ∀ j, (∀ i, Pin.dacInput j ≠ Pin.muxAddress i) ∧
      ∀ k, Pin.dacInput j ≠ Pin.muxInhibit k := by decide
  exact hall j

/-- **When `MUX_Select` does what it is to do.** -/
theorem selected_iff :
    Selected p (p.muxSelect c) c ↔ (1 = c.val / 8 → p.level Pin.ledData = false) := by
  constructor
  · intro h hgroup
    have hsame := h.others Pin.ledData Pin.other_ledData
    rw [level_muxSelect p c Pin.other_ledData, if_pos rfl] at hsame
    simpa [hgroup] using hsame.symm
  · intro h
    refine ⟨muxSelect_encodes p c, fun pin hpin => ?_⟩
    rw [level_muxSelect p c hpin]
    split
    · next heq =>
      rw [heq]
      by_cases hgroup : 1 = c.val / 8
      · simp [h hgroup]
      · simp [hgroup]
    · rfl

/-! ## `R2R_Write` -/

theorem bit_portB_r2rWrite (val : UInt8) {n : Nat} (hn : n < 8) :
    bit (p.r2rWrite val.toNat).portB n = if n < 4 then bit val (n + 2) else bit p.portB n := by
  have hkeep : ∀ n < 8, bit 0xF0 n = decide (4 ≤ n) := by decide
  have hcode : ∀ val : UInt8, ∀ n < 8,
      bit ((val >>> (2 : UInt8)) &&& 0x0F) n = (decide (n < 4) && bit val (n + 2)) := by
    refine forall_byte ?_
    decide +kernel
  show bit ((p.portB &&& 0xF0) ||| ((UInt8.ofNat val.toNat >>> (2 : UInt8)) &&& 0x0F)) n = _
  rw [UInt8.ofNat_toNat, bit_or, bit_and, hkeep n hn, hcode val n hn]
  by_cases hlow : n < 4
  · simp [hlow, Nat.not_le.mpr hlow]
  · simp [hlow, Nat.not_lt.mp hlow]

theorem bit_portF_r2rWrite (val : UInt8) {n : Nat} (hn : n < 8) :
    bit (p.r2rWrite val.toNat).portF n
      = if n = 0 then bit val 1 else if n = 5 then bit val 0 else bit p.portF n := by
  have hkeep : ∀ n < 8, bit 0xDE n = decide (n ≠ 0 ∧ n ≠ 5) := by decide
  have hzero : ∀ val : UInt8, ∀ n < 8,
      bit ((val >>> (1 : UInt8)) &&& 1) n = (decide (n = 0) && bit val 1) := by
    refine forall_byte ?_
    decide +kernel
  have hfive : ∀ val : UInt8, ∀ n < 8,
      bit ((val &&& 1) <<< (5 : UInt8)) n = (decide (n = 5) && bit val 0) := by
    refine forall_byte ?_
    decide +kernel
  show bit ((p.portF &&& 0xDE) ||| ((UInt8.ofNat val.toNat >>> (1 : UInt8)) &&& 1)
    ||| ((UInt8.ofNat val.toNat &&& 1) <<< (5 : UInt8))) n = _
  rw [UInt8.ofNat_toNat, bit_or, bit_or, bit_and, hkeep n hn, hzero val n hn, hfive val n hn]
  by_cases h₀ : n = 0
  · simp [h₀]
  by_cases h₅ : n = 5
  · simp [h₅]
  · simp [h₀, h₅]

theorem r2rWrite_encodes (val : UInt8) : EncodesCode (p.r2rWrite val.toNat) val := by
  intro j
  have hcases : ∀ j : Fin 6, j = 0 ∨ j = 1 ∨ j = 2 ∨ j = 3 ∨ j = 4 ∨ j = 5 := by decide
  rcases hcases j with rfl | rfl | rfl | rfl | rfl | rfl
  · exact bit_portF_r2rWrite p val (show 5 < 8 by decide)
  · exact bit_portF_r2rWrite p val (show 0 < 8 by decide)
  · exact bit_portB_r2rWrite p val (show 0 < 8 by decide)
  · exact bit_portB_r2rWrite p val (show 1 < 8 by decide)
  · exact bit_portB_r2rWrite p val (show 2 < 8 by decide)
  · exact bit_portB_r2rWrite p val (show 3 < 8 by decide)

/-- No pin but the inputs of the DAC changes. -/
theorem level_r2rWrite (val : UInt8) {pin : Pin} (hpin : ∀ j, pin ≠ Pin.dacInput j) :
    (p.r2rWrite val.toNat).level pin = p.level pin := by
  cases pin with
  | b n =>
    have hhigh : ¬n.val < 4 := by
      intro hlow
      have hcases : ∀ n : Fin 8, n.val < 4 → n = 0 ∨ n = 1 ∨ n = 2 ∨ n = 3 := by decide
      rcases hcases n hlow with rfl | rfl | rfl | rfl
      · exact hpin 2 rfl
      · exact hpin 3 rfl
      · exact hpin 4 rfl
      · exact hpin 5 rfl
    exact (bit_portB_r2rWrite p val n.isLt).trans (if_neg hhigh)
  | d n => rfl
  | f n =>
    have h₀ : n.val ≠ 0 := fun h => hpin 1 (congrArg Pin.f (Fin.ext h))
    have h₅ : n.val ≠ 5 := fun h => hpin 0 (congrArg Pin.f (Fin.ext h))
    exact (bit_portF_r2rWrite p val n.isLt).trans ((if_neg h₀).trans (if_neg h₅))

/-! ## Every sequence of calls -/

/-- A call of `MUX_Select` or of `R2R_Write`. -/
inductive PinCall where
  | select (c : Fin 48) | write (val : UInt8)

namespace PinCall

def step (p : Ports) : PinCall → Ports
  | select c => p.muxSelect c
  | write val => p.r2rWrite val.toNat

/-- The ports after the calls. -/
def run (p : Ports) (calls : List PinCall) : Ports := calls.foldl step p

def channel? : PinCall → Option (Fin 48)
  | select c => some c
  | write _ => none

def code? : PinCall → Option UInt8
  | select _ => none
  | write val => some val

end PinCall

open PinCall

/-- What is to hold of the pins over a sequence of calls. -/
structure PinsRight (p : Ports) (calls : List PinCall) : Prop where
  selected : ∀ l c, l ++ [select c] <+: calls → Selected (run p l) (run p (l ++ [select c])) c
  channel : ∀ c ∈ (calls.filterMap channel?).getLast?, EncodesChannel (run p calls) c
  code : ∀ val ∈ (calls.filterMap code?).getLast?, EncodesCode (run p calls) val

theorem run_concat (l : List PinCall) (x : PinCall) : run p (l ++ [x]) = step (run p l) x := by
  rw [run, List.foldl_concat, run]

/-- A write leaves the pins of the multiplexers. -/
theorem EncodesChannel.write {p : Ports} {c : Fin 48} (h : EncodesChannel p c) (val : UInt8) :
    EncodesChannel (p.r2rWrite val.toNat) c := by
  have haddress : ∀ i j, Pin.muxAddress i ≠ Pin.dacInput j := by decide
  have hinhibit : ∀ k j, Pin.muxInhibit k ≠ Pin.dacInput j := by decide
  constructor
  · intro i
    rw [level_r2rWrite p val (haddress i)]
    exact h.address i
  · intro k
    rw [level_r2rWrite p val (hinhibit k)]
    exact h.inhibit k

/-- A select leaves the inputs of the DAC. -/
theorem EncodesCode.select {p : Ports} {val : UInt8} (h : EncodesCode p val) (c : Fin 48) :
    EncodesCode (p.muxSelect c) val := by
  have hne : ∀ j, Pin.dacInput j ≠ Pin.ledData := by decide
  intro j
  rw [level_muxSelect p c (Pin.other_dacInput j), if_neg (hne j)]
  exact h j

/-- **The pins encode the last channel and the last code.** -/
theorem run_encodes (calls : List PinCall) :
    (∀ c ∈ (calls.filterMap channel?).getLast?, EncodesChannel (run p calls) c) ∧
      ∀ val ∈ (calls.filterMap code?).getLast?, EncodesCode (run p calls) val := by
  induction calls using List.reverseRecOn with
  | nil => exact ⟨fun c hc => (nomatch hc), fun val hval => (nomatch hval)⟩
  | append_singleton l x ih =>
    obtain ⟨hchannel, hcode⟩ := ih
    rw [run_concat, List.filterMap_append, List.filterMap_append]
    cases x with
    | select c =>
      constructor
      · intro c' hc'
        obtain rfl : c = c' := by simpa [channel?] using hc'
        exact muxSelect_encodes (run p l) c
      · intro val hval
        exact (hcode val (by simpa [code?] using hval)).select c
    | write val =>
      constructor
      · intro c hc
        exact (hchannel c (by simpa [channel?] using hc)).write val
      · intro val' hval'
        obtain rfl : val = val' := by simpa [code?] using hval'
        exact r2rWrite_encodes (run p l) val

/-- The data line of the LED goes low with the first channel of the second multiplexer. -/
theorem level_ledData_run (calls : List PinCall) : (run p calls).level Pin.ledData = true ↔
    p.level Pin.ledData = true ∧ ∀ c, select c ∈ calls → 1 ≠ c.val / 8 := by
  induction calls using List.reverseRecOn with
  | nil => simp [run]
  | append_singleton l x ih =>
    rw [run_concat]
    cases x with
    | select c =>
      rw [step, level_muxSelect _ c Pin.other_ledData, if_pos rfl, Bool.and_eq_true, ih,
        decide_eq_true_iff, and_assoc]
      simp only [List.mem_append, List.mem_singleton, PinCall.select.injEq]
      constructor
      · rintro ⟨hhigh, hl, hc⟩
        refine ⟨hhigh, fun c' hc' => ?_⟩
        rcases hc' with hc' | rfl
        · exact hl c' hc'
        · exact hc
      · rintro ⟨hhigh, hall⟩
        exact ⟨hhigh, fun c' hc' => hall c' (Or.inl hc'), hall c (Or.inr rfl)⟩
    | write val =>
      have hne : ∀ j, Pin.ledData ≠ Pin.dacInput j := by decide
      rw [step, level_r2rWrite _ val hne, ih]
      simp

/--
**When the calls drive exactly the right pins.** In every sequence of calls: exactly if the data
line of the LED is low at the start, or no channel of the second multiplexer is selected.
-/
theorem pinsRight_iff (p : Ports) (calls : List PinCall) : PinsRight p calls ↔
    p.level Pin.ledData = false ∨ ∀ c, select c ∈ calls → c.val / 8 ≠ 1 := by
  have hselected (l : List PinCall) (c : Fin 48) :
      Selected (run p l) (run p (l ++ [select c])) c
        ↔ (1 = c.val / 8 → (run p l).level Pin.ledData = false) := by
    rw [run_concat]
    exact selected_iff (run p l) c
  constructor
  · intro h
    rw [or_iff_not_imp_left, Bool.not_eq_false]
    intro hhigh
    -- up to any point before the first such channel the line is high
    have hnone (l : List PinCall) (hl : l <+: calls) :
        ∀ c, select c ∈ l → c.val / 8 ≠ 1 := by
      induction l using List.reverseRecOn with
      | nil => exact fun c hc => nomatch hc
      | append_singleton l x ih =>
        have hbefore := ih ((List.prefix_append l [x]).trans hl)
        intro c hc hgroup
        rcases List.mem_append.mp hc with hc | hc
        · exact hbefore c hc hgroup
        · obtain rfl : select c = x := List.mem_singleton.mp hc
          have hlow := (hselected l c).mp (h.selected l c hl) hgroup.symm
          have hline := (level_ledData_run p l).mpr
            ⟨hhigh, fun c' hc' heq => hbefore c' hc' heq.symm⟩
          exact absurd (hline.symm.trans hlow) (by decide)
    exact hnone calls (List.prefix_refl calls)
  · intro h
    obtain ⟨hchannel, hcode⟩ := run_encodes p calls
    refine ⟨fun l c hl => (hselected l c).mpr fun hgroup => ?_, hchannel, hcode⟩
    rcases h with hlow | hnone
    · rw [← Bool.not_eq_true, level_ledData_run, hlow]
      exact fun hhigh => Bool.false_ne_true hhigh.1
    · have hmem : select c ∈ calls :=
        hl.subset (List.mem_append_right l (List.mem_singleton_self _))
      exact absurd hgroup.symm (hnone c hmem)

/-- The ports with the data line of the LED high. -/
def ledDataHigh : Ports := { powerOn.ports with portF := 0xC0 }

/-- Channel 8 clears the data line. -/
theorem not_pinsRight : ¬∀ (p : Ports) (calls : List PinCall), PinsRight p calls := by
  intro h
  have hselected := (h ledDataHigh [select 8]).selected [] 8 (List.prefix_refl _)
  have hlow := (selected_iff ledDataHigh 8).mp hselected rfl
  exact absurd hlow (by decide)

end SphereWare
