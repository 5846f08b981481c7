import SphereWare.Firmware.Scan
import SphereWare.Properties.ColourBudget

/-!
# The static colour

Three control changes on channel 16 set the channels of the static colour one at a time. Each of
them cuts the whole colour down to the budget and stores the result, from which the next one starts:
the colour that was received is gone.
-/

namespace SphereWare

open Budget Interrupt Prog

/-! ## Messages -/

/-- A control change 21, 22 or 23 on channel 16. -/
structure StaticMessage where
  channel : Fin 3
  value : UInt8

def StaticMessage.bytes (m : StaticMessage) : List UInt8 :=
  [191, 21 + UInt8.ofNat m.channel, m.value]

def staticTriple (s : Firmware) (ch : Fin 3) : Nat := s.led.staticColourValues ch

/-- The state after the messages have been processed. -/
def afterStatic (env : Firmware → Input) (s : Firmware) (ms : List StaticMessage) : Firmware :=
  ms.foldl (fun s m => ((midiProcessUsbMidi (.ofList m.bytes)).exec env s).2) s

/-- The last value received for each channel. -/
def lastValue (ms : List StaticMessage) : Fin 3 → Option UInt8 :=
  ms.foldl (fun last m => Function.update last m.channel (some m.value)) fun _ => none

/-- The colour after any messages with these last values is the same. -/
def LastDetermines (env : Firmware → Input) (s : Firmware) (last : Fin 3 → Option UInt8) : Prop :=
  ∀ ms ms', lastValue ms = last → lastValue ms' = last →
    staticTriple (afterStatic env s ms) = staticTriple (afterStatic env s ms')

/-- The static colour is one that calls can leave behind. -/
def StaticStored (s : Firmware) : Prop :=
  ∃ calls, s.led.staticColourValues = (ledAfter calls).staticColourValues

/-- The sum of the channels other than `ch`. -/
def others (c : Fin 3 → Nat) (ch : Fin 3) : Nat := ∑ i ∈ Finset.univ \ {ch}, c i

/-- The only channel that is set cannot be dimmed by what the two others hold. -/
def Undimmed (c : Fin 3 → Nat) (ch : Fin 3) (v : UInt8) : Prop :=
  127 ^ 2 * others c ch ≤ v.toNat * (1023 * v.toNat % 127)

/-- No history can show in the colour: nothing, nothing but black or a single channel is set. -/
def HistoryFree (c : Fin 3 → Nat) (last : Fin 3 → Option UInt8) : Prop :=
  (∀ ch, last ch = none) ∨
  ((∀ ch v, last ch = some v → v = 0) ∧ ∀ ch, last ch = none → c ch = 0) ∨
  ∃ ch v, last ch = some v ∧ (∀ ch' ≠ ch, last ch' = none) ∧ Undimmed c ch v

/-! ## What a message does -/

/-- The three channels before they are cut down. -/
def StaticMessage.scaled (c : Fin 3 → Nat) (m : StaticMessage) : Fin 3 → ℚ :=
  Function.update (fun i => (c i : ℚ)) m.channel (1023 * m.value.toNat / 127)

/-- The colour after a message, by the colour before it. -/
def StaticMessage.next (c : Fin 3 → Nat) (m : StaticMessage) (ch : Fin 3) : Nat :=
  ⌊cut 1023 (m.scaled c) ch⌋₊

theorem staticColourValues_midiClock (b : UInt8) (s : Firmware) :
    (midiClock b s).led.staticColourValues = s.led.staticColourValues := by
  unfold midiClock
  repeat' split
  all_goals rfl

theorem setStaticColour_congr {l l' : Led} (h : l.staticColourValues = l'.staticColourValues)
    (colour v : UInt8) : (l.setStaticColour colour v).staticColourValues
      = (l'.setStaticColour colour v).staticColourValues := by
  simp only [Led.setStaticColour, h]

theorem midiLedControl_static (l : Led) (ch : Fin 3) (v : UInt8) :
    midiLedControl l 191 (21 + UInt8.ofNat ch) v = l.setStaticColour (UInt8.ofNat ch) v := by
  fin_cases ch <;> rfl

theorem midiProcessUsbMidi_led (env : Firmware → Input) (s : Firmware) (message : RxBuffer) :
    ∃ t : Firmware, t.led = s.led ∧ ((midiProcessUsbMidi message).exec env s).2.led
      = midiLedControl (midiClock (message.get 0) t).led (message.get 0) (message.get 1)
        (message.get 2) := by
  simp only [midiProcessUsbMidi, readData, ledAct, bind_eq, exec_bind, exec_atomic, exec_act]
  refine ⟨_, ?_, rfl⟩
  rfl

/-- **A message sets its channel and cuts the colour down to the budget.** -/
theorem staticTriple_step (env : Firmware → Input) (s : Firmware) (m : StaticMessage) :
    staticTriple ((midiProcessUsbMidi (.ofList m.bytes)).exec env s).2
      = m.next (staticTriple s) := by
  obtain ⟨ch, v⟩ := m
  obtain ⟨t, ht, hled⟩ := midiProcessUsbMidi_led env s (.ofList (StaticMessage.bytes ⟨ch, v⟩))
  have hexec : ((midiProcessUsbMidi (.ofList (StaticMessage.bytes ⟨ch, v⟩))).exec env
      s).2.led.staticColourValues
      = (s.led.setStaticColour (UInt8.ofNat ch) v).staticColourValues := by
    rw [hled, ← ht, ← setStaticColour_congr (staticColourValues_midiClock 191 t),
      ← midiLedControl_static]
    rfl
  have hchannel : ColourCall.channel (UInt8.ofNat ch) = ch := by
    fin_cases ch <;> rfl
  funext i
  have hstored := (ColourCall.static (UInt8.ofNat ch) v).stored_eq s.led i
  simp only [ColourCall.scaled, hchannel] at hstored
  exact (congrFun hexec i).trans hstored

/-- The colour after several messages. -/
def colourAfter (c : Fin 3 → Nat) (ms : List StaticMessage) : Fin 3 → Nat :=
  ms.foldl (fun c m => m.next c) c

theorem staticTriple_afterStatic (env : Firmware → Input) (s : Firmware)
    (ms : List StaticMessage) :
    staticTriple (afterStatic env s ms) = colourAfter (staticTriple s) ms := by
  induction ms generalizing s with
  | nil => rfl
  | cons m ms ih =>
    refine (ih _).trans ?_
    rw [staticTriple_step]
    rfl

namespace StaticMessage

variable {c c' : Fin 3 → Nat} {m : StaticMessage} {ch : Fin 3}

theorem scaled_self : m.scaled c m.channel = 1023 * m.value.toNat / 127 := Function.update_self _ _ _

theorem scaled_of_ne (h : ch ≠ m.channel) : m.scaled c ch = c ch := Function.update_of_ne h _ _

theorem scaled_nonneg (ch : Fin 3) : 0 ≤ m.scaled c ch := by
  by_cases h : ch = m.channel
  · rw [h, scaled_self]
    positivity
  · rw [scaled_of_ne h]
    positivity

theorem sum_scaled : ∑ i, m.scaled c i = 1023 * m.value.toNat / 127 + others c m.channel := by
  unfold scaled others
  rw [Finset.sum_update_of_mem (Finset.mem_univ _), Nat.cast_sum]

/-- What the channel held before does not matter. -/
theorem next_congr (h : ∀ i ≠ m.channel, c i = c' i) : m.next c = m.next c' := by
  have hscaled : m.scaled c = m.scaled c' := by
    funext i
    by_cases hi : i = m.channel
    · rw [hi, scaled_self, scaled_self]
    · rw [scaled_of_ne hi, scaled_of_ne hi, h i hi]
  funext i
  rw [next, next, hscaled]

theorem next_eq_zero (h : ch ≠ m.channel) (hzero : c ch = 0) : m.next c ch = 0 := by
  have hcut : cut 1023 (m.scaled c) ch = 0 := cut_eq_zero (by rw [scaled_of_ne h, hzero]; rfl)
  rw [next, hcut, Nat.floor_zero]

theorem next_self_eq_zero (h : m.value = 0) : m.next c m.channel = 0 := by
  have hcut : cut 1023 (m.scaled c) m.channel = 0 := cut_eq_zero (by rw [scaled_self, h]; simp)
  rw [next, hcut, Nat.floor_zero]

theorem next_le (h : ch ≠ m.channel) : m.next c ch ≤ c ch := by
  have hcut : cut 1023 (m.scaled c) ch ≤ c ch := by
    rw [← scaled_of_ne h]
    exact cut_le (scaled_nonneg ch)
  exact Nat.floor_le_of_le hcut

/-- Full brightness on one channel dims the others. -/
theorem next_lt (hv : m.value = 127) (h : ch ≠ m.channel) (hpos : 0 < c ch) :
    m.next c ch < c ch := by
  have hone : 1 ≤ others c m.channel := by
    refine le_trans hpos (Finset.single_le_sum (fun i _ => Nat.zero_le (c i)) ?_)
    simp [h]
  have hsum : ((1023 : Nat) : ℚ) + 1 ≤ ∑ i, m.scaled c i := by
    have hcast : (1 : ℚ) ≤ others c m.channel := by exact_mod_cast hone
    have hfull : (1023 * ((127 : UInt8).toNat : ℚ) / 127) = 1023 := by
      show (1023 * ((127 : Nat) : ℚ) / 127) = 1023
      norm_num
    rw [sum_scaled, hv, hfull]
    exact_mod_cast add_le_add_right hcast 1023
  exact floor_cut_lt hsum (scaled_of_ne h) hpos

/-- Within the budget nothing is cut. -/
theorem next_of_le (h : ∑ i, m.scaled c i ≤ 1023) (hch : ch ≠ m.channel) : m.next c ch = c ch := by
  have hle : ∑ i, m.scaled c i ≤ ((1023 : Nat) : ℚ) := h
  rw [next, cut_of_le hle, scaled_of_ne hch, Nat.floor_natCast]

theorem sum_next_le (c : Fin 3 → Nat) (m : StaticMessage) : ∑ i, m.next c i ≤ 1023 :=
  sum_floor_cut_le scaled_nonneg

theorem next_black (hv : m.value = 0) (hothers : others c m.channel ≤ 1023)
    (hch : ch ≠ m.channel) : m.next c ch = c ch := by
  refine next_of_le ?_ hch
  rw [sum_scaled, hv]
  have hcast : (others c m.channel : ℚ) ≤ 1023 := by exact_mod_cast hothers
  simpa using hcast

theorem others_next_le (c : Fin 3 → Nat) (m : StaticMessage) (ch : Fin 3) :
    others (m.next c) ch ≤ 1023 :=
  le_trans (Finset.sum_le_sum_of_subset Finset.sdiff_subset) (sum_next_le c m)

/-- A channel that is set to a value other than 0 is not dark. -/
theorem next_pos (hv : m.value ≠ 0) (hothers : others c m.channel ≤ 1023) :
    0 < m.next c m.channel := by
  have hvalue : (1 : ℚ) ≤ m.value.toNat := by
    have hnat : m.value.toNat ≠ 0 := fun hzero => hv (UInt8.toNat_inj.mp hzero)
    exact_mod_cast Nat.pos_of_ne_zero hnat
  have hself : (8 : ℚ) ≤ m.scaled c m.channel := by
    rw [scaled_self]
    linarith
  refine Nat.floor_pos.mpr ?_
  by_cases h : ((1023 : Nat) : ℚ) < ∑ i, m.scaled c i
  · have hshare := mul_budget_le_cut_mul h (scaled_nonneg m.channel)
    have hsum : ∑ i, m.scaled c i ≤ m.scaled c m.channel + 1023 := by
      have hcast : (others c m.channel : ℚ) ≤ 1023 := by exact_mod_cast hothers
      rw [sum_scaled, scaled_self]
      linarith
    have hpos : 0 < ∑ i, m.scaled c i := sum_pos h
    by_contra hdark
    have hless : cut 1023 (m.scaled c) m.channel * ∑ i, m.scaled c i ≤ ∑ i, m.scaled c i :=
      mul_le_of_le_one_left hpos.le (not_le.mp hdark).le
    push_cast at hshare
    linarith
  · rw [cut_of_le (not_lt.mp h)]
    linarith

theorem fract_scaled_self :
    Int.fract (m.scaled c m.channel) = ((1023 * m.value.toNat % 127 : Nat) : ℚ) / 127 := by
  have h := Int.fract_div_natCast_eq_div_natCast_mod (k := ℚ) (m := 1023 * m.value.toNat) (n := 127)
  rw [scaled_self]
  push_cast at h ⊢
  exact h

/-- A channel that is cut keeps the whole budget exactly if the others cannot dim it. -/
theorem budget_le_cut_iff (h : ((1023 : Nat) : ℚ) < ∑ i, m.scaled c i) :
    1023 ≤ cut 1023 (m.scaled c) m.channel ↔ Undimmed c m.channel m.value := by
  have hpos := sum_pos h
  have hexcess : (excess 1023 (m.scaled c) : ℚ)
      = m.scaled c m.channel - Int.fract (m.scaled c m.channel) + others c m.channel - 1023 := by
    have hsum : ∑ i, m.scaled c i - ((1023 : Nat) : ℚ)
        = m.scaled c m.channel + ((others c m.channel : Int) - 1023 : Int) := by
      rw [sum_scaled, scaled_self]
      push_cast
      ring
    rw [excess, hsum, Int.floor_add_intCast, Int.fract]
    push_cast
    ring
  rw [cut_of_lt h, mul_div_assoc', le_div_iff₀ hpos, hexcess, sum_scaled, fract_scaled_self,
    scaled_self, Undimmed]
  have hcast : 127 ^ 2 * others c m.channel ≤ m.value.toNat * (1023 * m.value.toNat % 127)
      ↔ (127 : ℚ) ^ 2 * others c m.channel
        ≤ m.value.toNat * ((1023 * m.value.toNat % 127 : Nat) : ℚ) := by
    exact_mod_cast Iff.rfl
  rw [hcast]
  constructor
  · intro hle
    linarith
  · intro hle
    linarith

theorem full_of_undimmed (h : ((1023 : Nat) : ℚ) < ∑ i, m.scaled c i)
    (hfull : Undimmed c m.channel m.value) : 1023 ≤ m.next c m.channel :=
  Nat.le_floor ((budget_le_cut_iff h).mpr hfull)

/-- A full channel leaves nothing to the others. -/
theorem next_of_full (h : 1023 ≤ m.next c m.channel) :
    m.next c = Function.update (fun _ => 0) m.channel 1023 := by
  have hsum := sum_next_le c m
  have hself : m.next c m.channel ≤ 1023 :=
    le_trans (Finset.single_le_sum (fun i _ => Nat.zero_le _) (Finset.mem_univ _)) hsum
  funext i
  by_cases hi : i = m.channel
  · rw [hi, Function.update_self]
    omega
  · rw [Function.update_of_ne hi]
    have hpair := Finset.add_le_sum (f := m.next c) (fun j _ => Nat.zero_le _)
      (Finset.mem_univ m.channel) (Finset.mem_univ i) (Ne.symm hi)
    omega

/-- A channel that cannot be dimmed ends up as if the others were dark. -/
theorem next_of_undimmed (h : Undimmed c m.channel m.value) : m.next c = m.next fun _ => 0 := by
  by_cases hothers : others c m.channel = 0
  · refine next_congr fun i hi => ?_
    exact Finset.sum_eq_zero_iff.mp hothers i (by simp [hi])
  · have hmod : 1023 * m.value.toNat % 127 ≤ 126 := Nat.le_of_lt_succ (Nat.mod_lt _ (by decide))
    have hbig : 128 ≤ m.value.toNat := by
      have hone : 127 ^ 2 * 1 ≤ m.value.toNat * 126 :=
        le_trans (Nat.mul_le_mul_left _ (Nat.pos_of_ne_zero hothers))
          (le_trans h (Nat.mul_le_mul_left _ hmod))
      omega
    have hover (c' : Fin 3 → Nat) : ((1023 : Nat) : ℚ) < ∑ i, m.scaled c' i := by
      have hvalue : (128 : ℚ) ≤ m.value.toNat := by exact_mod_cast hbig
      have hpos : (0 : ℚ) ≤ others c' m.channel := Nat.cast_nonneg _
      rw [sum_scaled]
      push_cast
      linarith
    have hdark : Undimmed (fun _ => 0) m.channel m.value := by simp [Undimmed, others]
    rw [next_of_full (full_of_undimmed (hover c) h), next_of_full (full_of_undimmed (hover _) hdark)]

end StaticMessage

/-! ## Sequences of messages -/

theorem colourAfter_append (c : Fin 3 → Nat) (ms ms' : List StaticMessage) :
    colourAfter c (ms ++ ms') = colourAfter (colourAfter c ms) ms' := List.foldl_append

theorem lastValue_append (ms ms' : List StaticMessage) (ch : Fin 3) :
    lastValue (ms ++ ms') ch = (lastValue ms' ch).or (lastValue ms ch) := by
  have hfrom (l : List StaticMessage) (last : Fin 3 → Option UInt8) :
      l.foldl (fun (last : Fin 3 → Option UInt8) m =>
        Function.update last m.channel (some m.value)) last ch = (lastValue l ch).or (last ch) := by
    induction l generalizing last with
    | nil => rfl
    | cons m l ih =>
      rw [lastValue, List.foldl_cons, List.foldl_cons, ih, ih, Option.or_assoc]
      by_cases hch : ch = m.channel
      · simp [hch]
      · simp [Function.update_of_ne hch]
  rw [lastValue, List.foldl_append]
  exact hfrom ms' _

theorem lastValue_self (ch : Fin 3) (v : UInt8) : lastValue [⟨ch, v⟩] ch = some v := by
  simp [lastValue]

theorem lastValue_of_ne {ms : List StaticMessage} {ch : Fin 3} (h : ∀ m ∈ ms, m.channel ≠ ch) :
    lastValue ms ch = none := by
  induction ms using List.reverseRecOn with
  | nil => rfl
  | append_singleton ms m ih =>
    have hne : ch ≠ m.channel := (h m (by simp)).symm
    rw [lastValue_append, ih fun m' hm' => h m' (by simp [hm'])]
    simp [lastValue, Function.update_of_ne hne]

/-- A channel that is dark stays dark until it is set. -/
theorem colourAfter_eq_zero {c : Fin 3 → Nat} {ms : List StaticMessage} {ch : Fin 3}
    (h : ∀ m ∈ ms, m.channel ≠ ch) (hzero : c ch = 0) : colourAfter c ms ch = 0 := by
  induction ms generalizing c with
  | nil => exact hzero
  | cons m ms ih =>
    refine ih (fun m' hm' => h m' (List.mem_cons_of_mem m hm')) ?_
    exact StaticMessage.next_eq_zero (h m List.mem_cons_self).symm hzero

/-- A channel that is never set does not get brighter. -/
theorem colourAfter_le {c : Fin 3 → Nat} {ms : List StaticMessage} {ch : Fin 3}
    (h : ∀ m ∈ ms, m.channel ≠ ch) : colourAfter c ms ch ≤ c ch := by
  induction ms generalizing c with
  | nil => exact Nat.le_refl _
  | cons m ms ih =>
    have hrest := ih (c := m.next c) fun m' hm' => h m' (List.mem_cons_of_mem m hm')
    exact le_trans hrest (StaticMessage.next_le (h m List.mem_cons_self).symm)

/-- Enough messages of full brightness on one channel put the others out. -/
theorem colourAfter_full {ch bright : Fin 3} (hne : ch ≠ bright) :
    ∀ (n : Nat) (c : Fin 3 → Nat), c ch ≤ n →
      colourAfter c (List.replicate n ⟨bright, 127⟩) ch = 0 := by
  intro n
  induction n with
  | zero => exact fun c hc => Nat.le_zero.mp hc
  | succ n ih =>
    intro c hc
    refine ih _ ?_
    show StaticMessage.next c ⟨bright, 127⟩ ch ≤ n
    by_cases hpos : 0 < c ch
    · have hless := StaticMessage.next_lt (m := ⟨bright, 127⟩) rfl hne hpos
      omega
    · have hdark : c ch = 0 := by omega
      rw [StaticMessage.next_eq_zero (m := ⟨bright, 127⟩) hne hdark]
      exact Nat.zero_le n

/-! ## What the last values determine -/

variable {c : Fin 3 → Nat} {last : Fin 3 → Option UInt8}

/-- The messages that set a channel to its last value, if it is set. -/
def setLast (last : Fin 3 → Option UInt8) (ch : Fin 3) : List StaticMessage :=
  match last ch with
  | some v => [⟨ch, v⟩]
  | none => []

theorem channel_setLast {ch : Fin 3} : ∀ m ∈ setLast last ch, m.channel = ch := by
  unfold setLast
  cases last ch with
  | none => simp
  | some v => simp

theorem lastValue_setLast (ch : Fin 3) : lastValue (setLast last ch) ch = last ch := by
  unfold setLast
  cases last ch with
  | none => rfl
  | some v => exact lastValue_self ch v

theorem exists_third (a b : Fin 3) : ∃ t, t ≠ a ∧ t ≠ b := by
  revert a b
  decide

theorem three_channels {a b t : Fin 3} (hab : a ≠ b) (hta : t ≠ a) (htb : t ≠ b) (ch : Fin 3) :
    ch = a ∨ ch = b ∨ ch = t := by
  revert a b t ch
  decide

/-- Messages for a channel that is set again after them do not count. -/
theorem lastValue_ordered {a b t : Fin 3} (hab : a ≠ b) (hta : t ≠ a) (htb : t ≠ b) {w : UInt8}
    (hb : last b = some w) {l : List StaticMessage} (hl : ∀ m ∈ l, m.channel = b) :
    lastValue (setLast last t ++ setLast last a ++ l ++ setLast last b) = last := by
  have hother {ch ch' : Fin 3} (h : ch ≠ ch') : lastValue (setLast last ch) ch' = none :=
    lastValue_of_ne fun m hm => by rwa [channel_setLast m hm]
  have hbetween {ch : Fin 3} (h : b ≠ ch) : lastValue l ch = none :=
    lastValue_of_ne fun m hm => by rwa [hl m hm]
  funext ch
  rw [lastValue_append, lastValue_append, lastValue_append]
  rcases three_channels hab hta htb ch with rfl | rfl | rfl
  · rw [hother hab.symm, hbetween hab.symm, lastValue_setLast, hother hta]
    simp
  · rw [lastValue_setLast, hb]
    rfl
  · rw [hother htb.symm, hbetween htb.symm, hother hta.symm, lastValue_setLast]
    simp

theorem colourAfter_setLast {ch : Fin 3} {v : UInt8} (h : last ch = some v) (c : Fin 3 → Nat) :
    colourAfter c (setLast last ch) = StaticMessage.next c ⟨ch, v⟩ := by
  rw [setLast, h]
  rfl

/-- Determined last values of two channels are black. -/
theorem eq_zero_of_determined
    (hdet : ∀ ms ms', lastValue ms = last → lastValue ms' = last →
      colourAfter c ms = colourAfter c ms')
    {a b : Fin 3} (hab : a ≠ b) {z w : UInt8} (ha : last a = some z) (hb : last b = some w) :
    z = 0 := by
  obtain ⟨t, hta, htb⟩ := exists_third a b
  by_contra hz
  -- set last, the channel is bright
  have hbright : 0 < colourAfter c (setLast last t ++ setLast last b ++ [] ++ setLast last a) a := by
    rw [List.append_nil, colourAfter_append, colourAfter_setLast ha, colourAfter_append,
      colourAfter_setLast hb]
    exact StaticMessage.next_pos (m := ⟨a, z⟩) hz (StaticMessage.others_next_le _ _ _)
  -- followed by enough messages for the other one, it is dark
  let n := colourAfter c (setLast last t ++ setLast last a) a
  have hdark : colourAfter c (setLast last t ++ setLast last a ++ List.replicate n ⟨b, 127⟩
      ++ setLast last b) a = 0 := by
    rw [colourAfter_append, colourAfter_append]
    refine colourAfter_eq_zero (fun m hm => ?_) (colourAfter_full hab n _ (Nat.le_refl _))
    rw [channel_setLast m hm]
    exact hab.symm
  have hsame := hdet _ _ (lastValue_ordered hab.symm htb hta ha (l := []) (by simp))
    (lastValue_ordered hab hta htb hb (l := List.replicate n ⟨b, 127⟩) fun m hm => by
      rw [List.eq_of_mem_replicate hm])
  rw [hsame, hdark] at hbright
  exact absurd hbright (Nat.lt_irrefl 0)

/-- Two channels that are determined leave no room for a third one that is not set. -/
theorem unset_eq_zero_of_determined (hc : ∑ i, c i ≤ 1023)
    (hdet : ∀ ms ms', lastValue ms = last → lastValue ms' = last →
      colourAfter c ms = colourAfter c ms')
    {a b u : Fin 3} (hab : a ≠ b) {z w : UInt8} (ha : last a = some z) (hb : last b = some w)
    (hu : last u = none) : c u = 0 := by
  obtain rfl := eq_zero_of_determined hdet hab ha hb
  obtain rfl := eq_zero_of_determined hdet hab.symm hb ha
  have hua : u ≠ a := fun h => by rw [h, ha] at hu; cases hu
  have hub : u ≠ b := fun h => by rw [h, hb] at hu; cases hu
  have hnone : setLast last u = [] := by rw [setLast, hu]
  -- black on two channels leaves the third one as it is
  have hkept : colourAfter c (setLast last u ++ setLast last a ++ [] ++ setLast last b) u = c u := by
    rw [hnone, List.nil_append, List.append_nil, colourAfter_append, colourAfter_setLast ha,
      colourAfter_setLast hb]
    have hothers : others c a ≤ 1023 := le_trans (Finset.sum_le_sum_of_subset Finset.sdiff_subset) hc
    rw [StaticMessage.next_black rfl (StaticMessage.others_next_le _ _ _) hub,
      StaticMessage.next_black rfl hothers hua]
  have hdark : colourAfter c (setLast last u ++ setLast last a ++ List.replicate (c u) ⟨b, 127⟩
      ++ setLast last b) u = 0 := by
    rw [hnone, List.nil_append, colourAfter_append, colourAfter_append]
    refine colourAfter_eq_zero (fun m hm => ?_) (colourAfter_full hub (c u) _ ?_)
    · rw [channel_setLast m hm]
      exact hub.symm
    · refine colourAfter_le fun m hm => ?_
      rw [channel_setLast m hm]
      exact hua.symm
  have hsame := hdet _ _ (lastValue_ordered hab hua hub hb (l := []) (by simp))
    (lastValue_ordered hab hua hub hb (l := List.replicate (c u) ⟨b, 127⟩) fun m hm => by
      rw [List.eq_of_mem_replicate hm])
  rw [← hkept, hsame, hdark]

theorem others_eq_zero {ch : Fin 3} (h : ∀ i ≠ ch, c i = 0) : others c ch = 0 := by
  refine Finset.sum_eq_zero fun i hi => h i ?_
  simpa using hi

/-- A single channel that is determined is not dimmed. -/
theorem undimmed_of_determined
    (hdet : ∀ ms ms', lastValue ms = last → lastValue ms' = last →
      colourAfter c ms = colourAfter c ms')
    {ch : Fin 3} {v : UInt8} (hch : last ch = some v) (hother : ∀ i ≠ ch, last i = none) :
    Undimmed c ch v := by
  let m : StaticMessage := ⟨ch, v⟩
  let n := ∑ i, c i
  let c' := colourAfter c (List.replicate n ⟨ch, 127⟩)
  have hdark (i : Fin 3) (hi : i ≠ ch) : c' i = 0 :=
    colourAfter_full hi n c (Finset.single_le_sum (fun j _ => Nat.zero_le _) (Finset.mem_univ i))
  have hlast (l : List StaticMessage) (hl : ∀ m' ∈ l, m'.channel = ch) :
      lastValue (l ++ [m]) = last := by
    funext i
    rw [lastValue_append]
    by_cases hi : i = ch
    · rw [hi, lastValue_self, hch]
      rfl
    · have hm : lastValue [m] i = none := lastValue_of_ne fun m' hm' => by
        rw [List.mem_singleton.mp hm']
        exact Ne.symm hi
      have hl' : lastValue l i = none := lastValue_of_ne fun m' hm' => by
        rw [hl m' hm']
        exact Ne.symm hi
      rw [hm, hl', hother i hi]
      rfl
  have hsame : m.next c = m.next c' := by
    have h := hdet _ _ (hlast [] (by simp)) (hlast (List.replicate n ⟨ch, 127⟩) fun m' hm' => by
      rw [List.eq_of_mem_replicate hm'])
    rw [colourAfter_append, colourAfter_append] at h
    exact h
  by_cases hothers : others c ch = 0
  · simp [Undimmed, hothers]
  -- the others have gone dark, so they were cut, and the channel holds what is left
  have hcut : ((1023 : Nat) : ℚ) < ∑ i, m.scaled c i := by
    by_contra hnot
    refine hothers (others_eq_zero fun i hi => ?_)
    rw [← StaticMessage.next_of_le (m := m) (not_lt.mp hnot) hi, hsame]
    exact StaticMessage.next_eq_zero hi (hdark i hi)
  have hmost : 1021 ≤ m.next c ch := by
    have hleft := budget_lt_sum_floor_cut hcut
    have hsum : ∑ i, ⌊cut 1023 (m.scaled c) i⌋₊ = m.next c ch := by
      refine Finset.sum_eq_single ch (fun i _ hi => ?_) (by simp)
      show m.next c i = 0
      rw [hsame]
      exact StaticMessage.next_eq_zero hi (hdark i hi)
    rw [hsum, Fintype.card_fin] at hleft
    omega
  have hfull : 1023 ≤ m.next c' ch := by
    have hothers' : others c' ch = 0 := others_eq_zero hdark
    by_cases hover : ((1023 : Nat) : ℚ) < ∑ i, m.scaled c' i
    · exact StaticMessage.full_of_undimmed hover (by simp [Undimmed, m, hothers'])
    · have hself : cut 1023 (m.scaled c') ch = 1023 * v.toNat / 127 := by
        rw [cut_of_le (not_lt.mp hover)]
        exact StaticMessage.scaled_self
      have hle : (1023 : ℚ) * v.toNat / 127 ≤ 1023 := by
        rw [StaticMessage.sum_scaled, hothers'] at hover
        simpa [m] using hover
      rw [hsame, StaticMessage.next, hself, Nat.le_floor_iff (by positivity)] at hmost
      rw [StaticMessage.next, hself, Nat.le_floor_iff (by positivity)]
      have hvalue : v.toNat = 127 := by
        have hlow : (126 : ℚ) < v.toNat := by
          push_cast at hmost
          linarith
        have hhigh : (v.toNat : ℚ) ≤ 127 := by linarith
        have hlow' : 126 < v.toNat := by exact_mod_cast hlow
        have hhigh' : v.toNat ≤ 127 := by exact_mod_cast hhigh
        omega
      rw [hvalue]
      norm_num
  refine (StaticMessage.budget_le_cut_iff hcut).mp ?_
  rw [← hsame] at hfull
  exact_mod_cast (Nat.le_floor_iff (cut_nonneg StaticMessage.scaled_nonneg _)).mp hfull

/-- Channels that are set to black last, and dark ones that are not set, are black. -/
theorem colourAfter_black {ms : List StaticMessage} {ch : Fin 3}
    (hset : ∀ v, lastValue ms ch = some v → v = 0) (hunset : lastValue ms ch = none → c ch = 0) :
    colourAfter c ms ch = 0 := by
  induction ms using List.reverseRecOn with
  | nil => exact hunset rfl
  | append_singleton ms m ih =>
    rw [colourAfter_append]
    rw [lastValue_append] at hset hunset
    by_cases hm : ch = m.channel
    · subst hm
      exact StaticMessage.next_self_eq_zero (hset m.value (by rw [lastValue_self m.channel]; rfl))
    · have hnone : lastValue [m] ch = none := lastValue_of_ne fun m' hm' => by
        rw [List.mem_singleton.mp hm']
        exact Ne.symm hm
      rw [hnone, Option.none_or] at hset hunset
      exact StaticMessage.next_eq_zero hm (ih hset hunset)

theorem channel_ne_of_lastValue_eq_none {ms : List StaticMessage} {ch : Fin 3}
    (h : lastValue ms ch = none) : ∀ m ∈ ms, m.channel ≠ ch := by
  induction ms using List.reverseRecOn with
  | nil => simp
  | append_singleton ms m ih =>
    rw [lastValue_append, Option.or_eq_none_iff] at h
    intro m' hm'
    rcases List.mem_append.mp hm' with hms | hlast
    · exact ih h.2 m' hms
    · rw [List.mem_singleton.mp hlast]
      intro hch
      rw [← hch, lastValue_self] at h
      exact absurd h.1 (by simp)

/-- A single channel that is not dimmed ends up as if the others were dark. -/
theorem colourAfter_single {ms : List StaticMessage} {ch : Fin 3} {v : UInt8}
    (hch : lastValue ms ch = some v) (hother : ∀ i ≠ ch, lastValue ms i = none)
    (h : Undimmed c ch v) : colourAfter c ms = StaticMessage.next (fun _ => 0) ⟨ch, v⟩ := by
  cases ms using List.reverseRecOn with
  | nil => cases hch
  | append_singleton ms m =>
    have hm : m.channel = ch := by
      by_contra hne
      exact channel_ne_of_lastValue_eq_none (hother m.channel hne) m (by simp) rfl
    have hv : m.value = v := by
      rw [lastValue_append, ← hm, lastValue_self] at hch
      exact Option.some.inj hch
    obtain rfl : m = ⟨ch, v⟩ := by rw [← hm, ← hv]
    rw [colourAfter_append]
    refine StaticMessage.next_of_undimmed (m := ⟨ch, v⟩) (le_trans (Nat.mul_le_mul_left _ ?_) h)
    refine Finset.sum_le_sum fun i hi => colourAfter_le fun m' hm' => ?_
    refine channel_ne_of_lastValue_eq_none (hother i ?_) m' (List.mem_append_left _ hm')
    simpa using hi

theorem determined_of_historyFree (h : HistoryFree c last) {ms ms' : List StaticMessage}
    (hms : lastValue ms = last) (hms' : lastValue ms' = last) :
    colourAfter c ms = colourAfter c ms' := by
  rcases h with hnone | ⟨hset, hunset⟩ | ⟨ch, v, hch, hother, hfull⟩
  · have hnil (l : List StaticMessage) (hl : lastValue l = last) : l = [] := by
      refine List.eq_nil_iff_forall_not_mem.mpr fun m hm => ?_
      exact channel_ne_of_lastValue_eq_none ((congrFun hl m.channel).trans (hnone _)) m hm rfl
    rw [hnil ms hms, hnil ms' hms']
  · have hblack (l : List StaticMessage) (hl : lastValue l = last) (i : Fin 3) :
        colourAfter c l i = 0 :=
      colourAfter_black (fun v hv => hset i v (by rw [← hl, hv]))
        fun hi => hunset i (by rw [← hl, hi])
    funext i
    rw [hblack ms hms, hblack ms' hms']
  · have hsingle (l : List StaticMessage) (hl : lastValue l = last) :
        colourAfter c l = StaticMessage.next (fun _ => 0) ⟨ch, v⟩ :=
      colourAfter_single (by rw [hl, hch]) (fun i hi => by rw [hl, hother i hi]) hfull
    rw [hsingle ms hms, hsingle ms' hms']

theorem historyFree_of_determined (hc : ∑ i, c i ≤ 1023)
    (hdet : ∀ ms ms', lastValue ms = last → lastValue ms' = last →
      colourAfter c ms = colourAfter c ms') : HistoryFree c last := by
  by_cases hnone : ∀ ch, last ch = none
  · exact Or.inl hnone
  · obtain ⟨a, ha⟩ := not_forall.mp hnone
    obtain ⟨v, hv⟩ := Option.ne_none_iff_exists'.mp ha
    by_cases hother : ∀ i ≠ a, last i = none
    · exact Or.inr (Or.inr ⟨a, v, hv, hother, undimmed_of_determined hdet hv hother⟩)
    · obtain ⟨b, hb⟩ := not_forall.mp hother
      obtain ⟨hba, hb⟩ := Classical.not_imp.mp hb
      obtain ⟨w, hw⟩ := Option.ne_none_iff_exists'.mp hb
      refine Or.inr (Or.inl ⟨fun ch z hz => ?_, fun u hu => ?_⟩)
      · by_cases hch : ch = a
        · exact eq_zero_of_determined hdet (hch ▸ hba.symm) hz hw
        · exact eq_zero_of_determined hdet hch hz hv
      · exact unset_eq_zero_of_determined hc hdet hba.symm hv hw hu

/--
**When the static colour depends on the last values only.** Exactly if no channel is set, or nothing
but black is set and the other channels are dark at first, or one channel only is set and the two
others are dark at first (or too dim to be seen behind a value that no control change has).
-/
theorem lastDetermines_iff (env : Firmware → Input) (s : Firmware) (hs : StaticStored s)
    (last : Fin 3 → Option UInt8) :
    LastDetermines env s last ↔ HistoryFree (staticTriple s) last := by
  have hbudget : ∑ i, staticTriple s i ≤ 1023 := by
    obtain ⟨calls, hcalls⟩ := hs
    simp only [staticTriple, hcalls]
    exact (withinBudget_ledAfter calls).static
  simp only [LastDetermines, staticTriple_afterStatic]
  exact ⟨historyFree_of_determined hbudget, fun h ms ms' => determined_of_historyFree h⟩

/-- From the start, and with red set to full brightness last and nothing else. -/
theorem lastDetermines_iff_powerOn :
    LastDetermines (fun _ => .quiet) powerOn ![some 127, none, none] :=
  (lastDetermines_iff _ powerOn ⟨[], rfl⟩ _).mpr
    (.inr (.inr ⟨0, 127, rfl, by decide, by unfold Undimmed; decide +kernel⟩))

/-- Red, green, and green once more: the repeated message dims the red. -/
theorem not_lastDetermines : ¬∀ ms ms' : List StaticMessage, lastValue ms = lastValue ms' →
    staticTriple (afterStatic (fun _ => .quiet) powerOn ms)
      = staticTriple (afterStatic (fun _ => .quiet) powerOn ms') := by
  intro h
  have hlast : lastValue [⟨0, 127⟩, ⟨1, 127⟩] = lastValue [⟨0, 127⟩, ⟨1, 127⟩, ⟨1, 127⟩] := by decide
  have hred := congrFun (h _ _ hlast) 0
  exact absurd hred (by decide +kernel)

end SphereWare
