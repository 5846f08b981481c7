import Mathlib.Tactic.FinCases
import SphereWare.Blend.Budget
import SphereWare.Firmware.Led

/-!
# The LED budget

The sum of the three channels the LED is sent must not exceed 1023. `LED_Set_Colour_Values` and
`LED_Set_Static_Colour` cut a brighter colour down to that budget before they store it.
-/

namespace SphereWare

open Budget

/-! ## Calls -/

/-- A call of one of the two functions that store a colour. -/
inductive ColourCall where
  /-- `LED_Set_Colour_Values`. -/
  | values (colour red green blue : UInt8)
  /-- `LED_Set_Static_Colour`. -/
  | static (colour value : UInt8)

namespace ColourCall

def run (l : Led) : ColourCall → Led
  | values colour red green blue => l.setColourValues colour.toNat red green blue
  | static colour value => l.setStaticColour colour value

/-- The channel `LED_Set_Static_Colour` sets: blue for every colour but 0 and 1. -/
def channel (colour : UInt8) : Fin 3 := if colour = 0 then 0 else if colour = 1 then 1 else 2

/-- `red_scaled`, `green_scaled` and `blue_scaled`. -/
def scaled (l : Led) : ColourCall → Fin 3 → ℚ
  | values _ red green blue =>
    ![1023 * red.toNat / 255, 1023 * green.toNat / 255, 1023 * blue.toNat / 255]
  | static colour value =>
    Function.update (fun i => (l.staticColourValues i : ℚ)) (channel colour)
      (1023 * value.toNat / 127)

/-- The triple the call stores. -/
def stored (l : Led) (call : ColourCall) (i : Fin 3) : Nat :=
  match call with
  | values colour _ _ _ => (call.run l).colourValues colour.toNat i
  | static _ _ => (call.run l).staticColourValues i

end ColourCall

/-- The LED after `LED_Init` and some calls. -/
def ledAfter (calls : List ColourCall) : Led := calls.foldl ColourCall.run Led.init

/-! ## What a call stores -/

theorem truncate_eq_floor (x : ℚ) : truncate x = ⌊x⌋₊ := Int.floor_toNat x

theorem scaleColour_eq_cut (a b c : ℚ) : scaleColour (a, b, c)
    = (cut 1023 ![a, b, c] 0, cut 1023 ![a, b, c] 1, cut 1023 ![a, b, c] 2) := by
  have hsum : ∑ i, ![a, b, c] i = a + b + c := Fin.sum_univ_three _
  have hexcess : excess 1023 ![a, b, c] = ⌊a + b + c - 1023⌋ := by
    rw [excess, hsum]
    rfl
  have hbudget : ((1023 : Nat) : ℚ) = 1023 := rfl
  simp only [scaleColour, cut, hsum, hexcess, hbudget]
  split
  · rfl
  · rfl

namespace ColourCall

/-- **A call stores its scaled channels, cut down to the budget.** -/
theorem stored_eq (l : Led) (call : ColourCall) (i : Fin 3) :
    call.stored l i = ⌊cut 1023 (call.scaled l) i⌋₊ := by
  cases call with
  | values colour red green blue =>
    simp only [stored, run, Led.setColourValues, Function.update_self, scaleColour_eq_cut,
      truncate_eq_floor]
    fin_cases i <;> rfl
  | static colour value =>
    have hscaled : (if colour = 0 then ((1023 * value.toNat / 127 : ℚ),
          (l.staticColourValues 1 : ℚ), (l.staticColourValues 2 : ℚ))
        else if colour = 1 then
          ((l.staticColourValues 0 : ℚ), (1023 * value.toNat / 127 : ℚ),
            (l.staticColourValues 2 : ℚ))
        else ((l.staticColourValues 0 : ℚ), (l.staticColourValues 1 : ℚ),
          (1023 * value.toNat / 127 : ℚ)))
        = ((static colour value).scaled l 0, (static colour value).scaled l 1,
          (static colour value).scaled l 2) := by
      by_cases hred : colour = 0
      · simp [scaled, channel, hred, Function.update_apply]
      · by_cases hgreen : colour = 1
        · simp [scaled, channel, hgreen, Function.update_apply]
        · simp [scaled, channel, hred, hgreen, Function.update_apply]
    have hchannels : ![(static colour value).scaled l 0, (static colour value).scaled l 1,
        (static colour value).scaled l 2] = (static colour value).scaled l := by
      funext j
      fin_cases j <;> rfl
    simp only [stored, run, Led.setStaticColour, hscaled, scaleColour_eq_cut, truncate_eq_floor,
      hchannels]
    fin_cases i <;> rfl

theorem scaled_nonneg (l : Led) (call : ColourCall) (i : Fin 3) : 0 ≤ call.scaled l i := by
  cases call with
  | values colour red green blue => fin_cases i <;> simp [scaled] <;> positivity
  | static colour value =>
    by_cases hi : i = channel colour
    · rw [hi, scaled, Function.update_self]
      positivity
    · rw [scaled, Function.update_of_ne hi]
      positivity

theorem sum_stored_le (l : Led) (call : ColourCall) : ∑ i, call.stored l i ≤ 1023 := by
  simp only [stored_eq]
  exact sum_floor_cut_le (call.scaled_nonneg l)

end ColourCall

/-! ## The budget -/

/-- Every row of `LED_Colour_Values` and `LED_Static_Colour_Values` are within the budget. -/
structure Led.WithinBudget (l : Led) : Prop where
  rows : ∀ row, ∑ i : Fin 3, l.colourValues row i ≤ 1023
  static : ∑ i : Fin 3, l.staticColourValues i ≤ 1023

/-- Each call keeps the budget. -/
theorem ColourCall.withinBudget {l : Led} (h : l.WithinBudget) (call : ColourCall) :
    (call.run l).WithinBudget := by
  have hstored := call.sum_stored_le l
  cases call with
  | values colour red green blue =>
    refine ⟨fun row => ?_, h.static⟩
    by_cases hrow : row = colour.toNat
    · rw [hrow]
      exact hstored
    · have hother (i : Nat) : ((values colour red green blue).run l).colourValues row i
          = l.colourValues row i := by
        simp [run, Led.setColourValues, Function.update_of_ne hrow]
      simp only [hother]
      exact h.rows row
  | static colour value => exact ⟨h.rows, hstored⟩

theorem withinBudget_init : Led.init.WithinBudget := by
  have hzero : ({ Led.init with colourValues := fun _ _ => 0 } : Led).WithinBudget :=
    ⟨fun row => by simp, by simp [Led.init, Led.setColourValues]⟩
  have hblue := ColourCall.withinBudget hzero (.values 0 0 0 255)
  have hgreen := ColourCall.withinBudget hblue (.values 1 0 255 0)
  exact ColourCall.withinBudget hgreen (.values 2 255 0 0)

theorem withinBudget_ledAfter (calls : List ColourCall) : (ledAfter calls).WithinBudget := by
  have hrun (calls : List ColourCall) (l : Led) (h : l.WithinBudget) :
      (calls.foldl ColourCall.run l).WithinBudget := by
    induction calls generalizing l with
    | nil => exact h
    | cons call calls ih => exact ih _ (ColourCall.withinBudget h call)
  exact hrun calls Led.init withinBudget_init

/--
**Stored colours are within the budget and waste none of it.** After any calls all stored colours
sum to at most 1023. What the next call stores sums to at least 1021 if its scaled channels exceed
the budget, and is in the order of the scaled channels.
-/
theorem colours_withinBudget (calls : List ColourCall) :
    (∀ row, ∑ i : Fin 3, (ledAfter calls).colourValues row i ≤ 1023) ∧
      ∑ i : Fin 3, (ledAfter calls).staticColourValues i ≤ 1023 ∧
      ∀ call : ColourCall,
        (1023 < ∑ i, call.scaled (ledAfter calls) i →
          1021 ≤ ∑ i, call.stored (ledAfter calls) i) ∧
        ∀ i j, call.scaled (ledAfter calls) i ≤ call.scaled (ledAfter calls) j →
          call.stored (ledAfter calls) i ≤ call.stored (ledAfter calls) j := by
  have hbudget := withinBudget_ledAfter calls
  refine ⟨hbudget.rows, hbudget.static, fun call => ⟨fun hexcess => ?_, fun i j hij => ?_⟩⟩
  · have hleft : 1023 < ∑ i, ⌊cut 1023 (call.scaled (ledAfter calls)) i⌋₊ + Fintype.card (Fin 3) :=
      budget_lt_sum_floor_cut hexcess
    simp only [ColourCall.stored_eq]
    rw [Fintype.card_fin] at hleft
    omega
  · rw [ColourCall.stored_eq, ColourCall.stored_eq]
    exact floor_cut_mono hij

end SphereWare
