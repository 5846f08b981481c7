import Mathlib.Data.List.Basic

/-!
# Registers of eight bits

A register is written under a mask: the bits of the mask are cleared and then set from a value. What
such a write leaves alone is said bit by bit (`bit`) and for fields of bits (`setField`).
-/

namespace Bits

variable {x y : UInt8} {n : Nat}

/-! ## Bits -/

/-- The bit `n` of a register. -/
def bit (x : UInt8) (n : Nat) : Bool := x.toBitVec.getLsbD n

@[simp] theorem bit_and (x y : UInt8) (n : Nat) : bit (x &&& y) n = (bit x n && bit y n) := by
  rw [bit, UInt8.toBitVec_and, BitVec.getLsbD_and, bit, bit]

@[simp] theorem bit_or (x y : UInt8) (n : Nat) : bit (x ||| y) n = (bit x n || bit y n) := by
  rw [bit, UInt8.toBitVec_or, BitVec.getLsbD_or, bit, bit]

theorem bit_not (x : UInt8) (hn : n < 8) : bit (~~~x) n = !bit x n := by
  rw [bit, UInt8.toBitVec_not, BitVec.getLsbD_not, decide_eq_true hn, Bool.true_and, bit]

/-- Registers with the same bits are the same. -/
theorem eq_of_bit (h : ∀ n < 8, bit x n = bit y n) : x = y :=
  UInt8.toBitVec_inj.mp (BitVec.eq_of_getLsbD_eq h)

/-! ## Fields -/

/-- The register `x` with the bits of the mask taken from `v`. -/
def setField (mask x v : UInt8) : UInt8 := (x &&& ~~~mask) ||| (v &&& mask)

theorem bit_setField (mask x v : UInt8) (hn : n < 8) :
    bit (setField mask x v) n = if bit mask n then bit v n else bit x n := by
  rw [setField, bit_or, bit_and, bit_and, bit_not mask hn]
  cases bit mask n <;> simp

/-- A field that is written holds the value. -/
theorem setField_and_self (mask x v : UInt8) : setField mask x v &&& mask = v &&& mask := by
  refine eq_of_bit fun n hn => ?_
  rw [bit_and, bit_setField mask x v hn, bit_and]
  cases bit mask n <;> simp

/-- Writing a field leaves what lies outside it. -/
theorem setField_and_of_disjoint {mask m : UInt8} (h : mask &&& m = 0) (x v : UInt8) :
    setField mask x v &&& m = x &&& m := by
  refine eq_of_bit fun n hn => ?_
  have hbits : (bit mask n && bit m n) = false := by
    rw [← bit_and, h]
    simp [bit]
  rw [bit_and, bit_setField mask x v hn, bit_and]
  cases hmask : bit mask n with
  | false => simp
  | true =>
    rw [hmask, Bool.true_and] at hbits
    simp [hbits]

/-- A field is written inside a larger one. -/
theorem setField_and_of_subset {mask m : UInt8} (h : mask &&& m = mask) (x v : UInt8) :
    setField mask x v &&& m = setField mask (x &&& m) v := by
  refine eq_of_bit fun n hn => ?_
  have hbits : (bit mask n && bit m n) = bit mask n := by rw [← bit_and, h]
  rw [bit_and, bit_setField mask x v hn, bit_setField mask (x &&& m) v hn, bit_and]
  cases hmask : bit mask n with
  | false => simp
  | true =>
    rw [hmask, Bool.true_and] at hbits
    simp [hbits]

end Bits
