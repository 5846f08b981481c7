import Mathlib.Algebra.Group.Nat.Defs

/-!
# A shift register on a serial line

A word of `w` bits is put together field by field and clocked out with its highest bit first. Each
clock moves the bit on the line into the lowest place of the register at the other end.
-/

namespace ShiftRegister

variable {w : Nat} {x r : BitVec w}

/-! ## Clocking a word out -/

/-- The first `j` bits of the word `x` are in the register. -/
def Received (x : BitVec w) (j : Nat) (r : BitVec w) : Prop :=
  ∀ i < j, r.getLsbD i = x.getLsbD (w - j + i)

theorem Received.zero : Received x 0 r := fun i hi => absurd hi (Nat.not_lt_zero i)

theorem Received.shiftConcat {j : Nat} (h : Received x j r) (hj : j < w) :
    Received x (j + 1) (r.shiftConcat (x.getLsbD (w - 1 - j))) := by
  intro i hi
  rw [BitVec.getLsbD_shiftConcat, decide_eq_true (show i < w by omega), Bool.true_and]
  split
  · next hzero => rw [hzero, show w - (j + 1) + 0 = w - 1 - j by omega]
  · next hpos =>
    rw [h (i - 1) (by omega)]
    congr 1
    omega

/-- **After as many clocks as there are bits the register holds the word.** -/
theorem Received.eq (h : Received x w r) : r = x := by
  refine BitVec.eq_of_getLsbD_eq fun i hi => ?_
  rw [h i hi, Nat.sub_self, Nat.zero_add]

/-- The bit that is clocked in, as an arithmetic shift writes it. -/
theorem shiftConcat_eq_or (r : BitVec w) (b : Bool) :
    r.shiftConcat b = (r <<< 1) ||| (if b then 1#w else 0#w) := by
  refine BitVec.eq_of_getLsbD_eq fun i hi => ?_
  rw [BitVec.getLsbD_shiftConcat, BitVec.getLsbD_or, BitVec.getLsbD_shiftLeft]
  cases i with
  | zero => cases b <;> simp [hi]
  | succ i => cases b <;> simp [hi]

/-! ## Putting a word together -/

/-- Shifting a word up by `n` places and filling them with `v` appends a field. -/
theorem toNat_shiftLeft_or {n v : Nat} (hv : v < 2 ^ n) (hx : x.toNat * 2 ^ n + v < 2 ^ w) :
    ((x <<< n) ||| BitVec.ofNat w v).toNat = x.toNat * 2 ^ n + v := by
  have hshift : x.toNat * 2 ^ n < 2 ^ w := Nat.lt_of_le_of_lt (Nat.le_add_right _ _) hx
  have hfield : v < 2 ^ w := Nat.lt_of_le_of_lt (Nat.le_add_left _ _) hx
  rw [BitVec.toNat_or, BitVec.toNat_shiftLeft, BitVec.toNat_ofNat, Nat.mod_eq_of_lt hfield,
    Nat.shiftLeft_eq, Nat.mod_eq_of_lt hshift, Nat.mul_comm, Nat.two_pow_add_eq_or_of_lt hv]

end ShiftRegister
