import Mathlib.Algebra.Order.Group.Int
import Mathlib.Algebra.Order.Group.Abs

/-!
# Wheels with detents

A wheel moves along the integers in quarter steps and rests at the multiples of four. A counter
that sees a click only on the way out, half a step from the detent it left, counts a half step
that is taken back as a click all the same. How far it is off is exactly that.
-/

namespace Quadrature

/-- A wheel, with what a counter and an observer make of its way so far. -/
structure Wheel where
  pos : Int
  /-- The even position it was at last, and the detent. -/
  even : Int
  detent : Int
  /-- The half steps out of a detent, forward minus backward. -/
  clicks : Int
  /-- Those among them after which it came back to the same detent. -/
  takenBack : Int

namespace Wheel

/-- At a detent, before the first move. -/
def rest : Wheel := ⟨0, 0, 0, 0, 0⟩

/-- The wheel moves by `d`. -/
def move (w : Wheel) (d : Int) : Wheel :=
  let p := w.pos + d
  if p % 2 ≠ 0 ∨ p = w.even then { w with pos := p }
  else if p % 4 = 0 then
    { w with
      pos := p, even := p, detent := p
      takenBack := if p = w.detent then w.takenBack + (w.even - p) / 2 else w.takenBack }
  else { w with pos := p, even := p, clicks := w.clicks + (p - w.even) / 2 }

/-- What holds of every wheel that has moved by quarter steps only. -/
structure Sound (w : Wheel) : Prop where
  detent : w.detent % 4 = 0
  even : w.even = w.detent ∨ w.even = w.detent + 2 ∨ w.even = w.detent - 2
  near : w.pos = w.even ∨ w.pos = w.even + 1 ∨ w.pos = w.even - 1
  /-- A click is worth four quarter steps, two of which it still lacks when it is counted. -/
  balance : 4 * w.clicks = 4 * w.takenBack + w.detent + 2 * (w.even - w.detent)

theorem sound_rest : rest.Sound := ⟨rfl, Or.inl rfl, Or.inl rfl, rfl⟩

theorem Sound.move {w : Wheel} (h : w.Sound) {d : Int} (hd : d = 0 ∨ d = 1 ∨ d = -1) :
    (w.move d).Sound := by
  obtain ⟨hdetent, heven, hnear, hbalance⟩ := h
  unfold Wheel.move
  dsimp only
  split
  · next hp => exact ⟨hdetent, heven, by dsimp only; omega, hbalance⟩
  · split
    -- at a detent: the one it left, or the next one
    · refine ⟨by dsimp only; omega, Or.inl rfl, Or.inl rfl, ?_⟩
      dsimp only
      split <;> omega
    · exact ⟨hdetent, by dsimp only; omega, Or.inl rfl, by dsimp only; omega⟩

theorem pos_move (w : Wheel) (d : Int) : (w.move d).pos = w.pos + d := by
  unfold move
  dsimp only
  split
  · rfl
  · split <;> rfl

theorem even_move (w : Wheel) (d : Int) :
    (w.move d).even = if (w.pos + d) % 2 = 0 then w.pos + d else w.even := by
  unfold move
  dsimp only
  split
  · next hp =>
    rw [apply_ite (w.even = ·)]
    split
    · exact (hp.resolve_left (absurd ‹_›)).symm
    · rfl
  · next hp =>
    rw [not_or, not_not] at hp
    rw [if_pos hp.1]
    split <;> rfl

/-- A click is counted half a step from the detent that was left. -/
theorem Sound.clicks_move {w : Wheel} (h : w.Sound) {d : Int} (hd : d = 0 ∨ d = 1 ∨ d = -1) :
    (w.move d).clicks = w.clicks
      + if w.pos % 2 ≠ 0 ∧ w.pos + d ≠ w.even ∧ (w.pos + d) % 4 = 2 then d else 0 := by
  obtain ⟨hdetent, heven, hnear, -⟩ := h
  have hmove : (w.move d).clicks
      = if (w.pos + d) % 2 ≠ 0 ∨ w.pos + d = w.even ∨ (w.pos + d) % 4 = 0 then w.clicks
        else w.clicks + (w.pos + d - w.even) / 2 := by
    unfold Wheel.move
    dsimp only
    split
    · next hp => exact (if_pos (by omega)).symm
    · split
      · next hp => exact (if_pos (by omega)).symm
      · next hp => exact (if_neg (by omega)).symm
  rw [hmove]
  split <;> split <;> omega

/-- **Up to what was taken back, the clicks are off by less than one.** -/
theorem Sound.clicks_near {w : Wheel} (h : w.Sound) :
    |4 * (w.clicks - w.takenBack) - w.pos| ≤ 3 := by
  obtain ⟨-, heven, hnear, hbalance⟩ := h
  rw [abs_le]
  omega

/-- Back where it started, the clicks are what was taken back. -/
theorem Sound.clicks_of_pos_eq {w : Wheel} (h : w.Sound) (hpos : w.pos = 0) :
    w.clicks = w.takenBack := by
  obtain ⟨hdetent, heven, hnear, hbalance⟩ := h
  omega

end Wheel

end Quadrature
