import Mathlib.Algebra.Order.Group.Int
import Mathlib.Algebra.Order.Ring.Int
import Mathlib.Tactic.Ring

/-!
# Meeting halfway

A running value that goes half of the way to each new one, cut down to an integer and capped. What
it was before fades: the distance from a band all new values lie in is halved at least with each of
them, and cutting down costs one at the lower end.
-/

namespace Blend

/-- Half of the way from `x` to `v`. -/
def halfway (cap x v : Int) : Int := min cap ((x + v).tdiv 2)

/-- The running value after the values `l`. -/
def settle (cap x : Int) (l : List Int) : Int := l.foldl (halfway cap) x

variable {cap lo hi x v : Int}

theorem halfway_eq (hx : 0 ≤ x) (hv : 0 ≤ v) : halfway cap x v = min cap ((x + v) / 2) := by
  rw [halfway, Int.tdiv_eq_ediv_of_nonneg (by omega)]

theorem halfway_nonneg (hcap : 0 ≤ cap) (hx : 0 ≤ x) (hv : 0 ≤ v) : 0 ≤ halfway cap x v := by
  rw [halfway_eq hx hv]
  omega

/-- Half of what it was is left at least. -/
theorem le_two_mul_halfway (hx : 0 ≤ x) (hcap : x ≤ cap) (hv : 0 < v) :
    x ≤ 2 * halfway cap x v := by
  rw [halfway_eq hx hv.le]
  omega

theorem settle_append (cap x : Int) (l l' : List Int) :
    settle cap x (l ++ l') = settle cap (settle cap x l) l' := List.foldl_append

theorem settle_nonneg (hcap : 0 ≤ cap) (hx : 0 ≤ x) {l : List Int} (hl : ∀ v ∈ l, 0 ≤ v) :
    0 ≤ settle cap x l := by
  induction l generalizing x with
  | nil => exact hx
  | cons v l ih =>
    obtain ⟨hv, hrest⟩ := List.forall_mem_cons.mp hl
    exact ih (halfway_nonneg hcap hx hv) hrest

/-! ## The band -/

/-- `x` is at most `a` below the band from `lo` to `hi`, and at most `b` above it. -/
structure Within (cap lo hi a b x : Int) : Prop where
  low : min cap lo - a ≤ x
  high : x ≤ min cap hi + b

theorem Within.halve {a : Int} (h : Within cap lo hi (a * 2) (a * 2) x) (hx : 0 ≤ x) (hv : 0 ≤ v)
    (hlo : lo ≤ v) (hhi : v ≤ hi) (ha : 0 ≤ a) : Within cap lo hi a a (halfway cap x v) := by
  obtain ⟨hlow, hhigh⟩ := h
  rw [halfway_eq hx hv]
  constructor <;> omega

/-- From one above the band it comes down to it. One below it may stay there. -/
theorem Within.reach {b : Int} (h : Within cap lo hi 1 b x) (hb : b ≤ 1) (hx : 0 ≤ x) (hv : 0 ≤ v)
    (hlo : lo ≤ v) (hhi : v ≤ hi) : Within cap lo hi 1 0 (halfway cap x v) := by
  obtain ⟨hlow, hhigh⟩ := h
  rw [halfway_eq hx hv]
  constructor <;> omega

/-- The distance after `n` values. -/
theorem within_settle (hcap : 0 ≤ cap) (hx : 0 ≤ x) {l : List Int}
    (hl : ∀ v ∈ l, 0 ≤ v ∧ lo ≤ v ∧ v ≤ hi)
    (h : Within cap lo hi (2 ^ l.length) (2 ^ l.length) x) :
    Within cap lo hi 1 1 (settle cap x l) := by
  induction l generalizing x with
  | nil => exact h
  | cons v l ih =>
    obtain ⟨⟨hv, hlo, hhi⟩, hrest⟩ := List.forall_mem_cons.mp hl
    rw [List.length_cons, pow_succ] at h
    exact ih (halfway_nonneg hcap hx hv) hrest (h.halve hx hv hlo hhi (pow_nonneg zero_le_two _))

/-- In the band it stays. -/
theorem Within.settle (hcap : 0 ≤ cap) (hx : 0 ≤ x) {l : List Int}
    (hl : ∀ v ∈ l, 0 ≤ v ∧ lo ≤ v ∧ v ≤ hi) (h : Within cap lo hi 1 0 x) :
    Within cap lo hi 1 0 (settle cap x l) := by
  induction l generalizing x with
  | nil => exact h
  | cons v l ih =>
    obtain ⟨⟨hv, hlo, hhi⟩, hrest⟩ := List.forall_mem_cons.mp hl
    exact ih (halfway_nonneg hcap hx hv) hrest (h.reach zero_le_one hx hv hlo hhi)

/-- **After enough values in the band, wherever it began, it is there.** -/
theorem settle_within {n : Nat} (hcap : cap ≤ 2 ^ n) (hx₀ : 0 ≤ x) (hx₁ : x ≤ cap) {l : List Int}
    (hl : ∀ v ∈ l, 0 ≤ v ∧ lo ≤ v ∧ v ≤ hi) (hn : n < l.length) :
    Within cap lo hi 1 0 (Blend.settle cap x l) := by
  have hcap₀ : 0 ≤ cap := hx₀.trans hx₁
  obtain ⟨v, rest, hdrop⟩ : ∃ v rest, l.drop n = v :: rest := by
    cases hdrop : l.drop n with
    | nil =>
      have hlength := congrArg List.length hdrop
      rw [List.length_drop, List.length_nil] at hlength
      omega
    | cons v rest => exact ⟨v, rest, rfl⟩
  have hsplit : l = l.take n ++ v :: rest := by rw [← hdrop, List.take_append_drop]
  have hbefore : ∀ w ∈ l.take n, 0 ≤ w ∧ lo ≤ w ∧ w ≤ hi :=
    fun w hw => hl w (List.mem_of_mem_take hw)
  obtain ⟨⟨hv, hlo, hhi⟩, hrest⟩ := List.forall_mem_cons.mp fun w hw =>
    hl w (List.mem_of_mem_drop (hdrop.symm ▸ hw))
  have hnonneg := settle_nonneg hcap₀ hx₀ fun w hw => (hbefore w hw).1
  have hnear : Within cap lo hi 1 1 (Blend.settle cap x (l.take n)) := by
    refine within_settle hcap₀ hx₀ hbefore ?_
    rw [List.length_take, min_eq_left hn.le]
    constructor <;> omega
  rw [hsplit, settle_append]
  exact (hnear.reach le_rfl hnonneg hv hlo hhi).settle hcap₀ (halfway_nonneg hcap₀ hnonneg hv) hrest

end Blend
