import Mathlib.Order.Lattice
import Mathlib.Data.List.Basic

/-!
# A trigger with hysteresis

A trigger goes on below one threshold and off from a higher one on. Values that do not reach across
both thresholds make it change at most once.
-/

namespace Hysteresis

variable {α : Type*} [LinearOrder α] {low high : α}

/-- The state after the value `x`. -/
def next (low high : α) (on : Bool) (x : α) : Bool :=
  if on then decide (x < high) else decide (x < low)

/-- The states after each of the values. -/
def states (low high : α) (on : Bool) : List α → List Bool
  | [] => []
  | x :: l => next low high on x :: states low high (next low high on x) l

theorem states_append (low high : α) (on : Bool) (l : List α) (x : α) :
    states low high on (l ++ [x])
      = states low high on l ++ [next low high (l.foldl (next low high) on) x] := by
  induction l generalizing on with
  | nil => rfl
  | cons y l ih =>
    rw [List.cons_append, states, ih, List.foldl_cons]
    rfl

/-- One value, and then for good another. -/
def ChangesOnce (l : List Bool) : Prop :=
  ∃ m n b, l = List.replicate m b ++ List.replicate n (!b)

/-- Values that do not reach down to the lower threshold leave the trigger off. -/
theorem states_off {l : List α} (hl : ∀ x ∈ l, low ≤ x) :
    states low high false l = List.replicate l.length false := by
  induction l with
  | nil => rfl
  | cons x l ih =>
    obtain ⟨hx, hrest⟩ := List.forall_mem_cons.mp hl
    have hnext : next low high false x = false := decide_eq_false (not_lt.mpr hx)
    rw [states, hnext, ih hrest]
    rfl

/-- Values below the upper threshold leave it on. -/
theorem states_on {l : List α} (hl : ∀ x ∈ l, x < high) :
    states low high true l = List.replicate l.length true := by
  induction l with
  | nil => rfl
  | cons x l ih =>
    obtain ⟨hx, hrest⟩ := List.forall_mem_cons.mp hl
    have hnext : next low high true x = true := decide_eq_true hx
    rw [states, hnext, ih hrest]
    rfl

/-- From the other state it gets to `b` once, if it does at all. -/
theorem states_toward {b : Bool} {l : List α}
    (hstay : ∀ l' : List α, l' <:+ l → states low high b l' = List.replicate l'.length b) :
    ∃ m n, states low high (!b) l = List.replicate m (!b) ++ List.replicate n b := by
  induction l with
  | nil => exact ⟨0, 0, rfl⟩
  | cons x l ih =>
    have hrest (l' : List α) (hl' : l' <:+ l) :
        states low high b l' = List.replicate l'.length b :=
      hstay l' (hl'.trans (List.suffix_cons x l))
    by_cases hx : next low high (!b) x = b
    · refine ⟨0, l.length + 1, ?_⟩
      rw [states, hx, hrest l List.suffix_rfl]
      rfl
    · obtain ⟨m, n, hrun⟩ := ih hrest
      refine ⟨m + 1, n, ?_⟩
      rw [states, Bool.eq_not_of_ne hx, hrun]
      rfl

/-- A state the values cannot take the trigger out of. -/
theorem changesOnce_of_absorbing {b : Bool} {l : List α}
    (hstay : ∀ l' : List α, l' <:+ l → states low high b l' = List.replicate l'.length b)
    (on : Bool) : ChangesOnce (on :: states low high on l) := by
  by_cases hon : on = b
  · rw [hon, hstay l List.suffix_rfl]
    exact ⟨l.length + 1, 0, b, (List.append_nil _).symm⟩
  · rw [Bool.eq_not_of_ne hon]
    obtain ⟨m, n, hrun⟩ := states_toward hstay
    exact ⟨m + 1, n, !b, by rw [hrun, Bool.not_not]; rfl⟩

/-- **No chatter.** The state before the values counts. -/
theorem changesOnce {l : List α} (on : Bool)
    (hl : (∀ x ∈ l, low ≤ x) ∨ ∀ x ∈ l, x < high) :
    ChangesOnce (on :: states low high on l) := by
  rcases hl with hl | hl
  · exact changesOnce_of_absorbing (fun l' hl' => states_off fun x hx => hl x (hl'.subset hx)) on
  · exact changesOnce_of_absorbing (fun l' hl' => states_on fun x hx => hl x (hl'.subset hx)) on

end Hysteresis
