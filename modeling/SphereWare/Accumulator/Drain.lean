import Mathlib.GroupTheory.Congruence.BigOperators
import Mathlib.Data.Int.ModEq

/-!
# Buffers that are filled and drained

Amounts of a monoid are put into a buffer one after the other; now and then the buffer is drained
and starts again from zero. A buffer may be full, in which case a put is refused. Amounts are added
on the right, so the monoid can be one of lists, and the buffer a queue.

What was drained and what is pending always sum to what was accepted.
-/

namespace Accumulator

/-! ## Buffers -/

inductive Op (M : Type*) where
  | put (a : M)
  | drain

/-- What lies in the buffer, and what came out of it, oldest first. -/
structure Buffer (M : Type*) where
  pending : M
  drained : List M

namespace Buffer

variable {M : Type*}

/-- All that went through the buffer, in portions. -/
def portions (b : Buffer M) : List M := b.drained ++ [b.pending]

variable [AddMonoid M]

def empty : Buffer M := ⟨0, []⟩

/-- `room` tells of what is pending whether more can be put to it. -/
def apply (room : M → Bool) (b : Buffer M) : Op M → Buffer M
  | .put a => if room b.pending then { b with pending := b.pending + a } else b
  | .drain => ⟨0, b.drained ++ [b.pending]⟩

def total (b : Buffer M) : M := b.drained.sum + b.pending

theorem sum_portions (b : Buffer M) : b.portions.sum = b.total := by
  rw [portions, List.sum_append, List.sum_singleton, total]

theorem total_empty : (empty : Buffer M).total = 0 := add_zero 0

theorem total_drain (room : M → Bool) (b : Buffer M) : (b.apply room .drain).total = b.total := by
  rw [apply, total, total, List.sum_append, List.sum_singleton, add_zero]

theorem total_put (room : M → Bool) (b : Buffer M) (a : M) :
    (b.apply room (.put a)).total = b.total + if room b.pending then a else 0 := by
  rw [apply]
  split
  · exact (add_assoc _ _ _).symm
  · rw [add_zero]

end Buffer

/-! ## Histories -/

section History

variable {M : Type*} [AddMonoid M] (room : M → Bool) (ops : Nat → Option (Op M))

/-- The buffer after the first `n` steps. In a step without an operation nothing happens to it. -/
def bufferAt : Nat → Buffer M
  | 0 => .empty
  | n + 1 => match ops n with
    | none => bufferAt n
    | some op => (bufferAt n).apply room op

/-- The puts of the first `n` steps, each with what was pending at the time. -/
def puts : Nat → List (M × M)
  | 0 => []
  | n + 1 => puts n ++ match ops n with
    | some (.put a) => [(a, (bufferAt room ops n).pending)]
    | _ => []

/-- The puts that were not refused. -/
def accepted (n : Nat) : List M := ((puts room ops n).filter fun p => room p.2).map Prod.fst

variable {room ops}

theorem bufferAt_none {n : Nat} (h : ops n = none) :
    bufferAt room ops (n + 1) = bufferAt room ops n := by
  rw [bufferAt, h]

theorem bufferAt_some {n : Nat} {op : Op M} (h : ops n = some op) :
    bufferAt room ops (n + 1) = (bufferAt room ops n).apply room op := by
  rw [bufferAt, h]

/-- **Nothing is lost and nothing is counted twice.** -/
theorem total_bufferAt (n : Nat) :
    (bufferAt room ops n).total = (accepted room ops n).sum := by
  induction n with
  | zero => exact Buffer.total_empty
  | succ n ih =>
    rw [accepted, puts, List.filter_append, List.map_append, List.sum_append, ← accepted, ← ih]
    cases hop : ops n with
    | none => rw [bufferAt_none hop, List.filter_nil, List.map_nil, List.sum_nil, add_zero]
    | some op =>
      rw [bufferAt_some hop]
      cases op with
      | drain =>
        rw [Buffer.total_drain, List.filter_nil, List.map_nil, List.sum_nil, add_zero]
      | put a =>
        rw [Buffer.total_put]
        cases hroom : room (bufferAt room ops n).pending <;> simp [hroom]

/-- Portions that are read through `g` keep their sum up to `c`, if each of them does. -/
theorem portions_sum_congr (c : AddCon M) {g : M → M} {n : Nat}
    (h : ∀ x ∈ (bufferAt room ops n).portions, c (g x) x) :
    c (((bufferAt room ops n).drained.map g).sum + g (bufferAt room ops n).pending)
      (accepted room ops n).sum := by
  have hsum := c.list_sum h
  rw [Buffer.portions, List.map_append, List.map_singleton, List.sum_append, List.sum_singleton,
    List.map_id', ← Buffer.portions, Buffer.sum_portions, total_bufferAt] at hsum
  exact hsum

end History

/-! ## Portions as differences -/

section Group

/-- Steps `a`, …, `b - 1`, from the start or a drain to the next drain or to the moment `n`. -/
def Stretch (drains : Nat → Prop) (n a b : Nat) : Prop :=
  a ≤ b ∧ b ≤ n ∧ (a = 0 ∨ ∃ m, a = m + 1 ∧ drains m) ∧ (b = n ∨ drains b) ∧
    ∀ m, a ≤ m → m < b → ¬drains m

variable {M : Type*} [AddCommGroup M] (ops : Nat → Option (Op M))

def Drains (n : Nat) : Prop := ops n = some .drain

/-- The sum of the puts of the first `n` steps. -/
def putSum : Nat → M
  | 0 => 0
  | n + 1 => putSum n + match ops n with
    | some (.put a) => a
    | _ => 0

/-- Every put is accepted. -/
def always : M → Bool := fun _ => true

variable {ops}

theorem sum_accepted_always (n : Nat) : (accepted always ops n).sum = putSum ops n := by
  induction n with
  | zero => rfl
  | succ n ih =>
    rw [accepted, puts, List.filter_append, List.map_append, List.sum_append, ← accepted, ih,
      putSum]
    cases hop : ops n with
    | none => simp
    | some op => cases op <;> simp [always]

/-- What is pending came in since the last drain. -/
theorem pending_eq_sub (ops : Nat → Option (Op M)) (n : Nat) : ∃ a, Stretch (Drains ops) n a n ∧
    (bufferAt always ops n).pending = putSum ops n - putSum ops a := by
  induction n with
  | zero =>
    refine ⟨0, ⟨le_refl 0, le_refl 0, Or.inl rfl, Or.inl rfl, ?_⟩, (sub_self _).symm⟩
    intro m _ hm
    omega
  | succ n ih =>
    obtain ⟨a, ⟨han, -, hstart, -, hnone⟩, hpending⟩ := ih
    by_cases hdrain : ops n = some .drain
    · refine ⟨n + 1, ⟨le_refl _, le_refl _, Or.inr ⟨n, rfl, hdrain⟩, Or.inl rfl,
        fun m hm hm' => absurd hm' (by omega)⟩, ?_⟩
      rw [bufferAt_some hdrain, sub_self]
      rfl
    · refine ⟨a, ⟨by omega, le_refl _, hstart, Or.inl rfl, fun m ham hmn => ?_⟩, ?_⟩
      · rcases Nat.lt_succ_iff_lt_or_eq.mp hmn with hlt | rfl
        · exact hnone m ham hlt
        · exact hdrain
      · rw [putSum]
        cases hop : ops n with
        | none => rw [bufferAt_none hop, hpending, add_zero]
        | some op =>
          cases op with
          | drain => exact absurd hop hdrain
          | put x =>
            rw [bufferAt_some hop, Buffer.apply, if_pos (show always _ = true from rfl), hpending,
              sub_add_eq_add_sub]

theorem drained_eq_sub {n : Nat} {x : M} (hx : x ∈ (bufferAt always ops n).drained) :
    ∃ a b, b < n ∧ ops b = some .drain ∧ Stretch (Drains ops) b a b ∧
      x = putSum ops b - putSum ops a := by
  induction n with
  | zero => exact absurd hx List.not_mem_nil
  | succ n ih =>
    have hearlier (h : x ∈ (bufferAt always ops n).drained) : ∃ a b, b < n + 1 ∧
        ops b = some .drain ∧ Stretch (Drains ops) b a b ∧ x = putSum ops b - putSum ops a := by
      obtain ⟨a, b, hbn, hrest⟩ := ih h
      exact ⟨a, b, by omega, hrest⟩
    cases hop : ops n with
    | none => exact hearlier (by rwa [bufferAt_none hop] at hx)
    | some op =>
      rw [bufferAt_some hop] at hx
      cases op with
      | put a => exact hearlier hx
      | drain =>
        rcases List.mem_append.mp hx with hmem | hmem
        · exact hearlier hmem
        · obtain ⟨a, hstretch, hpending⟩ := pending_eq_sub ops n
          exact ⟨a, n, n.lt_succ_self, hop, hstretch, (List.mem_singleton.mp hmem).trans hpending⟩

/-- **Every portion is the sum of the puts of a stretch.** -/
theorem portion_eq_sub {n : Nat} {x : M} (hx : x ∈ (bufferAt always ops n).portions) :
    ∃ a b, Stretch (Drains ops) n a b ∧ x = putSum ops b - putSum ops a := by
  rcases List.mem_append.mp hx with hmem | hmem
  · obtain ⟨a, b, hbn, hdrain, ⟨hab, -, hstart, -, hnone⟩, hx⟩ := drained_eq_sub hmem
    exact ⟨a, b, ⟨hab, hbn.le, hstart, Or.inr hdrain, hnone⟩, hx⟩
  · obtain ⟨a, hstretch, hpending⟩ := pending_eq_sub ops n
    exact ⟨a, n, hstretch, (List.mem_singleton.mp hmem).trans hpending⟩

end Group

end Accumulator
