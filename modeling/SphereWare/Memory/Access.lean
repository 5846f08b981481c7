import Mathlib.Data.Vector.Defs
import Mathlib.Logic.Function.Basic

/-!
# Programs that use an array

A program that reads and writes one array, element by element. It can be run in two ways: on an
unbounded memory (`run`), where no index is out of bounds, and on an array of a given length
(`runOn`), where such an access has no result. `indices` lists the elements it uses.

`runOn_isSome_iff` — an array is long enough exactly if all these indices are below its length;
then both runs agree (`runOn_eq_some`).
-/

namespace Memory

variable {α β γ δ : Type}

/-- A program over an array with elements `β` that returns an `α`. -/
inductive Access (β α : Type) where
  | ret (a : α)
  | load (i : Nat) (k : β → Access β α)
  | store (i : Nat) (b : β) (k : Access β α)

namespace Access

def bind : Access β α → (α → Access β γ) → Access β γ
  | ret a, q => q a
  | load i k, q => load i fun b => (k b).bind q
  | store i b k, q => store i b (k.bind q)

instance : Monad (Access β) where
  pure := ret
  bind := bind

@[simp] theorem pure_eq (a : α) : (pure a : Access β α) = ret a := rfl

@[simp] theorem bind_eq (p : Access β α) (q : α → Access β γ) : (p >>= q) = p.bind q := rfl

/-- Reads an element. -/
def get (i : Nat) : Access β β := load i ret

/-- Writes an element. -/
def set (i : Nat) (b : β) : Access β Unit := store i b (ret ())

/-- Reads the elements at the indices `l`. -/
def getAll : List Nat → Access β (List β)
  | [] => ret []
  | i :: l => load i fun b => (getAll l).bind fun bs => ret (b :: bs)

/-- Writes `b` to the elements at the indices `l`. -/
def setAll (b : β) : List Nat → Access β Unit
  | [] => ret ()
  | i :: l => store i b (setAll b l)

/-! ## Runs on a memory without bounds -/

def run : Access β α → (Nat → β) → α × (Nat → β)
  | ret a, m => (a, m)
  | load i k, m => (k (m i)).run m
  | store i b k, m => k.run (Function.update m i b)

/-- The indices used, in the order of use. -/
def indices : Access β α → (Nat → β) → List Nat
  | ret _, _ => []
  | load i k, m => i :: (k (m i)).indices m
  | store i b k, m => i :: k.indices (Function.update m i b)

/-- All indices used are below the length. -/
def Within (len : Nat) (p : Access β α) (m : Nat → β) : Prop := ∀ i ∈ p.indices m, i < len

variable (m : Nat → β)

@[simp] theorem run_ret (a : α) : (ret a : Access β α).run m = (a, m) := rfl

@[simp] theorem run_bind (p : Access β α) (q : α → Access β γ) :
    (p.bind q).run m = (q (p.run m).1).run (p.run m).2 := by
  induction p generalizing m with
  | ret a => rfl
  | load i k ih => exact ih (m i) m
  | store i b k ih => exact ih (Function.update m i b)

@[simp] theorem run_get (i : Nat) : (get i : Access β β).run m = (m i, m) := rfl

@[simp] theorem run_set (i : Nat) (b : β) :
    (set i b).run m = ((), Function.update m i b) := rfl

@[simp] theorem run_getAll (l : List Nat) : (getAll l).run m = (l.map m, m) := by
  induction l with
  | nil => rfl
  | cons i l ih => simp only [getAll, run, run_bind, ih, List.map_cons]

@[simp] theorem run_setAll (b : β) (l : List Nat) :
    (setAll b l).run m = ((), fun j => if j ∈ l then b else m j) := by
  induction l generalizing m with
  | nil => simp [setAll]
  | cons i l ih =>
    rw [setAll, run, ih]
    refine Prod.ext rfl (funext fun j => ?_)
    by_cases hl : j ∈ l
    · simp [hl]
    · by_cases hj : j = i <;> simp [hl, hj]

@[simp] theorem indices_ret (a : α) : (ret a : Access β α).indices m = [] := rfl

@[simp] theorem indices_bind (p : Access β α) (q : α → Access β γ) :
    (p.bind q).indices m = p.indices m ++ (q (p.run m).1).indices (p.run m).2 := by
  induction p generalizing m with
  | ret a => rfl
  | load i k ih => exact congrArg (i :: ·) (ih (m i) m)
  | store i b k ih => exact congrArg (i :: ·) (ih (Function.update m i b))

@[simp] theorem indices_get (i : Nat) : (get i : Access β β).indices m = [i] := rfl

@[simp] theorem indices_set (i : Nat) (b : β) : (set i b).indices m = [i] := rfl

@[simp] theorem indices_getAll (l : List Nat) : (getAll l).indices m = l := by
  induction l with
  | nil => rfl
  | cons i l ih => simp [getAll, indices, ih]

@[simp] theorem indices_setAll (b : β) (l : List Nat) : (setAll b l).indices m = l := by
  induction l generalizing m with
  | nil => rfl
  | cons i l ih => simp [setAll, indices, ih]

/-! ## Runs on an array -/

variable {n : Nat}

/-- The run on an array of length `n`; `none` if an access is out of bounds. -/
def runOn : Access β α → Vector β n → Option (α × Vector β n)
  | ret a, v => some (a, v)
  | load i k, v => if h : i < n then (k v[i]).runOn v else none
  | store i b k, v => if h : i < n then k.runOn (v.set i b h) else none

/-- The memory begins with the array. -/
def Represents (v : Vector β n) (m : Nat → β) : Prop := ∀ i (h : i < n), v[i] = m i

theorem Represents.set {v : Vector β n} {m : Nat → β} (hv : Represents v m) {i : Nat}
    (hi : i < n) (b : β) : Represents (v.set i b hi) (Function.update m i b) := by
  intro j hj
  rcases eq_or_ne j i with rfl | hne
  · rw [Vector.getElem_set_self, Function.update_self]
  · rw [Vector.getElem_set_ne hi hj (Ne.symm hne), Function.update_of_ne hne, hv j hj]

/-- **An array is long enough exactly if all indices used are below its length.** -/
theorem runOn_isSome_iff (p : Access β α) {v : Vector β n} {m : Nat → β} (hv : Represents v m) :
    (p.runOn v).isSome = true ↔ p.Within n m := by
  induction p generalizing v m with
  | ret a => simp [runOn, Within]
  | load i k ih =>
    rw [runOn, Within, indices, List.forall_mem_cons]
    by_cases hi : i < n
    · rw [dif_pos hi, hv i hi, ih (m i) hv]
      exact ⟨fun h => ⟨hi, h⟩, fun h => h.2⟩
    · rw [dif_neg hi]
      exact ⟨fun h => absurd h (by simp), fun h => absurd h.1 hi⟩
  | store i b k ih =>
    rw [runOn, Within, indices, List.forall_mem_cons]
    by_cases hi : i < n
    · rw [dif_pos hi, ih (hv.set hi b)]
      exact ⟨fun h => ⟨hi, h⟩, fun h => h.2⟩
    · rw [dif_neg hi]
      exact ⟨fun h => absurd h (by simp), fun h => absurd h.1 hi⟩

/-- A run on an array returns what a run on the memory returns, and leaves the same elements. -/
theorem runOn_eq_some (p : Access β α) {v w : Vector β n} {m : Nat → β} (hv : Represents v m)
    {a : α} (hrun : p.runOn v = some (a, w)) : a = (p.run m).1 ∧ Represents w (p.run m).2 := by
  induction p generalizing v m with
  | ret b =>
    simp only [runOn, Option.some.injEq, Prod.mk.injEq] at hrun
    obtain ⟨rfl, rfl⟩ := hrun
    exact ⟨rfl, hv⟩
  | load i k ih =>
    rw [runOn] at hrun
    split at hrun
    · next hi =>
      rw [hv i hi] at hrun
      exact ih (m i) hv hrun
    · exact absurd hrun (by simp)
  | store i b k ih =>
    rw [runOn] at hrun
    split at hrun
    · next hi => exact ih (hv.set hi b) hrun
    · exact absurd hrun (by simp)

end Access

end Memory
