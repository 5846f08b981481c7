import Mathlib.Data.List.Induction
import Mathlib.Logic.Basic

/-!
# Sequences of calls

A state is changed by one call after another. What is proved of one call is carried over to every
sequence of them: along the history (`history`), or for each call in the state it is made in
(`each_iff`).
-/

namespace Calls

variable {σ α : Type*} {step : σ → α → σ} {s : σ}

/-- What holds at the start and is kept by each call holds of every history and the state after it. -/
theorem history {I : List α → σ → Prop} (hstart : I [] s)
    (hstep : ∀ l t c, I l t → I (l ++ [c]) (step t c)) (calls : List α) :
    I calls (calls.foldl step s) := by
  induction calls using List.reverseRecOn with
  | nil => exact hstart
  | append_singleton l c ih =>
    rw [List.foldl_append]
    exact hstep l _ c ih

/-- Two properties of a call that are the same under an invariant hold of the same sequences. -/
theorem each_iff {I : σ → Prop} {P Q : σ → α → Prop} (hstart : I s)
    (hstep : ∀ t c, I t → I (step t c)) (h : ∀ t c, I t → (P t c ↔ Q t c)) (calls : List α) :
    (∀ l c, l ++ [c] <+: calls → P (l.foldl step s) c) ↔
      ∀ l c, l ++ [c] <+: calls → Q (l.foldl step s) c := by
  have hinvariant (l : List α) : I (l.foldl step s) :=
    List.foldlRecOn l step hstart fun t ht c _ => hstep t c ht
  constructor
  · intro hP l c hl
    exact (h _ c (hinvariant l)).mp (hP l c hl)
  · intro hQ l c hl
    exact (h _ c (hinvariant l)).mpr (hQ l c hl)

/-- A property of the calls alone. -/
theorem each_iff_forall_mem {Q : α → Prop} (calls : List α) :
    (∀ l c, l ++ [c] <+: calls → Q c) ↔ ∀ c ∈ calls, Q c := by
  constructor
  · intro h c hc
    obtain ⟨l, rest, rfl⟩ := List.append_of_mem hc
    apply h l c
    rw [List.append_cons l c rest]
    exact List.prefix_append (l ++ [c]) rest
  · intro h l c hl
    exact h c (hl.subset (List.mem_append_right l (List.mem_singleton_self c)))

end Calls
