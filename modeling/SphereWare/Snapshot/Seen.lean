import Mathlib.Logic.Basic

/-!
# What is seen of a trace

An observer looks at the states of a trace one after the other, at each as often as they like or not
at all, and notes something down. `Seen R trace l` says that `l` may be their notes, where `R x b`
says that `b` is right about the state `x`. The notes are in the order of the trace: nothing older
is noted after something newer.
-/

namespace Snapshot

variable {τ υ β : Type} {R : τ → β → Prop}

inductive Seen (R : τ → β → Prop) : List τ → List β → Prop where
  | nil : Seen R [] []
  /-- The observer goes on to the next state. -/
  | next {x : τ} {trace : List τ} {l : List β} (h : Seen R trace l) : Seen R (x :: trace) l
  | look {x : τ} {trace : List τ} {b : β} {l : List β} (hb : R x b) (h : Seen R (x :: trace) l) :
    Seen R (x :: trace) (b :: l)

namespace Seen

/-- Nobody has to look. -/
theorem blind (trace : List τ) : Seen R trace [] := by
  induction trace with
  | nil => exact nil
  | cons x trace ih => exact ih.next

theorem single {x : τ} {l : List β} (hl : ∀ b ∈ l, R x b) : Seen R [x] l := by
  induction l with
  | nil => exact blind [x]
  | cons b l ih =>
    obtain ⟨hb, hrest⟩ := List.forall_mem_cons.mp hl
    exact (ih hrest).look hb

/-- Of no state nothing is seen. -/
theorem eq_nil {l : List β} (h : Seen R [] l) : l = [] := by
  cases h
  rfl

/-- An observer who begins with the state another one has ended with. -/
theorem glue {pre post : List τ} {x : τ} {l l' : List β} (h : Seen R (pre ++ [x]) l)
    (h' : Seen R (x :: post) l') : Seen R (pre ++ x :: post) (l ++ l') := by
  generalize htrace : pre ++ [x] = trace at h
  induction h generalizing pre with
  | nil => simp at htrace
  | @next y trace l h ih =>
    cases pre with
    | nil =>
      obtain ⟨-, rfl⟩ := List.cons.inj htrace
      rw [h.eq_nil]
      exact h'
    | cons z pre =>
      obtain ⟨-, htail⟩ := List.cons.inj htrace
      exact (ih htail).next
  | @look y trace b l hb h ih =>
    have hrest := ih htrace
    cases pre with
    | nil =>
      obtain ⟨rfl, -⟩ := List.cons.inj htrace
      exact hrest.look hb
    | cons z pre =>
      obtain ⟨rfl, -⟩ := List.cons.inj htrace
      exact hrest.look hb

/-- What is right about a part of the state is right about the state. -/
theorem of_map {f : υ → τ} {trace : List υ} {l : List β} (h : Seen R (trace.map f) l) :
    Seen (fun x => R (f x)) trace l := by
  generalize hparts : trace.map f = parts at h
  induction h generalizing trace with
  | nil =>
    rw [List.map_eq_nil_iff.mp hparts]
    exact nil
  | next h ih =>
    obtain ⟨y, rest, rfl, -, hrest⟩ := List.map_eq_cons_iff.mp hparts
    exact (ih hrest).next
  | look hb h ih =>
    have hrest := ih hparts
    obtain ⟨y, rest, rfl, rfl, -⟩ := List.map_eq_cons_iff.mp hparts
    exact hrest.look hb

end Seen

end Snapshot
