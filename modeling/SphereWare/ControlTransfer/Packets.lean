import Mathlib.Data.List.Basic

/-!
# Data in packets

A transfer cuts its data into packets of one size. Only the last packet may be shorter.
-/

namespace ControlTransfer

variable {α : Type}

/-- The packets for the data that are left, with the packet begun in `packet`. -/
def cutFrom (size : Nat) (packet : List α) : List α → List (List α)
  | [] => if packet.isEmpty then [] else [packet]
  | b :: bs =>
    if packet.length + 1 = size then (packet ++ [b]) :: cutFrom size [] bs
    else cutFrom size (packet ++ [b]) bs

/-- The packets of a transfer. -/
def cut (size : Nat) (data : List α) : List (List α) := cutFrom size [] data

variable {size : Nat}

theorem flatten_cutFrom (packet data : List α) :
    (cutFrom size packet data).flatten = packet ++ data := by
  induction data generalizing packet with
  | nil =>
    rw [cutFrom]
    split
    · next hnil => simp [List.isEmpty_iff.mp hnil]
    · simp
  | cons b bs ih =>
    rw [cutFrom]
    split
    · rw [List.flatten_cons, ih]
      simp
    · rw [ih]
      simp

/-- Nothing is lost and nothing moved. -/
theorem flatten_cut (data : List α) : (cut size data).flatten = data :=
  flatten_cutFrom [] data

theorem ne_nil_of_mem_cutFrom {packet data p : List α} (h : p ∈ cutFrom size packet data) :
    p ≠ [] := by
  induction data generalizing packet with
  | nil =>
    rw [cutFrom] at h
    split at h
    · simp at h
    · next hne =>
      rw [List.mem_singleton.mp h]
      exact fun hnil => hne (List.isEmpty_iff.mpr hnil)
  | cons b bs ih =>
    rw [cutFrom] at h
    split at h
    · rcases List.mem_cons.mp h with rfl | h
      · simp
      · exact ih h
    · exact ih h

/-- A divisor of the size and of the length divides the length of every packet. -/
theorem dvd_length_of_mem_cutFrom {d : Nat} {packet data p : List α} (hsize : d ∣ size)
    (hlength : d ∣ packet.length + data.length) (h : p ∈ cutFrom size packet data) :
    d ∣ p.length := by
  induction data generalizing packet with
  | nil =>
    rw [cutFrom] at h
    split at h
    · simp at h
    · rw [List.mem_singleton.mp h]
      exact hlength
  | cons b bs ih =>
    rw [List.length_cons, ← Nat.add_assoc, Nat.add_right_comm] at hlength
    rw [cutFrom] at h
    split at h
    · next hfull =>
      rcases List.mem_cons.mp h with rfl | h
      · rw [List.length_append, List.length_singleton, hfull]
        exact hsize
      · refine ih ?_ h
        rw [List.length_nil, Nat.zero_add]
        exact (Nat.dvd_add_right (hfull ▸ hsize)).mp hlength
    · refine ih ?_ h
      rwa [List.length_append, List.length_singleton]

end ControlTransfer
