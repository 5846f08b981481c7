import Mathlib.Data.List.Basic

/-!
# Paged flash memory

A flash memory of `numPages` pages is erased and written one page at a time. A page is put together
in a buffer word by word before it is written. The operations take a byte address modulo the size of
the memory; erasing and writing act on the page it lies in.
-/

namespace Flash

/-- The shape of a memory. A page has `pageSize` bytes. -/
structure Geometry where
  pageSize : Nat
  numPages : Nat
  pageSize_pos : 0 < pageSize
  numPages_pos : 0 < numPages

namespace Geometry

variable (g : Geometry)

def size : Nat := g.pageSize * g.numPages

/-- The page an address selects. -/
def pageOf (address : Nat) : Nat := address % g.size / g.pageSize

theorem pageOf_lt (address : Nat) : g.pageOf address < g.numPages := by
  have hsize : 0 < g.size := Nat.mul_pos g.pageSize_pos g.numPages_pos
  rw [pageOf, Nat.div_lt_iff_lt_mul g.pageSize_pos, Nat.mul_comm]
  exact Nat.mod_lt _ hsize

end Geometry

theorem ones_and (b : UInt8) : 0xFF &&& b = b := by
  rw [← UInt8.toBitVec_inj]
  exact BitVec.allOnes_and

/-- The contents of the memory and of the page buffer, and the pages erased or written so far. -/
structure Memory where
  bytes : Nat → UInt8
  buffer : Nat → UInt8
  touched : List Nat

namespace Memory

variable (g : Geometry) (m : Memory)

/-- `boot_page_erase` -/
def erase (address : Nat) : Memory :=
  { m with
    bytes := fun a => if a / g.pageSize = g.pageOf address then 0xFF else m.bytes a
    touched := m.touched ++ [g.pageOf address] }

/-- `boot_page_fill`: the two bytes of a word go into the buffer. -/
def fill (address : Nat) (word : BitVec 16) : Memory :=
  let offset := address % g.pageSize / 2 * 2
  { m with
    buffer := fun i =>
      if i = offset then UInt8.ofNat (word.toNat % 256)
      else if i = offset + 1 then UInt8.ofNat (word.toNat / 256)
      else m.buffer i }

/-- `boot_page_write`: writing clears bits and sets none, and leaves the buffer erased. -/
def write (address : Nat) : Memory :=
  { bytes := fun a =>
      if a / g.pageSize = g.pageOf address then m.bytes a &&& m.buffer (a % g.pageSize)
      else m.bytes a
    buffer := fun _ => 0xFF
    touched := m.touched ++ [g.pageOf address] }

/-- The bytes with those of one page replaced. -/
def setPage (page : Nat) (data : Nat → UInt8) (bytes : Nat → UInt8) : Nat → UInt8 :=
  fun a => if a / g.pageSize = page then data (a % g.pageSize) else bytes a

/-- No page other than `page` has been erased, written or changed since `m`. -/
structure OnlyPage (page : Nat) (m m' : Memory) : Prop where
  bytes : ∀ a, a / g.pageSize ≠ page → m'.bytes a = m.bytes a
  touched : ∃ l, m'.touched = m.touched ++ l ∧ ∀ p ∈ l, p = page

variable {g m}

theorem OnlyPage.refl (page : Nat) : OnlyPage g page m m :=
  ⟨fun _ _ => rfl, [], (List.append_nil _).symm, by simp⟩

theorem OnlyPage.trans {page : Nat} {m₁ m₂ m₃ : Memory} (h₁ : OnlyPage g page m₁ m₂)
    (h₂ : OnlyPage g page m₂ m₃) : OnlyPage g page m₁ m₃ := by
  obtain ⟨l₁, hl₁, hpage₁⟩ := h₁.touched
  obtain ⟨l₂, hl₂, hpage₂⟩ := h₂.touched
  refine ⟨fun a ha => (h₂.bytes a ha).trans (h₁.bytes a ha), l₁ ++ l₂, ?_, fun p hp => ?_⟩
  · rw [hl₂, hl₁, List.append_assoc]
  · rw [List.mem_append] at hp
    exact hp.elim (hpage₁ p) (hpage₂ p)

theorem onlyPage_erase (address : Nat) : OnlyPage g (g.pageOf address) m (m.erase g address) :=
  ⟨fun _ ha => if_neg ha, [g.pageOf address], rfl, by simp⟩

theorem onlyPage_write (address : Nat) : OnlyPage g (g.pageOf address) m (m.write g address) :=
  ⟨fun _ ha => if_neg ha, [g.pageOf address], rfl, by simp⟩

theorem onlyPage_fill (page address : Nat) (word : BitVec 16) :
    OnlyPage g page m (m.fill g address word) :=
  ⟨fun _ _ => rfl, [], (List.append_nil _).symm, by simp⟩

/-! ## A whole page -/

/-- A word goes to the two cells of the buffer it is addressed to. -/
theorem buffer_fill_word {address k : Nat} (haddress : address % g.pageSize = 2 * k)
    (word : BitVec 16) (i : Nat) :
    (m.fill g address word).buffer i
      = if i = 2 * k then UInt8.ofNat (word.toNat % 256)
        else if i = 2 * k + 1 then UInt8.ofNat (word.toNat / 256) else m.buffer i := by
  have hoffset : address % g.pageSize / 2 * 2 = 2 * k := by omega
  simp only [fill, hoffset]

/-- A page that has been erased takes what is in the buffer. -/
theorem bytes_write {address : Nat}
    (herased : ∀ a, a / g.pageSize = g.pageOf address → m.bytes a = 0xFF) :
    (m.write g address).bytes = setPage g (g.pageOf address) m.buffer m.bytes := by
  funext a
  unfold write setPage
  by_cases hpage : a / g.pageSize = g.pageOf address
  · simp only [if_pos hpage, herased a hpage]
    exact ones_and _
  · simp only [if_neg hpage]

end Memory

end Flash
