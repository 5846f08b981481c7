import SphereWare.Spec.HexLine

/-!
# What the loader accepts

`read_intel_hex` tests the checksums of data records. A wrong checksum in any other record does not
stop it. Neither does a data record that runs over the end of the 32-bit address space, for the
guard is computed in 32 bits.
-/

namespace SphereWare.Loader

open IntelHex

/-! ## Conditions on the records -/

/-- The base after a record, as the source has it. -/
def nextBase (base : Nat) (r : Record) : Nat :=
  match r.kind.toNat, r.data with
  | 2, [high, low] => if r.Sound then (high.toNat * 256 + low.toNat) * 16 else base
  | 4, [high, low] => if r.Sound then (high.toNat * 256 + low.toNat) * 65536 else base
  | _, _ => base

/-- A record up to the end meets the condition, with the base in force. -/
def Meets (P : Nat → Record → Prop) : Nat → List Record → Prop
  | _, [] => False
  | base, r :: rs => P base r ∨ r.kind ≠ 1 ∧ Meets P (nextBase base r) rs

/-- The source does not take the record: it ends too high, or is one of data and not sound. -/
def Refuses (base : Nat) (r : Record) : Prop :=
  maxMemorySize ≤ (base + r.address.toNat + r.data.length) % 2 ^ 32 ∨ r.kind = 0 ∧ ¬r.Sound

/-- The data reach the end of the 32-bit address space. -/
def Reaches (base : Nat) (r : Record) : Prop :=
  r.kind = 0 ∧ 2 ^ 32 ≤ base + r.address.toNat + r.data.length

theorem not_meets_cons {P : Nat → Record → Prop} {base : Nat} {r : Record} {rs : List Record} :
    ¬Meets P base (r :: rs) ↔ ¬P base r ∧ (r.kind ≠ 1 → ¬Meets P (nextBase base r) rs) := by
  rw [Meets, not_or, not_and]

/-! ## What is loaded -/

/-- The variables hold what the records mean, all of it. -/
structure Agrees (s : Statics) (m : Image) : Prop where
  image : ∀ a < maxMemorySize, s.firmwareImage a = (m.bytes a).getD 0xFF
  mask : ∀ a < maxMemorySize, s.firmwareMask a = (m.bytes a).isSome
  inside : ∀ a, maxMemorySize ≤ a → m.bytes a = none

/-- The file was read right. -/
structure LoadedRight (rs : List Record) (n : Int) (s : Statics) : Prop where
  sound : ∀ r ∈ upToEnd rs, r.Sound
  agrees : Agrees s (contents rs)
  count : n = dataLength rs

/-! ## One record -/

variable {s : Statics} {m : Image} {r : Record} {rs : List Record}

theorem kind_eq_zero_iff : r.kind = 0 ↔ r.kind.toNat = 0 := by
  rw [← UInt8.toNat_inj]
  rfl

theorem kind_eq_one_iff : r.kind = 1 ↔ r.kind.toNat = 1 := by
  rw [← UInt8.toNat_inj]
  rfl

/-- Storing bytes changes the arrays only. -/
theorem storeAll_scalars (start : Int) (bs : List UInt8) (s : Statics) :
    (s.storeAll start bs).endRecordSeen = s.endRecordSeen ∧
      (s.storeAll start bs).byteCount = s.byteCount ∧
        (s.storeAll start bs).extendedAddr = s.extendedAddr := by
  induction bs generalizing start s with
  | nil => exact ⟨rfl, rfl, rfl⟩
  | cons b bs ih => exact ih (start + 1) (s.store (u32 start) b)

theorem storeAll_cells {start : Nat} {bs : List UInt8} (h : start + bs.length ≤ 2 ^ 32)
    (s : Statics) (a : Nat) :
    (s.storeAll start bs).firmwareImage a
        = (if start ≤ a then (bs[a - start]?).getD (s.firmwareImage a) else s.firmwareImage a) ∧
      (s.storeAll start bs).firmwareMask a
        = ((decide (start ≤ a) && (bs[a - start]?).isSome) || s.firmwareMask a) := by
  induction bs generalizing start s with
  | nil => simp [Statics.storeAll]
  | cons b bs ih =>
    rw [List.length_cons] at h
    have hindex : u32 (start : Int) = start := by
      unfold u32
      omega
    have hnext : (start : Int) + 1 = (start + 1 : Nat) := by omega
    have hfits : start + 1 + bs.length ≤ 2 ^ 32 := by omega
    obtain ⟨himage, hmask⟩ := ih hfits (s.store start b)
    rw [Statics.storeAll, hindex, hnext, himage, hmask]
    rcases Nat.lt_trichotomy a start with hlt | rfl | hgt
    · simp [Statics.store, Function.update_of_ne hlt.ne, show ¬start ≤ a by omega,
        show ¬start + 1 ≤ a by omega]
    · simp [Statics.store]
    · obtain ⟨k, rfl⟩ : ∃ k, a = start + 1 + k := ⟨a - (start + 1), by omega⟩
      simp [Statics.store, Function.update_of_ne hgt.ne', show start ≤ start + 1 + k by omega,
        show start + 1 + k - start = k + 1 by omega]

theorem u32_ends (base : Nat) (r : Record) :
    u32 ((r.address.toNat : Int) + base + r.data.length)
      = (base + r.address.toNat + r.data.length) % 2 ^ 32 := by
  unfold u32
  omega

/-- The value of an address record fits, as far as it is shifted. -/
theorem u32_shift (high low : UInt8) {shift : Nat} (h : shift ≤ 16) :
    u32 ((high.toNat * 256 + low.toNat : Nat) * 2 ^ shift)
      = (high.toNat * 256 + low.toNat) * 2 ^ shift := by
  have hhigh := high.toNat_lt
  have hlow := low.toNat_lt
  have hvalue : (high.toNat * 256 + low.toNat) * 2 ^ shift < 2 ^ 16 * 2 ^ 16 :=
    Nat.mul_lt_mul_of_lt_of_le (by omega) (Nat.pow_le_pow_right (by decide) h) (by decide)
  unfold u32
  norm_cast
  omega

theorem refused_iff (s : Statics) (r : Record) :
    (s.take r).1 = false ↔ Refuses s.extendedAddr r := by
  rw [Statics.take, u32_ends, Refuses, kind_eq_zero_iff]
  generalize (s.extendedAddr + r.address.toNat + r.data.length) % 2 ^ 32 = n
  split
  · next hhigh => simp [hhigh]
  · next hlow =>
    split
    · next hkind => simp [hlow, hkind]
    · next hkind =>
      rw [ne_eq, not_not] at hkind
      simp [hlow, hkind]

/-- What a record that is taken does, but for the arrays. -/
theorem take_scalars (h : ¬Refuses s.extendedAddr r) :
    (s.take r).2.extendedAddr = nextBase s.extendedAddr r ∧
      (s.take r).2.endRecordSeen = (s.endRecordSeen || decide (r.kind = 1)) ∧
        (s.take r).2.byteCount = if r.kind = 0 then i32 (s.byteCount + r.dataBytes)
          else s.byteCount := by
  have hends : ¬maxMemorySize ≤ u32 (r.address.toNat + s.extendedAddr + r.data.length) := by
    rw [u32_ends]
    exact fun hhigh => h (Or.inl hhigh)
  rw [Statics.take, if_neg hends, nextBase, Record.dataBytes]
  simp only [kind_eq_zero_iff, kind_eq_one_iff]
  by_cases hkind : r.kind.toNat = 0
  · obtain ⟨hend, hcount, hbase⟩ := storeAll_scalars (r.address.toNat + s.extendedAddr) r.data
      { s with byteCount := i32 (s.byteCount + r.data.length) }
    simp [hkind, hend, hcount, hbase]
  · rw [if_pos hkind]
    unfold Statics.takeOther
    split
    · next hend => simp [hend]
    · next high low hsegment hdata =>
      have hvalue := u32_shift high low (show 4 ≤ 16 by decide)
      simp only [hsegment, hdata, hvalue]
      by_cases hsound : r.Sound <;> simp [hsound]
    · next high low hlinear hdata =>
      have hvalue := u32_shift high low (Nat.le_refl 16)
      simp only [hlinear, hdata, hvalue]
      by_cases hsound : r.Sound <;> simp [hsound]
    · next hend hsegment hlinear =>
      have hkind₁ : r.kind.toNat ≠ 1 := hend
      simp [hkind, hkind₁]

/-- A sound record moves the base as it is to. -/
theorem base_load (hsound : r.Sound) : (m.load r).base = nextBase m.base r := by
  unfold Image.load nextBase
  split
  · next hkind => simp [hkind, Image.place]
  · next high low hkind hdata => simp [hkind, hdata, hsound]
  · next high low hkind hdata => simp [hkind, hdata, hsound]
  · next hzero hsegment hlinear =>
    split
    · next high low hkind hdata => exact (hsegment high low hkind hdata).elim
    · next high low hkind hdata => exact (hlinear high low hkind hdata).elim
    · rfl

/-- A record of data places them. -/
theorem load_data (hkind : r.kind.toNat = 0) :
    m.load r = m.place (m.base + r.address.toNat) r.data := by
  unfold Image.load
  split
  · rfl
  · next high low hsegment hdata => omega
  · next high low hlinear hdata => omega
  · next hzero hsegment hlinear => exact (hzero hkind).elim

/-- A record that is not of data places nothing. -/
theorem bytes_load (hkind : r.kind.toNat ≠ 0) : (m.load r).bytes = m.bytes := by
  unfold Image.load
  split
  · next hzero => exact absurd hzero hkind
  all_goals rfl

theorem takeOther_cells (s : Statics) (r : Record) :
    (s.takeOther r).firmwareImage = s.firmwareImage ∧
      (s.takeOther r).firmwareMask = s.firmwareMask := by
  unfold Statics.takeOther
  split
  · exact ⟨rfl, rfl⟩
  · split <;> exact ⟨rfl, rfl⟩
  · split <;> exact ⟨rfl, rfl⟩
  · exact ⟨rfl, rfl⟩

/-- Bytes stored where the array has cells. -/
theorem Agrees.storeAll (h : Agrees s m) {start : Nat} {bs : List UInt8}
    (hends : start + bs.length < maxMemorySize) :
    Agrees (s.storeAll start bs) (m.place start bs) := by
  have hsize : start + bs.length ≤ 2 ^ 32 := Nat.le_trans hends.le (by decide)
  refine ⟨fun a ha => ?_, fun a ha => ?_, fun a ha => ?_⟩
  · rw [(storeAll_cells hsize s a).1, Image.place, h.image a ha]
    dsimp only
    split
    · cases bs[a - start]? with
      | none => rfl
      | some b => rfl
    · rfl
  · rw [(storeAll_cells hsize s a).2, Image.place, h.mask a ha]
    dsimp only
    split
    · next hle => simp [hle, Option.isSome_or]
    · next hgt => simp [hgt]
  · have houtside : bs[a - start]? = none := by
      rw [List.getElem?_eq_none_iff]
      omega
    simp [Image.place, houtside, h.inside a ha]

/-- A record that is taken, sound and does not reach the end, does what it means. -/
theorem Agrees.take (h : Agrees s m) (hbase : s.extendedAddr = m.base) (hsound : r.Sound)
    (htaken : ¬Refuses s.extendedAddr r) (hends : ¬Reaches s.extendedAddr r) :
    (s.take r).2.extendedAddr = (m.load r).base ∧ Agrees (s.take r).2 (m.load r) := by
  have hguard : ¬maxMemorySize ≤ u32 (r.address.toNat + s.extendedAddr + r.data.length) := by
    rw [u32_ends]
    exact fun hhigh => htaken (Or.inl hhigh)
  constructor
  · rw [(take_scalars htaken).1, base_load hsound, hbase]
  rw [Statics.take, if_neg hguard]
  by_cases hkind : r.kind.toNat = 0
  · have hlow : s.extendedAddr + r.address.toNat + r.data.length < maxMemorySize := by
      rw [u32_ends] at hguard
      rw [Reaches, kind_eq_zero_iff, not_and] at hends
      have := hends hkind
      omega
    have hload : m.load r = m.place (r.address.toNat + s.extendedAddr) r.data := by
      rw [load_data hkind, hbase, Nat.add_comm]
    have hcast : (r.address.toNat : Int) + s.extendedAddr
        = (r.address.toNat + s.extendedAddr : Nat) := by
      omega
    rw [if_neg (not_not.mpr hkind), hload, hcast]
    have hsame : Agrees { s with byteCount := i32 (s.byteCount + r.data.length) } m :=
      ⟨h.image, h.mask, h.inside⟩
    exact hsame.storeAll (by omega)
  · obtain ⟨himage, hmask⟩ := takeOther_cells s r
    rw [if_pos hkind]
    refine ⟨?_, ?_, ?_⟩
    · rw [himage, bytes_load hkind]
      exact h.image
    · rw [hmask, bytes_load hkind]
      exact h.mask
    · rw [bytes_load hkind]
      exact h.inside

/-! ## The whole file -/

theorem takeAll_of_refused (h : Refuses s.extendedAddr r) (rs : List Record) :
    (takeAll (r :: rs) s).1 = -2 := by
  rw [← refused_iff] at h
  rw [takeAll, h, if_neg Bool.false_ne_true]

theorem takeAll_of_taken (hend : s.endRecordSeen = false) (h : ¬Refuses s.extendedAddr r)
    (rs : List Record) : takeAll (r :: rs) s
      = if r.kind = 1 then ((s.take r).2.byteCount, (s.take r).2)
        else takeAll rs (s.take r).2 := by
  have hgo : (s.take r).1 = true := by
    rw [← refused_iff, Bool.not_eq_false] at h
    exact h
  have hseen : (s.take r).2.endRecordSeen = decide (r.kind = 1) := by
    rw [(take_scalars h).2.1, hend, Bool.false_or]
  rw [takeAll, hgo, if_pos rfl, hseen]
  by_cases hkind : r.kind = 1 <;> simp [hkind]

/-- After a record that is not the end record the file goes on. -/
theorem take_goesOn (hend : s.endRecordSeen = false) (h : ¬Refuses s.extendedAddr r)
    (hkind : r.kind ≠ 1) : (s.take r).2.endRecordSeen = false := by
  rw [(take_scalars h).2.1, hend, Bool.false_or, decide_eq_false hkind]

/-- A file with a record that is refused is not accepted. -/
theorem takeAll_refused (rs : List Record) {s : Statics} (hend : s.endRecordSeen = false)
    (h : Meets Refuses s.extendedAddr rs) : (takeAll rs s).1 = -2 := by
  induction rs generalizing s with
  | nil => exact h.elim
  | cons r rs ih =>
    by_cases hrefused : Refuses s.extendedAddr r
    · exact takeAll_of_refused hrefused rs
    · rcases h with hfirst | ⟨hkind, hlater⟩
      · exact absurd hfirst hrefused
      · rw [takeAll_of_taken hend hrefused, if_neg hkind]
        rw [← (take_scalars hrefused).1] at hlater
        exact ih (take_goesOn hend hrefused hkind) hlater

theorem i32_add (x y : Int) : i32 (i32 x + y) = i32 (x + y) := by
  unfold i32
  omega

/-- The count of a file that is accepted, in 32 bits. -/
theorem takeAll_count (rs : List Record) {s : Statics} (hend : s.endRecordSeen = false)
    (hcount : i32 s.byteCount = s.byteCount) (h : ¬Meets Refuses s.extendedAddr rs) :
    (takeAll rs s).1 = i32 (s.byteCount + dataLength rs) := by
  induction rs generalizing s with
  | nil => simp [takeAll, dataLength, upToEnd, hcount]
  | cons r rs ih =>
    obtain ⟨htaken, hlater⟩ := not_meets_cons.mp h
    obtain ⟨hbase, -, hbytes⟩ := take_scalars htaken
    have hbytes' : (s.take r).2.byteCount = i32 (s.byteCount + r.dataBytes) := by
      rw [hbytes]
      split
      · rfl
      · next hkind => simp [Record.dataBytes, hkind, hcount]
    rw [takeAll_of_taken hend htaken]
    split
    · next hkind => simp [hbytes', dataLength, upToEnd, hkind]
    · next hkind =>
      have hlength : (dataLength (r :: rs) : Int) = r.dataBytes + dataLength rs := by
        simp [dataLength, upToEnd, hkind]
      rw [ih (take_goesOn hend htaken hkind) ?_ ?_, hbytes', hlength, i32_add, Int.add_assoc]
      · rw [hbytes', ← Int.add_zero (i32 (s.byteCount + _)), i32_add, Int.add_zero, Int.add_zero]
      · rw [hbase]
        exact hlater hkind

/-- **A file that is accepted, with all checksums right and no data at the end, is read right.** -/
theorem takeAll_agrees (rs : List Record) {s : Statics} {m : Image}
    (hend : s.endRecordSeen = false) (hagrees : Agrees s m) (hbase : s.extendedAddr = m.base)
    (htaken : ¬Meets Refuses s.extendedAddr rs) (hends : ¬Meets Reaches s.extendedAddr rs)
    (hsound : ∀ r ∈ upToEnd rs, r.Sound) :
    Agrees (takeAll rs s).2 ((upToEnd rs).foldl Image.load m) := by
  induction rs generalizing s m with
  | nil => exact hagrees
  | cons r rs ih =>
    obtain ⟨htaken₁, htaken⟩ := not_meets_cons.mp htaken
    obtain ⟨hends₁, hends⟩ := not_meets_cons.mp hends
    have hsound₁ : r.Sound := by
      apply hsound
      rw [upToEnd]
      split <;> simp
    obtain ⟨hbase', hagrees'⟩ := hagrees.take hbase hsound₁ htaken₁ hends₁
    rw [takeAll_of_taken hend htaken₁, upToEnd]
    split
    · exact hagrees'
    · next hkind =>
      have hnext := (take_scalars htaken₁).1
      refine ih (take_goesOn hend htaken₁ hkind) hagrees' hbase' ?_ ?_ fun r' hr' => ?_
      · rw [hnext]
        exact htaken hkind
      · rw [hnext]
        exact hends hkind
      · apply hsound
        rw [upToEnd, if_neg hkind]
        exact List.mem_cons_of_mem r hr'

theorem nextBase_le {base : Nat} (h : base ≤ 65535 * 65536) (r : Record) :
    nextBase base r ≤ 65535 * 65536 := by
  unfold nextBase
  split
  · next high low hkind hdata =>
    have hhigh := high.toNat_lt
    have hlow := low.toNat_lt
    split <;> omega
  · next high low hkind hdata =>
    have hhigh := high.toNat_lt
    have hlow := low.toNat_lt
    split <;> omega
  · exact h

/-- Data that reach the end of the address space are not within the array. -/
theorem exists_outside (rs : List Record) {m : Image} (hbase : m.base ≤ 65535 * 65536)
    (hends : Meets Reaches m.base rs) (hsound : ∀ r ∈ upToEnd rs, r.Sound) :
    ∃ a, maxMemorySize ≤ a ∧ (((upToEnd rs).foldl Image.load m).bytes a).isSome := by
  induction rs generalizing m with
  | nil => exact hends.elim
  | cons r rs ih =>
    have hsound₁ : r.Sound := by
      apply hsound
      rw [upToEnd]
      split <;> simp
    have hfold : ∃ rs' : List Record,
        (upToEnd (r :: rs)).foldl Image.load m = rs'.foldl Image.load (m.load r) := by
      rw [upToEnd]
      split
      · exact ⟨[], rfl⟩
      · exact ⟨upToEnd rs, rfl⟩
    rcases hends with ⟨hkind, hreach⟩ | ⟨hkind, hlater⟩
    · obtain ⟨rs', hfold⟩ := hfold
      have hlength := r.length_lt
      have haddress := r.address.toNat_lt
      refine ⟨m.base + r.address.toNat, by unfold maxMemorySize; omega, ?_⟩
      rw [hfold]
      apply Image.isSome_foldl_load
      rw [load_data (kind_eq_zero_iff.mp hkind), Image.place]
      have hfirst : 0 < r.data.length := by omega
      simp [hfirst]
    · rw [upToEnd, if_neg hkind]
      refine ih ?_ ?_ fun r' hr' => ?_
      · rw [base_load hsound₁]
        exact nextBase_le hbase r
      · rw [base_load hsound₁]
        exact hlater
      · apply hsound
        rw [upToEnd, if_neg hkind]
        exact List.mem_cons_of_mem r hr'

theorem reset_agrees (s : Statics) : Agrees s.reset Image.empty where
  image a ha := by simp [Statics.reset, Image.empty, ha]
  mask a ha := by simp [Statics.reset, Image.empty, ha]
  inside _ _ := rfl

/--
**Which hex files are read right if they are accepted.** For every file of well-formed records:
exactly those with a record that is refused (data with a wrong checksum, or an end of the record,
in 32 bits, at or above the size of the memory), those whose count of data bytes is negative as an
`int`, and those with all checksums right, no data that reach the end of the 32-bit address space,
and less than 2 GiB of data.
-/
theorem loadedRight_iff {rs : List Record} {text : List Char} (h : File rs text)
    (old : Nat → Locals) (s : Statics) :
    (0 ≤ (readIntelHex old (some text) s).1 → LoadedRight rs (readIntelHex old (some text) s).1
      (readIntelHex old (some text) s).2) ↔
      Meets Refuses 0 rs ∨ 2 ^ 31 ≤ dataLength rs % 2 ^ 32 ∨
        (∀ r ∈ upToEnd rs, r.Sound) ∧ ¬Meets Reaches 0 rs ∧ dataLength rs < 2 ^ 31 := by
  rw [readIntelHex_file h]
  by_cases hrefused : Meets Refuses 0 rs
  · have hcount := takeAll_refused rs (s := s.reset) rfl hrefused
    simp [hcount, hrefused]
  have hcount : (takeAll rs s.reset).1 = i32 (dataLength rs) := by
    rw [takeAll_count rs rfl rfl hrefused]
    show i32 (0 + dataLength rs) = _
    rw [Int.zero_add]
  constructor
  · intro hright
    right
    by_cases hnegative : 2 ^ 31 ≤ dataLength rs % 2 ^ 32
    · exact Or.inl hnegative
    · right
      have hright' := hright (by
        rw [hcount, i32]
        omega)
      refine ⟨hright'.sound, fun hreach => ?_, ?_⟩
      · obtain ⟨a, ha, houtside⟩ := exists_outside rs (m := Image.empty) (Nat.zero_le _) hreach
          hright'.sound
        have hnone : (contents rs).bytes a = none := hright'.agrees.inside a ha
        rw [contents] at hnone
        simp [hnone] at houtside
      · have hexact := hright'.count
        rw [hcount, i32] at hexact
        omega
  · rintro (hrefused' | hnegative | ⟨hsound, hends, hsmall⟩) haccepted
    · exact absurd hrefused' hrefused
    · rw [hcount, i32] at haccepted
      omega
    · refine ⟨hsound, takeAll_agrees rs rfl (reset_agrees s) rfl hrefused hends hsound, ?_⟩
      rw [hcount, i32]
      omega

/-- `:0100100041AE`, one byte at the address 16. -/
def byteRecord : Record := ⟨16, 0, [0x41], 0xAE, by decide⟩

/-- An end record with the checksum. -/
def endRecord (checksum : UInt8) : Record := ⟨0, 1, [], checksum, by decide⟩

/-- At the start of the loader the static variables are zero. -/
def Statics.zero : Statics := ⟨fun _ => 0, fun _ => false, false, 0, 0⟩

def Locals.zero : Locals := ⟨0, 0, 0, 0, 0⟩

theorem loadedRight_iff_byte :
    LoadedRight [byteRecord, endRecord 0xFF]
      (readIntelHex (fun _ => .zero) (some (fileText [byteRecord, endRecord 0xFF])) .zero).1
      (readIntelHex (fun _ => .zero) (some (fileText [byteRecord, endRecord 0xFF])) .zero).2 := by
  have hfile := file_fileText [byteRecord, endRecord 0xFF]
  have hiff := loadedRight_iff hfile (fun _ => .zero) .zero
  refine hiff.mpr (Or.inr (Or.inr ⟨by decide, ?_, by decide⟩)) ?_
  · simp [Meets, Reaches, byteRecord, endRecord, nextBase]
  · rw [readIntelHex_file hfile]
    decide

/-- `:0000000100`: the checksum of an end record is not looked at. -/
theorem not_loadedRight : ¬∀ (rs : List Record) (text : List Char), File rs text →
    ∀ (old : Nat → Locals) (s : Statics), 0 ≤ (readIntelHex old (some text) s).1 →
      LoadedRight rs (readIntelHex old (some text) s).1 (readIntelHex old (some text) s).2 := by
  intro h
  have hfile := file_fileText [endRecord 0]
  have hright := h _ _ hfile (fun _ => .zero) .zero (by
    rw [readIntelHex_file hfile]
    decide)
  exact absurd (hright.sound (endRecord 0) (List.mem_singleton_self _)) (by decide)

end SphereWare.Loader
