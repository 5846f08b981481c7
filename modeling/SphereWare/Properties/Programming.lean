import Mathlib.Data.List.Nodup
import SphereWare.Loader.Program
import SphereWare.Bootloader.BootloaderHID
import SphereWare.Properties.HexImage

/-!
# What the loader transmits

The loop looks for bytes in each page (`ihex_bytes_within_range`), fetches the page
(`ihex_get_data`) and encodes its address. The fetch leaves out the last page below 64 KB. The
address of a 64 KB device is encoded like that of a larger one, which its bootloader does not expect.
Bytes above the flash are left out, and nobody is told.
-/

namespace SphereWare.Loader

open Bootloader

variable {s : Statics} {o : Options}

/-! ## The specification -/

/-- The byte of the image, or what an erased cell holds. -/
def Statics.imageByte (s : Statics) (a : Nat) : UInt8 :=
  if a < maxMemorySize ∧ s.firmwareMask a = true then s.firmwareImage a else 0xFF

/-- The page of a report, as the bootloader of the device reads it. -/
def reportPage (o : Options) (report : List UInt8) : Nat := pageAddress (o.codeSize - 1) report

/-- The whole image is transmitted: every defined byte with its page, once, and nothing else. -/
structure Transmitted (s : Statics) (o : Options) (reports : List (List UInt8)) : Prop where
  once : ∀ a < maxMemorySize, s.firmwareMask a = true →
    (reports.countP fun r => reportPage o r = a / o.blockSize * o.blockSize) = 1
  bytes : ∀ r ∈ reports, ∀ k < o.blockSize, (r.drop 2)[k]? = some (s.imageByte (reportPage o r + k))

/-- What the loader can transmit, by the size of the flash. -/
def Fits (s : Statics) (codeSize : Nat) : Prop :=
  if codeSize < 0x10000 then ∀ a < maxMemorySize, s.firmwareMask a = true → a < codeSize
  else if codeSize = 0x10000 then ∀ a < maxMemorySize, s.firmwareMask a = true → a < 256
  else ∀ a < maxMemorySize, s.firmwareMask a = true → 0xFF00 ≤ a → s.firmwareImage a = 0xFF

/-! ## The options -/

/-- The sizes `parse_options` knows. -/
inductive Sizes : Nat → Nat → Prop where
  | kb128 : Sizes 0x20000 256
  | kb64 : Sizes 0x10000 256
  | kb32 : Sizes 0x8000 128
  | kb16 : Sizes 0x4000 128
  | kb8 : Sizes 0x2000 128

theorem Sizes.cases {codeSize blockSize : Nat} (h : Sizes codeSize blockSize) :
    blockSize = 256 ∧ (codeSize = 0x20000 ∨ codeSize = 0x10000) ∨
      blockSize = 128 ∧ codeSize < 0x10000 ∧ codeSize % 128 = 0 := by
  cases h <;> simp

theorem mcuSizes_sizes {arg : List Char} {sizes : Nat × Nat} (h : mcuSizes arg = some sizes) :
    Sizes sizes.1 sizes.2 := by
  unfold mcuSizes at h
  split_ifs at h <;> cases h
  · exact .kb128
  · exact .kb64
  · exact .kb32
  · exact .kb16
  · exact .kb8

theorem parseMcu_sizes {arg : List Char} {sizes : Nat × Nat} (h : parseMcu arg = some sizes) :
    Sizes sizes.1 sizes.2 := by
  unfold parseMcu at h
  split at h
  · exact mcuSizes_sizes h
  · obtain ⟨rest, -, hrest⟩ := Option.bind_eq_some_iff.mp h
    exact mcuSizes_sizes hrest

/-- No device given yet, or one with sizes that are known. -/
def Options.Known (o : Options) : Prop := o.codeSize = 0 ∨ Sizes o.codeSize o.blockSize

theorem parseOption_known {o' : Options} {arg : List Char} (ho : o.Known)
    (h : parseOption o arg = some o') : o'.Known := by
  unfold parseOption at h
  split at h
  · split_ifs at h
    · cases h
      exact ho
    · cases h
      exact ho
    · cases h
      exact ho
    · cases h
      exact ho
    · split at h
      · cases h
        exact ho
      · obtain ⟨sizes, hsizes, rfl⟩ := Option.map_eq_some_iff.mp h
        exact Or.inr (parseMcu_sizes hsizes)
  · cases h
    exact ho

theorem parseOptions_known {args : List (List Char)} {o' : Options} (ho : o.Known)
    (h : parseOptions args o = some o') : o'.Known := by
  induction args generalizing o with
  | nil =>
    cases h
    exact ho
  | cons arg args ih =>
    obtain ⟨o₁, ho₁, hrest⟩ := Option.bind_eq_some_iff.mp h
    exact ih (parseOption_known ho ho₁) hrest

/-- A device that is accepted has known sizes. -/
theorem sizes_of_parseOptions {args : List (List Char)} (h : parseOptions args .start = some o)
    (hmcu : o.codeSize ≠ 0) : Sizes o.codeSize o.blockSize := by
  rcases parseOptions_known (Or.inl rfl) h with hnone | hsizes
  · exact absurd hnone hmcu
  · exact hsizes

/-! ## The loop -/

/-- The pages that are sent, in their order. -/
def pagesSent (s : Statics) (o : Options) : List Nat :=
  (blockAddrs o.codeSize o.blockSize).filter (Sends s o)

theorem programBlocks_eq {teensyWrite : Nat → List UInt8 → Bool} {addrs : List Nat}
    {reports : List (List UInt8)} (h : programBlocks s o teensyWrite addrs = some reports) :
    reports = (addrs.filter (Sends s o)).map (pageReport s o) := by
  induction addrs generalizing reports with
  | nil =>
    cases h
    rfl
  | cons addr addrs ih =>
    unfold programBlocks at h
    split at h
    · next hsends =>
      split at h
      · obtain ⟨rest, hrest, rfl⟩ := Option.map_eq_some_iff.mp h
        rw [List.filter_cons_of_pos hsends, List.map_cons, ← ih hrest]
      · cases h
    · next hsends =>
      rw [List.filter_cons_of_neg hsends]
      exact ih h

theorem program_eq {teensyWrite : Nat → List UInt8 → Bool} {reports : List (List UInt8)}
    (h : program s o teensyWrite = some reports) :
    reports = (pagesSent s o).map (pageReport s o) := programBlocks_eq h

theorem mem_blockAddrs {codeSize blockSize addr : Nat} (h : Sizes codeSize blockSize) :
    addr ∈ blockAddrs codeSize blockSize ↔ addr < codeSize ∧ addr % blockSize = 0 := by
  unfold blockAddrs
  rw [List.mem_map]
  simp only [List.mem_range]
  constructor
  · rintro ⟨k, hk, rfl⟩
    cases h <;> omega
  · rintro ⟨hlt, hmod⟩
    refine ⟨addr / blockSize, ?_, ?_⟩
    · cases h <;> omega
    · cases h <;> omega

theorem nodup_blockAddrs {codeSize blockSize : Nat} (h : Sizes codeSize blockSize) :
    (blockAddrs codeSize blockSize).Nodup := by
  refine List.Nodup.map_on (fun a _ b _ hab => ?_) List.nodup_range
  cases h <;> omega

/-- A page is sent if it is the first one or holds a byte of the image. -/
theorem sends_iff {addr : Nat} (h : Sizes o.codeSize o.blockSize) (haddr : addr % o.blockSize = 0) :
    Sends s o addr = true ↔ addr = 0 ∨ ∃ a < maxMemorySize, s.firmwareMask a = true ∧
      a / o.blockSize * o.blockSize = addr := by
  have hpage (a : Nat) : a / o.blockSize * o.blockSize = addr ↔
      addr ≤ a ∧ a ≤ addr + o.blockSize - 1 := by
    rcases h.cases with ⟨hblock, -⟩ | ⟨hblock, -⟩
    · rw [hblock] at haddr ⊢
      omega
    · rw [hblock] at haddr ⊢
      omega
  have hsize : addr < maxMemorySize ↔ addr + o.blockSize - 1 < maxMemorySize := by
    unfold maxMemorySize
    rcases h.cases with ⟨hblock, -⟩ | ⟨hblock, -⟩
    · rw [hblock] at haddr ⊢
      omega
    · rw [hblock] at haddr ⊢
      omega
  unfold Sends Statics.ihexBytesWithinRange
  simp only [hpage, Bool.decide_or, Bool.or_eq_true, decide_eq_true_eq]
  refine or_congr_right ?_
  split
  · next hout =>
    constructor
    · exact fun hfalse => absurd hfalse Bool.false_ne_true
    · rintro ⟨a, ha, -, hle, -⟩
      omega
  · next hin =>
    simp only [List.any_eq_true, List.mem_range'_1]
    constructor
    · rintro ⟨a, ⟨hle, hlt⟩, hmask⟩
      exact ⟨a, by omega, hmask, hle, by omega⟩
    · rintro ⟨a, -, hmask, hle, hlt⟩
      exact ⟨a, ⟨hle, by omega⟩, hmask⟩

theorem mem_pagesSent {addr : Nat} (h : Sizes o.codeSize o.blockSize) :
    addr ∈ pagesSent s o ↔ addr < o.codeSize ∧ addr % o.blockSize = 0 ∧ (addr = 0 ∨
      ∃ a < maxMemorySize, s.firmwareMask a = true ∧ a / o.blockSize * o.blockSize = addr) := by
  rw [pagesSent, List.mem_filter, mem_blockAddrs h]
  constructor
  · rintro ⟨⟨hlt, hmod⟩, hsends⟩
    exact ⟨hlt, hmod, (sends_iff h hmod).mp hsends⟩
  · rintro ⟨hlt, hmod, hsends⟩
    exact ⟨⟨hlt, hmod⟩, (sends_iff h hmod).mpr hsends⟩

/-! ## The reports -/

theorem drop_pageReport (s : Statics) (o : Options) (addr : Nat) :
    (pageReport s o addr).drop 2 = s.ihexGetData addr o.blockSize := by
  unfold pageReport addressBytes
  split <;> rfl

/-- The fetch gives the bytes of the image, but for the last page below 64 KB. -/
theorem ihexGetData_getElem? {addr len k : Nat} (hk : k < len) :
    (s.ihexGetData addr len)[k]? = some (if maxMemorySize ≤ addr + len then 0xFF
      else s.imageByte (addr + k)) := by
  unfold Statics.ihexGetData
  split
  · rw [List.getElem?_replicate, if_pos hk]
  · have hlt : addr + k < maxMemorySize := by omega
    simp [hk, Statics.imageByte, hlt]

/-- What the bootloader reads: the address of the page, except on a 64 KB device. -/
def readBack (codeSize addr : Nat) : Nat := if codeSize = 0x10000 then addr / 256 else addr

theorem reportPage_pageReport {addr : Nat} (h : Sizes o.codeSize o.blockSize)
    (hlt : addr < o.codeSize) (hmod : addr % o.blockSize = 0) :
    reportPage o (pageReport s o addr) = readBack o.codeSize addr := by
  have hread (b₀ b₁ : UInt8) (data : List UInt8) (hsmall : b₀.toNat + 256 * b₁.toNat < 65536) :
      (((DataStage.mk (b₀ :: b₁ :: data) []).read16 0).1.toNat) = b₀.toNat + 256 * b₁.toNat := by
    simp [DataStage.read16, Nat.mod_eq_of_lt hsmall]
  have hbyte (n : Nat) : (UInt8.ofNat (n % 256)).toNat = n % 256 := by
    rw [UInt8.toNat_ofNat']
    omega
  unfold reportPage pageAddress pageReport readBack
  rcases h.cases with ⟨hblock, hcode⟩ | ⟨hblock, hcode, -⟩
  · have hbuf : addressBytes o.codeSize addr
        = [UInt8.ofNat (addr / 256 % 256), UInt8.ofNat (addr / 65536 % 256)] := if_neg (by omega)
    have hmiddle := hbyte (addr / 256)
    have hhigh := hbyte (addr / 65536)
    rw [hblock] at hmod
    rw [hbuf, List.cons_append, List.cons_append, List.nil_append, hread _ _ _ (by omega), hmiddle,
      hhigh]
    dsimp only
    rcases hcode with hcode | hcode
    · rw [if_pos (show 0xFFFF < o.codeSize - 1 by omega), if_neg (by omega), Nat.shiftLeft_eq]
      omega
    · rw [if_neg (show ¬0xFFFF < o.codeSize - 1 by omega), if_pos hcode]
      omega
  · have hbuf : addressBytes o.codeSize addr
        = [UInt8.ofNat (addr % 256), UInt8.ofNat (addr / 256 % 256)] := if_pos hcode
    have hlow := hbyte addr
    have hhigh := hbyte (addr / 256)
    rw [hbuf, List.cons_append, List.cons_append, List.nil_append, hread _ _ _ (by omega), hlow,
      hhigh]
    dsimp only
    rw [if_neg (show ¬0xFFFF < o.codeSize - 1 by omega), if_neg (by omega)]
    omega

/-- No two pages are read back alike. -/
theorem nodup_readBack (h : Sizes o.codeSize o.blockSize) :
    ((pagesSent s o).map (readBack o.codeSize)).Nodup := by
  refine List.Nodup.map_on (fun a ha b hb hab => ?_) ((nodup_blockAddrs h).filter _)
  obtain ⟨-, hmod, -⟩ := (mem_pagesSent h).mp ha
  obtain ⟨-, hmod', -⟩ := (mem_pagesSent h).mp hb
  unfold readBack at hab
  split at hab
  · next hcode =>
    rcases h.cases with ⟨hblock, -⟩ | ⟨-, hsmall, -⟩
    · rw [hblock] at hmod hmod'
      omega
    · omega
  · exact hab

/-- One report is read back as the page exactly if one is. -/
theorem once_iff (h : Sizes o.codeSize o.blockSize) (page : Nat) :
    (((pagesSent s o).map (pageReport s o)).countP fun r => reportPage o r = page) = 1 ↔
      ∃ addr ∈ pagesSent s o, readBack o.codeSize addr = page := by
  have hmap : ((pagesSent s o).map (pageReport s o)).map (reportPage o)
      = (pagesSent s o).map (readBack o.codeSize) := by
    rw [List.map_map]
    refine List.map_congr_left fun addr haddr => ?_
    obtain ⟨hlt, hmod, -⟩ := (mem_pagesSent h).mp haddr
    exact reportPage_pageReport h hlt hmod
  have hcount : (((pagesSent s o).map (pageReport s o)).countP fun r => reportPage o r = page)
      = ((pagesSent s o).map (readBack o.codeSize)).count page := by
    rw [← hmap, List.count, List.countP_map, List.countP_map, List.countP_map]
    rfl
  rw [hcount, ← List.mem_map]
  constructor
  · intro hone
    exact List.count_pos_iff.mp (by omega)
  · exact List.count_eq_one_of_mem (nodup_readBack h)

/-- The bytes of a report are right exactly if those fetched are those of the page read back. -/
theorem bytes_iff (h : Sizes o.codeSize o.blockSize) {addr : Nat} (haddr : addr ∈ pagesSent s o) :
    (∀ k < o.blockSize, ((pageReport s o addr).drop 2)[k]?
        = some (s.imageByte (reportPage o (pageReport s o addr) + k))) ↔
      ∀ k < o.blockSize, (if maxMemorySize ≤ addr + o.blockSize then 0xFF
        else s.imageByte (addr + k)) = s.imageByte (readBack o.codeSize addr + k) := by
  obtain ⟨hlt, hmod, -⟩ := (mem_pagesSent h).mp haddr
  rw [drop_pageReport, reportPage_pageReport h hlt hmod]
  refine forall₂_congr fun k hk => ?_
  rw [ihexGetData_getElem? hk, Option.some.injEq]

/-! ## What fits -/

/-- What is needed to transmit the whole image. -/
theorem Transmitted.fits (h : Sizes o.codeSize o.blockSize)
    (ht : Transmitted s o ((pagesSent s o).map (pageReport s o))) : Fits s o.codeSize := by
  have hpage (a : Nat) (ha : a < maxMemorySize) (hmask : s.firmwareMask a = true) :
      ∃ addr < o.codeSize, readBack o.codeSize addr = a / o.blockSize * o.blockSize := by
    obtain ⟨addr, haddr, hread⟩ := (once_iff h _).mp (ht.once a ha hmask)
    exact ⟨addr, ((mem_pagesSent h).mp haddr).1, hread⟩
  unfold Fits
  rcases h.cases with ⟨hblock, hcode | hcode⟩ | ⟨hblock, hsmall, hmod⟩
  · rw [if_neg (by omega), if_neg (by omega)]
    intro a ha hmask hlast
    unfold maxMemorySize at ha
    -- the page is sent for the byte, and it is sent blank
    have hsent : 0xFF00 ∈ pagesSent s o := by
      rw [mem_pagesSent h, hblock, hcode]
      exact ⟨by decide, by decide, Or.inr ⟨a, ha, hmask, by omega⟩⟩
    have hbytes := (bytes_iff h hsent).mp (ht.bytes _ (List.mem_map_of_mem hsent))
    have hblank := hbytes (a - 0xFF00) (by omega)
    have hcell : 0xFF00 + (a - 0xFF00) = a := by omega
    rw [hblock, if_pos (by decide), readBack, if_neg (by omega), hcell, Statics.imageByte,
      if_pos ⟨ha, hmask⟩] at hblank
    exact hblank.symm
  · rw [if_neg (by omega), if_pos hcode]
    intro a ha hmask
    obtain ⟨addr, hlt, hread⟩ := hpage a ha hmask
    rw [readBack, if_pos hcode, hblock] at hread
    omega
  · rw [if_pos hsmall]
    intro a ha hmask
    obtain ⟨addr, hlt, hread⟩ := hpage a ha hmask
    rw [readBack, if_neg (by omega), hblock] at hread
    omega

/-- It is enough. -/
theorem transmitted_of_fits (h : Sizes o.codeSize o.blockSize) (hfits : Fits s o.codeSize) :
    Transmitted s o ((pagesSent s o).map (pageReport s o)) := by
  unfold Fits at hfits
  constructor
  · intro a ha hmask
    have hlt : a < o.codeSize := by
      unfold maxMemorySize at ha
      rcases h.cases with ⟨-, hcode⟩ | ⟨-, hsmall, -⟩
      · omega
      · rw [if_pos hsmall] at hfits
        exact hfits a ha hmask
    have hsent : a / o.blockSize * o.blockSize ∈ pagesSent s o := by
      rw [mem_pagesSent h]
      exact ⟨Nat.lt_of_le_of_lt (Nat.div_mul_le_self a _) hlt, Nat.mul_mod_left _ _,
        Or.inr ⟨a, ha, hmask, rfl⟩⟩
    rw [once_iff h]
    refine ⟨_, hsent, ?_⟩
    unfold readBack
    split
    · next hcode =>
      rw [if_neg (by omega), if_pos hcode] at hfits
      have hlow := hfits a ha hmask
      rcases h.cases with ⟨hblock, -⟩ | ⟨-, hsmall, -⟩
      · rw [hblock]
        omega
      · omega
    · rfl
  · intro r hr
    obtain ⟨addr, haddr, rfl⟩ := List.mem_map.mp hr
    rw [bytes_iff h haddr]
    obtain ⟨hlt, hmod, hsends⟩ := (mem_pagesSent h).mp haddr
    rcases h.cases with ⟨hblock, hcode | hcode⟩ | ⟨hblock, hsmall, hcode⟩
    · rw [if_neg (by omega), if_neg (by omega)] at hfits
      have hread : readBack o.codeSize addr = addr := if_neg (by omega)
      intro k hk
      rw [hread]
      split
      · next hlast =>
        unfold Statics.imageByte
        split
        · next hdefined =>
          rw [hblock] at hmod hlast hk
          unfold maxMemorySize at hlast
          exact (hfits _ hdefined.1 hdefined.2 (by omega)).symm
        · rfl
      · rfl
    · rw [if_neg (by omega), if_pos hcode] at hfits
      have hfirst : addr = 0 := by
        rcases hsends with hfirst | ⟨a, ha, hmask, hpage⟩
        · exact hfirst
        · have hlow := hfits a ha hmask
          rw [hblock] at hpage
          omega
      intro k hk
      rw [hfirst, hblock, if_neg (by decide), readBack, hcode, if_pos rfl]
    · intro k hk
      have hbelow : addr + o.blockSize < maxMemorySize := by
        unfold maxMemorySize
        rw [hblock] at hmod ⊢
        omega
      have hread : readBack o.codeSize addr = addr := if_neg (by omega)
      rw [if_neg (by omega), hread]

/--
**Which images are transmitted.** For every device that is accepted and every image, if the
programming loop finishes: on a device of less than 64 KB exactly if the image lies within the
flash, on one of 64 KB exactly if it lies within the first page, on one of 128 KB exactly if all it
has in the last page below 64 KB are bytes 0xFF.
-/
theorem transmitted_iff {args : List (List Char)} (hargs : parseOptions args .start = some o)
    (hmcu : o.codeSize ≠ 0) {teensyWrite : Nat → List UInt8 → Bool} {reports : List (List UInt8)}
    (hloop : program s o teensyWrite = some reports) :
    Transmitted s o reports ↔ Fits s o.codeSize := by
  have hsizes := sizes_of_parseOptions hargs hmcu
  rw [program_eq hloop]
  exact ⟨fun ht => ht.fits hsizes, transmitted_of_fits hsizes⟩

/-! ## A byte in the second page -/

theorem programBlocks_always (s : Statics) (o : Options) (addrs : List Nat) :
    ∃ reports, programBlocks s o (fun _ _ => true) addrs = some reports := by
  induction addrs with
  | nil => exact ⟨[], rfl⟩
  | cons addr addrs ih =>
    obtain ⟨reports, hreports⟩ := ih
    unfold programBlocks
    split
    · exact ⟨_, by rw [if_pos rfl, hreports]; rfl⟩
    · exact ⟨reports, hreports⟩

/-- `-mmcu=atmega32u4`, the device of the makefile. -/
def argsAtmega32u4 : List (List Char) :=
  [['-', 'm', 'm', 'c', 'u', '=', 'a', 't', 'm', 'e', 'g', 'a', '3', '2', 'u', '4']]

def atmega32u4 : Options := { Options.start with codeSize := 0x8000, blockSize := 128 }

theorem transmitted_iff_atmega32u4 : ∃ reports, program (Statics.zero.store 256 0x41) atmega32u4
    (fun _ _ => true) = some reports ∧ Transmitted (Statics.zero.store 256 0x41) atmega32u4 reports := by
  obtain ⟨reports, hloop⟩ := programBlocks_always (Statics.zero.store 256 0x41) atmega32u4
    (blockAddrs atmega32u4.codeSize atmega32u4.blockSize)
  have hargs : parseOptions argsAtmega32u4 .start = some atmega32u4 := rfl
  refine ⟨reports, hloop, (transmitted_iff hargs (by decide) hloop).mpr ?_⟩
  rw [Fits, if_pos (by decide)]
  intro a _ hmask
  have ha : a = 256 := by
    by_contra hne
    simp [Statics.store, Statics.zero, hne] at hmask
  rw [ha]
  decide

/-- `-mmcu=at90usb646`. -/
def argsAt90usb646 : List (List Char) :=
  [['-', 'm', 'm', 'c', 'u', '=', 'a', 't', '9', '0', 'u', 's', 'b', '6', '4', '6']]

def at90usb646 : Options := { Options.start with codeSize := 0x10000, blockSize := 256 }

/-- `:0101000041BD`, one byte at the address 256. -/
def secondPageRecord : IntelHex.Record := { byteRecord with address := 256, checksum := 0xBD }

/-- The page at 256 of a 64 KB device is sent with the address 1. -/
theorem not_transmitted : ¬∀ (args : List (List Char)) (o : Options),
    parseOptions args .start = some o → o.codeSize ≠ 0 →
    ∀ (old : Nat → Locals) (text : List Char) (s₀ s : Statics) (n : Int),
      readIntelHex old (some text) s₀ = (n, s) → 0 ≤ n →
      ∀ (teensyWrite : Nat → List UInt8 → Bool) (reports : List (List UInt8)),
        program s o teensyWrite = some reports → Transmitted s o reports := by
  intro h
  have hfile := readIntelHex_file (IntelHex.file_fileText [secondPageRecord, endRecord 0xFF])
    (fun _ => .zero) .zero
  obtain ⟨⟨n, s⟩, htake⟩ : ∃ r, takeAll [secondPageRecord, endRecord 0xFF] Statics.zero.reset = r :=
    ⟨_, rfl⟩
  have hn : 0 ≤ n := by
    have hcount : 0 ≤ (takeAll [secondPageRecord, endRecord 0xFF] Statics.zero.reset).1 := by decide
    rwa [htake] at hcount
  have hmask : s.firmwareMask 256 = true := by
    have hcell : (takeAll [secondPageRecord, endRecord 0xFF] Statics.zero.reset).2.firmwareMask 256
        = true := by decide
    rwa [htake] at hcell
  obtain ⟨reports, hloop⟩ := programBlocks_always s at90usb646
    (blockAddrs at90usb646.codeSize at90usb646.blockSize)
  have ht := h argsAt90usb646 at90usb646 rfl (by decide) (fun _ => .zero) _ .zero s n
    (hfile.trans htake) hn _ reports hloop
  rw [program_eq hloop] at ht
  have hfits := ht.fits .kb64
  rw [Fits, if_neg (by decide), if_pos (by decide)] at hfits
  exact absurd (hfits 256 (by decide) hmask) (by decide)

end SphereWare.Loader
