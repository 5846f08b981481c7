import SphereWare.ControlTransfer.Packets
import SphereWare.Bootloader.BootloaderHID

/-!
# What a report to the bootloader does

A report that comes in packets of an even size replaces the page it names. The loop that fills the
page buffer takes the data word by word, over the ends of the packets.
-/

namespace SphereWare.Bootloader

open Flash ControlTransfer

/-! ## The data stage -/

/-- The data still to be read. No word is split between two packets. -/
structure DataStage.Carries (d : DataStage) (data : List UInt8) : Prop where
  data : d.bank ++ d.later.flatten = data
  even : ∀ p ∈ d.bank :: d.later, 2 ∣ p.length
  later : ∀ p ∈ d.later, p ≠ []

variable {d : DataStage} {low high : UInt8} {data : List UInt8}

/-- The test before a word is read. It gets the next packet where the bank is empty. -/
def DataStage.refilled (d : DataStage) : Option DataStage := if d.bank = [] then d.next else some d

theorem DataStage.Carries.refilled (h : d.Carries (low :: data)) :
    ∃ d', d.refilled = some d' ∧ d'.Carries (low :: data) ∧ d'.bank ≠ [] := by
  obtain ⟨bank, later⟩ := d
  unfold DataStage.refilled
  by_cases hbank : bank = []
  · cases later with
    | nil => simp [hbank] at h; exact absurd h.data (by simp)
    | cons packet later =>
      refine ⟨⟨packet, later⟩, by simp [hbank, DataStage.next],
        ⟨?_, fun p hp => ?_, fun p hp => ?_⟩,
        h.later packet List.mem_cons_self⟩
      · rw [← h.data, hbank]
        rfl
      · exact h.even p (List.mem_cons_of_mem _ hp)
      · exact h.later p (List.mem_cons_of_mem _ hp)
  · exact ⟨⟨bank, later⟩, if_neg hbank, h, hbank⟩

/-- Bytes come in pairs. -/
theorem DataStage.Carries.pair (h : d.Carries (low :: data)) :
    ∃ high rest, data = high :: rest := by
  obtain ⟨d', -, hcarries, hbank⟩ := h.refilled
  have heven := hcarries.even d'.bank List.mem_cons_self
  have hdata := hcarries.data
  match hbytes : d'.bank, hbank, heven with
  | b₀ :: b₁ :: bank, _, _ =>
    rw [hbytes, List.cons_append, List.cons_append] at hdata
    exact ⟨b₁, _, (List.cons.inj hdata).2.symm⟩
  | [b₀], _, heven => exact absurd heven (by simp)

/-- A read takes the first two bytes. -/
theorem DataStage.Carries.read16 (h : d.Carries (low :: high :: data)) (hbank : d.bank ≠ [])
    (emptyBank : UInt8) :
    (d.read16 emptyBank).1 = BitVec.ofNat 16 (low.toNat + 256 * high.toNat) ∧
      (d.read16 emptyBank).2.Carries data := by
  obtain ⟨bank, later⟩ := d
  have heven : 2 ∣ bank.length := h.even bank List.mem_cons_self
  obtain ⟨b₀, b₁, bank, rfl⟩ : ∃ b₀ b₁ rest, bank = b₀ :: b₁ :: rest := by
    match bank, hbank, heven with
    | b₀ :: b₁ :: rest, _, _ => exact ⟨b₀, b₁, rest, rfl⟩
    | [b₀], _, heven => simp at heven
  have hdata := h.data
  simp only [List.cons_append, List.cons.injEq] at hdata
  obtain ⟨rfl, rfl, hrest⟩ := hdata
  refine ⟨rfl, hrest, fun p hp => ?_, h.later⟩
  rcases List.mem_cons.mp hp with rfl | hp
  · exact (Nat.dvd_add_left (Nat.dvd_refl 2)).mp heven
  · exact h.even p (List.mem_cons_of_mem _ hp)

/-! ## The page buffer -/

theorem toNat_word (low high : UInt8) :
    UInt8.ofNat ((BitVec.ofNat 16 (low.toNat + 256 * high.toNat)).toNat % 256) = low ∧
      UInt8.ofNat ((BitVec.ofNat 16 (low.toNat + 256 * high.toNat)).toNat / 256) = high := by
  have hlow := low.toNat_lt
  have hhigh := high.toNat_lt
  rw [BitVec.toNat_ofNat, Nat.mod_eq_of_lt (a := low.toNat + 256 * high.toNat) (by omega),
    show (low.toNat + 256 * high.toNat) % 256 = low.toNat by omega,
    show (low.toNat + 256 * high.toNat) / 256 = high.toNat by omega]
  exact ⟨UInt8.ofNat_toNat, UInt8.ofNat_toNat⟩

/-- The words of a page are `2 * k` bytes from its start. -/
theorem word_address {pageAddress : BitVec 16} (halign : pageAddress.toNat % spmPagesize = 0)
    {k : Nat} (hk : k < spmPagesize / 2) :
    (pageAddress + BitVec.ofNat 16 (2 * k)).toNat % flash.pageSize = 2 * k := by
  have hlt := pageAddress.isLt
  show _ % 128 = _
  unfold spmPagesize at halign hk
  rw [BitVec.toNat_add, BitVec.toNat_ofNat]
  omega

/-- The cells from the word `k` on hold the data, as far as they go. -/
def filledFrom (k : Nat) (data : List UInt8) (buffer : Nat → UInt8) : Nat → UInt8 :=
  fun i => if 2 * k ≤ i then data.getD (i - 2 * k) (buffer i) else buffer i

theorem filledFrom_nil (k : Nat) (buffer : Nat → UInt8) : filledFrom k [] buffer = buffer := by
  funext i
  simp [filledFrom]

theorem filledFrom_cons (k : Nat) (low high : UInt8) (data : List UInt8) (buffer : Nat → UInt8) :
    filledFrom (k + 1) data
        (fun i => if i = 2 * k then low else if i = 2 * k + 1 then high else buffer i)
      = filledFrom k (low :: high :: data) buffer := by
  funext i
  unfold filledFrom
  dsimp only
  by_cases hi : 2 * k ≤ i
  · obtain ⟨j, rfl⟩ := Nat.exists_eq_add_of_le hi
    rw [if_pos hi, Nat.add_sub_cancel_left]
    match j with
    | 0 =>
      rw [if_neg (by omega), if_pos (Nat.add_zero _)]
      rfl
    | 1 =>
      rw [if_neg (by omega), if_neg (by omega), if_pos rfl]
      rfl
    | j + 2 =>
      have hrest : 2 * k + (j + 2) - 2 * (k + 1) = j := by omega
      rw [if_pos (by omega), if_neg (by omega), if_neg (by omega), hrest]
      rfl
  · rw [if_neg (by omega), if_neg (by omega), if_neg (by omega), if_neg hi]

/-- The loop puts the next bytes of the data into the buffer. -/
theorem fillPage_carries {pageAddress : BitVec 16}
    (halign : pageAddress.toNat % spmPagesize = 0) (emptyBank : UInt8) {n : Nat} :
    ∀ {k : Nat} {data : List UInt8} {d : DataStage} {m : Memory}, k + n ≤ spmPagesize / 2 →
      data.length = 2 * n → d.Carries data →
      ∃ d', fillPage pageAddress emptyBank (List.range' k n) d m
        = ({ m with buffer := filledFrom k data m.buffer }, some d') := by
  induction n with
  | zero =>
    intro k data d m _ hlength _
    obtain rfl : data = [] := List.eq_nil_of_length_eq_zero hlength
    refine ⟨d, ?_⟩
    rw [filledFrom_nil]
    rfl
  | succ n ih =>
    intro k data d m hk hlength hd
    obtain ⟨low, high, data, rfl⟩ : ∃ low high rest, data = low :: high :: rest := by
      match data, hlength with
      | low :: high :: rest, _ => exact ⟨low, high, rest, rfl⟩
      | [_], hlength => simp at hlength; omega
    obtain ⟨d', hrefill, hcarries, hbank⟩ := hd.refilled
    obtain ⟨hword, hrest⟩ := hcarries.read16 hbank emptyBank
    obtain ⟨hlow, hhigh⟩ := toNat_word low high
    simp only [List.length_cons] at hlength
    obtain ⟨d'', hloop⟩ := ih (k := k + 1)
      (m := m.fill flash (pageAddress + BitVec.ofNat 16 (2 * k)).toNat (d'.read16 emptyBank).1)
      (by omega) (by omega) hrest
    refine ⟨d'', ?_⟩
    rw [List.range'_succ, fillPage]
    rw [DataStage.refilled] at hrefill
    rw [hrefill]
    dsimp only
    rw [hloop]
    have hbuffer : filledFrom (k + 1) data
        (m.fill flash (pageAddress + BitVec.ofNat 16 (2 * k)).toNat (d'.read16 emptyBank).1).buffer
        = filledFrom k (low :: high :: data) m.buffer := by
      rw [← filledFrom_cons]
      congr 1
      funext i
      rw [Memory.buffer_fill_word (word_address halign (by omega)), hword, hlow, hhigh]
    rw [hbuffer]
    rfl

/-- Filling the buffer changes no byte of the memory. -/
theorem bytes_fillPage (pageAddress : BitVec 16) (emptyBank : UInt8) (l : List Nat) (d : DataStage)
    (m : Memory) : (fillPage pageAddress emptyBank l d m).1.bytes = m.bytes := by
  induction l generalizing d m with
  | nil => rfl
  | cons pageWord l ih =>
    rw [fillPage]
    cases if d.bank = [] then d.next else some d with
    | none => rfl
    | some d => exact ih _ _

/-- The loop waits for a packet that does not come if the data do not fill the page. -/
theorem fillPage_short (pageAddress : BitVec 16) (emptyBank : UInt8) {l : List Nat} :
    ∀ {data : List UInt8} {d : DataStage} {m : Memory}, data.length < 2 * l.length →
      d.Carries data → (fillPage pageAddress emptyBank l d m).2 = none := by
  induction l with
  | nil => exact fun hlength => absurd hlength (Nat.not_lt_zero _)
  | cons pageWord l ih =>
    intro data d m hlength hd
    rw [fillPage]
    by_cases hdata : data = []
    · obtain ⟨hbank, hlater⟩ := List.append_eq_nil_iff.mp (hd.data.trans hdata)
      have hnext : d.next = none := by
        obtain ⟨bank, later⟩ := d
        cases later with
        | nil => rfl
        | cons packet later =>
          exact absurd (List.append_eq_nil_iff.mp hlater).1 (hd.later packet List.mem_cons_self)
      rw [if_pos hbank, hnext]
    · obtain ⟨low, rest, rfl⟩ := List.exists_cons_of_ne_nil hdata
      obtain ⟨d', hrefill, hcarries, hbank⟩ := hd.refilled
      obtain ⟨high, rest, rfl⟩ := hd.pair
      rw [DataStage.refilled] at hrefill
      rw [hrefill]
      refine ih ?_ (hcarries.read16 hbank emptyBank).2
      simp only [List.length_cons] at hlength
      omega

/-! ## A report -/

/-- The address in the first two bytes of a report. -/
def reportAddress (low high : UInt8) : BitVec 16 := BitVec.ofNat 16 (low.toNat + 256 * high.toNat)

/-- The data of a request are in packets of an even size. -/
def ControlRequest.Sends (r : ControlRequest) (data : List UInt8) : Prop :=
  (DataStage.mk [] r.packets).Carries data

variable {r : ControlRequest}

theorem sends_cut {size : Nat} {report : List UInt8} (hsize : 2 ∣ size)
    (hlength : 2 ∣ report.length)
    (hr : r.packets = cut size report) : r.Sends report := by
  unfold ControlRequest.Sends
  rw [hr]
  refine ⟨flatten_cut report, fun p hp => ?_, fun p hp => ne_nil_of_mem_cutFrom hp⟩
  rcases List.mem_cons.mp hp with rfl | hp
  · exact Nat.dvd_zero 2
  · exact dvd_length_of_mem_cutFrom hsize (by simpa using hlength) hp

/-- The address is read from the first packet. -/
theorem ControlRequest.Sends.first (h : r.Sends (low :: high :: data)) :
    ∃ d, (DataStage.mk [] r.packets).next = some d ∧
      (d.read16 r.emptyBank).1 = reportAddress low high ∧
        (d.read16 r.emptyBank).2.Carries data := by
  obtain ⟨d, hnext, hcarries, hbank⟩ := DataStage.Carries.refilled h
  exact ⟨d, hnext, hcarries.read16 hbank r.emptyBank⟩

/-- **A report with a whole page replaces the page.** -/
theorem setReport_page (h : r.Sends (low :: high :: data)) (hlength : data.length = spmPagesize)
    (halign : (reportAddress low high).toNat % spmPagesize = 0) (b : Boot) :
    setReport r b = { b with memory :=
      { bytes := Memory.setPage flash (flash.pageOf (reportAddress low high).toNat)
          (fun i => data.getD i 0xFF) b.memory.bytes
        buffer := fun _ => 0xFF
        touched := b.memory.touched ++ [flash.pageOf (reportAddress low high).toNat]
          ++ [flash.pageOf (reportAddress low high).toNat] } } := by
  obtain ⟨d, hnext, haddress, hcarries⟩ := h.first
  have hstart : ¬reportAddress low high = commandStartApplication := by
    intro hstart
    rw [hstart] at halign
    exact absurd halign (by decide)
  obtain ⟨d', hloop⟩ := fillPage_carries halign r.emptyBank (k := 0) (n := spmPagesize / 2)
    (m := b.memory.erase flash (reportAddress low high).toNat) (Nat.le_refl _) hlength hcarries
  rw [← List.range_eq_range'] at hloop
  unfold setReport
  rw [hnext]
  dsimp only
  rw [haddress, if_neg hstart, hloop]
  dsimp only
  have herased (a : Nat) (ha : a / flash.pageSize = flash.pageOf (reportAddress low high).toNat) :
      (b.memory.erase flash (reportAddress low high).toNat).bytes a = 0xFF := if_pos ha
  have hbytes := Memory.bytes_write (g := flash) (m :=
    { b.memory.erase flash (reportAddress low high).toNat with
      buffer := filledFrom 0 data
        (b.memory.erase flash (reportAddress low high).toNat).buffer }) herased
  congr 1
  rw [Memory.mk.injEq]
  refine ⟨hbytes.trans ?_, rfl, rfl⟩
  funext a
  unfold Memory.setPage
  split
  · have hoffset : a % flash.pageSize < data.length := hlength ▸ Nat.mod_lt a flash.pageSize_pos
    show filledFrom 0 data _ _ = _
    rw [filledFrom, if_pos (Nat.zero_le _), Nat.mul_zero, Nat.sub_zero]
    simp only [List.getD_eq_getElem?_getD, List.getElem?_eq_getElem hoffset, Option.getD_some]
  · next hpage => exact if_neg hpage

/-- A report whose data end within the page leaves the page erased. -/
theorem setReport_short (h : r.Sends (low :: high :: data)) (hlength : data.length < spmPagesize)
    (hstart : reportAddress low high ≠ commandStartApplication) (b : Boot) :
    (setReport r b).waiting = true ∧ (setReport r b).memory.bytes
      = Memory.setPage flash (flash.pageOf (reportAddress low high).toNat) (fun _ => 0xFF)
          b.memory.bytes := by
  obtain ⟨d, hnext, haddress, hcarries⟩ := h.first
  have hbytes := bytes_fillPage (reportAddress low high) r.emptyBank (List.range (spmPagesize / 2))
    (d.read16 r.emptyBank).2 (b.memory.erase flash (reportAddress low high).toNat)
  have hwaits := fillPage_short (reportAddress low high) r.emptyBank
    (l := List.range (spmPagesize / 2)) (m := b.memory.erase flash (reportAddress low high).toNat)
    (by rwa [List.length_range]) hcarries
  unfold setReport
  rw [hnext]
  dsimp only
  rw [haddress, if_neg hstart]
  generalize fillPage _ _ _ _ _ = filled at hbytes hwaits
  obtain ⟨m, rest⟩ := filled
  dsimp only at hbytes hwaits
  rw [hwaits]
  exact ⟨rfl, hbytes⟩

/-- The command that starts the application. -/
theorem setReport_start (h : r.Sends (low :: high :: data))
    (hstart : reportAddress low high = commandStartApplication) (b : Boot) :
    setReport r b = { b with runBootloader := false } := by
  obtain ⟨d, hnext, haddress, -⟩ := h.first
  unfold setReport
  rw [hnext]
  dsimp only
  rw [haddress, if_pos hstart]

end SphereWare.Bootloader
