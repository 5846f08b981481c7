import SphereWare.Properties.LoaderRun
import SphereWare.Properties.Programming
import SphereWare.Spec.PageWrite

/-!
# Updating the firmware

The loader and the bootloader together: what a session makes of the flash. Each report is a control
write whose data stage comes in packets of the size of the control endpoint.

A session can break off at any packet. Then every page is as it was, erased, or as it shall be, and
a complete session makes the flash what it would have been without the others.
-/

namespace SphereWare.Update

open Flash ControlTransfer Bootloader Loader IntelHex

/-! ## The wire -/

/-- `teensy_write`, in packets of `size` bytes: `usb_control_msg(..., 0x21, 9, 0x0200, 0, ...)`. -/
def request (size : Nat) (emptyBank : UInt8) (report : List UInt8) : ControlRequest where
  bmRequestType := 0x21
  bRequest := 9
  packets := cut size report
  emptyBank := emptyBank

theorem isSetReport_request (size : Nat) (emptyBank : UInt8) (report : List UInt8) :
    (request size emptyBank report).isSetReport = true := by
  show decide ((0x21 : UInt8) &&& requestTypeMask = classInterface ∧ (9 : UInt8) = 0x09) = true
  decide

/-! ## What an update is -/

/-- The page is programmed: the first one always is, any other if the image has a byte in it. -/
def Touches (image : Nat → Option UInt8) (page : Nat) : Prop :=
  page = 0 ∨ ∃ a, a / spmPagesize = page ∧ (image a).isSome = true

/-- The image lies in the pages it touches, on a blank ground. The other pages are left alone. -/
structure Updated (image : Nat → Option UInt8) (old new : Nat → UInt8) : Prop where
  touched : ∀ a, Touches image (a / spmPagesize) → new a = (image a).getD 0xFF
  untouched : ∀ a, ¬Touches image (a / spmPagesize) → new a = old a

/-- An update that has not come to its end: every page is old, erased or new. -/
structure BrokenOff (image : Nat → Option UInt8) (old new : Nat → UInt8) : Prop where
  page : ∀ page, (∀ a, a / spmPagesize = page → new a = old a) ∨
    (∀ a, a / spmPagesize = page → new a = 0xFF) ∨
    ∀ a, a / spmPagesize = page → new a = (image a).getD 0xFF
  untouched : ∀ a, ¬Touches image (a / spmPagesize) → new a = old a

variable {image : Nat → Option UInt8} {old mid new : Nat → UInt8}

theorem Updated.unique {new' : Nat → UInt8} (h : Updated image old new)
    (h' : Updated image old new') : new = new' := by
  funext a
  by_cases htouches : Touches image (a / spmPagesize)
  · rw [h.touched a htouches, h'.touched a htouches]
  · rw [h.untouched a htouches, h'.untouched a htouches]

theorem BrokenOff.refl (image : Nat → Option UInt8) (old : Nat → UInt8) : BrokenOff image old old :=
  ⟨fun _ => .inl fun _ _ => rfl, fun _ _ => rfl⟩

theorem BrokenOff.trans (h₁ : BrokenOff image old mid) (h₂ : BrokenOff image mid new) :
    BrokenOff image old new := by
  refine ⟨fun page => ?_, fun a ha => (h₂.untouched a ha).trans (h₁.untouched a ha)⟩
  rcases h₂.page page with hsame | hlater
  · rcases h₁.page page with hold | herased | hnew
    · exact .inl fun a ha => (hsame a ha).trans (hold a ha)
    · exact .inr (.inl fun a ha => (hsame a ha).trans (herased a ha))
    · exact .inr (.inr fun a ha => (hsame a ha).trans (hnew a ha))
  · exact .inr hlater

/-- An update after one that broke off is an update. -/
theorem BrokenOff.updated (h₁ : BrokenOff image old mid) (h₂ : Updated image mid new) :
    Updated image old new :=
  ⟨h₂.touched, fun a ha => (h₂.untouched a ha).trans (h₁.untouched a ha)⟩

/-- One page that the image touches is replaced. -/
theorem BrokenOff.setPage {page : Nat} (data : Nat → UInt8) (htouches : Touches image page)
    (hdata : (∀ a, a / spmPagesize = page → data (a % spmPagesize) = 0xFF) ∨
      ∀ a, a / spmPagesize = page → data (a % spmPagesize) = (image a).getD 0xFF)
    (old : Nat → UInt8) : BrokenOff image old (Memory.setPage flash page data old) := by
  have hpage (a : Nat) (ha : a / spmPagesize = page) :
      Memory.setPage flash page data old a = data (a % spmPagesize) := if_pos ha
  have hother (a : Nat) (ha : a / spmPagesize ≠ page) :
      Memory.setPage flash page data old a = old a := if_neg ha
  refine ⟨fun p => ?_, fun a ha => hother a fun heq => ha (heq ▸ htouches)⟩
  by_cases hp : p = page
  · rcases hdata with herased | hnew
    · exact .inr (.inl fun a ha => (hpage a (ha.trans hp)).trans (herased a (ha.trans hp)))
    · exact .inr (.inr fun a ha => (hpage a (ha.trans hp)).trans (hnew a (ha.trans hp)))
  · exact .inl fun a ha => hother a fun heq => hp (ha.symm.trans heq)

/-! ## The requests of a session -/

/-- The report in `low`, `high` and `data` is a page of the image. -/
structure PageReport (image : Nat → Option UInt8) (page : Nat) (low high : UInt8)
    (data : List UInt8) : Prop where
  length : data.length = spmPagesize
  aligned : (reportAddress low high).toNat % spmPagesize = 0
  address : flash.pageOf (reportAddress low high).toNat = page
  bytes : ∀ a, a / spmPagesize = page → data.getD (a % spmPagesize) 0xFF = (image a).getD 0xFF

/-- A request with a page of the image. -/
structure PageRequest (image : Nat → Option UInt8) (page : Nat) (r : ControlRequest) : Prop where
  isSetReport : r.isSetReport = true
  report : ∃ low high data, r.Sends (low :: high :: data) ∧ PageReport image page low high data
  touches : Touches image page

/-- The request that starts the application. -/
structure StartRequest (r : ControlRequest) : Prop where
  isSetReport : r.isSetReport = true
  sends : ∃ data, r.Sends (0xFF :: 0xFF :: data)

/-- The first packets of a request. -/
def firstPackets (r : ControlRequest) (k : Nat) : ControlRequest :=
  { r with packets := r.packets.take k }

/-- The packets that come carry the front of the data. -/
theorem sends_firstPackets {r : ControlRequest} {report : List UInt8} (h : r.Sends report)
    (k : Nat) : ∃ rest, (firstPackets r k).Sends ((r.packets.take k).flatten) ∧
      report = (r.packets.take k).flatten ++ rest := by
  have hdata : r.packets.flatten = report := h.data
  refine ⟨(r.packets.drop k).flatten, ⟨rfl, fun p hp => ?_, fun p hp => ?_⟩, ?_⟩
  · rcases List.mem_cons.mp hp with rfl | hp
    · exact Nat.dvd_zero 2
    · exact h.even p (List.mem_cons_of_mem _ (List.mem_of_mem_take hp))
  · exact h.later p (List.mem_of_mem_take hp)
  · rw [← List.flatten_append, List.take_append_drop, hdata]

/-- The bytes that have come are none or at least the two of the address. -/
theorem firstPackets_cases {r : ControlRequest} {low high : UInt8} {data : List UInt8}
    (h : r.Sends (low :: high :: data)) (k : Nat) :
    (firstPackets r k).packets = [] ∨
      ∃ front rest, (firstPackets r k).Sends (low :: high :: front) ∧ data = front ++ rest := by
  obtain ⟨rest, hsends, hreport⟩ := sends_firstPackets h k
  by_cases hnone : r.packets.take k = []
  · exact .inl hnone
  · right
    have hne : (r.packets.take k).flatten ≠ [] := by
      obtain ⟨packet, packets, hpackets⟩ := List.exists_cons_of_ne_nil hnone
      rw [hpackets, List.flatten_cons]
      have hpacket := hsends.later packet
        (show packet ∈ r.packets.take k by rw [hpackets]; exact List.mem_cons_self)
      exact fun hnil => hpacket (List.append_eq_nil_iff.mp hnil).1
    obtain ⟨b₀, front, hfront⟩ := List.exists_cons_of_ne_nil hne
    obtain ⟨b₁, front, rfl⟩ := DataStage.Carries.pair (hfront ▸ hsends)
    rw [hfront] at hreport hsends
    simp only [List.cons_append, List.cons.injEq] at hreport
    obtain ⟨rfl, rfl, hdata⟩ := hreport
    exact ⟨front, rest, hsends, hdata⟩

/-! ## One request -/

variable {r : ControlRequest}

theorem firstPackets_isSetReport (r : ControlRequest) (k : Nat) :
    (firstPackets r k).isSetReport = r.isSetReport := rfl

/-- Without a packet nothing happens. -/
theorem bytes_setReport_nil (h : r.packets = []) (b : Boot) :
    (setReport r b).memory.bytes = b.memory.bytes := by
  unfold setReport
  rw [h]
  rfl

/-- However much of a page has come, the page is old, erased or new. -/
theorem PageRequest.brokenOff {page : Nat} (h : PageRequest image page r) (k : Nat) (b : Boot) :
    BrokenOff image b.memory.bytes (setReport (firstPackets r k) b).memory.bytes := by
  obtain ⟨low, high, data, hreport, hpage⟩ := h.report
  rcases firstPackets_cases hreport k with hnil | ⟨front, rest, hsends, hdata⟩
  · rw [bytes_setReport_nil hnil]
    exact BrokenOff.refl image _
  · have hstart : reportAddress low high ≠ commandStartApplication := by
      intro hstart
      have haligned := hpage.aligned
      rw [hstart] at haligned
      exact absurd haligned (by decide)
    have hlength := hpage.length
    rw [hdata, List.length_append] at hlength
    by_cases hfull : front.length = spmPagesize
    · have hrest : rest = [] := List.eq_nil_of_length_eq_zero (by omega)
      rw [hrest, List.append_nil] at hdata
      rw [setReport_page hsends hfull hpage.aligned, ← hdata, hpage.address]
      exact BrokenOff.setPage (fun i => data.getD i 0xFF) h.touches (.inr hpage.bytes) _
    · rw [(setReport_short hsends (by omega) hstart b).2, hpage.address]
      exact BrokenOff.setPage (fun _ => 0xFF) h.touches (.inl fun _ _ => rfl) _

theorem StartRequest.brokenOff (h : StartRequest r) (k : Nat) (b : Boot) :
    BrokenOff image b.memory.bytes (setReport (firstPackets r k) b).memory.bytes := by
  obtain ⟨data, hsends⟩ := h.sends
  rcases firstPackets_cases hsends k with hnil | ⟨front, rest, hfront, -⟩
  · rw [bytes_setReport_nil hnil]
    exact BrokenOff.refl image _
  · rw [setReport_start hfront rfl]
    exact BrokenOff.refl image _

/-! ## Sessions that break off -/

/-- A request of a session. -/
def SessionRequest (image : Nat → Option UInt8) (r : ControlRequest) : Prop :=
  (∃ page, PageRequest image page r) ∨ StartRequest r

theorem SessionRequest.brokenOff (h : SessionRequest image r) (k : Nat) (b : Boot) :
    BrokenOff image b.memory.bytes (eventControlRequest (firstPackets r k) b).memory.bytes := by
  unfold eventControlRequest
  rw [firstPackets_isSetReport]
  rcases h with ⟨page, hpage⟩ | hstart
  · rw [if_pos hpage.isSetReport]
    exact hpage.brokenOff k b
  · rw [if_pos hstart.isSetReport]
    exact hstart.brokenOff k b

/-- Whatever requests of a session come, and however much of each. -/
theorem handleAll_brokenOff {rs : List ControlRequest}
    (h : ∀ r' ∈ rs, ∃ r k, SessionRequest image r ∧ r' = firstPackets r k) (b : Boot) :
    BrokenOff image b.memory.bytes (handleAll b rs).memory.bytes := by
  induction rs generalizing b with
  | nil => exact BrokenOff.refl image _
  | cons r' rs ih =>
    rw [handleAll]
    split
    · exact BrokenOff.refl image _
    · obtain ⟨r, k, hr, rfl⟩ := h _ List.mem_cons_self
      exact (hr.brokenOff k b).trans (ih (fun r' hr' => h r' (List.mem_cons_of_mem _ hr')) _)

/-! ## A complete session -/

/-- A request with a page leaves the bootloader ready for the next one. -/
theorem PageRequest.handled {page : Nat} (h : PageRequest image page r) (b : Boot) :
    ∃ m, eventControlRequest r b = { b with memory := m } ∧
      ∀ a, m.bytes a
        = if a / spmPagesize = page then (image a).getD 0xFF else b.memory.bytes a := by
  obtain ⟨low, high, data, hreport, hpage⟩ := h.report
  unfold eventControlRequest
  rw [if_pos h.isSetReport, setReport_page hreport hpage.length hpage.aligned, hpage.address]
  refine ⟨_, rfl, fun a => ?_⟩
  dsimp only
  by_cases ha : a / spmPagesize = page
  · rw [if_pos ha]
    exact (if_pos ha).trans (hpage.bytes a ha)
  · rw [if_neg ha]
    exact if_neg ha

theorem StartRequest.handled (h : StartRequest r) (b : Boot) :
    eventControlRequest r b = { b with runBootloader := false } := by
  obtain ⟨data, hsends⟩ := h.sends
  rw [eventControlRequest, if_pos h.isSetReport, setReport_start hsends rfl]

/-- The pages one after another. -/
theorem handleAll_pages (page : Nat → Nat) {pages : List Nat} {f : Nat → ControlRequest}
    (h : ∀ p ∈ pages, PageRequest image (page p) (f p)) (rest : List ControlRequest) {b : Boot}
    (hb : b.waiting = false) :
    ∃ m, handleAll b (pages.map f ++ rest) = handleAll { b with memory := m } rest ∧
      ∀ a, m.bytes a = if a / spmPagesize ∈ pages.map page then (image a).getD 0xFF
        else b.memory.bytes a := by
  induction pages generalizing b with
  | nil => exact ⟨b.memory, rfl, fun a => (if_neg (by simp)).symm⟩
  | cons p pages ih =>
    obtain ⟨m, hhandled, hm⟩ := (h p List.mem_cons_self).handled b
    obtain ⟨m', hpages, hm'⟩ := ih (fun q hq => h q (List.mem_cons_of_mem _ hq))
      (b := { b with memory := m }) hb
    refine ⟨m', ?_, fun a => ?_⟩
    · rw [List.map_cons, List.cons_append, handleAll, if_neg (by rw [hb]; exact Bool.false_ne_true),
        hhandled]
      exact hpages
    · rw [hm', List.map_cons]
      dsimp only
      by_cases hlater : a / spmPagesize ∈ pages.map page
      · rw [if_pos hlater, if_pos (List.mem_cons_of_mem _ hlater)]
      · rw [if_neg hlater, hm]
        by_cases hfirst : a / spmPagesize = page p
        · rw [if_pos hfirst, if_pos (hfirst ▸ List.mem_cons_self)]
        · rw [if_neg hfirst, if_neg (by rw [List.mem_cons]; tauto)]

/-! ## The session of the loader -/

/-- The image in the variables of the loader. -/
def imageOf (s : Statics) (a : Nat) : Option UInt8 :=
  if a < maxMemorySize ∧ s.firmwareMask a = true then some (s.firmwareImage a) else none

theorem imageByte_eq (s : Statics) (a : Nat) : s.imageByte a = (imageOf s a).getD 0xFF := by
  unfold Statics.imageByte imageOf
  split <;> rfl

theorem isSome_imageOf {s : Statics} {a : Nat} :
    (imageOf s a).isSome = true ↔ a < maxMemorySize ∧ s.firmwareMask a = true := by
  unfold imageOf
  split
  · next h => simp [h]
  · next h => simp [h]

/-- All the image lies below the bootloader. -/
def BelowBootloader (image : Nat → Option UInt8) : Prop :=
  ∀ a, (image a).isSome = true → a < bootStartOffset

/-- The options are for the device of the makefile. -/
structure ForDevice (o : Options) : Prop where
  codeSize : o.codeSize = flash.size
  blockSize : o.blockSize = spmPagesize

theorem forDevice_of_sizes {o : Options} (h : Sizes o.codeSize o.blockSize)
    (hcode : o.codeSize = flash.size) : ForDevice o := by
  refine ⟨hcode, ?_⟩
  have hsize : flash.size = 0x8000 := rfl
  rcases h.cases with ⟨-, hlarge⟩ | ⟨hblock, -⟩
  · omega
  · exact hblock

variable {s : Statics} {o : Options} {size : Nat} (emptyBank : UInt8)

theorem sizes_of_forDevice (ho : ForDevice o) : Sizes o.codeSize o.blockSize := by
  rw [ho.codeSize, ho.blockSize]
  exact Sizes.kb32

/-- The pages that are sent are those the image touches. -/
theorem mem_pagesSent_iff (ho : ForDevice o) (happ : BelowBootloader (imageOf s)) {a : Nat} :
    a / spmPagesize ∈ (pagesSent s o).map (· / spmPagesize) ↔
      Touches (imageOf s) (a / spmPagesize) := by
  have hpage : 0 < spmPagesize := by decide
  rw [List.mem_map]
  simp only [mem_pagesSent (sizes_of_forDevice ho), ho.codeSize, ho.blockSize]
  constructor
  · rintro ⟨addr, ⟨-, -, hsends⟩, haddr⟩
    rw [← haddr]
    rcases hsends with rfl | ⟨a', ha', hmask, rfl⟩
    · exact .inl (Nat.zero_div _)
    · refine .inr ⟨a', ?_, isSome_imageOf.mpr ⟨ha', hmask⟩⟩
      rw [Nat.mul_div_cancel _ hpage]
  · rintro (hfirst | ⟨a', ha', hsome⟩)
    · exact ⟨0, ⟨by decide, Nat.zero_mod _, .inl rfl⟩, by rw [hfirst]; rfl⟩
    · obtain ⟨hlt, hmask⟩ := isSome_imageOf.mp hsome
      refine ⟨a' / spmPagesize * spmPagesize, ⟨?_, Nat.mul_mod_left _ _,
        .inr ⟨a', hlt, hmask, rfl⟩⟩, by rw [Nat.mul_div_cancel _ hpage, ha']⟩
      exact Nat.lt_of_le_of_lt (Nat.div_mul_le_self a' _)
        (Nat.lt_trans (happ a' hsome) (by decide))

theorem length_ihexGetData (s : Statics) (addr len : Nat) :
    (s.ihexGetData addr len).length = len := by
  unfold Statics.ihexGetData
  split
  · exact List.length_replicate
  · rw [List.length_map, List.length_range]

/-- The bootloader reads back the address the loader has written. -/
theorem toNat_reportAddress {addr : Nat} (haddr : addr < flash.size) :
    (reportAddress (UInt8.ofNat (addr % 256)) (UInt8.ofNat (addr / 256 % 256))).toNat = addr := by
  have hflash : flash.size = 32768 := rfl
  rw [reportAddress, BitVec.toNat_ofNat, UInt8.toNat_ofNat', UInt8.toNat_ofNat']
  omega

theorem pageReport_eq (ho : ForDevice o) (s : Statics) (addr : Nat) :
    pageReport s o addr = UInt8.ofNat (addr % 256) :: UInt8.ofNat (addr / 256 % 256) ::
      s.ihexGetData addr spmPagesize := by
  have hbytes : addressBytes o.codeSize addr
      = [UInt8.ofNat (addr % 256), UInt8.ofNat (addr / 256 % 256)] :=
    if_pos (by rw [ho.codeSize]; decide)
  rw [pageReport, hbytes, ho.blockSize]
  rfl

/-- What is fetched for a page is the page of the image. -/
theorem pageReport_page {addr : Nat} (haddr : addr < flash.size)
    (halign : addr % spmPagesize = 0) :
    PageReport (imageOf s) (addr / spmPagesize) (UInt8.ofNat (addr % 256))
      (UInt8.ofNat (addr / 256 % 256)) (s.ihexGetData addr spmPagesize) := by
  have hflash : flash.size = 32768 := rfl
  refine ⟨length_ihexGetData s addr spmPagesize, ?_, ?_, fun a ha => ?_⟩
  · rw [toNat_reportAddress haddr]
    exact halign
  · rw [toNat_reportAddress haddr, Geometry.pageOf, Nat.mod_eq_of_lt haddr]
    rfl
  · have hoffset : a % spmPagesize < spmPagesize := Nat.mod_lt a (by decide)
    have hcell : addr + a % spmPagesize = a := by
      unfold spmPagesize at halign ha ⊢
      omega
    rw [List.getD_eq_getElem?_getD, ihexGetData_getElem? hoffset, hcell, ← imageByte_eq,
      if_neg (by unfold maxMemorySize spmPagesize; omega), Option.getD_some]

/-- A report with a page, as it is on the wire. -/
theorem pageRequest (ho : ForDevice o) (hsize : 2 ∣ size) {addr : Nat}
    (haddr : addr ∈ pagesSent s o) :
    PageRequest (imageOf s) (addr / spmPagesize)
      (request size emptyBank (pageReport s o addr)) := by
  obtain ⟨hlt, halign, hsends⟩ := (mem_pagesSent (sizes_of_forDevice ho)).mp haddr
  rw [ho.codeSize] at hlt
  rw [ho.blockSize] at halign hsends
  have hwire : (request size emptyBank (pageReport s o addr)).Sends (pageReport s o addr) := by
    refine sends_cut hsize ?_ rfl
    rw [pageReport_eq ho, List.length_cons, List.length_cons, length_ihexGetData]
    decide
  rw [pageReport_eq ho] at hwire ⊢
  refine ⟨isSetReport_request _ _ _, ⟨_, _, _, hwire, pageReport_page hlt halign⟩, ?_⟩
  rcases hsends with rfl | ⟨a', ha', hmask, rfl⟩
  · exact .inl (Nat.zero_div _)
  · refine .inr ⟨a', ?_, isSome_imageOf.mpr ⟨ha', hmask⟩⟩
    rw [Nat.mul_div_cancel _ (by decide)]

theorem startRequest (ho : ForDevice o) (hsize : 2 ∣ size) :
    StartRequest (request size emptyBank (rebootReport o)) := by
  refine ⟨isSetReport_request _ _ _, List.replicate o.blockSize 0, sends_cut hsize ?_ rfl⟩
  rw [List.length_cons, List.length_cons, List.length_replicate, ho.blockSize]
  decide

/-- The requests of a session that writes all it has to write. -/
def sessionRequests (size : Nat) (emptyBank : UInt8) (s : Statics) (o : Options) :
    List ControlRequest :=
  (sessionReports o ((pagesSent s o).map (pageReport s o))).map (request size emptyBank)

theorem sessionRequests_eq (size : Nat) (emptyBank : UInt8) (s : Statics) (o : Options) :
    sessionRequests size emptyBank s o
      = (pagesSent s o).map (fun addr => request size emptyBank (pageReport s o addr)) ++
        if o.rebootAfterProgramming then [request size emptyBank (rebootReport o)] else [] := by
  unfold sessionRequests sessionReports
  rw [List.map_append, List.map_map]
  split <;> rfl

theorem sessionRequest_of_mem (ho : ForDevice o) (hsize : 2 ∣ size) {r : ControlRequest}
    (hr : r ∈ sessionRequests size emptyBank s o) : SessionRequest (imageOf s) r := by
  rw [sessionRequests_eq, List.mem_append] at hr
  rcases hr with hpage | hstart
  · obtain ⟨addr, haddr, rfl⟩ := List.mem_map.mp hpage
    exact .inl ⟨_, pageRequest emptyBank ho hsize haddr⟩
  · split at hstart
    · rw [List.mem_singleton.mp hstart]
      exact .inr (startRequest emptyBank ho hsize)
    · simp at hstart

/-- **A session updates the flash**, and starts the application if it is asked to. -/
theorem handleAll_session (ho : ForDevice o) (happ : BelowBootloader (imageOf s))
    (hsize : 2 ∣ size) {b : Boot} (hb : b.waiting = false) :
    Updated (imageOf s) b.memory.bytes
        (handleAll b (sessionRequests size emptyBank s o)).memory.bytes ∧
      (handleAll b (sessionRequests size emptyBank s o)).waiting = false ∧
      (handleAll b (sessionRequests size emptyBank s o)).runBootloader
        = (b.runBootloader && !o.rebootAfterProgramming) := by
  rw [sessionRequests_eq]
  obtain ⟨m, hpages, hm⟩ := handleAll_pages (· / spmPagesize)
    (fun addr haddr => pageRequest emptyBank ho hsize haddr)
    (if o.rebootAfterProgramming then [request size emptyBank (rebootReport o)] else []) hb
  have hupdated : Updated (imageOf s) b.memory.bytes m.bytes := by
    refine ⟨fun a ha => ?_, fun a ha => ?_⟩
    · rw [hm, if_pos ((mem_pagesSent_iff ho happ).mpr ha)]
    · rw [hm, if_neg fun hmem => ha ((mem_pagesSent_iff ho happ).mp hmem)]
  rw [hpages]
  cases o.rebootAfterProgramming with
  | false => exact ⟨hupdated, hb, (Bool.and_true _).symm⟩
  | true =>
    rw [if_pos rfl, handleAll, if_neg (by rw [hb]; exact Bool.false_ne_true),
      (startRequest emptyBank ho hsize).handled]
    exact ⟨hupdated, hb, (Bool.and_false _).symm⟩

/-! ## From the file to the flash -/

/-- A file that is accepted, has right checksums and stays below the bootloader is loaded as is. -/
theorem imageOf_readIntelHex {rs : List Record} {text : List Char} (hfile : File rs text)
    (hsound : ∀ r ∈ upToEnd rs, r.Sound) (hbelow : BelowBootloader (contents rs).bytes)
    (old : Nat → Locals) (s₀ : Statics) (haccepted : 0 ≤ (readIntelHex old (some text) s₀).1) :
    imageOf (readIntelHex old (some text) s₀).2 = (contents rs).bytes := by
  rw [readIntelHex_file hfile] at haccepted ⊢
  have htaken : ¬Meets Refuses s₀.reset.extendedAddr rs := by
    intro hrefused
    rw [takeAll_refused rs rfl hrefused] at haccepted
    exact absurd haccepted (by decide)
  have hends : ¬Meets Loader.Reaches s₀.reset.extendedAddr rs := by
    intro hreaches
    obtain ⟨a, ha, hsome⟩ := exists_outside rs (m := Image.empty) (Nat.zero_le _) hreaches hsound
    have hlow := hbelow a hsome
    unfold maxMemorySize at ha
    exact absurd (Nat.lt_of_lt_of_le hlow (by decide : bootStartOffset ≤ 0x10000))
      (Nat.not_lt.mpr ha)
  have hagrees := takeAll_agrees rs rfl (reset_agrees s₀) rfl htaken hends hsound
  funext a
  show imageOf _ a = (List.foldl Image.load Image.empty (upToEnd rs)).bytes a
  unfold imageOf
  by_cases ha : a < maxMemorySize
  · rw [hagrees.mask a ha, hagrees.image a ha]
    cases (List.foldl Image.load Image.empty (upToEnd rs)).bytes a with
    | none => simp
    | some v => simp [ha]
  · rw [if_neg fun h => ha h.1, hagrees.inside a (Nat.not_lt.mp ha)]

/-- The bootloader's own pages are not touched. -/
theorem Updated.own (h : Updated image old new) (hbelow : BelowBootloader image) {a : Nat}
    (ha : bootStartOffset ≤ a) : new a = old a := by
  refine h.untouched a ?_
  have hstart : bootStartOffset = 28672 := rfl
  rintro (hfirst | ⟨a', ha', hsome⟩)
  · unfold spmPagesize at hfirst
    omega
  · have hlow := hbelow a' hsome
    unfold spmPagesize at ha'
    omega

/--
**From the file to the flash.** Let the hex file be well formed, the same whenever it is read, with
right checksums in every record up to its end record, and with no byte in the bootloader section.
If the loader returns 0 for the device of the makefile, its reports, sent to the bootloader in
packets of any even size, make the flash what the file says: each byte of the file is in its place,
the rest of the pages it touches and of the first page is erased, and every other byte is as it was,
those of the bootloader among them. The application is started unless the loader was told not to.
-/
theorem updated_of_main {h : Host} {turns : Nat} {args : List (List Char)} {s₀ : Statics}
    {dev : UsbDevice} {reports : List (List UInt8)}
    (hmain : main h turns args s₀ = .finished dev reports)
    (hargs : parseOptions args .start = some o) (hcode : o.codeSize = flash.size)
    {rs : List Record} {text : List Char} (hhost : ∀ n, h.file n = some text)
    (hfile : File rs text) (hsound : ∀ r ∈ upToEnd rs, r.Sound)
    (hbelow : BelowBootloader (contents rs).bytes) (hsize : 2 ∣ size) {b : Boot}
    (hb : b.waiting = false) :
    Updated (contents rs).bytes b.memory.bytes
        (handleAll b (reports.map (request size emptyBank))).memory.bytes ∧
      (∀ a, bootStartOffset ≤ a →
        (handleAll b (reports.map (request size emptyBank))).memory.bytes a = b.memory.bytes a) ∧
      (handleAll b (reports.map (request size emptyBank))).waiting = false ∧
      (handleAll b (reports.map (request size emptyBank))).runBootloader
        = (b.runBootloader && !o.rebootAfterProgramming) := by
  obtain ⟨o', n, hs⟩ := succeeds_of_main hmain
  obtain rfl : o' = o := Option.some.inj (hs.options.symm.trans hargs)
  obtain ⟨pages, hpages, rfl⟩ := hs.written
  have ho : ForDevice o' := forDevice_of_sizes (sizes_of_parseOptions hargs hs.codeSize) hcode
  have himage : imageOf (h.lastReading s₀ n).2 = (contents rs).bytes := by
    have hread := hs.lastReading
    unfold Host.lastReading at hread ⊢
    simp only [hhost] at hread ⊢
    split at hread
    · next hzero =>
      rw [if_pos hzero]
      exact imageOf_readIntelHex hfile hsound hbelow _ _ hread
    · next hlater =>
      rw [if_neg hlater]
      exact imageOf_readIntelHex hfile hsound hbelow _ _ hread
  have hsession : (sessionReports o' pages).map (request size emptyBank)
      = sessionRequests size emptyBank (h.lastReading s₀ n).2 o' := by
    rw [program_eq hpages]
    rfl
  obtain ⟨hupdated, hwaiting, hrun⟩ :=
    handleAll_session emptyBank ho (himage ▸ hbelow) hsize hb
  rw [himage, ← hsession] at hupdated
  rw [← hsession] at hwaiting hrun
  exact ⟨hupdated, fun a ha => hupdated.own hbelow ha, hwaiting, hrun⟩

/-- A host that has the file and finds the device at once. -/
def readyHost (text : List Char) : Host where
  file _ := some text
  stack _ _ := .zero
  bus _ _ := [⟨0x16C0, 0x0478, true, true⟩]
  rebootSent _ := true
  teensyWrite _ _ := true

/-- `:0100100041AE` and an end record. -/
def byteFile : List Record := [byteRecord, endRecord 0xFF]

/-- `-mmcu=atmega32u4 a.hex`. -/
def argsByteFile : List (List Char) := argsAtmega32u4 ++ [['a', '.', 'h', 'e', 'x']]

def byteFileOptions : Options := { atmega32u4 with filename := some ['a', '.', 'h', 'e', 'x'] }

theorem contents_byteFile {a : Nat} (ha : ((contents byteFile).bytes a).isSome = true) :
    a = 16 := by
  by_contra hne
  have hnone : (contents byteFile).bytes a = none := by
    show (if 16 ≤ a then ([0x41][a - 16]?).or none else none) = none
    split
    · next hle =>
      rw [List.getElem?_eq_none (by rw [List.length_singleton]; omega)]
      rfl
    · rfl
  rw [hnone] at ha
  exact absurd ha Bool.false_ne_true

theorem main_byteFile : ∃ reports, main (readyHost (fileText byteFile)) 1 argsByteFile .zero
    = .finished ⟨0x16C0, 0x0478, true, true⟩ reports := by
  have hread : 0 ≤ (readIntelHex (fun _ => .zero) (some (fileText byteFile)) .zero).1 := by
    rw [readIntelHex_file (file_fileText byteFile)]
    decide
  obtain ⟨pages, hpages⟩ := programBlocks_always
    (readIntelHex (fun _ => .zero) (some (fileText byteFile)) .zero).2 byteFileOptions
    (blockAddrs byteFileOptions.codeSize byteFileOptions.blockSize)
  refine ⟨sessionReports byteFileOptions pages, main_of_succeeds (o := byteFileOptions) (n := 0) ?_⟩
  have hlast : (readyHost (fileText byteFile)).lastReading .zero 0
      = readIntelHex (fun _ => .zero) (some (fileText byteFile)) .zero := by
    rw [Host.lastReading, if_pos rfl]
    rfl
  exact {
    options := rfl
    filename := Option.some_ne_none _
    codeSize := Nat.succ_ne_zero _
    firstReading := hread
    lastReading := by
      rw [hlast]
      exact hread
    turn := Nat.one_pos
    opened := rfl
    missing := by simp
    patient := .inl rfl
    written := by
      rw [hlast]
      exact ⟨pages, hpages, rfl⟩ }

theorem updated_of_main_byteFile : ∃ reports : List (List UInt8),
    Updated (contents byteFile).bytes (fun _ => 0x55)
      (handleAll (reset fun _ => 0x55) (reports.map (request 8 0))).memory.bytes := by
  obtain ⟨reports, hmain⟩ := main_byteFile
  refine ⟨reports, (updated_of_main 0 hmain (o := byteFileOptions) rfl rfl (fun _ => rfl)
    (file_fileText byteFile) (by decide) (fun a ha => ?_) (by decide) (b := reset fun _ => 0x55)
    rfl).1⟩
  rw [contents_byteFile ha]
  decide

/-! ## Sessions that break off, and one that does not -/

/-- The flash after attempts, each of them ended by a reset. -/
def afterAttempts (bytes : Nat → UInt8) (attempts : List (List ControlRequest)) : Nat → UInt8 :=
  attempts.foldl (fun bytes rs => (handleAll (reset bytes) rs).memory.bytes) bytes

theorem afterAttempts_brokenOff {attempts : List (List ControlRequest)}
    (h : ∀ rs ∈ attempts, ∀ r' ∈ rs, ∃ r k, SessionRequest image r ∧ r' = firstPackets r k)
    (bytes : Nat → UInt8) : BrokenOff image bytes (afterAttempts bytes attempts) := by
  induction attempts generalizing bytes with
  | nil => exact BrokenOff.refl image bytes
  | cons rs attempts ih =>
    have hfirst := handleAll_brokenOff (h rs List.mem_cons_self) (reset bytes)
    exact hfirst.trans (ih (fun rs' hrs' => h rs' (List.mem_cons_of_mem _ hrs')) _)

/--
**A broken update can be repeated.** The session is one for the device of the makefile, with an
image that has no byte in the bootloader section. Whatever requests of it have come in whatever
order, and however many packets of each, and however often the device was reset in between: every
page is as it was, erased, or as it shall be, and a complete session makes the flash the same as
without all that.
-/
theorem update_after_attempts (ho : ForDevice o) (hbelow : BelowBootloader (imageOf s))
    (hsize : 2 ∣ size) {attempts : List (List ControlRequest)}
    (h : ∀ rs ∈ attempts, ∀ r' ∈ rs, ∃ r k, r ∈ sessionRequests size emptyBank s o ∧
      r' = firstPackets r k) (bytes : Nat → UInt8) :
    BrokenOff (imageOf s) bytes (afterAttempts bytes attempts) ∧
      (handleAll (reset (afterAttempts bytes attempts))
          (sessionRequests size emptyBank s o)).memory.bytes
        = (handleAll (reset bytes) (sessionRequests size emptyBank s o)).memory.bytes := by
  have hbroken : BrokenOff (imageOf s) bytes (afterAttempts bytes attempts) := by
    refine afterAttempts_brokenOff (fun rs hrs r' hr' => ?_) bytes
    obtain ⟨r, k, hr, hr'⟩ := h rs hrs r' hr'
    exact ⟨r, k, sessionRequest_of_mem emptyBank ho hsize hr, hr'⟩
  have hagain := (handleAll_session emptyBank ho hbelow hsize
    (b := reset (afterAttempts bytes attempts)) rfl).1
  have honce := (handleAll_session emptyBank ho hbelow hsize (b := reset bytes) rfl).1
  exact ⟨hbroken, (hbroken.updated hagain).unique honce⟩

/-- An image with one byte, at 256. -/
def oneByte : Statics := Statics.zero.store 256 0x41

theorem imageOf_oneByte : imageOf oneByte 256 = some 0x41 := by decide

theorem isSome_oneByte {a : Nat} (ha : (imageOf oneByte a).isSome = true) : a = 256 := by
  by_contra hne
  have hmask : oneByte.firmwareMask a = false := Function.update_of_ne hne _ _
  rw [(isSome_imageOf.mp ha).2] at hmask
  cases hmask

theorem belowBootloader_oneByte : BelowBootloader (imageOf oneByte) := by
  intro a ha
  rw [isSome_oneByte ha]
  decide

/-- The request with the byte. -/
def byteRequest : ControlRequest := request 8 0 (pageReport oneByte atmega32u4 256)

theorem byteRequest_mem : byteRequest ∈ sessionRequests 8 0 oneByte atmega32u4 := by
  have hsent : 256 ∈ pagesSent oneByte atmega32u4 :=
    (mem_pagesSent Sizes.kb32).mpr ⟨by decide, rfl, .inr ⟨256, by decide, by decide, rfl⟩⟩
  rw [sessionRequests_eq]
  exact List.mem_append_left _ (List.mem_map_of_mem hsent)

/-- Two attempts break off in the page with the byte, after one packet and after three. -/
theorem update_after_attempts_byte :
    BrokenOff (imageOf oneByte) (fun _ => 0x55) (afterAttempts (fun _ => 0x55)
      [[firstPackets byteRequest 1], [firstPackets byteRequest 3]]) ∧
    (handleAll (reset (afterAttempts (fun _ => 0x55)
        [[firstPackets byteRequest 1], [firstPackets byteRequest 3]]))
        (sessionRequests 8 0 oneByte atmega32u4)).memory.bytes
      = (handleAll (reset fun _ => 0x55)
        (sessionRequests 8 0 oneByte atmega32u4)).memory.bytes := by
  refine update_after_attempts 0 ⟨rfl, rfl⟩ belowBootloader_oneByte (by decide)
    (fun rs hrs r' hr' => ?_) fun _ => 0x55
  rcases List.mem_cons.mp hrs with rfl | hrs
  · exact ⟨_, 1, byteRequest_mem, List.mem_singleton.mp hr'⟩
  · rw [List.mem_singleton.mp hrs] at hr'
    exact ⟨_, 3, byteRequest_mem, List.mem_singleton.mp hr'⟩

end SphereWare.Update
