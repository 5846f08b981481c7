import SphereWare.Bootloader.BootloaderHID

/-!
# What the bootloader programs

The bootloader programs whatever page the host names. It looks at the address for one value only,
the command that starts the application, so it programs its own pages like all the others.
-/

namespace SphereWare.Bootloader

open Flash

/-! ## One request -/

/-- The page address of a SetReport request, if the host sends one. -/
def ControlRequest.address (r : ControlRequest) : Option (BitVec 16) :=
  if r.isSetReport then
    (DataStage.mk [] r.packets).next.map fun d => (d.read16 r.emptyBank).1
  else none

/-- The page a request programs. -/
def ControlRequest.page (r : ControlRequest) : Option Nat :=
  (r.address.filter (· ≠ commandStartApplication)).map fun address => flash.pageOf address.toNat

theorem onlyPage_fillPage (page : Nat) (pageAddress : BitVec 16) (emptyBank : UInt8)
    (l : List Nat) (d : DataStage) (m : Memory) :
    Memory.OnlyPage flash page m (fillPage pageAddress emptyBank l d m).1 ∧
      (fillPage pageAddress emptyBank l d m).1.touched = m.touched := by
  induction l generalizing d m with
  | nil => exact ⟨Memory.OnlyPage.refl page, rfl⟩
  | cons pageWord l ih =>
    rw [fillPage]
    cases if d.bank = [] then d.next else some d with
    | none => exact ⟨Memory.OnlyPage.refl page, rfl⟩
    | some d =>
      obtain ⟨hpage, htouched⟩ := ih (d.read16 emptyBank).2
        (m.fill flash (pageAddress + BitVec.ofNat 16 (2 * pageWord)).toNat (d.read16 emptyBank).1)
      exact ⟨(Memory.onlyPage_fill page _ _).trans hpage, htouched⟩

/-- A change of the memory in which exactly the pages of `pages` are programmed. -/
structure Programs (pages : Nat → Prop) (m m' : Memory) : Prop where
  bytes : ∀ a, ¬pages (a / spmPagesize) → m'.bytes a = m.bytes a
  touched : ∃ l, m'.touched = m.touched ++ l ∧ ∀ p, p ∈ l ↔ pages p

theorem Programs.refl {pages : Nat → Prop} (h : ∀ p, ¬pages p) (m : Memory) : Programs pages m m :=
  ⟨fun _ _ => rfl, [], (List.append_nil _).symm, fun p => by simp [h p]⟩

theorem Programs.trans {pages₁ pages₂ : Nat → Prop} {m₁ m₂ m₃ : Memory}
    (h₁ : Programs pages₁ m₁ m₂) (h₂ : Programs pages₂ m₂ m₃) :
    Programs (fun p => pages₁ p ∨ pages₂ p) m₁ m₃ := by
  obtain ⟨l₁, hl₁, hpages₁⟩ := h₁.touched
  obtain ⟨l₂, hl₂, hpages₂⟩ := h₂.touched
  refine ⟨fun a ha => ?_, l₁ ++ l₂, ?_, fun p => ?_⟩
  · rw [not_or] at ha
    exact (h₂.bytes a ha.2).trans (h₁.bytes a ha.1)
  · rw [hl₂, hl₁, List.append_assoc]
  · rw [List.mem_append, hpages₁, hpages₂]

theorem Programs.of_onlyPage {page : Nat} {m m' : Memory} (h : Memory.OnlyPage flash page m m')
    {l : List Nat} (hl : m'.touched = m.touched ++ page :: l) (hpage : ∀ p ∈ l, p = page) :
    Programs (fun p => some page = some p) m m' := by
  refine ⟨fun a ha => h.bytes a fun heq => ha (congrArg some heq.symm), page :: l, hl, fun p => ?_⟩
  rw [List.mem_cons, Option.some.injEq]
  constructor
  · rintro (rfl | hp)
    · rfl
    · exact (hpage p hp).symm
  · exact fun hp => .inl hp.symm

/-- **A request programs the page it names.** -/
theorem eventControlRequest_programs (r : ControlRequest) (b : Boot) :
    Programs (fun p => r.page = some p) b.memory (eventControlRequest r b).memory := by
  unfold eventControlRequest ControlRequest.page ControlRequest.address setReport
  by_cases hset : r.isSetReport = true
  · rw [if_pos hset, if_pos hset]
    cases hdata : (DataStage.mk [] r.packets).next with
    | none => exact Programs.refl (by simp) _
    | some d =>
      dsimp only [Option.map_some]
      generalize d.read16 r.emptyBank = w
      by_cases hstart : w.1 = commandStartApplication
      · rw [if_pos hstart]
        exact Programs.refl (by simp [hstart]) _
      · rw [if_neg hstart]
        obtain ⟨hfill, htouched⟩ := onlyPage_fillPage (flash.pageOf w.1.toNat) w.1 r.emptyBank
          (List.range (spmPagesize / 2)) w.2 (b.memory.erase flash w.1.toNat)
        generalize fillPage w.1 r.emptyBank (List.range (spmPagesize / 2)) w.2
          (b.memory.erase flash w.1.toNat) = filled at hfill htouched
        have herased := (Memory.onlyPage_erase w.1.toNat).trans hfill
        obtain ⟨m, rest⟩ := filled
        have hpage : (Option.map (fun address : BitVec 16 => flash.pageOf address.toNat)
            (Option.filter (fun x => decide (x ≠ commandStartApplication)) (some w.1)))
            = some (flash.pageOf w.1.toNat) := by
          simp [hstart]
        rw [hpage]
        cases rest with
        | none => exact Programs.of_onlyPage (l := []) herased htouched (by simp)
        | some _ =>
          refine Programs.of_onlyPage (l := [flash.pageOf w.1.toNat])
            (herased.trans (Memory.onlyPage_write _)) ?_ (by simp)
          show m.touched ++ [flash.pageOf w.1.toNat] = _
          rw [show m.touched = _ from htouched]
          simp [Memory.erase]
  · rw [if_neg hset, if_neg hset]
    exact Programs.refl (by simp) _

/-! ## Sequences of requests -/

/-- The requests the bootloader gets to see: none while it waits. -/
def served (b : Boot) : List ControlRequest → List ControlRequest
  | [] => []
  | r :: rs => if b.waiting then [] else r :: served (eventControlRequest r b) rs

theorem handleAll_programs (b : Boot) (rs : List ControlRequest) :
    Programs (fun p => ∃ r ∈ served b rs, r.page = some p) b.memory (handleAll b rs).memory := by
  induction rs generalizing b with
  | nil => exact Programs.refl (by simp [served]) _
  | cons r rs ih =>
    rw [handleAll, served]
    split
    · exact Programs.refl (by simp) _
    · have h := (eventControlRequest_programs r b).trans (ih (eventControlRequest r b))
      simpa only [List.exists_mem_cons_iff] using h

theorem page_eq_some {r : ControlRequest} {p : Nat} :
    r.page = some p ↔ ∃ address, r.address = some address ∧ address ≠ commandStartApplication ∧
      flash.pageOf address.toNat = p := by
  simp only [ControlRequest.page, Option.map_eq_some_iff, Option.filter_eq_some_iff,
    decide_eq_true_eq, and_assoc]

/-- The pages erased or written since the reset. -/
theorem mem_touched {bytes : Nat → UInt8} {rs : List ControlRequest} {p : Nat} :
    p ∈ (handleAll (reset bytes) rs).memory.touched ↔
      ∃ r ∈ served (reset bytes) rs, r.page = some p := by
  obtain ⟨l, hl, hpages⟩ := (handleAll_programs (reset bytes) rs).touched
  rw [hl, ← hpages]
  rfl

/-- The first page of the bootloader is page 224. -/
theorem pageOf_lt_iff (address : BitVec 16) :
    flash.pageOf address.toNat < bootStartOffset / spmPagesize
      ↔ address.toNat % flash.size < bootStartOffset := by
  show address.toNat % 32768 / 128 < 224 ↔ address.toNat % 32768 < 28672
  omega

/-- No page of the bootloader is touched if no request names one. -/
theorem untouched_of_addresses {bytes : Nat → UInt8} {rs : List ControlRequest}
    (h : ∀ r ∈ served (reset bytes) rs, ∀ address, r.address = some address →
      address = commandStartApplication ∨ address.toNat % flash.size < bootStartOffset)
    {a : Nat} (ha : bootStartOffset ≤ a) :
    a / spmPagesize ∉ (handleAll (reset bytes) rs).memory.touched := by
  rw [mem_touched]
  rintro ⟨r, hr, hpage⟩
  obtain ⟨address, haddress, hstart, hpageOf⟩ := page_eq_some.mp hpage
  have happ := (pageOf_lt_iff address).mpr ((h r hr address haddress).resolve_left hstart)
  rw [hpageOf] at happ
  exact absurd (Nat.div_le_div_right ha) (Nat.not_le_of_lt happ)

theorem addresses_of_untouched {bytes : Nat → UInt8} {rs : List ControlRequest}
    (h : ∀ a, bootStartOffset ≤ a → a < flash.size →
      a / spmPagesize ∉ (handleAll (reset bytes) rs).memory.touched)
    {r : ControlRequest} (hr : r ∈ served (reset bytes) rs) {address : BitVec 16}
    (haddress : r.address = some address) (hstart : address ≠ commandStartApplication) :
    address.toNat % flash.size < bootStartOffset := by
  rw [← pageOf_lt_iff]
  by_contra hown
  have hpage : r.page = some (flash.pageOf address.toNat) :=
    page_eq_some.mpr ⟨address, haddress, hstart, rfl⟩
  have hlow : bootStartOffset ≤ flash.pageOf address.toNat * spmPagesize :=
    Nat.mul_le_mul_right spmPagesize (Nat.le_of_not_lt hown)
  have hhigh : flash.pageOf address.toNat * spmPagesize < flash.size := by
    rw [Geometry.size, Nat.mul_comm]
    exact Nat.mul_lt_mul_of_pos_left (flash.pageOf_lt _) (by decide)
  refine h _ hlow hhigh (mem_touched.mpr ⟨r, hr, ?_⟩)
  rw [Nat.mul_div_cancel _ (by decide), hpage]

/-- The command that starts the application leaves the memory alone. -/
theorem memory_startApplication {r : ControlRequest}
    (h : r.address = some commandStartApplication) (b : Boot) :
    (eventControlRequest r b).memory.bytes = b.memory.bytes ∧
      (eventControlRequest r b).memory.touched = b.memory.touched := by
  have hpage (p : Nat) : r.page ≠ some p := by
    intro hp
    obtain ⟨address, haddress, hstart, -⟩ := page_eq_some.mp hp
    exact hstart (Option.some.inj (haddress.symm.trans h))
  have hprograms := eventControlRequest_programs r b
  obtain ⟨l, hl, hpages⟩ := hprograms.touched
  have hnil : l = [] := List.eq_nil_iff_forall_not_mem.mpr fun p hp => hpage p ((hpages p).mp hp)
  exact ⟨funext fun a => hprograms.bytes a (hpage _), by rw [hl, hnil, List.append_nil]⟩

/--
**What the bootloader programs.** A request programs the page its address names and no other. No
byte from the start of the bootloader on is erased or written exactly as long as no request names an
address there. Bytes of pages that are neither erased nor written keep their values, and the command
that starts the application changes nothing.
-/
theorem ownPages_iff (bytes : Nat → UInt8) (rs : List ControlRequest) :
    (∀ r b, Programs (fun p => r.page = some p) b.memory (eventControlRequest r b).memory) ∧
    ((∀ a, bootStartOffset ≤ a → a < flash.size →
        a / spmPagesize ∉ (handleAll (reset bytes) rs).memory.touched) ↔
      ∀ r ∈ served (reset bytes) rs, ∀ address, r.address = some address →
        address = commandStartApplication ∨ address.toNat % flash.size < bootStartOffset) ∧
    (∀ a, a / spmPagesize ∉ (handleAll (reset bytes) rs).memory.touched →
      (handleAll (reset bytes) rs).memory.bytes a = bytes a) ∧
    ∀ r b, r.address = some commandStartApplication →
      (eventControlRequest r b).memory.bytes = b.memory.bytes ∧
        (eventControlRequest r b).memory.touched = b.memory.touched := by
  refine ⟨eventControlRequest_programs,
    ⟨fun h r hr address haddress => ?_, fun h a ha _ => untouched_of_addresses h ha⟩,
    fun a ha => ?_, fun r b h => memory_startApplication h b⟩
  · by_cases hstart : address = commandStartApplication
    · exact .inl hstart
    · exact .inr (addresses_of_untouched h hr haddress hstart)
  · exact (handleAll_programs (reset bytes) rs).bytes a fun hpage => ha (mem_touched.mpr hpage)

/-- A request for the first page of the bootloader: the address and 128 bytes, in packets of 8. -/
def requestOwnPage : ControlRequest where
  bmRequestType := 0x21
  bRequest := 0x09
  packets := [0x00, 0x70, 0, 0, 0, 0, 0, 0] :: List.replicate 15 (List.replicate 8 0) ++ [[0, 0]]
  emptyBank := 0

/-- The bootloader erases and writes its own first page. -/
theorem not_ownPages : ¬∀ (bytes : Nat → UInt8) (rs : List ControlRequest),
    (∀ a, bootStartOffset ≤ a → a < flash.size →
      a / spmPagesize ∉ (handleAll (reset bytes) rs).memory.touched) ∧
    ∀ r b, r.address = some commandStartApplication →
      (eventControlRequest r b).memory.bytes = b.memory.bytes := by
  intro h
  refine (h (fun _ => 0xFF) [requestOwnPage]).1 bootStartOffset (Nat.le_refl _) (by decide) ?_
  decide +kernel

end SphereWare.Bootloader
