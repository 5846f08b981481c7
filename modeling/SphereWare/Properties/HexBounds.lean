import SphereWare.Calls.History
import SphereWare.Properties.HexImage
import SphereWare.Spec.HexAccess

/-!
# The cells that are stored to

The guard of `parse_hex_line` adds the base, the address and the length in 32 bits. A record of data
that starts below the end of the 32-bit address space and does not end below it gets past the guard,
and its first byte is stored behind the arrays.
-/

namespace SphereWare.Loader

open IntelHex Memory

/-! ## Calls -/

/-- A line of hexadecimal digits, with or without its end, or a line that is no record. -/
def Spelled (line : List Char) : Prop :=
  line.head? ≠ some ':' ∨ ∃ ds eol, line = ':' :: (ds ++ eol) ∧
    (∀ c ∈ ds, (digit? c).isSome) ∧ (eol = [] ∨ Eol eol)

/-- A call of `parse_hex_line`, whatever the memory of its locals holds. -/
structure HexCall where
  old : Locals
  line : List Char
  spelled : Spelled line

namespace HexCall

/-- The variables after the call. -/
def step (s : Statics) (c : HexCall) : Statics := (parseHexLine c.old c.line s).2

/-- The variables after the calls. -/
def run (s : Statics) (calls : List HexCall) : Statics := calls.foldl step s

/-- The accesses of the call. -/
def access (c : HexCall) (s : Statics) : Access HexCell LineResult :=
  HexAccess.parseHexLine c.old c.line s

end HexCall

open HexCall

/-- The variables with any base an `unsigned int` can hold. -/
def Statics.withBase (s : Statics) (base : UInt32) : Statics :=
  { s with extendedAddr := base.toNat }

/-- A call stores within the arrays, and its loop takes no more turns than there are bytes. -/
structure Safe (s : Statics) (c : HexCall) : Prop where
  inside : (c.access s).Within maxMemorySize s.cells
  turns : ∀ l ∈ ((c.access s).run s.cells).1.loop, (l.turns : Int) ≤ l.len

/-! ## The condition -/

/-- The length, the address and the type that a line has for its record. -/
def header : List Char → Option (Nat × Nat × Nat)
  | ':' :: cs => do
    let len ← numberFrom 0 (cs.take 2)
    let addr ← numberFrom 0 ((cs.drop 2).take 4)
    let code ← numberFrom 0 ((cs.drop 6).take 2)
    pure (len, addr, code)
  | _ => none

/--
The line has a record of data, none of its digits missing, that starts below the end of the 32-bit
address space and does not end below it.
-/
def OverEnd (base : Nat) (line : List Char) : Prop :=
  ∃ len addr, header line = some (len, addr, 0) ∧ 11 + 2 * len ≤ line.length ∧
    base + addr < 2 ^ 32 ∧ 2 ^ 32 ≤ base + addr + len

/-! ## Fields -/

/-- The fields in front of a line. -/
def Fields (line : List Char) (len addr code : Nat) (rest : List Char) : Prop :=
  ∃ l a k, line = ':' :: (l ++ (a ++ (k ++ rest))) ∧
    Field 2 len l ∧ Field 4 addr a ∧ Field 2 code k

variable {line rest : List Char} {len addr code : Nat}

theorem Fields.header (h : Fields line len addr code rest) :
    header line = some (len, addr, code) := by
  obtain ⟨l, a, k, rfl, hl, ha, hk⟩ := h
  have hdrop : (l ++ (a ++ (k ++ rest))).drop 6 = k ++ rest := by
    rw [show 6 = 2 + 4 from rfl, ← List.drop_drop, drop_field hl, drop_field ha]
  rw [Loader.header, hdrop, drop_field hl]
  have htake {width n : Nat} {cs : List Char} (hf : Field width n cs) (tail : List Char) :
      numberFrom 0 ((cs ++ tail).take width) = some n := by
    rw [← hf.length, List.take_left, hf.number]
  rw [htake hl, htake ha, htake hk]
  rfl

/-- Eight digits make the fields. -/
theorem exists_fields {ds : List Char} (h : ∀ c ∈ ds, (digit? c).isSome) (hlength : 8 ≤ ds.length)
    (eol : List Char) :
    ∃ len addr code, Fields (':' :: (ds ++ eol)) len addr code (ds.drop 8 ++ eol) := by
  have hfield (n width : Nat) (hwidth : n + width ≤ 8) :
      ∃ m, Field width m ((ds.drop n).take width) := by
    have hcount : ((ds.drop n).take width).length = width := by
      rw [List.length_take, List.length_drop]
      omega
    have hdigits : ∀ c ∈ (ds.drop n).take width, (digit? c).isSome :=
      fun c hc => h c (List.mem_of_mem_drop (List.mem_of_mem_take hc))
    have hsome := exists_field hdigits
    rwa [hcount] at hsome
  obtain ⟨len, hlen⟩ := hfield 0 2 (by decide)
  obtain ⟨addr, haddr⟩ := hfield 2 4 (by decide)
  obtain ⟨code, hcode⟩ := hfield 6 2 (by decide)
  have hsplit : ds
      = (ds.drop 0).take 2 ++ ((ds.drop 2).take 4 ++ ((ds.drop 6).take 2 ++ ds.drop 8)) := by
    rw [show ds.drop 8 = (ds.drop 6).drop 2 by rw [List.drop_drop], List.take_append_drop,
      show ds.drop 6 = (ds.drop 2).drop 4 by rw [List.drop_drop], List.take_append_drop,
      List.drop_zero, List.take_append_drop]
  refine ⟨len, addr, code, _, _, _, ?_, hlen, haddr, hcode⟩
  have hline := congrArg (fun cs => ':' :: (cs ++ eol)) hsplit
  simpa only [List.append_assoc] using hline

theorem Fields.overEnd_iff (h : Fields line len addr code rest) (base : Nat) :
    OverEnd base line ↔ code = 0 ∧ 11 + 2 * len ≤ line.length ∧
      base + addr < 2 ^ 32 ∧ 2 ^ 32 ≤ base + addr + len := by
  unfold OverEnd
  rw [h.header]
  constructor
  · rintro ⟨len', addr', heq, hover⟩
    obtain ⟨rfl, rfl, rfl⟩ : len = len' ∧ addr = addr' ∧ code = 0 := by simpa using heq
    exact ⟨rfl, hover⟩
  · rintro ⟨rfl, hover⟩
    exact ⟨len, addr, rfl, hover⟩

theorem Fields.lt (h : Fields line len addr code rest) : len < 256 ∧ addr < 65536 := by
  obtain ⟨l, a, k, -, hl, ha, -⟩ := h
  exact ⟨hl.lt, ha.lt⟩

theorem header_of_not_colon (h : line.head? ≠ some ':') : Loader.header line = none := by
  unfold Loader.header
  split
  · exact absurd rfl h
  · rfl

/-! ## One line -/

theorem Fields.length (h : Fields line len addr code rest) : line.length = 9 + rest.length := by
  obtain ⟨l, a, k, rfl, hl, ha, hk⟩ := h
  simp only [List.length_cons, List.length_append, hl.length, ha.length, hk.length]
  omega

/-- A line that is too short for its length stores nothing. -/
theorem Fields.access_of_lt (h : Fields line len addr code rest)
    (hshort : line.length < 11 + 2 * len) (old : Locals) (s : Statics) :
    HexAccess.parseHexLine old line s = pure ⟨false, s, none⟩ := by
  have hlen : (line.length : Int) < 11 + (len : Int) * 2 := by omega
  obtain ⟨l, a, k, rfl, hl, ha, hk⟩ := h
  rw [HexAccess.parseHexLine, if_neg (by simp)]
  by_cases hmin : (':' :: (l ++ (a ++ (k ++ rest)))).length < 11
  · rw [if_pos hmin]
  · rw [if_neg hmin]
    simp only [List.drop_succ_cons, List.drop_zero, readHex_field hl (by decide), if_pos hlen]

/-- A line with all its digits comes to the guard. -/
theorem Fields.access (h : Fields line len addr code rest) (hcomplete : 11 + 2 * len ≤ line.length)
    (old : Locals) (s : Statics) :
    HexAccess.parseHexLine old line s =
      if maxMemorySize ≤ u32 (addr + s.extendedAddr + len) then pure ⟨false, s, none⟩
      else if (code : Int) ≠ 0 then
        pure ⟨true, otherRecord old code len rest
          (len % 256 + addr / 256 % 256 + addr % 256 + code % 256 : Int) s, none⟩
      else HexAccess.dataRecord old addr len rest
        (len % 256 + addr / 256 % 256 + addr % 256 + code % 256 : Int) s := by
  have hmin : ¬line.length < 11 := by omega
  have hlen : ¬(line.length : Int) < 11 + (len : Int) * 2 := by omega
  obtain ⟨l, a, k, rfl, hl, ha, hk⟩ := h
  rw [HexAccess.parseHexLine, if_neg (by simp), if_neg hmin]
  simp only [List.drop_succ_cons, List.drop_zero, readHex_field hl (by decide), drop_field hl,
    if_neg hlen, readHex_field ha (by decide), drop_field ha]
  rw [HexAccess.parseRecord, readHex_field hk (by decide)]
  simp only [drop_field hk]

/-- The data of a line with all its digits. -/
theorem exists_data {ds : List Char} (h : ∀ c ∈ ds, (digit? c).isSome)
    (hlength : 2 * len ≤ ds.length) (eol : List Char) :
    ∃ bs cs tail, ds ++ eol = cs ++ tail ∧ Bytes bs cs ∧ bs.length = len := by
  have hcount : (ds.take (2 * len)).length = 2 * len := by
    rw [List.length_take]
    omega
  obtain ⟨bs, hbytes, hbs⟩ := exists_bytes (fun c hc => h c (List.mem_of_mem_take hc)) hcount
  refine ⟨bs, ds.take (2 * len), ds.drop (2 * len) ++ eol, ?_, hbytes, hbs⟩
  rw [← List.append_assoc, List.take_append_drop]

/-- The cells of a record of data. -/
theorem dataRecord_stores (old : Locals) (addr : Nat) (s : Statics) {bs : List UInt8}
    {cs : List Char} (h : Bytes bs cs) (tail : List Char) (hlt : bs.length < 256) (sum : Int)
    (m : Nat → HexCell) :
    (HexAccess.dataRecord old addr bs.length (cs ++ tail) sum s).indices m
        = (List.range bs.length).map (fun k : Nat => u32 (addr + s.extendedAddr + k)) ∧
      ((HexAccess.dataRecord old addr bs.length (cs ++ tail) sum s).run m).1.loop
        = some ⟨bs.length, bs.length⟩ := by
  obtain ⟨hindices, hturns⟩ := HexAccess.storeData_stores h tail (addr + s.extendedAddr)
    (Nat.le_refl 256) (Nat.add_comm _ _) hlt sum m
  unfold HexAccess.dataRecord
  simp only [Access.bind_eq, Access.pure_eq, Access.indices_bind, Access.run_bind, Access.run_ret,
    Access.indices_ret, List.append_nil, hturns, hindices]
  refine ⟨?_, trivial⟩
  refine List.map_congr_left fun k _ => ?_
  rw [Nat.sub_self, Nat.cast_zero, Int.add_zero]

variable {s : Statics}

/-- A call that comes to no loop is safe. -/
theorem safe_of_access {c : HexCall} {valid : Bool} {t : Statics}
    (h : c.access s = pure ⟨valid, t, none⟩) : Safe s c := by
  constructor
  · rw [h]
    exact fun i hi => nomatch hi
  · rw [h]
    exact fun l hl => nomatch hl

/-- What gets past the guard is stored within the arrays, but for what starts below the end. -/
theorem stores_inside_iff {base addr len : Nat} (hbase : base < 2 ^ 32) (haddr : addr < 65536)
    (hlen : len < 256) (hguard : ¬maxMemorySize ≤ u32 ((addr : Int) + base + len)) :
    (∀ k < len, u32 ((addr : Int) + base + k) < maxMemorySize)
      ↔ ¬(base + addr < 2 ^ 32 ∧ 2 ^ 32 ≤ base + addr + len) := by
  unfold u32 maxMemorySize at *
  constructor
  · rintro hinside ⟨hstart, hend⟩
    have hfirst := hinside 0 (by omega)
    omega
  · intro hover k hk
    omega

/-- A call that comes to the loop takes a turn for each byte. -/
theorem safe_iff_of_access {c : HexCall} {bs : List UInt8} {cs tail : List Char} {sum : Int}
    (hbytes : Bytes bs cs) (hlt : bs.length < 256)
    (h : c.access s = HexAccess.dataRecord c.old addr bs.length (cs ++ tail) sum s) :
    Safe s c ↔ ∀ k < bs.length, u32 ((addr : Int) + s.extendedAddr + k) < maxMemorySize := by
  obtain ⟨hindices, hloop⟩ := dataRecord_stores c.old addr s hbytes tail hlt sum s.cells
  rw [← h] at hindices hloop
  constructor
  · intro hsafe k hk
    refine hsafe.inside _ ?_
    rw [hindices]
    exact List.mem_map_of_mem (List.mem_range.mpr hk)
  · intro hinside
    constructor
    · intro i hi
      rw [hindices] at hi
      obtain ⟨k, hk, rfl⟩ := List.mem_map.mp hi
      exact hinside k (List.mem_range.mp hk)
    · intro l hl
      obtain rfl : _ = l := Option.some.inj (hloop.symm.trans hl)
      exact Int.le_refl _

/-- A line with its fields, the digits and the end behind them. -/
theorem safe_iff_of_fields {c : HexCall} {ds eol : List Char} (hbase : s.extendedAddr < 2 ^ 32)
    (h : Fields c.line len addr code (ds ++ eol)) (hdigits : ∀ d ∈ ds, (digit? d).isSome)
    (heol : eol.length ≤ 2) : Safe s c ↔ ¬OverEnd s.extendedAddr c.line := by
  obtain ⟨hlen, haddr⟩ := h.lt
  rw [h.overEnd_iff]
  by_cases hcomplete : 11 + 2 * len ≤ c.line.length
  · have haccess := h.access hcomplete c.old s
    by_cases hguard : maxMemorySize ≤ u32 ((addr : Int) + s.extendedAddr + len)
    · rw [if_pos hguard] at haccess
      refine iff_of_true (safe_of_access haccess) ?_
      rintro ⟨-, -, hstart, hend⟩
      unfold u32 maxMemorySize at hguard
      omega
    rw [if_neg hguard] at haccess
    by_cases hcode : code = 0
    · have hdata : 2 * len ≤ ds.length := by
        rw [h.length, List.length_append] at hcomplete
        omega
      obtain ⟨bs, cs, tail, hrest, hbytes, rfl⟩ := exists_data hdigits hdata eol
      rw [if_neg (by omega), hrest] at haccess
      rw [safe_iff_of_access hbytes hlen haccess, stores_inside_iff hbase haddr hlen hguard]
      simp [hcode, hcomplete]
    · rw [if_pos (by omega)] at haccess
      exact iff_of_true (safe_of_access haccess) fun hover => hcode hover.1
  · have haccess := h.access_of_lt (Nat.not_le.mp hcomplete) c.old s
    exact iff_of_true (safe_of_access haccess) fun hover => hcomplete hover.2.1

/-- **When a call is safe.** -/
theorem safe_iff (c : HexCall) (hbase : s.extendedAddr < 2 ^ 32) :
    Safe s c ↔ ¬OverEnd s.extendedAddr c.line := by
  rcases c.spelled with hcolon | ⟨ds, eol, hline, hdigits, heol⟩
  · refine iff_of_true (safe_of_access (if_pos hcolon)) ?_
    rintro ⟨len, addr, hheader, -⟩
    rw [header_of_not_colon hcolon] at hheader
    exact nomatch hheader
  have heol' : eol.length ≤ 2 := by
    rcases heol with rfl | rfl | rfl <;> decide
  by_cases height : 8 ≤ ds.length
  · obtain ⟨len, addr, code, hfields⟩ := exists_fields hdigits height eol
    rw [← hline] at hfields
    exact safe_iff_of_fields hbase hfields (fun d hd => hdigits d (List.mem_of_mem_drop hd)) heol'
  · have hshort : c.line.length < 11 := by
      rw [hline, List.length_cons, List.length_append]
      omega
    have hcolon : ¬c.line.head? ≠ some ':' := by
      rw [hline]
      exact not_not.mpr rfl
    refine iff_of_true (safe_of_access ((if_neg hcolon).trans (if_pos hshort))) ?_
    rintro ⟨len, addr, -, hcomplete, -⟩
    omega

/-! ## Every sequence of lines -/

theorem u32_lt (x : Int) : u32 x < 2 ^ 32 := by
  unfold u32
  omega

theorem otherRecord_extendedAddr (h : s.extendedAddr < 2 ^ 32) {old : Locals} {code len sum : Int}
    {ptr : List Char} : (otherRecord old code len ptr sum s).extendedAddr < 2 ^ 32 := by
  have hextended (shift : Nat) : (extendedAddress shift old ptr sum s).extendedAddr < 2 ^ 32 := by
    unfold extendedAddress
    split
    · exact h
    dsimp only
    split
    · exact h
    split
    · exact h
    · exact u32_lt _
  unfold otherRecord
  split
  · exact h
  split
  · exact hextended 4
  split
  · exact hextended 16
  · exact h

/-- A line leaves a base that an `unsigned int` can hold. -/
theorem step_extendedAddr (h : s.extendedAddr < 2 ^ 32) (c : HexCall) :
    (c.step s).extendedAddr < 2 ^ 32 := by
  rw [HexCall.step, HexAccess.run_parseHexLine]
  show ((HexAccess.parseHexLine c.old c.line s).run s.cells).1.statics.extendedAddr < 2 ^ 32
  unfold HexAccess.parseHexLine HexAccess.parseRecord
  split
  · exact h
  split
  · exact h
  dsimp only
  split
  · exact h
  split
  · exact h
  split
  · exact h
  split
  · exact h
  split
  · exact h
  split
  · exact otherRecord_extendedAddr h
  · unfold HexAccess.dataRecord
    rw [Access.bind_eq, Access.run_bind]
    exact h

/--
**When every line stores within the arrays.** In every sequence of lines, from any base: exactly if
no line, with the base in force before it, has a record of data that goes over the end.
-/
theorem safe_run_iff (s : Statics) (base : UInt32) (calls : List HexCall) :
    (∀ l c, l ++ [c] <+: calls → Safe (HexCall.run (s.withBase base) l) c) ↔
      ∀ l c, l ++ [c] <+: calls →
        ¬OverEnd (HexCall.run (s.withBase base) l).extendedAddr c.line := by
  have hbase : (s.withBase base).extendedAddr < 2 ^ 32 := base.toNat_lt
  refine Calls.each_iff (I := fun t : Statics => t.extendedAddr < 2 ^ 32) (P := Safe)
    (Q := fun t c => ¬OverEnd t.extendedAddr c.line) hbase ?_ ?_ calls
  · intro t c ht
    exact step_extendedAddr ht c
  · intro t c ht
    exact safe_iff c ht

/-! ## A byte behind the arrays -/

theorem spelled_line {r : Record} {l : List Char} (h : r.Line l) : Spelled l := by
  cases h with
  | fields hlength haddress hkind hdata hchecksum =>
    refine Or.inr ⟨_, [], congrArg (List.cons ':') (List.append_nil _).symm, ?_, Or.inl rfl⟩
    intro c hc
    simp only [List.mem_append] at hc
    rcases hc with hc | hc | hc | hc | hc
    · exact isSome_digit?_of_numberFrom hlength.number c hc
    · exact isSome_digit?_of_numberFrom haddress.number c hc
    · exact isSome_digit?_of_numberFrom hkind.number c hc
    · exact isSome_digit?_of_bytes hdata c hc
    · exact isSome_digit?_of_numberFrom hchecksum.number c hc

/-- `:02000004FFFFFC`, the highest base there is. -/
def highestBase : HexCall :=
  ⟨.zero, _, spelled_line (Record.line_text ⟨0, 4, [0xFF, 0xFF], 0xFC, by decide⟩)⟩

/-- `:01FFFF0041C0`, one byte at the highest address. -/
def highestByte : HexCall :=
  ⟨.zero, _, spelled_line
    (Record.line_text { byteRecord with address := 0xFFFF, checksum := 0xC0 })⟩

/-- The byte is stored to the cell with the index `0xFFFFFFFF`. -/
theorem not_safe_run : ¬∀ (s : Statics) (base : UInt32) (calls : List HexCall),
    ∀ l c, l ++ [c] <+: calls → Safe (HexCall.run (s.withBase base) l) c := by
  intro h
  have hsafe := h .zero 0 [highestBase, highestByte] [highestBase] highestByte
    (List.prefix_refl _)
  have hindex : 0xFFFFFFFF ∈ (highestByte.access (highestBase.step .zero)).indices
      (highestBase.step .zero).cells := by
    decide +kernel
  exact absurd (hsafe.inside _ hindex) (by decide)

end SphereWare.Loader
