import Mathlib.Data.List.TakeWhile
import SphereWare.Loader.HexFile

/-!
# Well-formed hex files

On the lines of well-formed records the conversions of `parse_hex_line` give back the fields, so a
file is read as its list of records (`readIntelHex_file`). Nothing later looks at characters.
-/

namespace SphereWare.Loader

open IntelHex

/-! ## Conversions -/

/-- A digit is none of the characters that `sscanf`, `fgets` and strings treat otherwise. -/
theorem digit_ne {c : Char} (h : (digit? c).isSome) : isSpace c = false ∧ c ≠ '-' ∧ c ≠ '+' ∧
    c ≠ 'x' ∧ c ≠ 'X' ∧ c ≠ '\n' ∧ c ≠ '\x00' := by
  have hnot (c' : Char) (hc' : digit? c' = none) : c ≠ c' := by
    rintro rfl
    simp [hc'] at h
  refine ⟨?_, hnot _ (by decide), hnot _ (by decide), hnot _ (by decide), hnot _ (by decide),
    hnot _ (by decide), hnot _ (by decide)⟩
  simp [isSpace, hnot ' ' (by decide), hnot '\t' (by decide), hnot '\n' (by decide),
    hnot '\x0b' (by decide), hnot '\x0c' (by decide), hnot '\r' (by decide)]

theorem takeDigits_append {cs : List Char} (h : ∀ c ∈ cs, (digit? c).isSome) (rest : List Char) :
    takeDigits cs.length (cs ++ rest) = cs := by
  induction cs with
  | nil =>
    cases rest with
    | nil => rfl
    | cons c rest => rfl
  | cons c cs ih =>
    have htail := ih fun c' hc' => h c' (List.mem_cons_of_mem _ hc')
    simp [takeDigits, h c (by simp), htail]

theorem scanSign_digit {width : Nat} {c : Char} {cs : List Char} (h : (digit? c).isSome) :
    scanSign width (c :: cs) = (false, width, c :: cs) := by
  obtain ⟨-, hminus, hplus, -⟩ := digit_ne h
  unfold scanSign
  split
  · next heq => exact absurd (List.cons.inj heq).1 hminus
  · next heq => exact absurd (List.cons.inj heq).1 hplus
  · rfl

/-- Digits that fill the width have no `0x` in front. -/
theorem scanPrefix_digits {cs rest : List Char} (h : ∀ c ∈ cs, (digit? c).isSome) :
    scanPrefix cs.length (cs ++ rest) = (cs.length, cs ++ rest) := by
  unfold scanPrefix
  split
  · next c ds heq =>
    rw [if_neg, ← heq]
    rintro ⟨hx, hwidth⟩
    cases cs with
    | nil => simp at hwidth
    | cons c₁ cs =>
      cases cs with
      | nil => simp at hwidth
      | cons c₂ cs =>
        simp only [List.cons_append, List.cons.injEq] at heq
        obtain ⟨-, -, -, hx₁, hx₂, -⟩ := digit_ne (h c₂ (by simp))
        rcases hx with rfl | rfl
        · exact hx₁ heq.2.1
        · exact hx₂ heq.2.1
  · rfl

/-- **The conversion of a field gives its number.** -/
theorem scanHex_field {width n : Nat} {cs : List Char} (h : Field width n cs) (hwidth : 0 < width)
    (rest : List Char) : scanHex width (cs ++ rest) = .value n := by
  have hdigits := isSome_digit?_of_numberFrom h.number
  obtain ⟨hlength, hnumber⟩ := h
  subst hlength
  have hscan := takeDigits_append hdigits rest
  have hscanned : scanPrefix cs.length (cs ++ rest) = (cs.length, cs ++ rest) :=
    scanPrefix_digits hdigits
  cases cs with
  | nil => simp at hwidth
  | cons c cs =>
    have hc : (digit? c).isSome := hdigits c (by simp)
    have hspace : (c :: cs ++ rest).dropWhile isSpace = c :: cs ++ rest := by
      simp [(digit_ne hc).1]
    unfold scanHex
    rw [hspace]
    simp only [List.cons_append, List.length_cons, scanSign_digit hc] at hscan hscanned ⊢
    rw [hscanned]
    simp only [hscan, hnumber, Bool.false_eq_true, if_false]

theorem readHex_field {width n : Nat} {cs : List Char} (h : Field width n cs) (hwidth : 0 < width)
    (rest : List Char) (old : Int) : readHex width (cs ++ rest) old = some (n : Int) := by
  rw [readHex, scanHex_field h hwidth]

theorem drop_field {width n : Nat} {cs : List Char} (h : Field width n cs) (rest : List Char) :
    (cs ++ rest).drop width = rest := by
  rw [← h.length, List.drop_left]

/-! ## Records -/

/-- The bytes of a record, stored from an index on. -/
def Statics.storeAll (start : Int) : List UInt8 → Statics → Statics
  | [], s => s
  | b :: bs, s => storeAll (start + 1) bs (s.store (u32 start) b)

/-- The sum of bytes, as the source adds it up. -/
def byteSum (bs : List UInt8) : Int := ((bs.map UInt8.toNat).sum : Nat)

/-- The loop over the data takes the bytes one by one. -/
theorem storeData_bytes {bs : List UInt8} {cs : List Char} (h : Bytes bs cs) (rest : List Char)
    (start : Int) {len left : Nat} (hleft : left ≤ 256) (hlen : len + left = 256 + bs.length)
    (hlt : bs.length < left) (sum : Int) (s : Statics) :
    storeData start len left (cs ++ rest) sum s
      = (some (rest, sum + byteSum bs), s.storeAll (start + (256 - left : Nat)) bs) := by
  induction h generalizing left sum s with
  | nil =>
    obtain ⟨left, rfl⟩ : ∃ n, left = n + 1 := ⟨left - 1, by omega⟩
    rw [List.length_nil] at hlen
    have hdone : (255 - left : Int) = len := by omega
    simp [storeData, hdone, byteSum, Statics.storeAll]
  | @cons b bs cs ds hb hbs ih =>
    obtain ⟨left, rfl⟩ : ∃ n, left = n + 1 := ⟨left - 1, by omega⟩
    simp only [List.length_cons] at hlen hlt
    have hmore : ¬(255 - left : Int) = len := by omega
    have hbyte : (b.toNat : Int) % 256 = b.toNat := by
      have := b.toNat_lt
      omega
    have hvalue : UInt8.ofInt (b.toNat : Int) = b := by
      rw [UInt8.ofInt, show (b.toNat : Int) % 2 ^ 8 = b.toNat from hbyte, Int.toNat_natCast,
        UInt8.ofNat_toNat]
    have hnext : start + (256 - (left + 1) : Nat) + 1 = start + (256 - left : Nat) := by omega
    have hindex : start + (255 - left : Int) = start + (256 - (left + 1) : Nat) := by omega
    have hsum : sum + b.toNat + byteSum bs = sum + byteSum (b :: bs) := by
      simp only [byteSum, List.map_cons, List.sum_cons]
      omega
    rw [List.append_assoc, storeData]
    simp only [hmore, if_false, scanHex_field hb (by decide), hbyte, hvalue, drop_field hb]
    rw [ih (by omega) (by omega) (by omega), hsum, hindex, Statics.storeAll, hnext]

/-- The checksum test of the source. -/
theorem checksumError_eq (r : Record) : checksumError
    ((r.data.length : Int) % 256 + (r.address.toNat : Int) / 256 % 256
      + (r.address.toNat : Int) % 256 + (r.kind.toNat : Int) % 256 + byteSum r.data)
    r.checksum.toNat = !decide r.Sound := by
  have hlength := r.length_lt
  have haddress := r.address.toNat_lt
  have hkind := r.kind.toNat_lt
  rw [checksumError, byteSum, ← decide_not, decide_eq_decide]
  unfold Record.Sound Record.sum
  omega

/-- What a record that is not of type 00 does to the variables. -/
def Statics.takeOther (s : Statics) (r : Record) : Statics :=
  match r.kind.toNat, r.data with
  | 1, _ => { s with endRecordSeen := true }
  | 2, [high, low] =>
    if r.Sound then
      { s with extendedAddr := u32 ((high.toNat * 256 + low.toNat : Nat) * 2 ^ 4) }
    else s
  | 4, [high, low] =>
    if r.Sound then
      { s with extendedAddr := u32 ((high.toNat * 256 + low.toNat : Nat) * 2 ^ 16) }
    else s
  | _, _ => s

/-- What `parse_hex_line` does with a record. -/
def Statics.take (s : Statics) (r : Record) : Bool × Statics :=
  if maxMemorySize ≤ u32 (r.address.toNat + s.extendedAddr + r.data.length) then (false, s)
  else if r.kind.toNat ≠ 0 then (true, s.takeOther r)
  else
    (decide r.Sound, { s with byteCount := i32 (s.byteCount + r.data.length) }.storeAll
      (r.address.toNat + s.extendedAddr) r.data)

/-- An address record with two bytes of data. -/
theorem extendedAddress_bytes {r : Record} {high low : UInt8} (hdata : r.data = [high, low])
    (shift : Nat) (old : Locals) {data checksum : List Char} (hbytes : Bytes r.data data)
    (hchecksum : Field 2 r.checksum.toNat checksum) (rest : List Char) (s : Statics) :
    extendedAddress shift old (data ++ (checksum ++ rest))
        ((r.data.length : Int) % 256 + (r.address.toNat : Int) / 256 % 256
          + (r.address.toNat : Int) % 256 + (r.kind.toNat : Int) % 256) s
      = if r.Sound then
          { s with extendedAddr := u32 ((high.toNat * 256 + low.toNat : Nat) * 2 ^ shift) }
        else s := by
  have hvalue : Field 4 (high.toNat * 256 + low.toNat) data := by
    rw [hdata] at hbytes
    cases hbytes with
    | cons hhigh hbytes =>
      cases hbytes with
      | cons hlow hbytes =>
        cases hbytes
        rw [List.append_nil]
        exact hhigh.append hlow
  have hhigh := high.toNat_lt
  have hlow := low.toNat_lt
  have hsum := checksumError_eq r
  have hbytesum : byteSum r.data = ((high.toNat * 256 + low.toNat : Nat) : Int) / 256 % 256
      + ((high.toNat * 256 + low.toNat : Nat) : Int) % 256 := by
    rw [hdata, byteSum]
    simp only [List.map_cons, List.map_nil, List.sum_cons, List.sum_nil]
    omega
  rw [hbytesum] at hsum
  unfold extendedAddress
  simp only [readHex_field hvalue (by decide), drop_field hvalue, readHex_field hchecksum (by decide),
    hsum]
  by_cases hsound : r.Sound
  · simp [hsound]
  · simp [hsound]

theorem dataRecord_bytes {r : Record} (old : Locals) {data checksum : List Char}
    (hbytes : Bytes r.data data) (hchecksum : Field 2 r.checksum.toNat checksum)
    (rest : List Char) (s : Statics) :
    dataRecord old r.address.toNat r.data.length (data ++ (checksum ++ rest))
        ((r.data.length : Int) % 256 + (r.address.toNat : Int) / 256 % 256
          + (r.address.toNat : Int) % 256 + (r.kind.toNat : Int) % 256) s
      = (decide r.Sound, { s with byteCount := i32 (s.byteCount + r.data.length) }.storeAll
          (r.address.toNat + s.extendedAddr) r.data) := by
  have hlength := r.length_lt
  have hstart : (r.address.toNat : Int) + s.extendedAddr + (256 - 256 : Nat)
      = r.address.toNat + s.extendedAddr := by omega
  unfold dataRecord
  dsimp only
  rw [storeData_bytes hbytes _ _ (Nat.le_refl 256) (Nat.add_comm _ _) hlength, hstart]
  simp only [readHex_field hchecksum (by decide), checksumError_eq, Bool.not_not]

theorem otherRecord_bytes {r : Record} (old : Locals) {data checksum : List Char}
    (hbytes : Bytes r.data data) (hchecksum : Field 2 r.checksum.toNat checksum)
    (rest : List Char) (s : Statics) :
    otherRecord old r.kind.toNat r.data.length (data ++ (checksum ++ rest))
        ((r.data.length : Int) % 256 + (r.address.toNat : Int) / 256 % 256
          + (r.address.toNat : Int) % 256 + (r.kind.toNat : Int) % 256) s
      = s.takeOther r := by
  unfold Statics.takeOther
  split
  · next hkind => simp [otherRecord, hkind]
  · next high low hkind hdata =>
    have hextended := extendedAddress_bytes hdata 4 old hbytes hchecksum rest s
    rw [otherRecord, hextended]
    simp [hkind, hdata]
  · next high low hkind hdata =>
    have hextended := extendedAddress_bytes hdata 16 old hbytes hchecksum rest s
    rw [otherRecord, hextended]
    simp [hkind, hdata]
  · next hend hsegment hlinear =>
    have hpair : r.data.length = 2 → ∃ high low, r.data = [high, low] := List.length_eq_two.mp
    unfold otherRecord
    rw [if_neg, if_neg, if_neg]
    · rintro ⟨hkind, hlen⟩
      obtain ⟨high, low, hdata⟩ := hpair (by omega)
      exact hlinear high low (by omega) hdata
    · rintro ⟨hkind, hlen⟩
      obtain ⟨high, low, hdata⟩ := hpair (by omega)
      exact hsegment high low (by omega) hdata
    · intro hkind
      exact hend (by omega)

/-- **A line is taken as its record.** -/
theorem parseHexLine_line {r : Record} {l : List Char} (h : r.Line l) (rest : List Char)
    (old : Locals) (s : Statics) : parseHexLine old (l ++ rest) s = s.take r := by
  have hlong : 11 + 2 * r.data.length ≤ (l ++ rest).length := by
    rw [List.length_append, h.length]
    omega
  have hshort : ¬(l ++ rest).length < 11 := by omega
  have hshort' : ¬((l ++ rest).length : Int) < 11 + (r.data.length : Int) * 2 := by omega
  cases h with
  | fields hlength haddress hkind hdata hchecksum =>
    rw [parseHexLine, if_neg (by simp), if_neg hshort]
    simp only [List.cons_append, List.append_assoc] at hshort' ⊢
    simp only [List.drop_succ_cons, List.drop_zero, readHex_field hlength (by decide),
      drop_field hlength, if_neg hshort', readHex_field haddress (by decide),
      drop_field haddress]
    unfold parseRecord Statics.take
    simp only [readHex_field hkind (by decide), drop_field hkind,
      otherRecord_bytes old hdata hchecksum, dataRecord_bytes old hdata hchecksum, ne_eq,
      Int.natCast_eq_zero]

/-! ## Files -/

theorem fgetsLines_append {size : Nat} {buf cs : List Char} (h : ∀ c ∈ cs, c ≠ '\n')
    (hsize : buf.length + cs.length + 1 < size) (text : List Char) :
    fgetsLines size buf (cs ++ text) = fgetsLines size (buf ++ cs) text := by
  induction cs generalizing buf with
  | nil => rw [List.nil_append, List.append_nil]
  | cons c cs ih =>
    rw [List.length_cons] at hsize
    have hgo : ¬(c = '\n' ∨ buf.length + 2 = size) := by
      rintro (hc | hfull)
      · exact h c (by simp) hc
      · omega
    rw [List.cons_append, fgetsLines, if_neg hgo,
      ih (fun c' hc' => h c' (List.mem_cons_of_mem _ hc')) (by
        rw [List.length_append, List.length_singleton]
        omega), List.append_assoc, List.singleton_append]

/-- The characters of bytes are digits. -/
theorem isSome_digit?_of_bytes {bs : List UInt8} {cs : List Char} (h : Bytes bs cs) :
    ∀ c ∈ cs, (digit? c).isSome := by
  induction h with
  | nil => simp
  | cons h _ ih =>
    intro c hc
    rcases List.mem_append.mp hc with hc | hc
    · exact isSome_digit?_of_numberFrom h.number c hc
    · exact ih c hc

theorem line_chars {r : Record} {l : List Char} (h : r.Line l) : ∀ c ∈ l, c ≠ '\n' ∧ c ≠ '\x00' := by
  cases h with
  | fields hlength haddress hkind hdata hchecksum =>
    have hdigit {c : Char} (hc : (digit? c).isSome) : c ≠ '\n' ∧ c ≠ '\x00' :=
      ⟨(digit_ne hc).2.2.2.2.2.1, (digit_ne hc).2.2.2.2.2.2⟩
    intro c hc
    simp only [List.mem_cons, List.mem_append] at hc
    rcases hc with rfl | hc | hc | hc | hc | hc
    · decide
    · exact hdigit (isSome_digit?_of_numberFrom hlength.number c hc)
    · exact hdigit (isSome_digit?_of_numberFrom haddress.number c hc)
    · exact hdigit (isSome_digit?_of_numberFrom hkind.number c hc)
    · exact hdigit (isSome_digit?_of_bytes hdata c hc)
    · exact hdigit (isSome_digit?_of_numberFrom hchecksum.number c hc)

theorem cString_line {r : Record} {l eol : List Char} (h : r.Line l) (heol : Eol eol ∨ eol = []) :
    cString (l ++ eol) = l ++ eol := by
  rw [cString, List.takeWhile_eq_self_iff]
  intro c hc
  rcases List.mem_append.mp hc with hc | hc
  · simp [(line_chars h c hc).2]
  · rcases heol with (rfl | rfl) | rfl
    · simp at hc
      simp [hc]
    · simp at hc
      rcases hc with rfl | rfl <;> simp
    · simp at hc

/-- A line with its end is one call of `fgets`. -/
theorem fgetsLines_line {r : Record} {l eol : List Char} (h : r.Line l) (heol : Eol eol)
    (text : List Char) :
    fgetsLines 1024 [] (l ++ eol ++ text) = (l ++ eol) :: fgetsLines 1024 [] text := by
  have hlength := h.length
  have hlt := r.length_lt
  have hchars : ∀ c ∈ l, c ≠ '\n' := fun c hc => (line_chars h c hc).1
  rcases heol with rfl | rfl
  · rw [List.append_assoc, fgetsLines_append hchars (by simp; omega), List.nil_append]
    simp [fgetsLines]
  · rw [show l ++ ['\r', '\n'] = (l ++ ['\r']) ++ ['\n'] by simp, List.append_assoc,
      fgetsLines_append ?_ (by simp; omega), List.nil_append]
    · simp [fgetsLines]
    · intro c hc
      rcases List.mem_append.mp hc with hc | hc
      · exact hchars c hc
      · rw [List.mem_singleton.mp hc]
        decide

/-- What `read_intel_hex` does with the records. -/
def takeAll : List Record → Statics → Int × Statics
  | [], s => (s.byteCount, s)
  | r :: rs, s =>
    if (s.take r).1 then
      if (s.take r).2.endRecordSeen then ((s.take r).2.byteCount, (s.take r).2)
      else takeAll rs (s.take r).2
    else (-2, (s.take r).2)

theorem readLines_file {rs : List Record} {text : List Char} (h : File rs text)
    (old : Nat → Locals) (lineno : Nat) (s : Statics) :
    readLines old lineno (fgetsLines 1024 [] text) s = takeAll rs s := by
  have hline {r : Record} {l eol : List Char} (h : r.Line l) (heol : Eol eol ∨ eol = [])
      (lineno : Nat) (s : Statics) :
      (if cString (l ++ eol) = [] then (true, s)
        else parseHexLine (old lineno) (cString (l ++ eol)) s) = s.take r := by
    have hne : l ++ eol ≠ [] := by
      have hlength := h.length
      intro hnil
      have := congrArg List.length hnil
      simp only [List.length_append, List.length_nil] at this
      omega
    rw [cString_line h heol, if_neg hne, parseHexLine_line h]
  induction h generalizing lineno s with
  | nil => rfl
  | @last r l h =>
    have hlength := h.length
    have hlt := r.length_lt
    have hlast : fgetsLines 1024 [] l = [l] := by
      have happend : fgetsLines 1024 [] (l ++ []) = fgetsLines 1024 ([] ++ l) [] :=
        fgetsLines_append (fun c hc => (line_chars h c hc).1) (by simp; omega) []
      rw [List.append_nil, List.nil_append] at happend
      rw [happend, fgetsLines, if_neg]
      rintro rfl
      rw [List.length_nil] at hlength
      omega
    have htake := hline h (Or.inr rfl) lineno s
    rw [List.append_nil] at htake
    rw [hlast, readLines]
    simp only [htake, takeAll, readLines]
  | cons h heol _ ih =>
    rw [fgetsLines_line h heol, readLines]
    simp only [hline h (Or.inl heol), takeAll, ih]

/-- **A file of well-formed records is read as these.** -/
theorem readIntelHex_file {rs : List Record} {text : List Char} (h : File rs text)
    (old : Nat → Locals) (s : Statics) :
    readIntelHex old (some text) s = takeAll rs s.reset := readLines_file h old 1 s.reset

end SphereWare.Loader
