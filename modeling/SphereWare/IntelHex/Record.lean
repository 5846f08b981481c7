import Mathlib.Data.List.Basic
import Mathlib.Tactic.Ring

/-!
# Intel HEX files

A record has a 16-bit address, a type, up to 255 bytes of data and a checksum, all written in
hexadecimal digits. Data records place their bytes at the base plus the address; two types of
records move the base; the end record ends the file.

`Record.Line` and `File` say how records are spelled, `contents` what they mean.
-/

namespace IntelHex

/-! ## Digits -/

/-- The value of a hexadecimal digit. -/
def digit? (c : Char) : Option Nat :=
  if '0' ≤ c ∧ c ≤ '9' then some (c.toNat - 48)
  else if 'a' ≤ c ∧ c ≤ 'f' then some (c.toNat - 87)
  else if 'A' ≤ c ∧ c ≤ 'F' then some (c.toNat - 55)
  else none

/-- The number that digits spell behind those of `n`. -/
def numberFrom (n : Nat) : List Char → Option Nat
  | [] => some n
  | c :: cs => (digit? c).bind fun d => numberFrom (16 * n + d) cs

/-- The characters are `width` digits that spell `n`. -/
structure Field (width n : Nat) (cs : List Char) : Prop where
  length : cs.length = width
  number : numberFrom 0 cs = some n

/-- Every character of a number is a digit. -/
theorem isSome_digit?_of_numberFrom {n m : Nat} {cs : List Char}
    (h : numberFrom n cs = some m) : ∀ c ∈ cs, (digit? c).isSome := by
  induction cs generalizing n with
  | nil => simp
  | cons c cs ih =>
    rw [numberFrom, Option.bind_eq_some_iff] at h
    obtain ⟨d, hd, hrest⟩ := h
    intro c' hc'
    rcases List.mem_cons.mp hc' with rfl | hc'
    · simp [hd]
    · exact ih hrest c' hc'

/-- Digits spell a number. -/
theorem exists_numberFrom (n : Nat) {cs : List Char} (h : ∀ c ∈ cs, (digit? c).isSome) :
    ∃ m, numberFrom n cs = some m := by
  induction cs generalizing n with
  | nil => exact ⟨n, rfl⟩
  | cons c cs ih =>
    obtain ⟨d, hd⟩ := Option.isSome_iff_exists.mp (h c (by simp))
    obtain ⟨m, hm⟩ := ih (16 * n + d) fun c' hc' => h c' (List.mem_cons_of_mem c hc')
    exact ⟨m, by rw [numberFrom, hd, Option.bind_some, hm]⟩

theorem exists_field {cs : List Char} (h : ∀ c ∈ cs, (digit? c).isSome) :
    ∃ n, Field cs.length n cs := by
  obtain ⟨n, hn⟩ := exists_numberFrom 0 h
  exact ⟨n, rfl, hn⟩

theorem digit?_lt {c : Char} {d : Nat} (h : digit? c = some d) : d < 16 := by
  have hle {c' : Char} (hc : c ≤ c') : c.toNat ≤ c'.toNat := UInt32.le_iff_toNat_le.mp hc
  unfold digit? at h
  split at h
  · next hrange =>
    have hnine : c.toNat ≤ 57 := hle hrange.2
    have hd := Option.some.inj h
    omega
  split at h
  · next hrange =>
    have hsmall : c.toNat ≤ 102 := hle hrange.2
    have hd := Option.some.inj h
    omega
  split at h
  · next hrange =>
    have hcapital : c.toNat ≤ 70 := hle hrange.2
    have hd := Option.some.inj h
    omega
  · exact absurd h (by simp)

theorem numberFrom_lt {n m : Nat} {cs : List Char} (h : numberFrom n cs = some m) :
    m < (n + 1) * 16 ^ cs.length := by
  induction cs generalizing n with
  | nil =>
    obtain rfl : n = m := Option.some.inj h
    simp
  | cons c cs ih =>
    rw [numberFrom, Option.bind_eq_some_iff] at h
    obtain ⟨d, hd, hrest⟩ := h
    have hdigit : d + 1 ≤ 16 := digit?_lt hd
    calc m < (16 * n + d + 1) * 16 ^ cs.length := ih hrest
      _ ≤ (16 * n + 16) * 16 ^ cs.length := Nat.mul_le_mul_right _ (by omega)
      _ = (n + 1) * 16 ^ (c :: cs).length := by
        rw [List.length_cons, pow_succ]
        ring

theorem Field.lt {width n : Nat} {cs : List Char} (h : Field width n cs) : n < 16 ^ width := by
  have hlt := numberFrom_lt h.number
  rwa [h.length, Nat.zero_add, Nat.one_mul] at hlt

theorem numberFrom_append (n : Nat) (cs ds : List Char) :
    numberFrom n (cs ++ ds) = (numberFrom n cs).bind fun m => numberFrom m ds := by
  induction cs generalizing n with
  | nil => rfl
  | cons c cs ih =>
    simp only [List.cons_append, numberFrom, ih]
    cases digit? c with
    | none => rfl
    | some d => rfl

/-- The digits in front weigh `16` to the number of those behind. -/
theorem numberFrom_shift (n : Nat) (cs : List Char) :
    numberFrom n cs = (numberFrom 0 cs).map fun m => n * 16 ^ cs.length + m := by
  induction cs generalizing n with
  | nil => simp [numberFrom]
  | cons c cs ih =>
    simp only [numberFrom]
    cases digit? c with
    | none => rfl
    | some d =>
      rw [Option.bind_some, Option.bind_some, ih, ih (16 * 0 + d), Option.map_map]
      congr 1
      funext m
      simp only [Function.comp_apply, List.length_cons, pow_succ]
      ring

theorem Field.append {width width' n m : Nat} {cs ds : List Char} (h : Field width n cs)
    (h' : Field width' m ds) : Field (width + width') (n * 16 ^ width' + m) (cs ++ ds) := by
  constructor
  · rw [List.length_append, h.length, h'.length]
  · rw [numberFrom_append, h.number, Option.bind_some, numberFrom_shift, h'.number, h'.length]
    rfl

/-! ## Records -/

structure Record where
  address : UInt16
  kind : UInt8
  data : List UInt8
  checksum : UInt8
  length_lt : data.length < 256

namespace Record

/-- The sum of all bytes, the checksum included. -/
def sum (r : Record) : Nat :=
  r.data.length + r.address.toNat / 256 + r.address.toNat % 256 + r.kind.toNat
    + (r.data.map UInt8.toNat).sum + r.checksum.toNat

/-- The checksum is right. -/
def Sound (r : Record) : Prop := r.sum % 256 = 0

instance (r : Record) : Decidable r.Sound := inferInstanceAs (Decidable (_ = _))

end Record

/-! ## Spelling -/

/-- The digits of bytes in a row. -/
inductive Bytes : List UInt8 → List Char → Prop where
  | nil : Bytes [] []
  | cons {b : UInt8} {bs : List UInt8} {cs ds : List Char} (h : Field 2 b.toNat cs)
      (hbs : Bytes bs ds) : Bytes (b :: bs) (cs ++ ds)

theorem Bytes.length {bs : List UInt8} {cs : List Char} (h : Bytes bs cs) :
    cs.length = 2 * bs.length := by
  induction h with
  | nil => rfl
  | cons h _ ih =>
    rw [List.length_append, h.length, ih, List.length_cons]
    omega

/-- Digits in pairs spell bytes. -/
theorem exists_bytes {k : Nat} {cs : List Char} (h : ∀ c ∈ cs, (digit? c).isSome)
    (hlength : cs.length = 2 * k) : ∃ bs, Bytes bs cs ∧ bs.length = k := by
  induction k generalizing cs with
  | zero =>
    obtain rfl := List.length_eq_zero_iff.mp hlength
    exact ⟨[], .nil, rfl⟩
  | succ k ih =>
    have htake : (cs.take 2).length = 2 := by
      rw [List.length_take]
      omega
    obtain ⟨n, hfield⟩ := exists_field fun c hc => h c (List.mem_of_mem_take hc)
    rw [htake] at hfield
    obtain ⟨bs, hbytes, hcount⟩ := ih (fun c hc => h c (List.mem_of_mem_drop hc))
      (show (cs.drop 2).length = 2 * k by
        rw [List.length_drop]
        omega)
    have hbyte : (UInt8.ofNat n).toNat = n := Nat.mod_eq_of_lt hfield.lt
    refine ⟨UInt8.ofNat n :: bs, ?_, by rw [List.length_cons, hcount]⟩
    have hcons := Bytes.cons (b := UInt8.ofNat n) (by rwa [hbyte]) hbytes
    rwa [List.take_append_drop] at hcons

/-- The line of a record, with its fields. -/
inductive Record.Line (r : Record) : List Char → Prop where
  | fields {length address kind data checksum : List Char} (hlength : Field 2 r.data.length length)
      (haddress : Field 4 r.address.toNat address) (hkind : Field 2 r.kind.toNat kind)
      (hdata : Bytes r.data data) (hchecksum : Field 2 r.checksum.toNat checksum) :
      r.Line (':' :: (length ++ (address ++ (kind ++ (data ++ checksum)))))

theorem Record.Line.length {r : Record} {l : List Char} (h : r.Line l) :
    l.length = 11 + 2 * r.data.length := by
  cases h with
  | fields hlength haddress hkind hdata hchecksum =>
    simp only [List.length_cons, List.length_append, hlength.length, haddress.length, hkind.length,
      hdata.length, hchecksum.length]
    omega

/-- How a line ends. -/
def Eol (cs : List Char) : Prop := cs = ['\n'] ∨ cs = ['\r', '\n']

/-- The text of a file. The last line need not end. -/
inductive File : List Record → List Char → Prop where
  | nil : File [] []
  | last {r : Record} {l : List Char} (h : r.Line l) : File [r] l
  | cons {r : Record} {rs : List Record} {l eol text : List Char} (h : r.Line l) (heol : Eol eol)
      (hrs : File rs text) : File (r :: rs) (l ++ eol ++ text)

/-! ## One spelling -/

/-- Capital digits. -/
def digitChar (d : Nat) : Char := if d < 10 then Char.ofNat (48 + d) else Char.ofNat (55 + d)

theorem digit?_digitChar {d : Nat} (h : d < 16) : digit? (digitChar d) = some d := by
  have hall : ∀ e ∈ List.range 16, digit? (digitChar e) = some e := by decide
  exact hall d (List.mem_range.mpr h)

/-- The last `width` digits of a number. -/
def spell : Nat → Nat → List Char
  | 0, _ => []
  | width + 1, n => spell width (n / 16) ++ [digitChar (n % 16)]

theorem field_spell {width n : Nat} (h : n < 16 ^ width) : Field width n (spell width n) := by
  induction width generalizing n with
  | zero =>
    obtain rfl : n = 0 := by simpa using h
    exact ⟨rfl, rfl⟩
  | succ width ih =>
    have hdigit : Field 1 (n % 16) [digitChar (n % 16)] :=
      ⟨rfl, by simp [numberFrom, digit?_digitChar (Nat.mod_lt n (by decide : 0 < 16))]⟩
    have happend := (ih (n := n / 16) (by rw [pow_succ] at h; omega)).append hdigit
    rwa [pow_one, Nat.div_add_mod'] at happend

def spellBytes : List UInt8 → List Char
  | [] => []
  | b :: bs => spell 2 b.toNat ++ spellBytes bs

theorem bytes_spellBytes (bs : List UInt8) : Bytes bs (spellBytes bs) := by
  induction bs with
  | nil => exact .nil
  | cons b bs ih => exact .cons (field_spell b.toNat_lt) ih

def Record.text (r : Record) : List Char :=
  ':' :: (spell 2 r.data.length ++ (spell 4 r.address.toNat ++ (spell 2 r.kind.toNat
    ++ (spellBytes r.data ++ spell 2 r.checksum.toNat))))

/-- Every record has a line. -/
theorem Record.line_text (r : Record) : r.Line r.text :=
  .fields (field_spell r.length_lt) (field_spell r.address.toNat_lt) (field_spell r.kind.toNat_lt)
    (bytes_spellBytes r.data) (field_spell r.checksum.toNat_lt)

def fileText : List Record → List Char
  | [] => []
  | r :: rs => r.text ++ ['\n'] ++ fileText rs

/-- Every list of records has a file. -/
theorem file_fileText (rs : List Record) : File rs (fileText rs) := by
  induction rs with
  | nil => exact .nil
  | cons r rs ih => exact .cons r.line_text (Or.inl rfl) ih

/-! ## Meaning -/

/-- What has been loaded, and the base of the addresses to come. -/
structure Image where
  base : Nat
  bytes : Nat → Option UInt8

namespace Image

def empty : Image := ⟨0, fun _ => none⟩

/-- Bytes in a row from an address on. -/
def place (m : Image) (start : Nat) (data : List UInt8) : Image :=
  { m with
    bytes := fun a => if start ≤ a then (data[a - start]?).or (m.bytes a) else m.bytes a }

/-- What a record does. The value of an address record has two bytes. -/
def load (m : Image) (r : Record) : Image :=
  match r.kind.toNat, r.data with
  | 0, data => m.place (m.base + r.address.toNat) data
  | 2, [high, low] => { m with base := (high.toNat * 256 + low.toNat) * 16 }
  | 4, [high, low] => { m with base := (high.toNat * 256 + low.toNat) * 65536 }
  | _, _ => m

end Image

/-- The records up to and including the first end record. -/
def upToEnd : List Record → List Record
  | [] => []
  | r :: rs => if r.kind = 1 then [r] else r :: upToEnd rs

/-- What the records of a file place where. -/
def contents (rs : List Record) : Image := (upToEnd rs).foldl Image.load Image.empty

/-- How many data bytes a record has. -/
def Record.dataBytes (r : Record) : Nat := if r.kind = 0 then r.data.length else 0

/-- How many data bytes the records of a file have. -/
def dataLength (rs : List Record) : Nat := ((upToEnd rs).map Record.dataBytes).sum

/-! ## Bytes stay -/

theorem Image.isSome_place {m : Image} {start a : Nat} {data : List UInt8}
    (h : (m.bytes a).isSome) : ((m.place start data).bytes a).isSome := by
  unfold place
  dsimp only
  split
  · simp [h]
  · exact h

theorem Image.isSome_load {m : Image} {a : Nat} (r : Record) (h : (m.bytes a).isSome) :
    ((m.load r).bytes a).isSome := by
  unfold load
  split
  · exact isSome_place h
  all_goals exact h

theorem Image.isSome_foldl_load {m : Image} {a : Nat} (rs : List Record)
    (h : (m.bytes a).isSome) : ((rs.foldl load m).bytes a).isSome := by
  induction rs generalizing m with
  | nil => exact h
  | cons r rs ih => exact ih (isSome_load r h)

end IntelHex
