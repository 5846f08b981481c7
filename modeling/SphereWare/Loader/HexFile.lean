import SphereWare.IntelHex.Record

/-!
# Reading hex files (hid_bootloader_cli.c)

`read_intel_hex` reads a file line by line and `parse_hex_line` stores what a line says. The locals
of the source are not initialised: `Locals` is what lies in memory where they are. A line ends at
its terminating NUL here; only a negative length, which no digits spell, makes the source read on
behind it.
-/

namespace SphereWare.Loader

open IntelHex

/-! ## The library -/

/-- `isspace`. -/
def isSpace (c : Char) : Bool :=
  c = ' ' ∨ c = '\t' ∨ c = '\n' ∨ c = '\x0b' ∨ c = '\x0c' ∨ c = '\r'

/-- The digits at the front, at most `width` of them. -/
def takeDigits : Nat → List Char → List Char
  | 0, _ => []
  | _, [] => []
  | width + 1, c :: cs => if (digit? c).isSome then c :: takeDigits width cs else []

/-- What `sscanf` makes of one conversion: the end of the text, no match, or a value. -/
inductive Scan where
  | eof | mismatch | value (n : Int)
  deriving DecidableEq, Repr

/-- A sign at the front counts for the width. -/
def scanSign (width : Nat) : List Char → Bool × Nat × List Char
  | '-' :: cs => (true, width - 1, cs)
  | '+' :: cs => (false, width - 1, cs)
  | cs => (false, width, cs)

/-- So does a `0x`. -/
def scanPrefix (width : Nat) : List Char → Nat × List Char
  | '0' :: c :: cs => if (c = 'x' ∨ c = 'X') ∧ 2 ≤ width then (width - 2, cs) else (width, '0' :: c :: cs)
  | cs => (width, cs)

/-- `sscanf(ptr, "%0<width>x", ...)`, read back as an `int`. -/
def scanHex (width : Nat) (ptr : List Char) : Scan :=
  match ptr.dropWhile isSpace with
  | [] => .eof
  | c :: cs =>
    let signed := scanSign width (c :: cs)
    let prefixed := scanPrefix signed.2.1 signed.2.2
    match takeDigits prefixed.1 prefixed.2 with
    | [] => .mismatch
    | ds =>
      match numberFrom 0 ds with
      | none => .mismatch
      | some n => .value (if signed.1 then -n else n)

/-- `if (!sscanf(...)) return`: the end of the text is not 0, and the variable keeps its value. -/
def readHex (width : Nat) (ptr : List Char) (old : Int) : Option Int :=
  match scanHex width ptr with
  | .eof => some old
  | .mismatch => none
  | .value n => some n

/-- The lines `fgets` gives for a buffer of `size` characters, with the line begun in `buf`. -/
def fgetsLines (size : Nat) (buf : List Char) : List Char → List (List Char)
  | [] => if buf = [] then [] else [buf]
  | c :: text =>
    if c = '\n' ∨ buf.length + 2 = size then (buf ++ [c]) :: fgetsLines size [] text
    else fgetsLines size (buf ++ [c]) text

/-- A string ends at the first NUL. -/
def cString (buf : List Char) : List Char := buf.takeWhile (· ≠ '\x00')

/-- Conversion to a 32-bit `int` and to an `unsigned int`. -/
def i32 (x : Int) : Int := (x + 2147483648) % 4294967296 - 2147483648

def u32 (x : Int) : Nat := (x % 4294967296).toNat

/-! ## The image -/

/-- `MAX_MEMORY_SIZE`. -/
def maxMemorySize : Nat := 0x10000

/-- The static variables. Of the two arrays only the first `maxMemorySize` cells exist. -/
structure Statics where
  firmwareImage : Nat → UInt8
  firmwareMask : Nat → Bool
  endRecordSeen : Bool
  byteCount : Int
  extendedAddr : Nat

/-- The locals of `parse_hex_line`, before it has set them. -/
structure Locals where
  addr : Int
  code : Int
  len : Int
  cksum : Int
  i : Int

namespace Statics

/-- `firmware_image[index] = value; firmware_mask[index] = 1`. -/
def store (s : Statics) (index : Nat) (value : UInt8) : Statics :=
  { s with
    firmwareImage := Function.update s.firmwareImage index value
    firmwareMask := Function.update s.firmwareMask index true }

/-- What `read_intel_hex` begins with. -/
def reset (s : Statics) : Statics where
  firmwareImage a := if a < maxMemorySize then 0xFF else s.firmwareImage a
  firmwareMask a := if a < maxMemorySize then false else s.firmwareMask a
  endRecordSeen := false
  byteCount := 0
  extendedAddr := 0

end Statics

/-! ## A line -/

/-- `((sum & 255) + (cksum & 255)) & 255`. -/
def checksumError (sum cksum : Int) : Bool := (sum % 256 + cksum % 256) % 256 ≠ 0

/-- The records 02 and 04. Whatever is wrong with them, the line counts as valid. -/
def extendedAddress (shift : Nat) (old : Locals) (ptr : List Char) (sum : Int) (s : Statics) :
    Statics :=
  match readHex 4 ptr old.i with
  | none => s
  | some i =>
    let ptr := ptr.drop 4
    let sum := sum + (i / 256 % 256 + i % 256)
    match readHex 2 ptr old.cksum with
    | none => s
    | some cksum =>
      if checksumError sum cksum then s else { s with extendedAddr := u32 (i * 2 ^ shift) }

/-- A record that is not of type 00. -/
def otherRecord (old : Locals) (code len : Int) (ptr : List Char) (sum : Int) (s : Statics) :
    Statics :=
  if code = 1 then { s with endRecordSeen := true }
  else if code = 2 ∧ len = 2 then extendedAddress 4 old ptr sum s
  else if code = 4 ∧ len = 2 then extendedAddress 16 old ptr sum s
  else s

/--
The loop over the data, with `left` turns to go before `num` comes to 256. Returns the text and the
sum behind the data, or nothing where the source returns 0.
-/
def storeData (start len : Int) : Nat → List Char → Int → Statics →
    Option (List Char × Int) × Statics
  | 0, _, _, s => (none, s)
  | left + 1, ptr, sum, s =>
    let num : Int := 255 - left
    if num = len then (some (ptr, sum), s)
    else
      match scanHex 2 ptr with
      | .value i =>
        storeData start len left (ptr.drop 2) (sum + i % 256)
          (s.store (u32 (start + num)) (UInt8.ofInt (i % 256)))
      | _ => (none, s)

/-- A record of type 00. -/
def dataRecord (old : Locals) (addr len : Int) (ptr : List Char) (sum : Int) (s : Statics) :
    Bool × Statics :=
  let s := { s with byteCount := i32 (s.byteCount + len) }
  match storeData (addr + s.extendedAddr) len 256 ptr sum s with
  | (none, s) => (false, s)
  | (some (ptr, sum), s) =>
    match readHex 2 ptr old.cksum with
    | none => (false, s)
    | some cksum => (!checksumError sum cksum, s)

/-- `parse_hex_line`, from the type of the record on. -/
def parseRecord (old : Locals) (addr len : Int) (ptr : List Char) (s : Statics) :
    Bool × Statics :=
  match readHex 2 ptr old.code with
  | none => (false, s)
  | some code =>
    if maxMemorySize ≤ u32 (addr + s.extendedAddr + len) then (false, s)
    else
      let ptr := ptr.drop 2
      let sum := len % 256 + addr / 256 % 256 + addr % 256 + code % 256
      if code ≠ 0 then (true, otherRecord old code len ptr sum s)
      else dataRecord old addr len ptr sum s

/-- `parse_hex_line`. -/
def parseHexLine (old : Locals) (line : List Char) (s : Statics) : Bool × Statics :=
  if line.head? ≠ some ':' then (false, s)
  else if line.length < 11 then (false, s)
  else
    let ptr := line.drop 1
    match readHex 2 ptr old.len with
    | none => (false, s)
    | some len =>
      let ptr := ptr.drop 2
      if (line.length : Int) < 11 + len * 2 then (false, s)
      else
        match readHex 4 ptr old.addr with
        | none => (false, s)
        | some addr => parseRecord old addr len (ptr.drop 4) s

/-! ## The file -/

/-- The loop over the lines. `feof(stdin)` is never true, for nothing is read from there. -/
def readLines (old : Nat → Locals) : Nat → List (List Char) → Statics → Int × Statics
  | _, [], s => (s.byteCount, s)
  | lineno, buf :: bufs, s =>
    let r := if cString buf = [] then (true, s) else parseHexLine (old lineno) (cString buf) s
    if r.1 then
      if r.2.endRecordSeen then (r.2.byteCount, r.2) else readLines old (lineno + 1) bufs r.2
    else (-2, r.2)

/-- `read_intel_hex`, with nothing for a file that cannot be opened. -/
def readIntelHex (old : Nat → Locals) (file : Option (List Char)) (s : Statics) :
    Int × Statics :=
  match file with
  | none => (-1, s.reset)
  | some text => readLines old 1 (fgetsLines 1024 [] text) s.reset

end SphereWare.Loader
