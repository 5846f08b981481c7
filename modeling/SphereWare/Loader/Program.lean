import SphereWare.Loader.HexFile

/-!
# Programming a device (hid_bootloader_cli.c)

The options give the sizes of the flash and of its pages. The loop of `main` sends the pages that
hold bytes of the image, each with its address in front.
-/

namespace SphereWare.Loader

/-! ## Options -/

/-- The variables `parse_options` sets. -/
structure Options where
  waitForDeviceToAppear : Bool
  hardRebootDevice : Bool
  rebootAfterProgramming : Bool
  verbose : Bool
  codeSize : Nat
  blockSize : Nat
  filename : Option (List Char)

/-- Before any argument. -/
def Options.start : Options where
  waitForDeviceToAppear := false
  hardRebootDevice := false
  rebootAfterProgramming := true
  verbose := false
  codeSize := 0
  blockSize := 0
  filename := none

/-- `strncmp` with a start of the argument, and `arg += n` if it is one. -/
def skip (start arg : List Char) : Option (List Char) :=
  if start.isPrefixOf arg then some (arg.drop start.length) else none

/-- `code_size` and `block_size` by the digits of the device. -/
def mcuSizes (arg : List Char) : Option (Nat × Nat) :=
  if ['1', '2', '8'].isPrefixOf arg then some (128 * 1024, 256)
  else if ['6', '4'].isPrefixOf arg then some (64 * 1024, 256)
  else if ['3', '2'].isPrefixOf arg then some (32 * 1024, 128)
  else if ['1', '6'].isPrefixOf arg then some (16 * 1024, 128)
  else if ['8'].isPrefixOf arg then some (8 * 1024, 128)
  else none

/-- What stands behind `-mmcu=`. -/
def parseMcu (arg : List Char) : Option (Nat × Nat) :=
  match skip ['a', 't', '9', '0', 'u', 's', 'b'] arg with
  | some arg => mcuSizes arg
  | none => (skip ['a', 't', 'm', 'e', 'g', 'a'] arg).bind mcuSizes

/-- One argument. The source dies where there is no result. -/
def parseOption (o : Options) (arg : List Char) : Option Options :=
  if arg.head? = some '-' then
    if arg = ['-', 'w'] then some { o with waitForDeviceToAppear := true }
    else if arg = ['-', 'r'] then some { o with hardRebootDevice := true }
    else if arg = ['-', 'n'] then some { o with rebootAfterProgramming := false }
    else if arg = ['-', 'v'] then some { o with verbose := true }
    else
      match skip ['-', 'm', 'm', 'c', 'u', '='] arg with
      | none => some o
      | some mcu => (parseMcu mcu).map fun sizes =>
          { o with codeSize := sizes.1, blockSize := sizes.2 }
  else some { o with filename := some arg }

/-- `parse_options`. -/
def parseOptions : List (List Char) → Options → Option Options
  | [], o => some o
  | arg :: args, o => (parseOption o arg).bind (parseOptions args)

/-! ## Pages -/

namespace Statics

/-- `ihex_bytes_within_range`. No address is negative. -/
def ihexBytesWithinRange (s : Statics) (first last : Nat) : Bool :=
  if maxMemorySize ≤ first ∨ maxMemorySize ≤ last then false
  else (List.range' first (last + 1 - first)).any s.firmwareMask

/-- `ihex_get_data`. -/
def ihexGetData (s : Statics) (addr len : Nat) : List UInt8 :=
  if maxMemorySize ≤ addr + len then List.replicate len 255
  else (List.range len).map fun i =>
    if s.firmwareMask (addr + i) then s.firmwareImage (addr + i) else 255

end Statics

/-- `buf[0]` and `buf[1]`. -/
def addressBytes (codeSize addr : Nat) : List UInt8 :=
  if codeSize < 0x10000 then [UInt8.ofNat (addr % 256), UInt8.ofNat (addr / 256 % 256)]
  else [UInt8.ofNat (addr / 256 % 256), UInt8.ofNat (addr / 65536 % 256)]

/-- The `block_size + 2` bytes for a page. -/
def pageReport (s : Statics) (o : Options) (addr : Nat) : List UInt8 :=
  addressBytes o.codeSize addr ++ s.ihexGetData addr o.blockSize

/-! ## The programming loop -/

/-- `for (addr = 0; addr < code_size; addr += block_size)`. -/
def blockAddrs (codeSize blockSize : Nat) : List Nat :=
  (List.range ((codeSize + blockSize - 1) / blockSize)).map (· * blockSize)

/-- The page is sent. The first one always is. -/
def Sends (s : Statics) (o : Options) (addr : Nat) : Bool :=
  addr = 0 ∨ s.ihexBytesWithinRange addr (addr + o.blockSize - 1) = true

/-- The loop, with the results of `teensy_write`: the reports sent, or nothing where `main` dies. -/
def programBlocks (s : Statics) (o : Options) (teensyWrite : Nat → List UInt8 → Bool) :
    List Nat → Option (List (List UInt8))
  | [] => some []
  | addr :: addrs =>
    if Sends s o addr then
      if teensyWrite addr (pageReport s o addr) then
        (programBlocks s o teensyWrite addrs).map (pageReport s o addr :: ·)
      else none
    else programBlocks s o teensyWrite addrs

/-- The programming loop of `main`. -/
def program (s : Statics) (o : Options) (teensyWrite : Nat → List UInt8 → Bool) :
    Option (List (List UInt8)) :=
  programBlocks s o teensyWrite (blockAddrs o.codeSize o.blockSize)

end SphereWare.Loader
