import SphereWare.Memory.Access
import SphereWare.Spec.HexLine

/-!
# The image, access by access

`parse_hex_line` once more, as a program over the two arrays `firmware_image` and `firmware_mask`:
each turn of its loop stores to one cell of both. Run without bounds it is the function on `Statics`
(`HexAccess.run_parseHexLine`).
-/

namespace SphereWare.Loader

open IntelHex Memory

/-- A cell of `firmware_image` with that of `firmware_mask`. -/
abbrev HexCell : Type := UInt8 × Bool

/-- The loop over the data: the number of bytes there are to be, and the turns it takes. -/
structure DataLoop where
  len : Int
  turns : Nat

/-- What a call returns and leaves in the other variables, and its loop, if it comes to that. -/
structure LineResult where
  valid : Bool
  statics : Statics
  loop : Option DataLoop

namespace Statics

/-- The two arrays as one. -/
def cells (s : Statics) (a : Nat) : HexCell := (s.firmwareImage a, s.firmwareMask a)

def withCells (s : Statics) (m : Nat → HexCell) : Statics :=
  { s with firmwareImage := fun a => (m a).1, firmwareMask := fun a => (m a).2 }

theorem cells_store (s : Statics) (index : Nat) (value : UInt8) :
    (s.store index value).cells = Function.update s.cells index (value, true) := by
  funext a
  by_cases ha : a = index
  · simp [cells, store, ha]
  · simp [cells, store, ha]

end Statics

namespace HexAccess

/-- The loop over the data. Returns what is behind the data, and the turns. -/
def storeData (start len : Int) :
    Nat → List Char → Int → Access HexCell (Option (List Char × Int) × Nat)
  | 0, _, _ => pure (none, 0)
  | left + 1, ptr, sum =>
    let num : Int := 255 - left
    if num = len then pure (some (ptr, sum), 0)
    else
      match scanHex 2 ptr with
      | .value i => do
        Access.set (u32 (start + num)) (UInt8.ofInt (i % 256), true)
        let r ← storeData start len left (ptr.drop 2) (sum + i % 256)
        pure (r.1, r.2 + 1)
      | _ => pure (none, 1)

/-- What the checksum behind the data says. -/
def dataValid (old : Locals) : Option (List Char × Int) → Bool
  | none => false
  | some (ptr, sum) =>
    match readHex 2 ptr old.cksum with
    | none => false
    | some cksum => !checksumError sum cksum

/-- A record of type 00. -/
def dataRecord (old : Locals) (addr len : Int) (ptr : List Char) (sum : Int) (s : Statics) :
    Access HexCell LineResult := do
  let s := { s with byteCount := i32 (s.byteCount + len) }
  let r ← storeData (addr + s.extendedAddr) len 256 ptr sum
  pure ⟨dataValid old r.1, s, some ⟨len, r.2⟩⟩

/-- `parse_hex_line`, from the type of the record on. -/
def parseRecord (old : Locals) (addr len : Int) (ptr : List Char) (s : Statics) :
    Access HexCell LineResult :=
  match readHex 2 ptr old.code with
  | none => pure ⟨false, s, none⟩
  | some code =>
    if maxMemorySize ≤ u32 (addr + s.extendedAddr + len) then pure ⟨false, s, none⟩
    else
      let ptr := ptr.drop 2
      let sum := len % 256 + addr / 256 % 256 + addr % 256 + code % 256
      if code ≠ 0 then pure ⟨true, otherRecord old code len ptr sum s, none⟩
      else dataRecord old addr len ptr sum s

/-- `parse_hex_line`. -/
def parseHexLine (old : Locals) (line : List Char) (s : Statics) : Access HexCell LineResult :=
  if line.head? ≠ some ':' then pure ⟨false, s, none⟩
  else if line.length < 11 then pure ⟨false, s, none⟩
  else
    let ptr := line.drop 1
    match readHex 2 ptr old.len with
    | none => pure ⟨false, s, none⟩
    | some len =>
      let ptr := ptr.drop 2
      if (line.length : Int) < 11 + len * 2 then pure ⟨false, s, none⟩
      else
        match readHex 4 ptr old.addr with
        | none => pure ⟨false, s, none⟩
        | some addr => parseRecord old addr len (ptr.drop 4) s

/-! ## The same function -/

/-- The result of a run, with the arrays put back. -/
def outcome (p : Access HexCell LineResult) (m : Nat → HexCell) : Bool × Statics :=
  ((p.run m).1.valid, (p.run m).1.statics.withCells (p.run m).2)

theorem run_storeData (start len : Int) (left : Nat) (ptr : List Char) (sum : Int) (s : Statics) :
    Loader.storeData start len left ptr sum s
      = (((storeData start len left ptr sum).run s.cells).1.1,
          s.withCells ((storeData start len left ptr sum).run s.cells).2) := by
  induction left generalizing ptr sum s with
  | zero => rfl
  | succ left ih =>
    rw [Loader.storeData, storeData]
    by_cases hdone : (255 - left : Int) = len
    · simp only [hdone, if_true]
      rfl
    · simp only [hdone, if_false]
      cases hscan : scanHex 2 ptr with
      | eof => rfl
      | mismatch => rfl
      | value i =>
        dsimp only
        rw [ih, Access.bind_eq, Access.run_bind, Access.run_set, Access.bind_eq, Access.run_bind,
          Statics.cells_store]
        rfl

/-- A record that is not of type 00 leaves the arrays. -/
theorem otherRecord_withCells (old : Locals) (code len : Int) (ptr : List Char) (sum : Int)
    (s : Statics) : (otherRecord old code len ptr sum s).withCells s.cells
      = otherRecord old code len ptr sum s := by
  have hextended (shift : Nat) : (extendedAddress shift old ptr sum s).withCells s.cells
      = extendedAddress shift old ptr sum s := by
    unfold extendedAddress
    split
    · rfl
    · dsimp only
      split
      · rfl
      · split
        · rfl
        · rfl
  unfold otherRecord
  split
  · rfl
  · split
    · exact hextended 4
    · split
      · exact hextended 16
      · rfl

theorem dataRecord_eq (old : Locals) (addr len : Int) (ptr : List Char) (sum : Int)
    (s : Statics) : Loader.dataRecord old addr len ptr sum s
      = (dataValid old (Loader.storeData (addr + s.extendedAddr) len 256 ptr sum
            { s with byteCount := i32 (s.byteCount + len) }).1,
          (Loader.storeData (addr + s.extendedAddr) len 256 ptr sum
            { s with byteCount := i32 (s.byteCount + len) }).2) := by
  unfold Loader.dataRecord
  dsimp only
  generalize Loader.storeData _ _ _ _ _ _ = r
  obtain ⟨behind, t⟩ := r
  cases behind with
  | none => rfl
  | some ptrSum =>
    dsimp only [dataValid]
    cases readHex 2 ptrSum.1 old.cksum with
    | none => rfl
    | some cksum => rfl

theorem run_dataRecord (old : Locals) (addr len : Int) (ptr : List Char) (sum : Int)
    (s : Statics) : Loader.dataRecord old addr len ptr sum s
      = outcome (dataRecord old addr len ptr sum s) s.cells := by
  rw [dataRecord_eq, run_storeData]
  unfold dataRecord outcome
  simp only [Access.bind_eq, Access.run_bind]
  rfl

theorem run_parseRecord (old : Locals) (addr len : Int) (ptr : List Char) (s : Statics) :
    Loader.parseRecord old addr len ptr s
      = outcome (parseRecord old addr len ptr s) s.cells := by
  unfold Loader.parseRecord parseRecord
  cases readHex 2 ptr old.code with
  | none => rfl
  | some code =>
    dsimp only
    by_cases hguard : maxMemorySize ≤ u32 (addr + s.extendedAddr + len)
    · rw [if_pos hguard, if_pos hguard]
      rfl
    · rw [if_neg hguard, if_neg hguard]
      by_cases hcode : code ≠ 0
      · rw [if_pos hcode, if_pos hcode]
        exact Prod.ext rfl (otherRecord_withCells old code len _ _ s).symm
      · rw [if_neg hcode, if_neg hcode]
        exact run_dataRecord old addr len _ _ s

/-- **`parse_hex_line` is the program, run without bounds.** -/
theorem run_parseHexLine (old : Locals) (line : List Char) (s : Statics) :
    Loader.parseHexLine old line s = outcome (parseHexLine old line s) s.cells := by
  unfold Loader.parseHexLine parseHexLine
  by_cases hcolon : line.head? ≠ some ':'
  · rw [if_pos hcolon, if_pos hcolon]
    rfl
  rw [if_neg hcolon, if_neg hcolon]
  by_cases hshort : line.length < 11
  · rw [if_pos hshort, if_pos hshort]
    rfl
  rw [if_neg hshort, if_neg hshort]
  dsimp only
  cases readHex 2 (line.drop 1) old.len with
  | none => rfl
  | some len =>
    dsimp only
    by_cases hlong : (line.length : Int) < 11 + len * 2
    · rw [if_pos hlong, if_pos hlong]
      rfl
    rw [if_neg hlong, if_neg hlong]
    cases readHex 4 ((line.drop 1).drop 2) old.addr with
    | none => rfl
    | some addr => exact run_parseRecord old addr len _ s

/-! ## The cells stored to -/

/-- The loop stores the bytes of the data to consecutive cells, one in a turn. -/
theorem storeData_stores {bs : List UInt8} {cs : List Char} (h : Bytes bs cs) (rest : List Char)
    (start : Int) {len left : Nat} (hleft : left ≤ 256) (hlen : len + left = 256 + bs.length)
    (hlt : bs.length < left) (sum : Int) (m : Nat → HexCell) :
    (storeData start len left (cs ++ rest) sum).indices m
        = (List.range bs.length).map (fun k : Nat => u32 (start + (256 - left : Nat) + k)) ∧
      ((storeData start len left (cs ++ rest) sum).run m).1.2 = bs.length := by
  induction h generalizing left sum m with
  | nil =>
    obtain ⟨left, rfl⟩ : ∃ n, left = n + 1 := ⟨left - 1, by omega⟩
    rw [List.length_nil] at hlen
    have hdone : (255 - left : Int) = len := by omega
    rw [storeData]
    simp only [hdone, if_true]
    exact ⟨rfl, rfl⟩
  | @cons b bs cs ds hb hbs ih =>
    obtain ⟨left, rfl⟩ : ∃ n, left = n + 1 := ⟨left - 1, by omega⟩
    simp only [List.length_cons] at hlen hlt
    have hmore : ¬(255 - left : Int) = len := by omega
    have hfirst : start + (255 - left : Int) = start + (256 - (left + 1) : Nat) + (0 : Nat) := by
      omega
    have hnext (k : Nat) : start + (256 - left : Nat) + k
        = start + (256 - (left + 1) : Nat) + (k + 1 : Nat) := by omega
    have htail := @ih left (by omega) (by omega) (by omega)
    rw [List.append_assoc, storeData]
    simp only [hmore, if_false, scanHex_field hb (by decide), drop_field hb, Access.bind_eq,
      Access.pure_eq, Access.indices_bind, Access.indices_set, Access.indices_ret, Access.run_bind,
      Access.run_set, Access.run_ret, (htail _ _).1, (htail _ _).2, List.length_cons,
      List.range_succ_eq_map, List.map_cons, List.map_map]
    refine ⟨?_, trivial⟩
    rw [hfirst, List.append_nil, List.singleton_append]
    refine congrArg _ (List.map_congr_left fun k _ => ?_)
    rw [hnext]
    rfl

end HexAccess

end SphereWare.Loader
