import SphereWare.Loader.Main

/-!
# When the loader succeeds

The loader returns 0 exactly if every step of it succeeds, and what it has written then is the image
as the file has it when the device is there. It waits for a device only if it is told to, or after a
hard reboot, and it reboots once at most.
-/

namespace SphereWare.Loader

variable {h : Host} {dev : UsbDevice}

/-! ## The loop that opens the device -/

/-- The loop may go on after the turn in which it has found no device. -/
def Host.goesOn (h : Host) (turn : Nat) (hardRebootDevice waitForDevice : Bool) : Bool :=
  if hardRebootDevice then h.hardReboot turn else waitForDevice

theorem openLoop_succ (h : Host) (turns turn : Nat) (hard wait waited : Bool) :
    openLoop h (turns + 1) turn hard wait waited
      = match h.teensyOpen turn with
        | some dev => .opened dev waited
        | none =>
          if h.goesOn turn hard wait then openLoop h turns (turn + 1) false true true
          else .died := by
  rw [openLoop]
  cases h.teensyOpen turn with
  | some dev => rfl
  | none =>
    cases hard with
    | true => rfl
    | false => rfl

/-- The device is there first at a later turn if it is not there now. -/
theorem firstOpen_succ (h : Host) (dev : UsbDevice) (turn n : Nat) :
    (h.teensyOpen (turn + (n + 1)) = some dev ∧ ∀ k < n + 1, h.teensyOpen (turn + k) = none) ↔
      h.teensyOpen turn = none ∧ h.teensyOpen (turn + 1 + n) = some dev ∧
        ∀ k < n, h.teensyOpen (turn + 1 + k) = none := by
  have hshift (k : Nat) : turn + (k + 1) = turn + 1 + k := by omega
  rw [hshift]
  constructor
  · rintro ⟨hdev, hbefore⟩
    refine ⟨hbefore 0 n.succ_pos, hdev, fun k hk => ?_⟩
    rw [← hshift]
    exact hbefore (k + 1) (Nat.succ_lt_succ hk)
  · rintro ⟨hnone, hdev, hbefore⟩
    refine ⟨hdev, fun k hk => ?_⟩
    cases k with
    | zero => exact hnone
    | succ k =>
      rw [hshift]
      exact hbefore k (Nat.lt_of_succ_lt_succ hk)

theorem opens_of_openLoop {turns turn : Nat} {hard wait waited flag : Bool}
    (hopened : openLoop h turns turn hard wait waited = .opened dev flag) :
    ∃ n < turns, h.teensyOpen (turn + n) = some dev ∧
      (∀ k < n, h.teensyOpen (turn + k) = none) ∧
      (n = 0 ∧ flag = waited ∨ 0 < n ∧ flag = true ∧ h.goesOn turn hard wait = true) := by
  induction turns generalizing turn hard wait waited with
  | zero => exact Opening.noConfusion hopened
  | succ turns ih =>
    rw [openLoop_succ] at hopened
    cases hopen : h.teensyOpen turn with
    | some found =>
      rw [hopen] at hopened
      obtain ⟨rfl, rfl⟩ := Opening.opened.inj hopened
      exact ⟨0, turns.succ_pos, hopen, by simp, .inl ⟨rfl, rfl⟩⟩
    | none =>
      simp only [hopen] at hopened
      split at hopened
      · next hgo =>
        obtain ⟨n, hn, hdev, hbefore, hflag⟩ := ih hopened
        have htrue : flag = true := by
          rcases hflag with ⟨-, hflag⟩ | ⟨-, hflag, -⟩
          · exact hflag
          · exact hflag
        obtain ⟨hdev', hbefore'⟩ := (firstOpen_succ h dev turn n).mpr ⟨hopen, hdev, hbefore⟩
        exact ⟨n + 1, Nat.succ_lt_succ hn, hdev', hbefore', .inr ⟨n.succ_pos, htrue, hgo⟩⟩
      · exact Opening.noConfusion hopened

theorem openLoop_of_opens {n turns turn : Nat} {hard wait waited flag : Bool} (hn : n < turns)
    (hdev : h.teensyOpen (turn + n) = some dev) (hbefore : ∀ k < n, h.teensyOpen (turn + k) = none)
    (hflag : n = 0 ∧ flag = waited ∨ 0 < n ∧ flag = true ∧ h.goesOn turn hard wait = true) :
    openLoop h turns turn hard wait waited = .opened dev flag := by
  induction n generalizing turns turn hard wait waited with
  | zero =>
    obtain ⟨turns, rfl⟩ := Nat.exists_eq_succ_of_ne_zero (Nat.ne_of_gt hn)
    rcases hflag with ⟨-, rfl⟩ | ⟨hlt, -⟩
    · rw [openLoop_succ, show h.teensyOpen turn = some dev from hdev]
    · exact absurd hlt (Nat.lt_irrefl 0)
  | succ n ih =>
    obtain ⟨turns, rfl⟩ := Nat.exists_eq_succ_of_ne_zero (Nat.ne_zero_of_lt hn)
    obtain ⟨hnone, hdev', hbefore'⟩ := (firstOpen_succ h dev turn n).mp ⟨hdev, hbefore⟩
    rcases hflag with ⟨hzero, -⟩ | ⟨-, rfl, hgo⟩
    · exact absurd hzero (Nat.succ_ne_zero n)
    · simp only [openLoop_succ, hnone, if_pos hgo]
      refine ih (Nat.lt_of_succ_lt_succ hn) hdev' hbefore' ?_
      rcases Nat.eq_zero_or_pos n with hzero | hpos
      · exact .inl ⟨hzero, rfl⟩
      · exact .inr ⟨hpos, rfl, rfl⟩

/-- The first turn at which the device is there is the one at which it is opened. -/
theorem openLoop_eq_opened {turns turn : Nat} {hard wait waited flag : Bool} :
    openLoop h turns turn hard wait waited = .opened dev flag ↔
      ∃ n < turns, h.teensyOpen (turn + n) = some dev ∧
        (∀ k < n, h.teensyOpen (turn + k) = none) ∧
        (n = 0 ∧ flag = waited ∨ 0 < n ∧ flag = true ∧ h.goesOn turn hard wait = true) := by
  constructor
  · exact opens_of_openLoop
  · rintro ⟨n, hn, hdev, hbefore, hflag⟩
    exact openLoop_of_opens hn hdev hbefore hflag

/-! ## What is written -/

/-- The reports of a session: the pages of the image, and the one that starts the application. -/
def sessionReports (o : Options) (pages : List (List UInt8)) : List (List UInt8) :=
  pages ++ if o.rebootAfterProgramming then [rebootReport o] else []

theorem programDevice_eq_finished {o : Options} {s : Statics} {found : UsbDevice}
    {reports : List (List UInt8)} :
    programDevice h o s found = .finished dev reports ↔ found = dev ∧
      ∃ pages, program s o h.teensyWrite = some pages ∧ reports = sessionReports o pages := by
  unfold programDevice sessionReports
  cases program s o h.teensyWrite with
  | none => simp
  | some pages =>
    dsimp only
    rw [Exit.finished.injEq]
    constructor
    · rintro ⟨rfl, rfl⟩
      exact ⟨rfl, pages, rfl, rfl⟩
    · rintro ⟨rfl, _, hpages, rfl⟩
      rw [Option.some.inj hpages]
      exact ⟨rfl, rfl⟩

/-- The last reading of the file, when the device is opened at the turn `n`. -/
def Host.lastReading (h : Host) (s₀ : Statics) (n : Nat) : Int × Statics :=
  let first := readIntelHex (h.stack 0) (h.file 0) s₀
  if n = 0 then first else readIntelHex (h.stack 1) (h.file 1) first.2

/-- What `openDevice` needs to get to its end. -/
theorem openDevice_eq_finished {turns : Nat} {o : Options} {s₀ : Statics}
    {reports : List (List UInt8)} (hfirst : 0 ≤ (readIntelHex (h.stack 0) (h.file 0) s₀).1) :
    openDevice h turns o (readIntelHex (h.stack 0) (h.file 0) s₀).2 = .finished dev reports ↔
      ∃ n < turns, h.teensyOpen n = some dev ∧ (∀ k < n, h.teensyOpen k = none) ∧
        (n = 0 ∨ h.goesOn 0 o.hardRebootDevice o.waitForDeviceToAppear = true) ∧
        0 ≤ (h.lastReading s₀ n).1 ∧
        ∃ pages, program (h.lastReading s₀ n).2 o h.teensyWrite = some pages ∧
          reports = sessionReports o pages := by
  unfold openDevice
  constructor
  · intro hfinished
    split at hfinished
    · exact Exit.noConfusion hfinished
    · exact Exit.noConfusion hfinished
    · next found waited hloop =>
      obtain ⟨n, hn, hdev, hbefore, hwaited⟩ := openLoop_eq_opened.mp hloop
      simp only [Nat.zero_add] at hdev hbefore
      rcases hwaited with ⟨rfl, rfl⟩ | ⟨hpos, rfl, hgo⟩
      · rw [if_neg Bool.false_ne_true] at hfinished
        obtain ⟨rfl, hpages⟩ := programDevice_eq_finished.mp hfinished
        exact ⟨0, hn, hdev, hbefore, .inl rfl, hfirst, hpages⟩
      · have hlast : h.lastReading s₀ n = readIntelHex (h.stack 1) (h.file 1)
            (readIntelHex (h.stack 0) (h.file 0) s₀).2 := if_neg (Nat.ne_of_gt hpos)
        rw [if_pos rfl, ← hlast] at hfinished
        dsimp only at hfinished
        split at hfinished
        · exact Exit.noConfusion hfinished
        · next hread =>
          obtain ⟨rfl, hpages⟩ := programDevice_eq_finished.mp hfinished
          exact ⟨n, hn, hdev, hbefore, .inr hgo, Int.not_lt.mp hread, hpages⟩
  · rintro ⟨n, hn, hdev, hbefore, hgo, hread, hpages⟩
    have hloop : openLoop h turns 0 o.hardRebootDevice o.waitForDeviceToAppear false
        = .opened dev (decide (0 < n)) := by
      refine openLoop_eq_opened.mpr ⟨n, hn, by simpa using hdev, by simpa using hbefore, ?_⟩
      rcases Nat.eq_zero_or_pos n with rfl | hpos
      · exact .inl ⟨rfl, rfl⟩
      · exact .inr ⟨hpos, decide_eq_true hpos, hgo.resolve_left (Nat.ne_of_gt hpos)⟩
    rw [hloop]
    dsimp only
    rcases Nat.eq_zero_or_pos n with rfl | hpos
    · exact programDevice_eq_finished.mpr ⟨rfl, hpages⟩
    · have hlast : h.lastReading s₀ n = readIntelHex (h.stack 1) (h.file 1)
          (readIntelHex (h.stack 0) (h.file 0) s₀).2 := if_neg (Nat.ne_of_gt hpos)
      rw [if_pos (decide_eq_true hpos), ← hlast, if_neg (Int.not_lt.mpr hread)]
      exact programDevice_eq_finished.mpr ⟨rfl, hpages⟩

/-- Everything that has to go well for the loader to write `reports` to the device. -/
structure Succeeds (h : Host) (turns : Nat) (args : List (List Char)) (s₀ : Statics)
    (dev : UsbDevice) (reports : List (List UInt8)) (o : Options) (n : Nat) : Prop where
  options : parseOptions args .start = some o
  filename : o.filename ≠ none
  codeSize : o.codeSize ≠ 0
  /-- The file can be read, and read again where the loader had to wait. -/
  firstReading : 0 ≤ (readIntelHex (h.stack 0) (h.file 0) s₀).1
  lastReading : 0 ≤ (h.lastReading s₀ n).1
  /-- The device turns up at the turn `n`. -/
  turn : n < turns
  opened : h.teensyOpen n = some dev
  missing : ∀ k < n, h.teensyOpen k = none
  /-- The loader waits for it, or has rebooted it. -/
  patient : n = 0 ∨ h.goesOn 0 o.hardRebootDevice o.waitForDeviceToAppear = true
  /-- Every page of the image is written. -/
  written : ∃ pages, program (h.lastReading s₀ n).2 o h.teensyWrite = some pages ∧
    reports = sessionReports o pages

variable {turns : Nat} {args : List (List Char)} {s₀ : Statics} {reports : List (List UInt8)}

theorem succeeds_of_main (hmain : main h turns args s₀ = .finished dev reports) :
    ∃ o n, Succeeds h turns args s₀ dev reports o n := by
  unfold main at hmain
  cases hargs : parseOptions args .start with
  | none =>
    rw [hargs] at hmain
    exact Exit.noConfusion hmain
  | some o =>
    rw [hargs] at hmain
    dsimp only at hmain
    split at hmain
    · exact Exit.noConfusion hmain
    · next hname =>
      split at hmain
      · exact Exit.noConfusion hmain
      · next hsize =>
        split at hmain
        · exact Exit.noConfusion hmain
        · next hread =>
          have hfirst := Int.not_lt.mp hread
          obtain ⟨n, hn, hdev, hbefore, hgo, hlast, hpages⟩ :=
            (openDevice_eq_finished hfirst).mp hmain
          exact ⟨o, n, hargs, hname, hsize, hfirst, hlast, hn, hdev, hbefore, hgo, hpages⟩

theorem main_of_succeeds {o : Options} {n : Nat}
    (hs : Succeeds h turns args s₀ dev reports o n) :
    main h turns args s₀ = .finished dev reports := by
  unfold main
  rw [hs.options]
  dsimp only
  rw [if_neg hs.filename, if_neg hs.codeSize, if_neg (Int.not_lt.mpr hs.firstReading)]
  exact (openDevice_eq_finished hs.firstReading).mpr ⟨n, hs.turn, hs.opened, hs.missing,
    hs.patient, hs.lastReading, hs.written⟩

/-! ## The device -/

/-- A device that is opened has one of the two pairs of ids the loader looks for. -/
theorem ids_of_teensyOpen {turn : Nat} (hopen : h.teensyOpen turn = some dev) :
    dev.idVendor = 0x16C0 ∧ dev.idProduct = 0x0478 ∨
      dev.idVendor = 0x03eb ∧ dev.idProduct = 0x2067 := by
  unfold Host.teensyOpen openUsbDevice at hopen
  rcases Option.or_eq_some_iff.mp hopen with hfound | ⟨-, hfound⟩
  · have hids := List.find?_some hfound
    simp only [decide_eq_true_eq] at hids
    exact .inl ⟨hids.1, hids.2.1⟩
  · have hids := List.find?_some hfound
    simp only [decide_eq_true_eq] at hids
    exact .inr ⟨hids.1, hids.2.1⟩

end SphereWare.Loader
