import SphereWare.Properties.HeldPad
import SphereWare.Spec.Touch

/-!
# The pads, one by one

In every run of main each velocity pad is its touch machine (`touch_of_run`). What else is read or
sent makes no difference to it (`entry_of_history`), and while it is pressed in a band the
pressure the host reads settles there (`pressure_settles`).
-/

namespace SphereWare

open Interrupt Prog

variable {p i : Nat} {s t : Firmware} {os : List Outcome}

theorem entries_eq_entry (s : Firmware) (hp : p < 40) : (scanView s).entries p = s.hid.entry p :=
  if_pos (Nat.lt_trans hp (by decide))

/-! ## Refinement -/

/--
**A velocity pad is its touch machine.** In every run of main, with interrupts and calibrations
anywhere in between:

* a pad is played if its machine is in a touch;
* the host reads the pressure and the velocity of the machine, and both are in range;
* an iteration takes the branch that goes with the step of the machine.
-/
theorem touch_of_run (h : ScanRun avr os i s) :
    (∀ p < 40, s.pads.beingPlayed p = (touchAfter p os).isSome ∧
      s.hid.entry p = touchEntry (touchAfter p os) ∧ ∀ u ∈ touchAfter p os, u.Valid) ∧
    ∀ (o : Outcome) (i' : Nat) (t : Firmware), LoopStep avr i s (some o) i' t → o.pad < 40 →
      o.event = touchEvent o.samples (touchBefore o (touchAfter o.pad os)) := by
  refine ⟨fun p hp => ?_, fun o i' t hstep ho => hstep.touchEvent_eq ho h rfl⟩
  have hshows := h.touch hp
  exact ⟨hshows.played, (entries_eq_entry s hp).symm.trans hshows.entry, hshows.valid⟩

theorem touch_of_run_struck : struck.2.pads.beingPlayed 0 = (touchAfter 0 [struck.1]).isSome ∧
    struck.2.hid.entry 0 = touchEntry (touchAfter 0 [struck.1]) ∧
      ∀ u ∈ touchAfter 0 [struck.1], u.Valid :=
  (touch_of_run struck_run).1 0 (by decide)

/-! ## Independence -/

/-- The deflections from the threshold in force at each reading. -/
def deflections (samples : List Sample) : List Int := samples.map Sample.val

/-- What the machine of a pad takes from an iteration: a calibration, and the deflections. -/
def touchNote (p : Nat) (o : Outcome) : Option (Bool × Option (List Int)) :=
  if o.pad = p then some (o.recalibrated.isSome, some (deflections o.samples))
  else if o.recalibrated.isSome then some (true, none)
  else none

/-- All that happens to the pad `p`. -/
def touchHistory (p : Nat) (os : List Outcome) : List (Bool × Option (List Int)) :=
  os.filterMap (touchNote p)

/-- The step, by what is noted. -/
def noteStep (t : Option Touch) (n : Bool × Option (List Int)) : Option Touch :=
  let t := if n.1 then none else t
  match n.2 with
  | some vals => touchNext (vals.map fun val => ⟨val, 0⟩) t
  | none => t

/-- The bias codes make no difference to the machine. -/
theorem touchNext_deflections (samples : List Sample) (t : Option Touch) :
    touchNext ((deflections samples).map fun val => ⟨val, 0⟩) t = touchNext samples t := by
  have hvals : ((deflections samples).map fun val => Sample.mk val 0).map Sample.val
      = samples.map Sample.val := by
    rw [deflections, List.map_map]
    exact List.map_id _
  have hleading : leading ((deflections samples).map fun val => ⟨val, 0⟩) = leading samples := by
    rw [leading, leading, ← List.head?_map, ← List.head?_map, hvals]
  have hstruck : Touch.struck ((deflections samples).map fun val => ⟨val, 0⟩)
      = Touch.struck samples := by
    rw [Touch.struck, Touch.struck, strikeVelocity, strikeVelocity, peak, peak, hvals]
  cases t with
  | none => rw [touchNext, touchNext, hleading, hstruck]
  | some t => rw [touchNext, touchNext, hleading]

theorem touchStep_eq (p : Nat) (t : Option Touch) (o : Outcome) :
    touchStep p t o = ((touchNote p o).map (noteStep t)).getD t := by
  unfold touchStep touchNote touchBefore
  by_cases hpad : o.pad = p
  · rw [if_pos hpad, if_pos hpad]
    exact (touchNext_deflections o.samples _).symm
  · rw [if_neg hpad, if_neg hpad]
    split <;> rfl

theorem touchAfter_eq (p : Nat) (os : List Outcome) :
    touchAfter p os = (touchHistory p os).foldl noteStep none := by
  rw [touchAfter, touchHistory, List.foldl_filterMap]
  congr 1
  funext t o
  rw [touchStep_eq]
  cases touchNote p o <;> rfl

/--
**The pads are independent, and all alike.** If the same happened to two velocity pads, in one run
of main or in two, the host reads the same of them. What happens to a pad are the calibrations, and
the deflections from the threshold in force that its readings make. Given these, what is done to
other pads, the elite unit, the host's orders, the order of the scan and the timing of the
interrupts make no difference.
-/
theorem entry_of_history {os' : List Outcome} {p q j : Nat} (hp : p < 40) (hq : q < 40)
    (h : ScanRun avr os i s) (h' : ScanRun avr os' j t)
    (hsame : touchHistory p os = touchHistory q os') :
    s.hid.entry p = t.hid.entry q ∧ s.pads.beingPlayed p = t.pads.beingPlayed q := by
  have htouch : touchAfter p os = touchAfter q os' := by
    rw [touchAfter_eq, touchAfter_eq, hsame]
  rw [← entries_eq_entry s hp, ← entries_eq_entry t hq]
  constructor
  · exact (h.touch hp).entry.trans (htouch ▸ (h'.touch hq).entry.symm)
  · exact (h.touch hp).played.trans (htouch ▸ (h'.touch hq).played.symm)

/-- After the strike the next pad is struck. -/
def struckNext : Outcome × Firmware := iteration 1 firstPadPressed struck.2

theorem struckNext_run : ScanRun avr [struck.1, struckNext.1] 2 struckNext.2 :=
  struck_run.step (iteration_step (i := 1) (by decide) firstPadPressed struck.2)

theorem struck_history : struckNext.2.pads.beingPlayed 0 = true ∧
    touchHistory 0 [struck.1, struckNext.1] = touchHistory 1 [struck.1, struckNext.1] := by
  decide +kernel

theorem entry_of_history_struck : struckNext.2.pads.beingPlayed 0 = true ∧
    struckNext.2.hid.entry 0 = struckNext.2.hid.entry 1 ∧
      struckNext.2.pads.beingPlayed 0 = struckNext.2.pads.beingPlayed 1 :=
  ⟨struck_history.1, entry_of_history (by decide) (by decide) struckNext_run struckNext_run
    struck_history.2⟩

/-! ## Settling -/

/-- The step of the machine without a calibration. -/
theorem foldl_touchStep (p : Nat) {os : List Outcome} (hquiet : ∀ o ∈ os, o.recalibrated = none)
    (t : Option Touch) :
    os.foldl (touchStep p) t = (readingsOf p os).foldl (fun t o => touchNext o.samples t) t := by
  induction os generalizing t with
  | nil => rfl
  | cons o os ih =>
    obtain ⟨ho, hrest⟩ := List.forall_mem_cons.mp hquiet
    have hbefore : touchBefore o t = t := by rw [touchBefore, ho]; rfl
    rw [List.foldl_cons, ih hrest, touchStep, hbefore]
    by_cases hpad : o.pad = p
    · rw [if_pos hpad, readingsOf, readingsOf, List.filter_cons_of_pos (by simpa using hpad)]
      rfl
    · rw [if_neg hpad, readingsOf, readingsOf, List.filter_cons_of_neg (by simpa using hpad)]

/-- While the pad is held the pressure goes halfway to each deflection. -/
theorem foldl_touchNext {rs : List Outcome} (hpressed : ∀ o ∈ rs, 0 < leading o.samples)
    (t : Touch) :
    rs.foldl (fun t o => touchNext o.samples t) (some t)
      = some { t with pressure :=
          Blend.settle 511 t.pressure (rs.map fun o => leading o.samples) } := by
  induction rs generalizing t with
  | nil => rfl
  | cons o rs ih =>
    obtain ⟨ho, hrest⟩ := List.forall_mem_cons.mp hpressed
    rw [List.foldl_cons, touchNext, if_pos ho, ih hrest]
    rfl

/-- A pad that is pressed is in a touch, whatever it was before. -/
theorem exists_touchNext {samples : List Sample} (hpressed : 0 < leading samples)
    {t : Option Touch} (ht : ∀ u ∈ t, u.Valid) :
    ∃ u, touchNext samples t = some u ∧ u.Valid := by
  cases t with
  | none => exact ⟨_, if_pos hpressed, Touch.struck_valid samples⟩
  | some t => exact ⟨_, if_pos hpressed, (ht t rfl).press hpressed⟩

theorem touchNext_valid (samples : List Sample) {t : Option Touch} (ht : ∀ u ∈ t, u.Valid) :
    ∀ u ∈ touchNext samples t, u.Valid := by
  by_cases hpressed : 0 < leading samples
  · obtain ⟨u, hu, hvalid⟩ := exists_touchNext hpressed ht
    rw [hu]
    rintro _ ⟨⟩
    exact hvalid
  · cases t <;> simp [touchNext, hpressed]

theorem touchAfter_valid (p : Nat) (os : List Outcome) : ∀ u ∈ touchAfter p os, u.Valid := by
  induction os using List.reverseRecOn with
  | nil => exact fun u hu => nomatch hu
  | append_singleton os o ih =>
    have hbefore : ∀ u ∈ touchBefore o (touchAfter p os), u.Valid := by
      unfold touchBefore
      split
      · exact fun u hu => nomatch hu
      · exact ih
    rw [touchAfter_append, List.foldl_cons, List.foldl_nil, touchStep]
    split
    · exact touchNext_valid _ hbefore
    · exact hbefore

/--
**The pressure settles.** While a pad is pressed, so that its deflections are positive, and they
stay between `lo` and `hi`, from its eleventh reading on the host reads a pressure between `lo - 1`
and `hi`, both at most 511, whatever it read before.
-/
theorem pressure_settles {os' : List Outcome} {lo hi : Int} (hp : p < 40)
    (h : ScanRun avr (os ++ os') i s) (hquiet : ∀ o ∈ os', o.recalibrated = none)
    (hband : ∀ o ∈ readingsOf p os',
      0 < leading o.samples ∧ lo ≤ leading o.samples ∧ leading o.samples ≤ hi)
    (hmany : 11 ≤ (readingsOf p os').length) :
    s.pads.beingPlayed p = true ∧
      min 511 lo - 1 ≤ ((s.hid.entry p).1 : Int) ∧ ((s.hid.entry p).1 : Int) ≤ min 511 hi := by
  have hshows := h.touch hp
  rw [touchAfter_append, foldl_touchStep p hquiet] at hshows
  obtain ⟨o, rs, hreadings⟩ : ∃ o rs, readingsOf p os' = o :: rs :=
    List.exists_cons_of_length_pos (by omega)
  rw [hreadings] at hband hmany hshows
  obtain ⟨⟨ho, -⟩, hrest⟩ := List.forall_mem_cons.mp hband
  -- the first reading begins the touch or goes on with it
  obtain ⟨u, hu, hvalid⟩ := exists_touchNext ho (touchAfter_valid p os)
  rw [List.foldl_cons, hu, foldl_touchNext fun o' ho' => (hrest o' ho').1] at hshows
  have hwithin : Blend.Within 511 lo hi 1 0
      (Blend.settle 511 u.pressure (rs.map fun o => leading o.samples)) := by
    refine Blend.settle_within (n := 9) (by decide) hvalid.pressure.1 hvalid.pressure.2 ?_ ?_
    · intro v hv
      obtain ⟨o', ho', rfl⟩ := List.mem_map.mp hv
      exact ⟨(hrest o' ho').1.le, (hrest o' ho').2⟩
    · rw [List.length_map]
      exact Nat.lt_of_succ_le (Nat.le_of_succ_le_succ hmany)
  have hpressure := (hshows.valid _ rfl).pressure.1
  have hshown : ((s.hid.entry p).1 : Int)
      = Blend.settle 511 u.pressure (rs.map fun o => leading o.samples) := by
    rw [← entries_eq_entry s hp, show (scanView s).entries p = _ from hshows.entry]
    exact Int.toNat_of_nonneg hpressure
  rw [hshown]
  exact ⟨hshows.played, hwithin.low, by simpa using hwithin.high⟩

/-! ### A pad that is held -/

/-- What a part of a pass with a constant reading shows of the pad `p`. -/
structure HeldReadings (p n : Nat) (os : List Outcome) : Prop where
  quiet : ∀ o ∈ os, o.recalibrated = none
  count : (readingsOf p os).length = n
  band : ∀ o ∈ readingsOf p os, 639 ≤ leading o.samples ∧ leading o.samples ≤ 939

theorem HeldReadings.append {m n : Nat} {os' : List Outcome} (h : HeldReadings p m os)
    (h' : HeldReadings p n os') : HeldReadings p (m + n) (os ++ os') := by
  have hreadings : readingsOf p (os ++ os') = readingsOf p os ++ readingsOf p os' :=
    List.filter_append _ _
  refine ⟨fun o ho => (List.mem_append.mp ho).elim (h.quiet o) (h'.quiet o), ?_, fun o ho => ?_⟩
  · rw [hreadings, List.length_append, h.count, h'.count]
  · rw [hreadings] at ho
    exact (List.mem_append.mp ho).elim (h.band o) (h'.band o)

theorem HeldReadings.other {o : Outcome} (hpad : o.pad ≠ p) (hcodes : o.recalibrated = none) :
    HeldReadings p 0 [o] := by
  have hreadings : readingsOf p [o] = [] := List.filter_cons_of_neg (by simpa using hpad)
  refine ⟨fun o' ho' => ?_, by rw [hreadings, List.length_nil], fun o' ho' => ?_⟩
  · rw [List.mem_singleton.mp ho']
    exact hcodes
  · rw [hreadings] at ho'
    exact nomatch ho'

/-- The first iteration reads the pad. -/
theorem FirstPad.heldReadings (h : FirstPad p s) {o : Outcome}
    (hiter : iteration 0 (heldInput 0x200) s = (o, t)) : HeldReadings p 1 [o] := by
  obtain ⟨-, hcodes, -⟩ := h.step (by decide) hiter
  obtain ⟨hpad, hheld⟩ := h.held hiter
  obtain ⟨x, rest, hsamples, hval, -⟩ := hheld.sample
  have hreadings : readingsOf p [o] = [o] := List.filter_cons_of_pos (by simpa using hpad)
  refine ⟨fun o' ho' => ?_, by rw [hreadings, List.length_singleton], fun o' ho' => ?_⟩
  · rw [List.mem_singleton.mp ho']
    exact hcodes
  · rw [hreadings] at ho'
    rw [List.mem_singleton.mp ho', hsamples]
    have hleading : leading (x :: rest) = x.val := rfl
    rw [hleading, hval]
    exact h.deflection_pressed

/-- The part of a pass up to a position. -/
theorem FirstPad.exists_heldPart (h : FirstPad p s) (n : Nat) (hn : n < numPads) :
    ∃ os u, LoopRun avr 0 s os (n + 1) u ∧ FirstPad p u ∧ HeldReadings p 1 os := by
  induction n with
  | zero =>
    obtain ⟨⟨o, t⟩, hiter⟩ : ∃ r, iteration 0 (heldInput 0x200) s = r := ⟨_, rfl⟩
    obtain ⟨hstep, -, -, -, ht⟩ := h.step (by decide) hiter
    exact ⟨[o], t, LoopRun.refl.step hstep, ht, h.heldReadings hiter⟩
  | succ n ih =>
    obtain ⟨os, u, hrun, hu, hos⟩ := ih (by omega)
    obtain ⟨⟨o, w⟩, hnext⟩ : ∃ r, iteration (n + 1) (heldInput 0x200) u = r := ⟨_, rfl⟩
    obtain ⟨hstep, hcodes, -, -, hw⟩ := hu.step hn hnext
    obtain ⟨hne, -⟩ := hu.other n.succ_pos hn hnext
    exact ⟨os ++ [o], w, hrun.step hstep, hw, hos.append (.other hne hcodes)⟩

/-- **The pad can be held down for as many passes as one likes.** -/
theorem FirstPad.exists_held (h : FirstPad p s) (n : Nat) :
    ∃ os t, LoopRun avr 0 s os 0 t ∧ FirstPad p t ∧ HeldReadings p n os := by
  induction n with
  | zero =>
    exact ⟨[], s, .refl, h, fun o ho => (nomatch ho), rfl, fun o ho => (nomatch ho)⟩
  | succ n ih =>
    obtain ⟨os, t, hrun, ht, hos⟩ := ih
    obtain ⟨os', u, hrun', hu, hos'⟩ := ht.exists_heldPart 47 (by decide)
    obtain ⟨w, hstep, hw, -⟩ := hu.endPass
    have hpass := hrun'.step hstep
    rw [Option.toList_none, List.append_nil] at hpass
    exact ⟨os ++ os', w, hrun.trans hpass, hw, hos.append hos'⟩

theorem pressure_settles_held : ∃ os' p s, ScanRun avr os' 0 s ∧ (readingsOf p os').length = 11 ∧
    s.pads.beingPlayed p = true ∧ min 511 639 - 1 ≤ ((s.hid.entry p).1 : Int) ∧
      ((s.hid.entry p).1 : Int) ≤ min 511 939 := by
  obtain ⟨p, s₀, hstart, hpad, -⟩ := exists_firstPad
  obtain ⟨os', s, hrun, -, hheld⟩ := hpad.exists_held 11
  have hscan : ScanRun avr ([] ++ os') 0 s := hstart.append hrun
  refine ⟨os', p, s, hscan, hheld.count, ?_⟩
  refine pressure_settles hpad.lt hscan hheld.quiet (fun o ho => ?_) (by rw [hheld.count])
  obtain ⟨hlow, hhigh⟩ := hheld.band o ho
  exact ⟨by omega, hlow, hhigh⟩

end SphereWare
