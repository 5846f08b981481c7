import SphereWare.Bootloader.Reset
import SphereWare.Calls.History
import SphereWare.Properties.BootloaderFlash

/-!
# The device over its resets

Which resets start the application, and what can have changed the flash, over every sequence of
resets and requests since the device was switched on.
-/

namespace SphereWare.Bootloader

namespace Chip

variable {c : Chip}

theorem run_append (c : Chip) (l l' : List Event) : c.run (l ++ l') = (c.run l).run l' :=
  List.foldl_append

/-! ## The key and the flags -/

/-- What the flags are in each phase. -/
structure Sound (c : Chip) : Prop where
  loop : ∀ n, c.phase = .loop n → c.wdrf = false ∧ c.watchdog = false
  stopped : c.phase = .stopped →
    c.wdrf = false ∧ c.watchdog = true ∧ c.magicBootKey = Bootloader.magicBootKey
  application : c.phase = .application → c.watchdog = c.wdrf

theorem sound_of_loop {n : Nat} (hphase : c.phase = .loop n) (hwdrf : c.wdrf = false)
    (hwatchdog : c.watchdog = false) : c.Sound :=
  ⟨fun _ _ => ⟨hwdrf, hwatchdog⟩, fun h => absurd (hphase.symm.trans h) (by simp),
    fun h => absurd (hphase.symm.trans h) (by simp)⟩

theorem sound_of_application (hphase : c.phase = .application) (h : c.watchdog = c.wdrf) :
    c.Sound :=
  ⟨fun _ hn => absurd (hphase.symm.trans hn) (by simp),
    fun hs => absurd (hphase.symm.trans hs) (by simp), fun _ => h⟩

theorem sound_stop (h : c.wdrf = false) : c.stop.Sound := by
  refine ⟨fun n hn => ?_, fun _ => ⟨h, rfl, rfl⟩, fun happ => ?_⟩
  · exact absurd hn (by simp [stop])
  · exact absurd happ (by simp [stop])

theorem sound_main (c : Chip) (pressed : Bool) : (c.main pressed).Sound := by
  cases pressed with
  | false => exact sound_stop rfl
  | true => exact sound_of_loop (n := 0) rfl rfl rfl

/-- `Application_Jump_Check` comes right after a reset, which leaves the watchdog on with `WDRF`. -/
theorem sound_applicationJumpCheck (h : c.watchdog = c.wdrf) (pressed : Bool) :
    (c.applicationJumpCheck pressed).Sound := by
  unfold applicationJumpCheck
  split
  · exact sound_of_application rfl h
  · exact sound_main c pressed

theorem watchdog_atReset {source : ResetSource} {c' : Chip} (h : c.atReset source = some c') :
    c'.watchdog = c'.wdrf := by
  cases source with
  | powerOn ram =>
    obtain rfl := Option.some.inj h
    rfl
  | external =>
    obtain rfl := Option.some.inj h
    rfl
  | watchdog =>
    simp only [atReset] at h
    split at h
    · next hon =>
      obtain rfl := Option.some.inj h
      exact hon
    · exact absurd h (by simp)

theorem Sound.reset (h : c.Sound) (source : ResetSource) (pressed : Bool) :
    (c.reset source pressed).Sound := by
  unfold Chip.reset
  cases hreset : c.atReset source with
  | none => exact h
  | some c' => exact sound_applicationJumpCheck (watchdog_atReset hreset) pressed

theorem Sound.task (h : c.Sound) (r : Option ControlRequest) : (c.task r).Sound := by
  unfold Chip.task
  cases hphase : c.phase with
  | stopped => exact h
  | application => exact h
  | loop tasks =>
    obtain ⟨hwdrf, hwatchdog⟩ := h.loop tasks hphase
    dsimp only
    split
    · exact h
    · split
      · exact sound_of_loop rfl hwdrf hwatchdog
      · split
        · exact sound_of_loop rfl hwdrf hwatchdog
        · split
          · exact sound_of_loop rfl hwdrf hwatchdog
          · exact sound_stop hwdrf

theorem Sound.setupHardware (h : c.Sound) : c.setupHardware.Sound := by
  unfold Chip.setupHardware
  cases hphase : c.phase with
  | stopped => exact h
  | loop tasks => exact h
  | application => exact sound_of_application rfl rfl

theorem Sound.overwrite (h : c.Sound) (ram : BitVec 16) : (c.overwrite ram).Sound := by
  unfold Chip.overwrite
  cases hphase : c.phase with
  | stopped => exact h
  | loop tasks => exact h
  | application => exact sound_of_application rfl (h.application hphase)

theorem Sound.step (h : c.Sound) (e : Event) : (c.step e).Sound := by
  cases e with
  | reset source pressed => exact h.reset source pressed
  | task r => exact h.task r
  | setupHardware => exact h.setupHardware
  | overwrite ram => exact h.overwrite ram

theorem sound_switchedOn (bytes : Nat → UInt8) (ram : BitVec 16) (pressed : Bool) :
    (switchedOn bytes ram pressed).Sound :=
  sound_applicationJumpCheck rfl pressed

theorem sound_run (bytes : Nat → UInt8) (ram : BitVec 16) (pressed : Bool) (es : List Event) :
    ((switchedOn bytes ram pressed).run es).Sound :=
  Calls.history (I := fun _ (c : Chip) => c.Sound) (sound_switchedOn bytes ram pressed)
    (fun _ _ e h => h.step e) es

/-! ## Which resets start the application -/

/-- The reset finds the key, and `WDRF` set. -/
def FindsKey (c : Chip) (source : ResetSource) : Prop :=
  c.phase = .stopped ∧ source = .watchdog ∨
    c.phase = .application ∧ c.magicBootKey = Bootloader.magicBootKey ∧ c.wdrf = true ∧
      (source = .watchdog ∨ source = .external)

theorem Sound.findsKey_iff (h : c.Sound) {source : ResetSource} {c' : Chip}
    (hreset : c.atReset source = some c') :
    c'.wdrf = true ∧ c'.magicBootKey = Bootloader.magicBootKey ↔ c.FindsKey source := by
  unfold FindsKey
  cases source with
  | powerOn ram =>
    obtain rfl := Option.some.inj hreset
    simp
  | external =>
    obtain rfl := Option.some.inj hreset
    cases hphase : c.phase with
    | loop n => simp [(h.loop n hphase).1]
    | stopped => simp [(h.stopped hphase).1]
    | application => simp [and_comm]
  | watchdog =>
    simp only [atReset] at hreset
    split at hreset
    · next hon =>
      obtain rfl := Option.some.inj hreset
      cases hphase : c.phase with
      | loop n => exact absurd (hon.symm.trans (h.loop n hphase).2) (by simp)
      | stopped => simp [(h.stopped hphase).2.2]
      | application => simp [(h.application hphase).symm.trans hon]
    · exact absurd hreset (by simp)

instance (c : Chip) (source : ResetSource) : Decidable (c.FindsKey source) :=
  inferInstanceAs (Decidable (_ ∨ _))

/--
**Which resets start the application.** Whatever has happened since the device was switched on, a
reset starts the application if it comes from the watchdog after the end of `main`, or, from the
watchdog or the pin, out of a firmware that has put the key into the RAM and has not yet set its
hardware up. Every other reset runs `main`: it waits for the host if the button is down, and stops
if it is up.
-/
theorem phase_of_reset (bytes : Nat → UInt8) (ram : BitVec 16) (pressed : Bool) (es : List Event)
    (source : ResetSource) (pressed' : Bool) :
    let c := (switchedOn bytes ram pressed).run es
    (c.reset source pressed').phase
      = if c.atReset source = none then c.phase
        else if c.FindsKey source then .application
        else if pressed' then .loop 0
        else .stopped := by
  intro c
  have hsound : c.Sound := sound_run bytes ram pressed es
  unfold Chip.reset
  cases hreset : c.atReset source with
  | none => rfl
  | some c' =>
    have hkey := hsound.findsKey_iff hreset
    simp only [reduceCtorEq, if_false]
    unfold applicationJumpCheck
    by_cases hfinds : c.FindsKey source
    · rw [if_pos hfinds, if_pos (hkey.mpr hfinds)]
    · rw [if_neg hfinds, if_neg fun h => hfinds (hkey.mp h)]
      cases pressed' <;> rfl

/-! ## What has changed the flash -/

theorem boot_applicationJumpCheck (c : Chip) (pressed : Bool) :
    (c.applicationJumpCheck pressed).boot = c.boot := by
  unfold applicationJumpCheck
  split
  · rfl
  · cases pressed <;> rfl

theorem boot_atReset {source : ResetSource} {c' : Chip} (h : c.atReset source = some c') :
    c'.boot = Bootloader.reset c.boot.memory.bytes := by
  cases source with
  | powerOn ram =>
    obtain rfl := Option.some.inj h
    rfl
  | external =>
    obtain rfl := Option.some.inj h
    rfl
  | watchdog =>
    simp only [atReset] at h
    split at h
    · obtain rfl := Option.some.inj h
      rfl
    · exact absurd h (by simp)

theorem boot_reset {source : ResetSource} (pressed : Bool) (h : c.atReset source ≠ none) :
    (c.reset source pressed).boot = Bootloader.reset c.boot.memory.bytes := by
  unfold Chip.reset
  cases hreset : c.atReset source with
  | none => exact absurd hreset h
  | some c' => exact (boot_applicationJumpCheck c' pressed).trans (boot_atReset hreset)

/-- A reset leaves the flash alone. -/
theorem bytes_reset (c : Chip) (source : ResetSource) (pressed : Bool) :
    (c.reset source pressed).boot.memory.bytes = c.boot.memory.bytes := by
  unfold Chip.reset
  cases hreset : c.atReset source with
  | none => rfl
  | some c' =>
    dsimp only
    rw [boot_applicationJumpCheck, boot_atReset hreset]
    rfl

/-- A task outside of the loop, or after one that has not returned, does nothing. -/
theorem task_eq_self (h : (∀ n, c.phase ≠ .loop n) ∨ c.boot.waiting = true)
    (r : Option ControlRequest) : c.task r = c := by
  unfold Chip.task
  split
  · next n hn =>
    rcases h with hphase | hwaiting
    · exact absurd hn (hphase n)
    · rw [if_pos hwaiting]
  · rfl
  · rfl

theorem boot_task {n : Nat} (hphase : c.phase = .loop n) (hwaiting : c.boot.waiting = false)
    (r : Option ControlRequest) : (c.task r).boot = usbTask r c.boot := by
  unfold Chip.task
  rw [hphase]
  dsimp only
  rw [if_neg (by rw [hwaiting]; exact Bool.false_ne_true)]
  split
  · rfl
  · split
    · rfl
    · split <;> rfl

/-- A task that changes a byte has handled a request that names the page of the byte. -/
theorem page_of_task {r : Option ControlRequest} {a : Nat}
    (h : (c.task r).boot.memory.bytes a ≠ c.boot.memory.bytes a) :
    ∃ r', r = some r' ∧ r'.page = some (a / spmPagesize) ∧ (∃ n, c.phase = .loop n) ∧
      c.boot.waiting = false := by
  have hloop : ∃ n, c.phase = .loop n := by
    by_contra hphase
    exact h (by rw [task_eq_self (.inl (not_exists.mp hphase))])
  have hwaiting : c.boot.waiting = false := by
    by_contra hwaiting
    exact h (by rw [task_eq_self (.inr (Bool.of_not_eq_false hwaiting))])
  obtain ⟨n, hn⟩ := hloop
  rw [boot_task hn hwaiting] at h
  cases r with
  | none => exact absurd rfl h
  | some r =>
    refine ⟨r, rfl, ?_, ⟨n, hn⟩, hwaiting⟩
    by_contra hpage
    exact h ((eventControlRequest_programs r c.boot).bytes a hpage)

theorem bytes_setupHardware (c : Chip) :
    c.setupHardware.boot.memory.bytes = c.boot.memory.bytes := by
  unfold Chip.setupHardware
  split <;> rfl

theorem bytes_overwrite (c : Chip) (ram : BitVec 16) :
    (c.overwrite ram).boot.memory.bytes = c.boot.memory.bytes := by
  unfold Chip.overwrite
  split <;> rfl

/-- The button was down when the device was switched on or at a reset. -/
def Held (pressed : Bool) (es : List Event) : Prop :=
  pressed = true ∨ ∃ source, .reset source true ∈ es

theorem Held.append {pressed : Bool} {l : List Event} (h : Held pressed l) (e : Event) :
    Held pressed (l ++ [e]) :=
  h.imp_right fun ⟨source, hmem⟩ => ⟨source, List.mem_append_left _ hmem⟩

theorem pressed_of_loop {n : Nat} {pressed : Bool}
    (h : (c.applicationJumpCheck pressed).phase = .loop n) : pressed = true := by
  unfold applicationJumpCheck at h
  split at h
  · exact absurd h (by simp)
  · cases pressed with
    | true => rfl
    | false => exact absurd h (by simp [main, stop])

theorem loop_of_task {r : Option ControlRequest} {n : Nat} (h : (c.task r).phase = .loop n) :
    ∃ m, c.phase = .loop m := by
  by_contra hphase
  rw [task_eq_self (.inl (not_exists.mp hphase))] at h
  exact hphase ⟨n, h⟩

/-- The loop of `main` is only entered with the button down. -/
theorem held_of_loop (bytes : Nat → UInt8) (ram : BitVec 16) (pressed : Bool) (es : List Event) :
    ∀ n, ((switchedOn bytes ram pressed).run es).phase = .loop n → Held pressed es := by
  refine Calls.history (I := fun l (c : Chip) => ∀ n, c.phase = .loop n → Held pressed l)
    (fun n hn => .inl (pressed_of_loop hn)) (fun l c e h n hn => ?_) es
  cases e with
  | reset source pressed' =>
    change (c.reset source pressed').phase = .loop n at hn
    unfold Chip.reset at hn
    cases hreset : c.atReset source with
    | none =>
      rw [hreset] at hn
      exact (h n hn).append _
    | some c' =>
      rw [hreset] at hn
      obtain rfl := pressed_of_loop hn
      exact .inr ⟨source, List.mem_append_right l List.mem_cons_self⟩
  | task r =>
    obtain ⟨m, hm⟩ := loop_of_task hn
    exact (h m hm).append _
  | setupHardware =>
    change c.setupHardware.phase = .loop n at hn
    refine (h n ?_).append _
    unfold Chip.setupHardware at hn
    split at hn
    · next happ => exact absurd (happ.symm.trans hn) (by simp)
    · exact hn
    · exact hn
  | overwrite ram' =>
    change (c.overwrite ram').phase = .loop n at hn
    refine (h n ?_).append _
    unfold Chip.overwrite at hn
    split at hn
    · next happ => exact absurd (happ.symm.trans hn) (by simp)
    · exact hn
    · exact hn

/--
**What has changed the flash.** If a byte of the flash is not what it was when the device was
switched on, a SetReport request that names its page has come while `main` was in its loop, after
the button had been down at a reset.
-/
theorem page_of_changed (bytes : Nat → UInt8) (ram : BitVec 16) (pressed : Bool) (es : List Event)
    {a : Nat} (h : ((switchedOn bytes ram pressed).run es).boot.memory.bytes a ≠ bytes a) :
    ∃ l r, l ++ [.task (some r)] <+: es ∧ r.page = some (a / spmPagesize) ∧
      (∃ n, ((switchedOn bytes ram pressed).run l).phase = .loop n) ∧
      ((switchedOn bytes ram pressed).run l).boot.waiting = false ∧ Held pressed l := by
  induction es using List.reverseRecOn with
  | nil =>
    refine absurd ?_ h
    show (switchedOn bytes ram pressed).boot.memory.bytes a = bytes a
    rw [switchedOn, boot_applicationJumpCheck]
    rfl
  | append_singleton es e ih =>
    rw [run_append] at h
    by_cases hbefore : ((switchedOn bytes ram pressed).run es).boot.memory.bytes a = bytes a
    · rw [← hbefore] at h
      cases e with
      | reset source pressed' => exact absurd (congrFun (bytes_reset _ source pressed') a) h
      | setupHardware => exact absurd (congrFun (bytes_setupHardware _) a) h
      | overwrite ram' => exact absurd (congrFun (bytes_overwrite _ ram') a) h
      | task r =>
        obtain ⟨r, rfl, hpage, ⟨n, hn⟩, hwaiting⟩ := page_of_task h
        exact ⟨es, r, List.prefix_rfl, hpage, ⟨n, hn⟩, hwaiting,
          held_of_loop bytes ram pressed es n hn⟩
    · obtain ⟨l, r, hl, hrest⟩ := ih hbefore
      exact ⟨l, r, hl.trans (List.prefix_append es [e]), hrest⟩

/-- The address of the first page, and no data. -/
def eraseFirstPage : ControlRequest where
  bmRequestType := 0x21
  bRequest := 0x09
  packets := [[0, 0]]
  emptyBank := 0

theorem page_of_changed_erased :
    let c := switchedOn (fun _ => 0x55) 0 true
    ∃ l r, l ++ [.task (some r)] <+: [.task (some eraseFirstPage)] ∧ r.page = some 0 ∧
      (∃ n, (c.run l).phase = .loop n) ∧ (c.run l).boot.waiting = false ∧ Held true l :=
  page_of_changed (fun _ => 0x55) 0 true [.task (some eraseFirstPage)] (a := 0) (by decide)

end Chip

end SphereWare.Bootloader
