import Mathlib.Data.List.ReduceOption
import SphereWare.Properties.Resets
import SphereWare.Properties.Update

/-!
# An update, and the application after it

The sessions of the loader in the life of the device: resets at any time, sessions that break off,
and at last one that does not. It ends with the new application running.
-/

namespace SphereWare.Update

open Flash Bootloader Loader

/-! ## Attempts -/

variable {image : Nat → Option UInt8} {c : Chip}

theorem brokenOff_task (h : ∀ r', r = some r' → ∃ r₀ k, SessionRequest image r₀ ∧
    r' = firstPackets r₀ k) (c : Chip) :
    BrokenOff image c.boot.memory.bytes (c.task r).boot.memory.bytes := by
  by_cases hloop : ∃ n, c.phase = .loop n
  · obtain ⟨n, hn⟩ := hloop
    cases hwaiting : c.boot.waiting with
    | true =>
      rw [Chip.task_eq_self (.inr hwaiting)]
      exact BrokenOff.refl image _
    | false =>
      rw [Chip.boot_task hn hwaiting]
      cases r with
      | none => exact BrokenOff.refl image _
      | some r' =>
        obtain ⟨r₀, k, hr₀, rfl⟩ := h r' rfl
        exact hr₀.brokenOff k c.boot
  · rw [Chip.task_eq_self (.inl (not_exists.mp hloop))]
    exact BrokenOff.refl image _

/-- Over any events whose requests are of a session of the image, whole or not. -/
theorem brokenOff_run {es : List Event}
    (h : ∀ r', .task (some r') ∈ es → ∃ r₀ k, SessionRequest image r₀ ∧ r' = firstPackets r₀ k)
    (c : Chip) : BrokenOff image c.boot.memory.bytes (c.run es).boot.memory.bytes := by
  induction es generalizing c with
  | nil => exact BrokenOff.refl image _
  | cons e es ih =>
    have hrest := ih (fun r' hr' => h r' (List.mem_cons_of_mem e hr')) (c.step e)
    refine BrokenOff.trans ?_ hrest
    cases e with
    | reset source pressed =>
      rw [Chip.step, Chip.bytes_reset]
      exact BrokenOff.refl image _
    | task r => exact brokenOff_task (fun r' hr' => h r' (hr' ▸ List.mem_cons_self)) c
    | setupHardware =>
      rw [Chip.step, Chip.bytes_setupHardware]
      exact BrokenOff.refl image _
    | overwrite ram =>
      rw [Chip.step, Chip.bytes_overwrite]
      exact BrokenOff.refl image _

/-! ## The tasks of a session -/

/-- Requests one after another, with idle tasks between them. -/
def tasks (ts : List (Option ControlRequest)) : List Event := ts.map .task

theorem run_tasks_cons (c : Chip) (r : Option ControlRequest) (ts : List (Option ControlRequest)) :
    c.run (tasks (r :: ts)) = (c.task r).run (tasks ts) := rfl

theorem run_tasks_append (c : Chip) (ts ts' : List (Option ControlRequest)) :
    c.run (tasks (ts ++ ts')) = (c.run (tasks ts)).run (tasks ts') := by
  rw [tasks, List.map_append, Chip.run_append]
  rfl

/-- `main` is in its loop, and neither waits nor has been told to start the application. -/
structure Ready (c : Chip) : Prop where
  phase : ∃ n < Chip.tasksPerTurn, c.phase = .loop n
  waiting : c.boot.waiting = false
  runBootloader : c.boot.runBootloader = true

theorem Ready.task (h : Ready c) {r : Option ControlRequest}
    (hwaiting : (usbTask r c.boot).waiting = false)
    (hrun : (usbTask r c.boot).runBootloader = true) :
    Ready (c.task r) ∧ (c.task r).boot = usbTask r c.boot := by
  obtain ⟨n, hn, hphase⟩ := h.phase
  have hboot := Chip.boot_task hphase h.waiting r
  refine ⟨⟨?_, hboot ▸ hwaiting, hboot ▸ hrun⟩, hboot⟩
  unfold Chip.task
  rw [hphase]
  dsimp only
  rw [if_neg (by rw [h.waiting]; exact Bool.false_ne_true),
    if_neg (by rw [hwaiting]; exact Bool.false_ne_true)]
  split
  · next hlt => exact ⟨n + 1, hlt, rfl⟩
  · exact ⟨0, by decide, rfl⟩

/-- The tasks of a session are its requests. -/
theorem Ready.run (h : Ready c) {ts : List (Option ControlRequest)}
    (hkeeps : ∀ l, l <+: ts.reduceOption → (handleAll c.boot l).waiting = false ∧
      (handleAll c.boot l).runBootloader = true) :
    Ready (c.run (tasks ts)) ∧
      (c.run (tasks ts)).boot = handleAll c.boot (ts.reduceOption) := by
  induction ts generalizing c with
  | nil => exact ⟨h, rfl⟩
  | cons r ts ih =>
    cases r with
    | none =>
      obtain ⟨hready, hboot⟩ := h.task (r := none) h.waiting h.runBootloader
      have hnext := ih hready (by rw [hboot]; exact hkeeps)
      rw [hboot] at hnext
      exact hnext
    | some r =>
      have hcons (l : List ControlRequest) :
          handleAll c.boot (r :: l) = handleAll (eventControlRequest r c.boot) l := by
        rw [handleAll, if_neg (by rw [h.waiting]; exact Bool.false_ne_true)]
      rw [List.reduceOption_cons_of_some] at hkeeps ⊢
      have hfirst := hkeeps [r] ((List.prefix_cons_inj r).mpr List.nil_prefix)
      rw [hcons] at hfirst
      obtain ⟨hready, hboot⟩ := h.task (r := some r) hfirst.1 hfirst.2
      have hnext := ih hready fun l hl => by
        rw [hboot]
        exact hcons l ▸ hkeeps (r :: l) ((List.prefix_cons_inj r).mpr hl)
      rw [hboot] at hnext
      rw [hcons]
      exact hnext

/-! ## The end of the session -/

/-- `main` has been told to start the application, and stops within `k` more tasks. -/
def Stops (b : Boot) (k : Nat) (c : Chip) : Prop :=
  c.boot = b ∧ (c = c.stop ∨ ∃ n < Chip.tasksPerTurn, c.phase = .loop n ∧ Chip.tasksPerTurn ≤ n + k)

theorem stops_task {n k : Nat} (hphase : c.phase = .loop n) (hk : Chip.tasksPerTurn ≤ n + 1 + k)
    (hwaiting : c.boot.waiting = false) {r : Option ControlRequest} {b : Boot}
    (hb : usbTask r c.boot = b) (hwaiting' : b.waiting = false) (hrun : b.runBootloader = false) :
    Stops b k (c.task r) := by
  refine ⟨(Chip.boot_task hphase hwaiting r).trans hb, ?_⟩
  unfold Chip.task
  rw [hphase]
  dsimp only
  rw [if_neg (by rw [hwaiting]; exact Bool.false_ne_true), hb,
    if_neg (by rw [hwaiting']; exact Bool.false_ne_true)]
  split
  · next hlt => exact .inr ⟨n + 1, hlt, rfl, hk⟩
  · rw [if_neg (by rw [hrun]; exact Bool.false_ne_true)]
    exact .inl rfl

theorem Stops.run_idle {b : Boot} {k : Nat} (hwaiting : b.waiting = false)
    (hrun : b.runBootloader = false) (j : Nat) (h : Stops b k c) (hj : k ≤ j) :
    c.run (tasks (List.replicate j none)) = (c.run (tasks (List.replicate j none))).stop ∧
      (c.run (tasks (List.replicate j none))).boot = b := by
  induction j generalizing c k with
  | zero =>
    obtain ⟨hboot, hstopped | ⟨n, hn, -, hk⟩⟩ := h
    · exact ⟨hstopped, hboot⟩
    · omega
  | succ j ih =>
    obtain ⟨hboot, hstopped | ⟨n, hn, hphase, hk⟩⟩ := h
    · have hidle : c.task none = c := by
        refine Chip.task_eq_self (.inl fun n hn => ?_) none
        rw [hstopped] at hn
        exact absurd hn (by simp [Chip.stop])
      have hagain : Stops b 0 (c.task none) := by
        rw [hidle]
        exact ⟨hboot, .inl hstopped⟩
      exact ih hagain (Nat.zero_le j)
    · have hnext : Stops b (k - 1) (c.task none) :=
        stops_task hphase (by omega) (hboot ▸ hwaiting) hboot hwaiting hrun
      exact ih hnext (by omega)

/-- The watchdog starts the application once `main` has ended. -/
theorem reset_watchdog (h : c = c.stop) (pressed : Bool) :
    (c.reset .watchdog pressed).phase = .application := by
  rw [h]
  rfl

/-! ## The session in tasks -/

theorem handleAll_of_waiting {b : Boot} (h : b.waiting = true) (l : List ControlRequest) :
    handleAll b l = b := by
  cases l with
  | nil => rfl
  | cons r l => rw [handleAll, if_pos h]

theorem handleAll_append (b : Boot) (l l' : List ControlRequest) :
    handleAll b (l ++ l') = handleAll (handleAll b l) l' := by
  induction l generalizing b with
  | nil => rfl
  | cons r l ih =>
    rw [List.cons_append, handleAll, handleAll]
    split
    · next hwaiting => exact (handleAll_of_waiting hwaiting l').symm
    · exact ih _

variable {s : Statics} {o : Options} {size : Nat} (emptyBank : UInt8)

/-- The pages leave `main` in its loop. -/
theorem handleAll_pages_ready (ho : ForDevice o) (hsize : 2 ∣ size) {b : Boot}
    (hwaiting : b.waiting = false) (hrun : b.runBootloader = true) {l : List ControlRequest}
    (hl : l <+: (pagesSent s o).map fun addr => request size emptyBank (pageReport s o addr)) :
    (handleAll b l).waiting = false ∧ (handleAll b l).runBootloader = true := by
  obtain ⟨k, rfl⟩ : ∃ k, l = ((pagesSent s o).take k).map
      fun addr => request size emptyBank (pageReport s o addr) :=
    ⟨l.length, by rw [List.map_take]; exact List.prefix_iff_eq_take.mp hl⟩
  obtain ⟨m, hpages, -⟩ := handleAll_pages (· / spmPagesize)
    (fun addr haddr => pageRequest emptyBank ho hsize (List.mem_of_mem_take haddr)) [] hwaiting
  rw [List.append_nil] at hpages
  rw [hpages]
  exact ⟨hwaiting, hrun⟩

/-- A session from the start of the loop to the end of `main`. -/
theorem run_session (ho : ForDevice o) (hreboot : o.rebootAfterProgramming = true)
    (hsize : 2 ∣ size) (hready : Ready c) {ts : List (Option ControlRequest)}
    (hts : ts.reduceOption = sessionRequests size emptyBank s o) :
    c.run (tasks (ts ++ List.replicate Chip.tasksPerTurn none))
        = (c.run (tasks (ts ++ List.replicate Chip.tasksPerTurn none))).stop ∧
      (c.run (tasks (ts ++ List.replicate Chip.tasksPerTurn none))).boot
        = handleAll c.boot (sessionRequests size emptyBank s o) := by
  rw [sessionRequests_eq, if_pos hreboot] at hts ⊢
  rw [← List.concat_eq_append, List.reduceOption_eq_concat_iff] at hts
  obtain ⟨ts₁, ts₂, rfl, hpages, hidle⟩ := hts
  obtain ⟨j, rfl⟩ := (List.reduceOption_eq_nil_iff ts₂).mp hidle
  -- the pages
  obtain ⟨hsent, hboot⟩ : Ready (c.run (tasks ts₁)) ∧ _ := hready.run fun l hl =>
    handleAll_pages_ready emptyBank ho hsize hready.waiting hready.runBootloader (hpages ▸ hl)
  rw [hpages] at hboot
  -- the request that starts the application
  obtain ⟨n, -, hphase⟩ := hsent.phase
  obtain ⟨b, hlast, hwaiting, hquit⟩ : ∃ b, eventControlRequest
      (request size emptyBank (rebootReport o)) (c.run (tasks ts₁)).boot = b ∧
      b.waiting = false ∧ b.runBootloader = false :=
    ⟨_, (startRequest emptyBank ho hsize).handled _, hsent.waiting, rfl⟩
  have hstops : Stops b Chip.tasksPerTurn
      ((c.run (tasks ts₁)).task (some (request size emptyBank (rebootReport o)))) :=
    stops_task hphase (Nat.le_add_left _ _) hsent.waiting hlast hwaiting hquit
  -- the rest of the turn
  have hstopped := hstops.run_idle hwaiting hquit (j + Chip.tasksPerTurn) (Nat.le_add_left _ _)
  have hrun : c.run (tasks (ts₁ ++ some (request size emptyBank (rebootReport o)) ::
      List.replicate j none ++ List.replicate Chip.tasksPerTurn none))
      = ((c.run (tasks ts₁)).task (some (request size emptyBank (rebootReport o)))).run
        (tasks (List.replicate (j + Chip.tasksPerTurn) none)) := by
    rw [List.append_assoc, List.cons_append, List.replicate_append_replicate, run_tasks_append,
      run_tasks_cons]
  rw [hrun]
  refine ⟨hstopped.1, hstopped.2.trans ?_⟩
  rw [handleAll_append, ← hboot, handleAll,
    if_neg (by rw [hsent.waiting]; exact Bool.false_ne_true), hlast]
  rfl

/--
**An update, and the application after it.** The session is one for the device of the makefile, with
an image that has no byte in the bootloader section, of a loader that has not been told to leave the
bootloader running (`-n`). Let anything happen to the device that brings no other requests than
those of the session, in any order, each of them whole or broken off: resets at any time, with the
button down or up, the application running or not. Then let `main` come to its loop by a reset, and
the session be carried out. `main` ends, the watchdog starts the application whether the button is
down or not, and the flash is what the session makes of the one the device was switched on with; the
bootloader section is as it was.
-/
theorem application_after_update (ho : ForDevice o) (hreboot : o.rebootAfterProgramming = true)
    (hbelow : BelowBootloader (imageOf s)) (hsize : 2 ∣ size) (bytes : Nat → UInt8)
    (ram : BitVec 16) (pressed : Bool) {es : List Event}
    (hes : ∀ r', .task (some r') ∈ es → ∃ r k, r ∈ sessionRequests size emptyBank s o ∧
      r' = firstPackets r k)
    {source : ResetSource}
    (hreset : ((Chip.switchedOn bytes ram pressed).run es).atReset source ≠ none)
    (hloop : (((Chip.switchedOn bytes ram pressed).run es).reset source true).phase = .loop 0)
    {ts : List (Option ControlRequest)}
    (hts : ts.reduceOption = sessionRequests size emptyBank s o) (pressed' : Bool) :
    let c := ((((Chip.switchedOn bytes ram pressed).run es).reset source true).run
      (tasks (ts ++ List.replicate Chip.tasksPerTurn none))).reset .watchdog pressed'
    c.phase = .application ∧ Updated (imageOf s) bytes c.boot.memory.bytes ∧
      ∀ a, bootStartOffset ≤ a → c.boot.memory.bytes a = bytes a := by
  intro c
  have hbroken := brokenOff_run (fun r' hr' => by
    obtain ⟨r, k, hr, hr'⟩ := hes r' hr'
    exact ⟨r, k, sessionRequest_of_mem emptyBank ho hsize hr, hr'⟩)
    (Chip.switchedOn bytes ram pressed)
  rw [show (Chip.switchedOn bytes ram pressed).boot = reset bytes from
    Chip.boot_applicationJumpCheck _ pressed] at hbroken
  have hbytes := Chip.bytes_reset ((Chip.switchedOn bytes ram pressed).run es) source true
  have hstart := Chip.boot_reset true hreset
  have hready : Ready (((Chip.switchedOn bytes ram pressed).run es).reset source true) :=
    ⟨⟨0, by decide, hloop⟩, by rw [hstart]; rfl, by rw [hstart]; rfl⟩
  obtain ⟨hstopped, hboot⟩ := run_session emptyBank ho hreboot hsize hready hts
  have hsession := (handleAll_session emptyBank ho hbelow hsize hready.waiting).1
  rw [← hboot, hbytes] at hsession
  have hupdated : Updated (imageOf s) bytes c.boot.memory.bytes := by
    rw [show c.boot.memory.bytes = _ from Chip.bytes_reset _ .watchdog pressed']
    exact hbroken.updated hsession
  exact ⟨reset_watchdog hstopped pressed', hupdated, fun a ha => hupdated.own hbelow ha⟩

/-- Two packets of the page with the byte, a power-on, and the session without a pause. -/
theorem application_after_update_byte :
    let c := Chip.switchedOn (fun _ => 0x55) 0 true
    let c' := (((c.run [.task (some (firstPackets byteRequest 2))]).reset (.powerOn 0) true).run
      (tasks ((sessionRequests 8 0 oneByte atmega32u4).map some ++
        List.replicate Chip.tasksPerTurn none))).reset .watchdog true
    c'.phase = .application ∧ c'.boot.memory.bytes 256 = 0x41 := by
  have hts : ((sessionRequests 8 0 oneByte atmega32u4).map some).reduceOption
      = sessionRequests 8 0 oneByte atmega32u4 := by
    rw [List.reduceOption, List.filterMap_map, Function.id_comp, List.filterMap_some]
  generalize (sessionRequests 8 0 oneByte atmega32u4).map some = ts at hts ⊢
  have hes (r' : ControlRequest)
      (hr' : Event.task (some r') ∈ [Event.task (some (firstPackets byteRequest 2))]) :
      ∃ r k, r ∈ sessionRequests 8 0 oneByte atmega32u4 ∧ r' = firstPackets r k := by
    have hpackets := List.mem_singleton.mp hr'
    exact ⟨_, 2, byteRequest_mem, by simpa using hpackets⟩
  generalize [Event.task (some (firstPackets byteRequest 2))] = es at hes ⊢
  obtain ⟨hphase, hupdated, -⟩ := application_after_update 0 ⟨rfl, rfl⟩ rfl belowBootloader_oneByte
    (by decide) (fun _ => 0x55) 0 true hes
    (show Chip.atReset _ (.powerOn 0) ≠ none from Option.some_ne_none _) rfl hts true
  have hbyte := hupdated.touched 256 (.inr ⟨256, rfl, by rw [imageOf_oneByte]; rfl⟩)
  rw [imageOf_oneByte, Option.getD_some] at hbyte
  exact ⟨hphase, hbyte⟩

end SphereWare.Update
