import SphereWare.Interrupt.Tally
import SphereWare.Properties.Touch
import SphereWare.Spec.PadWrites

/-!
# Snapshots

From the converter to the bus: in every run of main the packets the host receives are snapshots of
the touch machines, one after the other (`snapshots_of_run`). Pad 31, with a byte in each half, is
not in any one packet.

A recalibration by the reset button clears the report byte by byte with interrupts on. A packet sent
then may show pads that were never in that state, so the packets are those of a part of the run
without one. What happened before does not matter.
-/

namespace SphereWare

open Interrupt Prog Snapshot

/-! ## The trace of the machines -/

/-- The states of all machines in turn, from `g` on, each after one iteration more. -/
def touchTrace (g : Nat → Option Touch) : List Outcome → List (Nat → Option Touch)
  | [] => [g]
  | o :: os => g :: touchTrace (fun p => touchStep p (g p) o) os

/-- The pads in the report, by the states of their machines. -/
def touchEntries (g : Nat → Option Touch) : PadEntries := fun p => touchEntry (g p)

/-- The state at the end, and what one more iteration adds. -/
theorem exists_touchTrace (g : Nat → Option Touch) (os : List Outcome) :
    ∃ pre, touchTrace g os = pre ++ [fun p => os.foldl (touchStep p) (g p)] ∧
      ∀ o, touchTrace g (os ++ [o]) = pre ++ [fun p => os.foldl (touchStep p) (g p),
        fun p => touchStep p (os.foldl (touchStep p) (g p)) o] := by
  induction os generalizing g with
  | nil => exact ⟨[], rfl, fun _ => rfl⟩
  | cons o os ih =>
    obtain ⟨pre, hend, hmore⟩ := ih fun p => touchStep p (g p) o
    refine ⟨g :: pre, ?_, fun o' => ?_⟩
    · rw [touchTrace, hend]
      rfl
    · rw [List.cons_append, touchTrace, hmore o']
      rfl

/-! ## Runs -/

variable {os : List Outcome} {i : Nat} {s t u : Firmware}

/-- The report shows the machines. -/
theorem ScanRun.padEntries_eq (h : ScanRun avr os i s) :
    padEntries s = touchEntries fun p => touchAfter p os :=
  funext fun p => (entries_eq_entry s p.isLt).symm.trans (h.touch p.isLt).entry

/-- **The step lemma.** An iteration without a recalibration is seen before and after its write. -/
theorem sent_scanPad {o : Outcome} {sched : Sched Input}
    (hrun : (scanPad i).run avr sched s = some (o, t)) :
    Turning s t ∧ (o.recalibrated = none → Changing s t) := by
  obtain ⟨sched₁, sched', pad, s', hread, hrun, -⟩ := run_bind_split sched _ _ _ hrun
  obtain ⟨sched₂, sched₃, codes, u, hreset, hrest, -⟩ := run_bind_split sched' _ _ _ hrun
  have hs' : Sending s s' := wp_run sending_sound (wp_quiet (read_quiet _) s) hread
  have hturning : Turning s' u :=
    wp_run sending_sound (wp_turning resetButton_turning s') hreset
  have hu : codes = none → Sending s' u := wp_run sending_sound (resetButton_sending s') hreset
  have hend : o.recalibrated = codes ∧ Changing u t := by
    refine wp_run (Q := fun o t => o.recalibrated = codes ∧ Changing u t) sending_sound
      (wp_bind.mpr (wp_mono (fun r w hw => ?_) (scanRest_once i pad u))) hrest
    exact fun x hx => ⟨trivial, rfl, hw.trans_sending (hx.rel_of_refl Sending.refl)⟩
  obtain ⟨rfl, ht⟩ := hend
  refine ⟨fun hs => (ht (hturning (hs'.turning hs))).1, fun hnone => ?_⟩
  exact (hs'.trans (hu hnone)).trans_changing ht

/-- The halves stay in turn through recalibrations too. -/
theorem turning_of_loopRun {os' : List Outcome} {j : Nat} (h : LoopRun avr i s os' j t) :
    Turning s t := by
  induction h with
  | refl => exact id
  | step _ hstep ih =>
    intro hs
    cases hstep with
    | pad sched hi hrun => exact (sent_scanPad hrun).1 (ih hs)
    | pass sched hrun => exact (wp_run sending_sound (wp_quiet endPass_quiet _) hrun (ih hs)).1

/-- **The run lemma.** What is sent while main goes on is what is seen of the trace. -/
theorem ScanRun.sent {os' : List Outcome} {j : Nat} (h : ScanRun avr os i s) (hs : InTurn s)
    (h' : LoopRun avr i s os' j t) (hnone : ∀ o ∈ os', o.recalibrated = none) :
    Sent ((touchTrace (fun p => touchAfter p os) os').map touchEntries) s t := by
  induction h' with
  | refl => exact Sent.none rfl _
  | @step os' j j' u t o h' hstep ih =>
    have hsent := ih fun o ho => hnone o (List.mem_append_left _ ho)
    have hturn := turning_of_loopRun h' hs
    have hbefore := (h.append h').padEntries_eq
    have hafter := (h.append (h'.step hstep)).padEntries_eq
    obtain ⟨pre, hlast, hmore⟩ := exists_touchTrace (fun p => touchAfter p os) os'
    simp only [touchAfter_append] at hbefore hafter
    rw [hlast, List.map_append] at hsent
    cases hstep with
    | @pad _ _ _ o sched hi hrun =>
      obtain ⟨-, hsent'⟩ := (sent_scanPad hrun).2 (hnone o (by simp)) hturn
      simp only [Option.toList_some, List.foldl_append, List.foldl_cons, List.foldl_nil] at hafter
      rw [hbefore, hafter] at hsent'
      rw [Option.toList_some, hmore o, List.map_append]
      exact hsent.glue hsent'
    | pass sched hrun =>
      obtain ⟨-, -, hsent'⟩ := wp_run sending_sound (wp_quiet endPass_quiet u) hrun hturn
      rw [hbefore] at hsent'
      rw [Option.toList_none, List.append_nil, hlast, List.map_append]
      exact hsent.glue hsent'

theorem padEntries_powerOn : padEntries powerOn = fun _ => (0, 0) := by
  funext p
  show decodePad (if 1 + p.val * 2 = 0 then 1 else 0) (if 2 + p.val * 2 = 0 then 1 else 0) = (0, 0)
  rw [if_neg (by omega), if_neg (by omega)]
  rfl

/--
**The packets are snapshots.** Take any part of a run of main from power-on in which the reset
button does not recalibrate, with ticks and ticks within ticks anywhere and whatever the host does.
The packets sent in it are in order what an observer sees who follows the touch machines through
that part: each packet shows all pads it holds as they are at one moment, between two steps of the
machines, and no packet shows an earlier moment than the one before it.
-/
theorem snapshots_of_run {sched : Sched Input} {codes : Nat → Nat} {s₀ : Firmware}
    {os' : List Outcome} {j : Nat} (hstart : startUp.run avr sched powerOn = some (codes, s₀))
    (h : LoopRun avr 0 s₀ os i s) (h' : LoopRun avr i s os' j t)
    (hnone : ∀ o ∈ os', o.recalibrated = none) :
    ∃ packets, t.numbered = s.numbered ++ packets ∧
      Seen (fun g pkt => ∀ p : Fin 40, Packet.Holds pkt p → Packet.entry pkt p = touchEntry (g p))
        (touchTrace (fun p => touchAfter p os) os') packets := by
  have hrest := wp_run sending_sound (startUp_startsAtRest powerOn) hstart
  obtain ⟨hturn₀, -⟩ := hrest ⟨⟨by decide, rfl⟩, padEntries_powerOn⟩
  have hscan : ScanRun avr [] 0 s₀ := .start sched hstart
  have hturn := turning_of_loopRun h hturn₀
  obtain ⟨packets, hpackets, hseen⟩ := (hscan.append h).sent hturn h' hnone
  exact ⟨packets, hpackets, hseen.of_map⟩

/-! ### A packet -/

/-- A tick in which the host configures the device and takes a packet. -/
def hostTick : Input :=
  { Input.quiet with tick := { TickInput.ready with usbEvent := some .setConfiguration } }

/-- An iteration and ticks at its end. -/
theorem iteration_ticks {i : Nat} (hi : i < numPads) (env : Firmware → Input) (tick : Input)
    (n : Nat) (s : Firmware)
    (hen : ∀ k < n, avr.enabled (afterIrqs avr (fun _ => tick) k (iteration i env s).2) = true) :
    LoopStep avr i s (some (iteration i env s).1) (i + 1)
      (afterIrqs avr (fun _ => tick) n (iteration i env s).2) := by
  have hend := run_irqs avr (fun _ => tick) (fun _ => rfl) n (fun _ => .stop)
    (Prog.ret (iteration i env s).1) (iteration i env s).2 hen
  have hrun := run_steadyThen avr env (fun _ => rfl)
    (fun t => irqs avr (fun _ => tick) n (fun _ => .stop) t) (scanPad i) s
  exact .pad _ hi (hrun.trans hend)

/-- The first pad is struck, and two ticks follow. -/
def struckTicks : Firmware := afterIrqs avr (fun _ => hostTick) 2 struck.2

theorem struckTicks_step : LoopStep avr 0 booted.2 (some struck.1) 1 struckTicks := by
  refine iteration_ticks (by decide) _ hostTick 2 booted.2 ?_
  decide +kernel

theorem struck_recalibrated : struck.1.recalibrated = none := by decide +kernel

theorem booted_start : startUp.run avr (startUp.steady (fun _ => Input.quiet) powerOn) powerOn
    = some (booted.1, booted.2) :=
  run_steady_mk avr (fun _ => Input.quiet) (fun _ => rfl) startUp powerOn

theorem snapshots_of_run_struck : struckTicks.usb.packets.length = 1 ∧
    ∃ packets, struckTicks.numbered = booted.2.numbered ++ packets ∧
      Seen (fun g pkt => ∀ p : Fin 40, Packet.Holds pkt p → Packet.entry pkt p = touchEntry (g p))
        (touchTrace (fun p => touchAfter p []) [struck.1]) packets :=
  ⟨by decide +kernel,
    snapshots_of_run booted_start .refl (LoopRun.refl.step struckTicks_step)
      (by simpa using struck_recalibrated)⟩

end SphereWare
