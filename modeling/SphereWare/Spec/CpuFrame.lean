import SphereWare.Spec.MainFrame

/-!
# What leaves the processor alone

Most functions touch neither the interrupt flag nor anything else of the processor. Sending a
colour and waiting for a pad set the interrupt flag and leave the rest alone.
-/

namespace SphereWare

open Interrupt Prog

/-! ## Views of the processor -/

/-- The interrupt flag, the region main is in and how many handlers are active. -/
def cpuView (s : Firmware) : Bool × Option Region × Nat :=
  (s.cpu.iflag, s.cpu.region, s.cpu.isrDepth)

/-- The same without the interrupt flag. -/
def mainView (s : Firmware) : Option Region × Nat := (s.cpu.region, s.cpu.isrDepth)

theorem mainView_of_cpuView {s t : Firmware} (h : SameOn cpuView s t) : SameOn mainView s t :=
  congrArg Prod.snd h

theorem mainView_of_ledView {s t : Firmware} (h : SameOn ledView s t) : SameOn mainView s t := by
  simp only [SameOn, ledView, Prod.mk.injEq] at h
  obtain ⟨-, -, -, -, -, -, -, -, -, hregion, hdepth, -⟩ := h
  simp only [SameOn, mainView, hregion, hdepth]

theorem mainView_of_drawView {s t : Firmware} (h : SameOn drawView s t) : SameOn mainView s t := by
  have hdraw : drawView t = drawView s := h
  show mainView (drawView t) = mainView (drawView s)
  rw [hdraw]

theorem keeps_mainView {α : Type} {p : Code α} (h : p.Keeps (SameOn cpuView)) :
    p.Keeps (SameOn mainView) := Keeps.mono (fun _ _ => mainView_of_cpuView) h

/-! ## Ports and sensors -/

theorem read_keeps_cpu {α : Type} (f : Firmware → α) : (read f : Code α).Keeps (SameOn cpuView) :=
  Keeps.atomic fun _ _ => rfl

theorem padsAct_keeps_cpu (f : Pads → Pads) : (padsAct f).Keeps (SameOn cpuView) :=
  Keeps.act fun _ => rfl

theorem muxSelect_keeps_cpu (channel : Nat) : (muxSelect channel).Keeps (SameOn cpuView) :=
  Keeps.act fun _ => rfl

theorem buttonsAndDials_keeps_cpu (pad : Nat) (base : Option Nat) :
    (buttonsAndDials pad base).Keeps (SameOn cpuView) := Keeps.atomic fun _ _ => rfl

/-! ## Calibration -/

theorem mainView_calibrates : Calibrates (SameOn mainView) where
  iflag _ _ := rfl
  mux _ _ := rfl
  r2r _ _ := rfl
  adc _ _ := rfl
  order _ _ _ := rfl
  threshold _ _ := rfl
  filtered _ _ := rfl
  thresholdSe _ _ := rfl

theorem calibrate_keeps_main : calibrate.Keeps (SameOn mainView) :=
  mainView_calibrates.calibrate_keeps
    (calibrateReset_keeps (genericHIDClear_keeps fun _ _ _ _ => rfl) fun _ _ => rfl)

/-! ## The LED -/

theorem ledSetColour_keeps_main (r g b : Nat) : (ledSetColour r g b).Keeps (SameOn mainView) :=
  Keeps.mono (fun _ _ => mainView_of_ledView) (ledSetColour_keeps r g b)

theorem baseColour_keeps_main (old : Colour) : (baseColour old).Keeps (SameOn mainView) :=
  Keeps.mono (fun _ _ => mainView_of_drawView) (baseColour_keeps old)

/-! ## The handler -/

theorem midiRecieveUsbMidi_keeps_cpu : midiRecieveUsbMidi.Keeps (SameOn cpuView) := by
  refine Keeps.bind (Keeps.act fun _ => rfl) fun _ => ?_
  refine Keeps.bind (Keeps.atomic fun _ _ => rfl) fun _ => ?_
  refine Keeps.when (Keeps.bind (Keeps.atomic fun _ _ => rfl) fun d => ?_)
  refine Keeps.bind ?_ fun _ => ?_
  · iterate 3 refine Keeps.bind (Keeps.atomic fun _ _ => rfl) fun _ => ?_
    refine Keeps.bind (Keeps.act fun _ => rfl) fun _ => ?_
    refine Keeps.bind (Keeps.act fun s => ?_) fun _ => Keeps.act fun _ => rfl
    exact midiClock_same (fun _ _ _ => rfl) _ s
  · exact Keeps.bind (Keeps.atomic fun _ _ => rfl) fun _ => Keeps.when (Keeps.act fun _ => rfl)

theorem genericHIDTaskIn_keeps_cpu : genericHIDTaskIn.Keeps (SameOn cpuView) := by
  refine Keeps.bind (Keeps.act fun _ => rfl) fun _ => ?_
  refine Keeps.bind (Keeps.atomic fun _ _ => rfl) fun _ => ?_
  refine Keeps.when (Keeps.bind (Keeps.atomic fun _ _ => rfl) fun _ => ?_)
  exact Keeps.bind (Keeps.act fun _ => rfl) fun _ => Keeps.act fun _ => rfl

theorem usbUSBTask_keeps_cpu : usbUSBTask.Keeps (SameOn cpuView) := by
  unfold usbUSBTask
  refine Keeps.atomic fun i s => ?_
  dsimp only
  split <;> rfl

end SphereWare
