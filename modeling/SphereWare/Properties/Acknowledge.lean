import SphereWare.Spec.HidRun
import SphereWare.Spec.OutReport

/-!
# Acknowledging reports

`Endpoint_ClearOUT` acts on the endpoint that is selected. A MIDI message in a report makes
`MIDI_Send_Usb_Midi` select the MIDI IN endpoint and nobody selects the HID OUT endpoint again, so
the acknowledgement of such a report goes to the wrong endpoint. All other reports are
acknowledged on their own.
-/

namespace SphereWare

open Interrupt Prog

/-! ## The selected endpoint during a report -/

/-- The device state, the selected endpoint and the banks freed so far. -/
def selectView (s : Firmware) : DeviceState × Endpoint × List Endpoint :=
  (s.usb.deviceState, s.usb.selected, s.usb.released)

theorem selectView_of_messageView {s t : Firmware} (h : SameOn messageView s t) :
    SameOn selectView s t := by
  simp only [SameOn, messageView, Prod.mk.injEq] at h
  obtain ⟨-, -, -, -, hstate, hselected, -, hops, -⟩ := h
  rw [SameOn, selectView, selectView, hstate, hselected, Usb.released, Usb.released, hops]

theorem keeps_selectView {α : Type} {p : Code α} (h : p.Keeps (SameOn messageView)) :
    p.Keeps (SameOn selectView) := Keeps.mono (fun _ _ => selectView_of_messageView) h

/-- On a configured device the MIDI IN endpoint stays selected. -/
theorem midiSendUsbMidi_select (b1 b2 b3 : UInt8) (sel : Endpoint) (rel : List Endpoint) :
    Spec avr selectView (.configured, sel, rel) (midiSendUsbMidi b1 b2 b3) fun _ w =>
      w = (.configured, .midiIn, rel) := by
  refine Spec.read_bind .configured (fun t ht => congrArg Prod.fst ht) ?_
  refine Spec.when (fun _ => ?_) fun h => absurd rfl h
  refine Spec.act_bind (.configured, .midiIn, rel) (fun t ht => ?_) ?_
  · simp only [selectView, Prod.mk.injEq] at ht ⊢
    exact ⟨ht.1, rfl, ht.2.2⟩
  · refine Spec.when (fun _ => ?_) fun _ => rfl
    refine Spec.keeps (Keeps.bind (Keeps.atomic fun _ _ => rfl) fun _ => Keeps.bind
      (Keeps.when (Keeps.act fun t => ?_)) fun _ => Keeps.act fun t => ?_) fun _ => rfl
    · simp [SameOn, selectView, Usb.write, Usb.released, EndpointOp.cleared]
    · simp [SameOn, selectView, Usb.clearIN, Usb.released, EndpointOp.cleared]

/-- What message `i` does to the selection. -/
def selectStep (d : RxBuffer) (w : DeviceState × Endpoint × List Endpoint) (i : Nat) :
    DeviceState × Endpoint × List Endpoint :=
  if d.get (i * 4 + 2) = 0 then (w.1, .midiIn, w.2.2) else w

theorem processMessage_select (d : RxBuffer) (i : Nat) (sel : Endpoint) (rel : List Endpoint) :
    Spec avr selectView (.configured, sel, rel) (processMessage d i) fun _ w =>
      w = selectStep d (.configured, sel, rel) i := by
  have hread {q : UInt8 → Code Unit} {n : Nat} {Q : Unit → _ → Prop}
      (h : Spec avr selectView (.configured, sel, rel) (q (d.get n)) Q) :
      Spec avr selectView (.configured, sel, rel) ((readData d n).bind q) Q :=
    spec_readData_bind _ (fun _ ht => ht) h
  refine hread ?_
  rw [selectStep]
  by_cases hkind : d.get (i * 4 + 2) = 0
  · rw [if_pos hkind, if_pos hkind]
    refine hread (hread (hread (Spec.bind (midiSendUsbMidi_select _ _ _ sel rel) ?_)))
    rintro _ w rfl
    exact Spec.keeps (Keeps.act fun _ => rfl) fun _ => rfl
  · rw [if_neg hkind, if_neg hkind]
    exact Spec.keeps (keeps_selectView (otherMessage_keeps _ _ _)) fun _ => rfl

/-- The report is one of the known kind and contains a MIDI message. -/
def ForwardsMidi (d : RxBuffer) : Prop :=
  d.get 0 = 1 ∧ ∃ m < (d.get 1).toNat, d.get (m * 4 + 2) = 0

instance (d : RxBuffer) : Decidable (ForwardsMidi d) := inferInstanceAs (Decidable (_ ∧ _))

theorem foldl_selectStep (d : RxBuffer) (l : List Nat) (sel : Endpoint) (rel : List Endpoint) :
    l.foldl (selectStep d) (.configured, sel, rel) =
      (.configured, if ∃ m ∈ l, d.get (m * 4 + 2) = 0 then .midiIn else sel, rel) := by
  induction l generalizing sel with
  | nil => rw [List.foldl_nil, if_neg (by simp)]
  | cons m l ih =>
    rw [List.foldl_cons, selectStep]
    by_cases hm : d.get (m * 4 + 2) = 0
    · have hmem : ∃ k ∈ m :: l, d.get (k * 4 + 2) = 0 := ⟨m, List.mem_cons_self, hm⟩
      rw [if_pos hm, ih, if_pos hmem, ite_self]
    · rw [if_neg hm, ih]
      simp only [List.mem_cons, exists_eq_or_imp, hm, false_or]

/-- **After a report the MIDI IN endpoint is selected exactly if there was a MIDI message.** -/
theorem genericHIDProcessReport_select (d : RxBuffer) (sel : Endpoint) (rel : List Endpoint) :
    Spec avr selectView (.configured, sel, rel) (genericHIDProcessReport d) fun _ w =>
      w = (.configured, if ForwardsMidi d then .midiIn else sel, rel) := by
  refine spec_readData_bind _ (fun _ ht => ht) (Spec.when (fun hid => ?_) fun hid => ?_)
  · refine spec_readData_bind _ (fun _ ht => ht) ?_
    refine Spec.mono (Spec.forEach_fold (F := selectStep d) (fun w => w.1 = .configured) rfl
      (fun m w hw => ?_) fun m _ w hw => ?_) fun _ w hw => ?_
    · rw [selectStep]
      split <;> exact hw
    · obtain ⟨state, sel', rel'⟩ := w
      subst hw
      exact processMessage_select d m sel' rel'
    · rw [hw, foldl_selectStep]
      simp only [ForwardsMidi, hid, true_and, List.mem_range]
  · rw [if_neg fun h : ForwardsMidi d => hid h.1]

/-! ## The acknowledgement -/

/-- The OUT endpoints whose banks the call frees, in order. -/
def releasedBy (i : Input) (s : Firmware) : List Endpoint :=
  (taskCall i s).usb.released.drop s.usb.released.length

/--
The call acknowledges the report it handles on the endpoint of the report, and frees no bank of
another endpoint.
-/
structure Acknowledged (i : Input) (s : Firmware) : Prop where
  last : ∀ d, reportAt i.tick s = some d → (releasedBy i s).getLast? = some .genericOut
  own : ∀ ep ∈ releasedBy i s, ep = .genericOut

/-- **What a call that handles a report frees.** -/
theorem releasedBy_report {i : Input} {s : Firmware} {d : RxBuffer}
    (h : reportAt i.tick s = some d) : ∃ n, releasedBy i s
      = List.replicate n .genericOut ++ [if ForwardsMidi d then .midiIn else .genericOut] := by
  obtain ⟨hselected, hstate, -, -, n, hreleased⟩ := beforeReport_usb i s
  have hconfigured := (reportAt_eq_some.mp h).1
  have hview : selectView (beforeReport i s)
      = (.configured, .genericOut, s.usb.released ++ List.replicate n .genericOut) := by
    rw [selectView, hselected, hstate, hconfigured, hreleased]
  have hspec := genericHIDProcessReport_select d .genericOut
    (s.usb.released ++ List.replicate n .genericOut)
  rw [← hview] at hspec
  have hexec := hspec.exec (fun _ => i) fun _ => rfl
  generalize ht : ((genericHIDProcessReport d).exec (fun _ => i) (beforeReport i s)).2 = t at hexec
  simp only [selectView, Prod.mk.injEq] at hexec
  refine ⟨n, ?_⟩
  rw [releasedBy, taskCall_report h t ht.symm]
  dsimp only
  rw [Usb.released_clearOUT, hexec.2.1, hexec.2.2, List.append_assoc, List.drop_left]

theorem releasedBy_no_report {i : Input} {s : Firmware} (h : reportAt i.tick s = none) :
    ∀ ep ∈ releasedBy i s, ep = .genericOut := by
  intro ep hep
  rw [releasedBy] at hep
  rcases (taskCall_no_report h).2 with hnone | hone
  · rw [hnone, List.drop_length] at hep
    exact absurd hep List.not_mem_nil
  · rw [hone, List.drop_left] at hep
    exact List.mem_singleton.mp hep

theorem acknowledged_step_iff (i : Input) (s : Firmware) :
    Acknowledged i s ↔ ∀ d, reportAt i.tick s = some d → ¬ForwardsMidi d := by
  constructor
  · intro hack d hd hforwards
    obtain ⟨n, hreleased⟩ := releasedBy_report hd
    have hmem : Endpoint.midiIn ∈ releasedBy i s := by
      rw [hreleased, if_pos hforwards]
      exact List.mem_append_right _ (List.mem_singleton_self _)
    exact absurd (hack.own _ hmem) (by decide)
  · intro hnone
    cases hreport : reportAt i.tick s with
    | none => exact ⟨fun d hd => absurd hd (by simp [hreport]), releasedBy_no_report hreport⟩
    | some d =>
      obtain ⟨n, hreleased⟩ := releasedBy_report hreport
      rw [if_neg (hnone d hreport)] at hreleased
      constructor
      · intro _ _
        rw [hreleased, List.getLast?_concat]
      · intro ep hep
        rw [hreleased, List.mem_append, List.mem_singleton] at hep
        exact hep.elim List.eq_of_mem_replicate id

/--
**When every report is acknowledged on its own endpoint.** In a sequence of calls, none of them
interrupted, all are exactly if no report that is handled contains a MIDI message.
-/
theorem acknowledged_iff (s : Firmware) (calls : Nat → HidCall) :
    (∀ k tick, calls k = .task tick → Acknowledged (HidCall.task tick).input (stateAt s calls k)) ↔
      ∀ k tick d, calls k = .task tick → reportAt tick (stateAt s calls k) = some d →
        ¬ForwardsMidi d := by
  constructor
  · intro h k tick d hk hd
    exact (acknowledged_step_iff _ _).mp (h k tick hk) d hd
  · intro h k tick hk
    exact (acknowledged_step_iff _ _).mpr fun d hd => h k tick d hk hd

/-! ## A note in a report -/

/-- A report with one message, in two packets. -/
def noteReport : TickInput :=
  { TickInput.quiet with
    hidOut := some ([1, 1, 0, 0x90, 60, 100] ++ List.replicate 58 0)
    hidLater := [List.replicate 63 0] }

/-- The acknowledgement of the report frees the bank of the MIDI IN endpoint. -/
theorem not_acknowledged : ¬∀ (s : Firmware) (calls : Nat → HidCall) (k : Nat) (tick : TickInput),
    calls k = .task tick → (stateAt s calls k).usb.deviceState = .configured →
      Acknowledged (HidCall.task tick).input (stateAt s calls k) := by
  intro h
  have hack := h configured (fun _ => .task noteReport) 0 noteReport rfl rfl
  have hreleased : releasedBy (HidCall.task noteReport).input configured = [.genericOut, .midiIn] :=
    by decide +kernel
  have hmem : Endpoint.midiIn ∈ releasedBy (HidCall.task noteReport).input configured := by
    rw [hreleased]
    decide
  exact absurd (hack.own _ hmem) (by decide)

end SphereWare
