import SphereWare.Snapshot.Seen
import SphereWare.Spec.CpuFrame
import SphereWare.Spec.HidRun
import SphereWare.Spec.ScanView

/-!
# Packets on the bus

The interrupt sends the halves of the report in turn, and each half shows the velocity pads as they
are at that moment (`sending_sound`). What main does to them between two packets is seen as a whole
or not at all: a function that writes to the report once shows the pads before and the pads after
(`Once`).
-/

namespace SphereWare

open Interrupt Prog Snapshot

/-! ## Packets and pads -/

/-- The velocity pads in the report. -/
abbrev PadEntries : Type := Fin 40 → Nat × Nat

def padEntries (s : Firmware) : PadEntries := fun p => s.hid.entry p

/-- Both bytes of the pad are in the packet. Of pad 31 one is in each half. -/
def Packet.Holds (pkt : Packet) (p : Nat) : Prop := if pkt.second then 31 < p else p < 31

/-- The pad in the packet. -/
def Packet.entry (pkt : Packet) (p : Nat) : Nat × Nat :=
  let start := if pkt.second then 64 else 0
  decodePad (pkt.data.getD (1 + p * 2 - start) 0) (pkt.data.getD (2 + p * 2 - start) 0)

/-- The packet shows the pads. -/
def Packet.Shows (e : PadEntries) (pkt : Packet) : Prop :=
  ∀ p : Fin 40, pkt.Holds p → pkt.entry p = e p

/-- The packets so far. The first one is a first half, and they alternate. -/
def Firmware.numbered (s : Firmware) : List Packet :=
  s.usb.packets.mapIdx fun k data => ⟨decide (k % 2 = 1), data⟩

/-- **What is copied out of the report shows the pads in it.** -/
theorem shows_half (s : Firmware) : Packet.Shows (padEntries s) ⟨s.hid.flip, s.hid.half⟩ := by
  intro p hp
  have hlt := p.isLt
  have hbyte {n : Nat} (hn : n < 64) :
      s.hid.half.getD n 0 = s.hid.buffer (n + if s.hid.flip then 64 else 0) := by
    rw [List.getD_eq_getElem?_getD, Hid.getElem?_half _ hn]
    rfl
  unfold Packet.Holds at hp
  unfold Packet.entry
  cases hflip : s.hid.flip with
  | false =>
    rw [hflip] at hp hbyte
    simp only [Bool.false_eq_true, if_false] at hp hbyte ⊢
    rw [hbyte (by omega), hbyte (by omega)]
    rfl
  | true =>
    rw [hflip] at hp hbyte
    simp only [if_true] at hp hbyte ⊢
    rw [hbyte (by omega), hbyte (by omega), Nat.sub_add_cancel (by omega),
      Nat.sub_add_cancel (by omega)]
    rfl

/-! ## Relations -/

/-- The packets sent since are what was seen of the trace. -/
def Sent (trace : List PadEntries) (s t : Firmware) : Prop :=
  ∃ l, t.numbered = s.numbered ++ l ∧ Seen Packet.Shows trace l

theorem Sent.none {s t : Firmware} (h : t.usb.packets = s.usb.packets) (trace : List PadEntries) :
    Sent trace s t := by
  refine ⟨[], ?_, Seen.blind trace⟩
  rw [Firmware.numbered, Firmware.numbered, h, List.append_nil]

theorem Sent.glue {p q : List PadEntries} {e : PadEntries} {s t u : Firmware}
    (h : Sent (p ++ [e]) s t) (h' : Sent (e :: q) t u) : Sent (p ++ e :: q) s u := by
  obtain ⟨l, hl, hseen⟩ := h
  obtain ⟨l', hl', hseen'⟩ := h'
  exact ⟨l ++ l', by rw [hl', hl, List.append_assoc], hseen.glue hseen'⟩

/-- Another endpoint is selected, and the next half is the one whose turn it is. -/
structure InTurn (s : Firmware) : Prop where
  selected : s.usb.selected ≠ .genericIn
  flip : s.hid.flip = decide (s.usb.packets.length % 2 = 1)

/-- The pads are the same, and all packets show them. -/
def Sending (s t : Firmware) : Prop :=
  InTurn s → InTurn t ∧ padEntries t = padEntries s ∧ Sent [padEntries s] s t

/-- The pads may have changed, once. -/
def Changing (s t : Firmware) : Prop :=
  InTurn s → InTurn t ∧ Sent [padEntries s, padEntries t] s t

theorem Sending.refl (s : Firmware) : Sending s s := fun h => ⟨h, rfl, Sent.none rfl _⟩

theorem Sending.trans {s t u : Firmware} (h : Sending s t) (h' : Sending t u) : Sending s u := by
  intro hs
  obtain ⟨ht, hentries, hsent⟩ := h hs
  obtain ⟨hu, hentries', hsent'⟩ := h' ht
  rw [hentries] at hentries' hsent'
  exact ⟨hu, hentries', hsent.glue (p := []) hsent'⟩

theorem Sending.changing {s t : Firmware} (h : Sending s t) : Changing s t := by
  intro hs
  obtain ⟨ht, hentries, hsent⟩ := h hs
  rw [hentries]
  exact ⟨ht, hsent.glue (p := []) (Sent.none rfl [padEntries s, padEntries s])⟩

theorem Sending.trans_changing {s t u : Firmware} (h : Sending s t) (h' : Changing t u) :
    Changing s u := by
  intro hs
  obtain ⟨ht, hentries, hsent⟩ := h hs
  obtain ⟨hu, hsent'⟩ := h' ht
  rw [hentries] at hsent'
  exact ⟨hu, hsent.glue (p := []) hsent'⟩

theorem Changing.trans_sending {s t u : Firmware} (h : Changing s t) (h' : Sending t u) :
    Changing s u := by
  intro hs
  obtain ⟨ht, hsent⟩ := h hs
  obtain ⟨hu, hentries, hsent'⟩ := h' ht
  rw [hentries]
  exact ⟨hu, hsent.glue (p := [padEntries s]) hsent'⟩

/-! ## Steps that send nothing -/

/-- Neither the pads nor the packets change. -/
structure Quiet (s t : Firmware) : Prop where
  entries : padEntries t = padEntries s
  flip : t.hid.flip = s.hid.flip
  packets : PacketsKept s t

theorem Quiet.sending {s t : Firmware} (h : Quiet s t) : Sending s t := by
  intro hs
  obtain ⟨hselected, hpackets⟩ := h.packets hs.selected
  refine ⟨⟨hselected, ?_⟩, h.entries, Sent.none hpackets _⟩
  rw [h.flip, hpackets]
  exact hs.flip

theorem quiet_usb {s : Firmware} {u : Usb} (h : PacketsKept s { s with usb := u }) :
    Quiet s { s with usb := u } := ⟨rfl, rfl, h⟩

/-- What main's steps but the writes to the report leave alone. -/
def sendView (s : Firmware) := (padEntries s, s.usb, s.hid.flip)

theorem quiet_of_sendView {s t : Firmware} (h : SameOn sendView s t) : Quiet s t := by
  simp only [SameOn, sendView, Prod.mk.injEq] at h
  obtain ⟨hentries, husb, hflip⟩ := h
  refine ⟨hentries, hflip, fun hs => ?_⟩
  rw [husb]
  exact ⟨hs, rfl⟩

theorem padEntries_congr {s t : Firmware} (h : ∀ j < 97, t.hid.buffer j = s.hid.buffer j) :
    padEntries t = padEntries s := by
  funext p
  have hp := p.isLt
  unfold padEntries Hid.entry
  rw [h (1 + p * 2) (by omega), h (2 + p * 2) (by omega)]

theorem quiet_of_same {s t : Firmware} (hhid : t.hid = s.hid) (husb : t.usb = s.usb) :
    Quiet s t := by
  refine ⟨padEntries_congr fun j _ => by rw [hhid], by rw [hhid], fun hs => ?_⟩
  rw [husb]
  exact ⟨hs, rfl⟩

/-! ## The interrupt -/

/-- Interrupts leave the pads alone and may send packets. -/
def sending : Rely Firmware where
  rel := Sending
  safe _ := True
  trans := Sending.trans

/-- A part that is quiet, with interrupts anywhere. -/
theorem wp_quiet {α : Type} {p : Code α} (hp : p.Keeps Quiet) (s : Firmware) :
    p.wp avr sending (fun _ t => Sending s t) s :=
  wp_of_keeps Sending.refl (fun _ _ _ => Sending.trans) (fun _ _ h => h) (fun _ _ _ _ => trivial)
    (Keeps.mono (fun _ _ => Quiet.sending) hp) trivial

/-- A step that no interrupt can come before. -/
theorem wp_step_off {α β : Type} {f : Input → Firmware → α × Firmware} {q : α → Code β}
    {Q : β → Firmware → Prop} {s : Firmware} (hs : s.cpu.iflag = false)
    (h : ∀ i, (q (f i s).1).wp avr sending Q (f i s).2) :
    ((atomic f).bind q).wp avr sending Q s := by
  rw [wp_atomic_bind]
  intro t ht
  obtain rfl := ht.eq_of_disabled hs
  exact ⟨trivial, fun i _ => h i⟩

/-- A quiet part that leaves interrupts off. -/
theorem wp_quiet_off {α : Type} {p : Code α} (hp : p.Keeps Quiet) (hcpu : p.Keeps (SameOn cpuView))
    {s : Firmware} (hs : s.cpu.iflag = false) :
    p.wp avr sending (fun _ t => t.cpu.iflag = false ∧ Sending s t) s := by
  have hoff := wp_off_keeps (M := avr) (S := fun s t => Sending s t ∧ SameOn cpuView s t)
    (fun s => ⟨Sending.refl s, SameOn.refl _ s⟩)
    (fun _ _ _ h h' => ⟨h.1.trans h'.1, h.2.trans h'.2⟩)
    (fun _ _ hs h => (congrArg Prod.fst h.2).trans hs)
    ((Keeps.mono (fun _ _ => Quiet.sending) hp).and hcpu) hs
  refine wp_of_off (fun _ _ => trivial) (wp_mono (fun _ t ht => ?_) hoff)
  exact ⟨(congrArg Prod.fst ht.2).trans hs, ht.1⟩

theorem flip_writeMidiData (h : Hid) (d0 d1 d2 : UInt8) :
    (h.writeMidiData d0 d1 d2).flip = h.flip := by
  unfold Hid.writeMidiData
  split <;> rfl

theorem quiet_writeMidiData (s : Firmware) (d0 d1 d2 : UInt8) :
    Quiet s { s with hid := s.hid.writeMidiData d0 d1 d2 } where
  entries := padEntries_congr fun j hj => s.hid.buffer_writeMidiData d0 d1 d2 (by omega)
  flip := flip_writeMidiData s.hid d0 d1 d2
  packets hs := ⟨hs, rfl⟩

theorem midiRecieveUsbMidi_quiet : midiRecieveUsbMidi.Keeps Quiet := by
  have hread (d : RxBuffer) (j : Nat) : (readData d j).Keeps Quiet :=
    Keeps.atomic fun _ s => quiet_usb fun hs => ⟨hs, rfl⟩
  refine Keeps.bind (Keeps.act fun s => quiet_usb fun _ => ⟨by simp [Usb.select], rfl⟩) fun _ => ?_
  refine Keeps.bind (Keeps.atomic fun i s => quiet_usb fun hs => ?_) fun _ => ?_
  · obtain ⟨hpackets, hselected⟩ := s.usb.packets_receive i.tick.midiOut
    exact ⟨hselected ▸ hs, hpackets⟩
  refine Keeps.when (Keeps.bind (Keeps.atomic fun i s => quiet_usb fun hs =>
    ⟨hs, s.usb.packets_append_clearOUT _ _⟩) fun d => ?_)
  refine Keeps.bind ?_ fun _ => Keeps.bind (Keeps.atomic fun _ s => quiet_usb fun hs => ⟨hs, rfl⟩)
    fun left => Keeps.when (Keeps.act fun s => quiet_usb fun hs => ⟨hs, s.usb.packets_clearOUT⟩)
  iterate 3 refine Keeps.bind (hread _ _) fun _ => ?_
  refine Keeps.bind (Keeps.act fun s => quiet_writeMidiData s _ _ _) fun _ => ?_
  refine Keeps.bind (Keeps.act fun s => quiet_of_sendView ?_) fun _ => ?_
  · exact midiClock_same (g := sendView) (fun _ _ _ => rfl) _ s
  · exact Keeps.act fun s => quiet_of_sendView rfl

theorem genericHIDReceive_quiet : genericHIDReceive.Keeps Quiet := by
  -- the rest of the OUT half after its first step
  have hreport : genericHIDReceive.Keeps (SameOn reportView) :=
    (genericHIDTaskOut_keeps Input.quiet powerOn).2
  refine Keeps.mono (fun s t h => ?_) (hreport.and genericHIDReceive_packets)
  have hview := h.1
  simp only [SameOn, reportView, Prod.mk.injEq] at hview
  obtain ⟨-, -, hhid, -⟩ := hview
  exact ⟨padEntries_congr fun j _ => by rw [hhid], by rw [hhid], h.2⟩

theorem usbUSBTask_quiet : usbUSBTask.Keeps Quiet := by
  unfold usbUSBTask
  refine Keeps.atomic fun i s => ?_
  dsimp only
  split
  · exact quiet_usb fun hs => ⟨hs, rfl⟩
  · next event _ => exact quiet_usb fun hs => by cases event <;> exact ⟨hs, rfl⟩

/-! ### The whole handler -/

/-- The state after a packet. -/
def sentHalf (s : Firmware) : Firmware :=
  { s with
    hid := s.hid.afterHalf
    usb := ((s.usb.select .genericIn).write s.hid.half).clearIN }

theorem packets_sentHalf (s : Firmware) :
    (sentHalf s).usb.packets = s.usb.packets ++ [s.hid.half] := by
  rw [sentHalf, Usb.packets_clearIN]
  simp [Usb.packets, Usb.write, Usb.select, EndpointOp.hidPacket]

/-- The packet shows the pads, and the next one is the other half. -/
theorem sending_sentHalf (s : Firmware) {ep : Endpoint} (hep : ep ≠ .genericIn) :
    Sending s { sentHalf s with usb := (sentHalf s).usb.select ep } := by
  have hpackets : ((sentHalf s).usb.select ep).packets = s.usb.packets ++ [s.hid.half] :=
    packets_sentHalf s
  intro hs
  refine ⟨⟨hep, ?_⟩, ?_, [⟨s.hid.flip, s.hid.half⟩], ?_, Seen.single ?_⟩
  · dsimp only
    rw [hpackets, List.length_append, List.length_singleton, sentHalf, Hid.flip_afterHalf, hs.flip,
      ← decide_not, decide_eq_decide]
    omega
  · exact padEntries_congr fun j hj => s.hid.buffer_afterHalf hj
  · rw [Firmware.numbered, hpackets, List.mapIdx_append, hs.flip]
    simp [Firmware.numbered]
  · intro pkt hpkt
    rw [List.mem_singleton.mp hpkt]
    exact shows_half s

/-- Nothing comes between the copy and the packet. -/
theorem genericHIDTaskIn_sending {s : Firmware} (hs : s.cpu.iflag = false) :
    genericHIDTaskIn.wp avr sending (fun _ t => t.cpu.iflag = false ∧
      Sending s { t with usb := t.usb.select .genericOut }) s := by
  have hend {t : Firmware} (hflag : t.cpu.iflag = false)
      (ht : Sending s { t with usb := t.usb.select .genericOut }) :
      (Prog.ret () : Code Unit).wp avr sending (fun _ u => u.cpu.iflag = false ∧
        Sending s { u with usb := u.usb.select .genericOut }) t := by
    intro u hu
    obtain rfl := hu.eq_of_disabled hflag
    exact ⟨trivial, hflag, ht⟩
  refine wp_step_off hs fun _ => wp_step_off hs fun i => ?_
  rw [when]
  split
  · refine wp_step_off hs fun _ => wp_step_off hs fun _ => ?_
    rw [← Prog.bind_ret endpointClearIN]
    exact wp_step_off hs fun _ => hend hs (sending_sentHalf s (by decide))
  · have hquiet : Quiet s { s with usb := (s.usb.select .genericIn).select .genericOut } :=
      quiet_usb fun _ => ⟨by simp [Usb.select], rfl⟩
    exact hend hs hquiet.sending

theorem genericHIDTask_sending {s : Firmware} (hs : s.cpu.iflag = false) :
    genericHIDTask.wp avr sending (fun _ t => Sending s t) s := by
  refine wp_step_off hs fun _ => ?_
  rw [when]
  split
  · refine wp_bind.mpr (wp_mono ?_ (genericHIDTaskIn_sending hs))
    rintro - t ⟨hflag, ht⟩
    refine wp_step_off hflag fun _ => ?_
    exact wp_mono (fun _ _ hu => ht.trans hu) (wp_quiet genericHIDReceive_quiet _)
  · intro t ht
    obtain rfl := ht.eq_of_disabled hs
    exact ⟨trivial, Sending.refl t⟩

/-- **The interrupt sends what the report shows of the pads, and does not touch them.** -/
theorem sending_sound : sending.Sound avr := by
  intro s _ _
  have henter : Quiet s (standbyTick (avr.enter s)) := quiet_of_sendView rfl
  refine wp_step_off rfl fun _ => wp_bind.mpr ?_
  refine wp_mono ?_ (wp_quiet_off midiRecieveUsbMidi_quiet midiRecieveUsbMidi_keeps_cpu rfl)
  rintro - t ⟨hflag, ht⟩
  refine wp_bind.mpr (wp_mono (fun _ u hu => ?_) (genericHIDTask_sending hflag))
  refine wp_mono (fun _ w hw => ?_) (wp_quiet usbUSBTask_quiet u)
  have hleave : Quiet w (avr.leave w) := quiet_of_sendView rfl
  exact ((henter.sending.trans ht).trans hu).trans (hw.trans hleave.sending)

end SphereWare
