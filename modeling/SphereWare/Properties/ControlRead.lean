import SphereWare.Calls.History
import SphereWare.ControlTransfer.Link
import SphereWare.Firmware.ControlStream

/-!
# The host reads what the library sends

A control read, with the host at the other end: the turns of the library, the packets the host
fetches, its status packet, and what can break the transfer off, in any order.
-/

namespace SphereWare.ControlStream

open ControlTransfer

/-! ## The host -/

structure Transfer where
  progress : Progress
  endpoint : ControlEndpoint
  host : Reader UInt8
  /-- The host has sent its status packet before the end. -/
  stopped : Bool

inductive Event
  /-- A turn of the library. -/
  | turn
  /-- The host asks for a packet, as long as it has not seen the end. -/
  | fetch
  /-- The status packet of the host, when it has seen the end. -/
  | status
  /-- The status packet of a host that does not want the rest. -/
  | stop
  /-- The host begins another transfer. -/
  | setup
  /-- The device state changes. -/
  | bus (state : DeviceState)

namespace Transfer

def step (wLength : Nat) (t : Transfer) : Event → Transfer
  | .turn =>
    let (progress, endpoint) := ControlStream.turn t.endpoint t.progress
    { t with progress := progress, endpoint := endpoint }
  | .fetch =>
    match t.host.ended || t.stopped, t.endpoint.inBank with
    | false, some packet =>
      { t with
        endpoint := { t.endpoint with inBank := none }
        host := t.host.take controlEndpointSize wLength packet }
    | _, _ => t
  | .status =>
    if t.host.ended then { t with endpoint := { t.endpoint with outReceived := true } } else t
  | .stop => { t with endpoint := { t.endpoint with outReceived := true }, stopped := true }
  | .setup => { t with endpoint := { t.endpoint with setupReceived := true } }
  | .bus state => { t with endpoint := { t.endpoint with deviceState := state } }

def run (wLength : Nat) (t : Transfer) (es : List Event) : Transfer := es.foldl (step wLength) t

/-- The endpoint after `Endpoint_ClearSETUP`. -/
def cleared (state : DeviceState) : ControlEndpoint := ⟨none, false, false, state⟩

/-- The transfer when the function is called. -/
def start (data : List UInt8) (wLength : Nat) (state : DeviceState) : Transfer :=
  let (progress, endpoint) := begin data wLength (cleared state)
  ⟨progress, endpoint, ⟨[], false⟩, false⟩

/-! ## The function as a sender -/

variable {wLength : Nat} {data : List UInt8} {t : Transfer} {l : Link UInt8}

/-- The transfer is a link whose sender is where the function is. -/
structure Refines (t : Transfer) (l : Link UInt8) : Prop where
  bank : l.bank = t.endpoint.inBank
  host : l.reader = t.host
  sending : ∀ left full, t.progress = .sending left full → l.left = left ∧ l.owes = full
  finished : t.progress = .waiting ∨ t.progress = .returned .noError →
    l.left = [] ∧ (l.owes = false ∨ l.reader.ended = true) ∨ t.stopped = true
  status : t.endpoint.outReceived = true → l.reader.ended = true ∨ t.stopped = true
  complete : t.progress = .returned .noError → l.reader.ended = true ∨ t.stopped = true

/-- A link for the transfer, which has lost nothing. -/
structure Carries (data : List UInt8) (wLength : Nat) (t : Transfer) (l : Link UInt8) : Prop where
  refines : Refines t l
  sound : l.Sound controlEndpointSize (data.take wLength)
  pending : 0 < wLength → l.Pending

/-! ## A turn -/

/-- The transfer is broken off. -/
def BrokenOff (e : ControlEndpoint) : Prop :=
  e.deviceState = .unattached ∨ e.deviceState = .suspended ∨ e.setupReceived = true

/-- What a turn of the first loop can do. -/
inductive Sends (e : ControlEndpoint) (left : List UInt8) (full : Bool) :
    Progress × ControlEndpoint → Prop
  | finished (hleft : left = []) (hfull : full = false) : Sends e left full (.waiting, e)
  | brokenOff (code : ErrorCode) (hcode : code ≠ .noError) (h : BrokenOff e) :
      Sends e left full (.returned code, e)
  | answered (hout : e.outReceived = true) : Sends e left full (.waiting, e)
  | occupied (hout : e.outReceived = false) (hbank : e.inBank ≠ none) :
      Sends e left full (.sending left full, e)
  | packet (hout : e.outReceived = false) (hbank : e.inBank = none)
      (hmore : left ≠ [] ∨ full = true) :
      Sends e left full (.sending (left.drop controlEndpointSize)
        ((left.take controlEndpointSize).length = controlEndpointSize),
        { e with inBank := some (left.take controlEndpointSize) })

theorem turn_sending (e : ControlEndpoint) (left : List UInt8) (full : Bool) :
    Sends e left full (turn e (.sending left full)) := by
  rw [turn]
  by_cases hdone : left.length = 0 ∧ full = false
  · rw [if_pos hdone]
    exact .finished (List.eq_nil_of_length_eq_zero hdone.1) hdone.2
  · rw [if_neg hdone]
    split
    · next h => exact .brokenOff _ (by simp) (.inl h)
    · split
      · next h => exact .brokenOff _ (by simp) (.inr (.inl h))
      · split
        · next h => exact .brokenOff _ (by simp) (.inr (.inr h))
        · split
          · next h => exact .answered h
          · next hout =>
            have hout := Bool.eq_false_of_not_eq_true hout
            split
            · next h => exact .occupied hout (Option.isSome_iff_ne_none.mp h)
            · next h =>
              refine .packet hout (Option.not_isSome_iff_eq_none.mp h) ?_
              by_contra hmore
              obtain ⟨hleft, hfull⟩ := not_or.mp hmore
              exact hdone ⟨by rw [not_not.mp hleft]; rfl, Bool.eq_false_of_not_eq_true hfull⟩

/-- What a turn of the second loop can do. -/
theorem turn_waiting (e : ControlEndpoint) :
    (e.outReceived = true ∧ turn e .waiting = (.returned .noError, e)) ∨
    (e.outReceived = false ∧ BrokenOff e ∧
      ∃ code, code ≠ .noError ∧ turn e .waiting = (.returned code, e)) ∨
    (e.outReceived = false ∧ turn e .waiting = (.waiting, e)) := by
  rw [turn]
  split
  · next hout => exact .inl ⟨hout, rfl⟩
  · next hout =>
    have hout := Bool.eq_false_of_not_eq_true hout
    split
    · next h => exact .inr (.inl ⟨hout, .inl h, _, by simp, rfl⟩)
    · split
      · next h => exact .inr (.inl ⟨hout, .inr (.inl h), _, by simp, rfl⟩)
      · exact .inr (.inr ⟨hout, rfl⟩)

theorem Carries.turn (h : Carries data wLength t l) :
    ∃ l', Carries data wLength (t.step wLength .turn) l' := by
  obtain ⟨progress, e, host, stopped⟩ := t
  obtain ⟨href, hl, hpending⟩ := h
  cases progress with
  | sending left full =>
    obtain ⟨hleft, howes⟩ := href.sending left full rfl
    have hturn := turn_sending e left full
    show ∃ l', Carries data wLength
      ⟨(ControlStream.turn e (.sending left full)).1, (ControlStream.turn e (.sending left full)).2,
        host, stopped⟩ l'
    generalize ControlStream.turn e (.sending left full) = r at hturn
    cases hturn with
    | finished hnil hfull =>
      exact ⟨l, ⟨href.bank, href.host, fun _ _ h => absurd h (by simp),
        fun _ => .inl ⟨hleft.trans hnil, .inl (howes.trans hfull)⟩, href.status,
        fun h => absurd h (by simp)⟩, hl, hpending⟩
    | brokenOff code hcode _ =>
      exact ⟨l, ⟨href.bank, href.host, fun _ _ h => absurd h (by simp),
        fun hf => absurd hf (by simpa using hcode), href.status,
        fun h => absurd h (by simpa using hcode)⟩, hl, hpending⟩
    | answered hout =>
      refine ⟨l, ⟨href.bank, href.host, fun _ _ h => absurd h (by simp), fun _ => ?_, href.status,
        fun h => absurd h (by simp)⟩, hl, hpending⟩
      exact (href.status hout).imp_left fun hended => ⟨(hl.rest hended).2, .inr hended⟩
    | occupied _ _ => exact ⟨l, href, hl, hpending⟩
    | packet hout hbank _ =>
      refine ⟨l.put controlEndpointSize, ⟨?_, href.host, ?_, ?_, ?_, ?_⟩,
        hl.put (href.bank.trans hbank), fun _ => Link.pending_put l⟩
      · show some (l.left.take controlEndpointSize) = _
        rw [hleft]
      · rintro left' full' hsending
        simp only [Progress.sending.injEq] at hsending
        obtain ⟨rfl, rfl⟩ := hsending
        exact ⟨congrArg _ hleft, by rw [← hleft]; rfl⟩
      · exact fun hf => absurd hf (by simp)
      · exact fun h => absurd (hout.symm.trans h) (by simp)
      · exact fun h => absurd h (by simp)
  | waiting =>
    refine ⟨l, ?_, hl, hpending⟩
    rcases turn_waiting e with ⟨hout, hturn⟩ | ⟨_, _, code, hcode, hturn⟩ | ⟨_, hturn⟩
    · simp only [step, hturn]
      exact ⟨href.bank, href.host, fun _ _ h => absurd h (by simp),
        fun _ => href.finished (.inl rfl), href.status, fun _ => href.status hout⟩
    · simp only [step, hturn]
      exact ⟨href.bank, href.host, fun _ _ h => absurd h (by simp),
        fun hf => absurd hf (by simpa using hcode), href.status,
        fun h => absurd h (by simpa using hcode)⟩
    · simp only [step, hturn]
      exact href
  | returned code => exact ⟨l, href, hl, hpending⟩

theorem Carries.fetch (h : Carries data wLength t l) :
    ∃ l', Carries data wLength (t.step wLength .fetch) l' := by
  obtain ⟨href, hl, hpending⟩ := h
  rw [step]
  split
  · next packet hopen hbank =>
    have hpacket : l.bank = some packet := href.bank.trans hbank
    obtain ⟨hopen, hgoing⟩ := Bool.or_eq_false_iff.mp hopen
    have hreader : l.reader.ended = false := (congrArg Reader.ended href.host).trans hopen
    have hnot (h : l.reader.ended = true ∨ t.stopped = true) : False :=
      h.elim (fun h => absurd (hreader.symm.trans h) (by simp))
        fun h => absurd (hgoing.symm.trans h) (by simp)
    have hwanted : (data.take wLength).length ≤ wLength := by
      rw [List.length_take]
      exact Nat.min_le_left _ _
    refine ⟨l.fetch controlEndpointSize wLength packet, ⟨rfl, ?_, href.sending, ?_, ?_, ?_⟩,
      hl.fetch hwanted hpacket, fun _ => hl.pending_fetch hpacket⟩
    · exact congrArg (·.take controlEndpointSize wLength packet) href.host
    · intro hfinished
      refine (href.finished hfinished).imp_left fun ⟨hleft, howes⟩ => ⟨hleft, ?_⟩
      exact howes.imp_right fun hended => (hnot (.inl hended)).elim
    · exact fun hout => (hnot (href.status hout)).elim
    · exact fun hdone => (hnot (href.complete hdone)).elim
  · exact ⟨l, href, hl, hpending⟩

theorem Carries.step (h : Carries data wLength t l) (e : Event) :
    ∃ l', Carries data wLength (t.step wLength e) l' := by
  obtain ⟨href, hl, hpending⟩ := h
  cases e with
  | turn => exact Carries.turn ⟨href, hl, hpending⟩
  | fetch => exact Carries.fetch ⟨href, hl, hpending⟩
  | status =>
    refine ⟨l, ?_, hl, hpending⟩
    rw [Transfer.step]
    split
    · next hended =>
      exact ⟨href.bank, href.host, href.sending, href.finished,
        fun _ => .inl ((congrArg Reader.ended href.host).trans hended), href.complete⟩
    · exact href
  | stop =>
    exact ⟨l, ⟨href.bank, href.host, href.sending, fun _ => .inr rfl, fun _ => .inr rfl,
      fun _ => .inr rfl⟩, hl, hpending⟩
  | setup =>
    exact ⟨l, ⟨href.bank, href.host, href.sending, href.finished, href.status, href.complete⟩, hl,
      hpending⟩
  | bus state =>
    exact ⟨l, ⟨href.bank, href.host, href.sending, href.finished, href.status, href.complete⟩, hl,
      hpending⟩

theorem refines_start (e : ControlEndpoint) (left : List UInt8) (hout : e.outReceived = false) :
    Refines ⟨.sending left false, e, ⟨[], false⟩, false⟩ ⟨left, false, e.inBank, ⟨[], false⟩⟩ where
  bank := rfl
  host := rfl
  sending left' full h := by
    simp only [Progress.sending.injEq] at h
    exact ⟨h.1, h.2⟩
  finished h := absurd h (by simp)
  status h := absurd (hout.symm.trans h) (by simp)
  complete h := absurd h (by simp)

theorem carries_start (data : List UInt8) (wLength : Nat) (state : DeviceState) :
    ∃ l, Carries data wLength (start data wLength state) l := by
  by_cases hlong : wLength < data.length
  · have hbegin : begin data wLength (cleared state)
        = (.sending (data.take wLength) false, cleared state) := if_pos hlong
    rw [start, hbegin]
    refine ⟨_, refines_start (cleared state) _ rfl, Link.sound_start _, fun hpos _ _ => .inl ?_⟩
    refine List.ne_nil_of_length_pos ?_
    rw [List.length_take]
    omega
  · have hall : data.take wLength = data := List.take_of_length_le (Nat.not_lt.mp hlong)
    by_cases hnil : data.length = 0
    · have hbegin : begin data wLength (cleared state)
          = (.sending data false, { cleared state with inBank := some [] }) :=
        (if_neg hlong).trans (if_pos hnil)
      obtain rfl := List.eq_nil_of_length_eq_zero hnil
      rw [start, hbegin]
      exact ⟨_, refines_start { cleared state with inBank := some [] } _ rfl,
        hall.symm ▸ Link.sound_empty (by decide), fun _ _ hnone => absurd hnone (by simp)⟩
    · have hbegin : begin data wLength (cleared state) = (.sending data false, cleared state) :=
        (if_neg hlong).trans (if_neg hnil)
      rw [start, hbegin]
      exact ⟨_, refines_start (cleared state) _ rfl, hall.symm ▸ Link.sound_start _,
        fun _ _ _ => .inl fun h => hnil (congrArg List.length h)⟩

theorem carries_run (data : List UInt8) (wLength : Nat) (state : DeviceState) (es : List Event) :
    ∃ l, Carries data wLength ((start data wLength state).run wLength es) l :=
  Calls.history (I := fun _ t => ∃ l, Carries data wLength t l) (carries_start data wLength state)
    (fun _ _ e ⟨_, h⟩ => h.step e) es

/-! ## What the host gets -/

theorem stop_mem_of_stopped (data : List UInt8) (wLength : Nat) (state : DeviceState)
    (es : List Event) :
    ((start data wLength state).run wLength es).stopped = true → .stop ∈ es := by
  refine Calls.history (I := fun es (t : Transfer) => t.stopped = true → Event.stop ∈ es)
    (fun h => absurd h Bool.false_ne_true) (fun l t e h hstopped => ?_) es
  have hkept (hsame : (t.step wLength e).stopped = t.stopped) : Event.stop ∈ l ++ [e] :=
    List.mem_append_left _ (h (hsame.symm.trans hstopped))
  cases e with
  | turn => exact hkept rfl
  | fetch =>
    refine hkept ?_
    rw [Transfer.step]
    split <;> rfl
  | status =>
    refine hkept ?_
    rw [Transfer.step]
    split <;> rfl
  | stop => exact List.mem_append_right _ List.mem_cons_self
  | setup => exact hkept rfl
  | bus _ => exact hkept rfl

/--
**What the host gets.** Whatever happens in whatever order, the host has received the front of the
data, no more than it asked for. When it has seen the end it has all it asked for, and nothing but
an empty packet is left in the bank. The function returns without an error only then, or if the host
has stopped before.
-/
theorem host_reads_front (data : List UInt8) (wLength : Nat) (state : DeviceState)
    (es : List Event) :
    let t := (start data wLength state).run wLength es
    t.host.received <+: data.take wLength ∧
      (t.host.ended = true → t.host.received = data.take wLength ∧
        (t.endpoint.inBank = none ∨ t.endpoint.inBank = some [])) ∧
      (t.progress = .returned .noError → t.host.ended = true ∨ .stop ∈ es) := by
  intro t
  obtain ⟨l, href, hl, -⟩ := carries_run data wLength state es
  rw [← href.host, ← href.bank]
  refine ⟨?_, fun hended => ⟨hl.ended hended, ?_⟩,
    fun hdone => (href.complete hdone).imp_right (stop_mem_of_stopped data wLength state es)⟩
  · rw [← hl.whole, List.append_assoc]
    exact List.prefix_append _ _
  · have hbank := (hl.rest hended).1
    cases hb : l.bank with
    | none => exact .inl rfl
    | some p => exact .inr (congrArg some (by rwa [hb] at hbank))

/-! ## Getting to the end -/

/-- Nothing has broken the transfer off. -/
structure Unbroken (t : Transfer) : Prop where
  endpoint : ¬BrokenOff t.endpoint
  going : t.stopped = false
  code : ∀ code, t.progress = .returned code → code = .noError

theorem Unbroken.turn (h : Unbroken t) (wLength : Nat) :
    Unbroken (t.step wLength .turn) := by
  obtain ⟨progress, e, host, stopped⟩ := t
  obtain ⟨he, hgoing, hcode⟩ := h
  cases progress with
  | sending left full =>
    have hturn := turn_sending e left full
    show Unbroken ⟨(ControlStream.turn e (.sending left full)).1,
      (ControlStream.turn e (.sending left full)).2, host, stopped⟩
    generalize ControlStream.turn e (.sending left full) = r at hturn
    cases hturn with
    | finished _ _ => exact ⟨he, hgoing, fun _ h => absurd h (by simp)⟩
    | brokenOff _ _ hbroken => exact absurd hbroken he
    | answered _ => exact ⟨he, hgoing, fun _ h => absurd h (by simp)⟩
    | occupied _ _ => exact ⟨he, hgoing, fun _ h => absurd h (by simp)⟩
    | packet _ _ _ => exact ⟨he, hgoing, fun _ h => absurd h (by simp)⟩
  | waiting =>
    rcases turn_waiting e with ⟨_, hturn⟩ | ⟨_, hbroken, _⟩ | ⟨_, hturn⟩
    · simp only [step, hturn]
      exact ⟨he, hgoing, fun code h => (Progress.returned.inj h).symm⟩
    · exact absurd hbroken he
    · simp only [step, hturn]
      exact ⟨he, hgoing, hcode⟩
  | returned code => exact ⟨he, hgoing, hcode⟩

theorem Unbroken.fetch (h : Unbroken t) (wLength : Nat) :
    Unbroken (t.step wLength .fetch) := by
  rw [step]
  split
  · exact ⟨h.endpoint, h.going, h.code⟩
  · exact h

theorem Unbroken.status (h : Unbroken t) (wLength : Nat) :
    Unbroken (t.step wLength .status) := by
  rw [step]
  split
  · exact ⟨h.endpoint, h.going, h.code⟩
  · exact h

/-- The host has answered what there was in the bank. -/
def Answered (t : Transfer) : Prop :=
  t.endpoint.outReceived = true ∨ t.host.ended = false ∧ t.endpoint.inBank = none

theorem answered_answer (wLength : Nat) (hgoing : t.stopped = false) :
    Answered ((t.step wLength .fetch).step wLength .status) ∧
      ((t.step wLength .fetch).step wLength .status).progress = t.progress := by
  have hstatus (t : Transfer) : (t.step wLength .status).progress = t.progress := by
    rw [step]
    split <;> rfl
  have hended {t : Transfer} (h : t.host.ended = true) : Answered (t.step wLength .status) := by
    rw [step, if_pos h]
    exact .inl rfl
  have hopen {t : Transfer} (h : t.host.ended = false) (hbank : t.endpoint.inBank = none) :
      Answered (t.step wLength .status) := by
    rw [step, if_neg (by rw [h]; exact Bool.false_ne_true)]
    exact .inr ⟨h, hbank⟩
  rw [hstatus, step, hgoing, Bool.or_false]
  split
  · next packet _ _ =>
    refine ⟨?_, rfl⟩
    cases hnext : (t.host.take controlEndpointSize wLength packet).ended with
    | true => exact hended hnext
    | false => exact hopen hnext rfl
  · next hneither =>
    refine ⟨?_, rfl⟩
    cases h : t.host.ended with
    | true => exact hended h
    | false =>
      cases hbank : t.endpoint.inBank with
      | none => exact hopen h hbank
      | some packet => exact absurd hbank (hneither packet h)

/-- The rounds the function still needs. -/
def toGo (t : Transfer) : Nat :=
  match t.progress with
  | .sending left full =>
    if t.endpoint.outReceived then 2 else 3 + (2 * left.length + full.toNat)
  | .waiting => 1
  | .returned _ => 0

theorem toGo_waiting (h : t.progress = .waiting) : t.toGo = 1 := by
  unfold toGo
  rw [h]

theorem toGo_returned {code : ErrorCode} (h : t.progress = .returned code) : t.toGo = 0 := by
  unfold toGo
  rw [h]

theorem toGo_sending {left : List UInt8} {full : Bool} (h : t.progress = .sending left full) :
    t.toGo = if t.endpoint.outReceived then 2 else 3 + (2 * left.length + full.toNat) := by
  unfold toGo
  rw [h]

theorem toGo_sending_le {left : List UInt8} {full : Bool} (h : t.progress = .sending left full) :
    2 ≤ t.toGo ∧ t.toGo ≤ 3 + (2 * left.length + full.toNat) := by
  rw [toGo_sending h]
  split <;> omega

/-- A turn of the library, and the answer of the host. -/
def round : List Event := [.turn, .fetch, .status]

/-- In the second loop the packet the function waits for has come. -/
theorem Carries.outReceived (hw : 0 < wLength) (h : Carries data wLength t l)
    (hunbroken : Unbroken t) (hanswered : Answered t) (hwaiting : t.progress = .waiting) :
    t.endpoint.outReceived = true := by
  obtain ⟨hleft, howes⟩ := (h.refines.finished (.inl hwaiting)).resolve_right
    (Bool.eq_false_iff.mp hunbroken.going)
  rcases hanswered with hout | ⟨hopen, hnone⟩
  · exact hout
  · have hreader : l.reader.ended = false := (congrArg Reader.ended h.refines.host).trans hopen
    rcases h.pending hw hreader (h.refines.bank.trans hnone) with hmore | hmore
    · exact absurd hleft hmore
    · rcases howes with howes | hended
      · exact absurd (howes.symm.trans hmore) (by simp)
      · exact absurd (hreader.symm.trans hended) (by simp)

theorem toGo_round (hw : 0 < wLength) (h : Carries data wLength t l) (hunbroken : Unbroken t)
    (hanswered : Answered t) (hgoing : 0 < t.toGo) : (t.run wLength round).toGo < t.toGo := by
  have hprogress : (t.run wLength round).progress = (t.step wLength .turn).progress :=
    (answered_answer wLength (hunbroken.turn wLength).going).2
  obtain ⟨progress, e, host, stopped⟩ := t
  cases progress with
  | sending left full =>
    have hbounds := toGo_sending_le (t := ⟨.sending left full, e, host, stopped⟩) rfl
    have hturn := turn_sending e left full
    change _ = (ControlStream.turn e (.sending left full)).1 at hprogress
    generalize ControlStream.turn e (.sending left full) = r at hturn hprogress
    cases hturn with
    | finished _ _ =>
      rw [toGo_waiting hprogress]
      omega
    | brokenOff _ _ hbroken => exact absurd hbroken hunbroken.endpoint
    | answered _ =>
      rw [toGo_waiting hprogress]
      omega
    | occupied hout hbank =>
      rcases hanswered with hanswered | ⟨-, hnone⟩
      · exact absurd (hout.symm.trans hanswered) (by simp)
      · exact absurd hnone hbank
    | packet hout _ hmore =>
      have hweight := Link.weight_put (l := ⟨left, full, e.inBank, host⟩)
        (by decide : 0 < controlEndpointSize) hmore
      rw [toGo_sending (t := ⟨.sending left full, e, host, stopped⟩) rfl, if_neg (by simp [hout])]
      exact Nat.lt_of_le_of_lt (toGo_sending_le hprogress).2 (Nat.add_lt_add_left hweight 3)
  | waiting =>
    have hout : e.outReceived = true := h.outReceived hw hunbroken hanswered rfl
    have hreturned : ControlStream.turn e .waiting = (.returned .noError, e) := if_pos hout
    change _ = (ControlStream.turn e .waiting).1 at hprogress
    rw [hreturned] at hprogress
    rw [toGo_returned hprogress, toGo_waiting (t := ⟨.waiting, e, host, stopped⟩) rfl]
    exact Nat.one_pos
  | returned code => exact absurd hgoing (Nat.lt_irrefl 0)

theorem unbroken_round (wLength : Nat) (h : Unbroken t) : Unbroken (t.run wLength round) :=
  ((h.turn wLength).fetch wLength).status wLength

theorem unbroken_start (data : List UInt8) (wLength : Nat) {state : DeviceState}
    (hstate : state ≠ .unattached ∧ state ≠ .suspended) :
    Unbroken (start data wLength state) := by
  have hclear : ¬BrokenOff (cleared state) := fun h =>
    h.elim hstate.1 fun h => h.elim hstate.2 Bool.false_ne_true
  unfold start begin
  split
  · next hbegin =>
    split at hbegin
    · cases hbegin
      exact ⟨hclear, rfl, fun _ h => absurd h (by simp)⟩
    · split at hbegin
      · cases hbegin
        exact ⟨hclear, rfl, fun _ h => absurd h (by simp)⟩
      · cases hbegin
        exact ⟨hclear, rfl, fun _ h => absurd h (by simp)⟩

theorem unbroken_run (wLength : Nat) (h : Unbroken t) {es : List Event}
    (hes : ∀ e ∈ es, e ∈ round) :
    Unbroken (t.run wLength es) := by
  induction es generalizing t with
  | nil => exact h
  | cons e es ih =>
    refine ih ?_ fun e' he' => hes e' (List.mem_cons_of_mem e he')
    have he := hes e List.mem_cons_self
    simp only [round, List.mem_cons, List.not_mem_nil, or_false] at he
    rcases he with rfl | rfl | rfl
    · exact h.turn wLength
    · exact h.fetch wLength
    · exact h.status wLength

theorem Carries.run (h : Carries data wLength t l) (es : List Event) :
    ∃ l', Carries data wLength (t.run wLength es) l' :=
  Calls.history (I := fun _ t => ∃ l, Carries data wLength t l) ⟨l, h⟩
    (fun _ _ e ⟨_, h⟩ => h.step e) es

def rounds (n : Nat) : List Event := (List.replicate n round).flatten

theorem run_append (t : Transfer) (es es' : List Event) :
    t.run wLength (es ++ es') = (t.run wLength es).run wLength es' := List.foldl_append

theorem run_rounds_succ (t : Transfer) (n : Nat) :
    t.run wLength (rounds (n + 1)) = (t.run wLength round).run wLength (rounds n) := by
  rw [rounds, List.replicate_succ, List.flatten_cons, run_append]
  rfl

theorem returned_of_rounds (hw : 0 < wLength) (h : Carries data wLength t l)
    (hunbroken : Unbroken t) (hanswered : Answered t) {n : Nat} (hn : t.toGo ≤ n) :
    (t.run wLength (rounds n)).progress = .returned .noError := by
  induction n generalizing t l with
  | zero =>
    obtain ⟨progress, e, host, stopped⟩ := t
    cases progress with
    | sending left full =>
      have hbound := (toGo_sending_le (t := ⟨.sending left full, e, host, stopped⟩) rfl).1
      omega
    | waiting => exact absurd hn (by rw [toGo_waiting rfl]; decide)
    | returned code => exact congrArg Progress.returned (hunbroken.code code rfl)
  | succ n ih =>
    rw [run_rounds_succ]
    obtain ⟨l', h'⟩ := h.run round
    refine ih h' (unbroken_round wLength hunbroken)
      (answered_answer wLength (hunbroken.turn wLength).going).1 ?_
    rcases Nat.eq_zero_or_pos t.toGo with hzero | hpos
    · have hprogress : (t.run wLength round).progress = (t.step wLength .turn).progress :=
        (answered_answer wLength (hunbroken.turn wLength).going).2
      obtain ⟨progress, e, host, stopped⟩ := t
      cases progress with
      | sending left full =>
        have hbound := (toGo_sending_le (t := ⟨.sending left full, e, host, stopped⟩) rfl).1
        omega
      | waiting => exact absurd hzero (by rw [toGo_waiting rfl]; decide)
      | returned code =>
        rw [toGo_returned hprogress]
        exact Nat.zero_le n
    · have hless := toGo_round hw h hunbroken hanswered hpos
      omega

theorem Carries.toGo_le (h : Carries data wLength t l) : t.toGo ≤ 2 * data.length + 4 := by
  obtain ⟨progress, e, host, stopped⟩ := t
  cases progress with
  | sending left full =>
    have hbound := (toGo_sending_le (t := ⟨.sending left full, e, host, stopped⟩) rfl).2
    have hwhole := congrArg List.length h.sound.whole
    rw [List.length_append, (h.refines.sending left full rfl).1] at hwhole
    have htake := List.length_take_le' wLength data
    have hfull := Bool.toNat_le full
    omega
  | waiting =>
    rw [toGo_waiting rfl]
    omega
  | returned code =>
    rw [toGo_returned rfl]
    exact Nat.zero_le _

/--
**All the data arrive.** If the host wants some data and nothing breaks the transfer off, then after
any turns, requests for packets and status packets in any order a bounded number of rounds brings
the function to its end, with all the host asked for received.
-/
theorem host_reads_all (data : List UInt8) (hw : 0 < wLength) {state : DeviceState}
    (hstate : state ≠ .unattached ∧ state ≠ .suspended) {es : List Event}
    (hes : ∀ e ∈ es, e ∈ round) {n : Nat} (hn : 2 * data.length + 5 ≤ n) :
    let t := (start data wLength state).run wLength (es ++ rounds n)
    t.progress = .returned .noError ∧ t.host.received = data.take wLength := by
  intro t
  obtain ⟨m, rfl⟩ : ∃ m, n = m + 1 := ⟨n - 1, by omega⟩
  obtain ⟨l, hl⟩ := carries_run data wLength state (es ++ round)
  have hready := unbroken_run wLength (unbroken_start data wLength hstate) hes
  have hunbroken := unbroken_round wLength hready
  have hanswered := (answered_answer wLength (hready.turn wLength).going).1
  have hreturned : t.progress = .returned .noError := by
    show ((start data wLength state).run wLength (es ++ rounds (m + 1))).progress = _
    rw [run_append, run_rounds_succ, ← run_append _ es round]
    refine returned_of_rounds hw hl ?_ ?_ (by have := hl.toGo_le; omega)
    · rwa [run_append]
    · rwa [run_append]
  obtain ⟨l', hl'⟩ := carries_run data wLength state (es ++ rounds (m + 1))
  have hended := (hl'.refines.complete hreturned).resolve_right fun hstopped => ?_
  · exact ⟨hreturned, by rw [← hl'.sound.ended hended, hl'.refines.host]⟩
  · have hstop := stop_mem_of_stopped data wLength state _ hstopped
    rcases List.mem_append.mp hstop with hstop | hstop
    · exact absurd (hes _ hstop) (by simp [round])
    · obtain ⟨es', hes', hstop⟩ := List.mem_flatten.mp hstop
      rw [List.eq_of_mem_replicate hes'] at hstop
      exact absurd hstop (by simp [round])

/-! ## A read of length 0 -/

/-- The function waits for a host that has been given nothing. -/
structure Waits (t : Transfer) : Prop where
  progress : t.progress = .sending [] false ∨ t.progress = .waiting
  inBank : t.endpoint.inBank = none
  outReceived : t.endpoint.outReceived = false
  ended : t.host.ended = false
  state : t.endpoint.deviceState ≠ .unattached ∧ t.endpoint.deviceState ≠ .suspended

theorem Waits.step (h : Waits t) {e : Event} (hstop : e ≠ .stop)
    (he : ∀ state, e = .bus state → state ≠ .unattached ∧ state ≠ .suspended) :
    Waits (t.step 0 e) := by
  obtain ⟨progress, endpoint, host, stopped⟩ := t
  obtain ⟨hprogress, hbank, hout, hended, hstate⟩ := h
  cases e with
  | turn =>
    rcases hprogress with rfl | rfl
    · exact ⟨.inr rfl, hbank, hout, hended, hstate⟩
    · have hturn : ControlStream.turn endpoint .waiting = (.waiting, endpoint) := by
        rw [turn, if_neg (Bool.eq_false_iff.mp hout), if_neg hstate.1, if_neg hstate.2]
      simp only [Transfer.step, hturn]
      exact ⟨.inr rfl, hbank, hout, hended, hstate⟩
  | fetch =>
    rw [Transfer.step]
    split
    · next hsome => exact absurd (hbank.symm.trans hsome) (by simp)
    · exact ⟨hprogress, hbank, hout, hended, hstate⟩
  | status =>
    rw [Transfer.step, if_neg (Bool.eq_false_iff.mp hended)]
    exact ⟨hprogress, hbank, hout, hended, hstate⟩
  | stop => exact absurd rfl hstop
  | setup => exact ⟨hprogress, hbank, hout, hended, hstate⟩
  | bus state => exact ⟨hprogress, hbank, hout, hended, he state rfl⟩

theorem waits_start (hdata : data ≠ []) {state : DeviceState}
    (hstate : state ≠ .unattached ∧ state ≠ .suspended) : Waits (start data 0 state) := by
  have hbegin : begin data 0 (cleared state) = (.sending (data.take 0) false, cleared state) :=
    if_pos (List.length_pos_iff.mpr hdata)
  rw [start, hbegin]
  exact ⟨.inl rfl, rfl, rfl, rfl, hstate⟩

theorem waits_run (hdata : data ≠ []) {state : DeviceState}
    (hstate : state ≠ .unattached ∧ state ≠ .suspended) {es : List Event}
    (hstop : .stop ∉ es)
    (hes : ∀ state, .bus state ∈ es → state ≠ .unattached ∧ state ≠ .suspended) :
    Waits ((start data 0 state).run 0 es) :=
  List.foldlRecOn es (Transfer.step 0) (waits_start hdata hstate) fun _ h _ he =>
    h.step (fun h => hstop (h ▸ he)) fun state hbus => hes state (hbus ▸ he)

/--
**A control read of length 0 does not end.** Asked for no data, the function waits for a packet from
the host, which has none to send: it is the host that waits for a packet then. Neither another
transfer nor a bus reset ends the wait.
-/
theorem never_returns (hdata : data ≠ []) {state : DeviceState}
    (hstate : state ≠ .unattached ∧ state ≠ .suspended) {es : List Event}
    (hstop : .stop ∉ es)
    (hes : ∀ state, .bus state ∈ es → state ≠ .unattached ∧ state ≠ .suspended)
    (code : ErrorCode) :
    ((start data 0 state).run 0 es).progress ≠ .returned code := by
  intro hreturned
  rcases (waits_run hdata hstate hstop hes).progress with hsending | hwaiting
  · exact absurd (hsending.symm.trans hreturned) (by simp)
  · exact absurd (hwaiting.symm.trans hreturned) (by simp)

theorem host_reads_all_header :
    ((start [18, 1] 64 .default).run 64 ([.fetch, .turn] ++ rounds 9)).host.received = [18, 1] :=
  (host_reads_all [18, 1] (by decide) ⟨by decide, by decide⟩ (by simp [round])
    (Nat.le_refl _)).2

theorem never_returns_setup :
    ((start [18] 0 .default).run 0 [.turn, .setup, .bus .default, .turn]).progress
      ≠ .returned .noError :=
  never_returns (by decide) ⟨by decide, by decide⟩ (by simp) (by simp) .noError

end Transfer

end SphereWare.ControlStream
