import SphereWare.Firmware.Stream

/-!
# A stream function returns

A call of the template, with the host, the bus and the start of each frame around it, in any order.
What the host can do to keep the function in its loops is bounded: `toGo` counts the turns that are
left, and only a packet without data adds to it.
-/

namespace SphereWare.EndpointStream

variable {ε α : Type} {T : Template ε} {act : ε → α → ε} {blank : α → Bool}

/-! ## Calls -/

structure Call (ε : Type) where
  progress : Progress
  endpoint : ε
  bus : Bus

inductive Event (α : Type)
  /-- A turn of the function. -/
  | turn
  /-- Something the host does at the endpoint. -/
  | host (a : α)
  /-- A frame begins. -/
  | frame
  /-- The device state changes. -/
  | bus (state : DeviceState)
  /-- The endpoint is stalled, or not any more. -/
  | stall (stalled : Bool)
  /-- `USB_USBTask` answers a request that resets the endpoint. -/
  | reset
  deriving DecidableEq

namespace Call

/-- The call ends with the return of the function. -/
def step (T : Template ε) (act : ε → α → ε) (c : Call ε) : Event α → Call ε
  | .turn =>
    let (progress, endpoint) := EndpointStream.turn T c.bus c.endpoint c.progress
    { c with progress := progress, endpoint := endpoint }
  | .host a =>
    match c.progress with
    | .returned _ => c
    | _ => { c with endpoint := act c.endpoint a }
  | .frame => { c with bus := { c.bus with frameNumber := c.bus.frameNumber + 1 } }
  | .bus state => { c with bus := { c.bus with deviceState := state } }
  | .stall stalled => { c with bus := { c.bus with stalled := stalled } }
  | .reset =>
    match c.progress with
    | .serving _ => { c with endpoint := T.reset c.endpoint }
    | _ => c

def run (T : Template ε) (act : ε → α → ε) (c : Call ε) (es : List (Event α)) : Call ε :=
  es.foldl (step T act) c

/-- A call for `length` bytes. -/
def start (length : Nat) (e : ε) (bus : Bus) : Call ε := ⟨.entering length, e, bus⟩

theorem run_append (c : Call ε) (es es' : List (Event α)) :
    c.run T act (es ++ es') = (c.run T act es).run T act es' := List.foldl_append

end Call

/-! ## The turns that are left -/

/-- The host waits for the function, not the other way round. -/
structure Template.Fair (T : Template ε) (act : ε → α → ε) (blank : α → Bool) : Prop where
  allowed : ∀ e, T.readWriteAllowed e = true → T.ready e = true
  clear : ∀ e, T.ready (T.clearEndpoint e) = false
  /-- The host leaves the bank alone while it is the function's. -/
  ready : ∀ e a, T.ready e = true → act e a = e
  /-- When the host gives the bank back, there is something to do. -/
  work : ∀ e a, blank a = false → T.ready (act e a) = true → T.ready e = false →
    T.readWriteAllowed (act e a) = true
  /-- So there is after a reset, if the bank is the function's. -/
  reset : ∀ e, T.ready (T.reset e) = true → T.readWriteAllowed (T.reset e) = true

/--
The turns to the next packet: to clear the bank, to answer a request, to enter the wait, and to see
101 frames.
-/
def Template.refill (T : Template ε) (e : ε) : Nat := if T.readWriteAllowed e then 0 else 104

/-- The same for an endpoint the function may still be waiting for. -/
def Template.debt (T : Template ε) (e : ε) : Nat := if T.ready e then T.refill e else 0

namespace Call

variable {c : Call ε}

/-- The turns the function still needs, each with a frame of its own. -/
def toGo (T : Template ε) (c : Call ε) : Nat :=
  match c.progress with
  | .entering length => 105 * length + 103 + T.debt c.endpoint
  | .waiting length timeoutMSRem _ => 105 * length + 2 + timeoutMSRem + T.debt c.endpoint
  | .looping length => 105 * length + 1 + T.refill c.endpoint
  | .serving length => 105 * length + 104 + T.debt c.endpoint
  | .returned _ => 0

/-- What an event adds. -/
def cost (blank : α → Bool) : Event α → Nat
  | .host a => if blank a then 104 else 0
  | _ => 0

theorem returned_of_toGo (h : c.toGo T = 0) : ∃ code, c.progress = .returned code := by
  unfold toGo at h
  split at h
  · omega
  · omega
  · omega
  · omega
  · next code hcode => exact ⟨code, hcode⟩

theorem toGo_start (length : Nat) (e : ε) (bus : Bus) :
    (start length e bus).toGo T = 105 * length + 103 + T.debt e := rfl

theorem toGo_pos (h : ∀ code, c.progress ≠ .returned code) : 0 < c.toGo T := by
  rcases Nat.eq_zero_or_pos (c.toGo T) with hzero | hpos
  · obtain ⟨code, hcode⟩ := returned_of_toGo hzero
    exact absurd hcode (h code)
  · exact hpos

/-- The frame number the function compares with is the one of its last turn. -/
def Current (c : Call ε) : Prop :=
  ∀ length timeoutMSRem previous, c.progress = .waiting length timeoutMSRem previous →
    previous = c.bus.frameNumber

/-- The next turn of a wait sees a new frame. -/
def Fresh (c : Call ε) : Prop :=
  ∀ length timeoutMSRem previous, c.progress = .waiting length timeoutMSRem previous →
    c.bus.frameNumber ≠ previous

theorem current_turn (T : Template ε) (act : ε → α → ε) (c : Call ε) :
    (c.step T act .turn).Current := by
  obtain ⟨progress, e, bus⟩ := c
  intro length timeoutMSRem previous h
  change (EndpointStream.turn T bus e progress).1 = _ at h
  change previous = bus.frameNumber
  cases progress with
  | entering n =>
    simp only [EndpointStream.turn, Progress.waiting.injEq] at h
    exact h.2.2.symm
  | waiting n rem old =>
    simp only [EndpointStream.turn] at h
    split_ifs at h with _ _ _ _ hsame
    · cases h
      exact hsame.symm
    · cases h
      rfl
  | looping n =>
    cases n with
    | zero => cases h
    | succ n =>
      simp only [EndpointStream.turn] at h
      split at h <;> cases h
  | serving n => cases h
  | returned code => cases h

theorem Current.fresh (h : c.Current) : (c.step T act .frame).Fresh := by
  intro length timeoutMSRem previous hwaiting hsame
  have hprevious := h length timeoutMSRem previous hwaiting
  simp only [step, hprevious] at hsame
  exact absurd hsame (by bv_omega)

theorem refill_of_allowed {e : ε} (h : T.readWriteAllowed e = true) : T.refill e = 0 := if_pos h

theorem refill_le (T : Template ε) (e : ε) : T.refill e ≤ 104 := by
  unfold Template.refill
  split <;> omega

theorem debt_of_ready {e : ε} (h : T.ready e = true) : T.debt e = T.refill e := if_pos h

theorem debt_of_not_ready {e : ε} (h : T.ready e = false) : T.debt e = 0 :=
  if_neg (Bool.eq_false_iff.mp h)

/-- A turn that sees a new frame gets on. -/
theorem toGo_fresh (hT : T.Fair act blank) (hfresh : c.Fresh) :
    (c.step T act .turn).toGo T ≤ c.toGo T - 1 := by
  obtain ⟨progress, e, bus⟩ := c
  cases progress with
  | entering n =>
    simp only [step, EndpointStream.turn, toGo, timeoutMS]
    omega
  | waiting n rem previous =>
    have hnew : bus.frameNumber ≠ previous := hfresh n rem previous rfl
    simp only [step, EndpointStream.turn]
    split_ifs with hready
    · simp only [toGo, debt_of_ready hready]
      omega
    all_goals simp only [toGo]; omega
  | looping n =>
    cases n with
    | zero => exact Nat.zero_le _
    | succ n =>
      simp only [step, EndpointStream.turn]
      split
      · have hrefill := refill_le T (T.transferByte e)
        simp only [toGo]
        omega
      · next hallowed =>
        have hrefill : T.refill e = 104 := if_neg hallowed
        simp only [toGo, debt_of_not_ready (hT.clear e), hrefill]
        omega
  | serving n =>
    simp only [step, EndpointStream.turn, toGo]
    omega
  | returned code => exact Nat.zero_le _

theorem toGo_turn (hT : T.Fair act blank) : (c.step T act .turn).toGo T ≤ c.toGo T := by
  by_cases hfresh : c.Fresh
  · exact (toGo_fresh hT hfresh).trans (Nat.sub_le _ _)
  · obtain ⟨progress, e, bus⟩ := c
    simp only [Fresh, not_forall, ne_eq, not_not] at hfresh
    obtain ⟨n, rem, previous, hprogress, hsame⟩ := hfresh
    obtain rfl : progress = .waiting n rem previous := hprogress
    simp only [step, EndpointStream.turn]
    split_ifs with hready
    · simp only [toGo, debt_of_ready hready]
      omega
    all_goals simp only [toGo]; omega

/-- What the host does adds at most a packet without data. -/
theorem toGo_host (hT : T.Fair act blank) (a : α) :
    (c.step T act (.host a)).toGo T ≤ c.toGo T + if blank a then 104 else 0 := by
  obtain ⟨progress, e, bus⟩ := c
  have hdebt : T.debt (act e a) ≤ T.debt e + if blank a then 104 else 0 := by
    cases hready : T.ready e with
    | true => rw [hT.ready e a hready]; omega
    | false =>
      cases hblank : blank a with
      | true =>
        have hrefill := refill_le T (act e a)
        unfold Template.debt
        split <;> simp; omega
      | false =>
        cases hnext : T.ready (act e a) with
        | true =>
          rw [debt_of_ready hnext, refill_of_allowed (hT.work e a hblank hnext hready)]
          exact Nat.zero_le _
        | false =>
          rw [debt_of_not_ready hnext]
          exact Nat.zero_le _
  cases progress with
  | entering n => simp only [step, toGo]; omega
  | waiting n rem previous => simp only [step, toGo]; omega
  | looping n =>
    have hrefill : T.refill (act e a) ≤ T.refill e := by
      cases hallowed : T.readWriteAllowed e with
      | true => rw [hT.ready e a (hT.allowed e hallowed)]
      | false =>
        have hmost : T.refill e = 104 := if_neg (Bool.eq_false_iff.mp hallowed)
        exact hmost ▸ refill_le T (act e a)
    simp only [step, toGo]
    omega
  | serving n => simp only [step, toGo]; omega
  | returned code => exact Nat.le_add_right _ _

theorem toGo_reset (hT : T.Fair act blank) : (c.step T act .reset).toGo T ≤ c.toGo T := by
  obtain ⟨progress, e, bus⟩ := c
  cases progress with
  | serving n =>
    have hdebt : T.debt (T.reset e) = 0 := by
      cases hready : T.ready (T.reset e) with
      | true => rw [debt_of_ready hready, refill_of_allowed (hT.reset e hready)]
      | false => exact debt_of_not_ready hready
    simp only [step, toGo, hdebt]
    omega
  | _ => exact Nat.le_refl _

theorem toGo_step (hT : T.Fair act blank) (e : Event α) :
    (c.step T act e).toGo T ≤ c.toGo T + cost blank e := by
  cases e with
  | turn => exact toGo_turn hT
  | host a => exact toGo_host hT a
  | frame => exact Nat.le_refl _
  | bus state => exact Nat.le_refl _
  | stall stalled => exact Nat.le_refl _
  | reset => exact toGo_reset hT

theorem toGo_run (hT : T.Fair act blank) (es : List (Event α)) :
    (c.run T act es).toGo T ≤ c.toGo T + (es.map (cost blank)).sum := by
  induction es generalizing c with
  | nil => exact Nat.le_refl _
  | cons e es ih =>
    have hstep := toGo_step (c := c) hT e
    have hrest := ih (c := c.step T act e)
    rw [List.map_cons, List.sum_cons]
    change ((c.step T act e).run T act es).toGo T ≤ _
    omega

/-! ## Rounds -/

/--
The function looks at the endpoint right before a frame begins and right after that, if it is not
just back from `USB_USBTask`.
-/
def poll : List (Event α) := [.turn, .frame, .turn]

theorem toGo_poll (hT : T.Fair act blank) : (c.run T act poll).toGo T ≤ c.toGo T - 1 := by
  have hbefore := toGo_turn (c := c) hT
  have hafter : (c.run T act poll).toGo T ≤ (c.step T act .turn).toGo T - 1 :=
    toGo_fresh hT (current_turn T act c).fresh
  exact hafter.trans (Nat.sub_le_sub_right hbefore 1)

/--
Any events, and after each part of them a frame that the function sees. The frames that begin while
`USB_USBTask` answers a request are among those events.
-/
def rounds (parts : List (List (Event α))) : List (Event α) := parts.flatMap (· ++ poll)

theorem returned_step {code : ErrorCode} (h : c.progress = .returned code) (e : Event α) :
    (c.step T act e).progress = .returned code := by
  cases e with
  | turn => simp only [step, EndpointStream.turn, h]
  | host a => simp only [step, h]
  | frame => exact h
  | bus state => exact h
  | stall stalled => exact h
  | reset => simp only [step, h]

theorem returned_run {code : ErrorCode} (h : c.progress = .returned code) (es : List (Event α)) :
    (c.run T act es).progress = .returned code := by
  induction es generalizing c with
  | nil => exact h
  | cons e es ih => exact ih (returned_step h e)

/-- **The function returns.** -/
theorem returned_of_rounds (hT : T.Fair act blank) {parts : List (List (Event α))}
    (hlong : c.toGo T + (parts.flatten.map (cost blank)).sum ≤ parts.length) :
    ∃ code, (c.run T act (rounds parts)).progress = .returned code := by
  induction parts generalizing c with
  | nil => exact returned_of_toGo (T := T) (Nat.le_zero.mp ((Nat.le_add_right _ _).trans hlong))
  | cons part parts ih =>
    have hpart := toGo_run (c := c) hT part
    have hpoll := toGo_poll (c := c.run T act part) hT
    rw [List.flatten_cons, List.map_append, List.sum_append, List.length_cons] at hlong
    rw [rounds, List.flatMap_cons, run_append, run_append]
    rcases Nat.eq_zero_or_pos ((c.run T act part).toGo T) with hzero | hpos
    · obtain ⟨code, hcode⟩ := returned_of_toGo hzero
      exact ⟨code, returned_run (returned_run hcode poll) _⟩
    · exact ih (by omega)

end Call

end SphereWare.EndpointStream
