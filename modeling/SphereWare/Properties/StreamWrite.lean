import SphereWare.Properties.StreamTurns

/-!
# What a stream write does

The host fetches a packet whenever there is one. `fetch` gives the bank back, empty.
-/

namespace SphereWare.EndpointStream

open Call

/-- The host asks for a packet. -/
def fetching (e : InEndpoint) (_ : Unit) : InEndpoint := e.fetch

/-- The endpoint at the call: there may be a packet that the host has not fetched. -/
def InEndpoint.ofData (old : Option (List UInt8)) (data : List UInt8) : InEndpoint :=
  ⟨old.isNone, old.getD [], data, []⟩

/-- The packets the host has been given. -/
def InEndpoint.given (e : InEndpoint) : List (List UInt8) :=
  if e.free then e.fetched else e.fetched ++ [e.bank]

/-- The bytes the function has put into the bank. -/
def InEndpoint.written (e : InEndpoint) : List UInt8 := if e.free then e.bank else []

/--
Some data are given to the host, in whole packets, and some are in the bank; the rest is left. Each
of the `resets` has thrown away at most one packet.
-/
structure Split (old : Option (List UInt8)) (data : List UInt8) (resets : Nat)
    (full : List (List UInt8)) (e : InEndpoint) : Prop where
  given : e.given.Sublist (old.toList ++ full)
  lost : (old.toList ++ full).length ≤ e.given.length + resets
  /-- The packet that was there is not thrown away. -/
  first : full = [] → e.given = old.toList
  whole : ∀ packet ∈ full, packet.length = endpointSize
  all : full.flatten ++ e.written ++ e.left = data
  fits : e.written.length ≤ endpointSize
  /-- A packet is given to the host only when there are more data. -/
  more : full ≠ [] → full.flatten.length < data.length

variable {old : Option (List UInt8)} {data : List UInt8} {resets : Nat} {full : List (List UInt8)}
  {e : InEndpoint} {c : Call InEndpoint} {length : Nat}

namespace Split

theorem ofData (old : Option (List UInt8)) (data : List UInt8) :
    Split old data 0 [] (.ofData old data) := by
  have hgiven : (InEndpoint.ofData old data).given = old.toList := by cases old <;> rfl
  have hwritten : (InEndpoint.ofData old data).written = [] := by cases old <;> rfl
  refine ⟨?_, ?_, fun _ => hgiven, by simp, ?_, ?_, by simp⟩
  · rw [hgiven, List.append_nil]
  · rw [hgiven, List.append_nil]
    exact Nat.le_refl _
  · rw [hwritten]
    rfl
  · rw [hwritten]
    exact Nat.zero_le _

/-- The data are where they were. -/
theorem of_eq {e' : InEndpoint} (h : Split old data resets full e) (hgiven : e'.given = e.given)
    (hwritten : e'.written = e.written) (hleft : e'.left = e.left) :
    Split old data resets full e' := by
  obtain ⟨hsublist, hlost, hfirst, hwhole, hall, hfits, hmore⟩ := h
  rw [← hgiven] at hsublist hlost hfirst
  rw [← hwritten] at hall hfits
  rw [← hleft] at hall
  exact ⟨hsublist, hlost, hfirst, hwhole, hall, hfits, hmore⟩

theorem fetch (h : Split old data resets full e) : Split old data resets full e.fetch := by
  unfold InEndpoint.fetch
  split
  · exact h
  · next hbusy =>
    refine h.of_eq ?_ ?_ rfl
    · simp only [InEndpoint.given, if_true, if_neg hbusy]
    · simp only [InEndpoint.written, if_true, if_neg hbusy]

theorem write8 (h : Split old data resets full e) (hfree : e.free = true)
    (hroom : e.bank.length < endpointSize) (hleft : e.left.length = length + 1) :
    Split old data resets full e.write8 ∧ e.write8.left.length = length := by
  obtain ⟨bit, bank, left, fetched⟩ := e
  obtain rfl : bit = true := hfree
  obtain ⟨hgiven, hlost, hfirst, hwhole, hdata, hfits, hmore⟩ := h
  cases left with
  | nil => cases hleft
  | cons b bs =>
    refine ⟨⟨hgiven, hlost, hfirst, hwhole, ?_, ?_, hmore⟩, Nat.succ.inj hleft⟩
    · simpa [InEndpoint.write8, InEndpoint.written] using hdata
    · simpa [InEndpoint.write8, InEndpoint.written] using Nat.succ_le_of_lt hroom

theorem clearIN (h : Split old data resets full e) (hfree : e.free = true)
    (hroom : ¬e.bank.length < endpointSize) (hleft : e.left.length = length + 1) :
    Split old data resets (full ++ [e.bank]) e.clearIN := by
  obtain ⟨bit, bank, left, fetched⟩ := e
  obtain rfl : bit = true := hfree
  obtain ⟨hgiven, hlost, -, hwhole, hdata, hfits, hmore⟩ := h
  simp only [InEndpoint.given, InEndpoint.written, if_true] at hgiven hlost hdata hfits
  have hfull : bank.length = endpointSize := Nat.le_antisymm hfits (Nat.not_lt.mp hroom)
  refine ⟨?_, ?_, fun h => absurd h (by simp), ?_, ?_, Nat.zero_le _, fun _ => ?_⟩
  · rw [← List.append_assoc]
    exact hgiven.append (.refl _)
  · simp only [InEndpoint.given, InEndpoint.clearIN, Bool.false_eq_true, if_false,
      List.length_append, List.length_singleton] at hlost ⊢
    omega
  · intro packet hpacket
    rcases List.mem_append.mp hpacket with hpacket | hpacket
    · exact hwhole packet hpacket
    · rw [List.mem_singleton.mp hpacket, hfull]
  · simpa [InEndpoint.written, InEndpoint.clearIN] using hdata
  · have hlength := congrArg List.length hdata
    simp only [List.length_append] at hlength hleft
    simp only [List.flatten_append, List.flatten_singleton, List.length_append]
    omega

/-- A packet is thrown away, if the host has not fetched it. -/
theorem reset (h : Split old data resets full e) (hfull : full ≠ []) (hwritten : e.written = []) :
    Split old data (resets + 1) full e.reset := by
  obtain ⟨bit, bank, left, fetched⟩ := e
  obtain ⟨hgiven, hlost, -, hwhole, hdata, -, hmore⟩ := h
  rw [hwritten] at hdata
  have hless : fetched.Sublist (InEndpoint.mk bit bank left fetched).given := by
    unfold InEndpoint.given
    split
    · exact .refl _
    · exact List.sublist_append_left fetched [bank]
  have hone : (InEndpoint.mk bit bank left fetched).given.length ≤ fetched.length + 1 := by
    unfold InEndpoint.given
    split
    · exact Nat.le_succ _
    · exact (List.length_append).le
  refine ⟨hless.trans hgiven, ?_, fun h => absurd h hfull, hwhole, hdata, Nat.zero_le _, hmore⟩
  change (old.toList ++ full).length ≤ fetched.length + (resets + 1)
  omega

theorem mono {resets' : Nat} (h : Split old data resets full e) (hle : resets ≤ resets') :
    Split old data resets' full e :=
  { h with lost := h.lost.trans (Nat.add_le_add_left hle _) }

end Split

/-! ## Along the call -/

/-- Where the call is, the rest of the data is what is left to write. -/
def Writes (old : Option (List UInt8)) (data : List UInt8) (resets : Nat) (c : Call InEndpoint) :
    Prop :=
  ∃ full, Split old data resets full c.endpoint ∧
    match c.progress with
    | .entering length | .waiting length _ _ => c.endpoint.left.length = length
    | .looping length => c.endpoint.free = true ∧ c.endpoint.left.length = length
    | .serving length =>
      c.endpoint.left.length = length ∧ full ≠ [] ∧ c.endpoint.written = []
    | .returned code =>
      if code = .noError then c.endpoint.free = true ∧ c.endpoint.left = []
      else c.endpoint.free = false

theorem writes_start (old : Option (List UInt8)) (data : List UInt8) (bus : Bus) :
    Writes old data 0 (start data.length (.ofData old data) bus) := ⟨[], .ofData old data, rfl⟩

theorem Writes.turn (h : Writes old data resets c) :
    Writes old data resets (c.step writeStream fetching .turn) := by
  obtain ⟨progress, e, bus⟩ := c
  obtain ⟨full, hsplit, hprogress⟩ := h
  cases progress with
  | entering length => exact ⟨full, hsplit, hprogress⟩
  | waiting length rem previous =>
    have hfailed {code : ErrorCode} (hcode : code ≠ .noError)
        (hready : ¬writeStream.ready e = true) :
        Writes old data resets ⟨.returned code, e, bus⟩ := by
      refine ⟨full, hsplit, ?_⟩
      simp only [if_neg hcode]
      exact Bool.eq_false_iff.mpr hready
    simp only [step, EndpointStream.turn]
    split_ifs with hready
    · exact ⟨full, hsplit, hready, hprogress⟩
    · exact hfailed (by decide) hready
    · exact hfailed (by decide) hready
    · exact hfailed (by decide) hready
    · exact ⟨full, hsplit, hprogress⟩
    · exact hfailed (by decide) hready
    · exact ⟨full, hsplit, hprogress⟩
  | looping length =>
    obtain ⟨hfree, hleft⟩ : e.free = true ∧ e.left.length = length := hprogress
    cases length with
    | zero => exact ⟨full, hsplit, hfree, List.length_eq_zero_iff.mp hleft⟩
    | succ length =>
      simp only [step, EndpointStream.turn]
      split
      · next hallowed =>
        have hroom : e.bank.length < endpointSize := by
          simpa [writeStream, InEndpoint.readWriteAllowed, hfree] using hallowed
        obtain ⟨hnext, hrest⟩ := hsplit.write8 hfree hroom hleft
        exact ⟨full, hnext, hfree, hrest⟩
      · next hallowed =>
        have hroom : ¬e.bank.length < endpointSize := by
          simpa [writeStream, InEndpoint.readWriteAllowed, hfree] using hallowed
        exact ⟨full ++ [e.bank], hsplit.clearIN hfree hroom hleft, hleft, by simp, rfl⟩
  | serving length => exact ⟨full, hsplit, hprogress.1⟩
  | returned code => exact ⟨full, hsplit, hprogress⟩

theorem Writes.fetch (h : Writes old data resets c) :
    Writes old data resets (c.step writeStream fetching (.host ())) := by
  obtain ⟨progress, e, bus⟩ := c
  obtain ⟨full, hsplit, hprogress⟩ := h
  have hleft : e.fetch.left = e.left := by
    unfold InEndpoint.fetch
    split <;> rfl
  cases progress with
  | entering length => exact ⟨full, hsplit.fetch, hleft ▸ hprogress⟩
  | waiting length rem previous => exact ⟨full, hsplit.fetch, hleft ▸ hprogress⟩
  | looping length =>
    have hsame : e.fetch = e := if_pos hprogress.1
    refine ⟨full, hsplit.fetch, ?_⟩
    change e.fetch.free = true ∧ e.fetch.left.length = length
    rw [hsame]
    exact hprogress
  | serving length =>
    obtain ⟨hrest, hfull, hwritten⟩ := hprogress
    refine ⟨full, hsplit.fetch, hleft ▸ hrest, hfull, ?_⟩
    change e.fetch.written = []
    unfold InEndpoint.fetch
    split
    · exact hwritten
    · rfl
  | returned code => exact ⟨full, hsplit, hprogress⟩

theorem Writes.reset (h : Writes old data resets c) :
    Writes old data (resets + 1) (c.step writeStream fetching .reset) := by
  obtain ⟨progress, e, bus⟩ := c
  obtain ⟨full, hsplit, hprogress⟩ := h
  cases progress with
  | serving length =>
    obtain ⟨hrest, hfull, hwritten⟩ := hprogress
    exact ⟨full, hsplit.reset hfull hwritten, hrest, hfull, rfl⟩
  | _ => exact ⟨full, hsplit.mono (Nat.le_succ resets), hprogress⟩

theorem Writes.step (h : Writes old data resets c) (event : Event Unit) :
    Writes old data (resets + [event].count .reset) (c.step writeStream fetching event) := by
  cases event with
  | turn => exact h.turn
  | host a => exact h.fetch
  | frame => exact h
  | bus state => exact h
  | stall stalled => exact h
  | reset => exact h.reset

theorem Writes.run (h : Writes old data resets c) (es : List (Event Unit)) :
    Writes old data (resets + es.count .reset) (c.run writeStream fetching es) := by
  induction es generalizing c resets with
  | nil => exact h
  | cons event es ih =>
    have hrun := ih (h.step event)
    rwa [Nat.add_assoc, ← List.count_append, List.singleton_append] at hrun

theorem writes_run (old : Option (List UInt8)) (data : List UInt8) (bus : Bus)
    (es : List (Event Unit)) :
    Writes old data (es.count .reset)
      ((start data.length (.ofData old data) bus).run writeStream fetching es) := by
  have hrun := (writes_start old data bus).run es
  rwa [Nat.zero_add] at hrun

theorem Writes.outcome (h : Writes old data resets c) {code : ErrorCode}
    (hcode : c.progress = .returned code) :
    ∃ full, c.endpoint.given.Sublist (old.toList ++ full) ∧
      (old.toList ++ full).length ≤ c.endpoint.given.length + resets ∧
      (∀ packet ∈ full, packet.length = endpointSize) ∧
      if code = .noError then
        c.endpoint.free = true ∧ c.endpoint.bank.length ≤ endpointSize ∧
          full.flatten ++ c.endpoint.bank = data
      else
        c.endpoint.free = false ∧ full.flatten ++ c.endpoint.left = data := by
  obtain ⟨full, hsplit, hend⟩ := h
  rw [hcode] at hend
  have hall := hsplit.all
  have hfits := hsplit.fits
  refine ⟨full, hsplit.given, hsplit.lost, hsplit.whole, ?_⟩
  by_cases hsuccess : code = .noError
  · simp only [if_pos hsuccess] at hend ⊢
    rw [InEndpoint.written, if_pos hend.1] at hall hfits
    rw [hend.2, List.append_nil] at hall
    exact ⟨hend.1, hfits, hall⟩
  · simp only [if_neg hsuccess] at hend ⊢
    rw [InEndpoint.written, if_neg (Bool.eq_false_iff.mp hend), List.append_nil] at hall
    exact ⟨hend, hall⟩

/-! ## The call returns -/

theorem writeStream_fair : writeStream.Fair fetching fun _ => false where
  allowed e h := by
    change e.readWriteAllowed = true at h
    unfold InEndpoint.readWriteAllowed at h
    exact Bool.and_elim_left h
  clear e := rfl
  ready e a h := if_pos h
  work e a _ _ hready := by
    have hfetch : e.fetch = { e with free := true, bank := [], fetched := e.fetched ++ [e.bank] } :=
      if_neg (Bool.eq_false_iff.mp hready)
    change e.fetch.readWriteAllowed = true
    rw [hfetch]
    rfl
  reset e h := rfl

/--
**The packets of a stream write.** Whatever the host fetches, whatever control requests are answered
after the packets and whatever becomes of the device state, the stall and the frames, the data are
given to the host in whole packets after the packet that was there. The host gets them in order, and
misses at most one for each request that resets the endpoint; so it misses none if there is no such
request. If the write succeeds the rest of the data is in the bank; if it does not, the last packet
has not been fetched. The function does return: between the looks it takes at the endpoint right
before and right after the beginning of a frame anything may happen, and it takes 105 such frames
for each byte at the most, and 104 more.
-/
theorem write_exact (old : Option (List UInt8)) (data : List UInt8) (bus : Bus) :
    let call := start data.length (.ofData old data) bus
    (∀ es code, let c := call.run writeStream fetching es
      c.progress = .returned code →
        ∃ full, c.endpoint.given.Sublist (old.toList ++ full) ∧
          (old.toList ++ full).length ≤ c.endpoint.given.length + es.count .reset ∧
          (∀ packet ∈ full, packet.length = endpointSize) ∧
          if code = .noError then
            c.endpoint.free = true ∧ c.endpoint.bank.length ≤ endpointSize ∧
              full.flatten ++ c.endpoint.bank = data
          else
            c.endpoint.free = false ∧ full.flatten ++ c.endpoint.left = data) ∧
    ∀ parts : List (List (Event Unit)), 105 * data.length + 104 ≤ parts.length →
      ∃ code, (call.run writeStream fetching (rounds parts)).progress = .returned code := by
  refine ⟨fun es code => (writes_run old data bus es).outcome, fun parts hlong =>
    returned_of_rounds writeStream_fair ?_⟩
  have hdebt : writeStream.debt (.ofData old data) = 0 := by
    cases old <;> rfl
  have hcost : (parts.flatten.map (cost fun _ => false)).sum = 0 :=
    List.sum_eq_zero fun x hx => by
      obtain ⟨e, -, rfl⟩ := List.mem_map.mp hx
      cases e <;> rfl
  rw [toGo_start, hdebt, hcost]
  exact (Nat.le_succ _).trans hlong

/-! ## Data that fit into the bank -/

/-- No packet is given to the host before the end. -/
theorem Split.full_eq_nil (h : Split old data resets full e) (hdata : data.length ≤ endpointSize) :
    full = [] := by
  by_contra hfull
  obtain ⟨packet, packets, rfl⟩ := List.exists_cons_of_ne_nil hfull
  have hless := h.more hfull
  have hwhole := h.whole packet List.mem_cons_self
  rw [List.flatten_cons, List.length_append] at hless
  omega

/-- The turns the function needs when the bank is free. -/
def Progress.turns : Progress → Nat
  | .entering length => length + 3
  | .waiting length _ _ => length + 2
  | .looping length => length + 1
  | .serving length => length + 4
  | .returned _ => 0

/-- The bank is free, and has room for the data that are left. -/
def Roomy (c : Call InEndpoint) : Prop :=
  c.endpoint.free = true ∧ c.endpoint.bank.length + c.endpoint.left.length ≤ endpointSize ∧
    match c.progress with
    | .entering length | .waiting length _ _ | .looping length => c.endpoint.left.length = length
    | .serving _ => False
    | .returned code => code = .noError

theorem Roomy.turn (h : Roomy c) :
    Roomy (c.step writeStream fetching .turn) ∧
      (c.step writeStream fetching .turn).progress.turns = c.progress.turns - 1 := by
  obtain ⟨progress, e, bus⟩ := c
  obtain ⟨hfree, hroom, hprogress⟩ := h
  cases progress with
  | entering length => exact ⟨⟨hfree, hroom, hprogress⟩, rfl⟩
  | waiting length rem previous =>
    have hready : writeStream.ready e = true := hfree
    simp only [step, EndpointStream.turn, if_pos hready]
    exact ⟨⟨hfree, hroom, hprogress⟩, rfl⟩
  | looping length =>
    have hleft : e.left.length = length := hprogress
    change e.bank.length + e.left.length ≤ endpointSize at hroom
    cases length with
    | zero => exact ⟨⟨hfree, hroom, rfl⟩, rfl⟩
    | succ length =>
      have hallowed : writeStream.readWriteAllowed e = true := by
        change (e.free && decide (e.bank.length < endpointSize)) = true
        rw [hfree, Bool.true_and, decide_eq_true_eq]
        omega
      simp only [step, EndpointStream.turn, if_pos hallowed]
      refine ⟨⟨hfree, ?_, ?_⟩, rfl⟩
      · change (e.bank ++ e.left.take 1).length + (e.left.drop 1).length ≤ endpointSize
        rw [List.length_append, List.length_take, List.length_drop]
        omega
      · change (e.left.drop 1).length = length
        rw [List.length_drop, hleft, Nat.add_sub_cancel]
  | serving length => exact hprogress.elim
  | returned code => exact ⟨⟨hfree, hroom, hprogress⟩, rfl⟩

theorem Roomy.step (h : Roomy c) (event : Event Unit) :
    Roomy (c.step writeStream fetching event) ∧
      (c.step writeStream fetching event).progress.turns
        = c.progress.turns - [event].count .turn := by
  cases event with
  | turn => exact h.turn
  | host a =>
    have hsame : c.endpoint.fetch = c.endpoint := if_pos h.1
    have hstep : c.step writeStream fetching (.host a) = c := by
      rw [Call.step]
      split
      · rfl
      · rw [fetching, hsame]
    rw [hstep]
    exact ⟨h, rfl⟩
  | frame => exact ⟨h, rfl⟩
  | bus state => exact ⟨h, rfl⟩
  | stall stalled => exact ⟨h, rfl⟩
  | reset =>
    obtain ⟨progress, e, bus⟩ := c
    cases progress with
    | serving length => exact h.2.2.elim
    | _ => exact ⟨h, rfl⟩

theorem Roomy.run (h : Roomy c) (es : List (Event Unit)) :
    Roomy (c.run writeStream fetching es) ∧
      (c.run writeStream fetching es).progress.turns = c.progress.turns - es.count .turn := by
  induction es generalizing c with
  | nil => exact ⟨h, rfl⟩
  | cons event es ih =>
    obtain ⟨hstep, hturns⟩ := h.step event
    obtain ⟨hrun, hrest⟩ := ih hstep
    refine ⟨hrun, hrest.trans ?_⟩
    rw [hturns, Nat.sub_sub, ← List.count_append, List.singleton_append]

theorem roomy_start {data : List UInt8} (hdata : data.length ≤ endpointSize) (bus : Bus) :
    Roomy (start data.length (.ofData none data) bus) := by
  refine ⟨rfl, ?_, rfl⟩
  simpa [start, InEndpoint.ofData] using hdata

/-- When no turns are left the function has returned. -/
theorem Roomy.returned (h : Roomy c) (hturns : c.progress.turns = 0) :
    c.progress = .returned .noError := by
  obtain ⟨-, -, hend⟩ := h
  obtain ⟨progress, e, bus⟩ := c
  cases progress with
  | entering length => cases hturns
  | waiting length rem previous => cases hturns
  | looping length => cases hturns
  | serving length => cases hturns
  | returned code => exact congrArg Progress.returned hend

/-- A call that is through has put all data into the bank, or none. -/
theorem Writes.whole {old : Option (List UInt8)} (h : Writes old data resets c)
    (hdata : data.length ≤ endpointSize) {code : ErrorCode} (hcode : c.progress = .returned code) :
    code = .noError ∧ c.endpoint = ⟨true, data, [], old.toList⟩ ∨
      code ≠ .noError ∧ old ≠ none ∧ c.endpoint = .ofData old data := by
  obtain ⟨full, hsplit, hend⟩ := h
  obtain rfl := hsplit.full_eq_nil hdata
  obtain ⟨progress, ⟨bit, bank, left, fetched⟩, bus⟩ := c
  obtain rfl : progress = .returned code := hcode
  have hgiven := hsplit.first rfl
  have hall := hsplit.all
  rw [List.flatten_nil, List.nil_append] at hall
  by_cases hsuccess : code = .noError
  · simp only [if_pos hsuccess] at hend
    obtain ⟨rfl, rfl⟩ := hend
    obtain rfl : fetched = old.toList := hgiven
    obtain rfl : bank = data := (List.append_nil bank).symm.trans hall
    exact .inl ⟨hsuccess, rfl⟩
  · simp only [if_neg hsuccess] at hend
    obtain rfl : bit = false := hend
    obtain rfl : left = data := hall
    cases old with
    | none => exact absurd hgiven (by simp [InEndpoint.given])
    | some packet =>
      obtain ⟨rfl, rfl⟩ : fetched = [] ∧ bank = packet := by
        have hsingle : fetched ++ [bank] = [] ++ [packet] := hgiven
        simpa using List.append_inj' hsingle rfl
      exact .inr ⟨hsuccess, by simp, rfl⟩

/--
**All or nothing.** Data that fit into the bank are written as a whole, or the endpoint is left with
the packet that was in the way. If no packet was, the write succeeds in three turns more than there
are bytes, whatever the host and the bus do.
-/
theorem write_whole (hdata : data.length ≤ endpointSize) (old : Option (List UInt8)) (bus : Bus)
    (es : List (Event Unit)) :
    let c := (start data.length (.ofData old data) bus).run writeStream fetching es
    (∀ code, c.progress = .returned code →
      code = .noError ∧ c.endpoint = ⟨true, data, [], old.toList⟩ ∨
        code ≠ .noError ∧ old ≠ none ∧ c.endpoint = .ofData old data) ∧
    (old = none → data.length + 3 ≤ es.count .turn → c.progress = .returned .noError) := by
  intro c
  constructor
  · intro code hcode
    exact (writes_run old data bus es).whole hdata hcode
  · rintro rfl hturns
    obtain ⟨hroomy, hleft⟩ := (roomy_start hdata bus).run es
    exact hroomy.returned (hleft.trans (Nat.sub_eq_zero_of_le hturns))

/-- Two bytes go into a bank that is free, also on a bus that is suspended. -/
theorem write_whole_bytes :
    let c := (start 2 (.ofData none [7, 8]) ⟨.suspended, false, 0⟩).run writeStream fetching
      (List.replicate 5 .turn)
    c.progress = .returned .noError :=
  (write_whole (show ([7, 8] : List UInt8).length ≤ endpointSize by decide) none
    ⟨.suspended, false, 0⟩ (List.replicate 5 .turn)).2 rfl (by decide)

end SphereWare.EndpointStream
