import SphereWare.Properties.StreamTurns

/-!
# What a stream read does

The firmware's model takes a stream read in one step, `readBytes`. Turn by turn, with the host
sending packets, the results of the call are exactly those of `readBytes`.
-/

namespace SphereWare.EndpointStream

open Call

/-! ## What is left of the read -/

/-- The rest of the read, from the bank that is there, with the packets still to come. -/
def readRest (n : Nat) : Option (List UInt8) → List (List UInt8) → StreamRead
  | some bank, later => readBytes n bank later
  | none, [] => ⟨[], none, 0, false⟩
  | none, packet :: later => readBytes n packet later

/-- What the call has done so far, and then `r`. -/
def OutEndpoint.followed (e : OutEndpoint) (r : StreamRead) : StreamRead :=
  ⟨e.data ++ r.data, r.bank, e.cleared + r.cleared, r.complete⟩

/-- The result of a call that has returned. -/
def OutEndpoint.result (e : OutEndpoint) (code : ErrorCode) : StreamRead :=
  ⟨e.data, e.bank, e.cleared, decide (code = .noError)⟩

theorem readBytes_of_le {n : Nat} {bank : List UInt8} (h : n ≤ bank.length)
    (later : List (List UInt8)) :
    readBytes n bank later = ⟨bank.take n, some (bank.drop n), 0, true⟩ := by
  cases later with
  | nil => rw [readBytes, if_pos h]
  | cons packet later => rw [readBytes, if_pos h]

theorem readBytes_of_lt {n : Nat} {bank : List UInt8} (h : bank.length < n)
    (later : List (List UInt8)) :
    readBytes n bank later = (⟨none, bank, 1, []⟩ : OutEndpoint).followed
      (readRest (n - bank.length) none later) := by
  cases later with
  | nil =>
    rw [readBytes, if_neg (Nat.not_le.mpr h)]
    simp only [readRest, OutEndpoint.followed, List.append_nil]
  | cons packet later =>
    rw [readBytes, if_neg (Nat.not_le.mpr h), readRest, OutEndpoint.followed, Nat.add_comm 1]

/-- The bank ran empty. -/
theorem followed_clearOUT {e : OutEndpoint} {n : Nat} (hn : 0 < n) (later : List (List UInt8)) :
    e.followed (readRest n (some []) later) = e.clearOUT.followed (readRest n none later) := by
  rw [readRest, readBytes_of_lt hn, List.length_nil, Nat.sub_zero, OutEndpoint.clearOUT]
  simp only [OutEndpoint.followed, List.nil_append, Nat.add_assoc]

/-- A byte is read. -/
theorem followed_read8 {e : OutEndpoint} {b : UInt8} {bs : List UInt8}
    (he : e.bank = some (b :: bs)) (n : Nat) (later : List (List UInt8)) :
    e.followed (readRest (n + 1) (some (b :: bs)) later)
      = e.read8.followed (readRest n (some bs) later) := by
  have hread : e.read8 = { e with bank := some bs, data := e.data ++ [b] } := by
    rw [OutEndpoint.read8, he]
  rw [hread, readRest, readRest]
  by_cases h : n ≤ bs.length
  · rw [readBytes_of_le h, readBytes_of_le (by simpa using h)]
    simp [OutEndpoint.followed]
  · rw [readBytes_of_lt (Nat.not_le.mp h),
      readBytes_of_lt (by simpa using Nat.not_le.mp h : (b :: bs).length < n + 1),
      List.length_cons, Nat.add_sub_add_right]
    simp [OutEndpoint.followed]

/-! ## The call reads on -/

/-- With `length` bytes left, `readBytes` is what the call has done and is still to do. -/
def ReadsOn (n : Nat) (bank : List UInt8) (length : Nat) (e : OutEndpoint) : Prop :=
  ∀ later, readBytes n bank (e.arrived ++ later) = e.followed (readRest length e.bank later)

/-- The call is on its way to the result of `readBytes`. -/
def Reads (n : Nat) (bank : List UInt8) (c : Call OutEndpoint) : Prop :=
  match c.progress with
  | .entering length | .waiting length _ _ => ReadsOn n bank length c.endpoint
  | .looping length => c.endpoint.bank.isSome = true ∧ ReadsOn n bank length c.endpoint
  | .serving length =>
    -- also when the packet that has come is thrown away
    ReadsOn n bank length c.endpoint ∧ ReadsOn n bank length c.endpoint.reset
  | .returned code => readBytes n bank c.endpoint.arrived = c.endpoint.result code

variable {n length : Nat} {bank : List UInt8} {c : Call OutEndpoint} {e : OutEndpoint}

theorem reads_start (n : Nat) (bank : List UInt8) (bus : Bus) :
    Reads n bank (start n (.ofBank bank) bus) := by
  intro later
  simp [start, OutEndpoint.ofBank, OutEndpoint.followed, readRest]

/-- The wait has failed. -/
theorem ReadsOn.failed (h : ReadsOn n bank length e) {code : ErrorCode} (hcode : code ≠ .noError)
    (hready : ¬e.bank.isSome = true) : readBytes n bank e.arrived = e.result code := by
  have hnone : e.bank = none := by simpa using hready
  have hnow := h []
  rw [List.append_nil, hnone, readRest] at hnow
  simp [hnow, OutEndpoint.followed, OutEndpoint.result, hnone, hcode]

/-- There is nothing left to read. -/
theorem ReadsOn.complete (h : ReadsOn n bank 0 e) {left : List UInt8} (hbank : e.bank = some left) :
    readBytes n bank e.arrived = e.result .noError := by
  have hnow := h []
  rw [List.append_nil, hbank, readRest, readBytes_of_le (Nat.zero_le _)] at hnow
  simp [hnow, OutEndpoint.followed, OutEndpoint.result, hbank]

theorem Reads.turn (h : Reads n bank c) : Reads n bank (c.step readStream .send .turn) := by
  obtain ⟨progress, e, bus⟩ := c
  cases progress with
  | entering length => exact h
  | waiting length rem previous =>
    have hrest : ReadsOn n bank length e := h
    simp only [step, EndpointStream.turn]
    split_ifs with hready
    · exact ⟨hready, hrest⟩
    · exact hrest.failed (by decide) hready
    · exact hrest.failed (by decide) hready
    · exact hrest.failed (by decide) hready
    · exact hrest
    · exact hrest.failed (by decide) hready
    · exact hrest
  | looping length =>
    obtain ⟨hsome, hrest⟩ : e.bank.isSome = true ∧ ReadsOn n bank length e := h
    obtain ⟨left, hbank⟩ := Option.isSome_iff_exists.mp hsome
    cases length with
    | zero => exact hrest.complete hbank
    | succ length =>
      cases left with
      | nil =>
        have hallowed : ¬readStream.readWriteAllowed e = true := by
          simp [readStream, OutEndpoint.readWriteAllowed, hbank]
        have hcleared : ReadsOn n bank (length + 1) e.clearOUT := by
          intro later
          change readBytes n bank (e.arrived ++ later)
            = e.clearOUT.followed (readRest (length + 1) none later)
          rw [← followed_clearOUT (Nat.succ_pos length), ← hbank]
          exact hrest later
        simp only [step, EndpointStream.turn, if_neg hallowed]
        exact ⟨hcleared, hcleared⟩
      | cons b bs =>
        have hallowed : readStream.readWriteAllowed e = true := by
          simp [readStream, OutEndpoint.readWriteAllowed, hbank]
        have hread : e.read8.bank = some bs ∧ e.read8.arrived = e.arrived := by
          simp [OutEndpoint.read8, hbank]
        simp only [step, EndpointStream.turn, if_pos hallowed]
        refine ⟨hread.1 ▸ rfl, fun later => ?_⟩
        change readBytes n bank (e.read8.arrived ++ later)
          = e.read8.followed (readRest length e.read8.bank later)
        rw [hread.1, hread.2, ← followed_read8 hbank, ← hbank]
        exact hrest later
  | serving length => exact h.1
  | returned code => exact h

theorem ReadsOn.send (h : ReadsOn n bank length e) (packet : List UInt8) :
    ReadsOn n bank length (e.send packet) := by
  intro later
  unfold OutEndpoint.send
  split
  · exact h later
  · next hready =>
    have hnone : e.bank = none := by simpa using hready
    have hnext := h (packet :: later)
    rw [hnone] at hnext
    rw [List.append_assoc]
    exact hnext

theorem reset_bank (e : OutEndpoint) : e.reset.bank = none := by
  unfold OutEndpoint.reset
  split
  · rfl
  · next hnone => simpa using hnone

theorem reset_reset (e : OutEndpoint) : e.reset.reset = e.reset :=
  if_neg (by rw [reset_bank]; decide)

/-- What the host sends to a free bank is what a reset throws away. -/
theorem reset_send (e : OutEndpoint) (packet : List UInt8) : (e.send packet).reset = e.reset := by
  obtain ⟨bank, data, cleared, arrived⟩ := e
  cases bank with
  | some left => rfl
  | none => simp [OutEndpoint.send, OutEndpoint.reset]

theorem Reads.reset (h : Reads n bank c) : Reads n bank (c.step readStream .send .reset) := by
  obtain ⟨progress, e, bus⟩ := c
  cases progress with
  | serving length =>
    have hreset : ReadsOn n bank length e.reset := h.2
    exact ⟨hreset, (reset_reset e).symm ▸ hreset⟩
  | _ => exact h

theorem Reads.step (h : Reads n bank c) (event : Event (List UInt8)) :
    Reads n bank (c.step readStream .send event) := by
  cases event with
  | turn => exact h.turn
  | host packet =>
    obtain ⟨progress, e, bus⟩ := c
    cases progress with
    | entering length => exact ReadsOn.send h packet
    | waiting length rem previous => exact ReadsOn.send h packet
    | looping length =>
      obtain ⟨hsome, hrest⟩ : e.bank.isSome = true ∧ ReadsOn n bank length e := h
      have hsend : (e.send packet).bank.isSome = true := by rwa [OutEndpoint.send, if_pos hsome]
      exact ⟨hsend, hrest.send packet⟩
    | serving length =>
      obtain ⟨hrest, hreset⟩ : ReadsOn n bank length e ∧ ReadsOn n bank length e.reset := h
      exact ⟨hrest.send packet, (reset_send e packet).symm ▸ hreset⟩
    | returned code => exact h
  | frame => exact h
  | bus state => exact h
  | stall stalled => exact h
  | reset => exact h.reset

theorem Reads.run (h : Reads n bank c) (es : List (Event (List UInt8))) :
    Reads n bank (c.run readStream .send es) :=
  List.foldlRecOn es _ h fun _ h e _ => h.step e

/-! ## The call returns -/

theorem readStream_fair : readStream.Fair OutEndpoint.send List.isEmpty where
  allowed e h := by
    change e.bank.isSome = true
    change e.readWriteAllowed = true at h
    unfold OutEndpoint.readWriteAllowed at h
    split at h
    · next hbank => rw [hbank]; rfl
    · cases h
  clear e := rfl
  ready e packet h := if_pos h
  work e packet hblank _ hready := by
    obtain ⟨b, bs, rfl⟩ : ∃ b bs, packet = b :: bs := by
      cases packet with
      | nil => cases hblank
      | cons b bs => exact ⟨b, bs, rfl⟩
    have hsend : e.send (b :: bs)
        = { e with bank := some (b :: bs), arrived := e.arrived ++ [b :: bs] } :=
      if_neg (Bool.eq_false_iff.mp hready)
    change (e.send (b :: bs)).readWriteAllowed = true
    rw [hsend]
    rfl
  reset e h := by
    change e.reset.bank.isSome = true at h
    rw [reset_bank] at h
    cases h

/-- The packets the host sends, whether or not the endpoint takes them. -/
def packets (es : List (Event (List UInt8))) : List (List UInt8) :=
  es.filterMap fun
    | .host packet => some packet
    | _ => none

theorem sum_cost (es : List (Event (List UInt8))) :
    (es.map (cost List.isEmpty)).sum = 104 * (packets es).count [] := by
  induction es with
  | nil => rfl
  | cons e es ih =>
    rw [List.map_cons, List.sum_cons, ih]
    cases e with
    | host packet =>
      change _ = 104 * (packet :: packets es).count []
      cases packet with
      | nil => rw [List.count_cons_self, Nat.mul_succ, Nat.add_comm]; rfl
      | cons b bs => rw [List.count_cons_of_ne (by simp)]; exact Nat.zero_add _
    | _ => exact Nat.zero_add _

/--
**A stream read returns.** Between the looks the function takes at the endpoint right before and
right after the beginning of a frame, anything may happen, control requests included. It takes 105
such frames for each byte at the most, and 104 more for each packet without data. Frames that begin
while a control request is answered are not among them.
-/
theorem read_returns (n : Nat) (bank : List UInt8) (bus : Bus)
    {parts : List (List (Event (List UInt8)))}
    (hlong : 105 * n + 104 * (1 + (bank :: packets parts.flatten).count []) ≤ parts.length) :
    ∃ code, ((start n (.ofBank bank) bus).run readStream .send (rounds parts)).progress
      = .returned code := by
  refine returned_of_rounds readStream_fair ?_
  rw [sum_cost, toGo_start]
  cases bank with
  | nil =>
    have hdebt : readStream.debt (.ofBank []) = 104 := rfl
    rw [List.count_cons_self] at hlong
    omega
  | cons b bs =>
    have hdebt : readStream.debt (.ofBank (b :: bs)) = 0 := rfl
    rw [List.count_cons_of_ne (by simp)] at hlong
    omega

/-! ## Every result of `readBytes` -/

theorem readBytes_append {n : Nat} {bank : List UInt8} {l : List (List UInt8)}
    (h : (readBytes n bank l).complete = true) (later : List (List UInt8)) :
    readBytes n bank (l ++ later) = readBytes n bank l := by
  induction l generalizing n bank with
  | nil =>
    by_cases hle : n ≤ bank.length
    · rw [readBytes_of_le hle, readBytes_of_le hle]
    · rw [readBytes, if_neg hle] at h
      cases h
  | cons packet l ih =>
    by_cases hle : n ≤ bank.length
    · rw [readBytes_of_le hle, readBytes_of_le hle]
    · rw [readBytes, if_neg hle] at h
      rw [List.cons_append, readBytes, if_neg hle, readBytes, if_neg hle, ih h]

/-- The call has read what there was. -/
def Settled (c : Call OutEndpoint) : Prop :=
  c.progress = .returned .noError ∨
    c.endpoint.bank = none ∧
      ∃ length rem, c.progress = .waiting length rem c.bus.frameNumber

theorem arrived_turn (c : Call OutEndpoint) :
    (c.step readStream .send .turn).endpoint.arrived = c.endpoint.arrived := by
  obtain ⟨progress, e, bus⟩ := c
  have hread : e.read8.arrived = e.arrived := by
    unfold OutEndpoint.read8
    split <;> rfl
  cases progress with
  | waiting length rem previous =>
    simp only [Call.step, EndpointStream.turn]
    split_ifs <;> rfl
  | looping length =>
    cases length with
    | zero => rfl
    | succ length =>
      simp only [Call.step, EndpointStream.turn]
      split
      · exact hread
      · rfl
  | _ => rfl

/-- Turns alone take the call to the end of what there is. -/
theorem settles (m : Nat) (hgo : c.toGo readStream ≤ m) (hcurrent : c.Current)
    (hgoing : ∀ code, c.progress ≠ .returned code) :
    ∃ k, let c' := c.run readStream .send (List.replicate k .turn)
      Settled c' ∧ c'.endpoint.arrived = c.endpoint.arrived ∧ c'.bus = c.bus := by
  induction m generalizing c with
  | zero =>
    have hpos := toGo_pos (T := readStream) hgoing
    omega
  | succ m ih =>
    have hturn (hless : (c.step readStream .send .turn).toGo readStream ≤ c.toGo readStream - 1)
        (hgoing : ∀ code, (c.step readStream .send .turn).progress ≠ .returned code) :
        ∃ k, let c' := c.run readStream .send (List.replicate k .turn)
          Settled c' ∧ c'.endpoint.arrived = c.endpoint.arrived ∧ c'.bus = c.bus := by
      obtain ⟨k, hsettled, harrived, hsame⟩ :=
        ih (by omega) (current_turn readStream .send c) hgoing
      exact ⟨k + 1, hsettled, harrived.trans (arrived_turn c), hsame⟩
    have hfresh (hnot : ∀ length rem previous, c.progress ≠ .waiting length rem previous) :
        (c.step readStream .send .turn).toGo readStream ≤ c.toGo readStream - 1 :=
      toGo_fresh readStream_fair fun length rem previous h => absurd h (hnot length rem previous)
    obtain ⟨progress, e, bus⟩ := c
    cases progress with
    | entering length => exact hturn (hfresh (by simp)) (by simp [Call.step, EndpointStream.turn])
    | waiting length rem previous =>
      obtain rfl : previous = bus.frameNumber := hcurrent length rem previous rfl
      by_cases hready : readStream.ready e = true
      · have hnext : Call.step readStream .send ⟨.waiting length rem bus.frameNumber, e, bus⟩ .turn
            = ⟨.looping length, e, bus⟩ := by
          simp only [Call.step, EndpointStream.turn, if_pos hready]
        rw [hnext] at hturn
        refine hturn ?_ (by simp)
        simp only [toGo, debt_of_ready hready]
        omega
      · have hnone : e.bank = none := by simpa [readStream] using hready
        exact ⟨0, .inr ⟨hnone, length, rem, rfl⟩, rfl, rfl⟩
    | looping length =>
      cases length with
      | zero => exact ⟨1, .inl rfl, rfl, rfl⟩
      | succ length =>
        refine hturn (hfresh (by simp)) fun code => ?_
        simp only [Call.step, EndpointStream.turn]
        split <;> simp
    | serving length => exact hturn (hfresh (by simp)) (by simp [Call.step, EndpointStream.turn])
    | returned code => exact absurd rfl (hgoing code)

/-- A wait to which nothing comes. -/
theorem arrived_rounds (c : Call OutEndpoint) (k : Nat) :
    (c.run readStream .send (rounds (List.replicate k []))).endpoint.arrived
      = c.endpoint.arrived := by
  induction k generalizing c with
  | zero => rfl
  | succ k ih =>
    have hpoll : (c.run readStream .send poll).endpoint.arrived = c.endpoint.arrived :=
      (arrived_turn _).trans (arrived_turn c)
    rw [List.replicate_succ, rounds, List.flatMap_cons, List.nil_append, run_append, ← hpoll]
    exact ih _

theorem Reads.result (h : Reads n bank c) {code : ErrorCode} (hcode : c.progress = .returned code) :
    readBytes n bank c.endpoint.arrived = c.endpoint.result code := by
  unfold Reads at h
  rwa [hcode] at h

/-- Whatever packets are to come, the host can send them. -/
theorem reaches (later : List (List UInt8)) (hreads : Reads n bank c) (hcurrent : c.Current)
    (hgoing : ∀ code, c.progress ≠ .returned code) :
    ∃ es code, let c' := c.run readStream .send es
      c'.progress = .returned code ∧
        c'.endpoint.result code = readBytes n bank (c.endpoint.arrived ++ later) := by
  induction later generalizing c with
  | nil =>
    let es : List (Event (List UInt8)) := rounds (List.replicate (c.toGo readStream) [])
    obtain ⟨code, hcode⟩ : ∃ code, (c.run readStream .send es).progress = .returned code :=
      returned_of_rounds readStream_fair (by simp)
    refine ⟨es, code, hcode, ?_⟩
    rw [← (hreads.run es).result hcode, arrived_rounds, List.append_nil]
  | cons packet later ih =>
    obtain ⟨k, hsettled, harrived, -⟩ := settles _ le_rfl hcurrent hgoing
    have hreads' := hreads.run (List.replicate k .turn)
    have hrun (es : List (Event (List UInt8))) :
        c.run readStream .send (List.replicate k .turn ++ es)
          = (c.run readStream .send (List.replicate k .turn)).run readStream .send es :=
      run_append c _ es
    generalize c.run readStream .send (List.replicate k .turn) = c' at *
    rcases hsettled with hreturned | ⟨hnone, length, rem, hwaiting⟩
    · -- the read is complete without the rest of the packets
      refine ⟨List.replicate k .turn ++ [], .noError, ?_⟩
      rw [hrun]
      have hresult := hreads'.result hreturned
      refine ⟨hreturned, ?_⟩
      rw [← harrived, readBytes_append (by rw [hresult]; rfl), hresult]
      rfl
    · obtain ⟨progress, e, bus⟩ := c'
      obtain rfl : progress = .waiting length rem bus.frameNumber := hwaiting
      have hsend : e.send packet
          = { e with bank := some packet, arrived := e.arrived ++ [packet] } :=
        if_neg (by rw [hnone]; simp)
      obtain ⟨es, code, hcode, hresult⟩ := ih (hreads'.step (.host packet))
        (fun _ _ _ h => (Progress.waiting.inj h).2.2.symm) nofun
      refine ⟨List.replicate k .turn ++ .host packet :: es, code, ?_⟩
      rw [hrun]
      refine ⟨hcode, hresult.trans ?_⟩
      change readBytes n bank ((e.send packet).arrived ++ later) = _
      rw [hsend, ← harrived, List.append_assoc]
      rfl

/--
**The results of a stream read.** Whatever the host, the bus and the clock do while the function
polls the endpoint or answers a control request, the bytes it has stored, the bank it leaves, the
number of packets it has cleared and whether it reports an error are those of `readBytes` for the
packets that have come and that no request has thrown away; and whatever packets are given, there is
such a call with the results of `readBytes` for them.
-/
theorem read_exact (n : Nat) (bank : List UInt8) (bus : Bus) :
    (∀ es code, let c := (start n (.ofBank bank) bus).run readStream .send es
      c.progress = .returned code →
        c.endpoint.result code = readBytes n bank c.endpoint.arrived) ∧
    ∀ later, ∃ es code, let c := (start n (.ofBank bank) bus).run readStream .send es
      c.progress = .returned code ∧ c.endpoint.result code = readBytes n bank later := by
  refine ⟨fun es code hcode => ?_, fun later => ?_⟩
  · exact (((reads_start n bank bus).run es).result hcode).symm
  · exact reaches later (reads_start n bank bus) nofun nofun

/-- A read of a byte from a packet without data, to which nothing comes. -/
theorem read_returns_nothing :
    ∃ code, ((start 1 (.ofBank []) ⟨.configured, false, 0⟩).run readStream .send
      (rounds (List.replicate 313 []))).progress = .returned code := by
  refine read_returns 1 [] ⟨.configured, false, 0⟩ ?_
  rw [List.flatten_replicate_nil, List.length_replicate]
  decide

end SphereWare.EndpointStream
