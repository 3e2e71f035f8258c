import HkKernel.Net.Tcp.Input

/-!
# The received byte stream

The peer sends a byte stream `S` and then a FIN. Its segments reach `tcp_rcv` in any order,
duplicated, lost or overlapping, each carrying the bytes of `S` from the offset its sequence
number says (`Consistent`); meanwhile the application reads the socket and may close its side.
A run (`Receiver.Step`) starts in Established with `RCV.NXT = IRS + 1`.

Data is delivered only in order, so the bytes the reads returned followed by the receive queue
are always the first `RCV.NXT - (IRS + 1)` bytes of `S`. A FIN, however, is accepted in
Established, FinWait1 and FinWait2 whatever its sequence number: it may arrive ahead of data
still missing, and then it ends the stream early.

* `stream_prefix`: along every run, the bytes delivered are `S` up to `RCV.NXT - (IRS + 1)`
  (one less once a FIN was accepted), and after a FIN nothing more is delivered;
* `fin_ahead_of_data`: a FIN carried after the one byte of `S` that has not arrived is
  accepted, and a read then returns end of file;
* `tcpRcv_duplicate`: outside SynSent, a segment taken twice changes nothing the second time,
  so a retransmitted segment delivers its data once. In SynSent it does not hold: the SYN-ACK
  that moves the connection to Established is taken again there as an acknowledgement, which
  trims the retransmit queue, and a FIN it carries is accepted only then.
-/

namespace HkKernel.Tcp

/-- `tcp_close`, for the states the input handlers continue from. Modelled from the spec:
    closing initiates the close of the local side, from Established to FinWait1 and from
    CloseWait to LastAck. -/
def Socket.close (s : Socket) : Socket :=
  match s.tcb.state with
  | .established => s.setState .finWait1
  | .closeWait => s.setState .lastAck
  | _ => s

/-- The bytes a call of `read` returned. -/
def readBytes : Option (Except FsError (List UInt8)) → List UInt8
  | some (.ok bytes) => bytes
  | _ => []

/-- The states in which `tcp_rcv` takes in data or a FIN. -/
def Receiving (st : TcpState) : Prop := st = .established ∨ st = .finWait1 ∨ st = .finWait2

instance (st : TcpState) : Decidable (Receiving st) := inferInstanceAs (Decidable (_ ∨ _))

section

variable (S : List UInt8) (irs : UInt32)

/-- A segment of the stream `S` sent after the initial sequence number `irs`: it carries the
    bytes of `S` from offset `seq - (irs + 1)`, and a FIN only if they end where `S` ends. -/
def Consistent (seg : Segment) : Prop :=
  (seg.seq - (irs + 1)).toNat + seg.payload.length ≤ S.length ∧
  seg.payload = (S.drop (seg.seq - (irs + 1)).toNat).take seg.payload.length ∧
  (seg.fin = true → (seg.seq - (irs + 1)).toNat + seg.payload.length = S.length)

/-- The receiving side: the socket, and the bytes its reads have returned so far. -/
structure Receiver where
  sock : Socket
  consumed : List UInt8

/-- What a receiver has been delivered: the bytes read and those still queued. -/
def Receiver.delivered (r : Receiver) : List UInt8 := r.consumed ++ r.sock.rxBuffer

@[simp]
theorem Receiver.delivered_mk (s : Socket) (c : List UInt8) :
    Receiver.delivered ⟨s, c⟩ = c ++ s.rxBuffer := rfl

/-- One event: a segment of `S` arrives, the application reads, or it closes its side. -/
inductive Receiver.Step : Receiver → Receiver → Prop
  | rcv (r : Receiver) (seg : Segment) (h : Consistent S irs seg) :
      Receiver.Step r ⟨tcpRcv r.sock seg, r.consumed⟩
  | read (r : Receiver) (bufLen : Nat) (nonblock : Bool) :
      Receiver.Step r ⟨(r.sock.read bufLen nonblock).1,
        r.consumed ++ readBytes (r.sock.read bufLen nonblock).2⟩
  | close (r : Receiver) : Receiver.Step r ⟨r.sock.close, r.consumed⟩

/-- Established with `IRS = irs` and `RCV.NXT = IRS + 1`, nothing received or read. -/
def Receiver.Start (r : Receiver) : Prop :=
  r.sock.tcb.state = .established ∧ r.sock.tcb.irs = irs ∧ r.sock.tcb.rcvNxt = irs + 1 ∧
    r.sock.rxBuffer = [] ∧ r.sock.eof = false ∧ r.consumed = []

/-- How much of `S` has been taken in: `RCV.NXT - (IRS + 1)`, less the FIN once EOF is
    set. -/
def offset (r : Receiver) : Nat :=
  (r.sock.tcb.rcvNxt - (irs + 1) - if r.sock.eof then 1 else 0).toNat

/-- The invariant of a run: what was delivered is `S` up to the offset; the connection never
    goes back to SynSent; and a state that takes in data has no EOF yet. -/
structure Receiver.Inv (r : Receiver) : Prop where
  stream : r.delivered = S.take (offset irs r)
  offset_le : offset irs r ≤ S.length
  not_synSent : r.sock.tcb.state ≠ .synSent
  eof_false : Receiving r.sock.tcb.state → r.sock.eof = false

/-! ## What a step does to the receiving side -/

/-- The receiving side of a socket: its state, `RCV.NXT`, receive queue and EOF flag. -/
def Socket.recv (s : Socket) : TcpState × UInt32 × List UInt8 × Bool :=
  (s.tcb.state, s.tcb.rcvNxt, s.rxBuffer, s.eof)

theorem recv_setError (s : Socket) (e : Int) : (s.setError e).recv = s.recv := rfl

theorem state_of_recv_eq {s s' : Socket} (he : s'.recv = s.recv) : s'.tcb.state = s.tcb.state :=
  congrArg Prod.fst he

theorem recv_ackEstablished (s : Socket) (seg : Segment) : (ackEstablished s seg).recv = s.recv := by
  unfold ackEstablished; dsimp only; split_ifs <;> rfl

theorem recv_dataEstablished_of_ne {s : Socket} {seg : Segment} (h : seg.seq ≠ s.tcb.rcvNxt) :
    (dataEstablished s seg).recv = s.recv := by
  unfold dataEstablished; dsimp only
  rw [if_neg h]; split_ifs <;> rfl

theorem dataEstablished_of_eq {s : Socket} {seg : Segment} (h : seg.seq = s.tcb.rcvNxt) :
    dataEstablished s seg =
      (s.deliverData seg.payload).setRcvNxt (s.tcb.rcvNxt + UInt32.ofNat seg.payload.length) := by
  simp [dataEstablished, h]

/-- A read moves bytes from the front of the receive queue to the caller, and changes neither
    the TCB nor the EOF flag. -/
theorem read_recv (s : Socket) (n : Nat) (nb : Bool) :
    (s.read n nb).1.tcb = s.tcb ∧ (s.read n nb).1.eof = s.eof ∧
      readBytes (s.read n nb).2 ++ (s.read n nb).1.rxBuffer = s.rxBuffer := by
  unfold Socket.read; dsimp only
  split_ifs <;> simp [readBytes]

variable {S : List UInt8} {irs : UInt32} {s s' : Socket} {c : List UInt8}

namespace Receiver.Inv

/-- The invariant only looks at the receiving side. -/
theorem of_recv_eq (h : Receiver.Inv S irs ⟨s, c⟩) (he : s'.recv = s.recv) :
    Receiver.Inv S irs ⟨s', c⟩ := by
  simp only [Socket.recv, Prod.mk.injEq] at he
  obtain ⟨hst, hn, hrx, heof⟩ := he
  have hoff : offset irs ⟨s', c⟩ = offset irs ⟨s, c⟩ := by simp only [offset, hn, heof]
  exact ⟨by rw [hoff, Receiver.delivered_mk, hrx]; exact h.stream, hoff ▸ h.offset_le, hst ▸ h.not_synSent,
    fun hr => heof ▸ h.eof_false (hst ▸ hr)⟩

/-- A change of state that does not start taking in data. -/
theorem setState (h : Receiver.Inv S irs ⟨s, c⟩) {st : TcpState} (hst : st ≠ .synSent)
    (hr : Receiving st → Receiving s.tcb.state) : Receiver.Inv S irs ⟨s.setState st, c⟩ :=
  have hoff : offset irs ⟨s.setState st, c⟩ = offset irs ⟨s, c⟩ := rfl
  ⟨hoff ▸ h.stream, hoff ▸ h.offset_le, hst, fun h' => h.eof_false (hr h')⟩

/-- A change of state to one that takes in nothing. -/
theorem leave (h : Receiver.Inv S irs ⟨s, c⟩) {st : TcpState}
    (hst : ¬Receiving st ∧ st ≠ .synSent) : Receiver.Inv S irs ⟨s.setState st, c⟩ :=
  h.setState hst.2 fun h' => absurd h' hst.1

/-- In-order data extends the delivered prefix of `S` by itself. -/
theorem deliver (hS : S.length < 2 ^ 31) (h : Receiver.Inv S irs ⟨s, c⟩)
    (hst : s.tcb.state = .established) {seg : Segment} (hseq : seg.seq = s.tcb.rcvNxt)
    (hc : Consistent S irs seg) :
    Receiver.Inv S irs
      ⟨(s.deliverData seg.payload).setRcvNxt (s.tcb.rcvNxt + UInt32.ofNat seg.payload.length), c⟩ := by
  have heof : s.eof = false := h.eof_false (.inl hst)
  obtain ⟨hle, hpay, -⟩ := hc
  rw [hseq] at hle hpay
  have hk : offset irs ⟨s, c⟩ = (s.tcb.rcvNxt - (irs + 1)).toNat := by
    simp [offset, heof, U32.sub_zero]
  -- No wrap: the offset stays below `|S| < 2^31`.
  have hoff : offset irs ⟨(s.deliverData seg.payload).setRcvNxt
      (s.tcb.rcvNxt + UInt32.ofNat seg.payload.length), c⟩ =
      offset irs ⟨s, c⟩ + seg.payload.length := by
    rw [hk]
    simp only [offset, Socket.setRcvNxt_tcb_rcvNxt, Socket.setRcvNxt_eof, Socket.deliverData_eof,
      heof, Bool.false_eq_true, if_false, U32.sub_zero]
    exact U32.toNat_add_ofNat_sub (by omega)
  refine ⟨?_, by rw [hoff, hk]; omega, by simp [hst], fun _ => by simpa using heof⟩
  rw [hoff, List.take_add, ← h.stream, hk, ← hpay]
  simp

/-- Accepting a FIN: `RCV.NXT` passes it, EOF is set, and the delivered prefix stays. -/
theorem fin (h : Receiver.Inv S irs ⟨s, c⟩) (hr : Receiving s.tcb.state) {st : TcpState}
    (hst : ¬Receiving st ∧ st ≠ .synSent) :
    Receiver.Inv S irs ⟨((s.setRcvNxt (s.tcb.rcvNxt + 1)).setState st).setEof, c⟩ := by
  have heof : s.eof = false := h.eof_false hr
  have hoff : offset irs ⟨((s.setRcvNxt (s.tcb.rcvNxt + 1)).setState st).setEof, c⟩ =
      offset irs ⟨s, c⟩ := by
    simp only [offset, Socket.setEof_tcb, Socket.setState_tcb_rcvNxt,
      Socket.setRcvNxt_tcb_rcvNxt, Socket.setEof_eof, heof, if_true, Bool.false_eq_true, if_false,
      U32.add_one_sub_sub_one, U32.sub_zero]
  exact ⟨by rw [hoff]; exact h.stream, hoff ▸ h.offset_le, by simpa using hst.2,
    fun h' => absurd (by simpa using h') hst.1⟩

/-- Established: the acknowledgement leaves the receiving side alone, in-order data extends
    the prefix, and a FIN ends the stream where it stands. -/
theorem established (hS : S.length < 2 ^ 31) (h : Receiver.Inv S irs ⟨s, c⟩)
    (hst : s.tcb.state = .established) {seg : Segment} (hc : Consistent S irs seg) :
    Receiver.Inv S irs ⟨processEstablished s seg, c⟩ := by
  unfold processEstablished
  by_cases hrst : seg.rst = true
  · rw [if_pos hrst]
    exact (h.leave (by decide)).of_recv_eq (recv_setError _ _)
  rw [if_neg hrst]; dsimp only
  generalize hs1 : (if seg.ack = true then ackEstablished s seg else s) = s1
  have h1 : s1.recv = s.recv := by subst hs1; split_ifs <;> simp [recv_ackEstablished]
  have hst1 : s1.tcb.state = .established := (state_of_recv_eq h1).trans hst
  generalize hs2 : (if seg.payload.isEmpty then s1 else dataEstablished s1 seg) = s2
  -- After the data, the connection is still established.
  have h2 : Receiver.Inv S irs ⟨s2, c⟩ ∧ s2.tcb.state = .established := by
    subst hs2
    split_ifs
    · exact ⟨h.of_recv_eq h1, hst1⟩
    by_cases hseq : seg.seq = s1.tcb.rcvNxt
    · rw [dataEstablished_of_eq hseq]
      exact ⟨(h.of_recv_eq h1).deliver hS hst1 hseq hc, by simp [hst1]⟩
    · have h2 := recv_dataEstablished_of_ne hseq
      exact ⟨(h.of_recv_eq h1).of_recv_eq h2, (state_of_recv_eq h2).trans hst1⟩
  split_ifs
  · exact h2.1.fin (.inl h2.2) (by decide)
  · exact h2.1

/-- FinWait1: data is ignored, and a FIN is accepted from FinWait1 or, once our FIN is
    acknowledged, from FinWait2. -/
theorem finWait1 (h : Receiver.Inv S irs ⟨s, c⟩) (hst : s.tcb.state = .finWait1) (seg : Segment) :
    Receiver.Inv S irs ⟨processFinWait1 s seg, c⟩ := by
  unfold processFinWait1
  by_cases hrst : seg.rst = true
  · rw [if_pos hrst]
    exact h.leave (by decide)
  rw [if_neg hrst]; dsimp only
  generalize hs1 : (if seg.ack = true ∧ seg.ackSeq = s.tcb.sndNxt then s.setState .finWait2
    else s) = s1
  have h1 : Receiver.Inv S irs ⟨s1, c⟩ ∧ Receiving s1.tcb.state := by
    subst hs1
    split_ifs
    · exact ⟨h.setState (by decide) fun _ => .inr (.inl hst), by simp [Receiving]⟩
    · exact ⟨h, .inr (.inl hst)⟩
  by_cases hfin : seg.fin = true
  · rw [if_pos hfin]
    exact h1.1.fin h1.2 (by split_ifs <;> decide)
  · rw [if_neg hfin]
    exact h1.1

/-- The receiving side of one call of `tcp_rcv`. -/
theorem rcv (hS : S.length < 2 ^ 31) (h : Receiver.Inv S irs ⟨s, c⟩) {seg : Segment}
    (hc : Consistent S irs seg) : Receiver.Inv S irs ⟨tcpRcv s seg, c⟩ := by
  unfold tcpRcv
  split
  case h_1 hst => exact absurd hst h.not_synSent
  case h_2 hst => exact h.established hS hst hc
  case h_3 hst => exact h.finWait1 hst seg
  case h_4 hst =>
    unfold processFinWait2; split_ifs
    exacts [h.fin (.inr (.inr hst)) (by decide), h]
  case h_5 =>
    unfold processCloseWait; split_ifs
    exacts [h.leave (by decide), h]
  case h_6 =>
    unfold processLastAck; split_ifs
    exacts [h.leave (by decide), h]
  case h_7 => exact h

/-- A read moves bytes from the receive queue to what was read. -/
theorem read (h : Receiver.Inv S irs ⟨s, c⟩) (n : Nat) (nb : Bool) :
    Receiver.Inv S irs ⟨(s.read n nb).1, c ++ readBytes (s.read n nb).2⟩ := by
  obtain ⟨htcb, heof, hrx⟩ := read_recv s n nb
  have hoff : offset irs ⟨(s.read n nb).1, c ++ readBytes (s.read n nb).2⟩ = offset irs ⟨s, c⟩ := by
    simp only [offset, htcb, heof]
  refine ⟨?_, hoff ▸ h.offset_le, by rw [htcb]; exact h.not_synSent,
    fun hr => by rw [heof]; exact h.eof_false (htcb ▸ hr)⟩
  rw [hoff, Receiver.delivered_mk, List.append_assoc, hrx]
  exact h.stream

/-- Closing the local side keeps taking in data in FinWait1. -/
theorem close (h : Receiver.Inv S irs ⟨s, c⟩) : Receiver.Inv S irs ⟨s.close, c⟩ := by
  unfold Socket.close
  split
  case h_1 hst => exact h.setState (by decide) fun _ => .inl hst
  case h_2 => exact h.leave (by decide)
  case h_3 => exact h

theorem step (hS : S.length < 2 ^ 31) {r r' : Receiver} (h : Receiver.Inv S irs r)
    (hs : Receiver.Step S irs r r') : Receiver.Inv S irs r' := by
  cases hs with
  | rcv seg hc => exact h.rcv hS hc
  | read n nb => exact h.read n nb
  | close => exact h.close

/-- Every state a run reaches satisfies the invariant. -/
theorem run (hS : S.length < 2 ^ 31) {r r' : Receiver} (h : Receiver.Inv S irs r)
    (hrun : Relation.ReflTransGen (Receiver.Step S irs) r r') : Receiver.Inv S irs r' := by
  induction hrun with
  | refl => exact h
  | tail _ hs ih => exact ih.step hS hs

/-- At the start nothing is delivered and the offset is `0`. -/
theorem start {r : Receiver} (hr : Receiver.Start irs r) : Receiver.Inv S irs r := by
  obtain ⟨hst, -, hn, hrx, heof, hc⟩ := hr
  have hoff : offset irs r = 0 := by simp [offset, hn, heof, U32.sub_zero]
  exact ⟨by simp [Receiver.delivered, hoff, hrx, hc], by omega, by simp [hst], fun _ => heof⟩

end Receiver.Inv

/-! ## After a FIN -/

/-- In a state that takes in nothing, `tcp_rcv` leaves the receive queue and EOF alone. -/
theorem tcpRcv_of_not_receiving {s : Socket} (seg : Segment) (hnr : ¬Receiving s.tcb.state) :
    (tcpRcv s seg).rxBuffer = s.rxBuffer ∧ (tcpRcv s seg).eof = s.eof := by
  unfold tcpRcv
  split
  case h_1 => unfold processSynSent; split_ifs <;> simp
  case h_2 hst => exact absurd (.inl hst) hnr
  case h_3 hst => exact absurd (.inr (.inl hst)) hnr
  case h_4 hst => exact absurd (.inr (.inr hst)) hnr
  case h_5 => unfold processCloseWait; split_ifs <;> simp
  case h_6 => unfold processLastAck; split_ifs <;> simp
  case h_7 => simp

theorem close_rxBuffer_eof (s : Socket) : s.close.rxBuffer = s.rxBuffer ∧ s.close.eof = s.eof := by
  unfold Socket.close; split <;> simp

/-- Once EOF is set, a step keeps it and delivers nothing more. -/
theorem Receiver.Inv.frozen_step {r r' : Receiver} (h : Receiver.Inv S irs r)
    (heof : r.sock.eof = true) (hs : Receiver.Step S irs r r') :
    r'.sock.eof = true ∧ r'.delivered = r.delivered := by
  have hnr : ¬Receiving r.sock.tcb.state := fun hr => by simp [h.eof_false hr] at heof
  cases hs with
  | rcv seg _ =>
    obtain ⟨hrx, he⟩ := tcpRcv_of_not_receiving seg hnr
    exact ⟨he ▸ heof, by simp only [Receiver.delivered, hrx]⟩
  | read n nb =>
    obtain ⟨-, he, hrx⟩ := read_recv r.sock n nb
    exact ⟨he ▸ heof, by simp only [Receiver.delivered, List.append_assoc, hrx]⟩
  | close =>
    obtain ⟨hrx, he⟩ := close_rxBuffer_eof r.sock
    exact ⟨he ▸ heof, by simp only [Receiver.delivered, hrx]⟩

theorem Receiver.Inv.frozen_run (hS : S.length < 2 ^ 31) {r r' : Receiver}
    (h : Receiver.Inv S irs r) (heof : r.sock.eof = true)
    (hrun : Relation.ReflTransGen (Receiver.Step S irs) r r') :
    r'.sock.eof = true ∧ r'.delivered = r.delivered := by
  induction hrun with
  | refl => exact ⟨heof, rfl⟩
  | tail hab hs ih =>
    obtain ⟨he, hd⟩ := (h.run hS hab).frozen_step ih.1 hs
    exact ⟨he, hd.trans ih.2⟩

end

/-! ## The stream a reader sees -/

/-- Along every run from Established with `RCV.NXT = IRS + 1`, what was delivered (read, then
    queued) is `S` up to the offset `RCV.NXT - (IRS + 1)`, one less once a FIN was accepted;
    and once EOF is set nothing more is delivered. -/
theorem stream_prefix {S : List UInt8} {irs : UInt32} (hS : S.length < 2 ^ 31)
    {r r' : Receiver} (hr : Receiver.Start irs r)
    (hrun : Relation.ReflTransGen (Receiver.Step S irs) r r') :
    r'.delivered = S.take (offset irs r') ∧ offset irs r' ≤ S.length ∧
      ∀ r'', r'.sock.eof = true → Relation.ReflTransGen (Receiver.Step S irs) r' r'' →
        r''.sock.eof = true ∧ r''.delivered = r'.delivered := by
  have h := (Receiver.Inv.start hr).run hS hrun
  exact ⟨h.stream, h.offset_le, fun _ heof hrun' => h.frozen_run hS heof hrun'⟩

/-- A connection established with `IRS = 0` and nothing received. -/
def startSocket : Socket := ⟨⟨.established, 0, 1, 0, 0, 0, [], fun _ => none⟩, [], false, 0⟩

/-- The one byte `0x41` of the stream `[0x41]`. -/
def firstByte : Segment := ⟨false, false, false, false, 1, 0, 0, [0x41]⟩

theorem stream_prefix_firstByte :
    ([0x41] : List UInt8).length < 2 ^ 31 ∧ Receiver.Start 0 ⟨startSocket, []⟩ ∧
      Relation.ReflTransGen (Receiver.Step [0x41] 0) ⟨startSocket, []⟩
        ⟨tcpRcv startSocket firstByte, []⟩ ∧
      let r' : Receiver := ⟨tcpRcv startSocket firstByte, []⟩
      r'.delivered = [0x41].take (offset 0 r') ∧ offset 0 r' ≤ 1 ∧
        ∀ r'', r'.sock.eof = true → Relation.ReflTransGen (Receiver.Step [0x41] 0) r' r'' →
          r''.sock.eof = true ∧ r''.delivered = r'.delivered :=
  have hr : Receiver.Start 0 ⟨startSocket, []⟩ := ⟨rfl, rfl, rfl, rfl, rfl, rfl⟩
  have hrun : Relation.ReflTransGen (Receiver.Step [0x41] 0) ⟨startSocket, []⟩
      ⟨tcpRcv startSocket firstByte, []⟩ :=
    .single (.rcv _ _ (by unfold Consistent; decide))
  ⟨by decide, hr, hrun, stream_prefix (by decide) hr hrun⟩

/-- The FIN of the stream `[0x41]`, at sequence number `2`, after the byte not yet arrived. -/
def finSegment : Segment := ⟨false, false, false, true, 2, 0, 0, []⟩

/-- From the start, the FIN is accepted although the byte before it is missing: `RCV.NXT`
    passes it, the connection moves to CloseWait with EOF set and nothing delivered, and a
    read returns end of file. -/
theorem fin_ahead_of_data :
    Receiver.Start 0 ⟨startSocket, []⟩ ∧ Consistent [0x41] 0 finSegment ∧
      (tcpRcv startSocket finSegment).recv = (.closeWait, 2, [], true) ∧
      ((tcpRcv startSocket finSegment).read 4096 false).2 = some (.ok []) :=
  ⟨⟨rfl, rfl, rfl, rfl, rfl, rfl⟩, by unfold Consistent; decide, rfl, rfl⟩

/-! ## Duplicate segments -/

theorem ackEstablished_idem (s : Socket) (seg : Segment) :
    ackEstablished (ackEstablished s seg) seg = ackEstablished s seg := by
  unfold ackEstablished
  dsimp only
  split_ifs with h h'
  · simp [List.filter_filter]
  · exact absurd (by simp [U32.le_iff]) h'
  · rfl

theorem ackEstablished_dataEstablished (s : Socket) (seg seg' : Segment) :
    ackEstablished (dataEstablished s seg) seg' = dataEstablished (ackEstablished s seg') seg := by
  unfold ackEstablished dataEstablished
  dsimp only [Socket.setRcvNxt, Socket.deliverData]
  split_ifs <;> rfl

theorem dataEstablished_idem {s : Socket} {seg : Segment} (hne : seg.payload ≠ [])
    (hlen : seg.payload.length ≤ 2 ^ 31) :
    dataEstablished (dataEstablished s seg) seg = dataEstablished s seg := by
  have hn : 0 < seg.payload.length := List.length_pos.2 hne
  unfold dataEstablished
  dsimp only
  by_cases h0 : seg.seq = s.tcb.rcvNxt
  · have := U32.toNat_lt s.tcb.rcvNxt
    -- In-order data moves `RCV.NXT` past the segment, which then reads as old.
    have hnew : seg.seq ≠ s.tcb.rcvNxt + UInt32.ofNat seg.payload.length := by
      rw [h0, Ne, U32.eq_iff, U32.toNat_add, U32.toNat_ofNat]; omega
    have hold : ¬seg.seq - (s.tcb.rcvNxt + UInt32.ofNat seg.payload.length) < 0x80000000 := by
      simp only [h0, U32.lt_iff, U32.toNat_sub, U32.toNat_add, U32.toNat_ofNat, UInt32.reduceToNat]
      omega
    simp only [if_pos h0, Socket.setRcvNxt_tcb_rcvNxt, if_neg hnew, if_neg hold]
  · by_cases h1 : seg.seq - s.tcb.rcvNxt < 0x80000000
    · simp only [if_neg h0, if_pos h1, Function.update_idem]
    · simp only [if_neg h0, if_neg h1]

/-- The ACK and data processing of `process_established`, before its FIN processing. -/
def recvEstablished (s : Socket) (seg : Segment) : Socket :=
  let s := if seg.ack then ackEstablished s seg else s
  if seg.payload.isEmpty then s else dataEstablished s seg

theorem processEstablished_eq (s : Socket) (seg : Segment) :
    processEstablished s seg =
      if seg.rst then (s.setState .closed).setError (-econnreset)
      else if seg.fin then finEstablished (recvEstablished s seg) else recvEstablished s seg :=
  rfl

theorem state_recvEstablished (s : Socket) (seg : Segment) :
    (recvEstablished s seg).tcb.state = s.tcb.state := by
  unfold recvEstablished ackEstablished dataEstablished
  dsimp only
  split_ifs <;> rfl

theorem recvEstablished_idem {s : Socket} {seg : Segment} (hlen : seg.payload.length ≤ 2 ^ 31) :
    recvEstablished (recvEstablished s seg) seg = recvEstablished s seg := by
  unfold recvEstablished
  cases hack : seg.ack <;> cases hp : seg.payload.isEmpty <;>
    simp only [Bool.false_eq_true, if_true, if_false]
  · exact dataEstablished_idem (by simpa using hp) hlen
  · rw [ackEstablished_dataEstablished, ackEstablished_idem,
      dataEstablished_idem (by simpa using hp) hlen]
  · exact ackEstablished_idem s seg

/-- Outside SynSent, a segment that `tcp_rcv` takes a second time, as a retransmission brings
    it, changes nothing more, as long as it carries at most `2^31` bytes: its data was
    delivered or queued once, its ACK and FIN taken once. -/
theorem tcpRcv_duplicate {s : Socket} (hs : s.tcb.state ≠ .synSent) {seg : Segment}
    (hlen : seg.payload.length ≤ 2 ^ 31) : tcpRcv (tcpRcv s seg) seg = tcpRcv s seg := by
  cases hst : s.tcb.state with
  | synSent => exact absurd hst hs
  | established =>
    simp only [tcpRcv, hst, processEstablished_eq]
    cases hrst : seg.rst
    · cases hfin : seg.fin
      · simp [state_recvEstablished, hst, processEstablished_eq, hrst, hfin,
          recvEstablished_idem hlen]
      · simp [finEstablished, processCloseWait, hrst]
    · simp
  | finWait1 =>
    simp only [tcpRcv, hst]
    unfold processFinWait1
    by_cases hrst : seg.rst = true
    · simp [hrst]
    by_cases hack : seg.ack = true ∧ seg.ackSeq = s.tcb.sndNxt
    · cases hfin : seg.fin <;> simp [hrst, hack, hfin, processFinWait2]
    · cases hfin : seg.fin <;> simp [hrst, hack, hfin, hst, processFinWait1]
  | finWait2 =>
    simp only [tcpRcv, hst, processFinWait2]
    cases hfin : seg.fin <;> simp [hst, hfin]
  | closeWait =>
    simp only [tcpRcv, hst, processCloseWait]
    cases hrst : seg.rst <;> simp [hst, hrst]
  | lastAck =>
    simp only [tcpRcv, hst, processLastAck]
    cases hack : seg.ack <;> simp [hst, hack]
  | closed | listen | synReceived | closing | timeWait => simp only [tcpRcv, hst]

/-- The byte `0x41`, arriving twice, is delivered once. -/
theorem tcpRcv_duplicate_firstByte :
    startSocket.tcb.state ≠ .synSent ∧ firstByte.payload.length ≤ 2 ^ 31 ∧
      tcpRcv (tcpRcv startSocket firstByte) firstByte = tcpRcv startSocket firstByte :=
  ⟨by decide, by decide, tcpRcv_duplicate (by decide) (by decide)⟩

example : (tcpRcv (tcpRcv startSocket firstByte) firstByte).rxBuffer = [0x41] := rfl

/- In SynSent, a SYN-ACK carrying a FIN establishes the connection, and its duplicate then
   closes the peer's side. -/
example :
    let s : Socket := ⟨⟨.synSent, 0, 0, 0, 0, 0, [], fun _ => none⟩, [], false, 0⟩
    let seg : Segment := ⟨true, true, false, true, 100, 0, 0, []⟩
    (tcpRcv s seg).tcb.state = .established ∧ (tcpRcv (tcpRcv s seg) seg).tcb.state = .closeWait :=
  ⟨rfl, rfl⟩

end HkKernel.Tcp
