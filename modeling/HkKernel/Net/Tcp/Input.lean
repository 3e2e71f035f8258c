import HkKernel.Word
import HkKernel.Fs.Error

/-!
# TCP input

`tcp_rcv` (`net/tcp_input.rs`) processes a segment according to the connection's state. The
model starts where the state dispatch starts: the header checks, the checksum and the
connection lookup before it only drop segments, so a segment here is the header fields the
state handlers read and the payload. The TCB and the socket live in files that are not part of
this development (`tcp.rs`, `socket.rs`); their fields are the ones the handlers use, and the
socket's `deliver_data`, `set_eof` and `set_error` follow the spec. Sending ACKs and waking
waiters leave no trace in the model.

A connection error is recorded at most once: `error_tcpRcv` says `tcp_rcv` stores one only on a
reset, moving to Closed, where it does nothing more (`tcpRcv_of_closed`).

Sequence numbers are `u32` and wrap. An acknowledgement removes from the retransmit queue the
entries whose right edge `seq + len` is not above it as unsigned numbers (`ackEstablished`):

* `retransmitQueue_modular`: when the send window does not cross `2^32`, that is the modular
  comparison the spec asks for (`keep_iff_modular`);
* `retransmit_unsigned_compare`: when it does, an entry with unacknowledged bytes is dropped.

The send window keeps its order: `advances_tcpRcv` says a call keeps `SND.NXT` and moves
`SND.UNA` forward without passing it (`Advances`, a preorder), so along every run of calls
(`RcvStep`) the window only shrinks and `SND.UNA ≤ SND.NXT` stays true in modular order
(`tcpRcv_sndUna_le_sndNxt`).
-/

namespace HkKernel

/-- `FsError::from_errno`. -/
def FsError.fromErrno (errno : Int) : FsError := if errno = 11 then .wouldBlock else .ioError

namespace Tcp

/-- `ECONNRESET`. -/
def econnreset : Int := 104

/-- `ECONNREFUSED`. -/
def econnrefused : Int := 111

/-- `TcpState`. -/
inductive TcpState
  | closed | listen | synSent | synReceived | established | finWait1 | finWait2 | closeWait
  | closing | lastAck | timeWait
  deriving DecidableEq, Repr

/-- A segment past the checks of `tcp_rcv`: the header fields the handlers read, and the
    payload after `data_offset`. -/
structure Segment where
  syn : Bool
  ack : Bool
  rst : Bool
  fin : Bool
  seq : UInt32
  ackSeq : UInt32
  window : UInt16
  payload : List UInt8
  deriving DecidableEq, Repr

/-- A retransmit-queue entry. -/
structure RtxEntry where
  seq : UInt32
  data : List UInt8
  deriving DecidableEq, Repr

/-- The right edge `seq + len` of an entry, as `retain` computes it. -/
def RtxEntry.rightEdge (e : RtxEntry) : UInt32 := e.seq + UInt32.ofNat e.data.length

/-- The TCB fields `tcp_input` reads and writes. -/
structure Tcb where
  state : TcpState
  irs : UInt32
  rcvNxt : UInt32
  sndUna : UInt32
  sndNxt : UInt32
  sndWnd : UInt32
  retransmitQueue : List RtxEntry
  /-- The out-of-order queue, a map from sequence number to payload. -/
  oooQueue : UInt32 → Option (List UInt8)

/-- A TCP socket: its TCB, receive queue, EOF flag, and pending error (`Socket.error`, `0`
    when there is none). -/
structure Socket where
  tcb : Tcb
  rxBuffer : List UInt8
  eof : Bool
  error : Int

namespace Socket

variable (s : Socket)

/-- `Socket::deliver_data`. Modelled from the spec: "deliver to RX queue", at its end. -/
@[simps]
def deliverData (payload : List UInt8) : Socket := { s with rxBuffer := s.rxBuffer ++ payload }

/-- `Socket::set_eof`. Modelled from the spec: "set EOF". -/
@[simps]
def setEof : Socket := { s with eof := true }

/-- `Socket::set_error`. Modelled from the spec: the error is "stored atomically on the
    socket". -/
@[simps]
def setError (e : Int) : Socket := { s with error := e }

/-- `tcp.set_state`. -/
@[simps]
def setState (st : TcpState) : Socket := { s with tcb := { s.tcb with state := st } }

/-- `tcp.set_rcv_nxt`. -/
@[simps]
def setRcvNxt (n : UInt32) : Socket := { s with tcb := { s.tcb with rcvNxt := n } }

/-- One pass of the loop of `SocketFileOps::read` with a buffer of `bufLen` bytes: the socket
    after it, and the call's result, or `none` when the call waits for data and loops. -/
def read (bufLen : Nat) (nonblock : Bool) : Socket × Option (Except FsError (List UInt8)) :=
  let err := s.error
  if err ≠ 0 then ({ s with error := 0 }, some (.error (FsError.fromErrno (-err))))
  else if s.rxBuffer ≠ [] then
    let n := min bufLen s.rxBuffer.length
    ({ s with rxBuffer := s.rxBuffer.drop n }, some (.ok (s.rxBuffer.take n)))
  else if s.eof then (s, some (.ok []))
  else if s.tcb.state = .closed ∨ s.tcb.state = .timeWait then (s, some (.ok []))
  else if nonblock then (s, some (.error .wouldBlock))
  else (s, none)

end Socket

/-! ## The state handlers -/

/-- `process_syn_sent`. -/
def processSynSent (s : Socket) (seg : Segment) : Socket :=
  if seg.ack then
    if seg.ackSeq ≠ s.tcb.sndNxt then s
    else if seg.rst then (s.setState .closed).setError (-econnrefused)
    else if seg.syn then
      { s with
        tcb := { s.tcb with
          irs := seg.seq, rcvNxt := seg.seq + 1, sndUna := seg.ackSeq,
          sndWnd := seg.window.toUInt32, state := .established } }
    else s
  else s

/-- The ACK processing of `process_established`: an acceptable acknowledgement advances
    `SND.UNA`, keeps the retransmit entries whose right edge is above it, and takes the
    window. -/
def ackEstablished (s : Socket) (seg : Segment) : Socket :=
  let ack := seg.ackSeq
  let sndUna := s.tcb.sndUna
  let sndNxt := s.tcb.sndNxt
  if ack - sndUna ≤ sndNxt - sndUna then
    { s with
      tcb := { s.tcb with
        sndUna := ack,
        retransmitQueue := s.tcb.retransmitQueue.filter fun e => e.rightEdge > ack,
        sndWnd := seg.window.toUInt32 } }
  else s

/-- The data processing of `process_established`: in-order data is delivered, data ahead of
    `RCV.NXT` goes to the out-of-order queue, and old data is dropped. -/
def dataEstablished (s : Socket) (seg : Segment) : Socket :=
  let seq := seg.seq
  let rcvNxt := s.tcb.rcvNxt
  if seq = rcvNxt then (s.deliverData seg.payload).setRcvNxt (rcvNxt + UInt32.ofNat seg.payload.length)
  else if seq - rcvNxt < 0x80000000 then
    { s with
      tcb := { s.tcb with oooQueue := Function.update s.tcb.oooQueue seq (some seg.payload) } }
  else s

/-- The FIN processing of `process_established`. -/
def finEstablished (s : Socket) : Socket :=
  ((s.setRcvNxt (s.tcb.rcvNxt + 1)).setState .closeWait).setEof

/-- `process_established`. -/
def processEstablished (s : Socket) (seg : Segment) : Socket :=
  if seg.rst then (s.setState .closed).setError (-econnreset)
  else
    let s := if seg.ack then ackEstablished s seg else s
    let s := if seg.payload.isEmpty then s else dataEstablished s seg
    if seg.fin then finEstablished s else s

/-- `process_fin_wait1`. -/
def processFinWait1 (s : Socket) (seg : Segment) : Socket :=
  if seg.rst then s.setState .closed
  else
    let s := if seg.ack ∧ seg.ackSeq = s.tcb.sndNxt then s.setState .finWait2 else s
    if seg.fin then
      ((s.setRcvNxt (s.tcb.rcvNxt + 1)).setState
        (if s.tcb.state = TcpState.finWait2 then .timeWait else .closing)).setEof
    else s

/-- `process_fin_wait2`. -/
def processFinWait2 (s : Socket) (seg : Segment) : Socket :=
  if seg.fin then ((s.setRcvNxt (s.tcb.rcvNxt + 1)).setState .timeWait).setEof else s

/-- `process_close_wait`. -/
def processCloseWait (s : Socket) (seg : Segment) : Socket :=
  if seg.rst then s.setState .closed else s

/-- `process_last_ack`. -/
def processLastAck (s : Socket) (seg : Segment) : Socket :=
  if seg.ack then s.setState .closed else s

/-- `tcp_rcv` from its dispatch on the connection's state on. -/
def tcpRcv (s : Socket) (seg : Segment) : Socket :=
  match s.tcb.state with
  | .synSent => processSynSent s seg
  | .established => processEstablished s seg
  | .finWait1 => processFinWait1 s seg
  | .finWait2 => processFinWait2 s seg
  | .closeWait => processCloseWait s seg
  | .lastAck => processLastAck s seg
  | _ => s

/-! ## Errors -/

/-- In Closed, `tcp_rcv` does nothing. -/
theorem tcpRcv_of_closed {s : Socket} (h : s.tcb.state = .closed) (seg : Segment) :
    tcpRcv s seg = s := by
  simp [tcpRcv, h]

theorem error_ackEstablished (s : Socket) (seg : Segment) : (ackEstablished s seg).error = s.error := by
  unfold ackEstablished; dsimp only; split_ifs <;> rfl

theorem error_dataEstablished (s : Socket) (seg : Segment) :
    (dataEstablished s seg).error = s.error := by
  unfold dataEstablished; dsimp only; split_ifs <;> rfl

theorem error_processEstablished_of_not_rst {s : Socket} {seg : Segment} (hrst : seg.rst = false) :
    (processEstablished s seg).error = s.error := by
  unfold processEstablished
  rw [if_neg (by simp [hrst])]
  dsimp only
  split_ifs <;> simp only [finEstablished, Socket.setEof_error, Socket.setState_error,
    Socket.setRcvNxt_error, error_dataEstablished, error_ackEstablished]

/-- `tcp_rcv` stores an error only on a reset in SynSent (`ECONNREFUSED`) or Established
    (`ECONNRESET`), and then closes the connection. -/
theorem error_tcpRcv (s : Socket) (seg : Segment) :
    (tcpRcv s seg).error = s.error ∨
      ((tcpRcv s seg).error = -econnrefused ∨ (tcpRcv s seg).error = -econnreset) ∧
        (tcpRcv s seg).tcb.state = .closed := by
  unfold tcpRcv
  split
  case h_1 =>
    unfold processSynSent
    split_ifs
    exacts [.inl rfl, .inr ⟨.inl rfl, rfl⟩, .inl rfl, .inl rfl, .inl rfl]
  case h_2 =>
    cases hrst : seg.rst
    · exact .inl (error_processEstablished_of_not_rst hrst)
    · simp only [processEstablished, hrst, if_true]
      exact .inr ⟨.inr rfl, rfl⟩
  case h_3 => exact .inl (by unfold processFinWait1; split_ifs <;> rfl)
  case h_4 => exact .inl (by unfold processFinWait2; split_ifs <;> rfl)
  case h_5 => exact .inl (by unfold processCloseWait; split_ifs <;> rfl)
  case h_6 => exact .inl (by unfold processLastAck; split_ifs <;> rfl)
  case h_7 => exact .inl rfl

/-! ## Acknowledgements -/

theorem retransmitQueue_ackEstablished {s : Socket} {seg : Segment}
    (hacc : seg.ackSeq - s.tcb.sndUna ≤ s.tcb.sndNxt - s.tcb.sndUna) :
    (ackEstablished s seg).tcb.retransmitQueue =
      s.tcb.retransmitQueue.filter fun e => e.rightEdge > seg.ackSeq := by
  simp only [ackEstablished, if_pos hacc]

theorem retransmitQueue_dataEstablished (s : Socket) (seg : Segment) :
    (dataEstablished s seg).tcb.retransmitQueue = s.tcb.retransmitQueue := by
  unfold dataEstablished; dsimp only; split_ifs <;> rfl

/-- The retransmit queue after an acceptable acknowledgement in Established: the entries whose
    right edge is above `ack` as unsigned numbers, in order. -/
theorem retransmitQueue_tcpRcv {s : Socket} {seg : Segment} (hs : s.tcb.state = .established)
    (hrst : seg.rst = false) (hack : seg.ack = true)
    (hacc : seg.ackSeq - s.tcb.sndUna ≤ s.tcb.sndNxt - s.tcb.sndUna) :
    (tcpRcv s seg).tcb.retransmitQueue =
      s.tcb.retransmitQueue.filter fun e => e.rightEdge > seg.ackSeq := by
  simp only [tcpRcv, hs, processEstablished, hrst, hack, Bool.false_eq_true, if_false, if_true]
  split_ifs <;>
    simp [finEstablished, retransmitQueue_dataEstablished, retransmitQueue_ackEstablished hacc]

/-- In a send window that does not cross `2^32` and is shorter than `2^31`, a right edge is
    above an acceptable acknowledgement as an unsigned number exactly when it is in modular
    order, `(seq + len - ack) as i32 > 0`. -/
theorem keep_iff_modular {una nxt ack r : UInt32} (hlt : nxt.toNat - una.toNat < 2 ^ 31)
    (hack : una.toNat ≤ ack.toNat ∧ ack.toNat ≤ nxt.toNat)
    (hr : una.toNat ≤ r.toNat ∧ r.toNat ≤ nxt.toNat) :
    r > ack ↔ 0 < asI32 (r - ack) := by
  have := U32.toNat_lt r; have := U32.toNat_lt ack
  simp only [gt_iff_lt, U32.lt_iff, asI32, U32.toNat_sub, Nat.reducePow]
  split_ifs <;> omega

/-- So in an established connection whose send window does not cross `2^32` and is shorter
    than `2^31`, with every retransmit entry's right edge in the window, an acceptable
    acknowledgement keeps exactly the entries with bytes it does not acknowledge in modular
    order, `(seq + len - ack) as i32 > 0`. -/
theorem retransmitQueue_modular {s : Socket} {seg : Segment} (hs : s.tcb.state = .established)
    (hrst : seg.rst = false) (hack : seg.ack = true)
    (hacc : seg.ackSeq - s.tcb.sndUna ≤ s.tcb.sndNxt - s.tcb.sndUna)
    (hwin : s.tcb.sndUna.toNat ≤ s.tcb.sndNxt.toNat)
    (hlt : s.tcb.sndNxt.toNat - s.tcb.sndUna.toNat < 2 ^ 31)
    (hq : ∀ e ∈ s.tcb.retransmitQueue,
      s.tcb.sndUna.toNat ≤ e.rightEdge.toNat ∧ e.rightEdge.toNat ≤ s.tcb.sndNxt.toNat) :
    (tcpRcv s seg).tcb.retransmitQueue =
      s.tcb.retransmitQueue.filter fun e => 0 < asI32 (e.rightEdge - seg.ackSeq) := by
  -- An acceptable acknowledgement of a window that does not wrap lies in it.
  have hin : s.tcb.sndUna.toNat ≤ seg.ackSeq.toNat ∧ seg.ackSeq.toNat ≤ s.tcb.sndNxt.toNat := by
    have := U32.toNat_lt seg.ackSeq; have := U32.toNat_lt s.tcb.sndNxt
    simp only [U32.le_iff, U32.toNat_sub] at hacc
    omega
  rw [retransmitQueue_tcpRcv hs hrst hack hacc]
  exact List.filter_congr fun e he => decide_eq_decide.2 (keep_iff_modular hlt hin (hq e he))

/-- An established connection with the window `[100, 200)` and two entries of 50 bytes. -/
def twoEntries : Socket :=
  ⟨⟨.established, 0, 0, 100, 200, 0, [⟨100, List.replicate 50 0⟩, ⟨150, List.replicate 50 0⟩],
    fun _ => none⟩, [], false, 0⟩

/-- An acknowledgement of the first entry. -/
def ackOfFifty : Segment := ⟨false, true, false, false, 0, 150, 0, []⟩

theorem retransmitQueue_modular_twoEntries :
    twoEntries.tcb.state = .established ∧ ackOfFifty.rst = false ∧ ackOfFifty.ack = true ∧
      ackOfFifty.ackSeq - twoEntries.tcb.sndUna ≤ twoEntries.tcb.sndNxt - twoEntries.tcb.sndUna ∧
      twoEntries.tcb.sndUna.toNat ≤ twoEntries.tcb.sndNxt.toNat ∧
      twoEntries.tcb.sndNxt.toNat - twoEntries.tcb.sndUna.toNat < 2 ^ 31 ∧
      (∀ e ∈ twoEntries.tcb.retransmitQueue, twoEntries.tcb.sndUna.toNat ≤ e.rightEdge.toNat ∧
        e.rightEdge.toNat ≤ twoEntries.tcb.sndNxt.toNat) ∧
      (tcpRcv twoEntries ackOfFifty).tcb.retransmitQueue =
        twoEntries.tcb.retransmitQueue.filter fun e => 0 < asI32 (e.rightEdge - ackOfFifty.ackSeq) :=
  ⟨rfl, rfl, rfl, by decide, by decide, by decide, by decide,
    retransmitQueue_modular rfl rfl rfl (by decide) (by decide) (by decide) (by decide)⟩

example : (tcpRcv twoEntries ackOfFifty).tcb.retransmitQueue = [⟨150, List.replicate 50 0⟩] := by
  decide

/-- An established connection whose send window crosses `2^32`: `SND.UNA = 0xFFFFFFF0`,
    `SND.NXT = 0x10`, and one entry of 32 bytes from `SND.UNA` waiting for its
    acknowledgement. -/
def wrappedWindow : Socket :=
  ⟨⟨.established, 0, 0, 0xFFFFFFF0, 0x10, 0, [⟨0xFFFFFFF0, List.replicate 32 0⟩],
    fun _ => none⟩, [], false, 0⟩

/-- An acknowledgement of the first 8 bytes of the window. -/
def ackOfEight : Segment := ⟨false, true, false, false, 0, 0xFFFFFFF8, 0, []⟩

/-- The acknowledgement is accepted and leaves the entry's last 24 bytes unacknowledged in
    modular order, yet `tcp_rcv` drops the entry: its right edge `0x10` is below
    `0xFFFFFFF8` as an unsigned number. -/
theorem retransmit_unsigned_compare :
    ackOfEight.ackSeq - wrappedWindow.tcb.sndUna ≤ wrappedWindow.tcb.sndNxt - wrappedWindow.tcb.sndUna ∧
    (∀ e ∈ wrappedWindow.tcb.retransmitQueue, 0 < asI32 (e.rightEdge - ackOfEight.ackSeq)) ∧
    (tcpRcv wrappedWindow ackOfEight).tcb.retransmitQueue = [] := by
  decide

/-! ## The send window -/

/-- `s'` has the `SND.NXT` of `s`, and its `SND.UNA` is at or after that of `s` but not past
    `SND.NXT`: in modular arithmetic, `SND.UNA' - SND.UNA ≤ SND.NXT - SND.UNA`. -/
def Advances (s s' : Socket) : Prop :=
  s'.tcb.sndNxt = s.tcb.sndNxt ∧ s'.tcb.sndUna - s.tcb.sndUna ≤ s.tcb.sndNxt - s.tcb.sndUna

namespace Advances

theorem of_eq {s s' : Socket} (hn : s'.tcb.sndNxt = s.tcb.sndNxt)
    (hu : s'.tcb.sndUna = s.tcb.sndUna) : Advances s s' := by
  refine ⟨hn, ?_⟩
  have := U32.toNat_lt s.tcb.sndUna
  simp only [hu, U32.le_iff, U32.toNat_sub]
  omega

theorem refl (s : Socket) : Advances s s := of_eq rfl rfl

/-- Two moves forward within the window are one. -/
theorem trans {s₁ s₂ s₃ : Socket} (h₁ : Advances s₁ s₂) (h₂ : Advances s₂ s₃) :
    Advances s₁ s₃ := by
  obtain ⟨hn₁, hu₁⟩ := h₁
  obtain ⟨hn₂, hu₂⟩ := h₂
  refine ⟨hn₂.trans hn₁, ?_⟩
  rw [hn₁] at hu₂
  have := U32.toNat_lt s₁.tcb.sndUna; have := U32.toNat_lt s₂.tcb.sndUna
  have := U32.toNat_lt s₃.tcb.sndUna; have := U32.toNat_lt s₁.tcb.sndNxt
  simp only [U32.le_iff, U32.toNat_sub] at hu₁ hu₂ ⊢
  omega

/-- A step taken only under a condition. -/
theorem ite_self {c : Prop} [Decidable c] {s s' : Socket} (h : c → Advances s s') :
    Advances s (if c then s' else s) := by
  split_ifs with hc
  exacts [h hc, refl s]

/-- Moving forward within the window shortens it. -/
theorem window_le {s s' : Socket} (h : Advances s s') :
    (s'.tcb.sndNxt - s'.tcb.sndUna).toNat ≤ (s.tcb.sndNxt - s.tcb.sndUna).toNat := by
  obtain ⟨hn, hu⟩ := h
  have := U32.toNat_lt s.tcb.sndUna; have := U32.toNat_lt s'.tcb.sndUna
  have := U32.toNat_lt s.tcb.sndNxt
  simp only [hn, U32.le_iff, U32.toNat_sub] at hu ⊢
  omega

end Advances

theorem advances_processSynSent (s : Socket) (seg : Segment) :
    Advances s (processSynSent s seg) := by
  unfold processSynSent
  split_ifs with _ hnxt
  all_goals first
    | exact .of_eq rfl rfl
    | exact ⟨rfl, show seg.ackSeq - _ ≤ _ by rw [not_not.1 hnxt, U32.le_iff]⟩

theorem advances_ackEstablished (s : Socket) (seg : Segment) :
    Advances s (ackEstablished s seg) := by
  unfold ackEstablished; dsimp only
  split_ifs with hacc
  exacts [⟨rfl, hacc⟩, .refl s]

theorem advances_dataEstablished (s : Socket) (seg : Segment) :
    Advances s (dataEstablished s seg) := by
  unfold dataEstablished; dsimp only
  split_ifs <;> exact .of_eq rfl rfl

theorem advances_processEstablished (s : Socket) (seg : Segment) :
    Advances s (processEstablished s seg) := by
  unfold processEstablished
  by_cases hrst : seg.rst
  · rw [if_pos hrst]; exact .of_eq rfl rfl
  rw [if_neg hrst]; dsimp only
  have h₁ : Advances s (if seg.ack then ackEstablished s seg else s) :=
    Advances.ite_self fun _ => advances_ackEstablished s seg
  generalize (if seg.ack then ackEstablished s seg else s) = s₁ at h₁ ⊢
  have h₂ : Advances s₁ (if seg.payload.isEmpty then s₁ else dataEstablished s₁ seg) := by
    split_ifs; exacts [.refl s₁, advances_dataEstablished s₁ seg]
  generalize (if seg.payload.isEmpty then s₁ else dataEstablished s₁ seg) = s₂ at h₂ ⊢
  exact h₁.trans (h₂.trans (Advances.ite_self fun _ => .of_eq rfl rfl))

/-- A call of `tcp_rcv` keeps `SND.NXT`, and moves `SND.UNA` only forward and not past it. -/
theorem advances_tcpRcv (s : Socket) (seg : Segment) : Advances s (tcpRcv s seg) := by
  unfold tcpRcv
  split
  case h_1 => exact advances_processSynSent s seg
  case h_2 => exact advances_processEstablished s seg
  case h_3 => unfold processFinWait1; dsimp only; split_ifs <;> exact .of_eq rfl rfl
  case h_4 => unfold processFinWait2; split_ifs <;> exact .of_eq rfl rfl
  case h_5 => unfold processCloseWait; split_ifs <;> exact .of_eq rfl rfl
  case h_6 => unfold processLastAck; split_ifs <;> exact .of_eq rfl rfl
  case h_7 => exact .refl s

/-- One call of `tcp_rcv`, on any segment. -/
def RcvStep (s s' : Socket) : Prop := ∃ seg, tcpRcv s seg = s'

theorem advances_of_reachable {s s' : Socket} (h : Relation.ReflTransGen RcvStep s s') :
    Advances s s' := by
  induction h with
  | refl => exact .refl s
  | tail _ hstep ih =>
    obtain ⟨seg, rfl⟩ := hstep
    exact ih.trans (advances_tcpRcv _ seg)

/-- `tcp_rcv` keeps `SND.NXT` and moves `SND.UNA` forward, never past `SND.NXT`; so from a
    state whose send window `SND.NXT - SND.UNA` is below `2^31`, every state that `tcp_rcv`
    calls reach has `SND.UNA ≤ SND.NXT` in modular signed order. -/
theorem tcpRcv_sndUna_le_sndNxt :
    (∀ s seg, (tcpRcv s seg).tcb.sndNxt = s.tcb.sndNxt ∧
      (tcpRcv s seg).tcb.sndUna - s.tcb.sndUna ≤ s.tcb.sndNxt - s.tcb.sndUna) ∧
    ∀ s s', (s.tcb.sndNxt - s.tcb.sndUna).toNat < 2 ^ 31 →
      Relation.ReflTransGen RcvStep s s' → 0 ≤ asI32 (s'.tcb.sndNxt - s'.tcb.sndUna) := by
  refine ⟨advances_tcpRcv, fun s s' hw h => ?_⟩
  have := (advances_of_reachable h).window_le
  rw [asI32, if_pos (by omega)]
  exact Int.natCast_nonneg _

/-- The window that crosses `2^32` keeps its order after the acknowledgement of its first
    bytes. -/
theorem tcpRcv_sndUna_le_sndNxt_wrapped :
    (wrappedWindow.tcb.sndNxt - wrappedWindow.tcb.sndUna).toNat < 2 ^ 31 ∧
      0 ≤ asI32 ((tcpRcv wrappedWindow ackOfEight).tcb.sndNxt -
        (tcpRcv wrappedWindow ackOfEight).tcb.sndUna) :=
  ⟨by decide, tcpRcv_sndUna_le_sndNxt.2 _ _ (by decide) (.single ⟨ackOfEight, rfl⟩)⟩

end Tcp

end HkKernel
