import HkKernel.Net.Tcp.Stream

/-!
# The connection's states

`tcp_rcv` moves a connection through the TCP state diagram, and closing the socket
(`SocketFileOps::release`, or `shutdown` with `SHUT_WR` or `SHUT_RDWR`, through `tcp_close`)
starts the close of the local side. `TcpState.Next` is the diagram as the handlers of
`tcp_input.rs` and `tcp_close` draw it: SynSent goes to Established or, on a reset, to Closed;
Established to CloseWait on a FIN, to FinWait1 on a close, to Closed on a reset; FinWait1 to
FinWait2, Closing, TimeWait or Closed; FinWait2 to TimeWait; CloseWait to LastAck or Closed;
LastAck to Closed. Closing, TimeWait and Closed have no way out. `sys_listen` (`sysListen`)
sets Listen from whatever state the socket is in, so it is not one of the operations of a run
(`SocketStep`).

* `state_socketStep`: each operation on a socket, a segment, a read, a shutdown or a close,
  keeps its state or takes one edge of the diagram;
* `connection_state_progress`: every edge raises the state's `rank`, so along any run a
  connection follows the diagram, never comes back to a state it has left, and never leaves
  Closing, TimeWait or Closed;
* `pollhup_stays`: so once `poll` reports a hangup, it reports one after any run;
* `read_returns_after_fin`: EOF is set whenever the connection is past the peer's FIN, so a
  blocking read there, or in TimeWait or Closed, never waits: it returns end of file once the
  queue is drained;
* `connectWait_past_established`: the wait loop of a blocking `sys_connect` returns only in
  Established or Closed, so one that wakes after the connection has gone past Established (the
  peer's FIN came right after its SYN-ACK) never reports success, and waits for the close.
-/

namespace HkKernel.Tcp

/-- The edges of the state diagram that `tcp_rcv` and `tcp_close` take. -/
inductive TcpState.Next : TcpState → TcpState → Prop
  | synSent_established : TcpState.Next .synSent .established
  | synSent_closed : TcpState.Next .synSent .closed
  | established_closeWait : TcpState.Next .established .closeWait
  | established_finWait1 : TcpState.Next .established .finWait1
  | established_closed : TcpState.Next .established .closed
  | finWait1_finWait2 : TcpState.Next .finWait1 .finWait2
  | finWait1_closing : TcpState.Next .finWait1 .closing
  | finWait1_timeWait : TcpState.Next .finWait1 .timeWait
  | finWait1_closed : TcpState.Next .finWait1 .closed
  | finWait2_timeWait : TcpState.Next .finWait2 .timeWait
  | closeWait_lastAck : TcpState.Next .closeWait .lastAck
  | closeWait_closed : TcpState.Next .closeWait .closed
  | lastAck_closed : TcpState.Next .lastAck .closed

/-- How far along the diagram a state lies. -/
def TcpState.rank : TcpState → Nat
  | .listen | .synSent | .synReceived => 0
  | .established => 1
  | .finWait1 | .closeWait => 2
  | .finWait2 | .lastAck => 3
  | .closing => 4
  | .timeWait => 5
  | .closed => 6

namespace TcpState

theorem Next.rank_lt {st st' : TcpState} (h : Next st st') : st.rank < st'.rank := by
  cases h <;> decide

/-- A state a path of the diagram leaves is behind it for good. -/
theorem rank_lt_of_transGen {st st' : TcpState} (h : Relation.TransGen Next st st') :
    st.rank < st'.rank := by
  induction h with
  | single h => exact h.rank_lt
  | tail _ h ih => exact ih.trans h.rank_lt

theorem eq_of_reflTransGen_of_rank_le {st st' : TcpState} (h : Relation.ReflTransGen Next st st')
    (hle : st'.rank ≤ st.rank) : st' = st := by
  rcases Relation.reflTransGen_iff_eq_or_transGen.1 h with h | h
  · exact h
  · exact absurd (rank_lt_of_transGen h) (Nat.not_lt.2 hle)

/-- Closing, TimeWait and Closed have no edge out. -/
theorem eq_of_reflTransGen_of_final {st st' : TcpState} (h : Relation.ReflTransGen Next st st')
    (hf : st = .closing ∨ st = .timeWait ∨ st = .closed) : st' = st := by
  induction h with
  | refl => rfl
  | tail _ hn ih => subst ih; rcases hf with rfl | rfl | rfl <;> cases hn

end TcpState

/-! ## The calls on a socket -/

/-- `errno::EINVAL` of the socket system calls. -/
def einval : Int := -22

/-- The effect of `sys_shutdown` on the socket it finds, or its error: `SHUT_RD` sets EOF,
    `SHUT_WR` closes the connection, and `SHUT_RDWR` does both. -/
def sysShutdown (s : Socket) (how : Int) : Except Int Socket :=
  if how = 0 then .ok s.setEof
  else if how = 1 then .ok s.close
  else if how = 2 then .ok s.close.setEof
  else .error einval

/-- The effect of `sys_listen` on the TCP socket it finds. -/
def sysListen (s : Socket) : Socket := s.setState .listen

/-- One operation on a socket: a segment arrives, the application reads, shuts the socket
    down or closes it. -/
inductive SocketStep : Socket → Socket → Prop
  | rcv (s : Socket) (seg : Segment) : SocketStep s (tcpRcv s seg)
  | read (s : Socket) (bufLen : Nat) (nonblock : Bool) : SocketStep s (s.read bufLen nonblock).1
  | shutdown (s : Socket) (how : Int) {s' : Socket} (h : sysShutdown s how = .ok s') :
      SocketStep s s'
  | close (s : Socket) : SocketStep s s.close

/-- `s'` has the state of `s`, or one the diagram reaches in one edge. -/
def Moves (s s' : Socket) : Prop :=
  s'.tcb.state = s.tcb.state ∨ TcpState.Next s.tcb.state s'.tcb.state

theorem Moves.to (s : Socket) {st : TcpState} (h : TcpState.Next s.tcb.state st) :
    Moves s (s.setState st) :=
  .inr h

@[simp]
theorem state_ackEstablished (s : Socket) (seg : Segment) :
    (ackEstablished s seg).tcb.state = s.tcb.state :=
  state_of_recv_eq (recv_ackEstablished s seg)

@[simp]
theorem state_dataEstablished (s : Socket) (seg : Segment) :
    (dataEstablished s seg).tcb.state = s.tcb.state := by
  unfold dataEstablished; dsimp only; split_ifs <;> rfl

theorem moves_processSynSent {s : Socket} (hs : s.tcb.state = .synSent) (seg : Segment) :
    Moves s (processSynSent s seg) := by
  unfold processSynSent Moves
  split_ifs <;> simp [hs, TcpState.Next.synSent_closed, TcpState.Next.synSent_established]

theorem moves_processEstablished {s : Socket} (hs : s.tcb.state = .established) (seg : Segment) :
    Moves s (processEstablished s seg) := by
  unfold processEstablished Moves finEstablished
  split_ifs <;>
    simp [hs, TcpState.Next.established_closed, TcpState.Next.established_closeWait]

theorem moves_processFinWait1 {s : Socket} (hs : s.tcb.state = .finWait1) (seg : Segment) :
    Moves s (processFinWait1 s seg) := by
  unfold processFinWait1 Moves
  split_ifs <;> simp [hs, TcpState.Next.finWait1_closed, TcpState.Next.finWait1_finWait2,
    TcpState.Next.finWait1_closing, TcpState.Next.finWait1_timeWait]

/-- The handler `tcp_rcv` dispatches to keeps the state or takes one edge. -/
theorem moves_tcpRcv (s : Socket) (seg : Segment) : Moves s (tcpRcv s seg) := by
  unfold tcpRcv
  split
  case h_1 hs => exact moves_processSynSent hs seg
  case h_2 hs => exact moves_processEstablished hs seg
  case h_3 hs => exact moves_processFinWait1 hs seg
  case h_4 hs =>
    unfold processFinWait2; split_ifs
    · simpa [Moves, hs] using TcpState.Next.finWait2_timeWait
    · exact .inl rfl
  case h_5 hs =>
    unfold processCloseWait; split_ifs
    · exact Moves.to s (hs ▸ .closeWait_closed)
    · exact .inl rfl
  case h_6 hs =>
    unfold processLastAck; split_ifs
    · exact Moves.to s (hs ▸ .lastAck_closed)
    · exact .inl rfl
  case h_7 => exact .inl rfl

theorem moves_close (s : Socket) : Moves s s.close := by
  unfold Socket.close
  split
  case h_1 hs => exact Moves.to s (hs ▸ .established_finWait1)
  case h_2 hs => exact Moves.to s (hs ▸ .closeWait_lastAck)
  case h_3 => exact .inl rfl

/-- A shutdown sets EOF, closes the connection, or both. -/
theorem sysShutdown_cases {s s' : Socket} {how : Int} (h : sysShutdown s how = .ok s') :
    s' = s.setEof ∨ s' = s.close ∨ s' = s.close.setEof := by
  unfold sysShutdown at h
  split_ifs at h <;> cases h <;> simp

/-- Each operation on a socket keeps its state or takes one edge of the diagram. -/
theorem state_socketStep {s s' : Socket} (h : SocketStep s s') : Moves s s' := by
  cases h with
  | rcv seg => exact moves_tcpRcv s seg
  | read n nb => exact .inl (congrArg Tcb.state (read_recv s n nb).1)
  | shutdown how h =>
    rcases sysShutdown_cases h with rfl | rfl | rfl
    · exact .inl rfl
    · exact moves_close s
    · exact moves_close s
  | close => exact moves_close s

/-- Along a run, the state follows a path of the diagram. -/
theorem state_run {s s' : Socket} (h : Relation.ReflTransGen SocketStep s s') :
    Relation.ReflTransGen TcpState.Next s.tcb.state s'.tcb.state := by
  induction h with
  | refl => exact .refl
  | tail _ hs ih =>
    rcases state_socketStep hs with he | hn
    · exact he ▸ ih
    · exact ih.tail hn

/-- Along a run, the state's rank never goes down. -/
theorem rank_le_of_run {s s' : Socket} (h : Relation.ReflTransGen SocketStep s s') :
    s.tcb.state.rank ≤ s'.tcb.state.rank := by
  rcases Relation.reflTransGen_iff_eq_or_transGen.1 (state_run h) with he | ht
  · exact he ▸ le_rfl
  · exact (TcpState.rank_lt_of_transGen ht).le

/-- Along any run of segments, reads and closes, a connection follows the state diagram, never
    comes back to a state it has left, and never leaves Closing, TimeWait or Closed. -/
theorem connection_state_progress {s s' s'' : Socket} (h : Relation.ReflTransGen SocketStep s s')
    (h' : Relation.ReflTransGen SocketStep s' s'') :
    Relation.ReflTransGen TcpState.Next s.tcb.state s'.tcb.state ∧
      (s''.tcb.state = s.tcb.state → s'.tcb.state = s.tcb.state) ∧
      (s.tcb.state = .closing ∨ s.tcb.state = .timeWait ∨ s.tcb.state = .closed →
        s'.tcb.state = s.tcb.state) := by
  have hp := state_run h
  refine ⟨hp, fun hback => ?_, TcpState.eq_of_reflTransGen_of_final hp⟩
  exact TcpState.eq_of_reflTransGen_of_rank_le hp (hback ▸ rank_le_of_run h')

/-- An ACK of everything sent, carrying a FIN. -/
def finAck : Segment := ⟨false, true, false, true, 1, 0, 0, []⟩

/-- Closed from Established, the connection moves to FinWait1, and the peer's FIN and ACK take
    it on to TimeWait. -/
theorem connection_state_progress_close :
    Relation.ReflTransGen TcpState.Next startSocket.tcb.state startSocket.close.tcb.state ∧
      ((tcpRcv startSocket.close finAck).tcb.state = startSocket.tcb.state →
        startSocket.close.tcb.state = startSocket.tcb.state) ∧
      (startSocket.tcb.state = .closing ∨ startSocket.tcb.state = .timeWait ∨
          startSocket.tcb.state = .closed →
        startSocket.close.tcb.state = startSocket.tcb.state) :=
  connection_state_progress (.single (.close _)) (.single (.rcv _ finAck))

example : (tcpRcv startSocket.close finAck).tcb.state = .timeWait := rfl

/-! ## Hangup -/

/-- The events `SocketFileOps::poll` reports: readable (`POLLIN | POLLRDNORM`), writable
    (`POLLOUT | POLLWRNORM`), `POLLERR` and `POLLHUP`. -/
structure PollMask where
  pollin : Bool
  pollout : Bool
  pollerr : Bool
  pollhup : Bool
  deriving DecidableEq, Repr

/-- `SocketFileOps::poll` of a TCP socket, given what `Socket::poll_read` and
    `Socket::poll_write` answer (`socket.rs` is not part of this development). -/
def Socket.poll (s : Socket) (pollRead pollWrite : Bool) : PollMask where
  pollin := pollRead
  pollout := pollWrite
  pollerr := s.error != 0
  pollhup := s.eof || (s.tcb.state = .closed || s.tcb.state = .timeWait)

theorem eof_ackEstablished (s : Socket) (seg : Segment) : (ackEstablished s seg).eof = s.eof :=
  congrArg (·.2.2.2) (recv_ackEstablished s seg)

theorem eof_dataEstablished (s : Socket) (seg : Segment) : (dataEstablished s seg).eof = s.eof := by
  unfold dataEstablished; dsimp only; split_ifs <;> rfl

/-- No segment takes EOF back. -/
theorem eof_tcpRcv {s : Socket} (h : s.eof = true) (seg : Segment) : (tcpRcv s seg).eof = true := by
  unfold tcpRcv processSynSent processEstablished finEstablished processFinWait1 processFinWait2
    processCloseWait processLastAck
  split <;> (try split_ifs) <;> simp [h, eof_ackEstablished, eof_dataEstablished]

theorem eof_close (s : Socket) : s.close.eof = s.eof := (close_rxBuffer_eof s).2

/-- No operation on a socket takes EOF back. -/
theorem eof_socketStep {s s' : Socket} (hs : SocketStep s s') (h : s.eof = true) : s'.eof = true := by
  cases hs with
  | rcv seg => exact eof_tcpRcv h seg
  | read n nb => exact (read_recv s n nb).2.1.trans h
  | shutdown how h' =>
    rcases sysShutdown_cases h' with rfl | rfl | rfl
    · rfl
    · exact (eof_close s).trans h
    · rfl
  | close => exact (eof_close s).trans h

/-- Once `poll` reports a hangup, it reports one after any run of segments, reads, shutdowns
    and closes, whatever `poll_read` and `poll_write` answer. -/
theorem pollhup_stays {s s' : Socket} (hrun : Relation.ReflTransGen SocketStep s s')
    {r w r' w' : Bool} (h : (s.poll r w).pollhup = true) : (s'.poll r' w').pollhup = true := by
  simp only [Socket.poll, Bool.or_eq_true, decide_eq_true_eq] at h ⊢
  rcases h with heof | hst
  · left
    induction hrun with
    | refl => exact heof
    | tail _ hs ih => exact eof_socketStep hs ih
  · right
    have hf := TcpState.eq_of_reflTransGen_of_final (state_run hrun)
    rcases hst with hst | hst <;> simp [hf (by simp [hst]), hst]

/-- A connection closed from Established hangs up on the peer's FIN and ACK, and still does
    after a read. -/
theorem pollhup_stays_finAck :
    ((tcpRcv startSocket.close finAck).poll false true).pollhup = true ∧
      (((tcpRcv startSocket.close finAck).read 16 true).1.poll true true).pollhup = true :=
  ⟨by decide, pollhup_stays (.single (.read _ 16 true)) (r := false) (w := true) (by decide)⟩

/-! ## Reading after the peer's FIN -/

/-- The states a connection reaches only after the peer's FIN: CloseWait, LastAck and
    Closing. -/
def FinSeen (st : TcpState) : Prop := st = .closeWait ∨ st = .lastAck ∨ st = .closing

/-- A segment that brings the connection past the peer's FIN sets EOF. -/
theorem finSeen_eof_tcpRcv {s : Socket} (h : FinSeen s.tcb.state → s.eof = true) (seg : Segment) :
    FinSeen (tcpRcv s seg).tcb.state → (tcpRcv s seg).eof = true := by
  unfold tcpRcv processSynSent processEstablished finEstablished processFinWait1 processFinWait2
    processCloseWait processLastAck
  split <;> (try split_ifs) <;> simp_all [FinSeen, eof_ackEstablished, eof_dataEstablished]

theorem finSeen_eof_close {s : Socket} (h : FinSeen s.tcb.state → s.eof = true) :
    FinSeen s.close.tcb.state → s.close.eof = true := by
  unfold Socket.close
  split
  case h_1 => simp [FinSeen]
  case h_2 hs => exact fun _ => h (.inl hs)
  case h_3 => exact h

/-- Past the peer's FIN, EOF stays set along every step. -/
theorem finSeen_eof_step {s s' : Socket} (hs : SocketStep s s')
    (h : FinSeen s.tcb.state → s.eof = true) : FinSeen s'.tcb.state → s'.eof = true := by
  cases hs with
  | rcv seg => exact finSeen_eof_tcpRcv h seg
  | read n nb =>
    obtain ⟨htcb, heof, -⟩ := read_recv s n nb
    rw [htcb, heof]; exact h
  | shutdown how h' =>
    rcases sysShutdown_cases h' with rfl | rfl | rfl
    · exact fun _ => rfl
    · exact finSeen_eof_close h
    · exact fun _ => rfl
  | close => exact finSeen_eof_close h

/-- On a connection that started in SynSent or Established, a read past the peer's FIN, or
    in TimeWait or Closed, never blocks: it returns at once, and with no error pending and
    nothing queued it returns end of file. -/
theorem read_returns_after_fin {s s' : Socket}
    (hs : s.tcb.state = .synSent ∨ s.tcb.state = .established)
    (hrun : Relation.ReflTransGen SocketStep s s')
    (hst : FinSeen s'.tcb.state ∨ s'.tcb.state = .timeWait ∨ s'.tcb.state = .closed)
    (bufLen : Nat) (nonblock : Bool) :
    (s'.read bufLen nonblock).2 ≠ none ∧
      (s'.error = 0 → s'.rxBuffer = [] → (s'.read bufLen nonblock).2 = some (.ok [])) := by
  have hinv : FinSeen s'.tcb.state → s'.eof = true := by
    clear hst
    induction hrun with
    | refl => rintro (h | h | h) <;> rcases hs with hs | hs <;> simp [hs] at h
    | tail _ hstep ih => exact finSeen_eof_step hstep ih
  -- Past the FIN, EOF is set; in TimeWait and Closed the state check returns.
  have hret : s'.eof = true ∨ s'.tcb.state = .closed ∨ s'.tcb.state = .timeWait := by
    rcases hst with h | h | h
    · exact .inl (hinv h)
    · exact .inr (.inr h)
    · exact .inr (.inl h)
  unfold Socket.read
  dsimp only
  refine ⟨by split_ifs <;> simp_all, fun he hrx => ?_⟩
  rw [if_neg (by simpa using he), if_neg (by simpa using hrx)]
  rcases hret with h | h <;> simp [h]

/-- After the peer's FIN, a blocking read of an established connection returns end of file. -/
theorem read_returns_after_fin_finSegment :
    startSocket.tcb.state = .established ∧
      FinSeen (tcpRcv startSocket finSegment).tcb.state ∧
      ((tcpRcv startSocket finSegment).read 4096 false).2 ≠ none ∧
      ((tcpRcv startSocket finSegment).error = 0 → (tcpRcv startSocket finSegment).rxBuffer = [] →
        ((tcpRcv startSocket finSegment).read 4096 false).2 = some (.ok [])) :=
  have hst : FinSeen (tcpRcv startSocket finSegment).tcb.state := .inl rfl
  ⟨rfl, hst, read_returns_after_fin (.inr rfl) (.single (.rcv _ _)) (.inl hst) 4096 false⟩

/-! ## A blocking connect -/

/-- `errno::ENOTCONN` of the socket system calls. -/
def enotconn : Int := -107

/-- One pass of the wait loop of a blocking `sys_connect`: what it returns, or `none` when it
    waits again. -/
def connectWait (s : Socket) : Option Int :=
  match s.tcb.state with
  | .established => some 0
  | .closed => some (if s.error ≠ 0 then s.error else enotconn)
  | _ => none

/-- A blocking `sys_connect` that wakes only once its connection has gone past Established, as
    when the peer's FIN arrived right after its SYN-ACK, never returns `0`: along any run it
    waits until the connection is closed, and then returns an error. -/
theorem connectWait_past_established {s s' : Socket}
    (hpast : Relation.TransGen TcpState.Next .established s.tcb.state)
    (hrun : Relation.ReflTransGen SocketStep s s') :
    connectWait s' ≠ some 0 ∧ (connectWait s' ≠ none → s'.tcb.state = .closed) := by
  have hlt : TcpState.established.rank < s'.tcb.state.rank :=
    (TcpState.rank_lt_of_transGen hpast).trans_le (rank_le_of_run hrun)
  unfold connectWait
  split
  case h_1 hst => rw [hst] at hlt; exact absurd hlt (lt_irrefl _)
  case h_2 hst => refine ⟨fun h => ?_, fun _ => hst⟩; split_ifs at h with he <;> simp_all [enotconn]
  case h_3 => exact ⟨by simp, fun h => absurd rfl h⟩

/-- Woken after the peer's FIN, the connect waits. -/
theorem connectWait_past_established_fin :
    Relation.TransGen TcpState.Next .established (tcpRcv startSocket finSegment).tcb.state ∧
      connectWait (tcpRcv startSocket finSegment) ≠ some 0 ∧
      (connectWait (tcpRcv startSocket finSegment) ≠ none →
        (tcpRcv startSocket finSegment).tcb.state = .closed) :=
  have hpast : Relation.TransGen TcpState.Next .established
      (tcpRcv startSocket finSegment).tcb.state :=
    .single .established_closeWait
  ⟨hpast, connectWait_past_established hpast .refl⟩

end HkKernel.Tcp
