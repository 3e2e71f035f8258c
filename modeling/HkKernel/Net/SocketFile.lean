import HkKernel.Net.Tcp.Input

/-!
# The pending error of a socket, under concurrent calls

`tcp_rcv` records a connection error with `set_error`: `ECONNREFUSED` on a reset in SynSent,
`ECONNRESET` on a reset in Established. `SocketFileOps::read` and `SocketFileOps::write`
report it: each loads `Socket.error`, and if it is not `0` stores `0` and returns the error.
The load and the store are two atomic operations, not one swap, so other calls and `tcp_rcv`
may run between them.

The model interleaves `tcp_rcv` and any number of calls at those loads and stores
(`ErrorSystem.Step`). A call is its program counter in the check (`Pc`); past the check, a
call leaves the error alone, and only a blocking `read` comes back to it, when it found
nothing to return and waited. The system carries, as a ghost, the error `tcp_rcv` recorded:
there is at most one per connection (`error_tcpRcv`).

* `ErrorSystem.error_kept`: along every run, a call reports only the recorded error, and the
  recorded error is pending or reported: none is lost or invented (`ErrorSystem.Inv.run`);
* `ErrorSystem.report_once`: when no two checks overlap, the recorded error is reported by
  exactly one call, or is still pending;
* `error_reported_twice`: when two reads load it before either clears it, both report it.
-/

namespace HkKernel.Tcp

/-- The two file operations that check the pending error. -/
inductive FileOp
  | read
  | write
  deriving DecidableEq, Repr

/-- Where a call is in its check of `Socket.error`. -/
inductive Pc
  /-- About to load the error. -/
  | start
  /-- Loaded the error `err`, not `0`, and about to store `0`. -/
  | loaded (err : Int)
  /-- Stored `0` and returned `Err(FsError::from_errno(-err))`. -/
  | reported (err : Int)
  /-- Loaded `0`, and went on. -/
  | passed
  deriving DecidableEq, Repr

/-- What the load of the check leads to: the error, when there is one. -/
def loadError (err : Int) : Pc := if err ≠ 0 then .loaded err else .passed

/-- The socket and the calls on it. -/
structure ErrorSystem where
  sock : Socket
  /-- The program counter of each call. -/
  pc : Nat → Pc
  /-- Ghost: the error `tcp_rcv` stored, once it stored one. -/
  recorded : Option Int

namespace ErrorSystem

/-- One atomic step, for calls of the kinds `op`. -/
inductive Step (op : Nat → FileOp) : ErrorSystem → ErrorSystem → Prop
  /-- `tcp_rcv` processes a segment. -/
  | input (s : ErrorSystem) (seg : Segment) :
      Step op s ⟨tcpRcv s.sock seg, s.pc,
        if (tcpRcv s.sock seg).error = s.sock.error then s.recorded
        else some (tcpRcv s.sock seg).error⟩
  /-- Call `c` loads the error. -/
  | load (s : ErrorSystem) (c : Nat) (h : s.pc c = .start) :
      Step op s ⟨s.sock, Function.update s.pc c (loadError s.sock.error), s.recorded⟩
  /-- Call `c` clears the error it loaded and returns it. -/
  | store (s : ErrorSystem) (c : Nat) (err : Int) (h : s.pc c = .loaded err) :
      Step op s ⟨s.sock.setError 0, Function.update s.pc c (.reported err), s.recorded⟩
  /-- A blocking `read` that found nothing to return waits, and checks again. -/
  | retry (s : ErrorSystem) (c : Nat) (hop : op c = .read) (h : s.pc c = .passed) :
      Step op s ⟨s.sock, Function.update s.pc c .start, s.recorded⟩

/-- No error is pending or recorded, and every call is about to check. -/
def Init (s : ErrorSystem) : Prop := s.sock.error = 0 ∧ s.recorded = none ∧ ∀ c, s.pc c = .start

/-- The invariant of a run: a pending error is the recorded one; once one is recorded the
    connection is closed; a call has loaded or reported only the recorded error, and after a
    report none is pending; and the recorded error is pending or reported. -/
structure Inv (s : ErrorSystem) : Prop where
  pending : s.sock.error ≠ 0 → s.recorded = some s.sock.error
  closed : ∀ e, s.recorded = some e → e ≠ 0 ∧ s.sock.tcb.state = .closed
  loaded : ∀ c e, s.pc c = .loaded e → s.recorded = some e
  reported : ∀ c e, s.pc c = .reported e → s.recorded = some e ∧ s.sock.error = 0
  kept : ∀ e, s.recorded = some e → s.sock.error = e ∨ ∃ c, s.pc c = .reported e

variable {op : Nat → FileOp} {s s' : ErrorSystem}

/-- Where call `c'` is once call `c` moved to `p`: at `p` if it is `c`, where it was if not. -/
theorem update_cases {pc : Nat → Pc} {c c' : Nat} {p q : Pc} (h : Function.update pc c p c' = q) :
    (c' = c ∧ p = q) ∨ (c' ≠ c ∧ pc c' = q) := by
  by_cases hc : c' = c
  · subst hc
    exact .inl ⟨rfl, by simpa using h⟩
  · exact .inr ⟨hc, by rwa [Function.update_noteq hc] at h⟩

/-- Moving a call that has not reported keeps every report of the others. -/
theorem update_reported {pc : Nat → Pc} {c c' : Nat} {e : Int} (hc : ∀ e, pc c ≠ .reported e)
    (hc' : pc c' = .reported e) (p : Pc) : Function.update pc c p c' = .reported e := by
  rw [Function.update_noteq fun h => hc e (by rw [← h]; exact hc')]
  exact hc'

/-- A call that moved to `p`, not a report, has not reported. -/
theorem of_update_reported {pc : Nat → Pc} {c c' : Nat} {p : Pc} {e : Int}
    (hp : ∀ e, p ≠ .reported e) (h : Function.update pc c p c' = .reported e) :
    pc c' = .reported e :=
  (update_cases h).elim (fun h' => absurd h'.2 (hp e)) And.right

theorem loadError_ne_reported (err e : Int) : loadError err ≠ .reported e := by
  unfold loadError; split_ifs <;> simp

/-- Before anything happens, the invariant holds. -/
theorem inv_init (h : Init s) : Inv s where
  pending he := absurd h.1 he
  closed e he := by simp [h.2.1] at he
  loaded c e hc := by simp [h.2.2 c] at hc
  reported c e hc := by simp [h.2.2 c] at hc
  kept e he := by simp [h.2.1] at he

namespace Inv

/-- Before anything is recorded, no call has loaded or reported an error. -/
theorem quiet (h : Inv s) (hr : s.recorded = none) (c : Nat) (e : Int) :
    s.pc c ≠ .loaded e ∧ s.pc c ≠ .reported e :=
  ⟨fun hc => by simp [h.loaded c e hc] at hr, fun hc => by simp [(h.reported c e hc).1] at hr⟩

/-- `tcp_rcv` records an error only while none is recorded, and closes the connection. -/
theorem input (h : Inv s) (seg : Segment) :
    Inv ⟨tcpRcv s.sock seg, s.pc,
      if (tcpRcv s.sock seg).error = s.sock.error then s.recorded
      else some (tcpRcv s.sock seg).error⟩ := by
  cases hr : s.recorded with
  | some e =>
    -- Closed: `tcp_rcv` does nothing.
    simp only [tcpRcv_of_closed (h.closed e hr).2 seg, if_true]
    exact hr ▸ h
  | none =>
    have he0 : s.sock.error = 0 := by_contra fun he => by simp [h.pending he] at hr
    split_ifs with he
    · exact ⟨fun h' => absurd (he.trans he0) h', by simp, fun c e hc => absurd hc (h.quiet hr c e).1,
        fun c e hc => absurd hc (h.quiet hr c e).2, by simp⟩
    -- A reset: the error is recorded and the connection closes.
    obtain ⟨herr, hcl⟩ := (error_tcpRcv s.sock seg).resolve_left he
    refine ⟨fun _ => rfl, fun e' he' => ?_, fun c e hc => absurd hc (h.quiet hr c e).1,
      fun c e hc => absurd hc (h.quiet hr c e).2, fun e' he' => .inl (Option.some.inj he')⟩
    cases he'
    exact ⟨by rcases herr with herr | herr <;> rw [herr] <;> decide, hcl⟩

/-- A load takes the call to the pending error, which is the recorded one. -/
theorem load (h : Inv s) {c : Nat} (hc : s.pc c = .start) :
    Inv ⟨s.sock, Function.update s.pc c (loadError s.sock.error), s.recorded⟩ where
  pending := h.pending
  closed := h.closed
  loaded c' e hc' := by
    rcases update_cases hc' with ⟨-, hp⟩ | ⟨-, hc'⟩
    · unfold loadError at hp
      split_ifs at hp with h0
      cases hp
      exact h.pending h0
    · exact h.loaded c' e hc'
  reported c' e hc' := by
    rcases update_cases hc' with ⟨-, hp⟩ | ⟨-, hc'⟩
    · unfold loadError at hp
      split_ifs at hp
    · exact h.reported c' e hc'
  kept e he := (h.kept e he).imp id fun ⟨c', hc'⟩ => ⟨c', update_reported (by simp [hc]) hc' _⟩

/-- A store clears the error, and the call reports the one it loaded: the recorded one. -/
theorem store (h : Inv s) {c : Nat} {err : Int} (hc : s.pc c = .loaded err) :
    Inv ⟨s.sock.setError 0, Function.update s.pc c (.reported err), s.recorded⟩ where
  pending h0 := absurd rfl h0
  closed e he := by simpa using h.closed e he
  loaded c' e hc' := by
    rcases update_cases hc' with ⟨-, hp⟩ | ⟨-, hc'⟩
    · cases hp
    · exact h.loaded c' e hc'
  reported c' e hc' := by
    rcases update_cases hc' with ⟨-, hp⟩ | ⟨-, hc'⟩
    · cases hp
      exact ⟨h.loaded c err hc, rfl⟩
    · exact ⟨(h.reported c' e hc').1, rfl⟩
  kept e he := by
    -- The recorded error is the one `c` loaded, and `c` now reports it.
    cases (Option.some.inj ((h.loaded c err hc).symm.trans he))
    exact .inr ⟨c, by simp⟩

theorem retry (h : Inv s) {c : Nat} (hc : s.pc c = .passed) :
    Inv ⟨s.sock, Function.update s.pc c .start, s.recorded⟩ where
  pending := h.pending
  closed := h.closed
  loaded c' e hc' := by
    rcases update_cases hc' with ⟨-, hp⟩ | ⟨-, hc'⟩
    · cases hp
    · exact h.loaded c' e hc'
  reported c' e hc' := by
    rcases update_cases hc' with ⟨-, hp⟩ | ⟨-, hc'⟩
    · cases hp
    · exact h.reported c' e hc'
  kept e he := (h.kept e he).imp id fun ⟨c', hc'⟩ => ⟨c', update_reported (by simp [hc]) hc' _⟩

theorem step (h : Inv s) (hs : Step op s s') : Inv s' := by
  cases hs with
  | input seg => exact h.input seg
  | load c hc => exact h.load hc
  | store c err hc => exact h.store hc
  | retry c _ hc => exact h.retry hc

/-- Every state a run reaches satisfies the invariant. -/
theorem run (h : Inv s) (hrun : Relation.ReflTransGen (Step op) s s') : Inv s' := by
  induction hrun with
  | refl => exact h
  | tail _ hs ih => exact ih.step hs

end Inv

/-! ## Checks that do not overlap -/

/-- No two calls are between their load and their store. -/
def Serial (s : ErrorSystem) : Prop :=
  ∀ c c' e e', s.pc c = .loaded e → s.pc c' = .loaded e' → c = c'

/-- What holds besides `Inv` while the checks do not overlap: at most one call has reported,
    and then no call has loaded. -/
structure Once (s : ErrorSystem) : Prop where
  serial : Serial s
  unique : ∀ c c' e e', s.pc c = .reported e → s.pc c' = .reported e' → c = c'
  settled : ∀ c c' e e', s.pc c = .reported e → s.pc c' ≠ .loaded e'

theorem once_init (h : Init s) : Once s where
  serial c _ e _ hc := by simp [h.2.2 c] at hc
  unique c _ e _ hc := by simp [h.2.2 c] at hc
  settled c _ e _ hc := by simp [h.2.2 c] at hc

/-- A step to a state where no two checks overlap keeps `Once`. -/
theorem Once.step (hi : Inv s) (ho : Once s) (hs : Step op s s') (hser : Serial s') : Once s' := by
  cases hs with
  | input seg => exact ⟨hser, ho.unique, ho.settled⟩
  | load c hc =>
    have hold : ∀ {c' e}, Function.update s.pc c (loadError s.sock.error) c' = .reported e →
        s.pc c' = .reported e := of_update_reported (loadError_ne_reported _)
    refine ⟨hser, fun c1 c2 e1 e2 h1 h2 => ho.unique c1 c2 e1 e2 (hold h1) (hold h2),
      fun c1 c2 e1 e2 h1 h2 => ?_⟩
    rcases update_cases h2 with ⟨-, hp⟩ | ⟨-, h2⟩
    · -- After a report nothing is pending, so this load finds nothing.
      unfold loadError at hp
      split_ifs at hp with h0
      exact h0 (hi.reported c1 e1 (hold h1)).2
    · exact ho.settled c1 c2 e1 e2 (hold h1) h2
  | store c err hc =>
    refine ⟨hser, fun c1 c2 e1 e2 h1 h2 => ?_, fun c1 c2 e1 e2 h1 h2 => ?_⟩
    · rcases update_cases h1 with ⟨rfl, -⟩ | ⟨-, h1'⟩ <;>
        rcases update_cases h2 with ⟨rfl, -⟩ | ⟨-, h2'⟩
      · rfl
      · exact (ho.settled c2 c1 e2 err h2' hc).elim
      · exact (ho.settled c1 c2 e1 err h1' hc).elim
      · exact ho.unique c1 c2 e1 e2 h1' h2'
    · rcases update_cases h2 with ⟨-, hp⟩ | ⟨hne, h2'⟩
      · cases hp
      rcases update_cases h1 with ⟨rfl, -⟩ | ⟨-, h1'⟩
      · -- The reporting call was the one loaded call.
        exact hne (ho.serial c2 c1 e2 err h2' hc)
      · exact ho.settled c1 c2 e1 e2 h1' h2'
  | retry c _ hc =>
    have hold : ∀ {c' e}, Function.update s.pc c .start c' = .reported e → s.pc c' = .reported e :=
      of_update_reported (by simp)
    refine ⟨hser, fun c1 c2 e1 e2 h1 h2 => ho.unique c1 c2 e1 e2 (hold h1) (hold h2),
      fun c1 c2 e1 e2 h1 h2 => ?_⟩
    rcases update_cases h2 with ⟨-, hp⟩ | ⟨-, h2⟩
    · cases hp
    · exact ho.settled c1 c2 e1 e2 (hold h1) h2

/-- Every state a run without overlapping checks reaches satisfies both invariants. -/
theorem Once.run (hs : Init s)
    (hrun : Relation.ReflTransGen (fun a b => Step op a b ∧ Serial b) s s') : Inv s' ∧ Once s' := by
  induction hrun with
  | refl => exact ⟨inv_init hs, once_init hs⟩
  | tail _ hab ih => exact ⟨ih.1.step hab.1, ih.2.step ih.1 hab.1 hab.2⟩

/-- A state where only call `k` can be between its load and its store has no overlap. -/
theorem serial_of_loaded_eq {s : ErrorSystem} {k : Nat} (h : ∀ c e, s.pc c = .loaded e → c = k) :
    Serial s :=
  fun c c' e e' hc hc' => (h c e hc).trans (h c' e' hc').symm

end ErrorSystem

/-- An established connection, nothing pending, and calls about to check. -/
def twoReads : ErrorSystem :=
  ⟨⟨⟨.established, 0, 1, 0, 0, 0, [], fun _ => none⟩, [], false, 0⟩, fun _ => .start, none⟩

/-- A reset. -/
def resetSegment : Segment := ⟨false, false, true, false, 1, 0, 0, []⟩

namespace ErrorSystem

/-! ## What becomes of the recorded error -/

/-- Along every run, a call reports only the recorded error, and the recorded error is pending
    or reported by some call. -/
theorem error_kept (hs : Init s) (hrun : Relation.ReflTransGen (Step op) s s') :
    (∀ c e, s'.pc c = .reported e → s'.recorded = some e) ∧
      ∀ e, s'.recorded = some e → s'.sock.error = e ∨ ∃ c, s'.pc c = .reported e :=
  have h := (inv_init hs).run hrun
  ⟨fun c e hc => (h.reported c e hc).1, h.kept⟩

/-- A reset, then read `0` loads `ECONNRESET` and reports it. -/
theorem error_kept_reset :
    Init twoReads ∧ ∃ s', Relation.ReflTransGen (Step fun _ => .read) twoReads s' ∧
      s'.pc 0 = .reported (-econnreset) ∧
      (∀ c e, s'.pc c = .reported e → s'.recorded = some e) ∧
      ∀ e, s'.recorded = some e → s'.sock.error = e ∨ ∃ c, s'.pc c = .reported e :=
  have hinit : Init twoReads := ⟨rfl, rfl, fun _ => rfl⟩
  have hrun := ((Relation.ReflTransGen.single (.input twoReads resetSegment)).tail
    (.load _ 0 rfl)).tail (.store _ 0 (-econnreset) rfl)
  ⟨hinit, _, hrun, rfl, error_kept hinit hrun⟩

/-- When no two checks overlap, the recorded error is pending and reported by no call, or
    reported by exactly one. -/
theorem report_once (hs : Init s)
    (hrun : Relation.ReflTransGen (fun a b => Step op a b ∧ Serial b) s s') {e : Int}
    (he : s'.recorded = some e) :
    (s'.sock.error = e ∧ ∀ c, s'.pc c ≠ .reported e) ∨ ∃! c, s'.pc c = .reported e := by
  have h := Once.run hs hrun
  rcases h.1.kept e he with herr | ⟨c, hc⟩
  · refine .inl ⟨herr, fun c hc => (h.1.closed e he).1 ?_⟩
    rw [← herr]
    exact (h.1.reported c e hc).2
  · exact .inr ⟨c, hc, fun c' hc' => h.2.unique c' c e e hc' hc⟩

/-- A reset, then read `0` checks alone: it alone reports `ECONNRESET`. -/
theorem report_once_reset :
    Init twoReads ∧ ∃ s', Relation.ReflTransGen (fun a b => Step (fun _ => .read) a b ∧ Serial b)
        twoReads s' ∧ s'.recorded = some (-econnreset) ∧
      ((s'.sock.error = -econnreset ∧ ∀ c, s'.pc c ≠ .reported (-econnreset)) ∨
        ∃! c, s'.pc c = .reported (-econnreset)) := by
  have hinit : Init twoReads := ⟨rfl, rfl, fun _ => rfl⟩
  -- Only call `0` ever loads the error.
  have hrun := ((Relation.ReflTransGen.single (r := fun a b => Step (fun _ => .read) a b ∧ Serial b)
      ⟨.input twoReads resetSegment, serial_of_loaded_eq (k := 0) fun c e hc => by cases hc⟩).tail
    ⟨.load _ 0 rfl, serial_of_loaded_eq fun c e hc => by
      rcases update_cases hc with ⟨rfl, -⟩ | ⟨-, hc⟩
      exacts [rfl, by cases hc]⟩).tail
    ⟨.store _ 0 (-econnreset) rfl, serial_of_loaded_eq (k := 0) fun c e hc => by
      rcases update_cases hc with ⟨-, hp⟩ | ⟨-, hc⟩
      · cases hp
      rcases update_cases hc with ⟨rfl, -⟩ | ⟨-, hc⟩
      exacts [rfl, by cases hc]⟩
  exact ⟨hinit, _, hrun, rfl, report_once hinit hrun rfl⟩

end ErrorSystem

/-- `tcp_rcv` takes a reset and records `ECONNRESET`; reads `0` and `1` both load it, then
    both clear it and return it. -/
theorem error_reported_twice :
    ErrorSystem.Init twoReads ∧ ∃ s', Relation.ReflTransGen (ErrorSystem.Step fun _ => .read) twoReads s' ∧
      s'.recorded = some (-econnreset) ∧ s'.pc 0 = .reported (-econnreset) ∧
      s'.pc 1 = .reported (-econnreset) :=
  ⟨⟨rfl, rfl, fun _ => rfl⟩, _,
    ((((Relation.ReflTransGen.single (.input _ resetSegment)).tail (.load _ 0 rfl)).tail
      (.load _ 1 rfl)).tail (.store _ 0 (-econnreset) rfl)).tail (.store _ 1 (-econnreset) rfl),
    rfl, rfl, rfl⟩

end HkKernel.Tcp
