import HkKernel.Net.EtherType

/-!
# Network buffers

A network buffer (`net/skb.rs`) is one zeroed allocation with four cursors,
`head ≤ data ≤ tail ≤ end`: the payload is `[data, tail)`, the headroom `[head, data)`, where
headers are pushed, and the tailroom `[tail, end)`, where data is put. Here the cursors are
offsets into the allocation, whose bytes are a list, and `head` is `0`; the source's raw
pointers are the allocation's address plus these offsets. A method returning a slice
returns its position (`Slice`), into which the caller writes (`SkBuff.write`).

Every mutator is modelled as the source has it, returning the buffer after the call, also
when it fails. Two of them do not check their argument: `reserve`, whose bound is a
`debug_assert!` (absent from release builds, as in the model), and `reset`, which has no
check at all. Both can move `data` past `end`:

* `reserve_past_end`: on an empty allocation, `reserve 1` leaves `data = 1 > end = 0`;
* `Op.apply_valid`: every other call keeps the cursors in order, and so do `reserve` and
  `reset` within the bound the `debug_assert!` states; no call moves `head` or `end`
  (`Op.apply_head`, `Op.apply_end`);
* `refines_payload`: a buffer with its cursors in order refines a byte sequence with room
  at both ends (`Payload`): every call succeeds exactly when the abstract operation does,
  leaves the byte sequence it gives, and writes the allocation only where it moved;
* `valid_run_alloc`: every buffer that `alloc` and a sequence of calls within their bounds
  reach has its cursors in order (`run_valid`), so it refines its byte sequence.

Lengths are `usize` in the source and `Nat` here: `headroom + data_len` in `alloc` could only
overflow for arguments beyond `2^64 - 2^11`.
-/

namespace HkKernel

/-- Checksum state for hardware offload (`ChecksumState`; `Partial` is `partialSum`). -/
inductive ChecksumState
  | none
  | unnecessary
  | partialSum
  | complete
  deriving DecidableEq, Repr

/-- Standard headroom reserved for headers (`NET_SKB_PAD`). -/
def netSkbPad : Nat := 64

/-- Maximum Ethernet frame size without VLAN (`ETH_FRAME_LEN`). -/
def ethFrameLen : Nat := 1514

/-- Maximum packet size allocated (`MAX_SKB_SIZE`). -/
def maxSkbSize : Nat := 2048

/-- A network buffer (`SkBuff`). -/
structure SkBuff where
  /-- The bytes of the allocation. -/
  mem : List UInt8
  /-- Start of the allocation (fixed). -/
  head : Nat
  /-- Start of the packet data (moves with push and pull). -/
  data : Nat
  /-- End of the packet data (moves with put and trim). -/
  tail : Nat
  /-- End of the allocation (fixed). -/
  «end» : Nat
  allocSize : Nat
  protocol : EtherType
  ipProtocol : UInt8
  transportHeader : Nat
  networkHeader : Nat
  macHeader : Nat
  /-- The device, by its index. -/
  dev : Option Nat
  dmaAddr : Option Nat
  ipSummed : ChecksumState
  saddr : Option UInt32
  daddr : Option UInt32
  deriving DecidableEq, Repr

/-- The slice `[start, start + len)` of the allocation a method returns. -/
structure Slice where
  start : Nat
  len : Nat
  deriving DecidableEq, Repr

namespace SkBuff

/-- `SkBuff::alloc`: a zeroed allocation of `headroom + data_len` bytes, empty, its data
    after the headroom; none beyond `MAX_SKB_SIZE`. -/
def alloc (headroom dataLen : Nat) : Option SkBuff :=
  let totalSize := headroom + dataLen
  if totalSize > maxSkbSize then none
  else some
    { mem := List.replicate totalSize 0, head := 0, data := headroom, tail := headroom,
      «end» := totalSize, allocSize := totalSize, protocol := .unknown 0, ipProtocol := 0,
      transportHeader := 0, networkHeader := 0, macHeader := 0, dev := none, dmaAddr := none,
      ipSummed := .none, saddr := none, daddr := none }

/-- `SkBuff::alloc_rx`. -/
def allocRx : Option SkBuff := alloc netSkbPad ethFrameLen

/-- `SkBuff::alloc_tx`: room for the Ethernet, IP and TCP headers. -/
def allocTx (dataLen : Nat) : Option SkBuff := alloc (14 + 60 + 60) dataLen

variable (s : SkBuff)

/-- `SkBuff::len`. -/
def len : Nat := s.tail - s.data

/-- `SkBuff::headroom`. -/
def headroom : Nat := s.data - s.head

/-- `SkBuff::tailroom`: `end - tail` in `usize`, which wraps when `tail` is past `end`. -/
def tailroom : Nat := if s.tail ≤ s.«end» then s.«end» - s.tail else 2 ^ 64 - (s.tail - s.«end»)

/-- The bytes of a slice. -/
def read (v : Slice) : List UInt8 := (s.mem.drop v.start).take v.len

/-- `SkBuff::data`: the payload. -/
def bytes : List UInt8 := s.read ⟨s.data, s.len⟩

/-- The caller copying `bs` into the slice starting at `start`. -/
def write (start : Nat) (bs : List UInt8) : SkBuff :=
  { s with mem := s.mem.take start ++ bs ++ s.mem.drop (start + bs.length) }

theorem tailroom_eq {s : SkBuff} (h : s.tail ≤ s.«end») : s.tailroom = s.«end» - s.tail := if_pos h

/-- `SkBuff::reserve`: moves `data` forward by `len` and empties the buffer. -/
def reserve (len : Nat) : SkBuff := { s with data := s.data + len, tail := s.data + len }

/-- `SkBuff::push`: moves `data` back by `len`, returning the slice prepended. -/
def push (len : Nat) : SkBuff × Option Slice :=
  if s.headroom < len then (s, none)
  else ({ s with data := s.data - len }, some ⟨s.data - len, len⟩)

/-- `SkBuff::pull`: moves `data` forward by `len`, returning the slice consumed. -/
def pull (len : Nat) : SkBuff × Option Slice :=
  if s.len < len then (s, none)
  else ({ s with data := s.data + len }, some ⟨s.data, len⟩)

/-- `SkBuff::put`: moves `tail` forward by `len`, returning the slice appended. -/
def put (len : Nat) : SkBuff × Option Slice :=
  if s.tailroom < len then (s, none)
  else ({ s with tail := s.tail + len }, some ⟨s.tail, len⟩)

/-- `SkBuff::put_slice`: `put`, then copying `data` into the slice. -/
def putSlice (data : List UInt8) : SkBuff × Bool :=
  match s.put data.length with
  | (s', some v) => (s'.write v.start data, true)
  | (s', none) => (s', false)

/-- `SkBuff::trim`: moves `tail` back by `len`. -/
def trim (len : Nat) : SkBuff × Bool :=
  if s.len < len then (s, false) else ({ s with tail := s.tail - len }, true)

/-- `SkBuff::set_len`: `put` or `trim` to the length `len`. -/
def setLen (len : Nat) : SkBuff × Bool :=
  let currentLen := s.len
  if len > currentLen then
    match s.put (len - currentLen) with
    | (s', some _) => (s', true)
    | (s', none) => (s', false)
  else if len < currentLen then s.trim (currentLen - len)
  else (s, true)

/-- `SkBuff::reset`: empty again after `headroom` bytes, the protocol tags cleared (the
    device and DMA address are kept). -/
def reset (headroom : Nat) : SkBuff :=
  { s with
    data := s.head + headroom, tail := s.head + headroom, protocol := .unknown 0,
    ipProtocol := 0, transportHeader := 0, networkHeader := 0, macHeader := 0,
    ipSummed := .none, saddr := none, daddr := none }

/-! ## The cursor invariant -/

/-- The cursors are in order, `head ≤ data ≤ tail ≤ end`, `end` is `alloc_size` bytes past
    `head`, and the allocation holds `end` bytes. -/
structure Valid : Prop where
  head_le_data : s.head ≤ s.data
  data_le_tail : s.data ≤ s.tail
  tail_le_end : s.tail ≤ s.«end»
  end_eq : s.«end» = s.head + s.allocSize
  length_mem : s.mem.length = s.«end»

theorem valid_alloc {headroom dataLen : Nat} {s : SkBuff} (h : alloc headroom dataLen = some s) :
    s.Valid := by
  simp only [alloc] at h
  split at h
  · cases h
  · cases h
    exact ⟨Nat.zero_le _, le_rfl, by simp, by simp, by simp⟩

@[simp] theorem write_head (st : Nat) (bs : List UInt8) : (s.write st bs).head = s.head := rfl
@[simp] theorem write_data (st : Nat) (bs : List UInt8) : (s.write st bs).data = s.data := rfl
@[simp] theorem write_tail (st : Nat) (bs : List UInt8) : (s.write st bs).tail = s.tail := rfl
@[simp] theorem write_end (st : Nat) (bs : List UInt8) : (s.write st bs).«end» = s.«end» := rfl
@[simp] theorem write_allocSize (st : Nat) (bs : List UInt8) :
    (s.write st bs).allocSize = s.allocSize := rfl

theorem putSlice_eq (data : List UInt8) :
    s.putSlice data = if s.tailroom < data.length then (s, false)
      else ({ s with tail := s.tail + data.length }.write s.tail data, true) := by
  by_cases h : s.tailroom < data.length <;> simp [putSlice, put, h]

theorem setLen_eq (len : Nat) :
    s.setLen len = if len > s.len then ((s.put (len - s.len)).1, decide (len - s.len ≤ s.tailroom))
      else if len < s.len then s.trim (s.len - len) else (s, true) := by
  by_cases h : len > s.len
  · by_cases h' : s.tailroom < len - s.len <;> simp [setLen, put, h, h'] <;> omega
  · simp [setLen, h]

theorem withTail_congr {a b : Nat} (h : a = b) :
    ({ s with tail := a } : SkBuff) = { s with tail := b } :=
  h ▸ rfl

variable {s}

/-- `set_len` within the room moves `tail` to `data + len`; past it, nothing changes. -/
theorem setLen_spec (hs : s.Valid) (m : Nat) :
    s.setLen m = if m ≤ s.len + s.tailroom then ({ s with tail := s.data + m }, true)
      else (s, false) := by
  obtain ⟨-, h₂, h₃, -, -⟩ := hs
  rw [setLen_eq]
  simp only [len, tailroom_eq h₃, put, trim]
  by_cases h1 : m > s.tail - s.data
  · -- Growing: `put` succeeds exactly within the tailroom.
    by_cases h2 : m ≤ s.tail - s.data + (s.end - s.tail)
    · rw [if_pos h1, if_pos h2, if_neg (show ¬s.end - s.tail < m - (s.tail - s.data) by omega),
        decide_eq_true (show m - (s.tail - s.data) ≤ s.end - s.tail by omega)]
      exact congrArg (·, true) (withTail_congr s (by omega))
    · rw [if_pos h1, if_neg h2, if_pos (show s.end - s.tail < m - (s.tail - s.data) by omega),
        decide_eq_false (show ¬m - (s.tail - s.data) ≤ s.end - s.tail by omega)]
  · -- Shrinking, or staying: `trim` succeeds.
    rw [if_neg h1, if_pos (show m ≤ s.tail - s.data + (s.end - s.tail) by omega)]
    by_cases h3 : m < s.tail - s.data
    · rw [if_pos h3, if_neg (show ¬s.tail - s.data < s.tail - s.data - m by omega)]
      exact congrArg (·, true) (withTail_congr s (by omega))
    · rw [if_neg h3]
      exact congrArg (·, true) (withTail_congr s (show s.tail = s.data + m by omega))

/-! Each call keeps the cursors in order; `reserve` and `reset` only within their bound. -/

theorem valid_reserve (hs : s.Valid) {len : Nat} (hc : s.headroom + len ≤ s.allocSize) :
    (s.reserve len).Valid :=
  have := hs.head_le_data; have := hs.end_eq
  { hs with
    head_le_data := Nat.le_add_right_of_le hs.head_le_data
    data_le_tail := le_rfl
    tail_le_end := by simp only [reserve, headroom] at hc ⊢; omega }

theorem valid_push (hs : s.Valid) (len : Nat) : (s.push len).1.Valid := by
  unfold push; split_ifs with h
  · exact hs
  · simp only [headroom, not_lt] at h
    have := hs.head_le_data; have := hs.data_le_tail
    exact { hs with
      head_le_data := by dsimp only; omega
      data_le_tail := by dsimp only; omega }

theorem valid_pull (hs : s.Valid) (len : Nat) : (s.pull len).1.Valid := by
  unfold pull; split_ifs with h
  · exact hs
  · simp only [SkBuff.len, not_lt] at h
    have := hs.head_le_data; have := hs.data_le_tail
    exact { hs with
      head_le_data := by dsimp only; omega
      data_le_tail := by dsimp only; omega }

theorem valid_put (hs : s.Valid) (len : Nat) : (s.put len).1.Valid := by
  unfold put; split_ifs with h
  · exact hs
  · rw [tailroom_eq hs.tail_le_end, not_lt] at h
    have := hs.data_le_tail; have := hs.tail_le_end
    exact { hs with
      data_le_tail := by dsimp only; omega
      tail_le_end := by dsimp only; omega }

theorem valid_putSlice (hs : s.Valid) (data : List UInt8) : (s.putSlice data).1.Valid := by
  rw [putSlice_eq]; split_ifs with h
  · exact hs
  · rw [tailroom_eq hs.tail_le_end, not_lt] at h
    have := hs.data_le_tail; have := hs.tail_le_end; have := hs.length_mem
    exact { hs with
      data_le_tail := by simp only [write_data, write_tail]; omega
      tail_le_end := by simp only [write_tail, write_end]; omega
      length_mem := by
        simp only [write, List.length_append, List.length_take, List.length_drop]; omega }

theorem valid_trim (hs : s.Valid) (len : Nat) : (s.trim len).1.Valid := by
  unfold trim; split_ifs with h
  · exact hs
  · simp only [SkBuff.len, not_lt] at h
    have := hs.data_le_tail; have := hs.tail_le_end
    exact { hs with
      data_le_tail := by dsimp only; omega
      tail_le_end := by dsimp only; omega }

theorem valid_setLen (hs : s.Valid) (m : Nat) : (s.setLen m).1.Valid := by
  rw [setLen_spec hs]; split_ifs with h
  · simp only [SkBuff.len, tailroom_eq hs.tail_le_end] at h
    have := hs.data_le_tail; have := hs.tail_le_end
    exact { hs with
      data_le_tail := Nat.le_add_right _ _
      tail_le_end := by dsimp only; omega }
  · exact hs

theorem valid_reset (hs : s.Valid) {headroom : Nat} (hc : headroom ≤ s.allocSize) :
    (s.reset headroom).Valid :=
  have := hs.end_eq
  { hs with
    head_le_data := Nat.le_add_right _ _
    data_le_tail := le_rfl
    tail_le_end := by simp only [reset]; omega }

variable (s)

/-- A call on a buffer, with its argument. -/
inductive Op
  | reserve (len : Nat)
  | push (len : Nat)
  | pull (len : Nat)
  | put (len : Nat)
  | putSlice (data : List UInt8)
  | trim (len : Nat)
  | setLen (len : Nat)
  | reset (headroom : Nat)

/-- A call: the buffer after it, and whether it succeeded (returned `Some`, or `()`). -/
def Op.apply : Op → SkBuff → SkBuff × Bool
  | .reserve len, s => (s.reserve len, true)
  | .push len, s => ((s.push len).1, (s.push len).2.isSome)
  | .pull len, s => ((s.pull len).1, (s.pull len).2.isSome)
  | .put len, s => ((s.put len).1, (s.put len).2.isSome)
  | .putSlice data, s => s.putSlice data
  | .trim len, s => s.trim len
  | .setLen len, s => s.setLen len
  | .reset headroom, s => (s.reset headroom, true)

/-- The bound of `reserve`'s `debug_assert!`, and the same bound for `reset`, which states
    none. -/
def Op.Checked : Op → SkBuff → Prop
  | .reserve len, s => s.headroom + len ≤ s.allocSize
  | .reset headroom, s => headroom ≤ s.allocSize
  | _, _ => True

theorem Op.apply_head (op : Op) : (op.apply s).1.head = s.head := by
  cases op <;> simp only [Op.apply, SkBuff.reserve, SkBuff.push, SkBuff.pull, SkBuff.put,
    putSlice_eq, SkBuff.trim, setLen_eq, SkBuff.reset] <;> (try split_ifs) <;> rfl

theorem Op.apply_end (op : Op) :
    (op.apply s).1.«end» = s.«end» ∧ (op.apply s).1.allocSize = s.allocSize := by
  cases op <;> simp only [Op.apply, SkBuff.reserve, SkBuff.push, SkBuff.pull, SkBuff.put,
    putSlice_eq, SkBuff.trim, setLen_eq, SkBuff.reset] <;> (try split_ifs) <;> simp

/-- Every call within its bounds keeps the cursors in order. -/
theorem Op.apply_valid {op : Op} (hs : s.Valid) (hc : op.Checked s) : (op.apply s).1.Valid := by
  cases op with
  | reserve len => exact valid_reserve hs hc
  | push len => exact valid_push hs len
  | pull len => exact valid_pull hs len
  | put len => exact valid_put hs len
  | putSlice data => exact valid_putSlice hs data
  | trim len => exact valid_trim hs len
  | setLen len => exact valid_setLen hs len
  | reset headroom => exact valid_reset hs hc

/-- `reserve` past the allocation, which only a `debug_assert!` rules out: `data` ends up
    past `end`. -/
theorem reserve_past_end :
    (alloc 0 0).map (fun s => ((s.reserve 1).data, (s.reserve 1).«end»)) = some (1, 0) := rfl

/-- The buffer after a sequence of calls. -/
def run (s : SkBuff) : List Op → SkBuff
  | [] => s
  | op :: ops => run (op.apply s).1 ops

/-- Every call of a sequence is within its bounds. -/
def Checked (s : SkBuff) : List Op → Prop
  | [] => True
  | op :: ops => op.Checked s ∧ Checked (op.apply s).1 ops

/-- Every sequence of calls within their bounds keeps the cursors in order (from a buffer of
    `alloc`, by `valid_alloc`). -/
theorem run_valid {s : SkBuff} (hs : s.Valid) {ops : List Op} (hc : Checked s ops) :
    (run s ops).Valid := by
  induction ops generalizing s with
  | nil => exact hs
  | cons op ops ih => exact ih (Op.apply_valid s hs hc.1) hc.2

/-- No sequence of calls moves `head` or `end`. -/
theorem run_head_end (s : SkBuff) (ops : List Op) :
    (run s ops).head = s.head ∧ (run s ops).«end» = s.«end» := by
  induction ops generalizing s with
  | nil => exact ⟨rfl, rfl⟩
  | cons op ops ih =>
    obtain ⟨hhead, hend⟩ := ih (op.apply s).1
    exact ⟨hhead.trans (Op.apply_head s op), hend.trans (Op.apply_end s op).1⟩

end SkBuff

/-! ## The buffer as a byte sequence -/

/-- What a buffer stands for: a byte sequence, with room to grow at either end. -/
structure Payload where
  headroom : Nat
  bytes : List UInt8
  tailroom : Nat
  deriving DecidableEq, Repr

namespace Payload

variable (q : Payload)

/-- Prepending `hdr`, if the headroom holds it. -/
def push (hdr : List UInt8) : Option Payload :=
  if hdr.length ≤ q.headroom then some ⟨q.headroom - hdr.length, hdr ++ q.bytes, q.tailroom⟩
  else none

/-- Taking off the first `n` bytes, if there are that many. -/
def pull (n : Nat) : Option (List UInt8 × Payload) :=
  if n ≤ q.bytes.length then
    some (q.bytes.take n, ⟨q.headroom + n, q.bytes.drop n, q.tailroom⟩)
  else none

/-- Appending `data`, if the tailroom holds it. -/
def append (data : List UInt8) : Option Payload :=
  if data.length ≤ q.tailroom then some ⟨q.headroom, q.bytes ++ data, q.tailroom - data.length⟩
  else none

/-- Dropping the last `n` bytes, if there are that many. -/
def trim (n : Nat) : Option Payload :=
  if n ≤ q.bytes.length then
    some ⟨q.headroom, q.bytes.take (q.bytes.length - n), q.tailroom + n⟩
  else none

end Payload

namespace SkBuff

variable (s : SkBuff)

/-- The byte sequence a buffer stands for. -/
def payload : Payload := ⟨s.headroom, s.bytes, s.tailroom⟩

/-- `push`, then the caller copying `hdr` into the slice it returns (as `eth_header` does). -/
def pushFill (hdr : List UInt8) : Option SkBuff :=
  match s.push hdr.length with
  | (s', some v) => some (s'.write v.start hdr)
  | (_, none) => none

/-- The buffer after a call, if it succeeded. -/
def ok (r : SkBuff × Bool) : Option SkBuff := if r.2 then some r.1 else none

variable {s}

/-- Overwriting `bs` at `st` and reading from there gives `bs`, then what followed it. -/
theorem take_drop_write (l bs : List UInt8) (st : Nat) (h : st ≤ l.length) (k : Nat) :
    ((l.take st ++ bs ++ l.drop (st + bs.length)).drop st).take (bs.length + k) =
      bs ++ (l.drop (st + bs.length)).take k := by
  rw [List.append_assoc, List.drop_left' (by simp; omega), List.take_append_eq_append_take,
    List.take_of_length_le (Nat.le_add_right _ _), Nat.add_sub_cancel_left]

/-- Overwriting `bs` at `st` and reading from `d ≤ st` gives what preceded it, then `bs`. -/
theorem take_drop_write_le (l bs : List UInt8) {d st : Nat} (hd : d ≤ st) (h : st ≤ l.length) :
    ((l.take st ++ bs ++ l.drop (st + bs.length)).drop d).take (st - d + bs.length) =
      (l.drop d).take (st - d) ++ bs := by
  have hlen : ((l.drop d).take (st - d)).length = st - d := by simp; omega
  rw [List.append_assoc, List.drop_append_of_le_length (by simp; omega), List.drop_take,
    List.take_append_eq_append_take, List.take_of_length_le (by omega), hlen, Nat.add_sub_cancel_left,
    List.take_left' rfl]

theorem length_bytes (hs : s.Valid) : s.bytes.length = s.len := by
  simp [bytes, read, len, hs.length_mem]
  have := hs.data_le_tail; have := hs.tail_le_end
  omega

theorem valid_pushFill (hs : s.Valid) {hdr : List UInt8} {s' : SkBuff}
    (h : s.pushFill hdr = some s') : s'.Valid := by
  unfold pushFill push at h
  split_ifs at h with hr
  cases h
  simp only [headroom, not_lt] at hr
  have := hs.head_le_data; have := hs.data_le_tail; have := hs.tail_le_end; have := hs.length_mem
  exact { hs with
    head_le_data := by simp only [write_head, write_data]; omega
    data_le_tail := by simp only [write_data, write_tail]; omega
    length_mem := by
      simp only [write, List.length_append, List.length_take, List.length_drop]; omega }

theorem pushFill_payload (hs : s.Valid) (hdr : List UInt8) :
    (s.pushFill hdr).map payload = s.payload.push hdr ∧
      ∀ s', s.pushFill hdr = some s' →
        s'.mem = s.mem.take (s.data - hdr.length) ++ hdr ++ s.mem.drop s.data := by
  obtain ⟨h₁, h₂, h₃, -, h₅⟩ := hs
  by_cases h : hdr.length ≤ s.headroom
  · have hd : s.data - hdr.length + hdr.length = s.data := by simp [headroom] at h; omega
    have hb := take_drop_write s.mem hdr (s.data - hdr.length) (by omega)
      (s.tail - s.data)
    simp only [pushFill, push, if_neg (Nat.not_lt.2 h), Payload.push, payload, write,
      hd] at hb ⊢
    refine ⟨?_, by rintro s' ⟨⟩; rfl⟩
    rw [if_pos h]
    simp (disch := ((try dsimp only); omega)) only [Option.map_some', Option.some.injEq, payload,
      Payload.mk.injEq, bytes, read, len, headroom, tailroom_eq] at h ⊢
    refine ⟨by omega, ?_, trivial⟩
    rw [show s.tail - (s.data - hdr.length) = hdr.length + (s.tail - s.data) by omega, hb]
  · simp [pushFill, push, Payload.push, payload, Nat.lt_of_not_le h, h]

theorem pull_payload (hs : s.Valid) (n : Nat) :
    ((s.pull n).2.map fun v => ((s.pull n).1.read v, (s.pull n).1.payload)) = s.payload.pull n ∧
      (s.pull n).1.mem = s.mem := by
  refine ⟨?_, by unfold pull; split <;> rfl⟩
  have hb := length_bytes hs
  obtain ⟨h₁, h₂, -, -, -⟩ := hs
  by_cases h : n ≤ s.len
  · have hp : s.pull n = ({ s with data := s.data + n }, some ⟨s.data, n⟩) :=
      if_neg (Nat.not_lt.2 h)
    have hq : s.payload.pull n = some (s.bytes.take n, ⟨s.headroom + n, s.bytes.drop n, s.tailroom⟩) :=
      if_pos (hb ▸ h)
    rw [hp, hq]
    simp only [len] at h
    simp only [Option.map_some', payload, read, bytes, len, headroom, tailroom, List.take_take,
      List.drop_take, List.drop_drop, Nat.min_eq_left h, Nat.sub_sub, Nat.sub_add_comm h₁]
  · simp [pull, Payload.pull, payload, Nat.lt_of_not_le h, hb, h]

theorem put_payload (hs : s.Valid) (n : Nat) :
    ((s.put n).2.map fun _ => (s.put n).1.payload) =
        (if n ≤ s.tailroom then s.payload.append (s.read ⟨s.tail, n⟩) else none) ∧
      (s.put n).1.mem = s.mem := by
  refine ⟨?_, by unfold put; split <;> rfl⟩
  obtain ⟨h₁, h₂, h₃, -, h₅⟩ := hs
  by_cases h : n ≤ s.tailroom
  · have hp : s.put n = ({ s with tail := s.tail + n }, some ⟨s.tail, n⟩) :=
      if_neg (Nat.not_lt.2 h)
    rw [tailroom_eq h₃] at h
    have hr : (s.read ⟨s.tail, n⟩).length = n := by simp [read] at h ⊢; omega
    have hq : s.payload.append (s.read ⟨s.tail, n⟩) =
        some ⟨s.headroom, s.bytes ++ s.read ⟨s.tail, n⟩, s.tailroom - n⟩ := by
      simp only [Payload.append, payload, hr, tailroom_eq h₃, if_pos h]
    rw [hp, tailroom_eq h₃, if_pos h, hq]
    simp (disch := ((try dsimp only); omega)) only [Option.map_some', payload, read, bytes,
      len, headroom, tailroom_eq, Nat.sub_add_eq]
    rw [show s.tail + n - s.data = (s.tail - s.data) + n by omega, List.take_add, List.drop_drop,
      Nat.add_sub_cancel' h₂]
  · simp [put, Nat.lt_of_not_le h, h]

theorem putSlice_payload (hs : s.Valid) (data : List UInt8) :
    (ok (s.putSlice data)).map payload = s.payload.append data ∧
      ∀ s', ok (s.putSlice data) = some s' →
        s'.mem = s.mem.take s.tail ++ data ++ s.mem.drop (s.tail + data.length) := by
  obtain ⟨h₁, h₂, h₃, -, h₅⟩ := hs
  by_cases h : data.length ≤ s.tailroom
  · have hp : s.putSlice data = ({ s with tail := s.tail + data.length }.write s.tail data, true) := by
      rw [putSlice_eq, if_neg (Nat.not_lt.2 h)]
    have hq : s.payload.append data = some ⟨s.headroom, s.bytes ++ data, s.tailroom - data.length⟩ :=
      if_pos h
    have hb := take_drop_write_le s.mem data h₂ (by omega)
    rw [hp, hq]
    refine ⟨?_, by rintro s' ⟨⟩; rfl⟩
    rw [tailroom_eq h₃] at h
    simp (disch := ((try dsimp only); omega)) only [ok, if_true, Option.map_some', payload,
      read, bytes, len, headroom, tailroom_eq, write, Nat.sub_add_eq]
    rw [show s.tail + data.length - s.data = s.tail - s.data + data.length by omega, hb]
  · simp [ok, putSlice_eq, Payload.append, payload, Nat.lt_of_not_le h, h]

theorem trim_payload (hs : s.Valid) (n : Nat) :
    (ok (s.trim n)).map payload = s.payload.trim n ∧ (s.trim n).1.mem = s.mem := by
  refine ⟨?_, by unfold trim; split <;> rfl⟩
  have hb := length_bytes hs
  obtain ⟨h₁, h₂, h₃, -, -⟩ := hs
  by_cases h : n ≤ s.len
  · have hp : s.trim n = ({ s with tail := s.tail - n }, true) := if_neg (Nat.not_lt.2 h)
    have hq : s.payload.trim n =
        some ⟨s.headroom, s.bytes.take (s.bytes.length - n), s.tailroom + n⟩ := if_pos (hb ▸ h)
    rw [hp, hq, hb]
    simp only [len] at h
    simp (disch := ((try dsimp only); omega)) only [ok, if_true, Option.map_some', payload,
      read, bytes, len, headroom, tailroom_eq, List.take_take, Nat.min_eq_left (Nat.sub_le _ _),
      Nat.sub_right_comm s.tail n s.data, show s.end - (s.tail - n) = s.end - s.tail + n by omega]
  · simp [ok, trim, Payload.trim, payload, Nat.lt_of_not_le h, hb, h]

theorem setLen_payload (hs : s.Valid) (m : Nat) :
    (ok (s.setLen m)).map payload =
        (if m ≤ s.len + s.tailroom then
          some ⟨s.headroom, (s.mem.drop s.data).take m, s.len + s.tailroom - m⟩ else none) ∧
      (s.setLen m).1.mem = s.mem := by
  have := hs.data_le_tail; have := hs.tail_le_end
  rw [setLen_spec hs]
  split_ifs with h
  · rw [tailroom_eq hs.tail_le_end] at h ⊢
    have ht : ({ s with tail := s.data + m } : SkBuff).tailroom = s.«end» - (s.data + m) :=
      tailroom_eq (show s.data + m ≤ s.«end» by simp only [len] at h; omega)
    simp only [ok, if_true, Option.map_some', payload, bytes, read, len, headroom, ht,
      Nat.add_sub_cancel_left, and_true] at h ⊢
    congr 2; omega
  · simp [ok]

/-- What each call does to the byte sequence a buffer stands for: it succeeds exactly when the
    abstract operation does and leaves the sequence that operation gives (`put` and `set_len`
    growing it by the bytes already in the tailroom), and it touches the allocation's bytes
    only where it moved a cursor over them. -/
def RefinesPayload : Prop :=
  (∀ hdr, (s.pushFill hdr).map payload = s.payload.push hdr ∧
    ∀ s', s.pushFill hdr = some s' →
      s'.mem = s.mem.take (s.data - hdr.length) ++ hdr ++ s.mem.drop s.data) ∧
  (∀ n, ((s.pull n).2.map fun v => ((s.pull n).1.read v, (s.pull n).1.payload)) =
      s.payload.pull n ∧ (s.pull n).1.mem = s.mem) ∧
  (∀ n, ((s.put n).2.map fun _ => (s.put n).1.payload) =
      (if n ≤ s.tailroom then s.payload.append (s.read ⟨s.tail, n⟩) else none) ∧
    (s.put n).1.mem = s.mem) ∧
  (∀ data, (ok (s.putSlice data)).map payload = s.payload.append data ∧
    ∀ s', ok (s.putSlice data) = some s' →
      s'.mem = s.mem.take s.tail ++ data ++ s.mem.drop (s.tail + data.length)) ∧
  (∀ n, (ok (s.trim n)).map payload = s.payload.trim n ∧ (s.trim n).1.mem = s.mem) ∧
  (∀ m, (ok (s.setLen m)).map payload =
      (if m ≤ s.len + s.tailroom then
        some ⟨s.headroom, (s.mem.drop s.data).take m, s.len + s.tailroom - m⟩ else none) ∧
    (s.setLen m).1.mem = s.mem)

/-- Every buffer with its cursors in order refines its byte sequence. -/
theorem refines_payload (hs : s.Valid) : s.RefinesPayload :=
  ⟨pushFill_payload hs, pull_payload hs, put_payload hs, putSlice_payload hs, trim_payload hs,
    setLen_payload hs⟩

/-- Every buffer that `alloc` and a sequence of calls within their bounds reach has its cursors
    in order, with `head` and `end` where `alloc` put them; so it refines its byte sequence. -/
theorem valid_run_alloc {headroom dataLen : Nat} {s : SkBuff}
    (h : alloc headroom dataLen = some s) {ops : List Op} (hc : Checked s ops) :
    (run s ops).Valid ∧ (run s ops).head = 0 ∧ (run s ops).«end» = headroom + dataLen ∧
      (run s ops).RefinesPayload := by
  have hv := run_valid (valid_alloc h) hc
  obtain ⟨hhead, hend⟩ := run_head_end s ops
  simp only [alloc] at h
  split at h
  · cases h
  · cases h
    exact ⟨hv, hhead, hend, pushFill_payload hv, pull_payload hv, put_payload hv,
      putSlice_payload hv, trim_payload hv, setLen_payload hv⟩

/-- A buffer of `alloc_tx`, three bytes put into it and one pulled off. -/
theorem valid_run_alloc_allocTx :
    alloc (14 + 60 + 60) 3 = some ((allocTx 3).get rfl) ∧
      Checked ((allocTx 3).get rfl) [.putSlice [0x45, 0, 0x14], .pull 1] ∧
      (run ((allocTx 3).get rfl) [.putSlice [0x45, 0, 0x14], .pull 1]).Valid ∧
      (run ((allocTx 3).get rfl) [.putSlice [0x45, 0, 0x14], .pull 1]).head = 0 ∧
      (run ((allocTx 3).get rfl) [.putSlice [0x45, 0, 0x14], .pull 1]).«end» = 14 + 60 + 60 + 3 ∧
      (run ((allocTx 3).get rfl) [.putSlice [0x45, 0, 0x14], .pull 1]).RefinesPayload :=
  have halloc : alloc (14 + 60 + 60) 3 = some ((allocTx 3).get rfl) := (Option.some_get _).symm
  have hc : Checked ((allocTx 3).get rfl) [.putSlice [0x45, 0, 0x14], .pull 1] :=
    ⟨trivial, trivial, trivial⟩
  ⟨halloc, hc, valid_run_alloc halloc hc⟩

example : (run ((allocTx 3).get rfl) [.putSlice [0x45, 0, 0x14], .pull 1]).bytes = [0, 0x14] :=
  by decide

theorem refines_payload_alloc :
    ((alloc 64 1500).get rfl).Valid ∧ ((alloc 64 1500).get rfl).RefinesPayload :=
  ⟨valid_alloc (Option.some_get _).symm, refines_payload (valid_alloc (Option.some_get _).symm)⟩

end SkBuff

end HkKernel
