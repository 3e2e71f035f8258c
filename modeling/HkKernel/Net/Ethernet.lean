import Mathlib.Data.List.GetD
import HkKernel.Net.SkBuff

/-!
# Ethernet headers

`net/ethernet.rs` puts a 14-byte header in front of a frame: the destination and source
addresses, then the EtherType as a big-endian `u16`. `eth_header` pushes the header onto the
buffer's headroom and fills it field by field (`ethHeader`); `eth_type_trans` reads the
EtherType of a frame without moving `data` (`ethTypeTrans`), and `eth_hdr` views the first 14
bytes of the data as an `EthHdr` (`ethHdr`). A byte array `[u8; N]` is a `Mathlib.Vector`.

* `fromBeBytes_toBeBytes`: `from_be_bytes` reads back what `to_be_bytes` writes;
* `ethHeader_eq_pushFill`: the three copies of `eth_header` write the header in one piece, as
  `SkBuff.pushFill` does;
* `ethTypeTrans_canonical`: the EtherType `eth_type_trans` reads off any frame is canonical;
* `ethHeader_round_trip`: on a buffer with its cursors in order and 14 bytes of headroom,
  `eth_header` succeeds, `eth_type_trans` and `eth_hdr` read back a canonical EtherType and
  the two addresses, and `pull 14` gives back the buffer's payload with its headroom; with
  less headroom `eth_header` fails and changes nothing.
-/

namespace HkKernel.Net

/-- `ETH_ALEN`. -/
def ethAlen : Nat := 6

/-- `ETH_HLEN`. -/
def ethHlen : Nat := 14

/-- `ETH_BROADCAST`. -/
def ethBroadcast : Mathlib.Vector UInt8 ethAlen := ⟨List.replicate 6 0xff, rfl⟩

/-- `u16::from_be_bytes`: the number two bytes hold, the high one first. -/
def fromBeBytes (b : Mathlib.Vector UInt8 2) : UInt16 :=
  UInt16.ofNat ((b.get 0).toNat * 256 + (b.get 1).toNat)

/-- `u16::to_be_bytes`: the two bytes of `v`, the high one first. -/
def toBeBytes (v : UInt16) : Mathlib.Vector UInt8 2 :=
  ⟨[UInt8.ofNat (v.toNat / 256), UInt8.ofNat v.toNat], rfl⟩

theorem toNat_u8_ofNat (n : Nat) : (UInt8.ofNat n).toNat = n % 256 := by
  simp [UInt8.ofNat, UInt8.toNat]

theorem toNat_u16_ofNat (n : Nat) : (UInt16.ofNat n).toNat = n % 65536 := by
  simp [UInt16.ofNat, UInt16.toNat]

theorem fromBeBytes_toBeBytes (v : UInt16) : fromBeBytes (toBeBytes v) = v := by
  apply UInt16.toNat.inj
  have := v.toNat_lt
  show (UInt16.ofNat ((UInt8.ofNat (v.toNat / 256)).toNat * 256 +
    (UInt8.ofNat v.toNat).toNat)).toNat = v.toNat
  rw [toNat_u16_ofNat, toNat_u8_ofNat, toNat_u8_ofNat]
  omega

/-- The Ethernet header at the start of a frame (`EthHdr`). -/
structure EthHdr where
  hDest : Mathlib.Vector UInt8 ethAlen
  hSource : Mathlib.Vector UInt8 ethAlen
  hProto : Mathlib.Vector UInt8 2
  deriving DecidableEq

namespace EthHdr

variable (h : EthHdr)

/-- `EthHdr::protocol`. -/
def protocol : EtherType := EtherType.fromBe (fromBeBytes h.hProto)

/-- `EthHdr::set_protocol`. -/
def setProtocol (proto : EtherType) : EthHdr := { h with hProto := toBeBytes proto.toBe }

/-- `EthHdr::is_broadcast`. -/
def isBroadcast : Bool := h.hDest = ethBroadcast

/-- `EthHdr::is_multicast`: the group bit of the destination's first byte. -/
def isMulticast : Bool := h.hDest.get ⟨0, by decide⟩ &&& 0x01 != 0

/-- The header the bytes `d` hold from their start (`eth_hdr` reads it only from data that
    holds 14 bytes). -/
def ofBytes (d : List UInt8) : EthHdr :=
  ⟨.ofFn fun i => d.getD i 0, .ofFn fun i => d.getD (6 + i) 0, .ofFn fun i => d.getD (12 + i) 0⟩

/-- `set_protocol` stores a canonical EtherType so that `protocol` reads it back. -/
theorem protocol_setProtocol {p : EtherType} (hp : p.Canonical) : (h.setProtocol p).protocol = p := by
  rw [protocol, setProtocol, fromBeBytes_toBeBytes, hp]

end EthHdr

/-- `eth_type_trans`: the EtherType of the frame in `skb`, `Unknown(0)` when it is shorter
    than a header. -/
def ethTypeTrans (skb : SkBuff) : EtherType :=
  if skb.len < ethHlen then .unknown 0
  else
    let data := skb.bytes
    EtherType.fromBe (fromBeBytes ⟨[data.getD 12 0, data.getD 13 0], rfl⟩)

/-- `eth_header`: pushes a header onto `skb` and copies `dest`, `source` and the bytes of
    `proto` into it; the buffer after the call, and whether it succeeded. -/
def ethHeader (skb : SkBuff) (dest source : Mathlib.Vector UInt8 ethAlen) (proto : EtherType) :
    SkBuff × Bool :=
  match skb.push ethHlen with
  | (skb', some hdr) =>
    let skb' := skb'.write hdr.start dest.toList
    let skb' := skb'.write (hdr.start + 6) source.toList
    (skb'.write (hdr.start + 12) (toBeBytes proto.toBe).toList, true)
  | (skb', none) => (skb', false)

/-- `eth_hdr`: the header at the start of the data, if the data holds one. -/
def ethHdr (skb : SkBuff) : Option EthHdr :=
  if skb.len < ethHlen then none else some (EthHdr.ofBytes skb.bytes)

/-- The 14 bytes `eth_header` writes. -/
def headerBytes (dest source : Mathlib.Vector UInt8 ethAlen) (proto : EtherType) : List UInt8 :=
  dest.toList ++ source.toList ++ (toBeBytes proto.toBe).toList

theorem length_headerBytes (dest source : Mathlib.Vector UInt8 ethAlen) (proto : EtherType) :
    (headerBytes dest source proto).length = ethHlen := by
  simp [headerBytes, ethAlen, ethHlen]

/-! ## Writing the header -/

/-- Two writes side by side are one write of both. -/
theorem SkBuff.write_write (s : SkBuff) {st k : Nat} (h : st ≤ s.mem.length) {a : List UInt8}
    (hk : a.length = k) (b : List UInt8) :
    (s.write st a).write (st + k) b = s.write st (a ++ b) := by
  subst hk
  have hl : (s.mem.take st).length = st := List.length_take_of_le h
  simp only [SkBuff.write, SkBuff.mk.injEq, and_true, List.append_assoc,
    List.take_append_eq_append_take, List.drop_append_eq_append_drop, hl, List.length_append,
    List.take_take, List.drop_drop]
  simp (disch := omega) [List.drop_eq_nil_of_le, Nat.add_assoc]

/-- `eth_header` is `push` followed by one write of the whole header. -/
theorem ethHeader_eq_pushFill {s : SkBuff} (hs : s.Valid) (dest source : Mathlib.Vector UInt8 ethAlen)
    (proto : EtherType) :
    ethHeader s dest source proto =
      match s.pushFill (headerBytes dest source proto) with
      | some s' => (s', true)
      | none => (s, false) := by
  unfold ethHeader SkBuff.pushFill
  rw [length_headerBytes]
  unfold SkBuff.push
  split_ifs
  · rfl
  · have hst : s.data - ethHlen ≤ s.mem.length := by
      have := hs.data_le_tail; have := hs.tail_le_end; have := hs.length_mem; omega
    dsimp only
    rw [SkBuff.write_write { s with data := s.data - ethHlen } hst
        (show dest.toList.length = 6 from dest.toList_length),
      SkBuff.write_write { s with data := s.data - ethHlen } hst
        (show (dest.toList ++ source.toList).length = 12 by simp [ethAlen]), headerBytes]

/-! ## Reading it back -/

theorem getD_toList_append {n : Nat} (v : Mathlib.Vector UInt8 n) (l : List UInt8) (i : Fin n) :
    (v.toList ++ l).getD i 0 = v.get i := by
  rw [List.getD_append _ _ _ _ (by simp), Mathlib.Vector.get_eq_get, List.getD_eq_getElem?_getD,
    List.getElem?_eq_getElem (by simp)]
  rfl

/-- `eth_hdr` reads back the header `eth_header` writes, whatever follows it. -/
theorem ofBytes_headerBytes (dest source : Mathlib.Vector UInt8 ethAlen) (proto : EtherType)
    (rest : List UInt8) :
    EthHdr.ofBytes (headerBytes dest source proto ++ rest) = ⟨dest, source, toBeBytes proto.toBe⟩ := by
  have hd : dest.toList.length = 6 := dest.toList_length
  have hs : source.toList.length = 6 := source.toList_length
  simp only [EthHdr.ofBytes, headerBytes, List.append_assoc, EthHdr.mk.injEq]
  refine ⟨?_, ?_, ?_⟩ <;> refine Mathlib.Vector.ext fun i => ?_ <;>
    rw [Mathlib.Vector.get_ofFn]
  · exact getD_toList_append dest _ i
  · rw [List.getD_append_right _ _ _ _ (by omega), hd, Nat.add_sub_cancel_left]
    exact getD_toList_append source _ i
  · rw [List.getD_append_right _ _ _ _ (by omega), List.getD_append_right _ _ _ _ (by omega), hd,
      hs, show 12 + (i : Nat) - 6 - 6 = i by omega]
    exact getD_toList_append _ _ i

/-- `eth_type_trans` reads the EtherType `eth_hdr`'s `protocol` reads. -/
theorem ethTypeTrans_eq (skb : SkBuff) :
    ethTypeTrans skb = match ethHdr skb with
      | some h => h.protocol
      | none => .unknown 0 := by
  unfold ethTypeTrans ethHdr
  split_ifs <;> rfl

/-- On a buffer with its cursors in order and room for a header, `eth_header` succeeds;
    `eth_type_trans` then reads the EtherType back, if it is canonical, `eth_hdr` reads the
    two addresses and that EtherType, and `pull 14` gives back the buffer's payload, headroom
    and tailroom. Without room, `eth_header` fails and leaves the buffer as it was. -/
theorem ethHeader_round_trip {s : SkBuff} (hs : s.Valid) (dest source : Mathlib.Vector UInt8 ethAlen)
    {p : EtherType} (hp : p.Canonical) :
    (ethHlen ≤ s.headroom →
      (ethHeader s dest source p).2 = true ∧ ethTypeTrans (ethHeader s dest source p).1 = p ∧
      (∃ h, ethHdr (ethHeader s dest source p).1 = some h ∧
        h.hDest = dest ∧ h.hSource = source ∧ h.protocol = p) ∧
      ((ethHeader s dest source p).1.pull ethHlen).2.isSome ∧
      ((ethHeader s dest source p).1.pull ethHlen).1.payload = s.payload) ∧
    (s.headroom < ethHlen → ethHeader s dest source p = (s, false)) := by
  have hlen := length_headerBytes dest source p
  obtain ⟨hpush, -⟩ := SkBuff.pushFill_payload hs (headerBytes dest source p)
  rw [ethHeader_eq_pushFill hs]
  constructor
  · intro hroom
    -- After the call the buffer holds the header, then the payload.
    obtain ⟨s', hs', hpay⟩ : ∃ s', s.pushFill (headerBytes dest source p) = some s' ∧
        s'.payload = ⟨s.headroom - ethHlen, headerBytes dest source p ++ s.bytes, s.tailroom⟩ := by
      rw [Payload.push, if_pos (hlen ▸ hroom)] at hpush
      obtain ⟨s', hs', h'⟩ := Option.map_eq_some'.1 hpush
      exact ⟨s', hs', by rw [h', hlen]; rfl⟩
    have hv := SkBuff.valid_pushFill hs hs'
    have hbytes : s'.bytes = headerBytes dest source p ++ s.bytes := congrArg Payload.bytes hpay
    have hhdr : ethHdr s' = some ⟨dest, source, toBeBytes p.toBe⟩ := by
      rw [ethHdr, if_neg (by rw [← SkBuff.length_bytes hv, hbytes, List.length_append, hlen]; omega),
        hbytes, ofBytes_headerBytes]
    have hproto : EthHdr.protocol ⟨dest, source, toBeBytes p.toBe⟩ = p := by
      rw [EthHdr.protocol, fromBeBytes_toBeBytes, hp]
    -- `pull 14` takes the header off again.
    obtain ⟨hpull, -⟩ := SkBuff.pull_payload hv ethHlen
    rw [hpay, Payload.pull, if_pos (by simp [hlen])] at hpull
    obtain ⟨v, hv', hpv⟩ := Option.map_eq_some'.1 hpull
    simp only [hs', true_and]
    refine ⟨by rw [ethTypeTrans_eq, hhdr]; exact hproto, ⟨_, hhdr, rfl, rfl, hproto⟩,
      by rw [hv']; rfl, ?_⟩
    rw [(Prod.mk.inj hpv).2, List.drop_left' hlen, Nat.sub_add_cancel hroom]
    rfl
  · intro hroom
    have hnone : s.pushFill (headerBytes dest source p) = none := by
      simp only [SkBuff.pushFill, SkBuff.push, hlen, if_pos hroom]
    rw [hnone]

/-- A frame of `alloc_tx` whose payload is the three bytes put into it. -/
def txFrame : SkBuff := SkBuff.run ((SkBuff.allocTx 3).get rfl) [.putSlice [0x45, 0, 0x14]]

example : txFrame.bytes = [0x45, 0, 0x14] := by decide

/-- A broadcast IPv4 header on `txFrame`, which `alloc_tx` and `put_slice` reach. -/
theorem ethHeader_round_trip_txFrame :
    txFrame.Valid ∧ EtherType.ipv4.Canonical ∧
      ((ethHlen ≤ txFrame.headroom →
        (ethHeader txFrame ethBroadcast ⟨[2, 0, 0, 0, 0, 1], rfl⟩ .ipv4).2 = true ∧
          ethTypeTrans (ethHeader txFrame ethBroadcast ⟨[2, 0, 0, 0, 0, 1], rfl⟩ .ipv4).1 = .ipv4 ∧
          (∃ h, ethHdr (ethHeader txFrame ethBroadcast ⟨[2, 0, 0, 0, 0, 1], rfl⟩ .ipv4).1 = some h ∧
            h.hDest = ethBroadcast ∧ h.hSource = ⟨[2, 0, 0, 0, 0, 1], rfl⟩ ∧ h.protocol = .ipv4) ∧
          ((ethHeader txFrame ethBroadcast ⟨[2, 0, 0, 0, 0, 1], rfl⟩ .ipv4).1.pull
            ethHlen).2.isSome ∧
          ((ethHeader txFrame ethBroadcast ⟨[2, 0, 0, 0, 0, 1], rfl⟩ .ipv4).1.pull
            ethHlen).1.payload = txFrame.payload) ∧
        (txFrame.headroom < ethHlen →
          ethHeader txFrame ethBroadcast ⟨[2, 0, 0, 0, 0, 1], rfl⟩ .ipv4 = (txFrame, false))) :=
  have hv : txFrame.Valid :=
    SkBuff.run_valid (SkBuff.valid_alloc (Option.some_get _).symm) ⟨trivial, trivial⟩
  ⟨hv, by decide, ethHeader_round_trip hv _ _ (by decide)⟩

end HkKernel.Net
