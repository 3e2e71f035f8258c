import HkKernel.Fs.Error

/-!
# The ext4 on-disk layout

The structures the read-only ext4 driver (`fs/ext4.rs`) reads from disk, decoded the way its
`read_unaligned` calls read them on a little-endian machine: a field of `n` bytes at offset `o`
is the little-endian number those bytes hold (`field`). Only the fields that the modelled
functions use are kept. A `read_unaligned` whose bytes run past the end of its buffer reads
out of bounds, which the model reports as `none` (`readUnaligned`).

The block device is seen through the page cache as its bytes, `Nat → UInt8`; `read_block`
reads `block_size` of them from `block_num * block_size`, a wrapping `u64` product
(`readBlock`).

* `leNat_lt`: a field of `n` bytes is below `256 ^ n`;
* `readUnaligned_of_le`: a read that fits in its buffer succeeds;
* `getElem?_readBlock`: the bytes `read_block` returns.
-/

namespace HkKernel.Ext4

/-! ## Bytes -/

/-- The little-endian number that the bytes `bs` hold. -/
def leNat : List UInt8 → Nat
  | [] => 0
  | b :: bs => b.toNat + 256 * leNat bs

theorem leNat_lt (bs : List UInt8) : leNat bs < 256 ^ bs.length := by
  induction bs with
  | nil => simp [leNat]
  | cons b bs ih =>
    have := b.toNat_lt
    rw [leNat, List.length_cons, pow_succ]
    omega

/-- The field of `n` bytes at offset `o` of `d`. -/
def field (d : List UInt8) (o n : Nat) : Nat := leNat ((d.drop o).take n)

theorem field_lt (d : List UInt8) (o n : Nat) : field d o n < 256 ^ n :=
  calc field d o n < 256 ^ ((d.drop o).take n).length := leNat_lt _
    _ ≤ 256 ^ n := Nat.pow_le_pow_right (by norm_num) (List.length_take_le _ _)

/-- A `u16` field. -/
def u16At (d : List UInt8) (o : Nat) : UInt16 := UInt16.ofNat (field d o 2)

/-- A `u32` field. -/
def u32At (d : List UInt8) (o : Nat) : UInt32 := UInt32.ofNat (field d o 4)

/-- `read_unaligned` of a structure of `size` bytes at offset `o` of `d`, decoded by
    `decode`; `none` if it runs past the end of `d`. -/
def readUnaligned {α : Type} (size : Nat) (decode : List UInt8 → Nat → α) (d : List UInt8)
    (o : Nat) : Option α :=
  if o + size ≤ d.length then some (decode d o) else none

theorem readUnaligned_of_le {α : Type} {size : Nat} (decode : List UInt8 → Nat → α)
    {d : List UInt8} {o : Nat} (h : o + size ≤ d.length) :
    readUnaligned size decode d o = some (decode d o) :=
  if_pos h

/-- `read_block`: the `blockSize` bytes of block `blockNum`. -/
def readBlock (dev : Nat → UInt8) (blockNum blockSize : Nat) : List UInt8 :=
  (List.range blockSize).map fun k => dev ((blockNum * blockSize + k) % 2 ^ 64)

@[simp] theorem length_readBlock (dev : Nat → UInt8) (b n : Nat) :
    (readBlock dev b n).length = n := by
  simp [readBlock]

/-- Block numbers are taken modulo `2^64`, as the wrapping `u64` product does. -/
theorem readBlock_mod (dev : Nat → UInt8) (b n : Nat) :
    readBlock dev (b % 2 ^ 64) n = readBlock dev b n := by
  simp only [readBlock, Nat.add_mod (_ * n), Nat.mul_mod (b % _), Nat.mod_mod]
  simp only [← Nat.mul_mod, ← Nat.add_mod]

theorem getElem?_readBlock (dev : Nat → UInt8) (b n k : Nat) :
    (readBlock dev b n)[k]? = if k < n then some (dev ((b * n + k) % 2 ^ 64)) else none := by
  unfold readBlock
  split_ifs with h
  · simp [h]
  · simp [Nat.le_of_not_lt h]

/-! ## Structures -/

/-- `EXT4_EXT_MAGIC`. -/
def extMagic : UInt16 := 0xF30A

/-- `Ext4ExtentHeader` (12 bytes); `eh_max` and `eh_generation` are not read. -/
structure ExtentHeader where
  ehMagic : UInt16
  ehEntries : UInt16
  ehDepth : UInt16
  deriving DecidableEq, Repr

def ExtentHeader.decode (d : List UInt8) (o : Nat) : ExtentHeader :=
  ⟨u16At d o, u16At d (o + 2), u16At d (o + 6)⟩

/-- `Ext4Extent` (12 bytes): a run of `ee_len` logical blocks from `ee_block`, stored from
    physical block `ee_start_hi:ee_start_lo`. -/
structure Extent where
  eeBlock : UInt32
  eeLen : UInt16
  eeStartHi : UInt16
  eeStartLo : UInt32
  deriving DecidableEq, Repr

def Extent.decode (d : List UInt8) (o : Nat) : Extent :=
  ⟨u32At d o, u16At d (o + 4), u16At d (o + 6), u32At d (o + 8)⟩

namespace Extent

variable (e : Extent)

/-- `start_block`. -/
def startBlock : Nat := e.eeBlock.toNat

/-- `len`: `ee_len` without the unwritten flag. -/
def len : Nat := (e.eeLen &&& 0x7FFF).toNat

/-- `phys_start`. -/
def physStart : Nat := e.eeStartHi.toNat <<< 32 ||| e.eeStartLo.toNat

/-- The extent maps logical block `l`. -/
def Covers (l : Nat) : Prop := e.startBlock ≤ l ∧ l < e.startBlock + e.len

instance (l : Nat) : Decidable (e.Covers l) := inferInstanceAs (Decidable (_ ∧ _))

theorem len_lt : e.len < 2 ^ 15 := by
  have : (e.eeLen &&& 0x7FFF).toNat ≤ 0x7FFF := by
    rw [UInt16.and_toNat]; exact Nat.and_le_right
  unfold len; omega

/-- An extent maps only blocks below `2^32 + 2^15`. -/
theorem lt_of_covers {e : Extent} {l : Nat} (h : e.Covers l) : l < 2 ^ 32 + 2 ^ 15 := by
  have := e.eeBlock.toNat_lt; have := e.len_lt
  unfold Covers startBlock at h; omega

end Extent

/-- `Ext4ExtentIdx` (12 bytes): the child node in block `ei_leaf_hi:ei_leaf_lo` covers the
    logical blocks from `ei_block` on. -/
structure ExtentIdx where
  eiBlock : UInt32
  eiLeafLo : UInt32
  eiLeafHi : UInt16
  deriving DecidableEq, Repr

def ExtentIdx.decode (d : List UInt8) (o : Nat) : ExtentIdx :=
  ⟨u32At d o, u32At d (o + 4), u16At d (o + 8)⟩

/-- `child_block`. -/
def ExtentIdx.childBlock (idx : ExtentIdx) : Nat := idx.eiLeafHi.toNat <<< 32 ||| idx.eiLeafLo.toNat

/-- `Ext4Inode` (160 bytes): its size, flags and the 60 bytes of `i_block`. -/
structure Inode where
  iSizeLo : UInt32
  iFlags : UInt32
  iBlock : List UInt8
  iSizeHigh : UInt32
  deriving DecidableEq, Repr

def Inode.decode (d : List UInt8) (o : Nat) : Inode :=
  ⟨u32At d (o + 4), u32At d (o + 32), (d.drop (o + 40)).take 60, u32At d (o + 108)⟩

/-- `EXT4_EXTENTS_FL`. -/
def extentsFl : UInt32 := 0x00080000

/-- `Ext4GroupDesc` (64 bytes): where the group's inode table starts. -/
structure GroupDesc where
  bgInodeTableLo : UInt32
  bgInodeTableHi : UInt32
  deriving DecidableEq, Repr

def GroupDesc.decode (d : List UInt8) (o : Nat) : GroupDesc := ⟨u32At d (o + 8), u32At d (o + 40)⟩

/-- `Ext4Superblock` (1024 bytes), the fields `read_superblock` reads. -/
structure Superblock where
  sBlocksCountLo : UInt32
  sFirstDataBlock : UInt32
  sLogBlockSize : UInt32
  sBlocksPerGroup : UInt32
  sInodesPerGroup : UInt32
  sMagic : UInt16
  sRevLevel : UInt32
  sInodeSize : UInt16
  sFeatureIncompat : UInt32
  sDescSize : UInt16
  sBlocksCountHi : UInt32
  deriving DecidableEq, Repr

def Superblock.decode (d : List UInt8) : Superblock :=
  ⟨u32At d 4, u32At d 20, u32At d 24, u32At d 32, u32At d 40, u16At d 56, u32At d 76,
    u16At d 88, u32At d 96, u16At d 254, u32At d 336⟩

end HkKernel.Ext4
