import HkKernel.Word
import HkKernel.Fs.Ext4.Layout

/-!
# Mounting: the superblock and the group descriptors

`Ext4SbData::read_superblock` checks the superblock's magic number and incompatible features
and computes the geometry the rest of the driver divides by: the block size
`1024 << s_log_block_size` and the group count `⌈total_blocks / s_blocks_per_group⌉`. It
checks none of the fields it computes them from. Arithmetic is that of a release build:
`u32` and `u64` operations wrap and a shift amount is taken modulo the width, but a division
by zero panics, which the model reports as `none`; so does a read past the end of a block.

* `readSuperblock_eq_none_iff`: `read_superblock` panics exactly on a superblock that passes
  its checks with `s_blocks_per_group = 0`;
* `blockSize_eq_zero_iff`: the block size it computes is `0` exactly when
  `s_log_block_size mod 32` is at least `22`;
* `loadGroupDescs_eq_none`: `load_group_descs` then panics as soon as there is a group;
* `read_superblock_unchecked_geometry`: both panics, on two superblocks.
-/

namespace HkKernel.Ext4

/-- `EXT4_SUPER_MAGIC`. -/
def superMagic : UInt16 := 0xEF53

/-- The incompatible features `read_superblock` refuses: compression, encryption, inline data
    and journal devices. -/
def unsupportedFeatures : UInt32 := 0x0001 ||| 0x10000 ||| 0x8000 ||| 0x0008

/-- The geometry `Ext4SbData` keeps. -/
structure SbData where
  blockSize : UInt32
  inodeSize : UInt32
  inodesPerGroup : UInt32
  blocksPerGroup : UInt32
  groupCount : UInt32
  descSize : UInt32
  firstDataBlock : UInt32
  deriving DecidableEq, Repr

/-- `Ext4SbData::read_superblock`, on the 1024 bytes `sbBuf` read at `EXT4_SUPER_OFFSET`. -/
def readSuperblock (sbBuf : List UInt8) : Option (Except FsError SbData) :=
  let sb := Superblock.decode sbBuf
  if sb.sMagic ≠ superMagic then some (.error .ioError)
  else if sb.sFeatureIncompat &&& unsupportedFeatures ≠ 0 then some (.error .notSupported)
  else
    let blockSize : UInt32 := 1024 <<< sb.sLogBlockSize
    let inodeSize : UInt32 := if sb.sRevLevel = 0 then 128 else sb.sInodeSize.toUInt32
    let descSize : UInt32 := if sb.sDescSize = 0 then 32 else sb.sDescSize.toUInt32
    let totalBlocks : UInt64 := sb.sBlocksCountHi.toUInt64 <<< 32 ||| sb.sBlocksCountLo.toUInt64
    if sb.sBlocksPerGroup = 0 then none
    else
      let groupCount : UInt32 :=
        ((totalBlocks + sb.sBlocksPerGroup.toUInt64 - 1) / sb.sBlocksPerGroup.toUInt64).toUInt32
      some (.ok ⟨blockSize, inodeSize, sb.sInodesPerGroup, sb.sBlocksPerGroup, groupCount,
        descSize, sb.sFirstDataBlock⟩)

/-- The descriptor of group `group`, in the loop of `load_group_descs`. -/
def loadGroupDesc (dev : Nat → UInt8) (sb : SbData) (group : UInt32) : Option GroupDesc :=
  let gdtBlock := sb.firstDataBlock + 1
  if sb.descSize = 0 then none
  else
    let descsPerBlock := sb.blockSize / sb.descSize
    if descsPerBlock = 0 then none
    else
      let blockOffset := group / descsPerBlock
      let descOffset := (group % descsPerBlock) * sb.descSize
      let blockData := readBlock dev (gdtBlock.toNat + blockOffset.toNat) sb.blockSize.toNat
      readUnaligned 64 GroupDesc.decode blockData descOffset.toNat

/-- `Ext4SbData::load_group_descs`: the descriptors of the groups `0 .. group_count`. -/
def loadGroupDescs (dev : Nat → UInt8) (sb : SbData) : Option (List GroupDesc) :=
  (List.range sb.groupCount.toNat).mapM fun group => loadGroupDesc dev sb (UInt32.ofNat group)

/-- `Ext4SbData::read_inode` of inode `ino`, through the group descriptors `groupDescs`
    (a cached inode is the one read before, so the cache is left out). -/
def readInode (dev : Nat → UInt8) (sb : SbData) (groupDescs : List GroupDesc) (ino : UInt32) :
    Option (Except FsError Inode) :=
  if sb.inodesPerGroup = 0 then none
  else
    let group := (ino - 1) / sb.inodesPerGroup
    let index := (ino - 1) % sb.inodesPerGroup
    match groupDescs[group.toNat]? with
    | none => some (.error .ioError)
    | some gd =>
      let inodeTable : Nat := gd.bgInodeTableHi.toNat <<< 32 ||| gd.bgInodeTableLo.toNat
      if sb.blockSize = 0 then none
      else
        let inodeBlock := (inodeTable + index.toNat * sb.inodeSize.toNat / sb.blockSize.toNat) % 2 ^ 64
        let inodeOffset := (index * sb.inodeSize) % sb.blockSize
        let blockData := readBlock dev inodeBlock sb.blockSize.toNat
        (readUnaligned 160 Inode.decode blockData inodeOffset.toNat).map .ok

/-! ## Where the geometry is not checked -/

/-- `read_superblock` panics exactly when the superblock passes its checks and has
    `s_blocks_per_group = 0`. -/
theorem readSuperblock_eq_none_iff (sbBuf : List UInt8) :
    readSuperblock sbBuf = none ↔
      (Superblock.decode sbBuf).sMagic = superMagic ∧
      (Superblock.decode sbBuf).sFeatureIncompat &&& unsupportedFeatures = 0 ∧
      (Superblock.decode sbBuf).sBlocksPerGroup = 0 := by
  unfold readSuperblock
  dsimp only
  split_ifs <;> simp_all

theorem toNat_blockSize (s : UInt32) :
    ((1024 : UInt32) <<< s).toNat = 2 ^ (s.toNat % 32 + 10) % 2 ^ 32 := by
  show (UInt32.shiftLeft 1024 s).toNat = _
  simp [UInt32.shiftLeft, UInt32.toNat, BitVec.toNat_shiftLeft, Nat.shiftLeft_eq, UInt32.mod,
    BitVec.toNat_umod, pow_add, mul_comm]

/-- `1024 << s` is `0` exactly when `s mod 32 ≥ 22`: the bits of `1024` are shifted out. -/
theorem blockSize_eq_zero_iff (s : UInt32) : (1024 : UInt32) <<< s = 0 ↔ 22 ≤ s.toNat % 32 := by
  rw [U32.eq_iff, toNat_blockSize, UInt32.toNat_zero, ← Nat.dvd_iff_mod_eq_zero,
    Nat.pow_dvd_pow_iff_le_right (by norm_num)]
  omega

/-- With a block smaller than a descriptor, no descriptor fits in a block, and locating one
    divides by zero. -/
theorem loadGroupDesc_eq_none (dev : Nat → UInt8) {sb : SbData} (hbs : sb.blockSize < sb.descSize)
    (group : UInt32) : loadGroupDesc dev sb group = none := by
  unfold loadGroupDesc
  dsimp only
  split_ifs with h0 h1
  · rfl
  · rfl
  · rw [U32.lt_iff] at hbs
    exact absurd (by rw [U32.eq_iff, UInt32.toNat_div, Nat.div_eq_of_lt hbs]; rfl) h1

/-- So `load_group_descs` panics as soon as there is a group. -/
theorem loadGroupDescs_eq_none (dev : Nat → UInt8) {sb : SbData} (hbs : sb.blockSize < sb.descSize)
    (hg : 0 < sb.groupCount.toNat) : loadGroupDescs dev sb = none := by
  obtain ⟨n, hn⟩ : ∃ n, sb.groupCount.toNat = n + 1 := ⟨_, (Nat.succ_pred_eq_of_pos hg).symm⟩
  rw [loadGroupDescs, hn, List.range_succ_eq_map, List.mapM_cons, loadGroupDesc_eq_none dev hbs]
  rfl

/-- A superblock with the magic number and no other field set. -/
def zeroGroupsImage : List UInt8 := ((List.replicate 1024 0).set 56 0x53).set 57 0xEF

/-- A superblock with the magic number, `s_log_block_size = 22`, and `8192` blocks in groups
    of `8192`. -/
def bigBlockImage : List UInt8 :=
  ((((zeroGroupsImage.set 24 22).set 33 0x20).set 5 0x20))

/-- `read_superblock` panics on a superblock with `s_blocks_per_group = 0`; on one with
    `s_log_block_size = 22` it mounts a block size of `0`, and `load_group_descs` panics. -/
theorem read_superblock_unchecked_geometry (dev : Nat → UInt8) :
    readSuperblock zeroGroupsImage = none ∧
    ∃ sb, readSuperblock bigBlockImage = some (.ok sb) ∧ sb.blockSize = 0 ∧
      loadGroupDescs dev sb = none :=
  ⟨(readSuperblock_eq_none_iff _).2 (by decide),
    ⟨⟨0, 128, 0, 8192, 1, 32, 0⟩, rfl, rfl, loadGroupDescs_eq_none dev (by decide) (by decide)⟩⟩

end HkKernel.Ext4
