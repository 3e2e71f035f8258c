import HkKernel.Fs.Ext4.Super

/-!
# Mounting an image and locating its inodes

`ext4_mount_dev` reads the superblock at byte `1024`, loads the group descriptors and reads
the root inode (`mountDev`). An image it mounts (`Mounted`) has inodes in every group and a
block size that is a power of two dividing `2^32` (`Mounted.geometry`).

`read_inode` finds inode `ino` at index `(ino - 1) mod inodes_per_group` of the inode table
of group `(ino - 1) / inodes_per_group`, whose first block the group's descriptor gives as
`bg_inode_table_hi << 32 | bg_inode_table_lo`. Its `u32` and `u64` arithmetic computes the
exact block and offset (`readInode_eq_of_mounted`). It combines the two halves for every
descriptor, while the descriptor's own comment has the 64-bit fields only when
`desc_size > 32`; and `load_group_descs` reads 64 bytes for each descriptor whatever
`desc_size` is, so with 32-byte descriptors the high half is the next descriptor's
`bg_inode_table_lo`:

* `readInode_narrow_desc`: an image with two groups and 32-byte descriptors mounts, and its
  root inode is read from block `6 * 2^32 + 5` instead of block `5`.

A descriptor and an inode are each read with a `read_unaligned` of the whole structure, 64 and
160 bytes, at an offset computed from `desc_size` or `inode_size`, with no check that the
structure fits in the block; the model reports a read past the end as `none`
(`loadGroupDesc_eq_none_iff`, `readInode_eq_none_iff_of_mounted`):

* `group_desc_and_inode_read_past_block`: with 32-byte descriptors in 1024-byte blocks, the
  mount reads descriptor `31` past its block; with 128-byte inodes, an image that mounts reads
  inode `8` past its block.
-/

namespace HkKernel.Ext4

/-- The 1024 bytes `read_superblock` reads at `EXT4_SUPER_OFFSET`. -/
def superblockBytes (dev : Nat → UInt8) : List UInt8 :=
  (List.range 1024).map fun k => dev (1024 + k)

/-- `EXT4_ROOT_INO`. -/
def rootIno : UInt32 := 2

/-- The file size `create_vfs_inode` gives a VFS inode: `i_size_high << 32 | i_size_lo`. -/
def Inode.size (inode : Inode) : Nat := inode.iSizeHigh.toNat <<< 32 ||| inode.iSizeLo.toNat

/-- `create_vfs_inode` of inode `ino`: the VFS inode, given here by its number and the ext4
    inode its fields are taken from. -/
def createVfsInode (dev : Nat → UInt8) (sb : SbData) (groupDescs : List GroupDesc)
    (ino : UInt32) : Option (Except FsError (UInt32 × Inode)) :=
  (readInode dev sb groupDescs ino).map (·.map fun inode => (ino, inode))

/-- `ext4_mount_dev` up to its root inode: the geometry, the group descriptors and the root
    inode, or the error of the step that fails; `none` on a panic or a read past a block. -/
def mountDev (dev : Nat → UInt8) : Option (Except FsError (SbData × List GroupDesc × Inode)) :=
  match readSuperblock (superblockBytes dev) with
  | none => none
  | some (.error e) => some (.error e)
  | some (.ok sb) =>
    match loadGroupDescs dev sb with
    | none => none
    | some gds =>
      match createVfsInode dev sb gds rootIno with
      | none => none
      | some (.error e) => some (.error e)
      | some (.ok (_, root)) => some (.ok (sb, gds, root))

/-- `dev` mounts, with the geometry `sb` and the group descriptors `gds`. -/
def Mounted (dev : Nat → UInt8) (sb : SbData) (gds : List GroupDesc) : Prop :=
  ∃ root, mountDev dev = some (.ok (sb, gds, root))

/-! ## What a mounted image has -/

/-- A `mapM` in `Option` fails as soon as one entry does. -/
theorem mapM_eq_none_of_mem {α β : Type} {f : α → Option β} {x : α} (hx : f x = none) :
    ∀ {l : List α}, x ∈ l → l.mapM f = none
  | a :: l, h => by
    rw [List.mapM_cons]
    rcases List.mem_cons.1 h with rfl | h
    · rw [hx]; rfl
    · rw [mapM_eq_none_of_mem hx h]; cases f a <;> rfl

variable {dev : Nat → UInt8} {sb : SbData} {gds : List GroupDesc}

theorem Mounted.parts (h : Mounted dev sb gds) :
    readSuperblock (superblockBytes dev) = some (.ok sb) ∧ loadGroupDescs dev sb = some gds ∧
      ∃ root, readInode dev sb gds rootIno = some (.ok root) := by
  obtain ⟨root, h⟩ := h
  unfold mountDev at h
  split at h
  · cases h
  · cases h
  · rename_i hsb
    split at h
    · cases h
    · rename_i hg
      split at h
      · cases h
      · cases h
      · rename_i hr
        cases h
        obtain ⟨r, hr, hok⟩ := Option.map_eq_some'.1 hr
        cases r with
        | error e => cases hok
        | ok root => cases hok; exact ⟨hsb, hg, root, hr⟩

theorem readSuperblock_blockSize {b : List UInt8} (h : readSuperblock b = some (.ok sb)) :
    sb.blockSize = 1024 <<< (Superblock.decode b).sLogBlockSize := by
  unfold readSuperblock at h
  dsimp only at h
  split_ifs at h <;> cases h <;> rfl

/-- A block size `read_superblock` computes is `0` or a power of two dividing `2^32`. -/
theorem blockSize_dvd {b : List UInt8} (h : readSuperblock b = some (.ok sb))
    (hbs : sb.blockSize ≠ 0) : sb.blockSize.toNat ∣ 2 ^ 32 := by
  rw [readSuperblock_blockSize h] at hbs ⊢
  rw [Ne, blockSize_eq_zero_iff, not_le] at hbs
  rw [toNat_blockSize, Nat.mod_eq_of_lt (Nat.pow_lt_pow_right (by norm_num) (by omega))]
  exact Nat.pow_dvd_pow 2 (by omega)

/-- `read_inode` succeeds only with inodes in every group and a nonzero block size. -/
theorem readInode_geometry {ino : UInt32} {inode : Inode}
    (h : readInode dev sb gds ino = some (.ok inode)) :
    sb.inodesPerGroup ≠ 0 ∧ sb.blockSize ≠ 0 := by
  unfold readInode at h
  split_ifs at h with hipg hbs
  all_goals first
    | exact ⟨hipg, hbs⟩
    | cases h
    | (dsimp only at h; split at h <;> cases h)

theorem Mounted.geometry (hm : Mounted dev sb gds) :
    sb.inodesPerGroup ≠ 0 ∧ sb.blockSize ≠ 0 ∧ sb.blockSize.toNat ∣ 2 ^ 32 := by
  obtain ⟨hsb, -, root, hroot⟩ := hm.parts
  obtain ⟨hipg, hbs⟩ := readInode_geometry hroot
  exact ⟨hipg, hbs, blockSize_dvd hsb hbs⟩

/-! ## Where `read_inode` reads -/

/-- On a mounted image, `read_inode` of inode `ino ≥ 1` whose group has the descriptor `gd`
    reads the 160 bytes at offset `idx * inode_size mod block_size` of block
    `(bg_inode_table_hi << 32 | bg_inode_table_lo) + idx * inode_size / block_size`, where
    `idx = (ino - 1) mod inodes_per_group`, all in exact arithmetic. -/
theorem readInode_eq_of_mounted (hm : Mounted dev sb gds) {ino : UInt32} (hino : ino ≠ 0)
    {gd : GroupDesc} (hgd : gds[(ino.toNat - 1) / sb.inodesPerGroup.toNat]? = some gd) :
    readInode dev sb gds ino =
      (readUnaligned 160 Inode.decode
        (readBlock dev ((gd.bgInodeTableHi.toNat <<< 32 ||| gd.bgInodeTableLo.toNat) +
            (ino.toNat - 1) % sb.inodesPerGroup.toNat * sb.inodeSize.toNat / sb.blockSize.toNat)
          sb.blockSize.toNat)
        ((ino.toNat - 1) % sb.inodesPerGroup.toNat * sb.inodeSize.toNat % sb.blockSize.toNat)).map
        .ok := by
  obtain ⟨hipg, hbs, hdvd⟩ := hm.geometry
  have hsub : (ino - 1).toNat = ino.toNat - 1 := by
    have := U32.toNat_lt ino
    have : ino.toNat ≠ 0 := fun h => hino ((U32.eq_iff _ _).2 h)
    rw [U32.toNat_sub, U32.toNat_one]; omega
  unfold readInode
  simp only [if_neg hipg, UInt32.toNat_div, hsub, hgd, if_neg hbs, readBlock_mod,
    UInt32.toNat_mod, U32.toNat_mul, Nat.mod_mod_of_dvd _ hdvd]

/-- So the inode is read past its block exactly when it starts less than 160 bytes before
    the block's end. -/
theorem readInode_eq_none_iff_of_mounted (hm : Mounted dev sb gds) {ino : UInt32} (hino : ino ≠ 0)
    {gd : GroupDesc} (hgd : gds[(ino.toNat - 1) / sb.inodesPerGroup.toNat]? = some gd) :
    readInode dev sb gds ino = none ↔
      sb.blockSize.toNat < (ino.toNat - 1) % sb.inodesPerGroup.toNat * sb.inodeSize.toNat %
        sb.blockSize.toNat + 160 := by
  rw [readInode_eq_of_mounted hm hino hgd, Option.map_eq_none', readUnaligned, length_readBlock]
  split_ifs <;> simp <;> omega

/-- A descriptor is read past its block exactly when its slot starts less than 64 bytes
    before the block's end. -/
theorem loadGroupDesc_eq_none_iff (g : UInt32) (hds : sb.descSize ≠ 0)
    (hdpb : sb.blockSize / sb.descSize ≠ 0) :
    loadGroupDesc dev sb g = none ↔
      sb.blockSize.toNat < (g % (sb.blockSize / sb.descSize) * sb.descSize).toNat + 64 := by
  simp only [loadGroupDesc, if_neg hds, if_neg hdpb, readUnaligned, length_readBlock]
  split_ifs <;> simp <;> omega

/-- The mount fails when `load_group_descs` does. -/
theorem mountDev_eq_none (hsb : readSuperblock (superblockBytes dev) = some (.ok sb))
    (h : loadGroupDescs dev sb = none) : mountDev dev = none := by
  unfold mountDev
  simp only [hsb, h]

/-- `load_group_descs` fails as soon as the read of one descriptor does. -/
theorem loadGroupDescs_eq_none_of_lt {g : Nat} (hg : g < sb.groupCount.toNat)
    (h : loadGroupDesc dev sb (UInt32.ofNat g) = none) : loadGroupDescs dev sb = none :=
  @mapM_eq_none_of_mem _ _ (fun group => loadGroupDesc dev sb (UInt32.ofNat group)) _ h _
    (List.mem_range.2 hg)

/-! ## Three images -/

/-- A disk image that holds the little-endian fields `(offset, width, value)`, and `0` in
    every other byte. -/
def imageOf (fields : List (Nat × Nat × Nat)) (o : Nat) : UInt8 :=
  match fields.find? fun f => f.1 ≤ o && o < f.1 + f.2.1 with
  | some f => UInt8.ofNat (f.2.2 / 256 ^ (o - f.1))
  | none => 0

/-- The superblock fields of an image of `blocks` blocks of 1024 bytes, in groups of `8192`
    blocks and `16` inodes, revision `0` (128-byte inodes), with `desc_size = descSize`. -/
def superblockFields (blocks descSize : Nat) : List (Nat × Nat × Nat) :=
  [(1024 + 4, 4, blocks), (1024 + 20, 4, 1), (1024 + 32, 4, 8192), (1024 + 40, 4, 16),
    (1024 + 56, 2, 0xEF53), (1024 + 254, 2, descSize)]

/-- One group with 64-byte descriptors: the inode table at block `5`, and in block `20` an
    extent index node whose one index points to block `20` itself. -/
def cleanImage : Nat → UInt8 :=
  imageOf (superblockFields 64 64 ++
    [(2048 + 8, 4, 5), (20480, 2, 0xF30A), (20480 + 2, 2, 1), (20480 + 6, 2, 1),
      (20480 + 16, 4, 20)])

/-- Two groups with 32-byte descriptors, their inode tables at blocks `5` and `6`; the root
    inode, in block `5`, has `i_size_lo = 1024`. -/
def narrowImage : Nat → UInt8 :=
  imageOf (superblockFields 16384 0 ++
    [(2048 + 8, 4, 5), (2048 + 32 + 8, 4, 6), (5 * 1024 + 128 + 4, 4, 1024)])

/-- Thirty-two groups with 32-byte descriptors. -/
def manyGroupsImage : Nat → UInt8 := imageOf (superblockFields 262144 0)

set_option maxRecDepth 10000 in
theorem mounted_cleanImage : Mounted cleanImage ⟨1024, 128, 16, 8192, 1, 64, 1⟩ [⟨5, 0⟩] :=
  ⟨_, rfl⟩

set_option maxRecDepth 10000 in
/-- With 32-byte descriptors, the root inode of `narrowImage` is read from the block that
    `bg_inode_table_hi = 6`, the `bg_inode_table_lo` of group `1`, puts it in: block
    `6 * 2^32 + 5`, where nothing is stored, instead of block `5`, where its size is. -/
theorem readInode_narrow_desc :
    Mounted narrowImage ⟨1024, 128, 16, 8192, 2, 32, 1⟩ [⟨5, 6⟩, ⟨6, 0⟩] ∧
      readInode narrowImage ⟨1024, 128, 16, 8192, 2, 32, 1⟩ [⟨5, 6⟩, ⟨6, 0⟩] rootIno =
        some (.ok (Inode.decode (readBlock narrowImage (6 * 2 ^ 32 + 5) 1024) 128)) ∧
      (Inode.decode (readBlock narrowImage (6 * 2 ^ 32 + 5) 1024) 128).iSizeLo = 0 ∧
      (Inode.decode (readBlock narrowImage 5 1024) 128).iSizeLo = 1024 :=
  ⟨⟨_, rfl⟩, rfl, by decide, by decide⟩

set_option maxRecDepth 10000 in
/-- `manyGroupsImage` passes `read_superblock` with 32 groups, and the mount reads descriptor
    `31` at offset `992` of its 1024-byte block; `cleanImage` mounts with 128-byte inodes, and
    inode `8` is read at offset `896` of its block. Both reads run past the block. -/
theorem group_desc_and_inode_read_past_block :
    readSuperblock (superblockBytes manyGroupsImage) = some (.ok ⟨1024, 128, 16, 8192, 32, 32, 1⟩) ∧
      loadGroupDesc manyGroupsImage ⟨1024, 128, 16, 8192, 32, 32, 1⟩ 31 = none ∧
      mountDev manyGroupsImage = none ∧
      Mounted cleanImage ⟨1024, 128, 16, 8192, 1, 64, 1⟩ [⟨5, 0⟩] ∧
      readInode cleanImage ⟨1024, 128, 16, 8192, 1, 64, 1⟩ [⟨5, 0⟩] 8 = none := by
  have hsb : readSuperblock (superblockBytes manyGroupsImage) =
      some (.ok ⟨1024, 128, 16, 8192, 32, 32, 1⟩) := rfl
  have hdesc : loadGroupDesc manyGroupsImage ⟨1024, 128, 16, 8192, 32, 32, 1⟩ 31 = none :=
    (loadGroupDesc_eq_none_iff 31 (by decide) (by decide)).2 (by decide)
  exact ⟨hsb, hdesc, mountDev_eq_none hsb (loadGroupDescs_eq_none_of_lt (by decide) hdesc),
    mounted_cleanImage,
    (@readInode_eq_none_iff_of_mounted _ _ _ mounted_cleanImage 8 (by decide) _ rfl).2
      (by decide)⟩

end HkKernel.Ext4
