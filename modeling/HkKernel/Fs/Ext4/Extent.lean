import HkKernel.Fs.Ext4.Layout

/-!
# Extent trees

`Ext4SbData::extent_tree_search` maps a logical block of a file to a physical block through
the file's extent tree: a node is a 12-byte header followed by 12-byte entries, extents in a
leaf (depth `0`) and indices into child blocks in an internal node. A leaf is scanned for the
first extent that covers the block; an internal node follows the first index whose range,
from its `ei_block` to the next index's, holds it. The search recurses as deep as the disk
says, so the model takes a fuel argument and gives `none` when it runs out, as it does for a
read past the end of a node.

A well-formed tree (`Node`) holds its leaf extents, left to right, in every node's range;
searching it is a linear scan of those extents (`linearScan`, the specification's reference):

* `Node.extentTreeSearch_eq`: on a well-formed tree of depth `d`, any fuel above `d` gives
  the linear scan's result for every logical block;
* `extentMapBlock_eq_linearScan`: so does `extent_map_block` on an inode whose `i_block` holds
  such a tree.
-/

namespace HkKernel.Ext4

/-- `u64::MAX`. -/
def u64Max : Nat := 2 ^ 64 - 1

/-! ## The search -/

/-- The loop of `extent_tree_search` over the extents `is` of the leaf `d`. -/
def searchLeaf (d : List UInt8) (logicalBlock : Nat) : List Nat → Option (Except FsError Nat)
  | [] => some (.error .notFound)
  | i :: is => do
    let extent ← readUnaligned 12 Extent.decode d (12 + i * 12)
    if extent.Covers logicalBlock then
      some (.ok (extent.physStart + (logicalBlock - extent.startBlock)))
    else searchLeaf d logicalBlock is

/-- The loop of `extent_tree_search` over the indices `is` of the internal node `d`, with
    `entries` entries; `child` searches the node in the given block. -/
def searchIndex (child : Nat → Option (Except FsError Nat)) (d : List UInt8)
    (logicalBlock entries : Nat) : List Nat → Option (Except FsError Nat)
  | [] => some (.error .notFound)
  | i :: is => do
    let idx ← readUnaligned 12 ExtentIdx.decode d (12 + i * 12)
    let nextIdxBlock ← if i + 1 < entries then
        (readUnaligned 12 ExtentIdx.decode d (12 + i * 12 + 12)).map fun n => n.eiBlock.toNat
      else some u64Max
    if idx.eiBlock.toNat ≤ logicalBlock ∧ logicalBlock < nextIdxBlock then child idx.childBlock
    else searchIndex child d logicalBlock entries is

/-- `Ext4SbData::extent_tree_search` of `logicalBlock` in the node `extentData`, with child
    nodes read from `dev` in blocks of `blockSize` bytes; `none` once `fuel` nested calls
    are used up or a read runs past the end of a node. -/
def extentTreeSearch (dev : Nat → UInt8) (blockSize : Nat) :
    Nat → List UInt8 → Nat → Option (Except FsError Nat)
  | 0, _, _ => none
  | fuel + 1, extentData, logicalBlock => do
    let header ← readUnaligned 12 ExtentHeader.decode extentData 0
    if header.ehMagic ≠ extMagic then some (.error .ioError)
    else if header.ehDepth = 0 then
      searchLeaf extentData logicalBlock (List.range header.ehEntries.toNat)
    else
      searchIndex
        (fun b => extentTreeSearch dev blockSize fuel (readBlock dev b blockSize) logicalBlock)
        extentData logicalBlock header.ehEntries.toNat (List.range header.ehEntries.toNat)

/-- `Ext4SbData::extent_map_block`: the search from the root in the inode's `i_block`. -/
def extentMapBlock (dev : Nat → UInt8) (blockSize fuel : Nat) (inode : Inode)
    (logicalBlock : Nat) : Option (Except FsError Nat) :=
  if inode.iFlags &&& extentsFl = 0 then some (.error .notSupported)
  else extentTreeSearch dev blockSize fuel inode.iBlock logicalBlock

/-! ## The specification -/

/-- Mapping a logical block by a linear scan of the leaf extents `es`: through the first that
    covers it. -/
def linearScan (es : List Extent) (l : Nat) : Except FsError Nat :=
  match es.find? fun e => decide (e.Covers l) with
  | some e => .ok (e.physStart + (l - e.startBlock))
  | none => .error .notFound

theorem linearScan_nil (l : Nat) : linearScan [] l = .error .notFound := rfl

theorem linearScan_cons_of_covers {e : Extent} {l : Nat} (es : List Extent) (h : e.Covers l) :
    linearScan (e :: es) l = .ok (e.physStart + (l - e.startBlock)) := by
  simp [linearScan, List.find?_cons, h]

theorem linearScan_cons_of_not_covers {e : Extent} {l : Nat} (es : List Extent)
    (h : ¬e.Covers l) : linearScan (e :: es) l = linearScan es l := by
  simp [linearScan, List.find?_cons, h]

/-- The scan finds nothing exactly when no extent covers the block. -/
theorem linearScan_eq_notFound_iff (es : List Extent) (l : Nat) :
    linearScan es l = .error .notFound ↔ ∀ e ∈ es, ¬e.Covers l := by
  unfold linearScan
  split <;> rename_i h
  · simp only [reduceCtorEq, false_iff, not_forall, not_not]
    have hc := List.find?_some h
    exact ⟨_, List.mem_of_find?_eq_some h, of_decide_eq_true hc⟩
  · simpa using h

theorem linearScan_append_left {es : List Extent} {l : Nat} (h : ∀ e ∈ es, ¬e.Covers l)
    (es' : List Extent) : linearScan (es ++ es') l = linearScan es' l := by
  induction es with
  | nil => rfl
  | cons e es ih =>
    rw [List.cons_append, linearScan_cons_of_not_covers _ (h e (.head _))]
    exact ih fun e' he' => h e' (.tail _ he')

theorem linearScan_append_right (es : List Extent) {es' : List Extent} {l : Nat}
    (h : ∀ e ∈ es', ¬e.Covers l) : linearScan (es ++ es') l = linearScan es l := by
  induction es with
  | nil => rw [List.nil_append, (linearScan_eq_notFound_iff es' l).2 h]; rfl
  | cons e es ih =>
    by_cases he : e.Covers l
    · rw [List.cons_append, linearScan_cons_of_covers _ he, linearScan_cons_of_covers _ he]
    · rw [List.cons_append, linearScan_cons_of_not_covers _ he,
        linearScan_cons_of_not_covers _ he, ih]

/-! ## Well-formed trees -/

/-- The number of entries of the node `d`. -/
def entries (d : List UInt8) : Nat := (ExtentHeader.decode d 0).ehEntries.toNat

/-- The first logical block of index `i` of the node `d`. -/
def key (d : List UInt8) (i : Nat) : Nat := (ExtentIdx.decode d (12 + i * 12)).eiBlock.toNat

/-- The child block of index `i` of the node `d`. -/
def child (d : List UInt8) (i : Nat) : Nat := (ExtentIdx.decode d (12 + i * 12)).childBlock

/-- `Node dev blockSize depth d es`: the bytes `d` are an extent node of depth `depth`, with
    the magic number, its entries inside it, and children of one depth less read from `dev`,
    whose leaf extents, left to right, are `es`. An internal node's keys increase, and every
    extent reachable through index `i` lies in `[key i, key (i + 1))`, or from `key i` on for
    the last index. -/
inductive Node (dev : Nat → UInt8) (blockSize : Nat) : Nat → List UInt8 → List Extent → Prop
  | leaf {d : List UInt8} :
      (ExtentHeader.decode d 0).ehMagic = extMagic → (ExtentHeader.decode d 0).ehDepth = 0 →
      12 + entries d * 12 ≤ d.length →
      Node dev blockSize 0 d ((List.range (entries d)).map fun i => Extent.decode d (12 + i * 12))
  | index {d : List UInt8} {depth : Nat} (sub : Nat → List Extent) :
      (ExtentHeader.decode d 0).ehMagic = extMagic →
      (ExtentHeader.decode d 0).ehDepth.toNat = depth + 1 →
      12 + entries d * 12 ≤ d.length →
      (∀ i, i + 1 < entries d → key d i < key d (i + 1)) →
      (∀ i < entries d, Node dev blockSize depth (readBlock dev (child d i) blockSize) (sub i)) →
      (∀ i < entries d, ∀ e ∈ sub i, ∀ l, e.Covers l →
        key d i ≤ l ∧ (i + 1 < entries d → l < key d (i + 1))) →
      Node dev blockSize (depth + 1) d ((List.range (entries d)).flatMap sub)

/-! ## The search is the scan -/

/-- A leaf whose entries `is` lie inside it is scanned in order. -/
theorem searchLeaf_eq (d : List UInt8) (l : Nat) {is : List Nat}
    (h : ∀ i ∈ is, 12 + i * 12 + 12 ≤ d.length) :
    searchLeaf d l is = some (linearScan (is.map fun i => Extent.decode d (12 + i * 12)) l) := by
  induction is with
  | nil => rfl
  | cons i is ih =>
    simp only [searchLeaf, readUnaligned_of_le _ (h i (.head _)), Option.bind_eq_bind,
      Option.some_bind, List.map_cons]
    split_ifs with hc
    · rw [linearScan_cons_of_covers _ hc]
    · rw [linearScan_cons_of_not_covers _ hc, ih fun j hj => h j (.tail _ hj)]

/-- Whether index `i` of a node with `n` entries is followed for block `l`: the test of
    `extent_tree_search`, with `u64::MAX` after the last index. -/
def Follows (d : List UInt8) (n i l : Nat) : Prop :=
  key d i ≤ l ∧ l < if i + 1 < n then key d (i + 1) else u64Max

instance (d : List UInt8) (n i l : Nat) : Decidable (Follows d n i l) :=
  inferInstanceAs (Decidable (_ ∧ _))

/-- One turn of the index loop, when the index and the node's entries lie inside it. -/
theorem searchIndex_cons (c : Nat → Option (Except FsError Nat)) {d : List UInt8} {l n i : Nat}
    (is : List Nat) (hn : 12 + n * 12 ≤ d.length) (hi : i < n) :
    searchIndex c d l n (i :: is) =
      if Follows d n i l then c (child d i) else searchIndex c d l n is := by
  simp only [searchIndex, readUnaligned_of_le _ (show 12 + i * 12 + 12 ≤ d.length by omega),
    Option.bind_eq_bind, Option.some_bind, Follows, key, child]
  by_cases h1 : i + 1 < n
  · simp only [if_pos h1, readUnaligned_of_le _ (show 12 + i * 12 + 12 + 12 ≤ d.length by omega),
      Option.map_some', Option.some_bind, show 12 + (i + 1) * 12 = 12 + i * 12 + 12 by ring]
  · simp only [if_neg h1, Option.some_bind]

/-- The index loop follows the one index whose range holds the block, if any. -/
theorem searchIndex_eq {c : Nat → Option (Except FsError Nat)} {d : List UInt8} {l n : Nat}
    {sub : Nat → List Extent} (hn : 12 + n * 12 ≤ d.length) {is : List Nat}
    (hlt : ∀ i ∈ is, i < n)
    (hc : ∀ i ∈ is, Follows d n i l → c (child d i) = some (linearScan (sub i) l))
    (hcov : ∀ i ∈ is, ∀ e ∈ sub i, e.Covers l → Follows d n i l)
    (hone : is.Pairwise fun i j => ¬(Follows d n i l ∧ Follows d n j l)) :
    searchIndex c d l n is = some (linearScan (is.flatMap sub) l) := by
  induction is with
  | nil => rfl
  | cons i is ih =>
    rw [searchIndex_cons c is hn (hlt i (.head _)), List.flatMap_cons]
    rw [List.pairwise_cons] at hone
    split_ifs with hf
    · rw [hc i (.head _) hf, linearScan_append_right]
      -- No later index holds the block, so none of its extents covers it.
      intro e he hce
      obtain ⟨j, hj, he⟩ := List.mem_flatMap.1 he
      exact hone.1 j hj ⟨hf, hcov j (.tail _ hj) e he hce⟩
    · rw [linearScan_append_left fun e he hce => hf (hcov i (.head _) e he hce)]
      exact ih (fun j hj => hlt j (.tail _ hj)) (fun j hj => hc j (.tail _ hj))
        (fun j hj => hcov j (.tail _ hj)) hone.2

/-- Increasing keys, one after the next, increase. -/
theorem key_le_key {d : List UInt8} (h : ∀ i, i + 1 < entries d → key d i < key d (i + 1))
    {i j : Nat} (hij : i ≤ j) (hj : j < entries d) : key d i ≤ key d j := by
  induction j, hij using Nat.le_induction with
  | base => exact le_rfl
  | succ j _ ih => exact (ih (by omega)).trans (h j hj).le

/-- The extent tree search of a well-formed tree of depth `depth`, with fuel to spare, is the
    linear scan of its leaf extents. -/
theorem Node.extentTreeSearch_eq {dev : Nat → UInt8} {bs depth : Nat} {d : List UInt8}
    {es : List Extent} (h : Node dev bs depth d es) {fuel : Nat} (hf : depth < fuel) (l : Nat) :
    extentTreeSearch dev bs fuel d l = some (linearScan es l) := by
  induction h generalizing fuel with
  | @leaf d hmagic hdepth hlen =>
    obtain ⟨fuel, rfl⟩ : ∃ f, fuel = f + 1 := ⟨fuel - 1, by omega⟩
    simp only [extentTreeSearch, readUnaligned_of_le _ (show 0 + 12 ≤ d.length by omega),
      Option.bind_eq_bind, Option.some_bind, hmagic, hdepth, ne_eq, not_true_eq_false, if_false,
      if_true]
    exact searchLeaf_eq d l fun i hi => by
      have := List.mem_range.1 hi; unfold entries at hlen this; omega
  | @index d depth sub hmagic hdepth hlen hkey _ hcov ih =>
    obtain ⟨fuel, rfl⟩ : ∃ f, fuel = f + 1 := ⟨fuel - 1, by omega⟩
    have hd0 : (ExtentHeader.decode d 0).ehDepth ≠ 0 := fun h0 => by
      rw [h0] at hdepth; simp at hdepth
    have hn : (ExtentHeader.decode d 0).ehEntries.toNat = entries d := rfl
    simp only [extentTreeSearch, readUnaligned_of_le _ (show 0 + 12 ≤ d.length by omega),
      Option.bind_eq_bind, Option.some_bind, hmagic, hd0, ne_eq, not_true_eq_false, if_false, hn]
    refine searchIndex_eq hlen (fun i hi => List.mem_range.1 hi)
      (fun i hi _ => ih i (List.mem_range.1 hi) (by omega)) (fun i hi e he hce => ?_) ?_
    · -- An extent under index `i` covers only blocks index `i` is followed for.
      obtain ⟨hlo, hhi⟩ := hcov i (List.mem_range.1 hi) e he l hce
      refine ⟨hlo, ?_⟩
      split_ifs with hn
      · exact hhi hn
      · have := Extent.lt_of_covers hce; unfold u64Max; omega
    · -- Two indices are never both followed: the ranges of increasing keys are disjoint.
      refine (List.pairwise_lt_range _).imp_of_mem fun {i j} _ hj hij ⟨hi, hj'⟩ => ?_
      have hj := List.mem_range.1 hj
      have hle := key_le_key hkey (show i + 1 ≤ j by omega) hj
      have hlt := hi.2
      rw [if_pos (by omega)] at hlt
      have := hj'.1
      omega

/-- `extent_map_block`, on an extent-mapped inode whose `i_block` holds a well-formed tree
    of depth `depth`, with fuel to spare: the first leaf extent that covers the block maps it,
    and the result is `NotFound` exactly when none does. -/
theorem extentMapBlock_eq_linearScan {dev : Nat → UInt8} {bs depth fuel : Nat} {inode : Inode}
    {es : List Extent} (hfl : inode.iFlags &&& extentsFl ≠ 0)
    (htree : Node dev bs depth inode.iBlock es) (hf : depth < fuel) (l : Nat) :
    extentMapBlock dev bs fuel inode l = some (linearScan es l) := by
  rw [extentMapBlock, if_neg hfl, htree.extentTreeSearch_eq hf]

/-- An inode whose `i_block` is a leaf with one extent: logical blocks `0, 1, 2` stored from
    physical block `100`. -/
def oneExtentInode : Inode where
  iSizeLo := 3 * 4096
  iFlags := extentsFl
  iBlock := [0x0A, 0xF3, 1, 0, 4, 0, 0, 0, 0, 0, 0, 0,
    0, 0, 0, 0, 3, 0, 0, 0, 100, 0, 0, 0] ++ List.replicate 36 0
  iSizeHigh := 0

/-- A device whose block `40` (of 1024 bytes) holds a leaf with one extent: logical blocks
    `0` to `7` stored from physical block `500`. -/
def leafBlockDev (o : Nat) : UInt8 :=
  if 40960 ≤ o then
    [0x0A, 0xF3, 1, 0, 4, 0, 0, 0, 0, 0, 0, 0, 0, 0, 0, 0, 8, 0, 0, 0, 0xF4, 0x01, 0, 0].getD
      (o - 40960) 0
  else 0

/-- An inode whose `i_block` is an index node of depth `1` with one index, from logical block
    `0`, to the leaf in block `40`. -/
def twoLevelInode : Inode where
  iSizeLo := 8 * 1024
  iFlags := extentsFl
  iBlock := [0x0A, 0xF3, 1, 0, 4, 0, 1, 0, 0, 0, 0, 0,
    0, 0, 0, 0, 40, 0, 0, 0, 0, 0, 0, 0] ++ List.replicate 36 0
  iSizeHigh := 0

/-- The extents of the leaf in block `40`. -/
def leafExtents : List Extent :=
  (List.range (entries (readBlock leafBlockDev 40 1024))).map
    fun i => Extent.decode (readBlock leafBlockDev 40 1024) (12 + i * 12)

set_option maxRecDepth 10000 in
/-- The tree of `twoLevelInode` is well formed: its one index leads to a leaf whose extent
    starts at the index's key. -/
theorem node_twoLevelInode :
    Node leafBlockDev 1024 1 twoLevelInode.iBlock
      ((List.range (entries twoLevelInode.iBlock)).flatMap fun _ => leafExtents) := by
  have hn : entries twoLevelInode.iBlock = 1 := rfl
  refine .index (fun _ => leafExtents) (by decide) (by decide) (by decide)
    (fun i hi => absurd hi (by omega)) (fun i hi => ?_) (fun i hi e _ l _ => ?_)
  · obtain rfl : i = 0 := by omega
    exact .leaf (by decide) (by decide) (by decide)
  · obtain rfl : i = 0 := by omega
    exact ⟨Nat.zero_le l, fun h => absurd h (by omega)⟩

/-- A leaf of one extent in `i_block`, and an index node of depth `1` over a leaf in block
    `40`: both trees build, and `extent_map_block` maps through them as the scan does, block
    `2` to `102` and block `4` to `504`. -/
theorem extentMapBlock_eq_linearScan_leafAndIndex :
    (oneExtentInode.iFlags &&& extentsFl ≠ 0 ∧
      Node (fun _ => 0) 4096 0 oneExtentInode.iBlock
        ((List.range (entries oneExtentInode.iBlock)).map
          fun i => Extent.decode oneExtentInode.iBlock (12 + i * 12)) ∧
      extentMapBlock (fun _ => 0) 4096 1 oneExtentInode 2 =
        some (linearScan ((List.range (entries oneExtentInode.iBlock)).map
          fun i => Extent.decode oneExtentInode.iBlock (12 + i * 12)) 2)) ∧
    (twoLevelInode.iFlags &&& extentsFl ≠ 0 ∧
      Node leafBlockDev 1024 1 twoLevelInode.iBlock
        ((List.range (entries twoLevelInode.iBlock)).flatMap fun _ => leafExtents) ∧
      extentMapBlock leafBlockDev 1024 2 twoLevelInode 4 =
        some (linearScan ((List.range (entries twoLevelInode.iBlock)).flatMap
          fun _ => leafExtents) 4)) :=
  have htree : Node (fun _ => 0) 4096 0 oneExtentInode.iBlock _ :=
    .leaf (by decide) (by decide) (by decide)
  ⟨⟨by decide, htree, extentMapBlock_eq_linearScan (by decide) htree (by decide) 2⟩,
    ⟨by decide, node_twoLevelInode,
      extentMapBlock_eq_linearScan (by decide) node_twoLevelInode (by decide) 4⟩⟩

example : linearScan ((List.range (entries oneExtentInode.iBlock)).map
    fun i => Extent.decode oneExtentInode.iBlock (12 + i * 12)) 2 = .ok 102 := rfl

set_option maxRecDepth 10000 in
example : linearScan ((List.range (entries twoLevelInode.iBlock)).flatMap
    fun _ => leafExtents) 4 = .ok 504 := rfl

end HkKernel.Ext4
