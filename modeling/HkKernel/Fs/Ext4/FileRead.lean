import HkKernel.Fs.Ext4.Read
import HkKernel.Fs.Ext4.ExtentSafety

/-!
# A read call

`Ext4FileOps::read` on an open file copies `min(len, size - pos)` bytes into the buffer and
advances the file position by as many, or returns an error and leaves the position alone
(`fileRead`). Its loop does this whenever it returns (`fileRead_spec`), and it returns when
`extent_map_block` answers for every block (`readFrom_ne_none`):

* `fileRead_returns`: so on a mounted image, on a file whose extent tree is well formed, `read`
  returns, with an error or with the file's bytes.

On other trees it may not:

* `fileRead_never_returns_on_cycle`: on an image that mounts, reading one byte of a file whose
  extent tree leads to a block that points to itself never returns.
-/

namespace HkKernel.Ext4

section

variable (dev : Nat → UInt8) (fuel : Nat) (inode : Inode)

/-- `Ext4FileOps::read` of the file whose ext4 inode is `inode`, at position `pos`, into the
    buffer `buf`: the call's result, with the buffer after it, and the file position after
    the call. On an error the buffer holds the chunks copied before it, which the model leaves
    unsaid. -/
def fileRead (sb : SbData) (pos : Nat) (buf : List UInt8) :
    Option (Except FsError (Nat × List UInt8) × Nat) :=
  match read dev fuel inode sb inode.size pos buf.length with
  | none => none
  | some (.error e) => some (.error e, pos)
  | some (.ok out) => some (.ok (out.length, out ++ buf.drop out.length), pos + out.length)

/-- Whenever `read` returns, it returns an error and leaves the position, or it copies
    `n = min(len, size - pos)` bytes, each the file's byte at `pos + i`, leaves the rest of the
    buffer, and advances the position by `n`. -/
theorem fileRead_spec {sb : SbData} {pos : Nat} {buf : List UInt8}
    {r : Except FsError (Nat × List UInt8)} {pos' : Nat}
    (h : fileRead dev fuel inode sb pos buf = some (r, pos')) :
    (∃ e, r = .error e ∧ pos' = pos) ∨
      ∃ n buf', r = .ok (n, buf') ∧ n = min buf.length (inode.size - pos) ∧ pos' = pos + n ∧
        buf'.length = buf.length ∧
        (∀ i < n, buf'[i]? = fileByte dev fuel inode sb.blockSize.toNat (pos + i)) ∧
        ∀ i, n ≤ i → buf'[i]? = buf[i]? := by
  unfold fileRead at h
  split at h
  · cases h
  · cases h; exact .inl ⟨_, rfl, rfl⟩
  · rename_i out hout
    cases h
    obtain ⟨hlen, hbytes⟩ := read_spec dev fuel inode hout
    refine .inr ⟨_, _, rfl, hlen, rfl, by simp; omega, fun i hi => ?_, fun i hi => ?_⟩
    · rw [List.getElem?_append_left hi, hbytes i hi]
    · rw [List.getElem?_append_right hi, List.getElem?_drop]
      congr 1; omega

/-- The loop of `read` stops with no result only where `extent_map_block` gives none. -/
theorem readFrom_eq_none {bs pos toRead bytesRead : Nat} (hlt : bytesRead < toRead)
    (hbs : bs ≠ 0) (h : extentMapBlock dev bs fuel inode ((pos + bytesRead) / bs) = none) :
    readFrom dev fuel inode bs pos toRead bytesRead = none := by
  rw [readFrom, if_pos hlt, dif_neg hbs]
  simp only [h]

/-- When `extent_map_block` answers for every block, the loop of `read` returns. -/
theorem readFrom_ne_none {bs pos toRead : Nat} (hbs : bs ≠ 0)
    (hmap : ∀ b, extentMapBlock dev bs fuel inode b ≠ none) (bytesRead : Nat) :
    readFrom dev fuel inode bs pos toRead bytesRead ≠ none := by
  rw [readFrom]
  split_ifs with hlt
  · dsimp only
    cases hm : extentMapBlock dev bs fuel inode ((pos + bytesRead) / bs) with
    | none => exact absurd hm (hmap _)
    | some r =>
      cases r with
      | error e => simp
      | ok physBlock =>
        simp only [ne_eq, Option.map_eq_none']
        exact readFrom_ne_none hbs hmap _
  · simp
termination_by toRead - bytesRead
decreasing_by
  have := Nat.mod_lt (pos + bytesRead) (Nat.pos_of_ne_zero hbs)
  omega

/-- On a mounted image, `read` of an extent-mapped file whose `i_block` holds a well-formed
    tree returns, given fuel above the tree's depth. -/
theorem fileRead_ne_none_of_node {sb : SbData} {gds : List GroupDesc} (hm : Mounted dev sb gds)
    {depth : Nat} {es : List Extent} (hfl : inode.iFlags &&& extentsFl ≠ 0)
    (htree : Node dev sb.blockSize.toNat depth inode.iBlock es) (hf : depth < fuel)
    (pos : Nat) (buf : List UInt8) : fileRead dev fuel inode sb pos buf ≠ none := by
  have hbs : sb.blockSize.toNat ≠ 0 := fun h => hm.geometry.2.1 ((U32.eq_iff _ _).2 h)
  have hmap : ∀ b, extentMapBlock dev sb.blockSize.toNat fuel inode b ≠ none := fun b => by
    rw [extentMapBlock, if_neg hfl, htree.extentTreeSearch_eq hf]; simp
  unfold fileRead read
  dsimp only
  split_ifs
  · simp
  · simp
  · cases h : readFrom dev fuel inode sb.blockSize.toNat pos
        (min buf.length (inode.size - pos)) 0 with
    | none => exact absurd h (readFrom_ne_none dev fuel inode hbs hmap 0)
    | some r => cases r <;> simp

/-- On a mounted image, `read` of an extent-mapped file whose `i_block` holds a well-formed
    tree, with fuel above the tree's depth, returns: with an error, leaving the position, or
    with `n = min(len, size - pos)` bytes, each the file's byte at `pos + i`, the rest of the
    buffer untouched and the position advanced by `n`. -/
theorem fileRead_returns {sb : SbData} {gds : List GroupDesc} (hm : Mounted dev sb gds)
    {depth : Nat} {es : List Extent} (hfl : inode.iFlags &&& extentsFl ≠ 0)
    (htree : Node dev sb.blockSize.toNat depth inode.iBlock es) (hf : depth < fuel)
    (pos : Nat) (buf : List UInt8) :
    ∃ r pos', fileRead dev fuel inode sb pos buf = some (r, pos') ∧
      ((∃ e, r = .error e ∧ pos' = pos) ∨
        ∃ n buf', r = .ok (n, buf') ∧ n = min buf.length (inode.size - pos) ∧ pos' = pos + n ∧
          buf'.length = buf.length ∧
          (∀ i < n, buf'[i]? = fileByte dev fuel inode sb.blockSize.toNat (pos + i)) ∧
          ∀ i, n ≤ i → buf'[i]? = buf[i]?) := by
  obtain ⟨⟨r, pos'⟩, h⟩ := Option.ne_none_iff_exists'.1
    (fileRead_ne_none_of_node dev fuel inode hm hfl htree hf pos buf)
  exact ⟨r, pos', h, fileRead_spec dev fuel inode h⟩

end

/-- Reading two bytes from the start of `oneExtentInode`, a leaf in `i_block`, on
    `cleanImage`. -/
theorem fileRead_returns_oneExtent :
    Mounted cleanImage ⟨1024, 128, 16, 8192, 1, 64, 1⟩ [⟨5, 0⟩] ∧
      oneExtentInode.iFlags &&& extentsFl ≠ 0 ∧
      Node cleanImage (1024 : UInt32).toNat 0 oneExtentInode.iBlock
        ((List.range (entries oneExtentInode.iBlock)).map
          fun i => Extent.decode oneExtentInode.iBlock (12 + i * 12)) ∧ 0 < 1 ∧
      ∃ r pos', fileRead cleanImage 1 oneExtentInode ⟨1024, 128, 16, 8192, 1, 64, 1⟩ 0 [0, 0] =
          some (r, pos') ∧
        ((∃ e, r = .error e ∧ pos' = 0) ∨
          ∃ n buf', r = .ok (n, buf') ∧ n = min [0, 0].length (oneExtentInode.size - 0) ∧
            pos' = 0 + n ∧ buf'.length = [0, 0].length ∧
            (∀ i < n, buf'[i]? = fileByte cleanImage 1 oneExtentInode
              (1024 : UInt32).toNat (0 + i)) ∧
            ∀ i, n ≤ i → buf'[i]? = [(0 : UInt8), 0][i]?) :=
  have htree : Node cleanImage (1024 : UInt32).toNat 0 oneExtentInode.iBlock _ :=
    .leaf (by decide) (by decide) (by decide)
  ⟨mounted_cleanImage, by decide, htree, by decide,
    fileRead_returns cleanImage 1 oneExtentInode mounted_cleanImage (by decide) htree
      (by decide) 0 [0, 0]⟩

/-- On `cleanImage`, which mounts, reading one byte at position `0` of `cycleInode`, an
    extent-mapped file of 1024 bytes whose extent tree leads to block `20`, which points to
    itself, gives no result with any fuel: the call never returns, neither with an error nor
    with a byte. -/
theorem fileRead_never_returns_on_cycle :
    Mounted cleanImage ⟨1024, 128, 16, 8192, 1, 64, 1⟩ [⟨5, 0⟩] ∧
      cycleInode.iFlags &&& extentsFl ≠ 0 ∧ cycleInode.size = 1024 ∧
      ∀ fuel, fileRead cleanImage fuel cycleInode ⟨1024, 128, 16, 8192, 1, 64, 1⟩ 0 [0] = none := by
  refine ⟨mounted_cleanImage, by decide, rfl, fun fuel => ?_⟩
  have hread :
      read cleanImage fuel cycleInode ⟨1024, 128, 16, 8192, 1, 64, 1⟩ 1024 0 1 = none := by
    rw [read, if_neg (by decide)]
    exact readFrom_eq_none cleanImage fuel cycleInode (by decide) (by decide)
      (extentMapBlock_cycleInode fuel)
  simp only [fileRead, List.length_singleton, show cycleInode.size = 1024 from rfl, hread]

end HkKernel.Ext4
