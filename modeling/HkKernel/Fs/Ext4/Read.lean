import HkKernel.Fs.Ext4.Extent
import HkKernel.Fs.Ext4.Super

/-!
# Reading file data

Two paths read a file's bytes. `Ext4FileOps::read` walks the requested range block by block:
the byte at offset `o` is byte `o mod block_size` of the block that logical block
`o / block_size` maps to (`fileByte`). `Ext4InodeOps::readpage` fills one page of the page
cache: it maps logical block `page_offset * PAGE_SIZE / block_size` and copies that block from
its start. `PAGE_SIZE` comes from the page cache, which is not part of this development, so
it is a parameter here.

* `readFrom_spec`, `read_spec`: `read` copies exactly the file's bytes;
* `readpage_spec_of_dvd`: `readpage` copies one block, `min(len, block_size)` bytes, and for a
  page that starts on a block boundary (`readpage_spec_of_aligned`), as every page does when
  the block size divides `PAGE_SIZE`, they are the file's bytes;
* `readpage_reads_block_start`: with 8192-byte blocks and 4096-byte pages, page `1` is filled
  with the first half of block `0` instead of its second half.
-/

namespace HkKernel.Ext4

section

variable (dev : Nat → UInt8) (fuel : Nat) (inode : Inode)

/-- Byte `o` of the file, with blocks of `blockSize` bytes: byte `o mod blockSize` of the
    block that logical block `o / blockSize` maps to. -/
def fileByte (blockSize o : Nat) : Option UInt8 :=
  match extentMapBlock dev blockSize fuel inode (o / blockSize) with
  | some (.ok physBlock) => (readBlock dev physBlock blockSize)[o % blockSize]?
  | _ => none

/-- `Ext4InodeOps::readpage` of page `pageOffset` into a buffer of `bufLen` bytes, once the
    inode is read: the bytes it copies. -/
def readpage (pageSize : Nat) (sb : SbData) (pageOffset bufLen : Nat) :
    Option (Except FsError (List UInt8)) :=
  let blockSize := sb.blockSize.toNat
  if blockSize = 0 then none
  else
    let logicalBlock := pageOffset * pageSize % 2 ^ 64 / blockSize
    match extentMapBlock dev blockSize fuel inode logicalBlock with
    | none => none
    | some (.error e) => some (.error e)
    | some (.ok physBlock) =>
      let blockData := readBlock dev physBlock blockSize
      some (.ok (blockData.take (min bufLen blockData.length)))

/-- The loop of `Ext4FileOps::read` reading `toRead` bytes from `pos`, once `bytesRead` of
    them are read: the bytes it copies from there on. -/
def readFrom (blockSize pos toRead bytesRead : Nat) : Option (Except FsError (List UInt8)) :=
  if bytesRead < toRead then
    if hbs : blockSize = 0 then none
    else
      let currentPos := pos + bytesRead
      let logicalBlock := currentPos / blockSize
      let offsetInBlock := currentPos % blockSize
      let chunkSize := min (blockSize - offsetInBlock) (toRead - bytesRead)
      match extentMapBlock dev blockSize fuel inode logicalBlock with
      | none => none
      | some (.error e) => some (.error e)
      | some (.ok physBlock) =>
        let chunk := ((readBlock dev physBlock blockSize).drop offsetInBlock).take chunkSize
        have : (pos + bytesRead) % blockSize < blockSize := Nat.mod_lt _ (Nat.pos_of_ne_zero hbs)
        (readFrom blockSize pos toRead (bytesRead + chunkSize)).map fun r => r.map (chunk ++ ·)
  else some (.ok [])
termination_by toRead - bytesRead

/-- `Ext4FileOps::read` of `bufLen` bytes at `pos` of a file of `fileSize` bytes: the bytes
    it copies. -/
def read (sb : SbData) (fileSize pos bufLen : Nat) : Option (Except FsError (List UInt8)) :=
  if pos ≥ fileSize then some (.ok [])
  else
    let toRead := min bufLen (fileSize - pos)
    if toRead = 0 then some (.ok [])
    else readFrom dev fuel inode sb.blockSize.toNat pos toRead 0

/-! ## `read` copies the file's bytes -/

/-- Offsets `c + k` inside the block of `c` lie in that block, `k` bytes further. -/
theorem add_div_mod_of_lt {c k bs : Nat} (h : c % bs + k < bs) :
    (c + k) / bs = c / bs ∧ (c + k) % bs = c % bs + k := by
  have hbs : 0 < bs := by omega
  have e : c + k = (c % bs + k) + bs * (c / bs) := by have := Nat.div_add_mod c bs; omega
  rw [e, Nat.add_mul_div_left _ _ hbs, Nat.div_eq_of_lt h, Nat.add_mul_mod_self_left,
    Nat.mod_eq_of_lt h]
  simp

/-- The file's bytes at `c + k`, inside the block of `c` that maps to `physBlock`. -/
theorem fileByte_of_lt {bs c k physBlock : Nat}
    (hmap : extentMapBlock dev bs fuel inode (c / bs) = some (.ok physBlock))
    (hk : c % bs + k < bs) :
    fileByte dev fuel inode bs (c + k) = (readBlock dev physBlock bs)[c % bs + k]? := by
  obtain ⟨hdiv, hmod⟩ := add_div_mod_of_lt hk
  rw [fileByte, hdiv, hmod, hmap]

/-- What the loop of `read` returns, when it succeeds: the `toRead - bytesRead` bytes of the
    file from `pos + bytesRead`. -/
theorem readFrom_spec {bs pos toRead : Nat} (bytesRead : Nat) {out : List UInt8}
    (h : readFrom dev fuel inode bs pos toRead bytesRead = some (.ok out)) :
    out.length = toRead - bytesRead ∧
      ∀ k < out.length, out[k]? = fileByte dev fuel inode bs (pos + bytesRead + k) := by
  rw [readFrom] at h
  split_ifs at h with hlt hbs
  · dsimp only at h
    split at h
    · cases h
    · cases h
    · rename_i physBlock hmap
      obtain ⟨r, hr, hout⟩ := Option.map_eq_some'.1 h
      cases r with
      | error e => cases hout
      | ok rest =>
        cases hout
        have hoff := Nat.mod_lt (pos + bytesRead) (Nat.pos_of_ne_zero hbs)
        set off := (pos + bytesRead) % bs
        set chunkSize := min (bs - off) (toRead - bytesRead)
        obtain ⟨hlen, hrest⟩ := readFrom_spec (bytesRead + chunkSize) hr
        have hchunk : (((readBlock dev physBlock bs).drop off).take chunkSize).length = chunkSize := by
          simp only [List.length_take, List.length_drop, length_readBlock]; omega
        refine ⟨by rw [List.length_append, hchunk, hlen]; omega, fun k hk => ?_⟩
        by_cases hkc : k < chunkSize
        · -- A byte of this block.
          rw [List.getElem?_append_left (by rwa [hchunk]), List.getElem?_take_of_lt hkc,
            List.getElem?_drop, fileByte_of_lt dev fuel inode hmap (by omega)]
        · -- A byte of a later block.
          rw [List.getElem?_append_right (by rw [hchunk]; omega), hchunk,
            hrest _ (by rw [List.length_append, hchunk] at hk; omega)]
          congr 1; omega
  · cases h
    exact ⟨by simp; omega, fun k hk => absurd hk (by simp)⟩
termination_by toRead - bytesRead
decreasing_by
  have := Nat.mod_lt (pos + bytesRead) (Nat.pos_of_ne_zero hbs)
  omega

/-- `read` copies `min bufLen (fileSize - pos)` bytes, each the file's byte at its offset. -/
theorem read_spec {sb : SbData} {fileSize pos bufLen : Nat} {out : List UInt8}
    (h : read dev fuel inode sb fileSize pos bufLen = some (.ok out)) :
    out.length = min bufLen (fileSize - pos) ∧
      ∀ k < out.length, out[k]? = fileByte dev fuel inode sb.blockSize.toNat (pos + k) := by
  unfold read at h
  dsimp only at h
  split_ifs at h
  · cases h; exact ⟨by simp; omega, fun k hk => absurd hk (by simp)⟩
  · cases h; exact ⟨by simp; omega, fun k hk => absurd hk (by simp)⟩
  · simpa using readFrom_spec dev fuel inode 0 h

/-! ## `readpage` copies from the start of the block -/

/-- For a page that starts on a block boundary, `readpage` copies the file's bytes. -/
theorem readpage_spec_of_aligned {pageSize pageOffset bufLen : Nat} {sb : SbData}
    {out : List UInt8} (halign : pageOffset * pageSize % sb.blockSize.toNat = 0)
    (hlt : pageOffset * pageSize < 2 ^ 64)
    (h : readpage dev fuel inode pageSize sb pageOffset bufLen = some (.ok out)) :
    ∀ k < out.length,
      out[k]? = fileByte dev fuel inode sb.blockSize.toNat (pageOffset * pageSize + k) := by
  intro k hk
  unfold readpage at h
  rw [Nat.mod_eq_of_lt hlt] at h
  dsimp only at h
  split_ifs at h with hbs
  split at h
  · cases h
  · cases h
  · rename_i physBlock hmap
    cases h
    have hkb : k < sb.blockSize.toNat := by simp at hk; omega
    have hfb := fileByte_of_lt dev fuel inode hmap
      (show pageOffset * pageSize % sb.blockSize.toNat + k < _ by omega)
    rw [halign, Nat.zero_add] at hfb
    rw [hfb, List.getElem?_take_of_lt (by rw [length_readBlock]; simp at hk; omega)]

/-- `readpage` copies `min(len, block_size)` bytes: one block, whatever the page's size. -/
theorem length_readpage {pageSize pageOffset bufLen : Nat} {sb : SbData} {out : List UInt8}
    (h : readpage dev fuel inode pageSize sb pageOffset bufLen = some (.ok out)) :
    out.length = min bufLen sb.blockSize.toNat := by
  unfold readpage at h
  dsimp only at h
  split_ifs at h
  split at h
  · cases h
  · cases h
  · cases h; simp

/-- When the block size divides `PAGE_SIZE`, as it does when a block is no larger than a page
    (both are powers of two), every page below `2^64` starts on a block boundary: `readpage`
    copies `min(len, block_size)` bytes, each the file's byte at its offset. -/
theorem readpage_spec_of_dvd {pageSize pageOffset bufLen : Nat} {sb : SbData} {out : List UInt8}
    (hdvd : sb.blockSize.toNat ∣ pageSize) (hlt : pageOffset * pageSize < 2 ^ 64)
    (h : readpage dev fuel inode pageSize sb pageOffset bufLen = some (.ok out)) :
    out.length = min bufLen sb.blockSize.toNat ∧ ∀ k < out.length,
      out[k]? = fileByte dev fuel inode sb.blockSize.toNat (pageOffset * pageSize + k) :=
  ⟨length_readpage dev fuel inode h, readpage_spec_of_aligned dev fuel inode
    (Nat.mod_eq_zero_of_dvd (Dvd.dvd.mul_left hdvd pageOffset)) hlt h⟩

end

/-- A device whose every 4096-byte page holds its page number. -/
def pageDev (o : Nat) : UInt8 := UInt8.ofNat (o / 4096)

/-- With 4096-byte blocks and pages, `readpage` of page `1` of `oneExtentInode` copies block
    `101`, which logical block `1` maps to. -/
theorem readpage_spec_of_dvd_oneExtent :
    (4096 : UInt32).toNat ∣ 4096 ∧ 1 * 4096 < 2 ^ 64 ∧
      readpage pageDev 1 oneExtentInode 4096 ⟨4096, 128, 8192, 32768, 1, 32, 0⟩ 1 4096 =
        some (.ok ((readBlock pageDev 101 4096).take 4096)) ∧
      (((readBlock pageDev 101 4096).take 4096).length = min 4096 (4096 : UInt32).toNat ∧
        ∀ k < ((readBlock pageDev 101 4096).take 4096).length,
          ((readBlock pageDev 101 4096).take 4096)[k]? =
            fileByte pageDev 1 oneExtentInode (4096 : UInt32).toNat (1 * 4096 + k)) := by
  have hmap : extentMapBlock pageDev 4096 1 oneExtentInode 1 = some (.ok 101) := rfl
  have hread : readpage pageDev 1 oneExtentInode 4096 ⟨4096, 128, 8192, 32768, 1, 32, 0⟩ 1 4096 =
      some (.ok ((readBlock pageDev 101 4096).take 4096)) := by
    have hbs : (4096 : UInt32).toNat = 4096 := rfl
    simp only [readpage, hbs, Nat.reduceMul, Nat.reducePow, Nat.reduceMod, Nat.reduceDiv, hmap,
      length_readBlock, min_self]
    rfl
  have hdvd : (4096 : UInt32).toNat ∣ 4096 := Nat.dvd_refl _
  exact ⟨hdvd, by norm_num, hread, readpage_spec_of_dvd pageDev 1 oneExtentInode hdvd
    (by norm_num) hread⟩

/-- A superblock with 8192-byte blocks (`s_log_block_size = 3`), `8192` blocks in groups of
    `65536`, and `8192` inodes a group. -/
def block8192Image : List UInt8 :=
  ((((zeroGroupsImage.set 24 3).set 34 1).set 5 0x20).set 41 0x20)

/-- With 8192-byte blocks and 4096-byte pages, `readpage` fills page `1` of a file whose
    logical block `0` is physical block `100` with byte `0` of that block, where the file's
    byte `4096` is byte `4096` of it. -/
theorem readpage_reads_block_start :
    ∃ sb, readSuperblock block8192Image = some (.ok sb) ∧ sb.blockSize = 8192 ∧
      ∃ out, readpage pageDev 1 oneExtentInode 4096 sb 1 4096 = some (.ok out) ∧
        out[0]? = some 200 ∧
        fileByte pageDev 1 oneExtentInode 8192 (1 * 4096 + 0) = some 201 := by
  have hmap : extentMapBlock pageDev 8192 1 oneExtentInode 0 = some (.ok 100) := rfl
  refine ⟨⟨8192, 128, 8192, 65536, 1, 32, 0⟩, rfl, rfl,
    (readBlock pageDev 100 8192).take 4096, ?_, ?_, ?_⟩
  · have hbs : (8192 : UInt32).toNat = 8192 := rfl
    simp only [readpage, hbs, Nat.reduceMul, Nat.reducePow, Nat.reduceMod, Nat.reduceDiv, hmap,
      length_readBlock]
    rfl
  · rw [List.getElem?_take_of_lt (by norm_num), getElem?_readBlock]
    rfl
  · rw [fileByte, show (1 * 4096 + 0) / 8192 = 0 by norm_num, hmap]
    dsimp only
    rw [getElem?_readBlock]
    rfl

end HkKernel.Ext4
