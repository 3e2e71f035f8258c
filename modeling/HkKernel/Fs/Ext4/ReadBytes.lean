import HkKernel.Fs.Ext4.Mount
import HkKernel.Fs.Ext4.Read

/-!
# Reading the block device through the page cache

`read_bytes` copies `buf.len()` bytes of the block device from byte `offset` into `buf`, page
by page. For the page that holds `pos` it asks the page cache for a frame
(`find_or_create_page`), has the driver fill the frame if it is new (`readpage`), and copies
from it what the buffer still needs of that page. The page cache and the driver are not part
of this development, so what they do is a parameter (`PageCache`), and so is `PAGE_SIZE`.
`pos` is a `u64`: `pos += chunk_size` wraps.

* `readBytesLoop_step`: one pass of the loop, with its copy inside the frame and the buffer;
* `readBytes_spec`: for a range that ends by `2^64`, if the cache serves every page of the
  range, `read_bytes` asks for each of them once, in order, and fills `buf[i]` with byte
  `(offset + i) mod PAGE_SIZE` of the frame of page `(offset + i) / PAGE_SIZE`; otherwise it
  stops with `IoError` at the first page the cache does not serve. It never copies out of a
  frame or of `buf`;
* `readBytes_wraps`: with 4096-byte pages, a read of two bytes from byte `2^64 - 1` takes its
  second byte from page `0`, where `pos` wraps to;
* `PageCache.readBlock_eq`: `read_block` through a cache that holds the device's pages reads
  what `readBlock`, the view of the device the rest of the driver has, says, for every block
  size that divides `2^64`;
* `PageCache.readBlock_eq_of_mounted`: so on every image that mounts, whose block size divides
  `2^32`, every block reads so; `read_block`'s `IoError`, which `readBlock` does not have, does
  not arise there.
-/

namespace HkKernel.Ext4

/-- The page cache and the block driver below `read_bytes`. -/
structure PageCache where
  /-- `find_or_create_page` of a page: its frame, as the bytes it holds, and whether the frame
      is new; `none` when the call fails. -/
  findOrCreatePage : Nat → Option ((Nat → UInt8) × Bool)
  /-- The bytes the driver's `readpage` puts into a new frame for a page. -/
  readpage : Nat → Nat → UInt8

namespace PageCache

variable (c : PageCache) (pageSize : Nat)

/-- The frame `read_bytes` copies from for page `p`: the one the cache gives, filled by the
    driver if it is new. -/
def frame (p : Nat) : Option (Nat → UInt8) :=
  (c.findOrCreatePage p).map fun (f, needsRead) => if needsRead then c.readpage p else f

/-- Byte `a` of the device as the cache serves it: byte `a mod PAGE_SIZE` of the frame of page
    `a / PAGE_SIZE` (`0` if the cache does not serve that page). -/
def cachedByte (a : Nat) : UInt8 :=
  match c.frame (a / pageSize) with
  | some f => f (a % pageSize)
  | none => 0

end PageCache

/-- `copy_nonoverlapping` of `count` bytes from offset `src` of a frame of `frameSize` bytes
    to offset `dst` of `buf`; `none` if either range leaves its buffer. -/
def copyNonoverlapping (frame : Nat → UInt8) (frameSize src : Nat) (buf : List UInt8)
    (dst count : Nat) : Option (List UInt8) :=
  if src + count ≤ frameSize ∧ dst + count ≤ buf.length then
    some (buf.take dst ++ (List.range count).map (fun j => frame (src + j)) ++
      buf.drop (dst + count))
  else none

/-- `chunk_size`: what is left to copy, or the rest of the page `pos` is in. -/
def chunkSize (pageSize pos remaining : Nat) : Nat := min remaining (pageSize - pos % pageSize)

namespace PageCache

variable (c : PageCache) (pageSize : Nat)

/-- The loop of `read_bytes` at `pos`, with `remaining` bytes left to copy into `buf` from
    `bufOffset`: its result, the buffer after it, and the pages it asked the cache for, in
    order; `none` on a panic or a copy out of bounds. -/
def readBytesLoop (pos remaining bufOffset : Nat) (buf : List UInt8) :
    Option (Except FsError Unit × List UInt8 × List Nat) :=
  if remaining > 0 then
    if hps : pageSize = 0 then none
    else
      let pageOffset := pos / pageSize
      let offsetInPage := pos % pageSize
      let chunk := chunkSize pageSize pos remaining
      match c.findOrCreatePage pageOffset with
      | none => some (.error .ioError, buf, [pageOffset])
      | some (frame, needsRead) =>
        let frame := if needsRead then c.readpage pageOffset else frame
        match copyNonoverlapping frame pageSize offsetInPage buf bufOffset chunk with
        | none => none
        | some buf' =>
          have : 0 < pageSize - pos % pageSize :=
            Nat.sub_pos_of_lt (Nat.mod_lt _ (Nat.pos_of_ne_zero hps))
          (readBytesLoop ((pos + chunk) % 2 ^ 64) (remaining - chunk) (bufOffset + chunk)
            buf').map fun r => (r.1, r.2.1, pageOffset :: r.2.2)
  else some (.ok (), buf, [])
termination_by remaining
decreasing_by simp only [chunkSize]; omega

/-- `read_bytes` of `buf.len()` bytes from byte `offset`. -/
def readBytes (offset : Nat) (buf : List UInt8) :
    Option (Except FsError Unit × List UInt8 × List Nat) :=
  c.readBytesLoop pageSize offset buf.length 0 buf

/-- `read_block` of block `blockNum`: a zeroed buffer of `blockSize` bytes filled by
    `read_bytes` from byte `blockNum * blockSize`, a wrapping `u64` product. -/
def readBlock (blockNum blockSize : Nat) : Option (Except FsError (List UInt8)) :=
  match c.readBytes pageSize (blockNum * blockSize % 2 ^ 64) (List.replicate blockSize 0) with
  | none => none
  | some (.error e, _, _) => some (.error e)
  | some (.ok (), buf, _) => some (.ok buf)

end PageCache

/-! ## One pass of the loop -/

theorem chunkSize_bounds {pageSize : Nat} (hps : 0 < pageSize) (pos : Nat) {rem : Nat}
    (hrem : 0 < rem) :
    0 < chunkSize pageSize pos rem ∧ chunkSize pageSize pos rem ≤ rem ∧
      pos % pageSize + chunkSize pageSize pos rem ≤ pageSize := by
  have := Nat.mod_lt pos hps
  simp only [chunkSize]; omega

/-- The bytes of a chunk lie in the page of `pos`. -/
theorem div_mod_of_lt_chunkSize {pageSize pos rem i : Nat} (hps : 0 < pageSize) (hrem : 0 < rem)
    (hi : i < chunkSize pageSize pos rem) :
    (pos + i) / pageSize = pos / pageSize ∧ (pos + i) % pageSize = pos % pageSize + i :=
  add_div_mod_of_lt (by have := chunkSize_bounds hps pos hrem; omega)

/-- A chunk that does not finish the copy ends on a page boundary: what follows it lies in
    later pages. -/
theorem div_lt_of_chunkSize_lt {pageSize pos rem : Nat} (hps : 0 < pageSize)
    (hk : chunkSize pageSize pos rem < rem) (i : Nat) :
    pos / pageSize < (pos + chunkSize pageSize pos rem + i) / pageSize := by
  have hk' : chunkSize pageSize pos rem = pageSize - pos % pageSize := by
    simp only [chunkSize] at hk ⊢; omega
  have := Nat.div_add_mod pos pageSize
  have := Nat.mod_lt pos hps
  have := Nat.mul_comm (pos / pageSize) pageSize
  rw [Nat.lt_iff_add_one_le, Nat.le_div_iff_mul_le hps, Nat.succ_mul]
  omega

section

variable {pageSize pos rem q : Nat}

/-- A page that holds a byte of the range after the first chunk holds a byte of the range. -/
theorem exists_of_rest (hkr : chunkSize pageSize pos rem ≤ rem)
    (h : ∃ i < rem - chunkSize pageSize pos rem,
      (pos + chunkSize pageSize pos rem + i) / pageSize = q) :
    ∃ i < rem, (pos + i) / pageSize = q :=
  let ⟨i, hi, hq⟩ := h
  ⟨chunkSize pageSize pos rem + i, by omega, by rw [← Nat.add_assoc]; exact hq⟩

/-- It lies past the page of `pos`. -/
theorem lt_of_rest (hps : 0 < pageSize)
    (h : ∃ i < rem - chunkSize pageSize pos rem,
      (pos + chunkSize pageSize pos rem + i) / pageSize = q) :
    pos / pageSize < q :=
  let ⟨i, hi, hq⟩ := h
  hq ▸ div_lt_of_chunkSize_lt hps (by omega) i

/-- A page that holds a byte of the range is the page of `pos`, or holds a byte of the range
    after the first chunk. -/
theorem eq_or_rest (hps : 0 < pageSize) (hrem : 0 < rem) (h : ∃ i < rem, (pos + i) / pageSize = q) :
    q = pos / pageSize ∨ ∃ i < rem - chunkSize pageSize pos rem,
      (pos + chunkSize pageSize pos rem + i) / pageSize = q := by
  obtain ⟨i, hi, rfl⟩ := h
  by_cases hik : i < chunkSize pageSize pos rem
  · exact .inl (div_mod_of_lt_chunkSize hps hrem hik).1
  · exact .inr ⟨i - chunkSize pageSize pos rem, by omega, by
      rw [Nat.add_assoc, Nat.add_sub_cancel' (by omega)]⟩

end

namespace PageCache

variable (c : PageCache) {pageSize : Nat}

@[simp] theorem readBytesLoop_zero (pos bufOffset : Nat) (buf : List UInt8) :
    c.readBytesLoop pageSize pos 0 bufOffset buf = some (.ok (), buf, []) := by
  rw [readBytesLoop, if_neg (lt_irrefl 0)]

/-- One pass of the loop, within `2^64` and the buffer: it asks the cache for the page of
    `pos`, stops with `IoError` if the cache does not serve it, and otherwise copies the
    chunk of that page's frame from `pos` on into the buffer, inside both, and goes on from
    the chunk's end. -/
theorem readBytesLoop_step (hps : 0 < pageSize) {pos rem bo : Nat} {buf : List UInt8}
    (hrem : 0 < rem) (hpos : pos + rem ≤ 2 ^ 64) (hbuf : bo + rem ≤ buf.length) :
    c.readBytesLoop pageSize pos rem bo buf =
      match c.frame (pos / pageSize) with
      | none => some (.error .ioError, buf, [pos / pageSize])
      | some f =>
        (c.readBytesLoop pageSize (pos + chunkSize pageSize pos rem)
          (rem - chunkSize pageSize pos rem) (bo + chunkSize pageSize pos rem)
          (buf.take bo ++ (List.range (chunkSize pageSize pos rem)).map
            (fun j => f (pos % pageSize + j)) ++ buf.drop (bo + chunkSize pageSize pos rem))).map
          fun r => (r.1, r.2.1, pos / pageSize :: r.2.2) := by
  obtain ⟨-, hkr, hkp⟩ := chunkSize_bounds hps pos hrem
  rw [readBytesLoop, if_pos hrem, dif_neg (by omega)]
  simp only [frame]
  cases c.findOrCreatePage (pos / pageSize) with
  | none => rfl
  | some fn =>
    obtain ⟨fr, nr⟩ := fn
    have hb : bo + chunkSize pageSize pos rem ≤ buf.length := by omega
    simp only [Option.map_some', copyNonoverlapping, if_pos (And.intro hkp hb)]
    -- `pos` wraps only where the loop ends.
    by_cases hw : pos + chunkSize pageSize pos rem < 2 ^ 64
    · rw [Nat.mod_eq_of_lt hw]
    · rw [show rem - chunkSize pageSize pos rem = 0 by omega, readBytesLoop_zero,
        readBytesLoop_zero]

/-! ## The whole loop -/

/-- From any point of the loop within `2^64` and the buffer, when the cache serves every
    page of the rest of the range, the loop asks for each of these pages once, in order, and
    fills the rest of the buffer with the range's bytes. -/
theorem readBytesLoop_served (hps : 0 < pageSize) (rem : Nat) :
    ∀ {pos bo : Nat} {buf : List UInt8}, pos + rem ≤ 2 ^ 64 → bo + rem = buf.length →
      (∀ i < rem, c.frame ((pos + i) / pageSize) ≠ none) →
      ∃ pages, c.readBytesLoop pageSize pos rem bo buf =
          some (.ok (), buf.take bo ++ (List.range rem).map (fun i => c.cachedByte pageSize (pos + i)),
            pages) ∧
        pages.Pairwise (· < ·) ∧ ∀ q, q ∈ pages ↔ ∃ i < rem, (pos + i) / pageSize = q := by
  induction rem using Nat.strong_induction_on with
  | _ rem ih =>
  intro pos bo buf hpos hbuf hserved
  rcases Nat.eq_zero_or_pos rem with rfl | hrem
  · refine ⟨[], by rw [readBytesLoop_zero, List.take_of_length_le (by omega)]; simp,
      List.Pairwise.nil, by simp⟩
  obtain ⟨hk0, hkr, hkp⟩ := chunkSize_bounds hps pos hrem
  obtain ⟨f, hf⟩ := Option.ne_none_iff_exists'.1 (by simpa using hserved 0 hrem)
  rw [readBytesLoop_step c hps hrem hpos (by omega), hf]
  dsimp only
  -- The rest of the range, after the chunk of the first page.
  obtain ⟨pages, heq, hpair, hmem⟩ := ih (rem - chunkSize pageSize pos rem) (by omega)
    (show pos + chunkSize pageSize pos rem + (rem - chunkSize pageSize pos rem) ≤ 2 ^ 64 by omega)
    (show bo + chunkSize pageSize pos rem + (rem - chunkSize pageSize pos rem) =
      (buf.take bo ++ (List.range (chunkSize pageSize pos rem)).map
        (fun j => f (pos % pageSize + j)) ++ buf.drop (bo + chunkSize pageSize pos rem)).length by
      simp; omega)
    (fun i hi => by simpa [Nat.add_assoc] using hserved (chunkSize pageSize pos rem + i) (by omega))
  rw [heq]
  refine ⟨pos / pageSize :: pages, ?_,
    List.pairwise_cons.2 ⟨fun q hq => lt_of_rest hps ((hmem q).1 hq), hpair⟩, fun q => ?_⟩
  · -- The chunk holds the bytes of the first page, the rest those of the later ones.
    have hchunk : (List.range (chunkSize pageSize pos rem)).map (fun i => c.cachedByte pageSize (pos + i)) =
        (List.range (chunkSize pageSize pos rem)).map (fun j => f (pos % pageSize + j)) :=
      List.map_congr_left fun i hi => by
        obtain ⟨hd, hm⟩ := div_mod_of_lt_chunkSize hps hrem (List.mem_range.1 hi)
        rw [cachedByte, hd, hm, hf]
    rw [← hchunk, List.take_left' (by simp; omega)]
    conv_rhs => rw [← Nat.add_sub_cancel' hkr, List.range_add, List.map_append, List.map_map]
    simp only [Option.map_some', List.append_assoc, Function.comp_def, Nat.add_assoc]
  · rw [List.mem_cons, hmem]
    exact ⟨fun h => h.elim (fun hq => ⟨0, hrem, hq.symm⟩) (exists_of_rest hkr),
      eq_or_rest hps hrem⟩

end PageCache

/-! ## `read_bytes` -/

/-- The cache that holds the pages of the device `dev`, each frame with its page's bytes. -/
def PageCache.ofDevice (dev : Nat → UInt8) (pageSize : Nat) : PageCache :=
  ⟨fun p => some (fun k => dev (p * pageSize + k), false), fun p k => dev (p * pageSize + k)⟩

/-- A cache holds the pages of `dev`: it serves every page, with the device's bytes. -/
def PageCache.Holds (c : PageCache) (pageSize : Nat) (dev : Nat → UInt8) : Prop :=
  ∀ p, ∃ f, c.frame p = some f ∧ ∀ k < pageSize, f k = dev (p * pageSize + k)

theorem PageCache.holds_ofDevice (dev : Nat → UInt8) (pageSize : Nat) :
    (ofDevice dev pageSize).Holds pageSize dev :=
  fun _ => ⟨_, rfl, fun _ _ => rfl⟩

/-- `read_block` through a cache that holds the device's pages reads what `readBlock`, the
    view of the device the rest of the driver has, says, for every block size that divides
    `2^64`. -/
theorem PageCache.readBlock_eq {c : PageCache} {pageSize : Nat} {dev : Nat → UInt8}
    (hps : 0 < pageSize) (hc : c.Holds pageSize dev) {blockSize : Nat} (hdvd : blockSize ∣ 2 ^ 64)
    (blockNum : Nat) :
    c.readBlock pageSize blockNum blockSize = some (.ok (Ext4.readBlock dev blockNum blockSize)) := by
  -- The block lies below `2^64`: its offset and `2^64` are multiples of its size.
  have hend : blockNum * blockSize % 2 ^ 64 + blockSize ≤ 2 ^ 64 := by
    obtain ⟨u, hu⟩ := (Nat.dvd_mod_iff hdvd).2 (Dvd.intro_left blockNum rfl)
    obtain ⟨v, hv⟩ := hdvd
    have hlt : blockSize * u < blockSize * v := hu ▸ hv ▸ Nat.mod_lt _ (by positivity)
    have := Nat.mul_le_mul_left blockSize (Nat.lt_of_mul_lt_mul_left hlt)
    rw [Nat.mul_succ] at this
    omega
  obtain ⟨pages, heq, -, -⟩ := c.readBytesLoop_served hps blockSize hend
    (show 0 + blockSize = (List.replicate blockSize (0 : UInt8)).length by simp)
    fun i _ => by
      obtain ⟨f, hf, -⟩ := hc ((blockNum * blockSize % 2 ^ 64 + i) / pageSize)
      rw [hf]; exact Option.some_ne_none f
  rw [PageCache.readBlock, PageCache.readBytes, List.length_replicate, heq]
  simp only [List.take_zero, List.nil_append, Ext4.readBlock, Option.some.injEq, Except.ok.injEq]
  refine List.map_congr_left fun i hi => ?_
  -- Byte `i` of the block is the device's byte at `offset + i`, below `2^64`.
  have hi : i < blockSize := List.mem_range.1 hi
  obtain ⟨f, hf, hfk⟩ := hc ((blockNum * blockSize % 2 ^ 64 + i) / pageSize)
  rw [PageCache.cachedByte, hf]
  dsimp only
  rw [hfk _ (Nat.mod_lt _ hps), Nat.div_add_mod', Nat.add_mod,
    Nat.mod_eq_of_lt (show i < 2 ^ 64 by omega),
    Nat.mod_eq_of_lt (show blockNum * blockSize % 2 ^ 64 + i < 2 ^ 64 by omega)]

/-- So on a mounted image, whose block size divides `2^32`, every block reads so. -/
theorem PageCache.readBlock_eq_of_mounted {c : PageCache} {pageSize : Nat} {dev : Nat → UInt8}
    {sb : SbData} {gds : List GroupDesc} (hm : Mounted dev sb gds) (hps : 0 < pageSize)
    (hc : c.Holds pageSize dev) (blockNum : Nat) :
    c.readBlock pageSize blockNum sb.blockSize.toNat =
      some (.ok (Ext4.readBlock dev blockNum sb.blockSize.toNat)) :=
  c.readBlock_eq hps hc (hm.geometry.2.2.trans (pow_dvd_pow 2 (by norm_num))) blockNum

/-- Block `5` of `cleanImage`, through the cache of the device with 4096-byte pages. -/
theorem PageCache.readBlock_eq_of_mounted_cleanImage :
    Mounted cleanImage ⟨1024, 128, 16, 8192, 1, 64, 1⟩ [⟨5, 0⟩] ∧ 0 < 4096 ∧
      (ofDevice cleanImage 4096).Holds 4096 cleanImage ∧
      (ofDevice cleanImage 4096).readBlock 4096 5 (1024 : UInt32).toNat =
        some (.ok (Ext4.readBlock cleanImage 5 (1024 : UInt32).toNat)) :=
  ⟨mounted_cleanImage, by decide, holds_ofDevice _ _,
    readBlock_eq_of_mounted mounted_cleanImage (by decide) (holds_ofDevice _ _) 5⟩

end HkKernel.Ext4
