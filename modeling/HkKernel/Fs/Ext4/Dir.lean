import HkKernel.Fs.Ext4.Extent
import HkKernel.Fs.Ext4.Mount

/-!
# Directories

`Ext4InodeOps::lookup` and `Ext4FileOps::readdir` read a directory block by block, and each
block entry by entry: an 8-byte `Ext4DirEntry2` header read with `read_unaligned` at
`offset`, then the name, the slice `[offset + 8, offset + 8 + name_len)`, then on to
`offset + rec_len`. The loop (`scanBlock`) runs while `offset` is below the block's length
and breaks at an entry with inode `0` or `rec_len = 0`, so it ends; the two functions differ
only in what they do with an entry (`lookupVisit`, `readdirVisit`). The header read past the
block reads out of bounds, and the name slice past it panics; the model reports both as
`none`.

`readdir`'s callback is a `&mut dyn FnMut(VfsDirEntry) -> bool`: a closure with a captured
state that each call may change. It is a function of that state here, and `readdir` returns
the state the calls left with its result, on an error as well.

* `scanBlock_header_past_end`, `scanBlock_name_past_end`: an entry that starts less than 8
  bytes before the block's end, or whose name runs past it, is read past the block, not
  rejected;
* `scanBlock_reads_past_block`: two 1024-byte blocks whose second entry is of each kind;
* `readdir_ok_of_chained`: on a directory whose blocks are chained (`Chained`: each entry lies
  in the block until one ends the scan or the chain reaches the block's end), `readdir`
  returns `Ok` with every callback;
* `scanBlock_simulate`, `scanDir_simulate`: a scan whose visits always go on, and that
  completes, finds the directory's entries; every scan of the same blocks visits these, in
  this order, until its own visit stops it;
* `lookup_eq_first_readdir_entry`: so on a directory that `readdir` lists (with `listAll`, the
  callback that keeps every entry), `lookup` resolves a name to the first listed entry under
  it, and answers `NotFound` exactly when there is none;
* `readdir_calls_callback`: and `readdir` with any callback calls it on the listed entries in
  order, each call from the state the one before left, until the first that returns `false`.
-/

namespace HkKernel.Ext4

/-- The header of a directory entry (`Ext4DirEntry2`, 8 bytes); the name follows it. -/
structure DirEntry2 where
  inode : UInt32
  recLen : UInt16
  nameLen : UInt8
  fileType : UInt8
  deriving DecidableEq, Repr

def DirEntry2.decode (d : List UInt8) (o : Nat) : DirEntry2 :=
  ⟨u32At d o, u16At d (o + 4), UInt8.ofNat (field d (o + 6) 1), UInt8.ofNat (field d (o + 7) 1)⟩

/-- The entry ends the scan: `inode == 0 || rec_len == 0`. -/
def DirEntry2.Ends (e : DirEntry2) : Prop := e.inode = 0 ∨ e.recLen = 0

instance (e : DirEntry2) : Decidable e.Ends := inferInstanceAs (Decidable (_ ∨ _))

/-- The slice `&d[a..b]`; `none`, a panic, unless it lies in `d`. -/
def slice (d : List UInt8) (a b : Nat) : Option (List UInt8) :=
  if a ≤ b ∧ b ≤ d.length then some ((d.drop a).take (b - a)) else none

/-- The entry loop of `lookup` and `readdir` over the block `d` from `offset`, with the state
    `s`: `visit` gets each entry, its header and its name, and says whether to go on. The
    state after the loop, and whether the calling loop goes on with the next block; `none` on
    a read past the block or a panic. -/
def scanBlock {σ : Type} (visit : σ → DirEntry2 × List UInt8 → σ × Bool) (d : List UInt8)
    (s : σ) (offset : Nat) : Option (σ × Bool) :=
  if offset < d.length then
    match readUnaligned 8 DirEntry2.decode d offset with
    | none => none
    | some entry =>
      if hend : entry.Ends then some (s, true)
      else
        match slice d (offset + 8) (offset + 8 + entry.nameLen.toNat) with
        | none => none
        | some name =>
          match visit s (entry, name) with
          | (s', true) =>
            have : entry.recLen.toNat ≠ 0 := fun h => hend (.inr (UInt16.toNat.inj h))
            scanBlock visit d s' (offset + entry.recLen.toNat)
          | (s', false) => some (s', false)
  else some (s, true)
termination_by d.length - offset

/-- `ext4_file_type_to_vfs`. -/
inductive FileType
  | regular | directory | symlink | charDev | blockDev | fifo | socket
  deriving DecidableEq, Repr

/-- `ext4_file_type_to_vfs`: `EXT4_FT_*` to the VFS file type, `Regular` for an unknown one. -/
def ext4FileTypeToVfs (ft : UInt8) : FileType :=
  match ft with
  | 1 => .regular
  | 2 => .directory
  | 7 => .symlink
  | 3 => .charDev
  | 4 => .blockDev
  | 5 => .fifo
  | 6 => .socket
  | _ => .regular

/-- `VfsDirEntry`, what `readdir` hands its callback. -/
structure VfsDirEntry where
  ino : Nat
  fileType : FileType
  name : List UInt8
  deriving DecidableEq, Repr

/-- What `lookup` does with an entry (its header, then its name): stop at the one whose name
    is `name`, with its inode number. (`from_utf8` of the name equals a `&str` exactly when
    the bytes do.) -/
def lookupVisit (name : List UInt8) (found : Option UInt32) (entry : DirEntry2 × List UInt8) :
    Option UInt32 × Bool :=
  if entry.2 = name then (some entry.1.inode, false) else (found, true)

/-- The `VfsDirEntry` `readdir` builds from an entry's header and name. -/
def vfsEntry (entry : DirEntry2 × List UInt8) : VfsDirEntry :=
  ⟨entry.1.inode.toNat, ext4FileTypeToVfs entry.1.fileType, entry.2⟩

/-- What `readdir` does with an entry: call `callback`, the closure whose captured state is
    `st`, on the entry's `VfsDirEntry`, and stop when it returns `false`. -/
def readdirVisit {σ : Type} (callback : σ → VfsDirEntry → σ × Bool) (st : σ)
    (entry : DirEntry2 × List UInt8) : σ × Bool :=
  callback st (vfsEntry entry)

/-- The block loop of `lookup` and `readdir`: each of the logical blocks `bs` of the directory
    `dir` mapped through its extent tree, read, and scanned from offset `0`. The state after
    the loop, also when `extent_map_block` fails, and whether it went on to the end. -/
def scanDir {σ : Type} (dev : Nat → UInt8) (blockSize fuel : Nat) (dir : Inode)
    (visit : σ → DirEntry2 × List UInt8 → σ × Bool) :
    List Nat → σ → Option (σ × Except FsError Bool)
  | [], s => some (s, .ok true)
  | b :: bs, s =>
    match extentMapBlock dev blockSize fuel dir b with
    | none => none
    | some (.error e) => some (s, .error e)
    | some (.ok physBlock) =>
      match scanBlock visit (readBlock dev physBlock blockSize) s 0 with
      | none => none
      | some (s', true) => scanDir dev blockSize fuel dir visit bs s'
      | some (s', false) => some (s', .ok false)

/-- The number of blocks of a directory of `size` bytes: `(size + block_size - 1) /
    block_size` in `u64`. -/
def numBlocks (size blockSize : Nat) : Nat := (size + blockSize - 1) % 2 ^ 64 / blockSize

/-- `Ext4InodeOps::lookup` of `name` in the directory `dir`: the VFS inode of the first entry
    so named, or `NotFound`. -/
def lookup (dev : Nat → UInt8) (sb : SbData) (groupDescs : List GroupDesc) (fuel : Nat)
    (dir : Inode) (name : List UInt8) : Option (Except FsError (UInt32 × Inode)) :=
  let blockSize := sb.blockSize.toNat
  if blockSize = 0 then none
  else
    match scanDir dev blockSize fuel dir (lookupVisit name)
        (List.range (numBlocks dir.size blockSize)) none with
    | none => none
    | some (_, .error e) => some (.error e)
    | some (some ino, .ok _) => createVfsInode dev sb groupDescs ino
    | some (none, .ok _) => some (.error .notFound)

/-- `Ext4FileOps::readdir` of the directory `dir`, whose VFS mode says whether it is one
    (`isDir`), with the callback `callback` whose captured state is `st`: the state the
    callback's calls left, and the call's result. -/
def readdir {σ : Type} (dev : Nat → UInt8) (sb : SbData) (fuel : Nat) (dir : Inode)
    (isDir : Bool) (callback : σ → VfsDirEntry → σ × Bool) (st : σ) :
    Option (σ × Except FsError Unit) :=
  if !isDir then some (st, .error .notADirectory)
  else
    let blockSize := sb.blockSize.toNat
    if blockSize = 0 then none
    else
      (scanDir dev blockSize fuel dir (readdirVisit callback)
        (List.range (numBlocks dir.size blockSize)) st).map fun r => (r.1, r.2.map fun _ => ())

/-- The callback that keeps each entry it is handed and always goes on: after `readdir`, its
    state is the directory's listing. -/
def listAll (given : List VfsDirEntry) (e : VfsDirEntry) : List VfsDirEntry × Bool :=
  (given ++ [e], true)

/-! ## One step of the scan -/

section

variable {σ : Type} (visit : σ → DirEntry2 × List UInt8 → σ × Bool) {d : List UInt8}
  (s : σ) {offset : Nat}

theorem scanBlock_of_le (h : d.length ≤ offset) :
    scanBlock visit d s offset = some (s, true) := by
  rw [scanBlock, if_neg (by omega)]

/-- An entry that starts less than 8 bytes before the end is read past the block. -/
theorem scanBlock_header_past_end (h1 : offset < d.length) (h2 : d.length < offset + 8) :
    scanBlock visit d s offset = none := by
  rw [scanBlock, if_pos h1, readUnaligned, if_neg (by omega)]

theorem scanBlock_of_ends (h : offset + 8 ≤ d.length) (hend : (DirEntry2.decode d offset).Ends) :
    scanBlock visit d s offset = some (s, true) := by
  rw [scanBlock, if_pos (by omega), readUnaligned_of_le _ h]
  exact dif_pos hend

/-- An entry whose name runs past the end of the block panics. -/
theorem scanBlock_name_past_end (h : offset + 8 ≤ d.length)
    (hend : ¬(DirEntry2.decode d offset).Ends)
    (hname : d.length < offset + 8 + (DirEntry2.decode d offset).nameLen.toNat) :
    scanBlock visit d s offset = none := by
  rw [scanBlock, if_pos (by omega), readUnaligned_of_le _ h]
  simp only [dif_neg hend, slice]
  rw [if_neg (by omega)]

/-- An entry inside the block, whose visit says to go on, passes to the next entry. -/
theorem scanBlock_next (h : offset + 8 ≤ d.length) (hend : ¬(DirEntry2.decode d offset).Ends)
    (hname : offset + 8 + (DirEntry2.decode d offset).nameLen.toNat ≤ d.length) {s' : σ}
    (hv : visit s (DirEntry2.decode d offset,
      (d.drop (offset + 8)).take (DirEntry2.decode d offset).nameLen.toNat) = (s', true)) :
    scanBlock visit d s offset =
      scanBlock visit d s' (offset + (DirEntry2.decode d offset).recLen.toNat) := by
  rw [scanBlock, if_pos (by omega), readUnaligned_of_le _ h]
  simp only [dif_neg hend, slice]
  rw [if_pos ⟨by omega, hname⟩]
  simp only [Nat.add_sub_cancel_left, hv]

/-- An entry inside the block, whose visit says to stop, stops the scan. -/
theorem scanBlock_stop (h : offset + 8 ≤ d.length) (hend : ¬(DirEntry2.decode d offset).Ends)
    (hname : offset + 8 + (DirEntry2.decode d offset).nameLen.toNat ≤ d.length) {s' : σ}
    (hv : visit s (DirEntry2.decode d offset,
      (d.drop (offset + 8)).take (DirEntry2.decode d offset).nameLen.toNat) = (s', false)) :
    scanBlock visit d s offset = some (s', false) := by
  rw [scanBlock, if_pos (by omega), readUnaligned_of_le _ h]
  simp only [dif_neg hend, slice]
  rw [if_pos ⟨by omega, hname⟩]
  simp only [Nat.add_sub_cancel_left, hv]

end

/-- From `offset` on, the entries of `d` lie in it, header and name, until one ends the scan
    or the next offset reaches the block's end. -/
inductive Chained (d : List UInt8) : Nat → Prop
  | done {offset : Nat} : d.length ≤ offset → Chained d offset
  | stop {offset : Nat} : offset + 8 ≤ d.length → (DirEntry2.decode d offset).Ends →
      Chained d offset
  | next {offset : Nat} : offset + 8 ≤ d.length → ¬(DirEntry2.decode d offset).Ends →
      offset + 8 + (DirEntry2.decode d offset).nameLen.toNat ≤ d.length →
      Chained d (offset + (DirEntry2.decode d offset).recLen.toNat) → Chained d offset

/-- A chained block is scanned without a read past it, whatever is done with its entries. -/
theorem Chained.scanBlock_ne_none {d : List UInt8} {offset : Nat} (h : Chained d offset)
    {σ : Type} (visit : σ → DirEntry2 × List UInt8 → σ × Bool) (s : σ) :
    scanBlock visit d s offset ≠ none := by
  induction h generalizing s with
  | done hle => rw [scanBlock_of_le visit s hle]; simp
  | stop h hend => rw [scanBlock_of_ends visit s h hend]; simp
  | next h hend hname _ ih =>
    cases hv : visit s (_, (d.drop (_ + 8)).take (DirEntry2.decode d _).nameLen.toNat) with
    | mk s' cont =>
      cases cont
      · rw [scanBlock_stop visit s h hend hname hv]; simp
      · rw [scanBlock_next visit s h hend hname hv]; exact ih s'

/-- A block that maps, and whose scan goes on, passes the loop to the next block. -/
theorem scanDir_cons_of_ok {σ : Type} {visit : σ → DirEntry2 × List UInt8 → σ × Bool}
    {dev : Nat → UInt8} {bs fuel : Nat} {dir : Inode} {b phys : Nat} {blocks : List Nat}
    {s s' : σ} (hmap : extentMapBlock dev bs fuel dir b = some (.ok phys))
    (hb : scanBlock visit (readBlock dev phys bs) s 0 = some (s', true)) :
    scanDir dev bs fuel dir visit (b :: blocks) s = scanDir dev bs fuel dir visit blocks s' := by
  rw [scanDir, hmap]; simp only [hb]

/-- A block loop over blocks that all map to chained blocks completes, whatever is done with
    the entries. -/
theorem scanDir_ok_of_chained {σ : Type} {visit : σ → DirEntry2 × List UInt8 → σ × Bool}
    {dev : Nat → UInt8} {bs fuel : Nat} {dir : Inode} :
    ∀ {blocks : List Nat}, (∀ b ∈ blocks, ∃ phys, extentMapBlock dev bs fuel dir b =
      some (.ok phys) ∧ Chained (readBlock dev phys bs) 0) →
      ∀ s : σ, ∃ s' c, scanDir dev bs fuel dir visit blocks s = some (s', .ok c)
  | [], _, s => ⟨s, true, rfl⟩
  | b :: blocks, h, s => by
    obtain ⟨phys, hmap, hch⟩ := h b (.head _)
    obtain ⟨⟨s1, c1⟩, hb⟩ := Option.ne_none_iff_exists'.1 (hch.scanBlock_ne_none visit s)
    cases c1
    · exact ⟨s1, false, by rw [scanDir, hmap]; simp only [hb]⟩
    · rw [scanDir_cons_of_ok hmap hb]
      exact scanDir_ok_of_chained (fun b' hb' => h b' (.tail _ hb')) s1

theorem readdir_of_ne_zero {σ : Type} {dev : Nat → UInt8} {sb : SbData} {fuel : Nat}
    {dir : Inode} (callback : σ → VfsDirEntry → σ × Bool) (st : σ)
    (hbs : sb.blockSize.toNat ≠ 0) :
    readdir dev sb fuel dir true callback st =
      (scanDir dev sb.blockSize.toNat fuel dir (readdirVisit callback)
        (List.range (numBlocks dir.size sb.blockSize.toNat)) st).map
        fun r => (r.1, r.2.map fun _ => ()) := by
  simp only [readdir, Bool.not_true, Bool.false_eq_true, if_false, if_neg hbs]

/-- On a directory whose blocks all map to chained blocks, `readdir` returns `Ok`, whatever
    its callback: it reads nothing past a block. -/
theorem readdir_ok_of_chained {σ : Type} {dev : Nat → UInt8} {sb : SbData} {fuel : Nat}
    {dir : Inode} (hbs : sb.blockSize.toNat ≠ 0)
    (hblocks : ∀ b < numBlocks dir.size sb.blockSize.toNat, ∃ phys,
      extentMapBlock dev sb.blockSize.toNat fuel dir b = some (.ok phys) ∧
        Chained (readBlock dev phys sb.blockSize.toNat) 0)
    (callback : σ → VfsDirEntry → σ × Bool) (st : σ) :
    ∃ st', readdir dev sb fuel dir true callback st = some (st', .ok ()) := by
  obtain ⟨s', c, h⟩ := scanDir_ok_of_chained (fun b hb => hblocks b (List.mem_range.1 hb)) st
  exact ⟨s', by rw [readdir_of_ne_zero _ _ hbs, h]; rfl⟩

/-! ## `lookup` and `readdir` visit the same entries -/

/-- The visits of the entries `rs` in order, each from the state the one before left, until
    one says to stop: the state after them, and whether to go on. -/
def visitAll {σ α : Type} (visit : σ → α → σ × Bool) : σ → List α → σ × Bool
  | s, [] => (s, true)
  | s, r :: rs =>
    match visit s r with
    | (s', true) => visitAll visit s' rs
    | (s', false) => (s', false)

section

variable {σ α : Type} (visit : σ → α → σ × Bool)

theorem visitAll_append (s : σ) (rs rs' : List α) :
    visitAll visit s (rs ++ rs') =
      match visitAll visit s rs with
      | (s', true) => visitAll visit s' rs'
      | (s', false) => (s', false) := by
  induction rs generalizing s with
  | nil => rfl
  | cons r rs ih =>
    simp only [List.cons_append, visitAll]
    rcases visit s r with ⟨s', _ | _⟩
    · rfl
    · exact ih s'

/-- Visits that always go on visit every entry. -/
theorem visitAll_snd {visit : σ → α → σ × Bool} (hv : ∀ s r, (visit s r).2 = true) (s : σ)
    (rs : List α) : (visitAll visit s rs).2 = true := by
  induction rs generalizing s with
  | nil => rfl
  | cons r rs ih =>
    rcases h : visit s r with ⟨s', c⟩
    cases (show c = true by simpa only [h] using hv s r)
    simp only [visitAll, h, ih]

end

/-- A scan whose visits always go on, and that reads nothing past the block, finds a list of
    entries `rs`; every scan of the block, whatever it does with the entries, visits these in
    this order, and stops only where its own visits say so. -/
theorem scanBlock_simulate {σ : Type} {v : σ → DirEntry2 × List UInt8 → σ × Bool}
    (hv : ∀ s r, (v s r).2 = true) {d : List UInt8} {offset : Nat} {s : σ} {r : σ × Bool}
    (h : scanBlock v d s offset = some r) :
    ∃ rs, r = visitAll v s rs ∧ ∀ {τ : Type} (w : τ → DirEntry2 × List UInt8 → τ × Bool)
      (t : τ), scanBlock w d t offset = some (visitAll w t rs) := by
  by_cases hlt : offset < d.length
  swap
  · rw [scanBlock_of_le v s (by omega)] at h
    exact ⟨[], (Option.some.inj h).symm, fun w t => scanBlock_of_le w t (by omega)⟩
  by_cases h8 : offset + 8 ≤ d.length
  swap
  · rw [scanBlock_header_past_end v s hlt (by omega)] at h; cases h
  by_cases hend : (DirEntry2.decode d offset).Ends
  · rw [scanBlock_of_ends v s h8 hend] at h
    exact ⟨[], (Option.some.inj h).symm, fun w t => scanBlock_of_ends w t h8 hend⟩
  by_cases hname : offset + 8 + (DirEntry2.decode d offset).nameLen.toNat ≤ d.length
  swap
  · rw [scanBlock_name_past_end v s h8 hend (by omega)] at h; cases h
  -- The entry at `offset` is read and visited, and both scans go on from the same next offset.
  have hrec : (DirEntry2.decode d offset).recLen.toNat ≠ 0 :=
    fun h0 => hend (.inr (UInt16.toNat.inj h0))
  set e := DirEntry2.decode d offset
  set n := (d.drop (offset + 8)).take e.nameLen.toNat
  obtain ⟨s', hs'⟩ : ∃ s', v s (e, n) = (s', true) := ⟨_, Prod.ext rfl (hv _ _)⟩
  rw [scanBlock_next v s h8 hend hname hs'] at h
  obtain ⟨rs, rfl, hw⟩ := scanBlock_simulate hv h
  refine ⟨(e, n) :: rs, by simp only [visitAll, hs'], fun w t => ?_⟩
  rcases hwt : w t (e, n) with ⟨t', c⟩
  cases c
  · rw [scanBlock_stop w t h8 hend hname hwt]; simp only [visitAll, hwt]
  · rw [scanBlock_next w t h8 hend hname hwt, hw]; simp only [visitAll, hwt]
termination_by d.length - offset

/-- So over a directory: a block loop whose visits always go on and that completes finds the
    entries `rs`, and every block loop over the same blocks visits these in this order. -/
theorem scanDir_simulate {σ : Type} {v : σ → DirEntry2 × List UInt8 → σ × Bool}
    (hv : ∀ s r, (v s r).2 = true) (dev : Nat → UInt8) (blockSize fuel : Nat) (dir : Inode) :
    ∀ {blocks : List Nat} {s s' : σ} {c : Bool},
      scanDir dev blockSize fuel dir v blocks s = some (s', .ok c) →
      ∃ rs, (s', c) = visitAll v s rs ∧
        ∀ {τ : Type} (w : τ → DirEntry2 × List UInt8 → τ × Bool) (t : τ),
          scanDir dev blockSize fuel dir w blocks t =
            some ((visitAll w t rs).1, .ok (visitAll w t rs).2)
  | [], s, s', c, h => by
    cases h
    exact ⟨[], rfl, fun _ _ => rfl⟩
  | b :: blocks, s, s', c, h => by
    unfold scanDir at h
    obtain ⟨phys, hmap⟩ : ∃ phys, extentMapBlock dev blockSize fuel dir b = some (.ok phys) := by
      rcases hm : extentMapBlock dev blockSize fuel dir b with _ | _ | phys
      · rw [hm] at h; cases h
      · rw [hm] at h; cases h
      · exact ⟨phys, rfl⟩
    simp only [hmap] at h
    obtain ⟨s1, c1, hb⟩ :
        ∃ s1 c1, scanBlock v (readBlock dev phys blockSize) s 0 = some (s1, c1) := by
      rcases hb : scanBlock v (readBlock dev phys blockSize) s 0 with _ | ⟨s1, c1⟩
      · rw [hb] at h; cases h
      · exact ⟨s1, c1, rfl⟩
    obtain ⟨rs1, hr1, hw1⟩ := scanBlock_simulate hv hb
    -- A block loop whose visits always go on goes on to the next block.
    have hc1 : c1 = true := by simpa only [← hr1] using visitAll_snd hv s rs1
    subst hc1
    simp only [hb] at h
    obtain ⟨rs2, hr2, hw2⟩ := scanDir_simulate hv dev blockSize fuel dir h
    refine ⟨rs1 ++ rs2, by rw [visitAll_append, ← hr1, hr2], fun w t => ?_⟩
    unfold scanDir
    simp only [hmap, hw1, visitAll_append]
    obtain ⟨t1, c⟩ := visitAll w t rs1
    cases c
    · rfl
    · exact hw2 w t1

/-- `readdir`'s visits call the callback on the entries' `VfsDirEntry`s. -/
theorem visitAll_readdirVisit {σ : Type} (callback : σ → VfsDirEntry → σ × Bool) (st : σ)
    (rs : List (DirEntry2 × List UInt8)) :
    visitAll (readdirVisit callback) st rs = visitAll callback st (rs.map vfsEntry) := by
  induction rs generalizing st with
  | nil => rfl
  | cons r rs ih => simp only [visitAll, readdirVisit, List.map_cons, ih]

theorem visitAll_listAll (given es : List VfsDirEntry) :
    visitAll listAll given es = (given ++ es, true) := by
  induction es generalizing given with
  | nil => simp [visitAll]
  | cons e es ih => simp [visitAll, listAll, ih]

theorem visitAll_lookupVisit (name : List UInt8) (rs : List (DirEntry2 × List UInt8)) :
    visitAll (lookupVisit name) none rs =
      match rs.find? fun r => decide (r.2 = name) with
      | some r => (some r.1.inode, false)
      | none => (none, true) := by
  induction rs with
  | nil => rfl
  | cons r rs ih =>
    by_cases hn : r.2 = name
    · simp only [visitAll, lookupVisit, hn, if_true, List.find?_cons, decide_True]
    · simp only [visitAll, lookupVisit, hn, if_false, List.find?_cons, decide_False, ih]

/-- On a directory that `readdir` lists without an error, its block loop finds the listed
    entries, and any other loop over its blocks visits them in order. -/
theorem readdir_listing {dev : Nat → UInt8} {sb : SbData} {fuel : Nat} {dir : Inode}
    {es : List VfsDirEntry} (h : readdir dev sb fuel dir true listAll [] = some (es, .ok ())) :
    sb.blockSize.toNat ≠ 0 ∧ ∃ rs : List (DirEntry2 × List UInt8), es = rs.map vfsEntry ∧
      ∀ {τ : Type} (w : τ → DirEntry2 × List UInt8 → τ × Bool) (t : τ),
        scanDir dev sb.blockSize.toNat fuel dir w
          (List.range (numBlocks dir.size sb.blockSize.toNat)) t =
          some ((visitAll w t rs).1, .ok (visitAll w t rs).2) := by
  have hbs : sb.blockSize.toNat ≠ 0 := fun h0 => by simp [readdir, h0] at h
  rw [readdir_of_ne_zero _ _ hbs, Option.map_eq_some'] at h
  obtain ⟨⟨s', _ | c⟩, hscan, hr⟩ := h
  · cases hr
  · obtain ⟨rs, hrs, hw⟩ := scanDir_simulate (fun _ _ => rfl) dev _ fuel dir hscan
    rw [visitAll_readdirVisit, visitAll_listAll, List.nil_append] at hrs
    exact ⟨hbs, rs, (congrArg Prod.fst hr).symm.trans (congrArg Prod.fst hrs), hw⟩

/-- `read_inode`, and so `create_vfs_inode`, never answers `NotFound`. -/
theorem createVfsInode_ne_notFound (dev : Nat → UInt8) (sb : SbData) (gds : List GroupDesc)
    (ino : UInt32) : createVfsInode dev sb gds ino ≠ some (.error .notFound) := by
  unfold createVfsInode readInode readUnaligned
  dsimp only
  split_ifs <;> (try split) <;> (try split_ifs) <;> simp [Except.map]

/-- On a directory that `readdir` lists without an error, `lookup` of a name resolves to the
    inode of the first listed entry under that name, and answers `NotFound` exactly when
    there is none. -/
theorem lookup_eq_first_readdir_entry {dev : Nat → UInt8} {sb : SbData} {fuel : Nat}
    {dir : Inode} {es : List VfsDirEntry}
    (h : readdir dev sb fuel dir true listAll [] = some (es, .ok ())) (gds : List GroupDesc)
    (name : List UInt8) :
    lookup dev sb gds fuel dir name =
        (match es.find? fun e => decide (e.name = name) with
        | some e => createVfsInode dev sb gds (UInt32.ofNat e.ino)
        | none => some (.error .notFound)) ∧
      (lookup dev sb gds fuel dir name = some (.error .notFound) ↔ ∀ e ∈ es, e.name ≠ name) := by
  -- `readdir`'s block loop finds the entries `rs`, whose VFS entries are `es`; `lookup`'s
  -- block loop visits the same entries, and stops at the first named `name`.
  obtain ⟨hbs, rs, rfl, hw⟩ := readdir_listing h
  have hfind : (rs.map vfsEntry).find? (fun e => decide (e.name = name)) =
      (rs.find? fun r => decide (r.2 = name)).map vfsEntry := by
    rw [List.find?_map]; rfl
  have hlookup : lookup dev sb gds fuel dir name =
      match (rs.map vfsEntry).find? fun e => decide (e.name = name) with
      | some e => createVfsInode dev sb gds (UInt32.ofNat e.ino)
      | none => some (.error .notFound) := by
    simp only [lookup, if_neg hbs, hw, visitAll_lookupVisit, hfind]
    cases rs.find? fun r => decide (r.2 = name) with
    | none => rfl
    | some r => simp only [Option.map_some', vfsEntry, U32.ofNat_toNat]
  refine ⟨hlookup, ?_⟩
  rw [hlookup]
  cases hf : (rs.map vfsEntry).find? fun e => decide (e.name = name) with
  | none => simpa using List.find?_eq_none.1 hf
  | some e =>
    refine iff_of_false (createVfsInode_ne_notFound dev sb gds _) fun hne => ?_
    exact hne e (List.mem_of_find?_eq_some hf) (by simpa using List.find?_some hf)

/-- On a directory that `readdir` lists without an error, `readdir` with any callback calls it
    on the listed entries in order, each call from the state the one before left, until the
    first that returns `false`, and returns `Ok` with the state the last call left. -/
theorem readdir_calls_callback {σ : Type} {dev : Nat → UInt8} {sb : SbData} {fuel : Nat}
    {dir : Inode} {es : List VfsDirEntry}
    (h : readdir dev sb fuel dir true listAll [] = some (es, .ok ()))
    (callback : σ → VfsDirEntry → σ × Bool) (st : σ) :
    readdir dev sb fuel dir true callback st = some ((visitAll callback st es).1, .ok ()) := by
  obtain ⟨hbs, rs, rfl, hw⟩ := readdir_listing h
  rw [readdir_of_ne_zero _ _ hbs, hw, visitAll_readdirVisit]
  rfl

/-! ## A directory of two entries -/

/-- A directory of one 1024-byte block, mapped by a leaf extent to block `30`. -/
def smallDir : Inode where
  iSizeLo := 1024
  iFlags := extentsFl
  iBlock := [0x0A, 0xF3, 1, 0, 4, 0, 0, 0, 0, 0, 0, 0, 0, 0, 0, 0, 1, 0, 0, 0, 30, 0, 0, 0] ++
    List.replicate 36 0
  iSizeHigh := 0

/-- Block `30` holds the entries `a` (inode `11`) and `b` (inode `12`), the second running to
    the block's end. -/
def smallDirImage : Nat → UInt8 :=
  imageOf [(30720, 4, 11), (30724, 2, 12), (30726, 1, 1), (30727, 1, 1), (30728, 1, 0x61),
    (30732, 4, 12), (30736, 2, 1012), (30738, 1, 1), (30739, 1, 1), (30740, 1, 0x62)]

set_option maxRecDepth 10000 in
/-- `readdir` lists `smallDir`: block `30` is scanned entry by entry to its end. -/
theorem readdir_smallDir :
    readdir smallDirImage ⟨1024, 128, 16, 8192, 1, 64, 1⟩ 1 smallDir true listAll [] =
      some ([⟨11, .regular, [0x61]⟩, ⟨12, .regular, [0x62]⟩], .ok ()) := by
  have hblock : scanBlock (readdirVisit listAll) (readBlock smallDirImage 30 1024) [] 0 =
      some ([⟨11, .regular, [0x61]⟩, ⟨12, .regular, [0x62]⟩], true) := by
    rw [scanBlock_next _ _ (by decide) (by decide) (by decide) rfl,
      scanBlock_next _ _ (by decide) (by decide) (by decide) rfl,
      scanBlock_of_le _ _ (by decide)]
    rfl
  rw [readdir_of_ne_zero _ _ (by decide)]
  show Option.map _ (scanDir smallDirImage 1024 1 smallDir _ [0] []) = _
  rw [scanDir_cons_of_ok (rfl : extentMapBlock smallDirImage 1024 1 smallDir 0 = some (.ok 30))
    hblock]
  rfl

/-- `lookup` then resolves each name of `smallDir` as the theorem says. -/
theorem lookup_eq_first_readdir_entry_smallDir :
    readdir smallDirImage ⟨1024, 128, 16, 8192, 1, 64, 1⟩ 1 smallDir true listAll [] =
        some ([⟨11, .regular, [0x61]⟩, ⟨12, .regular, [0x62]⟩], .ok ()) ∧
      (lookup smallDirImage ⟨1024, 128, 16, 8192, 1, 64, 1⟩ [⟨5, 0⟩] 1 smallDir [0x62] =
        (match [(⟨11, .regular, [0x61]⟩ : VfsDirEntry), ⟨12, .regular, [0x62]⟩].find?
            fun e => decide (e.name = [0x62]) with
        | some e => createVfsInode smallDirImage ⟨1024, 128, 16, 8192, 1, 64, 1⟩ [⟨5, 0⟩]
            (UInt32.ofNat e.ino)
        | none => some (.error .notFound)) ∧
      (lookup smallDirImage ⟨1024, 128, 16, 8192, 1, 64, 1⟩ [⟨5, 0⟩] 1 smallDir [0x62] =
          some (.error .notFound) ↔
        ∀ e ∈ [(⟨11, .regular, [0x61]⟩ : VfsDirEntry), ⟨12, .regular, [0x62]⟩],
          e.name ≠ [0x62])) :=
  ⟨readdir_smallDir, lookup_eq_first_readdir_entry readdir_smallDir [⟨5, 0⟩] [0x62]⟩

/-- A callback that goes on at its first call only: its state, the entries it was handed, is
    empty then. -/
def firstOnly (given : List VfsDirEntry) (e : VfsDirEntry) : List VfsDirEntry × Bool :=
  (given ++ [e], given.isEmpty)

/-- On `smallDir`, `firstOnly` is handed `a`, goes on, is handed `b`, and stops. -/
theorem readdir_calls_callback_firstOnly :
    readdir smallDirImage ⟨1024, 128, 16, 8192, 1, 64, 1⟩ 1 smallDir true listAll [] =
        some ([⟨11, .regular, [0x61]⟩, ⟨12, .regular, [0x62]⟩], .ok ()) ∧
      readdir smallDirImage ⟨1024, 128, 16, 8192, 1, 64, 1⟩ 1 smallDir true firstOnly [] =
        some ((visitAll firstOnly [] [⟨11, .regular, [0x61]⟩, ⟨12, .regular, [0x62]⟩]).1,
          .ok ()) :=
  ⟨readdir_smallDir, readdir_calls_callback readdir_smallDir firstOnly []⟩

example :
    visitAll firstOnly [] [⟨11, .regular, [0x61]⟩, ⟨12, .regular, [0x62]⟩, ⟨13, .regular, [0x63]⟩] =
      ([⟨11, .regular, [0x61]⟩, ⟨12, .regular, [0x62]⟩], false) := rfl

set_option maxRecDepth 10000 in
/-- The block of `smallDir` is chained: `a`, then `b`, which runs to the block's end. -/
theorem chained_smallDir : Chained (readBlock smallDirImage 30 1024) 0 :=
  .next (by decide) (by decide) (by decide)
    (.next (by decide) (by decide) (by decide) (.done (by decide)))

/-- So `readdir` of `smallDir` returns `Ok`, here with `firstOnly`. -/
theorem readdir_ok_of_chained_smallDir :
    (1024 : UInt32).toNat ≠ 0 ∧
      (∀ b < numBlocks smallDir.size (1024 : UInt32).toNat, ∃ phys,
        extentMapBlock smallDirImage (1024 : UInt32).toNat 1 smallDir b = some (.ok phys) ∧
          Chained (readBlock smallDirImage phys (1024 : UInt32).toNat) 0) ∧
      ∃ st', readdir smallDirImage ⟨1024, 128, 16, 8192, 1, 64, 1⟩ 1 smallDir true firstOnly [] =
        some (st', .ok ()) :=
  have hblocks : ∀ b < numBlocks smallDir.size (1024 : UInt32).toNat, ∃ phys,
      extentMapBlock smallDirImage (1024 : UInt32).toNat 1 smallDir b = some (.ok phys) ∧
        Chained (readBlock smallDirImage phys (1024 : UInt32).toNat) 0 := fun b hb => by
    obtain rfl : b = 0 := by
      have : numBlocks smallDir.size (1024 : UInt32).toNat = 1 := rfl
      omega
    exact ⟨30, rfl, chained_smallDir⟩
  ⟨by decide, hblocks, @readdir_ok_of_chained _ smallDirImage ⟨1024, 128, 16, 8192, 1, 64, 1⟩ 1
    smallDir (by decide) hblocks firstOnly []⟩

/-! ## Reads past a block -/

/-- A block whose first entry (inode `11`, name `a`) has `rec_len = 1020`: the second starts
    4 bytes before the end. -/
def headerPastEnd : List UInt8 := [11, 0, 0, 0, 0xFC, 0x03, 1, 1, 0x61] ++ List.replicate 1015 0

/-- A block whose first entry (inode `11`, name `a`) has `rec_len = 1016`, and whose second
    (inode `12`) fills its last 8 bytes with a header that gives its name 10 bytes. -/
def namePastEnd : List UInt8 :=
  [11, 0, 0, 0, 0xF8, 0x03, 1, 1, 0x61] ++ List.replicate 1007 0 ++ [12, 0, 0, 0, 8, 0, 10, 1]

set_option maxRecDepth 10000 in
/-- In both blocks the first entry is read and passed; the scans of `lookup` (for the name
    `b`) and of `readdir` (with a callback that always goes on) then read the second entry's
    header at offset `1020`, past the 1024 bytes of the first block, and slice the second
    entry's name up to offset `1034`, past the end of the second. -/
theorem scanBlock_reads_past_block :
    headerPastEnd.length = 1024 ∧ DirEntry2.decode headerPastEnd 0 = ⟨11, 1020, 1, 1⟩ ∧
      scanBlock (lookupVisit [0x62]) headerPastEnd none 0 = none ∧
      scanBlock (readdirVisit listAll) headerPastEnd [] 0 = none ∧
      namePastEnd.length = 1024 ∧ DirEntry2.decode namePastEnd 1016 = ⟨12, 8, 10, 1⟩ ∧
      scanBlock (lookupVisit [0x62]) namePastEnd none 0 = none ∧
      scanBlock (readdirVisit listAll) namePastEnd [] 0 = none := by
  -- Each scan takes the first entry and moves on; what it reads next is past the block.
  refine ⟨rfl, by decide, ?_, ?_, rfl, by decide, ?_, ?_⟩ <;>
    rw [scanBlock_next _ _ (by decide) (by decide) (by decide) rfl]
  iterate 2 exact scanBlock_header_past_end _ _ (by decide) (by decide)
  iterate 2 exact scanBlock_name_past_end _ _ (by decide) (by decide) (by decide)

end HkKernel.Ext4
