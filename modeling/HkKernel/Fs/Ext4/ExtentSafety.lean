import HkKernel.Fs.Ext4.Extent
import HkKernel.Fs.Ext4.Mount

/-!
# Where the extent search reads, and whether it ends

`extent_tree_search` trusts the node it is given: it checks the magic number and nothing else.
It reads as many entries as `eh_entries` says, whatever the node's length, and it descends into
the child an index names, whatever that child's depth. On a well-formed tree neither matters
(`Node.extentTreeSearch_eq`); on others:

* `searchLeaf_past_end`: a leaf that claims more entries than it holds, and has no extent for
  the block among those it holds, is read past its end;
* `extentTreeSearch_reads_past_root`: so is an `i_block` whose header claims five entries where
  sixty bytes hold four, on every device;
* `extentTreeSearch_one_index`: an index node with one index hands the search to its child,
  one nested call for one level, whatever depth the child claims;
* `extentTreeSearch_self_loop`: on an image that mounts, a block whose one index points to
  itself makes the search call itself forever: no amount of fuel gives a result.
-/

namespace HkKernel.Ext4

/-! ## Reading past a node -/

/-- From entry `k` on, `m` more entries of which the last runs past the end of the leaf `d`,
    and none inside it covering `l`: the scan reads past the end. -/
theorem searchLeaf_range'_past_end {d : List UInt8} {l : Nat}
    (hnc : ∀ i, 12 + i * 12 + 12 ≤ d.length → ¬(Extent.decode d (12 + i * 12)).Covers l) :
    ∀ {m k : Nat}, 12 + k * 12 ≤ d.length → d.length < 12 + (k + m) * 12 →
      searchLeaf d l (List.range' k m) = none
  | 0, k, hk, hn => absurd hk (by omega)
  | m + 1, k, _, hn => by
    rw [List.range'_succ, searchLeaf]
    by_cases hin : 12 + k * 12 + 12 ≤ d.length
    · simp only [readUnaligned_of_le _ hin, Option.bind_eq_bind, Option.some_bind,
        if_neg (hnc k hin)]
      exact searchLeaf_range'_past_end hnc (by omega) (by omega)
    · simp only [readUnaligned, if_neg hin, Option.bind_eq_bind, Option.none_bind]

/-- A leaf that claims more entries than it holds, and has no extent for `l` among those it
    holds, is read past its end. -/
theorem searchLeaf_past_end {d : List UInt8} {l n : Nat} (h12 : 12 ≤ d.length)
    (hn : d.length < 12 + n * 12)
    (hnc : ∀ i, 12 + i * 12 + 12 ≤ d.length → ¬(Extent.decode d (12 + i * 12)).Covers l) :
    searchLeaf d l (List.range n) = none := by
  rw [List.range_eq_range']
  exact searchLeaf_range'_past_end hnc (by omega) (by omega)

/-- An `i_block` with the magic number, depth `0` and `eh_entries = 5`, and four empty
    extents: five entries claimed where sixty bytes hold four. -/
def wideRoot : List UInt8 := [0x0A, 0xF3, 5, 0, 4, 0, 0, 0, 0, 0, 0, 0] ++ List.replicate 48 0

/-- On every device, with every block size and fuel, the search from `wideRoot` reads its fifth
    extent at offset `60`, past the sixty bytes of `i_block`, where the model stops with
    `none`; the node is not rejected with an error. -/
theorem extentTreeSearch_reads_past_root :
    wideRoot.length = 60 ∧ (ExtentHeader.decode wideRoot 0).ehMagic = extMagic ∧
      (ExtentHeader.decode wideRoot 0).ehEntries = 5 ∧
      readUnaligned 12 Extent.decode wideRoot (12 + 4 * 12) = none ∧
      ∀ dev bs fuel, extentTreeSearch dev bs (fuel + 1) wideRoot 0 = none := by
  refine ⟨rfl, rfl, rfl, rfl, fun dev bs fuel => ?_⟩
  have hhd : readUnaligned 12 ExtentHeader.decode wideRoot 0 = some ⟨extMagic, 5, 0⟩ := rfl
  simp only [extentTreeSearch, hhd, Option.bind_eq_bind, Option.some_bind, ne_eq,
    not_true_eq_false, if_false, if_true]
  exact searchLeaf_past_end (by decide) (by decide) fun i hi => by
    have hi' : i < 4 := by simp only [wideRoot] at hi; simp at hi; omega
    -- The four extents inside are empty.
    interval_cases i <;> decide

/-! ## Descending without end -/

/-- An index node with one index, whose range holds `l`, hands the search to its child: one
    nested call for one level, whatever the child's depth. -/
theorem extentTreeSearch_one_index (dev : Nat → UInt8) (bs : Nat) {d : List UInt8} {l : Nat}
    (hlen : 24 ≤ d.length) (hmagic : (ExtentHeader.decode d 0).ehMagic = extMagic)
    (hdepth : (ExtentHeader.decode d 0).ehDepth ≠ 0) (hn : entries d = 1) (hkey : key d 0 ≤ l)
    (hl : l < u64Max) (fuel : Nat) :
    extentTreeSearch dev bs (fuel + 1) d l =
      extentTreeSearch dev bs fuel (readBlock dev (child d 0) bs) l := by
  have hn' : (ExtentHeader.decode d 0).ehEntries.toNat = 1 := hn
  simp only [extentTreeSearch, readUnaligned_of_le _ (show 0 + 12 ≤ d.length by omega),
    Option.bind_eq_bind, Option.some_bind, hmagic, hdepth, ne_eq, not_true_eq_false, if_false,
    hn', show List.range 1 = [0] from rfl]
  rw [searchIndex_cons _ _ (by omega) Nat.one_pos, if_pos ⟨hkey, by simpa using hl⟩]

/-- The root of a file whose one index points to block `20`, where `cleanImage` holds an index
    node whose one index points to block `20` again. -/
def cycleInode : Inode where
  iSizeLo := 1024
  iFlags := extentsFl
  iBlock := [0x0A, 0xF3, 1, 0, 4, 0, 1, 0, 0, 0, 0, 0, 0, 0, 0, 0, 20, 0, 0, 0] ++
    List.replicate 40 0
  iSizeHigh := 0

set_option maxRecDepth 10000 in
/-- The node in block `20` of `cleanImage` hands the search for block `0` to itself. -/
theorem search_block20_step (fuel : Nat) :
    extentTreeSearch cleanImage 1024 (fuel + 1) (readBlock cleanImage 20 1024) 0 =
      extentTreeSearch cleanImage 1024 fuel (readBlock cleanImage 20 1024) 0 :=
  extentTreeSearch_one_index cleanImage 1024 (by simp) (by decide) (by decide) (by decide)
    (by decide) (by decide) fuel

/-- So `extent_map_block` of `cycleInode` gives no result for block `0`, with any fuel. -/
theorem extentMapBlock_cycleInode (fuel : Nat) :
    extentMapBlock cleanImage 1024 fuel cycleInode 0 = none := by
  have hnone : ∀ fuel,
      extentTreeSearch cleanImage 1024 fuel (readBlock cleanImage 20 1024) 0 = none := by
    intro fuel
    induction fuel with
    | zero => rfl
    | succ fuel ih => exact (search_block20_step fuel).trans ih
  rw [extentMapBlock, if_neg (by decide)]
  cases fuel with
  | zero => rfl
  | succ fuel =>
    rw [extentTreeSearch_one_index cleanImage 1024 (by decide) (by decide) (by decide)
      (by decide) (by decide) (by decide)]
    exact hnone fuel

set_option maxRecDepth 10000 in
/-- On `cleanImage`, which mounts, the node in block `20` has depth `1`, as its parent in the
    root has, and its one index names block `20` itself; so the search for block `0` calls
    itself with the same node and block at every level, and gives no result with any fuel. -/
theorem extentTreeSearch_self_loop :
    (∃ sb gds, Mounted cleanImage sb gds) ∧
      (ExtentHeader.decode cycleInode.iBlock 0).ehDepth = 1 ∧ child cycleInode.iBlock 0 = 20 ∧
      (ExtentHeader.decode (readBlock cleanImage 20 1024) 0).ehDepth = 1 ∧
      child (readBlock cleanImage 20 1024) 0 = 20 ∧
      (∀ fuel, extentTreeSearch cleanImage 1024 (fuel + 1) (readBlock cleanImage 20 1024) 0 =
        extentTreeSearch cleanImage 1024 fuel (readBlock cleanImage 20 1024) 0) ∧
      ∀ fuel, extentMapBlock cleanImage 1024 fuel cycleInode 0 = none :=
  ⟨⟨_, _, mounted_cleanImage⟩, rfl, rfl, by decide, by decide, search_block20_step,
    extentMapBlock_cycleInode⟩

end HkKernel.Ext4
