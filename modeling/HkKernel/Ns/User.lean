import HkKernel.Word

/-!
# UID/GID maps

A user namespace's UID and GID maps (`ns/user.rs`): a list of extents, each mapping
`count` consecutive ids from `first` in the namespace to `lower_first` in its parent. Both
lookups (`mapIdDown`, `mapIdUp`) take the first extent whose range holds the id, computing
range ends and results with saturating additions. `setMapping` installs any list once; its
documentation promises an error for an invalid one, but it checks only that no list is
installed yet.

* `not_inverse_of_overlap`: two extents with the same `first` make the lookups disagree: the
  id `0` maps down to `0`, while `5` maps up to `0`;
* `mapIdDown_eq_some_iff`: on a map whose extents are pairwise disjoint on both sides and end
  below `u32::MAX` (`WellFormed`), the two lookups are inverse partial bijections, as they are
  on the identity map of the initial namespace (`wellFormed_newIdentity`), which leaves
  `u32::MAX` unmapped (`mapId_newIdentity`);
* `setMappings_after_ok`: once a call has installed a non-empty list, every later call of any
  sequence answers `EPERM` and leaves the map as it is;
* `setMapping_empty_settable_again`: but the "already set" test is that the list is not empty,
  so a call that installs the empty list succeeds and the next call installs its list.

A user namespace holds a UID map, a GID map and its parent. The namespaces that `clone_ns` and
`set_mapping` build from the initial one (`UserNamespace.Created`) sit on chains of at most 33
namespaces ending in the initial namespace (`Created.chain`). The spec has `to_kuid` translate
an id through every map of the chain (`chainDown`) and `from_kuid` back (`chainUp`); the
source's doc comments say the same, but both read the namespace's own map only:

* `toKuid_one_map_only`: two levels down the two differ, and in the initial namespace
  `u32::MAX` has no translation either way;
* `toKuid_eq_chain_of_level_one`: one level down they agree, but for `u32::MAX`, which the
  initial namespace's identity maps leave unmapped.
-/

namespace HkKernel

/-- A mapping extent (`UidGidExtent`). -/
structure UidGidExtent where
  /-- First id in this namespace. -/
  first : UInt32
  /-- First id in the parent namespace. -/
  lowerFirst : UInt32
  /-- Number of consecutive ids. -/
  count : UInt32
  deriving DecidableEq, Repr

/-- A UID/GID map (`UidGidMap`): its extents. -/
structure UidGidMap where
  extents : List UidGidExtent
  deriving DecidableEq, Repr

namespace UidGidMap

/-- `UidGidMap::new`: no extents. -/
def new : UidGidMap := ⟨[]⟩

/-- `UidGidMap::set_mapping`: installs `newExtents` unless extents are installed already
    (`EPERM`, 1); the map after the call, and its result. -/
def setMapping (m : UidGidMap) (newExtents : List UidGidExtent) : UidGidMap × Except Nat Unit :=
  if !m.extents.isEmpty then (m, .error 1) else (⟨newExtents⟩, .ok ())

/-- `UidGidMap::new_identity`: the ids `[0, u32::MAX)` mapped to themselves. -/
def newIdentity : UidGidMap := (new.setMapping [⟨0, 0, 0xFFFFFFFF⟩]).1

/-- `UidGidMap::map_id_down`: through the first extent whose range in this namespace holds
    `id`. -/
def mapIdDown (m : UidGidMap) (id : UInt32) : Option UInt32 :=
  (m.extents.find? fun ext => ext.first ≤ id && id < saturatingAdd ext.first ext.count).map
    fun ext => saturatingAdd ext.lowerFirst (id - ext.first)

/-- `UidGidMap::map_id_up`: through the first extent whose range in the parent holds `id`. -/
def mapIdUp (m : UidGidMap) (id : UInt32) : Option UInt32 :=
  (m.extents.find? fun ext => ext.lowerFirst ≤ id && id < saturatingAdd ext.lowerFirst ext.count).map
    fun ext => saturatingAdd ext.first (id - ext.lowerFirst)

/-- Two extents starting at the same id, installed by `set_mapping`: `0` maps down to `0`,
    but `5` maps up to `0`, so the lookups are not inverse. -/
theorem not_inverse_of_overlap :
    (new.setMapping [⟨0, 0, 1⟩, ⟨0, 5, 1⟩]).2 = .ok () ∧
      (new.setMapping [⟨0, 0, 1⟩, ⟨0, 5, 1⟩]).1.mapIdUp 5 = some 0 ∧
      (new.setMapping [⟨0, 0, 1⟩, ⟨0, 5, 1⟩]).1.mapIdDown 0 = some 0 :=
  ⟨rfl, rfl, rfl⟩

end UidGidMap

/-! ## Well-formed maps -/

namespace UidGidExtent

variable (e : UidGidExtent)

/-- Both ranges of the extent end at `u32::MAX` at the latest, so no addition saturates. -/
def Fits : Prop :=
  e.first.toNat + e.count.toNat < 2 ^ 32 ∧ e.lowerFirst.toNat + e.count.toNat < 2 ^ 32

/-- The extent maps `a` in this namespace to `b` in the parent. -/
def Maps (a b : UInt32) : Prop :=
  e.first.toNat ≤ a.toNat ∧ a.toNat < e.first.toNat + e.count.toNat ∧
    b.toNat = e.lowerFirst.toNat + (a.toNat - e.first.toNat)

/-- Two extents whose ranges are disjoint on both sides. -/
def Apart (e f : UidGidExtent) : Prop :=
  (e.first.toNat + e.count.toNat ≤ f.first.toNat ∨ f.first.toNat + f.count.toNat ≤ e.first.toNat) ∧
  (e.lowerFirst.toNat + e.count.toNat ≤ f.lowerFirst.toNat ∨
    f.lowerFirst.toNat + f.count.toNat ≤ e.lowerFirst.toNat)

variable {e}

/-- `map_id_down`'s test on one extent that fits: `a` is in its range in this namespace. -/
theorem testDown_iff (he : e.Fits) (a : UInt32) :
    (e.first ≤ a && a < saturatingAdd e.first e.count) = true ↔
      e.first.toNat ≤ a.toNat ∧ a.toNat < e.first.toNat + e.count.toNat := by
  simp only [Fits, Bool.and_eq_true, decide_eq_true_eq, U32.le_iff, U32.lt_iff,
    U32.toNat_saturatingAdd, Nat.reducePow] at he ⊢
  omega

/-- `map_id_up`'s test on one extent that fits: `b` is in its range in the parent. -/
theorem testUp_iff (he : e.Fits) (b : UInt32) :
    (e.lowerFirst ≤ b && b < saturatingAdd e.lowerFirst e.count) = true ↔
      e.lowerFirst.toNat ≤ b.toNat ∧ b.toNat < e.lowerFirst.toNat + e.count.toNat := by
  simp only [Fits, Bool.and_eq_true, decide_eq_true_eq, U32.le_iff, U32.lt_iff,
    U32.toNat_saturatingAdd, Nat.reducePow] at he ⊢
  omega

/-- `map_id_down`'s test and result on one extent that fits. -/
theorem down_iff (he : e.Fits) (a b : UInt32) :
    ((e.first ≤ a && a < saturatingAdd e.first e.count) ∧
      saturatingAdd e.lowerFirst (a - e.first) = b) ↔ e.Maps a b := by
  have := U32.toNat_lt a; have := U32.toNat_lt b; have := U32.toNat_lt e.first
  simp only [Fits, Maps, Bool.and_eq_true, decide_eq_true_eq, U32.le_iff, U32.lt_iff, U32.eq_iff,
    U32.toNat_saturatingAdd, U32.toNat_sub, Nat.reducePow] at he this ⊢
  omega

/-- `map_id_up`'s test and result on one extent that fits. -/
theorem up_iff (he : e.Fits) (a b : UInt32) :
    ((e.lowerFirst ≤ b && b < saturatingAdd e.lowerFirst e.count) ∧
      saturatingAdd e.first (b - e.lowerFirst) = a) ↔ e.Maps a b := by
  have := U32.toNat_lt a; have := U32.toNat_lt b; have := U32.toNat_lt e.lowerFirst
  simp only [Fits, Maps, Bool.and_eq_true, decide_eq_true_eq, U32.le_iff, U32.lt_iff, U32.eq_iff,
    U32.toNat_saturatingAdd, U32.toNat_sub, Nat.reducePow] at he this ⊢
  omega

end UidGidExtent

/-- In a list where no two entries both pass `p`, `find?` finds exactly the entry that does. -/
theorem find?_eq_some_iff {α : Type} {p : α → Bool} {l : List α}
    (h : l.Pairwise fun x y => ¬(p x ∧ p y)) {x : α} : l.find? p = some x ↔ x ∈ l ∧ p x := by
  induction l with
  | nil => simp
  | cons y l ih =>
    rw [List.pairwise_cons] at h
    by_cases hy : p y
    · simp only [List.find?_cons_of_pos _ hy, Option.some.injEq, List.mem_cons]
      constructor
      · rintro rfl; exact ⟨.inl rfl, hy⟩
      · rintro ⟨rfl | hx, hpx⟩
        · rfl
        · exact absurd ⟨hy, hpx⟩ (h.1 x hx)
    · simp only [List.find?_cons_of_neg _ hy, ih h.2, List.mem_cons]
      exact ⟨fun ⟨hx, hpx⟩ => ⟨.inr hx, hpx⟩, fun ⟨hx, hpx⟩ =>
        ⟨hx.resolve_left (by rintro rfl; exact hy hpx), hpx⟩⟩

namespace UidGidMap

/-- Extents that fit and are pairwise disjoint on both sides. -/
def WellFormed (m : UidGidMap) : Prop :=
  (∀ e ∈ m.extents, e.Fits) ∧ m.extents.Pairwise UidGidExtent.Apart

variable {m : UidGidMap}

theorem mapIdDown_eq_some (hm : m.WellFormed) (a b : UInt32) :
    m.mapIdDown a = some b ↔ ∃ e ∈ m.extents, e.Maps a b := by
  -- At most one extent holds `a` in its range.
  have hp : m.extents.Pairwise fun x y =>
      ¬((x.first ≤ a && a < saturatingAdd x.first x.count) = true ∧
        (y.first ≤ a && a < saturatingAdd y.first y.count) = true) :=
    hm.2.imp_of_mem fun {x y} hx hy hxy ⟨px, py⟩ => by
      rw [UidGidExtent.testDown_iff (hm.1 x hx)] at px
      rw [UidGidExtent.testDown_iff (hm.1 y hy)] at py
      have := hxy.1
      omega
  simp only [mapIdDown, Option.map_eq_some', find?_eq_some_iff hp]
  exact ⟨fun ⟨e, ⟨he, hpe⟩, hfe⟩ => ⟨e, he, (UidGidExtent.down_iff (hm.1 e he) a b).1 ⟨hpe, hfe⟩⟩,
    fun ⟨e, he, hme⟩ =>
      let ⟨hpe, hfe⟩ := (UidGidExtent.down_iff (hm.1 e he) a b).2 hme; ⟨e, ⟨he, hpe⟩, hfe⟩⟩

theorem mapIdUp_eq_some (hm : m.WellFormed) (a b : UInt32) :
    m.mapIdUp b = some a ↔ ∃ e ∈ m.extents, e.Maps a b := by
  -- At most one extent holds `b` in its range in the parent.
  have hp : m.extents.Pairwise fun x y =>
      ¬((x.lowerFirst ≤ b && b < saturatingAdd x.lowerFirst x.count) = true ∧
        (y.lowerFirst ≤ b && b < saturatingAdd y.lowerFirst y.count) = true) :=
    hm.2.imp_of_mem fun {x y} hx hy hxy ⟨px, py⟩ => by
      rw [UidGidExtent.testUp_iff (hm.1 x hx)] at px
      rw [UidGidExtent.testUp_iff (hm.1 y hy)] at py
      have := hxy.2
      omega
  simp only [mapIdUp, Option.map_eq_some', find?_eq_some_iff hp]
  exact ⟨fun ⟨e, ⟨he, hpe⟩, hfe⟩ => ⟨e, he, (UidGidExtent.up_iff (hm.1 e he) a b).1 ⟨hpe, hfe⟩⟩,
    fun ⟨e, he, hme⟩ =>
      let ⟨hpe, hfe⟩ := (UidGidExtent.up_iff (hm.1 e he) a b).2 hme; ⟨e, ⟨he, hpe⟩, hfe⟩⟩

/-- On a well-formed map, `map_id_down` and `map_id_up` are inverse partial bijections. -/
theorem mapIdDown_eq_some_iff (hm : m.WellFormed) (a b : UInt32) :
    m.mapIdDown a = some b ↔ m.mapIdUp b = some a := by
  rw [mapIdDown_eq_some hm, mapIdUp_eq_some hm]

/-- The identity map of the initial namespace is well formed. -/
theorem wellFormed_newIdentity : newIdentity.WellFormed :=
  ⟨by simp [newIdentity, new, setMapping, UidGidExtent.Fits], List.pairwise_singleton _ _⟩

/-- On the identity map, `1000` maps down to `1000` exactly when it maps up to it. -/
theorem mapIdDown_eq_some_iff_newIdentity :
    newIdentity.WellFormed ∧ (newIdentity.mapIdDown 1000 = some 1000 ↔
      newIdentity.mapIdUp 1000 = some 1000) :=
  ⟨wellFormed_newIdentity, mapIdDown_eq_some_iff wellFormed_newIdentity 1000 1000⟩

/-- The identity map of the initial namespace maps every id but `u32::MAX` to itself, down
    and up: its one extent holds `u32::MAX` ids from `0`, which stop short of `u32::MAX`. -/
theorem mapId_newIdentity (a : UInt32) :
    newIdentity.mapIdDown a = (if a = 0xFFFFFFFF then none else some a) ∧
      newIdentity.mapIdUp a = if a = 0xFFFFFFFF then none else some a := by
  split_ifs with ha
  · subst ha; exact ⟨rfl, rfl⟩
  · have hlt : a.toNat < 0xFFFFFFFF := by
      have := U32.toNat_lt a; rw [U32.eq_iff] at ha; exact lt_of_le_of_ne (by omega) ha
    have hres : saturatingAdd 0 a = a := by
      simp only [U32.eq_iff, U32.toNat_saturatingAdd, UInt32.toNat_zero]; omega
    simp [mapIdDown, mapIdUp, newIdentity, new, setMapping, U32.le_iff, U32.lt_iff,
      U32.toNat_saturatingAdd, hlt, hres]

/-! ## Setting a map once -/

/-- `set_mapping` called with each list of `calls` in turn: the map after them, and the result
    of each call. -/
def setMappings (m : UidGidMap) : List (List UidGidExtent) → UidGidMap × List (Except Nat Unit)
  | [] => (m, [])
  | xs :: calls =>
    let r := m.setMapping xs
    let rest := setMappings r.1 calls
    (rest.1, r.2 :: rest.2)

/-- A call that succeeds installs its list. -/
theorem setMapping_of_ok {xs : List UidGidExtent} (h : (m.setMapping xs).2 = .ok ()) :
    m.setMapping xs = (⟨xs⟩, .ok ()) := by
  unfold setMapping at h ⊢
  split_ifs at h ⊢
  rfl

/-- A call that installs the empty list succeeds and leaves the map settable: the next call
    installs its own list. From `UidGidMap::new`, the calls `[]` and `[{0, 0, 1}]` both
    succeed, and `0`, unmapped after the first, maps down to `0` after the second. -/
theorem setMapping_empty_settable_again :
    (∀ (m : UidGidMap) (xs : List UidGidExtent), (m.setMapping []).2 = .ok () →
      (m.setMapping []).1.setMapping xs = (⟨xs⟩, .ok ())) ∧
    setMappings new [[], [⟨0, 0, 1⟩]] = (⟨[⟨0, 0, 1⟩]⟩, [.ok (), .ok ()]) ∧
    (new.setMapping []).1.mapIdDown 0 = none ∧
    (setMappings new [[], [⟨0, 0, 1⟩]]).1.mapIdDown 0 = some 0 := by
  refine ⟨fun m xs h => ?_, rfl, rfl, rfl⟩
  rw [setMapping_of_ok h]
  rfl

end UidGidMap

/-! ## User namespaces -/

/-- `MAX_USER_NS_LEVEL`. -/
def maxUserNsLevel : UInt32 := 32

/-- A user namespace (`UserNamespace`). The source shares the parent through an `Arc`; here a
    namespace holds its parent as a value, with the parent's maps as they were when the
    namespace was created. -/
structure UserNamespace where
  uidMap : UidGidMap
  gidMap : UidGidMap
  /-- Nesting level: `0` for the initial namespace, one more for each child. -/
  level : UInt32
  /-- `none` for the initial namespace. -/
  parent : Option UserNamespace
  /-- The creator's UID in the parent namespace. -/
  owner : UInt32
  /-- The creator's GID in the parent namespace. -/
  group : UInt32

namespace UserNamespace

/-- `UserNamespace::new_init`, the namespace of `INIT_USER_NS`. -/
def newInit : UserNamespace := ⟨.newIdentity, .newIdentity, 0, none, 0, 0⟩

/-- `UserNamespace::clone_ns`, called by a task whose credentials hold `uid` and `gid`:
    `EAGAIN` (11) below the deepest level, else a child with no maps. -/
def cloneNs (parent : UserNamespace) (uid gid : UInt32) : Except Int UserNamespace :=
  if parent.level ≥ maxUserNsLevel then .error 11
  else .ok ⟨.new, .new, parent.level + 1, some parent, uid, gid⟩

variable (ns : UserNamespace)

/-- `UserNamespace::from_kuid`. -/
def fromKuid (kuid : UInt32) : Option UInt32 := ns.uidMap.mapIdUp kuid

/-- `UserNamespace::to_kuid`. -/
def toKuid (uid : UInt32) : Option UInt32 := ns.uidMap.mapIdDown uid

/-- `UserNamespace::from_kgid`. -/
def fromKgid (kgid : UInt32) : Option UInt32 := ns.gidMap.mapIdUp kgid

/-- `UserNamespace::to_kgid`. -/
def toKgid (gid : UInt32) : Option UInt32 := ns.gidMap.mapIdDown gid

/-- The namespace and its ancestors, up to the initial namespace. -/
def ancestors : UserNamespace → List UserNamespace
  | ns@⟨_, _, _, none, _, _⟩ => [ns]
  | ns@⟨_, _, _, some p, _, _⟩ => ns :: ancestors p

/-- The translation the spec gives `to_kuid` (with `map := uidMap`) and `to_kgid` (with
    `map := gidMap`): `map_id_down` through the namespace's map, then its parent's, up to the
    initial namespace; `none` as soon as one step is unmapped. -/
def chainDown (map : UserNamespace → UidGidMap) (id : UInt32) : Option UInt32 :=
  (ns.ancestors.map map).foldlM (fun id m => m.mapIdDown id) id

/-- The translation the spec gives `from_kuid` and `from_kgid`: `map_id_up` through the maps
    from the initial namespace's down to the namespace's own. -/
def chainUp (map : UserNamespace → UidGidMap) (id : UInt32) : Option UInt32 :=
  (ns.ancestors.map map).reverse.foldlM (fun id m => m.mapIdUp id) id

variable {ns}

theorem ancestors_of_parent {p : UserNamespace} (h : ns.parent = some p) :
    ns.ancestors = ns :: p.ancestors := by
  obtain ⟨_, _, _, _ | _, _, _⟩ := ns <;> cases h; rfl

/-- The last of the namespace's ancestors, which has no parent. -/
def root : UserNamespace → UserNamespace
  | ns@⟨_, _, _, none, _, _⟩ => ns
  | ⟨_, _, _, some p, _, _⟩ => root p

theorem root_of_parent {p : UserNamespace} (h : ns.parent = some p) : ns.root = p.root := by
  obtain ⟨_, _, _, _ | _, _, _⟩ := ns <;> cases h; rfl

theorem root_of_none (h : ns.parent = none) : ns.root = ns := by
  obtain ⟨_, _, _, _ | _, _, _⟩ := ns <;> cases h; rfl

/-- Below the initial namespace, the translation down is one step through the namespace's own
    map followed by the parent's translation. -/
theorem chainDown_of_parent {p : UserNamespace} (h : ns.parent = some p)
    (map : UserNamespace → UidGidMap) (id : UInt32) :
    ns.chainDown map id = (map ns).mapIdDown id >>= p.chainDown map := by
  simp only [chainDown, ancestors_of_parent h, List.map_cons, List.foldlM_cons]
  rfl

/-- Below the initial namespace, the translation up is the parent's translation followed by
    one step through the namespace's own map. -/
theorem chainUp_of_parent {p : UserNamespace} (h : ns.parent = some p)
    (map : UserNamespace → UidGidMap) (id : UInt32) :
    ns.chainUp map id = p.chainUp map id >>= (map ns).mapIdUp := by
  simp only [chainUp, ancestors_of_parent h, List.map_cons, List.reverse_cons,
    List.foldlM_append, List.foldlM_cons, List.foldlM_nil, bind_pure]

/-- In the initial namespace, the translation down is one step through its own map. -/
theorem chainDown_newInit (map : UserNamespace → UidGidMap) :
    newInit.chainDown map = (map newInit).mapIdDown := by
  funext id
  simp only [chainDown, ancestors, List.map_cons, List.map_nil, List.foldlM_cons,
    List.foldlM_nil, bind_pure]
  rfl

/-- In the initial namespace, the translation up is one step through its own map. -/
theorem chainUp_newInit (map : UserNamespace → UidGidMap) :
    newInit.chainUp map = (map newInit).mapIdUp := by
  funext id
  simp only [chainUp, ancestors, List.map_cons, List.map_nil, List.reverse_cons,
    List.reverse_nil, List.nil_append, List.foldlM_cons, List.foldlM_nil, bind_pure]
  rfl

/-- One level below the initial namespace, whose maps are the identity maps, the translation
    is one step through the namespace's own map, `u32::MAX` left unmapped. -/
theorem chain_of_parent_newInit (h : ns.parent = some newInit) {map : UserNamespace → UidGidMap}
    (hmap : map newInit = .newIdentity) (id : UInt32) :
    ns.chainDown map id =
        ((map ns).mapIdDown id >>= fun k => if k = 0xFFFFFFFF then none else some k) ∧
      ns.chainUp map id = if id = 0xFFFFFFFF then none else (map ns).mapIdUp id := by
  constructor
  · rw [chainDown_of_parent h, chainDown_newInit, hmap]
    congr 1
    funext k
    exact (UidGidMap.mapId_newIdentity k).1
  · rw [chainUp_of_parent h, chainUp_newInit, hmap, (UidGidMap.mapId_newIdentity id).2]
    split_ifs <;> rfl

/-! ## The namespaces that can be built -/

/-- The namespaces built from the initial one by `clone_ns` and by `set_mapping` on a UID or a
    GID map. -/
inductive Created : UserNamespace → Prop
  | init : Created newInit
  | clone {p n : UserNamespace} (uid gid : UInt32) :
      Created p → cloneNs p uid gid = .ok n → Created n
  | setUidMap {n : UserNamespace} (exts : List UidGidExtent) :
      Created n → Created { n with uidMap := (n.uidMap.setMapping exts).1 }
  | setGidMap {n : UserNamespace} (exts : List UidGidExtent) :
      Created n → Created { n with gidMap := (n.gidMap.setMapping exts).1 }

/-- A built namespace sits on a chain of at most `MAX_USER_NS_LEVEL + 1` namespaces, one per
    level, that ends in the initial namespace with its identity maps. -/
structure Chain (n : UserNamespace) : Prop where
  root : n.root = newInit
  length : n.ancestors.length = n.level.toNat + 1
  level_le : n.level.toNat ≤ 32

theorem chain_init : Chain newInit := ⟨rfl, rfl, by decide⟩

theorem Chain.clone {p n : UserNamespace} {uid gid : UInt32} (hp : Chain p)
    (h : cloneNs p uid gid = .ok n) : Chain n := by
  unfold cloneNs at h
  split_ifs at h with hl
  cases h
  have hlt : p.level.toNat < 32 := by
    rw [ge_iff_le, U32.le_iff] at hl; exact Nat.lt_of_not_le hl
  have hlev : (p.level + 1).toNat = p.level.toNat + 1 := by
    rw [U32.toNat_add, U32.toNat_one]; omega
  refine ⟨hp.root, ?_, ?_⟩ <;> simp only [ancestors, hlev, List.length_cons, hp.length]
  omega

/-- Setting a map keeps the namespace's place: below the initial namespace the chain is the
    same, and the initial namespace's maps cannot be set again. -/
theorem Chain.setMap {n n' : UserNamespace} (hn : Chain n)
    (hlev : n'.level = n.level) (hpar : n'.parent = n.parent)
    (hroot : n.parent = none → n' = n) : Chain n' := by
  cases hp : n.parent with
  | none => rw [hroot hp]; exact hn
  | some p =>
    have hp' := hpar.trans hp
    refine ⟨?_, ?_, hlev ▸ hn.level_le⟩
    · rw [root_of_parent hp', ← root_of_parent hp, hn.root]
    · rw [ancestors_of_parent hp', List.length_cons, hlev, ← hn.length,
        ancestors_of_parent hp, List.length_cons]

/-- `set_mapping` on a map of the initial namespace fails: its maps are set. -/
theorem setMapping_newIdentity (exts : List UidGidExtent) :
    (UidGidMap.newIdentity.setMapping exts).1 = .newIdentity := rfl

/-- Every namespace built from the initial one has a well-formed chain of ancestors. -/
theorem Created.chain {n : UserNamespace} (h : Created n) : Chain n := by
  induction h with
  | init => exact chain_init
  | clone _ _ _ hc ih => exact ih.clone hc
  | setUidMap exts _ ih =>
    refine ih.setMap rfl rfl fun hp => ?_
    rw [← root_of_none hp, ih.root]
    exact congrArg (fun m => { newInit with uidMap := m }) (setMapping_newIdentity exts)
  | setGidMap exts _ ih =>
    refine ih.setMap rfl rfl fun hp => ?_
    rw [← root_of_none hp, ih.root]
    exact congrArg (fun m => { newInit with gidMap := m }) (setMapping_newIdentity exts)

/-! ## One map, not the chain -/

/-- A namespace created in the initial one, whose UIDs `0..9` map to `1000..1009`. -/
def levelOne : UserNamespace := ⟨⟨[⟨0, 1000, 10⟩]⟩, .new, 1, some newInit, 0, 0⟩

/-- A namespace created in `levelOne`, whose UID `0` maps to `5`. -/
def levelTwo : UserNamespace := ⟨⟨[⟨0, 5, 1⟩]⟩, .new, 2, some levelOne, 0, 0⟩

/-- `to_kuid` and `from_kuid` translate through the namespace's own map only. In the initial
    namespace `u32::MAX` is unmapped, both ways and for GIDs too. Two levels down, UID `0` of
    `levelTwo` is `5` to `to_kuid`, where the chain through `levelOne` gives `1005`; and
    `from_kuid` finds nothing for `1005`, which the chain brings back to `0`. -/
theorem toKuid_one_map_only :
    newInit.toKuid 0xFFFFFFFF = none ∧ newInit.fromKuid 0xFFFFFFFF = none ∧
      newInit.toKgid 0xFFFFFFFF = none ∧ newInit.fromKgid 0xFFFFFFFF = none ∧
      Created levelTwo ∧
      levelTwo.toKuid 0 = some 5 ∧ levelTwo.chainDown uidMap 0 = some 1005 ∧
      levelTwo.fromKuid 1005 = none ∧ levelTwo.chainUp uidMap 1005 = some 0 :=
  ⟨rfl, rfl, rfl, rfl,
    .setUidMap [⟨0, 5, 1⟩] (.clone 0 0 (.setUidMap [⟨0, 1000, 10⟩] (.clone 0 0 .init rfl)) rfl),
    rfl, rfl, rfl, rfl⟩

/-- So one level below the initial namespace, `to_kuid` and `to_kgid` agree with the chain
    translation except where they give `u32::MAX`, and `from_kuid` and `from_kgid` agree with
    it except at `u32::MAX`: only deeper namespaces see the difference. -/
theorem toKuid_eq_chain_of_level_one (h : ns.parent = some newInit) (id : UInt32) :
    ns.chainDown uidMap id = (ns.toKuid id >>= fun k => if k = 0xFFFFFFFF then none else some k) ∧
      ns.chainUp uidMap id = (if id = 0xFFFFFFFF then none else ns.fromKuid id) ∧
      ns.chainDown gidMap id = (ns.toKgid id >>= fun k => if k = 0xFFFFFFFF then none else some k) ∧
      ns.chainUp gidMap id = if id = 0xFFFFFFFF then none else ns.fromKgid id :=
  ⟨(chain_of_parent_newInit h rfl id).1, (chain_of_parent_newInit h rfl id).2,
    (chain_of_parent_newInit h rfl id).1, (chain_of_parent_newInit h rfl id).2⟩

/-- In `levelOne`, UID `3` goes down to `1003` either way, and back. -/
theorem toKuid_eq_chain_levelOne :
    levelOne.parent = some newInit ∧
      levelOne.chainDown uidMap 3 =
        (levelOne.toKuid 3 >>= fun k => if k = 0xFFFFFFFF then none else some k) ∧
      levelOne.chainUp uidMap 3 = (if (3 : UInt32) = 0xFFFFFFFF then none else levelOne.fromKuid 3) ∧
      levelOne.chainDown gidMap 3 =
        (levelOne.toKgid 3 >>= fun k => if k = 0xFFFFFFFF then none else some k) ∧
      levelOne.chainUp gidMap 3 = if (3 : UInt32) = 0xFFFFFFFF then none else levelOne.fromKgid 3 :=
  ⟨rfl, toKuid_eq_chain_of_level_one rfl 3⟩

example : levelOne.chainDown uidMap 3 = some 1003 ∧ levelOne.toKuid 3 = some 1003 := ⟨rfl, rfl⟩

end UserNamespace

end HkKernel
