import HkKernel.Ns.Pid

/-!
# The tree of PID namespaces

What `ns/pid.rs` keeps about the shape of the tree and its first task, over every run from
boot (`PidSystem.Step`):

* `isAncestorOf_iff_mem_chain`: `is_ancestor_of`'s walk up the parents finds exactly the
  namespaces `register_task_pids` and `unregister_task_pids` walk through; it is a strict order,
  an ancestor being created before its descendants;
* `level_eq_length_chain`: a namespace's level is its number of ancestors, never more than
  `MAX_PID_NS_LEVEL`, so a task holds PIDs in at most 33 namespaces;
* `child_reaper_invariant`: a namespace's child reaper is the task its PID `1` went to, set when
  that PID is handed out and never changed after, also once that task is unregistered;
* `unregister_from_owner`: unregistering a task from its owning namespace removes it from
  every namespace, and leaves every other task's PIDs as they were.

`Step.ns_cases` says once what a step can do to one namespace; the invariants of the last two
results follow from it namespace by namespace.
-/

namespace HkKernel

namespace PidNamespace

/-- `PidNamespace::get_child_reaper`. -/
def getChildReaper (n : PidNamespace) : Option Nat := n.childReaper

/-- The child `clone_ns` makes of `p`. -/
def freshChild (p : Nat) (n : PidNamespace) : PidNamespace :=
  ⟨1, n.pidMax, n.level + 1, some p, none, fun _ => none, fun _ => none⟩

/-! ### The child reaper -/

/-- The child reaper of a namespace is set exactly once PID `1` is handed out, to the task
    holding it while it does. -/
structure ReaperInv (n : PidNamespace) : Prop where
  none_iff : n.childReaper = none ↔ n.nextPid = 1
  pid_one : ∀ t, n.pidMap 1 = some t → n.childReaper = some t

theorem reaperInv_newInit : newInit.ReaperInv :=
  ⟨iff_of_true rfl rfl, fun _ h => by cases h⟩

theorem reaperInv_freshChild (p : Nat) (n : PidNamespace) : (freshChild p n).ReaperInv :=
  ⟨iff_of_true rfl rfl, fun _ h => by cases h⟩

theorem ReaperInv.allocRegister {n : PidNamespace} (hr : n.ReaperInv) (hn : n.Inv) (tid : Nat) :
    (n.allocRegister tid).ReaperInv := by
  by_cases hl : n.nextPid < n.pidMax
  · rw [PidNamespace.allocRegister_of_lt tid hl]
    have := hn.next_le
    by_cases h1 : n.nextPid = 1
    · -- PID `1` goes to `tid`, which becomes the child reaper.
      have hnone := hr.none_iff.2 h1
      refine ⟨by simp [h1, hnone], fun t ht => ?_⟩
      simp only [Function.update_apply, h1, if_true] at ht
      simp only [h1, hnone, and_self, if_true]
      exact ht
    · -- The reaper is set already, and PID `1` is not the one handed out.
      obtain ⟨r, hr'⟩ := Option.ne_none_iff_exists'.1 (mt hr.none_iff.1 h1)
      refine ⟨by simp [hr']; omega, fun t ht => ?_⟩
      simp only [Function.update_apply, if_neg (Ne.symm h1)] at ht
      simp only [h1, false_and, if_false]
      exact hr.pid_one t ht
  · rwa [allocRegister_of_le tid (Nat.le_of_not_lt hl)]

theorem ReaperInv.unregister {n : PidNamespace} (hr : n.ReaperInv) (tid : Nat) :
    (n.unregister tid).ReaperInv := by
  refine ⟨?_, fun t ht => ?_⟩
  · rw [unregister_nextPid, ← hr.none_iff, unregister_eq]
  · rw [unregister_eq]
    exact hr.pid_one t (unregister_pidMap ht)

theorem unregister_tidMap_apply (n : PidNamespace) (tid t : Nat) :
    (n.unregister tid).tidMap t = if t = tid then none else n.tidMap t := by
  rw [unregister_eq]; exact Function.update_apply _ _ _ _

end PidNamespace

namespace PidForest

variable (f : PidForest)

/-- The loop of `PidNamespace::is_ancestor_of` at namespace `cur` of the walk up: whether it
    meets `target` there or above. -/
def ancestorWalk (target cur : Nat) : Bool :=
  if cur = target then true
  else
    match h : (f.ns cur).parent with
    | none => false
    | some p =>
      have : p < cur := f.parent_lt cur p h
      ancestorWalk target p
termination_by cur

/-- `PidNamespace::is_ancestor_of`: whether the walk up from `other`'s parent meets `self`;
    namespaces are compared by identity, their index here. -/
def isAncestorOf (self other : Nat) : Bool :=
  match (f.ns other).parent with
  | none => false
  | some p => f.ancestorWalk self p

/-- `task_pid_nr`: the task's PID in `INIT_PID_NS`, namespace `0`. -/
def taskPidNr (tid : Nat) : Nat := f.taskPidNrNs tid 0

variable {f}

theorem ancestorWalk_iff (target cur : Nat) :
    f.ancestorWalk target cur = true ↔ target ∈ cur :: f.chain cur := by
  induction cur using Nat.strong_induction_on with
  | _ cur ih =>
    rw [ancestorWalk]
    by_cases hc : cur = target
    · subst hc; simp
    · rw [if_neg hc, List.mem_cons, or_iff_right (Ne.symm hc)]
      split
      · rename_i hp; simp [chain_of_none hp]
      · rename_i p hp; rw [chain_of_some hp, ih p (f.parent_lt cur p hp)]

/-- Being above `b` on the walk of `register_task_pids` is transitive. -/
theorem mem_chain_trans {a b c : Nat} (hab : a ∈ f.chain b) (hbc : b ∈ f.chain c) :
    a ∈ f.chain c := by
  induction c using Nat.strong_induction_on with
  | _ c ih =>
    cases hp : (f.ns c).parent with
    | none => simp [chain_of_none hp] at hbc
    | some p =>
      rw [chain_of_some hp] at hbc ⊢
      rcases List.mem_cons.1 hbc with rfl | hbc
      · exact List.mem_cons_of_mem _ hab
      · exact List.mem_cons_of_mem _ (ih p (f.parent_lt c p hp) hbc)

/-- `is_ancestor_of(a, b)` holds exactly when `a` is one of the namespaces above `b` that
    `register_task_pids` and `unregister_task_pids` walk through. It is a strict order: no
    namespace is its own ancestor, an ancestor of an ancestor is one, and an ancestor was
    created before. -/
theorem isAncestorOf_iff_mem_chain (a b : Nat) :
    (f.isAncestorOf a b = true ↔ a ∈ f.chain b) ∧ f.isAncestorOf a a = false ∧
      (∀ c, f.isAncestorOf a b = true → f.isAncestorOf b c = true → f.isAncestorOf a c = true) ∧
      (f.isAncestorOf a b = true → a < b) := by
  have hiff : ∀ a b, f.isAncestorOf a b = true ↔ a ∈ f.chain b := fun a b => by
    unfold isAncestorOf
    split
    · rename_i hp; simp [chain_of_none hp]
    · rename_i p hp; rw [ancestorWalk_iff, chain_of_some hp]
  refine ⟨hiff a b, ?_, fun c hab hbc => ?_, fun hab => lt_of_mem_chain ((hiff a b).1 hab)⟩
  · cases h : f.isAncestorOf a a
    · rfl
    · exact absurd (lt_of_mem_chain ((hiff a a).1 h)) (lt_irrefl a)
  · exact (hiff a c).2 (mem_chain_trans ((hiff a b).1 hab) ((hiff b c).1 hbc))

end PidForest

namespace PidSystem

variable {s s' : PidSystem}

/-! ## What a step does to one namespace -/

/-- A step leaves namespace `j` as it is, gives it a fresh PID for a task, unregisters a task
    from it, or, `j` being the next free slot, makes it a fresh child of a namespace below the
    maximum level. -/
theorem Step.ns_cases (h : Step s s') (j : Nat) :
    s'.forest.ns j = s.forest.ns j ∨
      (∃ tid, s'.forest.ns j = (s.forest.ns j).allocRegister tid) ∨
      (∃ tid, s'.forest.ns j = (s.forest.ns j).unregister tid) ∨
      (j = s.forest.count ∧ ∃ p : Fin s.forest.count, (s.forest.ns p).level < maxPidNsLevel ∧
        s'.forest.ns j = (s.forest.ns p).freshChild p) := by
  cases h with
  | clone parent =>
    by_cases hl : (s.forest.ns parent).level < maxPidNsLevel
    · simp only [PidSystem.clone, (s.forest.cloneNs_of_lt parent hl).1]
      rw [Function.update_apply]
      split_ifs with hj
      · exact .inr (.inr (.inr ⟨hj, parent, hl, rfl⟩))
      · exact .inl rfl
    · left
      simp only [PidSystem.clone, s.forest.cloneNs_of_le parent (Nat.le_of_not_lt hl)]
  | register tid i _ =>
    by_cases hl : (s.forest.ns i).nextPid < (s.forest.ns i).pidMax
    · rw [register_of_lt tid i hl]
      dsimp only
      rw [PidForest.registerAll_ns]
      split_ifs
      · exact .inr (.inl ⟨tid, rfl⟩)
      · exact .inl rfl
    · rw [register_of_le tid i (Nat.le_of_not_lt hl)]
      exact .inl rfl
  | unregister tid i =>
    simp only [PidSystem.unregister, PidForest.unregisterTaskPids_ns]
    split_ifs
    · exact .inr (.inr (.inl ⟨tid, rfl⟩))
    · exact .inl rfl

/-! ## Levels -/

/-- Every namespace created so far has as many ancestors as its level, at most
    `MAX_PID_NS_LEVEL`. -/
def DepthInv (s : PidSystem) : Prop :=
  ∀ j < s.forest.count, (s.forest.ns j).level = (s.forest.chain j).length ∧
    (s.forest.ns j).level ≤ maxPidNsLevel

theorem depthInv_init : init.DepthInv := fun j hj => by
  obtain rfl : j = 0 := Nat.lt_one_iff.1 hj
  exact ⟨by rw [PidForest.chain_of_none rfl]; rfl, Nat.zero_le _⟩

/-- Registrations and unregistrations change no level and no parent. -/
theorem foldl_update_level_chain (g : PidNamespace → PidNamespace) {l : List Nat} (hl : l.Nodup)
    (f : PidForest) (j : Nat) :
    ((l.foldl (fun h a => h.update a g) f).ns j).level = (f.ns j).level ∧
      (l.foldl (fun h a => h.update a g) f).chain j = f.chain j := by
  rw [PidForest.foldl_update_ns g hl, PidForest.chain_foldl_update]
  split_ifs <;> exact ⟨rfl, rfl⟩

theorem DepthInv.step (hd : s.DepthInv) (h : Step s s') : s'.DepthInv := by
  cases h with
  | clone parent =>
    by_cases hl : (s.forest.ns parent).level < maxPidNsLevel
    · obtain ⟨hns, hcount⟩ := s.forest.cloneNs_of_lt parent hl
      -- The namespaces that were there keep their parents, hence their walks up.
      have hchain : ∀ j < s.forest.count, (s.clone parent).forest.chain j = s.forest.chain j :=
        fun j hj => PidForest.chain_congr fun k hk => by
          simp only [PidSystem.clone, hns, Function.update_apply,
            if_neg (show k ≠ s.forest.count by omega)]
      intro j hj
      simp only [PidSystem.clone, hcount] at hj
      by_cases hjc : j = s.forest.count
      · subst hjc
        have hp : ((s.clone parent).forest.ns s.forest.count).parent = some parent.val := by
          simp [PidSystem.clone, hns]
        rw [PidForest.chain_of_some hp, hchain parent parent.isLt]
        simp only [PidSystem.clone, hns, Function.update_same, List.length_cons]
        have := (hd parent parent.isLt).1
        omega
      · have hlt : j < s.forest.count := by omega
        rw [hchain j hlt]
        simp only [PidSystem.clone, hns, Function.update_apply, if_neg hjc]
        exact hd j hlt
    · simpa [PidSystem.clone, s.forest.cloneNs_of_le parent (Nat.le_of_not_lt hl)] using hd
  | register tid i _ =>
    by_cases hl : (s.forest.ns i).nextPid < (s.forest.ns i).pidMax
    · rw [register_of_lt tid i hl]
      intro j hj
      obtain ⟨hlevel, hchain⟩ := foldl_update_level_chain (·.allocRegister tid)
        (PidForest.nodup_chain i) s.forest j
      simp only [PidForest.registerAll, PidForest.foldl_update_count] at hj ⊢
      rw [hlevel, hchain]
      exact hd j hj
    · rwa [register_of_le tid i (Nat.le_of_not_lt hl)]
  | unregister tid i =>
    intro j hj
    obtain ⟨hlevel, hchain⟩ := foldl_update_level_chain (·.unregister tid)
      (PidForest.nodup_chain i) s.forest j
    simp only [PidSystem.unregister, PidForest.unregisterTaskPids,
      PidForest.foldl_update_count] at hj ⊢
    rw [hlevel, hchain]
    exact hd j hj

theorem DepthInv.run (hd : s.DepthInv) (h : Relation.ReflTransGen Step s s') : s'.DepthInv := by
  induction h with
  | refl => exact hd
  | tail _ hstep ih => exact ih.step hstep

/-- In every state reached from boot, a namespace's level is its number of ancestors and at
    most `MAX_PID_NS_LEVEL`: `register_task_pids` and `unregister_task_pids` visit at most 33
    namespaces, and `is_ancestor_of` walks at most 32 parents. -/
theorem level_eq_length_chain (hs : Relation.ReflTransGen Step init s) {j : Nat}
    (hj : j < s.forest.count) :
    (s.forest.ns j).level = (s.forest.chain j).length ∧ (s.forest.ns j).level ≤ maxPidNsLevel ∧
      (j :: s.forest.chain j).length ≤ maxPidNsLevel + 1 := by
  obtain ⟨hlevel, hle⟩ := depthInv_init.run hs j hj
  exact ⟨hlevel, hle, by rw [List.length_cons, ← hlevel]; omega⟩

/-- A child of `INIT_PID_NS` is at level `1`, one ancestor up. -/
theorem level_eq_length_chain_clone :
    Relation.ReflTransGen Step init (init.clone ⟨0, by decide⟩) ∧
      1 < (init.clone ⟨0, by decide⟩).forest.count ∧
      ((init.clone ⟨0, by decide⟩).forest.ns 1).level =
        ((init.clone ⟨0, by decide⟩).forest.chain 1).length ∧
      ((init.clone ⟨0, by decide⟩).forest.ns 1).level ≤ maxPidNsLevel ∧
      (1 :: (init.clone ⟨0, by decide⟩).forest.chain 1).length ≤ maxPidNsLevel + 1 :=
  have hrun : Relation.ReflTransGen Step init (init.clone ⟨0, by decide⟩) :=
    .single (.clone init ⟨0, by decide⟩)
  ⟨hrun, by decide, level_eq_length_chain hrun (by decide)⟩

/-! ## The child reaper -/

/-- A step keeps every namespace's `ReaperInv`, and no child reaper, once set, changes. -/
theorem Step.reaper (hs : s.Inv) (h : Step s s') (j : Nat) (hr : (s.forest.ns j).ReaperInv) :
    (s'.forest.ns j).ReaperInv ∧
      ∀ t, (s.forest.ns j).childReaper = some t → (s'.forest.ns j).childReaper = some t := by
  rcases h.ns_cases j with he | ⟨tid, he⟩ | ⟨tid, he⟩ | ⟨rfl, p, -, he⟩ <;> rw [he]
  · exact ⟨hr, fun _ => id⟩
  · refine ⟨hr.allocRegister (hs.ns_inv j) tid, fun t ht => ?_⟩
    by_cases hl : (s.forest.ns j).nextPid < (s.forest.ns j).pidMax
    · simp [PidNamespace.allocRegister_of_lt tid hl, ht]
    · rwa [PidNamespace.allocRegister_of_le tid (Nat.le_of_not_lt hl)]
  · exact ⟨hr.unregister tid, fun t ht => by rwa [PidNamespace.unregister_eq]⟩
  · -- The next free slot held no namespace, so no reaper.
    refine ⟨PidNamespace.reaperInv_freshChild p _, fun t ht => ?_⟩
    rw [hs.unused _ le_rfl] at ht
    cases ht

/-- In every state reached from boot, and along every run from there: a namespace has a child
    reaper exactly once it has handed out PID `1`; the task holding PID `1` is the child
    reaper; and a child reaper, once set, stays, also after its task is unregistered and PID
    `1` is mapped to no task. -/
theorem child_reaper_invariant (hs : Relation.ReflTransGen Step init s)
    (hrun : Relation.ReflTransGen Step s s') (j : Nat) :
    ((s'.forest.ns j).getChildReaper = none ↔ (s'.forest.ns j).nextPid = 1) ∧
      (∀ t, s'.forest.findTaskByPidNs 1 j = some t → (s'.forest.ns j).getChildReaper = some t) ∧
      (∀ t, (s.forest.ns j).getChildReaper = some t → (s'.forest.ns j).getChildReaper = some t) := by
  -- Every reachable state has the invariants, and `ReaperInv` in every namespace.
  have hreach : ∀ {s'}, Relation.ReflTransGen Step init s' →
      s'.Inv ∧ ∀ j, (s'.forest.ns j).ReaperInv := fun h => by
    induction h with
    | refl => exact ⟨inv_init, fun _ => PidNamespace.reaperInv_newInit⟩
    | tail _ hstep ih => exact ⟨ih.1.step hstep, fun j => (hstep.reaper ih.1 j (ih.2 j)).1⟩
  have hkeep : ∀ t, (s.forest.ns j).getChildReaper = some t →
      (s'.forest.ns j).getChildReaper = some t := by
    induction hrun with
    | refl => exact fun _ => id
    | tail hrun' hstep ih =>
      have hmid := hreach (hs.trans hrun')
      exact fun t ht => (hstep.reaper hmid.1 j (hmid.2 j)).2 t (ih t ht)
  have hr := (hreach (hs.trans hrun)).2 j
  exact ⟨hr.none_iff, hr.pid_one, hkeep⟩

/-- From boot to `childTask`: task `7`, the first registered in the child namespace, is its
    child reaper. -/
theorem child_reaper_invariant_childTask :
    Relation.ReflTransGen Step init childTask ∧
      ((childTask.forest.ns 1).getChildReaper = none ↔ (childTask.forest.ns 1).nextPid = 1) ∧
      (∀ t, childTask.forest.findTaskByPidNs 1 1 = some t →
        (childTask.forest.ns 1).getChildReaper = some t) ∧
      (∀ t, (init.forest.ns 1).getChildReaper = some t →
        (childTask.forest.ns 1).getChildReaper = some t) :=
  have hrun : Relation.ReflTransGen Step init childTask :=
    .tail (.single (.clone init ⟨0, by decide⟩)) (.register _ 7 ⟨1, by decide⟩ rfl)
  ⟨hrun, child_reaper_invariant .refl hrun 1⟩

/-! ## Unregistering -/

/-- From boot, `unregister_task_pids` of a task from its owning namespace leaves it with no PID
    in any namespace: `task_pid_nr_ns` gives `0` and `find_task_by_pid_ns` finds it under no
    PID; every other task keeps its PIDs. -/
theorem unregister_from_owner (hs : Relation.ReflTransGen Step init s) {tid : Nat}
    {o : Fin s.forest.count} (ho : s.owner tid = some o.val) (j : Nat) :
    (s.unregister tid o).forest.taskPidNrNs tid j = 0 ∧
      (∀ p, (s.unregister tid o).forest.findTaskByPidNs p j ≠ some tid) ∧
      ∀ t, t ≠ tid → (s.unregister tid o).forest.taskPidNrNs t j = s.forest.taskPidNrNs t j := by
  have hinv := inv_init.run hs
  -- Namespace `j` forgets the task, and only it.
  have htid : ∀ t, ((s.unregister tid o).forest.ns j).tidMap t =
      if t = tid then none else (s.forest.ns j).tidMap t := by
    intro t
    rw [unregister, PidForest.unregisterTaskPids_ns]
    split_ifs with hj ht ht
    · rw [PidNamespace.unregister_tidMap_apply, if_pos ht]
    · rw [PidNamespace.unregister_tidMap_apply, if_neg ht]
    · -- Outside the owner's walk the task was never mapped.
      subst ht
      cases h : (s.forest.ns j).tidMap t with
      | none => rfl
      | some p =>
        obtain ⟨o', ho', hj'⟩ := hinv.visible j t p h
        rw [ho] at ho'
        cases ho'
        exact absurd hj' hj
    · rfl
  refine ⟨by simp [PidForest.taskPidNrNs, htid], fun p hp => ?_,
    fun t ht => by simp [PidForest.taskPidNrNs, htid, ht]⟩
  have hmap := (((hinv.step (.unregister s tid o)).ns_inv j).inverse p tid).1 hp
  rw [htid, if_pos rfl] at hmap
  cases hmap

theorem count_register (tid : Nat) (i : Fin s.forest.count) :
    (s.register tid i).forest.count = s.forest.count := by
  unfold register
  by_cases hl : (s.forest.ns i).nextPid < (s.forest.ns i).pidMax
  · rw [PidForest.registerTaskPids_of_lt tid i hl]; exact PidForest.foldl_update_count _ _
  · rw [PidForest.registerTaskPids_of_le tid i (Nat.le_of_not_lt hl)]

/-- The child namespace, which owns task `7` in `childTask`. -/
def childOwner : Fin childTask.forest.count := ⟨1, by rw [childTask, count_register]; decide⟩

/-- Task `7` unregistered from the child namespace that owns it is gone from `INIT_PID_NS`
    too. -/
theorem unregister_from_owner_childTask :
    Relation.ReflTransGen Step init childTask ∧ childTask.owner 7 = some childOwner.val ∧
      (childTask.unregister 7 childOwner).forest.taskPidNrNs 7 0 = 0 ∧
      (∀ p, (childTask.unregister 7 childOwner).forest.findTaskByPidNs p 0 ≠ some 7) ∧
      ∀ t, t ≠ 7 → (childTask.unregister 7 childOwner).forest.taskPidNrNs t 0 =
        childTask.forest.taskPidNrNs t 0 :=
  have hrun : Relation.ReflTransGen Step init childTask :=
    .tail (.single (.clone init ⟨0, by decide⟩)) (.register _ 7 ⟨1, by decide⟩ rfl)
  have ho : childTask.owner 7 = some childOwner.val := rfl
  ⟨hrun, ho, unregister_from_owner hrun ho 0⟩

end PidSystem

end HkKernel
