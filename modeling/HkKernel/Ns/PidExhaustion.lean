import HkKernel.Ns.Pid

/-!
# Registration under an ancestor with no PID left

`register_task_pids` returns the error of its first allocation, in the task's own namespace,
and then nothing has changed (`PidForest.registerTaskPids_of_le`). Its walk up the
ancestors drops their allocation errors (`if let Ok(ap) = ns.alloc_pid()`), so after a success
the task has a PID only in the ancestors that had one left
(`PidForest.taskPidNrNs_registerTaskPids`):

* `filled_fillInit`: from boot, `INIT_PID_NS` gets a child and then registers tasks until it
  has given out every PID below `pid_max`, each call a step of a run;
* `registerTaskPids_ok_without_ancestor_pid`: registering one more task in the child succeeds
  with PID `1`, and the task has no PID in `INIT_PID_NS`, the child's parent.
-/

namespace HkKernel.PidSystem

variable (s : PidSystem)

/-- `register_task_pids` of task `tid` in `INIT_PID_NS`. -/
def registerInInit (tid : Nat) : PidSystem :=
  if h : 0 < s.forest.count then s.register tid ⟨0, h⟩ else s

/-- `INIT_PID_NS` and a child of it, then the tasks `0, …, k - 1` registered in
    `INIT_PID_NS`. -/
def fillInit : Nat → PidSystem
  | 0 => init.clone ⟨0, Nat.one_pos⟩
  | k + 1 => (fillInit k).registerInInit k

/-- The child of `INIT_PID_NS` as `clone_ns` creates it. -/
def childNs : PidNamespace := ⟨1, 32768, 1, some 0, none, fun _ => none, fun _ => none⟩

/-- The state `fillInit k` reaches: `INIT_PID_NS` has given out PIDs `1..k` to the tasks below
    `k`, and its child is as created. -/
structure Filled (k : Nat) (s : PidSystem) : Prop where
  reach : Relation.ReflTransGen Step init s
  count : s.forest.count = 2
  nextPid : (s.forest.ns 0).nextPid = k + 1
  pidMax : (s.forest.ns 0).pidMax = 32768
  parent : (s.forest.ns 0).parent = none
  child : s.forest.ns 1 = childNs
  owner : ∀ t, s.owner t = if t < k then some 0 else none

variable {s}

theorem filled_zero : Filled 0 (fillInit 0) where
  reach := .single (.clone init ⟨0, Nat.one_pos⟩)
  count := rfl
  nextPid := rfl
  pidMax := rfl
  parent := rfl
  child := rfl
  owner _ := rfl

/-- Registering task `k` in `INIT_PID_NS` while it has PIDs left. -/
theorem Filled.registerInInit {k : Nat} (hs : Filled k s) (hk : k < 32767) :
    Filled (k + 1) (s.registerInInit k) := by
  have h0 : 0 < s.forest.count := by rw [hs.count]; decide
  have hl : (s.forest.ns 0).nextPid < (s.forest.ns 0).pidMax := by
    rw [hs.nextPid, hs.pidMax]; omega
  have hchain := PidForest.chain_of_none hs.parent
  have hreg : s.registerInInit k =
      ⟨s.forest.registerAll k [0], Function.update s.owner k (some 0)⟩ := by
    rw [PidSystem.registerInInit, dif_pos h0, register_of_lt k ⟨0, h0⟩ hl, hchain]
  have hns : ∀ j, (s.registerInInit k).forest.ns j =
      if j = 0 then (s.forest.ns 0).allocRegister k else s.forest.ns j := fun j => by
    have := @PidForest.registerAll_ns s.forest k 0 j
    simp only [hchain, List.mem_singleton] at this
    rw [hreg, this]
    split_ifs with h
    · rw [h]
    · rfl
  have halloc := (s.forest.ns 0).allocRegister_of_lt k hl
  refine ⟨?_, ?_, ?_, ?_, ?_, ?_, fun t => ?_⟩
  · rw [PidSystem.registerInInit, dif_pos h0]
    exact .tail hs.reach (.register s k ⟨0, h0⟩ (by rw [hs.owner, if_neg (lt_irrefl k)]))
  · rw [hreg]; exact (PidForest.foldl_update_count _ _).trans hs.count
  · rw [hns, if_pos rfl, halloc, hs.nextPid]
  · rw [hns, if_pos rfl, halloc, hs.pidMax]
  · rw [hns, if_pos rfl, halloc, hs.parent]
  · rw [hns, if_neg one_ne_zero, hs.child]
  · simp only [hreg, Function.update_apply, hs.owner]
    split_ifs <;> first | rfl | omega

theorem filled_fillInit {k : Nat} (hk : k ≤ 32767) : Filled k (fillInit k) := by
  induction k with
  | zero => exact filled_zero
  | succ k ih => exact (ih (by omega)).registerInInit (by omega)

/-- `INIT_PID_NS` with every PID given out, and its child with none. -/
def exhausted : PidSystem := fillInit 32767

theorem filled_exhausted : Filled 32767 exhausted := filled_fillInit le_rfl

/-- The child namespace in `exhausted`. -/
def childIndex : Fin exhausted.forest.count := ⟨1, by rw [filled_exhausted.count]; decide⟩

/-- In a state reached from boot where `INIT_PID_NS` has no PID left and its child has,
    registering a new task in the child succeeds with PID `1`, yet the task has no PID in
    `INIT_PID_NS`, the child's parent. -/
theorem registerTaskPids_ok_without_ancestor_pid :
    Relation.ReflTransGen Step init exhausted ∧ exhausted.forest.chain 1 = [0] ∧
      exhausted.owner 32767 = none ∧
      (exhausted.forest.registerTaskPids 32767 childIndex).2 = .ok 1 ∧
      (exhausted.forest.registerTaskPids 32767 childIndex).1.taskPidNrNs 32767 1 = 1 ∧
      (exhausted.forest.registerTaskPids 32767 childIndex).1.taskPidNrNs 32767 0 = 0 := by
  have hs := filled_exhausted
  have hi : (childIndex : Nat) = 1 := rfl
  have hchain : exhausted.forest.chain 1 = [0] := by
    rw [PidForest.chain_of_some (p := 0) (by rw [hs.child]; rfl),
      PidForest.chain_of_none hs.parent]
  have hl : (exhausted.forest.ns childIndex).nextPid < (exhausted.forest.ns childIndex).pidMax := by
    rw [hi, hs.child]; decide
  have hok : (exhausted.forest.registerTaskPids 32767 childIndex).2 = .ok 1 := by
    rw [PidForest.registerTaskPids_of_lt _ _ hl, hi, hs.child]; rfl
  have hfresh : exhausted.owner 32767 = none := by rw [hs.owner, if_neg (lt_irrefl _)]
  have hmem : ∀ j ∈ [1, 0], j ∈ childIndex.val :: exhausted.forest.chain childIndex := by
    rw [hi, hchain]; exact fun _ => id
  refine ⟨hs.reach, hchain, hfresh, hok, ?_, ?_⟩
  · rw [PidForest.taskPidNrNs_registerTaskPids hok (hmem 1 (by simp)), hs.child]; rfl
  · rw [PidForest.taskPidNrNs_registerTaskPids hok (hmem 0 (by simp)), hs.nextPid, hs.pidMax,
      if_neg (lt_irrefl _), PidForest.taskPidNrNs,
      (inv_init.run hs.reach).tidMap_eq_none hfresh 0]
    rfl

end HkKernel.PidSystem
