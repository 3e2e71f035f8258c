import HkKernel.Word

/-!
# PID namespaces

The PID namespaces (`ns/pid.rs`) form a tree from `INIT_PID_NS`: each namespace allocates
PIDs from `1` upward, below `pid_max`, and maps them to global task ids and back. A task gets
a fresh PID in its namespace and in every ancestor (`registerTaskPids`) and gives them all up
when it exits (`unregisterTaskPids`).

The namespaces created so far are a forest indexed by creation order (`PidForest`); a
namespace's parent, level and `pid_max` are fixed at creation, its lock-protected fields
(`next_pid`, `child_reaper`, `pid_map`, `tid_map`) change through `PidForest.update`. A parent
is always created before its children (`PidForest.parent_lt`), which is what makes the walk up
the parents (`PidForest.chain`) end. PIDs and `next_pid` are `u32` in the source and never
reach `pid_max = 32768`, so they are natural numbers here; task ids are natural numbers too.

A run (`PidSystem.Step`) clones namespaces and registers and unregisters tasks in any order; a
task is registered only while it is not registered already, and the namespace its successful
registration was given owns it until it is unregistered from there.

* `PidSystem.Inv.run`: the invariant `PidSystem.Inv` holds along every run;
* `PidSystem.Inv.pidsGrow_run`: along a run, no `next_pid` goes down and a PID, once mapped,
  is never mapped to another task;
* `PidSystem.pid_namespaces_invariant`: the two together, on every namespace of every state
  reached from boot.
-/

namespace HkKernel

/-- Maximum PID namespace nesting level (`MAX_PID_NS_LEVEL`). -/
def maxPidNsLevel : Nat := 32

/-- A PID namespace (`PidNamespace`); its parent is named by its index in the forest. -/
structure PidNamespace where
  /-- The next PID to allocate. -/
  nextPid : Nat
  pidMax : Nat
  /-- Nesting level: `0` for `INIT_PID_NS`. -/
  level : Nat
  parent : Option Nat
  /-- The task holding PID `1`. -/
  childReaper : Option Nat
  /-- PID to task id. -/
  pidMap : Nat → Option Nat
  /-- Task id to PID. -/
  tidMap : Nat → Option Nat

namespace PidNamespace

/-- `PidNamespace::new_init`: the root namespace. -/
def newInit : PidNamespace := ⟨1, 32768, 0, none, none, fun _ => none, fun _ => none⟩

variable (n : PidNamespace)

/-- `PidNamespace::alloc_pid`: the next PID, or `EAGAIN` (11) once `pid_max` is reached. -/
def allocPid : PidNamespace × Except Nat Nat :=
  if n.nextPid ≥ n.pidMax then (n, .error 11) else ({ n with nextPid := n.nextPid + 1 }, .ok n.nextPid)

/-- `PidNamespace::register`: both directions of the map; PID `1` becomes the child reaper
    if there is none. -/
def register (pid tid : Nat) : PidNamespace :=
  let n := { n with pidMap := Function.update n.pidMap pid (some tid),
                    tidMap := Function.update n.tidMap tid (some pid) }
  if pid = 1 ∧ n.childReaper = none then { n with childReaper := some tid } else n

/-- `PidNamespace::unregister`: removes the task, and its PID if it had one. -/
def unregister (tid : Nat) : PidNamespace :=
  let pid := n.tidMap tid
  let n := { n with tidMap := Function.update n.tidMap tid none }
  match pid with
  | some p => { n with pidMap := Function.update n.pidMap p none }
  | none => n

/-- The body of `register_task_pids`' loop: a fresh PID for `tid`, if one is left. -/
def allocRegister (tid : Nat) : PidNamespace :=
  match n.allocPid with
  | (n', .ok pid) => n'.register pid tid
  | (n', .error _) => n'

/-- `n` with the lock-protected fields of `n'`. -/
def withLocked (n' : PidNamespace) : PidNamespace :=
  { n with nextPid := n'.nextPid, childReaper := n'.childReaper, pidMap := n'.pidMap,
           tidMap := n'.tidMap }

/-! ### One namespace -/

/-- The invariant of one namespace: its two maps are inverse, and every PID it maps lies
    between `1` and `next_pid`, itself between `1` and `pid_max`. -/
structure Inv : Prop where
  inverse : ∀ p t, n.pidMap p = some t ↔ n.tidMap t = some p
  pid_lt : ∀ p t, n.pidMap p = some t → 1 ≤ p ∧ p < n.nextPid
  next_le : 1 ≤ n.nextPid ∧ n.nextPid ≤ n.pidMax

variable {n}

theorem inv_newInit : newInit.Inv := ⟨by simp [newInit], by simp [newInit], by simp [newInit]⟩

/-- What `alloc_pid` and `register` do when a PID is left. -/
theorem allocRegister_of_lt (tid : Nat) (h : n.nextPid < n.pidMax) :
    n.allocRegister tid =
      { n with nextPid := n.nextPid + 1,
               childReaper := if n.nextPid = 1 ∧ n.childReaper = none then some tid
                 else n.childReaper,
               pidMap := Function.update n.pidMap n.nextPid (some tid),
               tidMap := Function.update n.tidMap tid (some n.nextPid) } := by
  simp only [allocRegister, allocPid, if_neg (Nat.not_le.2 h), register]
  split_ifs <;> rfl

/-- When none is left, nothing changes. -/
theorem allocRegister_of_le (tid : Nat) (h : n.pidMax ≤ n.nextPid) : n.allocRegister tid = n := by
  simp [allocRegister, allocPid, h]

theorem withLocked_allocRegister (tid : Nat) :
    n.withLocked (n.allocRegister tid) = n.allocRegister tid := by
  by_cases h : n.nextPid < n.pidMax
  · rw [allocRegister_of_lt tid h]; rfl
  · rw [allocRegister_of_le tid (Nat.le_of_not_lt h)]; rfl

theorem unregister_eq (tid : Nat) :
    n.unregister tid =
      { n with tidMap := Function.update n.tidMap tid none,
               pidMap := (n.tidMap tid).elim n.pidMap fun p => Function.update n.pidMap p none } := by
  unfold unregister
  cases n.tidMap tid <;> rfl

theorem withLocked_unregister (tid : Nat) : n.withLocked (n.unregister tid) = n.unregister tid := by
  rw [unregister_eq]; rfl

theorem unregister_nextPid (tid : Nat) : (n.unregister tid).nextPid = n.nextPid := by
  rw [unregister_eq]

/-- `unregister` only removes PIDs. -/
theorem unregister_pidMap {tid p t : Nat} (h : (n.unregister tid).pidMap p = some t) :
    n.pidMap p = some t := by
  rw [unregister_eq] at h
  cases hq : n.tidMap tid with
  | none => simpa [hq] using h
  | some q =>
    simp only [hq, Option.elim, Function.update_apply] at h
    split_ifs at h
    exact h

theorem le_allocRegister_nextPid (tid : Nat) : n.nextPid ≤ (n.allocRegister tid).nextPid := by
  by_cases h : n.nextPid < n.pidMax
  · rw [allocRegister_of_lt tid h]; exact Nat.le_succ _
  · rw [allocRegister_of_le tid (Nat.le_of_not_lt h)]

/-- `alloc_pid` and `register` map only the PID `next_pid`. -/
theorem allocRegister_pidMap {tid p t : Nat} (h : (n.allocRegister tid).pidMap p = some t) :
    n.pidMap p = some t ∨ n.nextPid ≤ p := by
  by_cases hl : n.nextPid < n.pidMax
  · simp only [allocRegister_of_lt tid hl, Function.update_apply] at h
    split_ifs at h with hp
    · exact .inr hp.ge
    · exact .inl h
  · rw [allocRegister_of_le tid (Nat.le_of_not_lt hl)] at h; exact .inl h

/-- ... and add only the task `tid`. -/
theorem allocRegister_tidMap {tid t p : Nat} (h : (n.allocRegister tid).tidMap t = some p) :
    n.tidMap t = some p ∨ t = tid := by
  by_cases hl : n.nextPid < n.pidMax
  · simp only [allocRegister_of_lt tid hl, Function.update_apply] at h
    split_ifs at h with ht
    · exact .inr ht
    · exact .inl h
  · rw [allocRegister_of_le tid (Nat.le_of_not_lt hl)] at h; exact .inl h

/-- `unregister` removes the task `tid` and no other. -/
theorem unregister_tidMap {tid t p : Nat} (h : (n.unregister tid).tidMap t = some p) :
    n.tidMap t = some p ∧ t ≠ tid := by
  simp only [unregister_eq, Function.update_apply] at h
  split_ifs at h with ht
  exact ⟨h, ht⟩

/-- `n'` is `n` later on: `next_pid` has not gone down, and every PID `n'` maps was mapped to
    the same task in `n` or was not allocated yet. -/
def Grows (n n' : PidNamespace) : Prop :=
  n.nextPid ≤ n'.nextPid ∧ ∀ p t, n'.pidMap p = some t → n.pidMap p = some t ∨ n.nextPid ≤ p

theorem Grows.refl (n : PidNamespace) : n.Grows n := ⟨le_rfl, fun _ _ h => .inl h⟩

theorem Grows.trans {n' n'' : PidNamespace} (h : n.Grows n') (h' : n'.Grows n'') : n.Grows n'' :=
  ⟨h.1.trans h'.1, fun p t hp =>
    (h'.2 p t hp).elim (h.2 p t) fun hle => .inr (h.1.trans hle)⟩

theorem grows_allocRegister (tid : Nat) : n.Grows (n.allocRegister tid) :=
  ⟨le_allocRegister_nextPid tid, fun _ _ => allocRegister_pidMap⟩

theorem grows_unregister (tid : Nat) : n.Grows (n.unregister tid) :=
  ⟨(unregister_nextPid tid).ge, fun _ _ h => .inl (unregister_pidMap h)⟩

/-- A PID mapped in `n` is mapped to no other task later on. -/
theorem Grows.pidMap_eq (hn : n.Inv) {n' : PidNamespace} (h : n.Grows n') {p t t' : Nat}
    (hp : n.pidMap p = some t) (hp' : n'.pidMap p = some t') : t = t' := by
  have := (hn.pid_lt p t hp).2
  rcases h.2 p t' hp' with hp'' | hle
  · exact Option.some.inj (hp.symm.trans hp'')
  · omega

theorem Inv.allocRegister (hn : n.Inv) {tid : Nat} (hfresh : n.tidMap tid = none) :
    (n.allocRegister tid).Inv := by
  by_cases h : n.nextPid < n.pidMax
  · rw [allocRegister_of_lt tid h]
    refine ⟨fun p t => ?_, fun p t hp => ?_, by dsimp only; omega⟩
    · -- The new PID is above every mapped one, and the task had none.
      dsimp only
      rw [Function.update_apply, Function.update_apply]
      by_cases hp : p = n.nextPid <;> by_cases ht : t = tid
      · subst hp ht; simp
      · rw [if_pos hp, if_neg ht]
        refine iff_of_false (fun h => ht (Option.some.inj h).symm) (fun h => ?_)
        have := (hn.pid_lt _ _ ((hn.inverse _ _).2 h)).2; omega
      · rw [if_neg hp, if_pos ht]
        refine iff_of_false (fun h => ?_) (fun h => hp (Option.some.inj h).symm)
        subst ht; rw [(hn.inverse _ _).1 h] at hfresh; cases hfresh
      · rw [if_neg hp, if_neg ht]; exact hn.inverse p t
    · dsimp only at hp ⊢
      rw [Function.update_apply] at hp
      split_ifs at hp with he
      · have := hn.next_le; omega
      · have := hn.pid_lt p t hp; omega
  · rwa [allocRegister_of_le tid (Nat.le_of_not_lt h)]

theorem Inv.unregister (hn : n.Inv) (tid : Nat) : (n.unregister tid).Inv := by
  refine ⟨fun p t => ?_, fun p t h => ?_, by rw [unregister_eq]; exact hn.next_le⟩
  · rw [unregister_eq]
    dsimp only
    cases hq : n.tidMap tid with
    | none =>
      -- The task had no PID, so no PID maps to it.
      show n.pidMap p = some t ↔ _
      rw [Function.update_apply]
      by_cases ht : t = tid
      · rw [if_pos ht]
        refine iff_of_false (fun h => ?_) (fun h => by cases h)
        subst ht; rw [(hn.inverse _ _).1 h] at hq; cases hq
      · rw [if_neg ht]; exact hn.inverse p t
    | some q =>
      -- Its PID `q` is removed with it.
      have hpq := (hn.inverse q tid).2 hq
      show Function.update n.pidMap q none p = some t ↔ _
      rw [Function.update_apply, Function.update_apply]
      by_cases hp : p = q <;> by_cases ht : t = tid
      · rw [if_pos hp, if_pos ht]; exact iff_of_false (by simp) (by simp)
      · rw [if_pos hp, if_neg ht]
        refine iff_of_false (by simp) (fun h => ht ?_)
        have := (hn.inverse _ _).2 h
        rw [hp, hpq] at this; exact (Option.some.inj this).symm
      · rw [if_neg hp, if_pos ht]
        refine iff_of_false (fun h => hp ?_) (by simp)
        have := (hn.inverse _ _).1 h
        rw [ht, hq] at this; exact (Option.some.inj this).symm
      · rw [if_neg hp, if_neg ht]; exact hn.inverse p t
  · rw [unregister_nextPid]; exact hn.pid_lt p t (unregister_pidMap h)

end PidNamespace

/-- The PID namespaces created so far, `0` being `INIT_PID_NS`; slots from `count` on are
    unused. A parent comes before its children. -/
structure PidForest where
  ns : Nat → PidNamespace
  count : Nat
  parent_lt : ∀ i p, (ns i).parent = some p → p < i

namespace PidForest

variable (f : PidForest)

/-- Only `INIT_PID_NS`. -/
def init : PidForest := ⟨fun _ => .newInit, 1, fun _ _ h => by cases h⟩

/-- Namespace `i` after `g` changes its lock-protected fields. -/
def update (i : Nat) (g : PidNamespace → PidNamespace) : PidForest where
  ns := Function.update f.ns i ((f.ns i).withLocked (g (f.ns i)))
  count := f.count
  parent_lt j p h := by
    by_cases hj : j = i
    · subst hj; exact f.parent_lt j p (by simpa [PidNamespace.withLocked] using h)
    · exact f.parent_lt j p (by simpa [hj] using h)

/-- The ancestors of namespace `i`, from its parent up: the namespaces `register_task_pids`
    and `unregister_task_pids` walk to. -/
def chain (i : Nat) : List Nat :=
  match h : (f.ns i).parent with
  | none => []
  | some p =>
    have : p < i := f.parent_lt i p h
    p :: chain p
termination_by i

/-- `PidNamespace::clone_ns`: a child of `parent`, or `EAGAIN` (11) at the maximum level; the
    forest after, and the new namespace's index. -/
def cloneNs (parent : Fin f.count) : PidForest × Except Nat Nat :=
  let p := f.ns parent
  if p.level ≥ maxPidNsLevel then (f, .error 11)
  else
    ({ ns := Function.update f.ns f.count
          ⟨1, p.pidMax, p.level + 1, some parent, none, fun _ => none, fun _ => none⟩
       count := f.count + 1
       parent_lt := fun j q h => by
         by_cases hj : j = f.count
         · subst hj; simp at h; omega
         · exact f.parent_lt j q (by simpa [hj] using h) },
     .ok f.count)

/-- The ancestor loop of `register_task_pids`, and its first step on the task's own
    namespace. -/
def registerAll (tid : Nat) (l : List Nat) : PidForest :=
  l.foldl (fun g a => g.update a (·.allocRegister tid)) f

/-- `register_task_pids`: a fresh PID in namespace `i`, or the error of its allocation with
    nothing changed; then a fresh PID in each ancestor that has one left. -/
def registerTaskPids (tid : Nat) (i : Fin f.count) : PidForest × Except Nat Nat :=
  match (f.ns i).allocPid with
  | (_, .error e) => (f, .error e)
  | (_, .ok pid) => (f.registerAll tid (i :: f.chain i), .ok pid)

/-- `unregister_task_pids`: the task removed from namespace `i` and its ancestors. -/
def unregisterTaskPids (tid : Nat) (i : Fin f.count) : PidForest :=
  (i.val :: f.chain i).foldl (fun g a => g.update a (·.unregister tid)) f

/-- `task_pid_nr_ns`: the task's PID in namespace `i`, `0` if it has none. -/
def taskPidNrNs (tid i : Nat) : Nat := ((f.ns i).tidMap tid).getD 0

/-- `find_task_by_pid_ns`. -/
def findTaskByPidNs (pid i : Nat) : Option Nat := (f.ns i).pidMap pid

/-! ### The forest -/

variable {f}

theorem update_ns (i : Nat) (g : PidNamespace → PidNamespace) (j : Nat) :
    (f.update i g).ns j = if j = i then (f.ns i).withLocked (g (f.ns i)) else f.ns j :=
  Function.update_apply _ _ _ _

theorem chain_of_none {i : Nat} (h : (f.ns i).parent = none) : f.chain i = [] := by
  rw [chain]; split <;> simp_all

theorem chain_of_some {i p : Nat} (h : (f.ns i).parent = some p) : f.chain i = p :: f.chain p := by
  rw [chain]; split <;> simp_all

/-- The walk up from `i` only meets namespaces created before `i`, each before the last. -/
theorem chain_pairwise (i : Nat) : (i :: f.chain i).Pairwise (· > ·) := by
  induction i using Nat.strong_induction_on with
  | _ i ih =>
    cases hp : (f.ns i).parent with
    | none => simp [chain_of_none hp]
    | some p =>
      have hpi := f.parent_lt i p hp
      have ihp := ih p hpi
      rw [chain_of_some hp]
      refine List.Pairwise.cons (fun a ha => ?_) ihp
      rcases List.mem_cons.1 ha with rfl | ha
      · exact hpi
      · exact lt_trans (List.rel_of_pairwise_cons ihp ha) hpi

theorem lt_of_mem_chain {i a : Nat} (h : a ∈ f.chain i) : a < i :=
  List.rel_of_pairwise_cons (chain_pairwise i) h

theorem nodup_chain (i : Nat) : (i :: f.chain i).Nodup :=
  (chain_pairwise i).imp fun h => Nat.ne_of_gt h

/-- The walk up from `i` depends only on the parents of the namespaces up to `i`. -/
theorem chain_congr {f' : PidForest} {i : Nat}
    (h : ∀ j ≤ i, (f.ns j).parent = (f'.ns j).parent) : f.chain i = f'.chain i := by
  induction i using Nat.strong_induction_on with
  | _ i ih =>
    cases hp : (f.ns i).parent with
    | none => rw [chain_of_none hp, chain_of_none ((h i le_rfl).symm.trans hp)]
    | some p =>
      have hpi := f.parent_lt i p hp
      rw [chain_of_some hp, chain_of_some ((h i le_rfl).symm.trans hp),
        ih p hpi fun j hj => h j (by omega)]

theorem update_parent (i : Nat) (g : PidNamespace → PidNamespace) (j : Nat) :
    ((f.update i g).ns j).parent = (f.ns j).parent := by
  rw [update_ns]; split_ifs with h
  · subst h; rfl
  · rfl

theorem chain_update (i : Nat) (g : PidNamespace → PidNamespace) (j : Nat) :
    (f.update i g).chain j = f.chain j :=
  chain_congr fun k _ => update_parent i g k

/-- Updating the namespaces of a list without repeats, each by `g`. -/
theorem foldl_update_ns (g : PidNamespace → PidNamespace) {l : List Nat} (hl : l.Nodup)
    (j : Nat) :
    (l.foldl (fun h a => h.update a g) f).ns j =
      if j ∈ l then (f.ns j).withLocked (g (f.ns j)) else f.ns j := by
  induction l generalizing f with
  | nil => simp
  | cons a l ih =>
    rw [List.nodup_cons] at hl
    rw [List.foldl_cons, ih hl.2, update_ns]
    by_cases ha : j = a
    · subst ha; simp [hl.1]
    · simp [ha]

theorem foldl_update_count (g : PidNamespace → PidNamespace) (l : List Nat) :
    (l.foldl (fun h a => h.update a g) f).count = f.count := by
  induction l generalizing f with
  | nil => rfl
  | cons a l ih => exact ih

/-- `register_task_pids`, when its first allocation succeeds: a fresh PID in `i` and each
    ancestor that has one left, nothing else changed. -/
theorem registerAll_ns (tid : Nat) (i j : Nat) :
    (f.registerAll tid (i :: f.chain i)).ns j =
      if j ∈ i :: f.chain i then (f.ns j).allocRegister tid else f.ns j := by
  rw [registerAll, foldl_update_ns _ (nodup_chain i), PidNamespace.withLocked_allocRegister]

theorem unregisterTaskPids_ns (tid : Nat) (i : Fin f.count) (j : Nat) :
    (f.unregisterTaskPids tid i).ns j =
      if j ∈ i.val :: f.chain i then (f.ns j).unregister tid else f.ns j := by
  rw [unregisterTaskPids, foldl_update_ns _ (nodup_chain i), PidNamespace.withLocked_unregister]

theorem chain_foldl_update (g : PidNamespace → PidNamespace) (l : List Nat) (k : Nat) :
    (l.foldl (fun h a => h.update a g) f).chain k = f.chain k := by
  induction l generalizing f with
  | nil => rfl
  | cons a l ih => rw [List.foldl_cons, ih, chain_update]

theorem le_of_mem_chain {i j : Nat} (h : j ∈ i :: f.chain i) : j ≤ i := by
  rcases List.mem_cons.1 h with rfl | h
  · exact le_rfl
  · exact (lt_of_mem_chain h).le

/-- A slot past the last namespace is neither `i` nor one of its ancestors. -/
theorem not_mem_chain_of_le (i : Fin f.count) {j : Nat} (hj : f.count ≤ j) :
    j ∉ i.val :: f.chain i := fun h =>
  Nat.not_le_of_lt (lt_of_le_of_lt (le_of_mem_chain h) i.isLt) hj

/-- What `clone_ns` does below the maximum level: a fresh namespace in the next slot. -/
theorem cloneNs_of_lt (parent : Fin f.count) (h : (f.ns parent).level < maxPidNsLevel) :
    (f.cloneNs parent).1.ns = Function.update f.ns f.count
        ⟨1, (f.ns parent).pidMax, (f.ns parent).level + 1, some parent, none, fun _ => none,
          fun _ => none⟩ ∧
      (f.cloneNs parent).1.count = f.count + 1 := by
  simp [cloneNs, Nat.not_le.2 h]

theorem cloneNs_of_le (parent : Fin f.count) (h : maxPidNsLevel ≤ (f.ns parent).level) :
    f.cloneNs parent = (f, .error 11) :=
  if_pos h

theorem registerTaskPids_of_lt (tid : Nat) (i : Fin f.count)
    (h : (f.ns i).nextPid < (f.ns i).pidMax) :
    f.registerTaskPids tid i = (f.registerAll tid (i :: f.chain i), .ok (f.ns i).nextPid) := by
  simp [registerTaskPids, PidNamespace.allocPid, Nat.not_le.2 h]

theorem registerTaskPids_of_le (tid : Nat) (i : Fin f.count)
    (h : (f.ns i).pidMax ≤ (f.ns i).nextPid) : f.registerTaskPids tid i = (f, .error 11) := by
  simp [registerTaskPids, PidNamespace.allocPid, h]

/-- After a successful `register_task_pids`, the task's PID in each namespace of the walk is
    the PID that namespace had next if it had one left, and what it was before if not. -/
theorem taskPidNrNs_registerTaskPids {tid : Nat} {i : Fin f.count} {pid : Nat}
    (h : (f.registerTaskPids tid i).2 = .ok pid) {j : Nat} (hj : j ∈ i.val :: f.chain i) :
    (f.registerTaskPids tid i).1.taskPidNrNs tid j =
      if (f.ns j).nextPid < (f.ns j).pidMax then (f.ns j).nextPid else f.taskPidNrNs tid j := by
  by_cases hl : (f.ns i).nextPid < (f.ns i).pidMax
  · rw [registerTaskPids_of_lt tid i hl]
    simp only [taskPidNrNs, registerAll_ns, if_pos hj]
    split_ifs with hj'
    · simp [PidNamespace.allocRegister_of_lt tid hj']
    · rw [PidNamespace.allocRegister_of_le tid (Nat.le_of_not_lt hj')]
  · rw [registerTaskPids_of_le tid i (Nat.le_of_not_lt hl)] at h; cases h

end PidForest

/-! ## Runs -/

/-- The PID namespaces, and the namespace that owns each registered task: the `pid_ns` its
    successful `register_task_pids` was given. -/
structure PidSystem where
  forest : PidForest
  owner : Nat → Option Nat

namespace PidSystem

/-- Boot: `INIT_PID_NS` alone, and no task. -/
def init : PidSystem := ⟨.init, fun _ => none⟩

variable (s : PidSystem)

/-- `clone_ns` of namespace `parent`. -/
def clone (parent : Fin s.forest.count) : PidSystem := ⟨(s.forest.cloneNs parent).1, s.owner⟩

/-- `register_task_pids` of task `tid` in namespace `i`, which owns the task if the call
    succeeds. -/
def register (tid : Nat) (i : Fin s.forest.count) : PidSystem :=
  match s.forest.registerTaskPids tid i with
  | (f, .ok _) => ⟨f, Function.update s.owner tid (some i.val)⟩
  | (f, .error _) => ⟨f, s.owner⟩

/-- `unregister_task_pids` of task `tid` from namespace `i`; the task is unregistered if `i`
    owns it. -/
def unregister (tid : Nat) (i : Fin s.forest.count) : PidSystem :=
  ⟨s.forest.unregisterTaskPids tid i,
    if s.owner tid = some i.val then Function.update s.owner tid none else s.owner⟩

/-- One call: a namespace cloned, a task that is not registered registered, or a task
    unregistered from any namespace. -/
inductive Step : PidSystem → PidSystem → Prop
  | clone (s : PidSystem) (parent : Fin s.forest.count) : Step s (s.clone parent)
  | register (s : PidSystem) (tid : Nat) (i : Fin s.forest.count) (hfresh : s.owner tid = none) :
      Step s (s.register tid i)
  | unregister (s : PidSystem) (tid : Nat) (i : Fin s.forest.count) : Step s (s.unregister tid i)

/-- The invariant: each namespace's own invariant; unused slots untouched; owners exist; and a
    task is mapped only in its owning namespace and that namespace's ancestors. -/
structure Inv : Prop where
  ns_inv : ∀ j, (s.forest.ns j).Inv
  unused : ∀ j, s.forest.count ≤ j → s.forest.ns j = .newInit
  owner_lt : ∀ t o, s.owner t = some o → o < s.forest.count
  visible : ∀ j t p, (s.forest.ns j).tidMap t = some p →
    ∃ o, s.owner t = some o ∧ j ∈ o :: s.forest.chain o

/-- Every namespace of `s'` is its namespace in `s` later on. -/
def PidsGrow (s s' : PidSystem) : Prop := ∀ j, (s.forest.ns j).Grows (s'.forest.ns j)

variable {s}

theorem inv_init : init.Inv where
  ns_inv _ := PidNamespace.inv_newInit
  unused _ _ := rfl
  owner_lt _ _ h := by cases h
  visible _ _ _ h := by cases h

theorem register_of_lt (tid : Nat) (i : Fin s.forest.count)
    (h : (s.forest.ns i).nextPid < (s.forest.ns i).pidMax) :
    s.register tid i =
      ⟨s.forest.registerAll tid (i :: s.forest.chain i), Function.update s.owner tid (some i.val)⟩ := by
  simp only [register, PidForest.registerTaskPids_of_lt tid i h]

theorem register_of_le (tid : Nat) (i : Fin s.forest.count)
    (h : (s.forest.ns i).pidMax ≤ (s.forest.ns i).nextPid) : s.register tid i = s := by
  simp only [register, PidForest.registerTaskPids_of_le tid i h]

/-- A task that is not registered is in no namespace's map. -/
theorem Inv.tidMap_eq_none (hs : s.Inv) {tid : Nat} (hfresh : s.owner tid = none) (j : Nat) :
    (s.forest.ns j).tidMap tid = none := by
  cases h : (s.forest.ns j).tidMap tid with
  | none => rfl
  | some p =>
    obtain ⟨o, ho, -⟩ := hs.visible j tid p h
    rw [hfresh] at ho; cases ho

theorem Inv.clone (hs : s.Inv) (parent : Fin s.forest.count) : (s.clone parent).Inv := by
  by_cases hl : (s.forest.ns parent).level < maxPidNsLevel
  · obtain ⟨hns, hcount⟩ := s.forest.cloneNs_of_lt parent hl
    -- The ancestors of an existing namespace are unchanged.
    have hchain : ∀ o, o < s.forest.count → (s.clone parent).forest.chain o = s.forest.chain o :=
      fun o ho => PidForest.chain_congr fun k hk => by
        simp only [PidSystem.clone, hns, Function.update_apply, if_neg (show k ≠ s.forest.count by omega)]
    refine ⟨fun j => ?_, fun j hj => ?_, fun t o h => ?_, fun j t p h => ?_⟩
    · simp only [PidSystem.clone, hns, Function.update_apply]
      split_ifs
      · have := (hs.ns_inv parent).next_le
        exact ⟨by simp, by simp, by dsimp only; omega⟩
      · exact hs.ns_inv j
    · simp only [PidSystem.clone, hns, hcount, Function.update_apply] at hj ⊢
      rw [if_neg (by omega)]; exact hs.unused j (by omega)
    · simp only [PidSystem.clone, hcount]; have := hs.owner_lt t o h; omega
    · simp only [PidSystem.clone, hns, Function.update_apply] at h
      -- The new namespace maps no task.
      split_ifs at h
      obtain ⟨o, ho, hj⟩ := hs.visible j t p h
      exact ⟨o, ho, by rwa [hchain o (hs.owner_lt t o ho)]⟩
  · simpa [PidSystem.clone, s.forest.cloneNs_of_le parent (Nat.le_of_not_lt hl)] using hs

theorem Inv.register (hs : s.Inv) {tid : Nat} (i : Fin s.forest.count)
    (hfresh : s.owner tid = none) : (s.register tid i).Inv := by
  by_cases hl : (s.forest.ns i).nextPid < (s.forest.ns i).pidMax
  · rw [register_of_lt tid i hl]
    have hchain := PidForest.chain_foldl_update (f := s.forest)
      (·.allocRegister tid) (i.val :: s.forest.chain i)
    refine ⟨fun j => ?_, fun j hj => ?_, fun t o h => ?_, fun j t p h => ?_⟩
    · rw [PidForest.registerAll_ns]
      split_ifs
      · exact (hs.ns_inv j).allocRegister (hs.tidMap_eq_none hfresh j)
      · exact hs.ns_inv j
    · rw [PidForest.registerAll, PidForest.foldl_update_count] at hj
      rw [PidForest.registerAll_ns, if_neg (PidForest.not_mem_chain_of_le i hj)]
      exact hs.unused j hj
    · rw [PidForest.registerAll, PidForest.foldl_update_count]
      dsimp only at h
      rw [Function.update_apply] at h
      split_ifs at h
      · cases h; exact i.isLt
      · exact hs.owner_lt t o h
    · rw [PidForest.registerAll_ns] at h
      simp only [PidForest.registerAll, hchain]
      -- An old entry belongs to an older task, whose owner is unchanged.
      have old : (s.forest.ns j).tidMap t = some p →
          ∃ o, Function.update s.owner tid (some i.val) t = some o ∧ j ∈ o :: s.forest.chain o :=
        fun h => by
          obtain ⟨o, ho, hj⟩ := hs.visible j t p h
          have ht : t ≠ tid := by rintro rfl; rw [hfresh] at ho; cases ho
          exact ⟨o, by rwa [Function.update_noteq ht], hj⟩
      split_ifs at h with hj
      · rcases PidNamespace.allocRegister_tidMap h with h | rfl
        · exact old h
        · exact ⟨i, Function.update_same _ _ _, hj⟩
      · exact old h
  · rwa [register_of_le tid i (Nat.le_of_not_lt hl)]

theorem Inv.unregister (hs : s.Inv) (tid : Nat) (i : Fin s.forest.count) :
    (s.unregister tid i).Inv := by
  have hchain := PidForest.chain_foldl_update (f := s.forest)
    (·.unregister tid) (i.val :: s.forest.chain i)
  have hcount := PidForest.foldl_update_count (f := s.forest)
    (·.unregister tid) (i.val :: s.forest.chain i)
  -- The owner function only loses `tid`, and only if `i` owns it.
  have howner : ∀ t o, (if s.owner tid = some i.val then Function.update s.owner tid none
      else s.owner) t = some o → s.owner t = some o := fun t o h => by
    split_ifs at h
    · rw [Function.update_apply] at h; split_ifs at h; exact h
    · exact h
  refine ⟨fun j => ?_, fun j hj => ?_, fun t o h => ?_, fun j t p h => ?_⟩
  · rw [PidSystem.unregister, PidForest.unregisterTaskPids_ns]
    split_ifs
    · exact (hs.ns_inv j).unregister tid
    · exact hs.ns_inv j
  · simp only [PidSystem.unregister, PidForest.unregisterTaskPids, hcount] at hj
    rw [PidSystem.unregister, PidForest.unregisterTaskPids_ns,
      if_neg (PidForest.not_mem_chain_of_le i hj)]
    exact hs.unused j hj
  · simp only [PidSystem.unregister, PidForest.unregisterTaskPids, hcount]
    exact hs.owner_lt t o (howner t o h)
  · simp only [PidSystem.unregister, PidForest.unregisterTaskPids_ns] at h ⊢
    simp only [PidForest.unregisterTaskPids, hchain]
    split_ifs at h with hj
    · -- Inside `i` and its ancestors the task `tid` is gone; the others keep their owner.
      obtain ⟨h, ht⟩ := PidNamespace.unregister_tidMap h
      obtain ⟨o, ho, hjo⟩ := hs.visible j t p h
      refine ⟨o, ?_, hjo⟩
      split_ifs
      · rwa [Function.update_noteq ht]
      · exact ho
    · -- Outside them, a task owned by `i` had no entry.
      obtain ⟨o, ho, hjo⟩ := hs.visible j t p h
      refine ⟨o, ?_, hjo⟩
      split_ifs with hi
      · have ht : t ≠ tid := by
          rintro rfl; rw [hi] at ho; cases ho; exact hj hjo
        rwa [Function.update_noteq ht]
      · exact ho

theorem Inv.step (hs : s.Inv) {s' : PidSystem} (h : Step s s') : s'.Inv := by
  cases h with
  | clone parent => exact hs.clone parent
  | register tid i hfresh => exact hs.register i hfresh
  | unregister tid i => exact hs.unregister tid i

theorem Inv.run (hs : s.Inv) {s' : PidSystem} (h : Relation.ReflTransGen Step s s') : s'.Inv := by
  induction h with
  | refl => exact hs
  | tail _ hstep ih => exact ih.step hstep

theorem Inv.pidsGrow_step (hs : s.Inv) {s' : PidSystem} (h : Step s s') : PidsGrow s s' := by
  intro j
  cases h with
  | clone parent =>
    by_cases hl : (s.forest.ns parent).level < maxPidNsLevel
    · simp only [PidSystem.clone, (s.forest.cloneNs_of_lt parent hl).1, Function.update_apply]
      split_ifs with hj
      · -- The new namespace replaces an unused slot.
        rw [hj, hs.unused _ le_rfl]
        exact ⟨le_rfl, fun _ _ h => .inl h⟩
      · exact .refl _
    · simp only [PidSystem.clone, s.forest.cloneNs_of_le parent (Nat.le_of_not_lt hl)]
      exact .refl _
  | register tid i _ =>
    by_cases hl : (s.forest.ns i).nextPid < (s.forest.ns i).pidMax
    · rw [register_of_lt tid i hl]
      dsimp only
      rw [PidForest.registerAll_ns]
      split_ifs
      · exact PidNamespace.grows_allocRegister tid
      · exact .refl _
    · rw [register_of_le tid i (Nat.le_of_not_lt hl)]
      exact .refl _
  | unregister tid i =>
    simp only [PidSystem.unregister, PidForest.unregisterTaskPids_ns]
    split_ifs
    · exact PidNamespace.grows_unregister tid
    · exact .refl _

theorem Inv.pidsGrow_run (hs : s.Inv) {s' : PidSystem} (h : Relation.ReflTransGen Step s s') :
    PidsGrow s s' := by
  induction h with
  | refl => exact fun j => .refl _
  | tail hrun hstep ih => exact fun j => (ih j).trans ((hs.run hrun).pidsGrow_step hstep j)

/-- Along every run from a reachable state `s` to `s'`, each namespace `j` keeps its two maps
    inverse and its PIDs in `[1, pid_max)`; a PID mapped in `s` is mapped to no other task in
    `s'`, and the PIDs mapped since are allocated from `s`'s `next_pid` on, which never goes
    down; a task is mapped in `j` only if it is registered and `j` is its owning namespace or
    an ancestor of it, so that `task_pid_nr_ns` is `0` in every other namespace. -/
theorem pid_namespaces_invariant {s s' : PidSystem} (hs : Relation.ReflTransGen Step init s)
    (hrun : Relation.ReflTransGen Step s s') (j : Nat) :
    (∀ p t, (s'.forest.ns j).pidMap p = some t ↔ (s'.forest.ns j).tidMap t = some p) ∧
    (∀ p t, (s'.forest.ns j).pidMap p = some t → 1 ≤ p ∧ p < (s'.forest.ns j).pidMax) ∧
    (∀ p t t', (s.forest.ns j).pidMap p = some t → (s'.forest.ns j).pidMap p = some t' →
      t = t') ∧
    (s.forest.ns j).nextPid ≤ (s'.forest.ns j).nextPid ∧
    (∀ p t, (s'.forest.ns j).pidMap p = some t →
      (s.forest.ns j).pidMap p = some t ∨ (s.forest.ns j).nextPid ≤ p) ∧
    (∀ t p, (s'.forest.ns j).tidMap t = some p →
      ∃ o, s'.owner t = some o ∧ j ∈ o :: s'.forest.chain o) ∧
    (∀ t, (∀ o, s'.owner t = some o → j ∉ o :: s'.forest.chain o) →
      s'.forest.taskPidNrNs t j = 0) := by
  have hinv := inv_init.run hs
  have hinv' := hinv.run hrun
  have hgrow := hinv.pidsGrow_run hrun j
  have hn := hinv'.ns_inv j
  refine ⟨hn.inverse, fun p t h => ?_, fun p t t' => hgrow.pidMap_eq (hinv.ns_inv j),
    hgrow.1, hgrow.2, hinv'.visible j, fun t ht => ?_⟩
  · have := hn.pid_lt p t h; have := hn.next_le; omega
  · -- A task mapped in `j` would be owned by a namespace below `j`.
    cases h : (s'.forest.ns j).tidMap t with
    | none => simp [PidForest.taskPidNrNs, h]
    | some p =>
      obtain ⟨o, ho, hj⟩ := hinv'.visible j t p h
      exact absurd hj (ht o ho)

/-- `INIT_PID_NS`, a child of it, and task `7` registered in the child. -/
def childTask : PidSystem := (init.clone ⟨0, by decide⟩).register 7 ⟨1, by decide⟩

theorem pid_namespaces_invariant_childTask :
    Relation.ReflTransGen Step init childTask ∧
    (∀ p t, (childTask.forest.ns 0).pidMap p = some t ↔
      (childTask.forest.ns 0).tidMap t = some p) ∧
    (∀ p t, (childTask.forest.ns 0).pidMap p = some t →
      1 ≤ p ∧ p < (childTask.forest.ns 0).pidMax) ∧
    (∀ p t t', (init.forest.ns 0).pidMap p = some t → (childTask.forest.ns 0).pidMap p = some t' →
      t = t') ∧
    (init.forest.ns 0).nextPid ≤ (childTask.forest.ns 0).nextPid ∧
    (∀ p t, (childTask.forest.ns 0).pidMap p = some t →
      (init.forest.ns 0).pidMap p = some t ∨ (init.forest.ns 0).nextPid ≤ p) ∧
    (∀ t p, (childTask.forest.ns 0).tidMap t = some p →
      ∃ o, childTask.owner t = some o ∧ 0 ∈ o :: childTask.forest.chain o) ∧
    (∀ t, (∀ o, childTask.owner t = some o → 0 ∉ o :: childTask.forest.chain o) →
      childTask.forest.taskPidNrNs t 0 = 0) :=
  have hrun : Relation.ReflTransGen Step init childTask :=
    .tail (.single (.clone init ⟨0, by decide⟩)) (.register _ 7 ⟨1, by decide⟩ rfl)
  ⟨hrun, pid_namespaces_invariant .refl hrun 0⟩

end PidSystem

end HkKernel
