import VladOs.Process.Process

namespace VladOs

namespace ProcessTable

variable {t t' : ProcessTable} {pid q p c : ProcessId} {f : Process → Process} {P C : Process}

theorem get_modify (t : ProcessTable) (pid : ProcessId) (f : Process → Process) (q : ProcessId) :
    (t.modify pid f).get q = if q = pid then (t.get q).map f else t.get q := by
  unfold get modify
  rw [List.getElem?_modify]
  by_cases h : pid = q
  · subst h
    cases t.processes[pid]? <;> simp
  · have h' : q ≠ pid := fun hc => h hc.symm
    cases t.processes[q]? <;> simp [h,h']

theorem get_remove (t : ProcessTable) (pid q : ProcessId) :
    (t.remove pid).get q = if q = pid then none else t.get q := by
  unfold get remove
  rw [List.getElem?_set]
  by_cases h : pid = q
  · subst h
    by_cases hl : pid < t.processes.length <;> simp [hl]
  · have h' : q ≠ pid := fun hc => h hc.symm
    simp [h,h']

theorem get_ensureSlots (t : ProcessTable) (q : ProcessId) : t.ensureSlots.get q = t.get q := by
  unfold ensureSlots get
  split
  · next h =>
    rw [List.isEmpty_iff.mp h]
    by_cases hq : q < MAX_PROCESSES + 1 <;> simp [hq]
  · rfl

@[simp] theorem modify_nextPid : (t.modify pid f).nextPid = t.nextPid := rfl

@[simp] theorem remove_nextPid : (t.remove pid).nextPid = t.nextPid := rfl

@[simp] theorem modify_length : (t.modify pid f).processes.length = t.processes.length := by
  simp [modify]

@[simp] theorem remove_length : (t.remove pid).processes.length = t.processes.length := by
  simp [remove]

def orphan (process : Process) : Process := { process with parent := none, orphaned := true }

def orphanOrReap (process : Process) : Option Process :=
  if process.isZombie then none else some (orphan process)

theorem get_orphanChild (t : ProcessTable) (child q : ProcessId) :
    (t.orphanChild child).get q =
      if q = child then (t.get q).bind orphanOrReap else t.get q := by
  unfold orphanChild
  cases hc : t.get child with
  | none =>
    by_cases h : q = child
    · subst h
      simp [hc]
    · simp [h]
  | some process =>
    by_cases h : q = child
    · subst h
      by_cases hz : process.isZombie = true
      · simp [get_remove,hz,hc,orphanOrReap]
      · simp [get_modify,hz,hc,orphanOrReap,orphan]
    · by_cases hz : process.isZombie = true
      · simp [get_remove,get_modify,hz,h]
      · simp [get_modify,hz,h]

@[simp] theorem orphanChild_nextPid (child : ProcessId) :
    (t.orphanChild child).nextPid = t.nextPid := by
  unfold orphanChild
  split
  · rfl
  · split <;> rfl

@[simp] theorem orphanChild_length (child : ProcessId) :
    (t.orphanChild child).processes.length = t.processes.length := by
  unfold orphanChild
  split
  · rfl
  · split <;> simp

theorem foldl_orphanChild_nextPid (children : List ProcessId) :
    (children.foldl orphanChild t).nextPid = t.nextPid := by
  induction children generalizing t with
  | nil => rfl
  | cons c rest ih => rw [List.foldl_cons,ih,orphanChild_nextPid]

theorem foldl_orphanChild_length (children : List ProcessId) :
    (children.foldl orphanChild t).processes.length = t.processes.length := by
  induction children generalizing t with
  | nil => rfl
  | cons c rest ih => rw [List.foldl_cons,ih,orphanChild_length]

theorem get_foldl_orphanChild (children : List ProcessId) (hnd : children.Nodup) (q : ProcessId) :
    (children.foldl orphanChild t).get q =
      if q ∈ children then (t.get q).bind orphanOrReap else t.get q := by
  induction children generalizing t with
  | nil => simp
  | cons c rest ih =>
    obtain ⟨hc,hrest⟩ := List.nodup_cons.mp hnd
    rw [List.foldl_cons,ih hrest,get_orphanChild]
    by_cases hq : q = c
    · subst hq
      simp [hc]
    · simp [hq]

def exited (exit : ProcessExit) (process : Process) : Process :=
  { process with state := .zombie exit, fdTable := .empty, children := [] }

theorem markExited_eq {exit : ProcessExit} {openFiles : OpenFileTable} (h : t.get pid = some P) :
    t.markExited pid exit openFiles =
      (.ok (),P.children.foldl orphanChild (t.modify pid (exited exit)),
        FdTable.closeEntries P.fdTable.entries openFiles) := by
  unfold markExited
  rw [h]
  rfl

theorem get_markExited {exit : ProcessExit} (hnd : P.children.Nodup) (hself : pid ∉ P.children)
    (q : ProcessId) :
    (P.children.foldl orphanChild (t.modify pid (exited exit))).get q =
      if q = pid then (t.get q).map (exited exit)
      else if q ∈ P.children then (t.get q).bind orphanOrReap
      else t.get q := by
  rw [get_foldl_orphanChild P.children hnd,get_modify]
  by_cases hq : q = pid
  · subst hq
    simp [hself]
  · simp [hq]

theorem isChild_iff : t.isChild p c = true ↔ ∃ P, t.get p = some P ∧ c ∈ P.children := by
  unfold isChild
  cases h : t.get p <;> simp

theorem reapChild_eq {exit : ProcessExit} (hc : t.isChild p c = true) (h : t.get c = some C)
    (hz : C.state = .zombie exit) :
    t.reapChild p c = (.ok exit,(t.modify p (removeChild c)).remove c) := by
  simp only [reapChild,hc,h,hz,if_true]

theorem get_reapChild (q : ProcessId) :
    ((t.modify p (removeChild c)).remove c).get q =
      if q = c then none else if q = p then (t.get q).map (removeChild c) else t.get q := by
  rw [get_remove,get_modify]

def unlessDeadOrphan (process : Process) : Option Process :=
  if process.orphaned && process.isZombie then none else some process

theorem get_reapOrphanIfZombie (t : ProcessTable) (pid q : ProcessId) :
    (t.reapOrphanIfZombie pid).get q =
      if q = pid then (t.get q).bind unlessDeadOrphan else t.get q := by
  unfold reapOrphanIfZombie
  cases hp : t.get pid with
  | none =>
    by_cases h : q = pid
    · subst h
      simp [hp]
    · simp [h]
  | some process =>
    by_cases hz : (process.orphaned && process.isZombie) = true
    · by_cases h : q = pid
      · subst h
        simp only [get_remove,hz,hp,if_true,Option.bind_some,unlessDeadOrphan]
      · simp only [get_remove,hz,h,if_true,if_false]
    · by_cases h : q = pid
      · subst h
        simp [hz,hp,unlessDeadOrphan]
      · simp [hz,h]

@[simp] theorem reapOrphanIfZombie_nextPid : (t.reapOrphanIfZombie pid).nextPid = t.nextPid := by
  unfold reapOrphanIfZombie
  split
  · rfl
  · split <;> rfl

def newProcess (pid : ProcessId) (parent : Option ProcessId) (addressSpace : AddressSpace)
    (heap : UserHeap) (fdTable : FdTable) (mainTask : TaskId) : Process where
  pid := pid
  parent := parent
  children := []
  state := .running
  addressSpace := addressSpace
  heap := heap
  fdTable := fdTable
  mainTask := mainTask
  orphaned := false

def addChild (child : ProcessId) (process : Process) : Process :=
  { process with children := process.children ++ [child] }

end ProcessTable

end VladOs
