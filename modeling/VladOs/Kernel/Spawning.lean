import VladOs.Kernel.Stores

namespace VladOs

open Code FdTable ProcessTable

namespace Kernel

variable {B : BootMemory} {P : Platform} {inits : List UserTaskInit} {k k' : Kernel}
  {parent : Option ProcessId} {init : UserTaskInit} {rflags : UInt64} {stack : ℕ}

inductive SpawnsKernel (k : Kernel) (entry : TaskEntry) (stack : ℕ) : TaskId → Kernel → Prop where
  | intro {frames : ℕ → TrapFrame} : k.tasks.length < MAX_TASKS →
      SpawnsKernel k entry stack k.tasks.length { k with
        tasks := k.tasks ++ [Task.newKernel k.tasks.length entry stack]
        frames := frames }

theorem spawn_spec (entry : TaskEntry) :
    Spec (spawn P entry rflags stack) k (SpawnsKernel k entry stack)
      (fun e k' => e = .full ∧ k' = k ∧ MAX_TASKS ≤ k.tasks.length) := by
  rw [spawn,spec_bind,spec_read,spec_ite]
  constructor
  · intro hfull
    rw [spec_fail]
    exact ⟨rfl,rfl,hfull⟩
  · intro hroom
    rw [spec_bind,spec_modify,spec_bind,spec_modify,spec_pure]
    exact .intro (Nat.lt_of_not_le hroom)

theorem SpawnsKernel.coreStep {entry : TaskEntry} {id : TaskId} (h : SpawnsKernel k entry stack id k') :
    CoreStep B (k.core inits) (k'.core inits) := by
  cases h with
  | @intro frames hroom =>
    have hviews : k.views.length = k.tasks.length := List.length_map ..
    have hstep : CoreStep B (k.core inits) _ := .spawnTask (by rw [core,hviews]; exact hroom)
    have hcore : Kernel.core { k with
        tasks := k.tasks ++ [Task.newKernel k.tasks.length entry stack]
        frames := frames } inits =
        { k.core inits with tasks := k.views ++ [⟨k.views.length,none,.active⟩] } := by
      rw [core,views,List.map_append,hviews]
      rfl
    rw [hcore]
    exact hstep

theorem SpawnsKernel.scheduled {entry : TaskEntry} {id : TaskId} (hs : k.Scheduled)
    (h : SpawnsKernel k entry stack id k') : k'.Scheduled := by
  cases h with
  | intro _ =>
    have hnew := hs.snoc (t := Task.newKernel k.tasks.length entry stack) fun hc => by cases hc
    exact ⟨hnew.current,hnew.cached,hnew.loaded,hnew.main⟩

inductive SpawnsUser (k : Kernel) (parent : Option ProcessId) (init : UserTaskInit) (stack : ℕ) :
    UserProcessHandle → Kernel → Prop where
  | intro {table : FdTable} {o' : OpenFileTable} {pid : ProcessId} {t' : ProcessTable}
      {frames : ℕ → TrapFrame} : k.tasks.length < MAX_TASKS →
      newWithStdio k.openFiles = (.ok table,o') → Forest.Created k.processes parent
        (newProcess pid parent init.addressSpace init.heap table k.tasks.length) pid t' →
      SpawnsUser k parent init stack ⟨pid,k.tasks.length⟩ { k with
        tasks := k.tasks ++ [Task.newUser k.tasks.length pid init.entryPoint init.userStackTop stack]
        processes := t'
        openFiles := o'
        frames := frames }

inductive SpawnFails (k : Kernel) (parent : Option ProcessId) : SpawnError → Kernel → Prop where
  | full : MAX_TASKS ≤ k.tasks.length → SpawnFails k parent .full k
  | process {e : ProcessError} : k.tasks.length < MAX_TASKS →
      k.processes.canCreate parent = .error e → SpawnFails k parent (.process e) k
  | files : k.tasks.length < MAX_TASKS → k.processes.canCreate parent = .ok () →
      (newWithStdio k.openFiles).1 = .error .tooManySystemFiles →
      SpawnFails k parent (.process (.file .tooManySystemFiles)) k

theorem SpawnFails.same {e : SpawnError} (h : SpawnFails k parent e k') : k' = k := by
  cases h <;> rfl

theorem newFdTable_spec :
    Spec newFdTable k
      (fun table k' => ∃ o', newWithStdio k.openFiles = (.ok table,o') ∧ k' = { k with openFiles := o' })
      (fun e k' => e = .process (.file .tooManySystemFiles) ∧
        (newWithStdio k.openFiles).1 = .error .tooManySystemFiles ∧ k' = k) := by
  rcases newWithStdio_cases k.openFiles with ⟨table,o',heq,-⟩ | ⟨o',heq,-⟩
  · have hok : newFdTable k = .ok table { k with openFiles := o' } := by
      simp only [newFdTable,heq]
    exact Spec.of_ok hok ⟨o',heq,rfl⟩
  · rw [(newWithStdio_error heq).2] at heq
    have herror : newFdTable k = .error (.process (.file .tooManySystemFiles)) k := by
      simp only [newFdTable,heq]
    exact Spec.of_error herror ⟨rfl,congrArg Prod.fst heq,rfl⟩

theorem spawnUserProcess_spec (hf : Forest k.processes) :
    Spec (spawnUserProcess P parent init rflags stack) k (SpawnsUser k parent init stack)
      (SpawnFails k parent) := by
  rw [spawnUserProcess,spec_bind,spec_read,spec_ite]
  constructor
  · intro hfull
    rw [spec_fail]
    exact .full hfull
  · intro hroom
    rw [spec_bind,spec_mapError]
    cases hcan : k.processes.canCreate parent with
    | error e =>
      rw [spec_ofExcept_error]
      exact .process (Nat.lt_of_not_le hroom) hcan
    | ok u =>
      rw [spec_ofExcept_ok,spec_bind]
      refine newFdTable_spec.mono ?_ ?_
      · rintro table _ ⟨o',hopen,rfl⟩
        rw [spec_bind,spec_mapError,onProcesses,spec_within]
        refine (Forest.create_spec hf parent init.addressSpace init.heap table k.tasks.length).mono ?_ ?_
        · intro pid t' hcreated
          rw [spec_bind,spec_modify,spec_bind,spec_modify,spec_pure]
          exact .intro (Nat.lt_of_not_le hroom) hopen hcreated
        · rintro e t' ⟨rfl,he⟩
          rw [hcan] at he
          cases he
      · rintro e _ ⟨rfl,hfail,rfl⟩
        exact .files (Nat.lt_of_not_le hroom) hcan hfail

theorem SpawnsUser.coreStep {index : ℕ} {handle : UserProcessHandle} (hi : inits[index]? = some init)
    (h : SpawnsUser k parent init stack handle k') :
    CoreStep B (k.core inits) (k'.core (inits.eraseIdx index)) := by
  cases h with
  | @intro table o' pid t' frames hroom hopen hcreated =>
    have hviews : k.views.length = k.tasks.length := List.length_map ..
    rw [← hviews] at hcreated
    have hstep : CoreStep B (k.core inits) _ :=
      .spawnProcess (by rw [core,hviews]; exact hroom) hi (newWithStdio_opens hopen) hcreated
    have hcore : Kernel.core { k with
        tasks := k.tasks ++ [Task.newUser k.tasks.length pid init.entryPoint init.userStackTop stack]
        processes := t'
        openFiles := o'
        frames := frames } (inits.eraseIdx index) = { k.core inits with
          tasks := k.views ++ [⟨k.views.length,some pid,.active⟩]
          processes := t'
          openFiles := o'
          inits := inits.eraseIdx index } := by
      rw [core,views,List.map_append,hviews]
      rfl
    rw [hcore]
    exact hstep

theorem addressSpace_created {process : Process} {pid q : ProcessId} {t t' : ProcessTable}
    (h : Forest.Created t parent process pid t') (hq : q ≠ pid) :
    t'.addressSpace q = t.addressSpace q := by
  unfold ProcessTable.addressSpace
  rw [h.get,if_neg hq]
  split
  · cases t.get q <;> rfl
  · rfl

theorem SpawnsUser.scheduled {handle : UserProcessHandle} (hc : CoreInv B (k.core inits))
    (hs : k.Scheduled) (h : SpawnsUser k parent init stack handle k') : k'.Scheduled := by
  cases h with
  | @intro table o' pid t' frames _ _ hcreated =>
    have hstored : Scheduled { k with processes := t', openFiles := o', frames := frames } := by
      refine hs.stored ⟨rfl,rfl,rfl,rfl,rfl,rfl⟩ fun {i t q} _ ht hq => ?_
      have hlt : q < k.processes.nextPid := hc.tasks.created (core_view ht) hq
      exact addressSpace_created hcreated (by rw [hcreated.pid_eq]; exact Nat.ne_of_lt hlt)
    exact hstored.snoc (t := Task.newUser k.tasks.length pid init.entryPoint init.userStackTop stack)
      fun hc => by cases hc

theorem SpawnFails.coreStep {index : ℕ} {e : SpawnError} (h : SpawnFails k parent e k') :
    CoreStep B (k.core inits) (k'.core (inits.eraseIdx index)) := by
  rw [h.same]
  exact .dropInit index fun _ => rfl

theorem SpawnFails.scheduled {e : SpawnError} (hs : k.Scheduled) (h : SpawnFails k parent e k') :
    k'.Scheduled := by
  rw [h.same]
  exact hs

end Kernel

end VladOs
