import VladOs.Kernel.FileTable

namespace VladOs

open Code FdTable ProcessTable Kernel

namespace OpenFileTable

variable {t t' : OpenFileTable} {kind : OpenFileKind} {access : AccessMode} {id : OpenFileId}
  {e : FileError}

theorem activeCount_eq (t : OpenFileTable) : t.activeCount = t.files.countP Option.isSome :=
  List.countP_eq_length_filter.symm

theorem activeCount_ensureSlots (t : OpenFileTable) : t.ensureSlots.activeCount = t.activeCount := by
  by_cases h : t.files = []
  · simp [activeCount_eq,OpenFileTable.ensureSlots,h,List.countP_replicate]
  · rw [ensureSlots_of_ne h]

theorem activeCount_le (t : OpenFileTable) : t.activeCount ≤ t.ensureSlots.files.length := by
  rw [← activeCount_ensureSlots,activeCount_eq]
  exact List.countP_le_length

theorem alloc_takes (h : t.alloc kind access = (.ok id,t')) : t'.activeCount = t.activeCount + 1 := by
  rw [← activeCount_ensureSlots t]
  simp only [alloc] at h
  split at h
  · next index hindex =>
    cases h
    obtain ⟨hlt,hnone,-⟩ := List.findIdx?_eq_some_iff_getElem.mp hindex
    rw [activeCount_eq,activeCount_eq,List.countP_set hlt]
    simp [Option.isNone_iff_eq_none.mp hnone]
  · cases h

theorem alloc_full (h : t.alloc kind access = (.error e,t')) :
    t.activeCount = t.ensureSlots.files.length := by
  rw [← activeCount_ensureSlots t]
  simp only [alloc] at h
  split at h
  · cases h
  · next hnone =>
    rw [activeCount_eq,List.countP_eq_length]
    intro file hfile
    have hsome := List.findIdx?_eq_none_iff.mp hnone file hfile
    cases file with
    | none => cases hsome
    | some _ => rfl

end OpenFileTable

open OpenFileTable

theorem newWithStdio_count (o : OpenFileTable) :
    (∃ table o', newWithStdio o = (.ok table,o') ∧ o.activeCount + 3 ≤ o.ensureSlots.files.length) ∨
    ∃ o', newWithStdio o = (.error .tooManySystemFiles,o') ∧
      o.ensureSlots.files.length < o.activeCount + 3 := by
  unfold newWithStdio
  rcases alloc_cases o .nullInput .readOnly with ⟨a,o₁,h₁,-⟩ | ⟨o₁,h₁,-⟩
  · have htake₁ := alloc_takes h₁
    have hlen₁ : o₁.ensureSlots.files.length = o.ensureSlots.files.length := by
      rw [alloc_slots h₁,length_alloc h₁]
    simp only [h₁]
    rcases alloc_cases o₁ .consoleStdout .writeOnly with ⟨b,o₂,h₂,-⟩ | ⟨o₂,h₂,-⟩
    · have htake₂ := alloc_takes h₂
      have hlen₂ : o₂.ensureSlots.files.length = o.ensureSlots.files.length := by
        rw [alloc_slots h₂,length_alloc h₂,hlen₁]
      simp only [h₂]
      rcases alloc_cases o₂ .consoleStderr .writeOnly with ⟨c,o₃,h₃,-⟩ | ⟨o₃,h₃,-⟩
      · have htake₃ := alloc_takes h₃
        have hle := activeCount_le o₃
        rw [alloc_slots h₃,length_alloc h₃,hlen₂] at hle
        simp only [h₃]
        exact Or.inl ⟨_,_,rfl,by omega⟩
      · have hfull := alloc_full h₃
        simp only [h₃]
        exact Or.inr ⟨_,rfl,by omega⟩
    · have hfull := alloc_full h₂
      simp only [h₂]
      exact Or.inr ⟨_,rfl,by omega⟩
  · have hfull := alloc_full h₁
    simp only [h₁]
    exact Or.inr ⟨_,rfl,by omega⟩

theorem FilesInv.stdio_fails_iff {o : OpenFileTable} (h : FilesInv o) :
    (newWithStdio o).1 = .error .tooManySystemFiles ↔ MAX_OPEN_FILES - o.activeCount < 3 := by
  have hle := activeCount_le o
  rw [h.slots] at hle
  rcases newWithStdio_count o with ⟨table,o',hok,hroom⟩ | ⟨o',herr,hfull⟩
  · rw [h.slots] at hroom
    rw [hok]
    exact iff_of_false (by simp) (by omega)
  · rw [h.slots] at hfull
    rw [herr]
    exact iff_of_true rfl (by omega)

structure SpawnErrors (k : Kernel) (parent : Option ProcessId)
    (result : Outcome Kernel SpawnError UserProcessHandle) : Prop where
  returns : result ≠ .panic
  unchanged : ∀ {e k'}, result = .error e k' →
    k'.tasks = k.tasks ∧ k'.processes = k.processes ∧ k'.openFiles = k.openFiles
  full : (∃ k', result = .error .full k') ↔ k.tasks.length = 8
  missingParent : k.tasks.length ≠ 8 → ((∃ k', result = .error (.process .missingParent) k') ↔
    ∃ pid, parent = some pid ∧ k.processes.get pid = none)
  systemFiles : k.tasks.length ≠ 8 → (∀ pid, parent = some pid → k.processes.get pid ≠ none) →
    ((∃ k', result = .error (.process (.file .tooManySystemFiles)) k') ↔
      MAX_OPEN_FILES - k.openFiles.activeCount < 3)
  notFull : ∀ k', result ≠ .error (.process .full) k'

theorem Forest.canCreate_error {t : ProcessTable} (h : Forest t) (hroom : t.nextPid ≤ MAX_PROCESSES)
    {parent : Option ProcessId} {e : ProcessError} : t.canCreate parent = .error e ↔
      e = .missingParent ∧ ∃ pid, parent = some pid ∧ t.get pid = none := by
  have hactive := h.activeCount_lt
  unfold canCreate
  rw [if_neg (by omega),if_neg (by omega)]
  cases parent with
  | none => simp
  | some pid =>
    cases hpid : t.get pid with
    | some Q => simp [hpid]
    | none => simp [hpid,eq_comm]

section

variable {k k' : Kernel} {parent : Option ProcessId} {init : UserTaskInit} {stack : ℕ}

theorem Kernel.SpawnsUser.errors {handle : UserProcessHandle} (hfiles : FilesInv k.openFiles)
    (h : SpawnsUser k parent init stack handle k') : SpawnErrors k parent (.ok handle k') := by
  cases h with
  | intro hroom hopen hcreated =>
    unfold MAX_TASKS at hroom
    have hfound := @hcreated.parent_found
    refine ⟨by simp,by simp,iff_of_false (by simp) (by omega),fun _ => iff_of_false (by simp) ?_,
      fun _ _ => iff_of_false (by simp) ?_,by simp⟩
    · rintro ⟨pid,hpid,hnone⟩
      obtain ⟨Q,hQ⟩ := hfound hpid
      rw [hnone] at hQ
      cases hQ
    · rw [← hfiles.stdio_fails_iff,hopen]
      simp

theorem Kernel.SpawnFails.errors {e : SpawnError} (hfiles : FilesInv k.openFiles)
    (hforest : Forest k.processes) (htasks : k.tasks.length ≤ 8)
    (hpids : k.processes.nextPid ≤ MAX_PROCESSES) (h : SpawnFails k parent e k') :
    SpawnErrors k parent (.error e k') := by
  have hsame := h.same
  have hkept : ∀ {e₁ k₁}, (.error e k' : Outcome Kernel SpawnError UserProcessHandle) = .error e₁ k₁ →
      k₁.tasks = k.tasks ∧ k₁.processes = k.processes ∧ k₁.openFiles = k.openFiles := by
    intro e₁ k₁ heq
    cases heq
    rw [hsame]
    exact ⟨rfl,rfl,rfl⟩
  cases h with
  | full hfull =>
    have height : k.tasks.length = 8 := le_antisymm htasks hfull
    exact ⟨by simp,hkept,iff_of_true ⟨k,rfl⟩ height,fun hne => absurd height hne,
      fun hne => absurd height hne,by simp⟩
  | process hroom herr =>
    unfold MAX_TASKS at hroom
    obtain ⟨rfl,pid,hpid,hnone⟩ := (hforest.canCreate_error hpids).mp herr
    exact ⟨by simp,hkept,iff_of_false (by simp) (by omega),fun _ => iff_of_true ⟨k,rfl⟩ ⟨pid,hpid,hnone⟩,
      fun _ hfound => absurd hnone (hfound pid hpid),by simp⟩
  | files hroom hcan hfail =>
    unfold MAX_TASKS at hroom
    refine ⟨by simp,hkept,iff_of_false (by simp) (by omega),fun _ => iff_of_false (by simp) ?_,
      fun _ _ => iff_of_true ⟨k,rfl⟩ (hfiles.stdio_fails_iff.mp hfail),by simp⟩
    rintro ⟨pid,rfl,hnone⟩
    rw [(hforest.canCreate_error hpids).mpr ⟨rfl,pid,rfl,hnone⟩] at hcan
    cases hcan

end

section

variable {B : Boot} {P : Platform} {trace : List Event} {s : System}

theorem spawn_errors_exact (h : Run P B trace s) (parent : Option ProcessId) (init : UserTaskInit)
    (rflags : UInt64) (stack : ℕ) :
    SpawnErrors s.kernel parent (spawnUserProcess P parent init rflags stack s.kernel) := by
  have hforest : Forest s.kernel.processes := h.stable.core.forest
  have hviews : s.kernel.views.length = s.kernel.tasks.length := List.length_map ..
  have htasks : s.kernel.tasks.length ≤ 8 := hviews ▸ h.stable.core.tasks.length_le
  have hnext : s.kernel.processes.nextPid ≤ s.kernel.tasks.length + 1 :=
    hviews ▸ h.stable.core.tasks.nextPid_le
  have hpids : s.kernel.processes.nextPid ≤ MAX_PROCESSES := by
    unfold MAX_PROCESSES
    omega
  have hspec : Spec (spawnUserProcess P parent init rflags stack) s.kernel _ _ :=
    spawnUserProcess_spec hforest
  cases hr : spawnUserProcess P parent init rflags stack s.kernel with
  | panic => exact absurd hr hspec.not_panic
  | ok handle k' => exact (hspec.ok hr).errors h.files
  | error e k' => exact (hspec.error hr).errors h.files hforest htasks hpids

theorem spawn_errors_exact_family : ∃ trace s, Run standardPlatform smallMachine trace s ∧
    ∀ init, SpawnErrors s.kernel (some 9)
      (spawnUserProcess standardPlatform (some 9) init 0 HEAP_START s.kernel) := by
  obtain ⟨trace,s,hrun,-⟩ := exists_familyReady smallMachine_roomy standardPlatform .yieldThenExit
  exact ⟨trace,s,hrun.run,fun init => spawn_errors_exact hrun.run (some 9) init 0 HEAP_START⟩

end

end VladOs
