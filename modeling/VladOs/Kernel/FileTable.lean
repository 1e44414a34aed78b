import VladOs.Kernel.StoreSteps

namespace VladOs

open Code Paging OpenFileTable FdTable ProcessTable Kernel

def OpenFile.Typed (file : OpenFile) : Prop :=
  match file.kind with
  | .nullInput => file.access = .readOnly
  | .consoleStdout | .consoleStderr => file.access = .writeOnly
  | .embeddedFile id => file.access = .readOnly ∧
      ∃ embedded, VladOs.embeddedFile id = some embedded ∧ file.offset ≤ embedded.bytes.length

structure FilesInv (o : OpenFileTable) : Prop where
  shape : o.files = [] ∨ o.files.length = MAX_OPEN_FILES
  typed : ∀ {id file}, o.get id = some file → file.Typed

namespace FilesInv

variable {o o' : OpenFileTable} {id : OpenFileId} {kind : OpenFileKind} {access : AccessMode}

theorem new : FilesInv .new :=
  ⟨Or.inl rfl,fun h => by simp [OpenFileTable.new,OpenFileTable.get] at h⟩

theorem slots (h : FilesInv o) : o.ensureSlots.files.length = MAX_OPEN_FILES := by
  rcases h.shape with hs | hs
  · simp [OpenFileTable.ensureSlots,hs]
  · rw [ensureSlots_of_ne fun hc => by simp [hc] at hs,hs]

theorem allocated (htyped : ∀ {id file}, o.get id = some file → file.Typed)
    (ha : Allocated o kind access id o') (hnew : OpenFile.Typed ⟨kind,access,0,1⟩) {i : OpenFileId}
    {file : OpenFile} (hf : o'.get i = some file) : file.Typed := by
  by_cases hi : i = id
  · rw [hi,ha.self] at hf
    cases hf
    exact hnew
  · rw [ha.other i hi] at hf
    exact htyped hf

theorem alloc (h : FilesInv o) (halloc : o.alloc kind access = (.ok id,o'))
    (hnew : OpenFile.Typed ⟨kind,access,0,1⟩) : FilesInv o' :=
  ⟨Or.inr ((length_alloc halloc).trans h.slots),allocated h.typed (alloc_ok halloc) hnew⟩

theorem stdio (h : FilesInv o) {table : FdTable} (hopen : newWithStdio o = (.ok table,o')) :
    FilesInv o' := by
  refine ⟨Or.inr ((length_newWithStdio hopen).trans h.slots),?_⟩
  obtain ⟨ha,hb,hc⟩ := newWithStdio_opens hopen
  exact allocated (allocated (allocated h.typed ha rfl) hb rfl) hc rfl

theorem decRef (h : FilesInv o) (id : OpenFileId) : FilesInv (o.decRef id) := by
  refine ⟨?_,?_⟩
  · rcases h.shape with hs | hs
    · refine Or.inl (List.length_eq_zero_iff.mp ?_)
      rw [length_decRef,hs,List.length_nil]
    · exact Or.inr ((length_decRef o id).trans hs)
  · intro i file hf
    unfold OpenFileTable.decRef at hf
    split at hf
    · exact h.typed hf
    · next old hold =>
      rw [OpenFileTable.get_set _ (OpenFileTable.get_lt hold)] at hf
      split at hf
      · split at hf
        · cases hf
        · cases hf
          have htyped := h.typed hold
          exact htyped
      · exact h.typed hf

theorem closeEntries (h : FilesInv o) (entries : List (Option FdEntry)) :
    FilesInv (FdTable.closeEntries entries o) := by
  induction entries generalizing o with
  | nil => exact h
  | cons entry rest ih =>
    cases entry with
    | none => exact ih h
    | some e => exact ih (h.decRef e.openFile)

theorem setOffset (h : FilesInv o) {file : OpenFile} {fileId : EmbeddedFileId} {embedded : EmbeddedFile}
    {offset : ℕ} (hf : o.get id = some file) (hk : file.kind = .embeddedFile fileId)
    (he : embeddedFile fileId = some embedded) (hle : offset ≤ embedded.bytes.length) :
    FilesInv (o.setOffset id offset) := by
  refine ⟨?_,?_⟩
  · simpa [OpenFileTable.setOffset] using h.shape
  · intro i file' hf'
    rw [get_setOffset] at hf'
    split at hf'
    · next hi =>
      rw [hi,hf] at hf'
      cases hf'
      have htyped := h.typed hf
      simp only [OpenFile.Typed,hk] at htyped ⊢
      exact ⟨htyped.1,embedded,he,hle⟩
    · exact h.typed hf'

end FilesInv

theorem findEmbeddedFile_valid {path : List UInt8} {id : EmbeddedFileId}
    (h : findEmbeddedFile path = some id) : ∃ embedded, embeddedFile id = some embedded := by
  obtain ⟨hlt,-⟩ := List.findIdx?_eq_some_iff_getElem.mp h
  exact ⟨_,List.getElem?_eq_getElem hlt⟩

section

variable {B : BootMemory}

theorem Kernel.CallExact.files {k k' : Kernel} {pid : ProcessId} {P : Process} {c : Call}
    {r : Except SysError ℕ} (h : CallExact B k pid P c r k') (hinv : FilesInv k.openFiles) :
    FilesInv k'.openFiles := by
  cases h with
  | opened _ hfile halloc _ =>
    obtain ⟨embedded,he⟩ := findEmbeddedFile_valid hfile
    exact hinv.alloc halloc ⟨rfl,embedded,he,Nat.zero_le _⟩
  | delivered _ hfile hkind hemb hlt _ _ => exact hinv.setOffset hfile hkind hemb (by omega)
  | closed _ => exact hinv.decRef _
  | _ => exact hinv

theorem OtherStep.files {c c' : Stores} (h : OtherStep B c c') (hinv : FilesInv c.openFiles) :
    FilesInv c'.openFiles := by
  cases h with
  | spawn hopen _ => exact hinv.stdio hopen
  | exitAlone _ => exact hinv.closeEntries _
  | exitWoken _ _ _ => exact hinv.closeEntries _
  | _ => exact hinv

theorem Performs.files {s s' : System} {a : Action} {o : Output} (hp : Performs B s a o s')
    (hinv : FilesInv s.kernel.openFiles) : FilesInv s'.kernel.openFiles := by
  rcases hp.stores with ⟨pid,c,r,hcall⟩ | hother
  · cases hcall with
    | intro _ _ he => exact he.exact.files hinv
  · exact hother.files hinv

theorem Run.files {B : Boot} {P : Platform} {trace : List Event} {s : System} (h : Run P B trace s) :
    FilesInv s.kernel.openFiles := by
  refine (Transition.Runs.invariant (I := fun s => Stable B.toBootMemory s ∧
    FilesInv s.kernel.openFiles) h ?_ ?_).2
  · rintro _ rfl
    exact ⟨B.stable,.new⟩
  · rintro s ⟨a,o⟩ s' ⟨hs,hfiles⟩ hstep
    have hp := hs.performs hstep
    exact ⟨hp.stable hs,hp.files hfiles⟩

end

def FilesReady (c : Stores) : Prop := c.openFiles.files ≠ [] ∨ ∀ pid, c.processes.get pid = none

theorem FilesReady.files {c : Stores} (h : FilesReady c) {pid : ProcessId} {P : Process}
    (hP : c.processes.get pid = some P) : c.openFiles.files ≠ [] := by
  rcases h with h | h
  · exact h
  · rw [h pid] at hP
    cases hP

section

variable {B : BootMemory}

theorem Kernel.CallExact.length {k k' : Kernel} {pid : ProcessId} {P : Process} {c : Call}
    {r : Except SysError ℕ} (h : CallExact B k pid P c r k') (hne : k.openFiles.files ≠ []) :
    k'.openFiles.files.length = k.openFiles.files.length := by
  cases h with
  | opened _ _ halloc _ => exact (length_alloc halloc).trans (by rw [ensureSlots_of_ne hne])
  | delivered _ _ _ _ _ _ _ => exact List.length_modify ..
  | closed _ => exact length_decRef _ _
  | _ => rfl

theorem OtherStep.ready {c c' : Stores} (h : OtherStep B c c') (hready : FilesReady c) :
    FilesReady c' := by
  have hexit : ∀ {pid P}, c.processes.get pid = some P →
      (FdTable.closeEntries P.fdTable.entries c.openFiles).files ≠ [] := by
    intro pid P hP hnil
    have hlen := length_closeEntries P.fdTable.entries c.openFiles
    rw [hnil] at hlen
    exact hready.files hP (List.length_eq_zero_iff.mp hlen.symm)
  cases h with
  | same => exact hready
  | extend _ => exact hready
  | write _ => exact hready
  | spawn hopen _ =>
    refine Or.inl fun hnil => c.openFiles.ensureSlots_ne ?_
    rw [← List.length_eq_zero_iff,← length_newWithStdio hopen,hnil,List.length_nil]
  | reap hP _ _ _ => exact Or.inl (hready.files hP)
  | exitAlone hP => exact Or.inl (hexit hP)
  | exitWoken hP _ _ => exact Or.inl (hexit hP)

theorem Performs.ready {s s' : System} {a : Action} {o : Output} (hp : Performs B s a o s')
    (h : FilesReady s.kernel.stores) : FilesReady s'.kernel.stores := by
  rcases hp.stores with ⟨pid,c,r,hcall⟩ | hother
  · cases hcall with
    | intro hcaller _ he =>
      have hne := h.files (c := s.kernel.stores) hcaller.get
      have hlen := he.exact.length hne
      refine Or.inl fun hnil => hne (List.length_eq_zero_iff.mp (hlen.symm.trans ?_))
      exact List.length_eq_zero_iff.mpr hnil
  · exact hother.ready h

theorem Run.filesReady {B : Boot} {P : Platform} {trace : List Event} {s : System}
    (h : Run P B trace s) : FilesReady s.kernel.stores := by
  refine (Transition.Runs.invariant (I := fun s => Stable B.toBootMemory s ∧
    FilesReady s.kernel.stores) h ?_ ?_).2
  · rintro _ rfl
    exact ⟨B.stable,Or.inr fun pid => by simp [Boot.system,stores,ProcessTable.new,ProcessTable.get]⟩
  · rintro s ⟨a,o⟩ s' ⟨hs,hready⟩ hstep
    have hp := hs.performs hstep
    exact ⟨hp.stable hs,hp.ready hready⟩

end

end VladOs
