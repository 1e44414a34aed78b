import VladOs.Library.References
import VladOs.Process.Table

namespace VladOs

open References

def OpenFile.Single (file : OpenFile) : Prop := file.refCount = 1

namespace OpenFileTable

variable {t t' : OpenFileTable} {id i : OpenFileId} {file : OpenFile} {kind : OpenFileKind}
  {access : AccessMode} {e : FileError}

theorem get_ensureSlots (t : OpenFileTable) (i : OpenFileId) : t.ensureSlots.get i = t.get i := by
  unfold ensureSlots get
  split
  · next h =>
    rw [List.isEmpty_iff.mp h]
    by_cases hi : i < MAX_OPEN_FILES <;> simp [hi]
  · rfl

theorem get_set (files : List (Option OpenFile)) (hid : id < files.length) (file : Option OpenFile)
    (i : OpenFileId) : get ⟨files.set id file⟩ i = if i = id then file else get ⟨files⟩ i := by
  unfold get
  rw [List.getElem?_set]
  by_cases h : id = i
  · subst h
    simp [hid]
  · have h' : i ≠ id := fun hc => h hc.symm
    simp [h,h']

theorem get_lt (h : t.get i = some file) : i < t.files.length := by
  by_contra hc
  rw [get,List.getElem?_eq_none (Nat.le_of_not_lt hc)] at h
  cases h

structure Allocated (t : OpenFileTable) (kind : OpenFileKind) (access : AccessMode) (id : OpenFileId)
    (t' : OpenFileTable) : Prop where
  free : t.get id = none
  self : t'.get id = some ⟨kind,access,0,1⟩
  other : ∀ i, i ≠ id → t'.get i = t.get i

theorem alloc_cases (t : OpenFileTable) (kind : OpenFileKind) (access : AccessMode) :
    (∃ id t', t.alloc kind access = (.ok id,t') ∧ Allocated t kind access id t') ∨
    ∃ t', t.alloc kind access = (.error .tooManySystemFiles,t') ∧ ∀ i, t'.get i = t.get i := by
  cases h : t.ensureSlots.files.findIdx? Option.isNone with
  | none => exact Or.inr ⟨t.ensureSlots,by simp only [alloc,h],get_ensureSlots t⟩
  | some id =>
    obtain ⟨hid,hnone,-⟩ := List.findIdx?_eq_some_iff_getElem.mp h
    refine Or.inl ⟨id,⟨t.ensureSlots.files.set id (some ⟨kind,access,0,1⟩)⟩,by simp only [alloc,h],
      ?_,?_,?_⟩
    · rw [← get_ensureSlots,get,List.getElem?_eq_getElem hid,Option.isNone_iff_eq_none.mp hnone]
      rfl
    · rw [get_set _ hid,if_pos rfl]
    · intro i hi
      rw [get_set _ hid,if_neg hi]
      exact get_ensureSlots t i

theorem get_setOffset (t : OpenFileTable) (id offset : ℕ) (i : OpenFileId) :
    (t.setOffset id offset).get i =
      if i = id then (t.get i).map (fun file => { file with offset := offset }) else t.get i := by
  unfold setOffset get
  rw [List.getElem?_modify]
  by_cases h : id = i
  · subst h
    cases t.files[id]? <;> simp
  · have h' : i ≠ id := fun hc => h hc.symm
    cases t.files[i]? <;> simp [h,h']

theorem get_decRef (h : ∀ {file}, t.get id = some file → file.Single) (i : OpenFileId) :
    (t.decRef id).get i = if i = id then none else t.get i := by
  unfold decRef
  cases hf : t.get id with
  | none =>
    by_cases hi : i = id
    · simp [hi,hf]
    · simp [hi]
  | some file =>
    have hone : file.refCount - 1 = 0 := by
      rw [show file.refCount = 1 from h hf]
    simp only [hone,if_true]
    exact get_set _ (get_lt hf) none i

theorem ensureSlots_of_ne (h : t.files ≠ []) : t.ensureSlots = t := if_neg (by simpa using h)

theorem alloc_error (h : t.alloc kind access = (.error e,t')) : t' = t := by
  by_cases hne : t.files = []
  · simp [alloc,ensureSlots,hne,List.findIdx?_replicate] at h
  · simp only [alloc,ensureSlots_of_ne hne] at h
    split at h
    · cases h
    · cases h
      rfl

theorem alloc_ok (h : t.alloc kind access = (.ok id,t')) : Allocated t kind access id t' := by
  rcases alloc_cases t kind access with ⟨id₁,t₁,h₁,ha⟩ | ⟨t₁,h₁,-⟩
  · rw [h] at h₁
    cases h₁
    exact ha
  · rw [h] at h₁
    cases h₁

theorem files_eq (hlen : t'.files.length = t.files.length) (h : ∀ i, t'.get i = t.get i) : t' = t := by
  have hfiles : t'.files = t.files := by
    refine List.ext_getElem? fun i => ?_
    have hi := h i
    unfold get at hi
    by_cases hlt : i < t.files.length
    · rw [List.getElem?_eq_getElem hlt,List.getElem?_eq_getElem (hlen ▸ hlt)] at hi ⊢
      simpa using hi
    · rw [List.getElem?_eq_none (Nat.le_of_not_lt hlt),
        List.getElem?_eq_none (hlen ▸ Nat.le_of_not_lt hlt)]
  cases t
  cases t'
  rw [mk.injEq]
  exact hfiles

@[simp] theorem length_decRef (t : OpenFileTable) (id : OpenFileId) :
    (t.decRef id).files.length = t.files.length := by
  unfold decRef
  split
  · rfl
  · exact List.length_set

theorem ensureSlots_ne (t : OpenFileTable) : t.ensureSlots.files ≠ [] := by
  by_cases h : t.files = []
  · simp [ensureSlots,h]
  · rwa [ensureSlots_of_ne h]

theorem length_alloc {result : Except FileError OpenFileId} (h : t.alloc kind access = (result,t')) :
    t'.files.length = t.ensureSlots.files.length := by
  simp only [alloc] at h
  split at h
  · cases h
    exact List.length_set
  · cases h
    rfl

theorem alloc_slots {result : Except FileError OpenFileId} (h : t.alloc kind access = (result,t')) :
    t'.ensureSlots = t' := by
  refine ensureSlots_of_ne fun hnil => t.ensureSlots_ne ?_
  rw [← List.length_eq_zero_iff,← length_alloc h,hnil,List.length_nil]

theorem alloc_decRef (hne : t.files ≠ []) (h : t.alloc kind access = (.ok id,t')) :
    t'.decRef id = t := by
  have ha := alloc_ok h
  refine files_eq (by rw [length_decRef,length_alloc h,ensureSlots_of_ne hne]) fun i => ?_
  rw [get_decRef fun hf => by
    rw [ha.self] at hf
    cases hf
    rfl]
  by_cases hi : i = id
  · rw [if_pos hi,hi,ha.free]
  · rw [if_neg hi,ha.other i hi]

end OpenFileTable

namespace FdTable

open OpenFileTable

variable {t : FdTable} {o o' : OpenFileTable} {fd fd' : ℕ} {entry : Option FdEntry}

theorem get_empty (fd : ℕ) : empty.get fd = none := by
  unfold empty get
  by_cases h : fd < MAX_FDS_PER_PROCESS <;> simp [h]

theorem get_lt {e : FdEntry} (h : t.get fd = some e) : fd < MAX_FDS_PER_PROCESS := by
  by_contra hc
  rw [get,List.getElem?_eq_none (by rw [t.length_eq]; exact Nat.le_of_not_lt hc)] at h
  cases h

theorem get_set (t : FdTable) (hfd : fd < MAX_FDS_PER_PROCESS) (entry : Option FdEntry) (fd' : ℕ) :
    (t.set fd entry).get fd' = if fd' = fd then entry else t.get fd' := by
  unfold set get
  rw [List.getElem?_set]
  by_cases h : fd = fd'
  · subst h
    simp [t.length_eq,hfd]
  · have h' : fd' ≠ fd := fun hc => h hc.symm
    simp [h,h']

theorem set_set_none (h : t.entries[fd]? = some none) (entry : Option FdEntry) :
    (t.set fd entry).set fd none = t := by
  obtain ⟨entries,hlen⟩ := t
  simp only [set,List.set_set,mk.injEq]
  refine List.ext_getElem? fun i => ?_
  rw [List.getElem?_set]
  by_cases hi : fd = i
  · subst hi
    rw [if_pos rfl,h,if_pos (List.getElem?_eq_some_iff.mp h).1]
  · rw [if_neg hi]

theorem mem_entries {e : FdEntry} : some e ∈ t.entries ↔ ∃ fd, t.get fd = some e := by
  rw [List.mem_iff_getElem?]
  simp only [get,Option.join_eq_some_iff]

theorem get_closeEntries (entries : List (Option FdEntry))
    (h : ∀ {e file}, some e ∈ entries → o.get e.openFile = some file → file.Single) (i : OpenFileId) :
    (closeEntries entries o).get i = if some ⟨i⟩ ∈ entries then none else o.get i := by
  induction entries generalizing o with
  | nil => simp [closeEntries]
  | cons entry rest ih =>
    cases entry with
    | none =>
      rw [closeEntries,ih fun hm => h (List.mem_cons_of_mem _ hm)]
      simp
    | some e =>
      have hdec := get_decRef (h (List.mem_cons_self ..))
      rw [closeEntries,ih]
      · by_cases hrest : some ⟨i⟩ ∈ rest
        · simp [hrest]
        · by_cases hi : i = e.openFile
          · subst hi
            simp [hdec]
          · have hne : ¬ (⟨i⟩ : FdEntry) = e := by
              rintro rfl
              exact hi rfl
            simp [hdec,hrest,hi,hne]
      · intro e' file hm hf
        rw [hdec] at hf
        split at hf
        · cases hf
        · exact h (List.mem_cons_of_mem _ hm) hf

theorem mem_entries_set {e x : FdEntry} (hfd : fd < MAX_FDS_PER_PROCESS) (hfree : t.get fd = none) :
    some e ∈ (t.set fd (some x)).entries ↔ e = x ∨ some e ∈ t.entries := by
  simp only [mem_entries,get_set t hfd]
  constructor
  · rintro ⟨fd',h⟩
    split at h
    · exact Or.inl (Option.some.inj h).symm
    · exact Or.inr ⟨fd',h⟩
  · rintro (rfl | ⟨fd',h⟩)
    · exact ⟨fd,if_pos rfl⟩
    · refine ⟨fd',?_⟩
      rw [if_neg ?_]
      · exact h
      · rintro rfl
        rw [hfree] at h
        cases h

theorem closeAll_undo (hnew : ∀ {e}, some e ∈ t.entries → o.get e.openFile = none ∧
      ∃ file, o'.get e.openFile = some file ∧ file.Single)
    (hold : ∀ i, some ⟨i⟩ ∉ t.entries → o'.get i = o.get i) (i : OpenFileId) :
    (t.closeAll o').2.get i = o.get i := by
  change (closeEntries t.entries o').get i = _
  rw [get_closeEntries]
  · split
    · next hi => exact (hnew hi).1.symm
    · next hi => exact hold i hi
  · intro e file he hf
    obtain ⟨-,file',hf',hs⟩ := hnew he
    rw [hf] at hf'
    exact Option.some.inj hf' ▸ hs

def stdio (stdin stdout stderr : OpenFileId) : FdTable :=
  ((empty.set STDIN_FILENO (some ⟨stdin⟩)).set STDOUT_FILENO (some ⟨stdout⟩)).set STDERR_FILENO
    (some ⟨stderr⟩)

inductive OpensStdio (o : OpenFileTable) : FdTable → OpenFileTable → Prop where
  | intro {a b c o₁ o₂ o₃} : Allocated o .nullInput .readOnly a o₁ →
      Allocated o₁ .consoleStdout .writeOnly b o₂ → Allocated o₂ .consoleStderr .writeOnly c o₃ →
      OpensStdio o (stdio a b c) o₃

theorem mem_stdin {a : OpenFileId} {e : FdEntry} :
    some e ∈ (empty.set STDIN_FILENO (some ⟨a⟩)).entries ↔ e = ⟨a⟩ := by
  rw [mem_entries_set (by decide) (get_empty _),mem_entries]
  simp [get_empty]

theorem mem_stdin_stdout {a b : OpenFileId} {e : FdEntry} :
    some e ∈ ((empty.set STDIN_FILENO (some ⟨a⟩)).set STDOUT_FILENO (some ⟨b⟩)).entries ↔
      e = ⟨b⟩ ∨ e = ⟨a⟩ := by
  rw [mem_entries_set (by decide),mem_stdin]
  rw [get_set _ (by decide),if_neg (by decide),get_empty]

theorem newWithStdio_cases (o : OpenFileTable) :
    (∃ table o', newWithStdio o = (.ok table,o') ∧ OpensStdio o table o') ∨
    ∃ o', newWithStdio o = (.error .tooManySystemFiles,o') ∧ ∀ i, o'.get i = o.get i := by
  unfold newWithStdio
  rcases alloc_cases o .nullInput .readOnly with ⟨a,o₁,h₁,ha⟩ | ⟨o₁,h₁,ho₁⟩
  · simp only [h₁]
    rcases alloc_cases o₁ .consoleStdout .writeOnly with ⟨b,o₂,h₂,hb⟩ | ⟨o₂,h₂,ho₂⟩
    · simp only [h₂]
      have hba : b ≠ a := by
        rintro rfl
        have hfree := hb.free
        rw [ha.self] at hfree
        cases hfree
      rcases alloc_cases o₂ .consoleStderr .writeOnly with ⟨c,o₃,h₃,hc⟩ | ⟨o₃,h₃,ho₃⟩
      · simp only [h₃]
        exact Or.inl ⟨_,_,rfl,.intro ha hb hc⟩
      · simp only [h₃]
        refine Or.inr ⟨_,rfl,closeAll_undo ?_ ?_⟩
        · intro e he
          rcases mem_stdin_stdout.mp he with rfl | rfl
          · exact ⟨(ha.other b hba).symm.trans hb.free,_,(ho₃ b).trans hb.self,rfl⟩
          · exact ⟨ha.free,_,(ho₃ a).trans ((hb.other a hba.symm).trans ha.self),rfl⟩
        · intro i hi
          rw [mem_stdin_stdout] at hi
          rw [ho₃,hb.other i fun h => hi (Or.inl (by rw [h])),
            ha.other i fun h => hi (Or.inr (by rw [h]))]
    · simp only [h₂]
      refine Or.inr ⟨_,rfl,closeAll_undo ?_ ?_⟩
      · intro e he
        rw [mem_stdin.mp he]
        exact ⟨ha.free,_,(ho₂ a).trans ha.self,rfl⟩
      · intro i hi
        rw [mem_stdin] at hi
        rw [ho₂,ha.other i fun h => hi (by rw [h])]
  · simp only [h₁]
    exact Or.inr ⟨_,rfl,ho₁⟩

theorem newWithStdio_opens {o o' : OpenFileTable} {table : FdTable}
    (h : newWithStdio o = (.ok table,o')) : OpensStdio o table o' := by
  rcases newWithStdio_cases o with ⟨table₁,o₁,h₁,hopen⟩ | ⟨o₁,h₁,-⟩
  · rw [h] at h₁
    cases h₁
    exact hopen
  · rw [h] at h₁
    cases h₁

@[simp] theorem length_closeEntries (entries : List (Option FdEntry)) (o : OpenFileTable) :
    (closeEntries entries o).files.length = o.files.length := by
  induction entries generalizing o with
  | nil => rfl
  | cons entry rest ih =>
    cases entry with
    | none => exact ih o
    | some e => rw [closeEntries,ih,length_decRef]

theorem length_newWithStdio {result : Except FileError FdTable} (h : newWithStdio o = (result,o')) :
    o'.files.length = o.ensureSlots.files.length := by
  unfold newWithStdio at h
  rcases h₁ : o.alloc .nullInput .readOnly with ⟨r₁,o₁⟩
  have hlen₁ := length_alloc h₁
  rw [h₁] at h
  cases r₁ with
  | error e =>
    cases h
    exact hlen₁
  | ok a =>
    rcases h₂ : o₁.alloc .consoleStdout .writeOnly with ⟨r₂,o₂⟩
    have hlen₂ := length_alloc h₂
    rw [alloc_slots h₁,hlen₁] at hlen₂
    simp only [h₂] at h
    cases r₂ with
    | error e =>
      cases h
      exact (length_closeEntries _ _).trans hlen₂
    | ok b =>
      rcases h₃ : o₂.alloc .consoleStderr .writeOnly with ⟨r₃,o₃⟩
      have hlen₃ := length_alloc h₃
      rw [alloc_slots h₂,hlen₂] at hlen₃
      simp only [h₃] at h
      cases r₃ with
      | error e =>
        cases h
        exact (length_closeEntries _ _).trans hlen₃
      | ok c =>
        cases h
        exact hlen₃

theorem newWithStdio_new : ∃ table o', newWithStdio .new = (.ok table,o') := ⟨_,_,rfl⟩

theorem newWithStdio_error {e : FileError} (h : newWithStdio o = (.error e,o')) :
    e = .tooManySystemFiles ∧ o' = o := by
  have hne : o.files ≠ [] := by
    intro hnil
    obtain ⟨table,o₁,hok⟩ := newWithStdio_new
    have hnew : o = .new := by
      cases o
      exact congrArg OpenFileTable.mk hnil
    rw [hnew,hok] at h
    cases h
  rcases newWithStdio_cases o with ⟨table,o₁,hok,-⟩ | ⟨o₁,herr,hsame⟩
  · rw [h] at hok
    cases hok
  · rw [h] at herr
    cases herr
    exact ⟨rfl,files_eq (by rw [length_newWithStdio h,ensureSlots_of_ne hne]) hsame⟩

end FdTable

end VladOs
