import VladOs.Kernel.Switching
import VladOs.Kernel.View

namespace VladOs

open Code Paging OpenFileTable FdTable ProcessTable

namespace Kernel

section

variable {o o' : OpenFileTable} {es : List (Option FdEntry)} {fd : ℕ}

theorem fileView_some (e : FdEntry) : fileView o (some e) = (o.get e.openFile).map OpenFile.view := rfl

theorem map_fileView_congr (h : ∀ {e}, some e ∈ es → o'.get e.openFile = o.get e.openFile) :
    es.map (fileView o') = es.map (fileView o) := by
  refine List.map_congr_left fun entry hmem => ?_
  cases entry with
  | none => rfl
  | some e => rw [fileView_some,fileView_some,h hmem]

theorem map_fileView_set (x : Option FdEntry)
    (h : ∀ {j e}, j ≠ fd → es[j]? = some (some e) → o'.get e.openFile = o.get e.openFile) :
    (es.set fd x).map (fileView o') = (es.map (fileView o)).set fd (fileView o' x) := by
  rw [List.map_set]
  refine List.ext_getElem? fun j => ?_
  rw [List.getElem?_set,List.getElem?_set,List.length_map,List.length_map]
  split
  · rfl
  · next hj =>
    rw [List.getElem?_map,List.getElem?_map]
    cases hes : es[j]? with
    | none => rfl
    | some entry =>
      cases entry with
      | none => rfl
      | some e =>
        rw [Option.map_some,Option.map_some,fileView_some,fileView_some,h (fun hc => hj hc.symm) hes]

theorem findIdx?_congr {α : Type} {l : List α} {p q : α → Bool} (h : ∀ x ∈ l, p x = q x) :
    l.findIdx? p = l.findIdx? q := by
  induction l with
  | nil => rfl
  | cons x rest ih =>
    rw [List.findIdx?_cons,List.findIdx?_cons,h x List.mem_cons_self,
      ih fun y hy => h y (List.mem_cons_of_mem _ hy)]

end

structure Caller (B : BootMemory) (inits : List UserTaskInit) (k : Kernel) (i : ℕ) (pid : ProcessId)
    (P : Process) : Prop where
  inv : CoreInv B (k.core inits)
  current : k.current = some i
  task : ∃ t, k.tasks[i]? = some t ∧ t.processId = some pid
  acts : Acts (k.core inits) i pid P

variable {B : BootMemory} {inits : List UserTaskInit} {k k' : Kernel} {i : ℕ} {pid q : ProcessId}
  {P Q : Process} {fd : ℕ} {ε : Type}

theorem viewOf_some (h : k.processes.get pid = some P) : k.viewOf pid = some (k.processView P) := by
  rw [viewOf,h,Option.map_some]

theorem viewOf_congr (hget : k'.processes.get q = k.processes.get q)
    (hsame : ∀ {Q}, k.processes.get q = some Q → k'.processView Q = k.processView Q) :
    k'.viewOf q = k.viewOf q := by
  unfold viewOf
  rw [hget]
  cases hq : k.processes.get q with
  | none => rfl
  | some Q => rw [Option.map_some,Option.map_some,hsame hq]

theorem processView_congr
    (hpage : k'.memory.page P.addressSpace.level4Frame = k.memory.page P.addressSpace.level4Frame)
    (hfiles : ∀ {e}, some e ∈ P.fdTable.entries →
      k'.openFiles.get e.openFile = k.openFiles.get e.openFile) :
    k'.processView P = k.processView P := by
  simp only [processView,hpage,map_fileView_congr hfiles]

theorem processView_file (k : Kernel) (P : Process) (fd : ℕ) :
    (k.processView P).file fd =
      (P.fdTable.get fd).bind fun e => (k.openFiles.get e.openFile).map OpenFile.view := by
  rw [ProcessView.file,processView,List.getElem?_map,FdTable.get]
  cases P.fdTable.entries[fd]? with
  | none => rfl
  | some entry => rfl

namespace Caller

theorem get (h : Caller B inits k i pid P) : k.processes.get pid = some P := h.acts.get

theorem index_eq {j : ℕ} (h : Caller B inits k i pid P) (hcur : k.current = some j) : j = i :=
  Option.some.inj (hcur.symm.trans h.current)

theorem process_eq {t : Task} (h : Caller B inits k i pid P) (ht : k.tasks[i]? = some t) :
    t.processId = some pid := by
  obtain ⟨u,hu,hup⟩ := h.task
  rw [ht] at hu
  cases hu
  exact hup

theorem sound (h : Caller B inits k i pid P) : k.memory.Sound B := h.inv.homes.sound

theorem space (h : Caller B inits k i pid P) :
    P.addressSpace.level4Frame ∈ k.memory.addressSpaces := (h.inv.homes.process h.acts.get).1

theorem heap (h : Caller B inits k i pid P) :
    HeapInv (k.memory.page P.addressSpace.level4Frame) P.heap := (h.inv.homes.process h.acts.get).2

theorem addressSpace (h : Caller B inits k i pid P) :
    k.processes.addressSpace pid = some P.addressSpace := by
  simp [ProcessTable.addressSpace,h.get]

theorem fdTable (h : Caller B inits k i pid P) : k.processes.fdTable pid = some P.fdTable := by
  simp [ProcessTable.fdTable,h.get]

theorem root_ne (h : Caller B inits k i pid P) (hQ : k.processes.get q = some Q) (hne : q ≠ pid) :
    Q.addressSpace.level4Frame ≠ P.addressSpace.level4Frame := by
  intro he
  refine hne (h.inv.homes.unique hQ h.acts.get ?_)
  rw [← AddressSpace.mk.injEq] at he
  exact he

theorem file_ne (h : Caller B inits k i pid P) {e e' : FdEntry} (he : P.fdTable.get fd = some e)
    (hQ : k.processes.get q = some Q) {fd' : ℕ} (he' : Q.fdTable.get fd' = some e')
    (hne : (q,fd') ≠ (pid,fd)) : e'.openFile ≠ e.openFile := by
  intro hid
  have h₁ : k.processes.ref (pid,fd) = some e.openFile := ref_eq_some.mpr ⟨P,h.get,he⟩
  have h₂ : k.processes.ref (q,fd') = some e.openFile := ref_eq_some.mpr ⟨Q,hQ,hid ▸ he'⟩
  exact hne (h.inv.files.linked.unique h₂ h₁)

theorem file_occupied (h : Caller B inits k i pid P) (hQ : k.processes.get q = some Q) {e : FdEntry}
    (he : some e ∈ Q.fdTable.entries) : ∃ file, k.openFiles.get e.openFile = some file := by
  obtain ⟨fd,hfd⟩ := mem_entries.mp he
  obtain ⟨file,hf,-⟩ := h.inv.files.target hQ hfd
  exact ⟨file,hf⟩

theorem spec_currentProcessId (h : Caller B inits k i pid P) {R : Option ProcessId → Kernel → Prop}
    {E : ε → Kernel → Prop} : Spec currentProcessId k R E ↔ R (some pid) k := by
  obtain ⟨t,ht,hp⟩ := h.task
  rw [currentProcessId,spec_bind,spec_read]
  simp only [h.current,spec_bind]
  rw [spec_taskAt ht,spec_pure,hp]

theorem view_lowest (h : Caller B inits k i pid P) :
    (k.processView P).files.findIdx? Option.isNone = P.fdTable.entries.findIdx? Option.isNone := by
  rw [processView,List.findIdx?_map]
  refine findIdx?_congr fun entry hmem => ?_
  cases entry with
  | none => rfl
  | some e =>
    obtain ⟨file,hf⟩ := h.file_occupied h.get hmem
    simp [fileView_some,hf]

theorem openFileFor_spec (h : Caller B inits k i pid P) (fd : ℕ) :
    Spec (openFileFor fd) k
      (fun r k' => k' = k ∧ r.1 = pid ∧ P.fdTable.get fd = some ⟨r.2.1⟩ ∧
        k.openFiles.get r.2.1 = some r.2.2)
      (fun e k' => k' = k ∧ e = .badFd ∧ (k.processView P).file fd = none) := by
  rw [openFileFor,spec_bind,h.spec_currentProcessId,spec_bind,spec_orFail_some,spec_bind,spec_read,
    spec_bind,h.fdTable,Option.bind_some]
  cases hfd : P.fdTable.get fd with
  | none =>
    rw [spec_orFail_none]
    exact ⟨rfl,rfl,by rw [processView_file,hfd,Option.bind_none]⟩
  | some e =>
    obtain ⟨file,hf,-⟩ := h.inv.files.target h.acts.get hfd
    have hf' : k.openFiles.get e.openFile = some file := hf
    rw [spec_orFail_some,spec_bind,hf',spec_orFail_some,spec_pure]
    exact ⟨rfl,rfl,rfl,hf'⟩

end Caller

end Kernel

end VladOs
