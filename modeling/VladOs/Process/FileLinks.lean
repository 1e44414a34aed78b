import VladOs.Process.Descriptors
import VladOs.Process.Forest

namespace VladOs

open References FdTable OpenFileTable

def ProcessTable.ref (t : ProcessTable) (a : ProcessId × ℕ) : Option OpenFileId :=
  (t.get a.1).bind fun process => (process.fdTable.get a.2).map FdEntry.openFile

def ProcessTable.setFdTable (t : ProcessTable) (pid : ProcessId) (table : FdTable) : ProcessTable :=
  t.modify pid fun process => { process with fdTable := table }

structure FileLinks (t : ProcessTable) (o : OpenFileTable) : Prop where
  linked : Linked t.ref o.get OpenFile.Single
  zombie : ∀ {pid P}, t.get pid = some P → P.state ≠ .running → P.fdTable = .empty

namespace ProcessTable

variable {t : ProcessTable} {pid q : ProcessId} {P : Process} {fd : ℕ} {i : OpenFileId}
  {table : FdTable}

theorem ref_some (h : t.get pid = some P) (fd : ℕ) :
    t.ref (pid,fd) = (P.fdTable.get fd).map FdEntry.openFile := by
  simp [ref,h]

theorem ref_none (h : t.get pid = none) (fd : ℕ) : t.ref (pid,fd) = none := by
  simp [ref,h]

theorem ref_eq_some : t.ref (pid,fd) = some i ↔
    ∃ P, t.get pid = some P ∧ P.fdTable.get fd = some ⟨i⟩ := by
  unfold ref
  rw [Option.bind_eq_some_iff]
  refine exists_congr fun P => and_congr_right fun _ => ?_
  rw [Option.map_eq_some_iff]
  constructor
  · rintro ⟨⟨_⟩,h,rfl⟩
    exact h
  · intro h
    exact ⟨_,h,rfl⟩

theorem get_setFdTable (t : ProcessTable) (pid : ProcessId) (table : FdTable) (q : ProcessId) :
    (t.setFdTable pid table).get q =
      if q = pid then (t.get q).map (fun process => { process with fdTable := table }) else t.get q :=
  get_modify t pid _ q

theorem ref_setFdTable (h : t.get pid = some P) (q : ProcessId) (fd : ℕ) :
    (t.setFdTable pid table).ref (q,fd) =
      if q = pid then (table.get fd).map FdEntry.openFile else t.ref (q,fd) := by
  unfold ref
  rw [get_setFdTable]
  by_cases hq : q = pid
  · subst hq
    simp [h]
  · simp [hq]

theorem setFdTable_restore (h : t.get pid = some P) :
    (t.setFdTable pid table).setFdTable pid P.fdTable = t := by
  have hslot : t.processes[pid]? = some (some P) := Option.join_eq_some_iff.mp h
  obtain ⟨processes,nextPid⟩ := t
  simp only [setFdTable,modify,mk.injEq,and_true]
  refine List.ext_getElem? fun i => ?_
  rw [List.getElem?_modify,List.getElem?_modify]
  by_cases hi : pid = i
  · subst hi
    simp [hslot]
  · simp [hi]

structure SameFds (t t' : ProcessTable) : Prop where
  kept : ∀ {q Q'}, t'.get q = some Q' →
    ∃ Q, t.get q = some Q ∧ Q'.fdTable = Q.fdTable ∧ (Q'.state ≠ .running → Q.state ≠ .running)
  gone : ∀ {q Q}, t.get q = some Q → t'.get q = none → Q.fdTable = .empty

theorem SameFds.ref {t' : ProcessTable} (h : SameFds t t') (a : ProcessId × ℕ) : t'.ref a = t.ref a := by
  obtain ⟨q,fd⟩ := a
  cases hq : t.get q with
  | none =>
    rw [ref_none hq]
    cases hq' : t'.get q with
    | none => exact ref_none hq' fd
    | some Q' =>
      obtain ⟨Q,hQ,-⟩ := h.kept hq'
      rw [hq] at hQ
      cases hQ
  | some Q =>
    rw [ref_some hq]
    cases hq' : t'.get q with
    | none => rw [ref_none hq',h.gone hq hq',get_empty,Option.map_none]
    | some Q' =>
      obtain ⟨Q₀,hQ₀,hfd,-⟩ := h.kept hq'
      rw [hq] at hQ₀
      cases hQ₀
      rw [ref_some hq',hfd]

end ProcessTable

namespace FileLinks

open ProcessTable

variable {t t' : ProcessTable} {o o' : OpenFileTable} {pid : ProcessId} {P : Process} {fd : ℕ}
  {id : OpenFileId} {kind : OpenFileKind} {access : AccessMode}

theorem new : FileLinks .new .new where
  linked := ⟨by simp [ProcessTable.ref,ProcessTable.new,ProcessTable.get],
    by simp [ProcessTable.ref,ProcessTable.new,ProcessTable.get],
    by simp [OpenFileTable.new,OpenFileTable.get]⟩
  zombie h := by simp [ProcessTable.new,ProcessTable.get] at h

theorem target (h : FileLinks t o) (hP : t.get pid = some P) {e : FdEntry}
    (he : P.fdTable.get fd = some e) : ∃ file, o.get e.openFile = some file ∧ file.Single :=
  h.linked.target (ref_eq_some.mpr ⟨P,hP,he⟩)

theorem of_files (h : FileLinks t o) (ho : ∀ i, o'.get i = o.get i) : FileLinks t o' :=
  ⟨h.linked.congr (fun _ => rfl) ho,h.zombie⟩

theorem of_table (h : FileLinks t o) (hs : SameFds t t') : FileLinks t' o := by
  refine ⟨h.linked.congr hs.ref fun _ => rfl,?_⟩
  intro q Q' hq' hz
  obtain ⟨Q,hQ,hfd,hstate⟩ := hs.kept hq'
  rw [hfd]
  exact h.zombie hQ (hstate hz)

theorem setFdTable_zombie (h : FileLinks t o) (hP : t.get pid = some P) (hrun : P.state = .running)
    {table : FdTable} {q : ProcessId} {Q : Process} (hQ : (t.setFdTable pid table).get q = some Q)
    (hz : Q.state ≠ .running) : Q.fdTable = .empty := by
  rw [get_setFdTable] at hQ
  split at hQ
  · next hq =>
    subst hq
    rw [hP] at hQ
    cases hQ
    exact absurd hrun hz
  · exact h.zombie hQ hz

theorem opened (h : FileLinks t o) (hP : t.get pid = some P) (hrun : P.state = .running)
    (halloc : Allocated o kind access id o') (hfd : fd < MAX_FDS_PER_PROCESS)
    (hfree : P.fdTable.get fd = none) :
    FileLinks (t.setFdTable pid (P.fdTable.set fd (some ⟨id⟩))) o' := by
  refine ⟨h.linked.attach (a := (pid,fd)) ?_ halloc.free (c := ⟨kind,access,0,1⟩) rfl ?_ ?_
    halloc.self halloc.other,h.setFdTable_zombie hP hrun⟩
  · rw [ref_some hP,hfree,Option.map_none]
  · rw [ref_setFdTable hP,if_pos rfl,get_set _ hfd,if_pos rfl,Option.map_some]
  · rintro ⟨q,fd'⟩ hne
    rw [ref_setFdTable hP]
    split
    · next hq =>
      subst hq
      have hfd' : fd' ≠ fd := fun hc => hne (by rw [hc])
      rw [get_set _ hfd,if_neg hfd',ref_some hP]
    · rfl

theorem closed (h : FileLinks t o) (hP : t.get pid = some P) (hrun : P.state = .running)
    {e : FdEntry} (he : P.fdTable.get fd = some e) :
    FileLinks (t.setFdTable pid (P.fdTable.set fd none)) (o.decRef e.openFile) := by
  have hself : t.ref (pid,fd) = some e.openFile := by rw [ref_some hP,he,Option.map_some]
  have hdec := @get_decRef o e.openFile fun hf => h.linked.good hf
  refine ⟨h.linked.drop (fun a => a = (pid,fd)) ?_ ?_ ?_ ?_,h.setFdTable_zombie hP hrun⟩
  · rintro _ rfl
    rw [ref_setFdTable hP,if_pos rfl,get_set _ (get_lt he),if_pos rfl,Option.map_none]
  · rintro ⟨q,fd'⟩ hne
    rw [ref_setFdTable hP]
    split
    · next hq =>
      subst hq
      have hfd' : fd' ≠ fd := fun hc => hne (by rw [hc])
      rw [get_set _ (get_lt he),if_neg hfd',ref_some hP]
    · rfl
  · rintro _ i rfl hi
    rw [hself] at hi
    rw [hdec,if_pos (Option.some.inj hi).symm]
  · intro i hi
    rw [hdec,if_neg ?_]
    rintro rfl
    exact hi _ rfl hself

theorem setOffset (h : FileLinks t o) (offset : ℕ) : FileLinks t (o.setOffset id offset) := by
  refine ⟨h.linked.relabel ?_ ?_,h.zombie⟩
  · intro i
    rw [get_setOffset]
    split <;> simp
  · intro i file hf
    rw [get_setOffset] at hf
    split at hf
    · obtain ⟨file',hf',rfl⟩ := Option.map_eq_some_iff.mp hf
      have hs : file'.Single := h.linked.good hf'
      exact hs
    · exact h.linked.good hf

theorem sameFds_reaped (h : FileLinks t o) {p c : ProcessId} {C : Process} (hC : t.get c = some C)
    (hz : C.state ≠ .running) : SameFds t ((t.modify p (removeChild c)).remove c) := by
  refine ⟨?_,?_⟩
  · intro q Q' hQ'
    rw [get_reapChild] at hQ'
    split at hQ'
    · cases hQ'
    · split at hQ'
      · obtain ⟨Q,hQ,rfl⟩ := Option.map_eq_some_iff.mp hQ'
        exact ⟨Q,hQ,rfl,id⟩
      · exact ⟨Q',hQ',rfl,id⟩
  · intro q Q hQ hgone
    rw [get_reapChild] at hgone
    split at hgone
    · next hq =>
      subst hq
      rw [hC] at hQ
      cases hQ
      exact h.zombie hC hz
    · split at hgone
      · rw [hQ] at hgone
        cases hgone
      · rw [hQ] at hgone
        cases hgone

theorem reaped (h : FileLinks t o) {p c : ProcessId} {C : Process} (hC : t.get c = some C)
    (hz : C.state ≠ .running) : FileLinks ((t.modify p (removeChild c)).remove c) o :=
  h.of_table (h.sameFds_reaped hC hz)

theorem isZombie_iff {process : Process} : process.isZombie = true ↔ process.state ≠ .running := by
  simp [Process.isZombie]

theorem sameFds_reapOrphan (h : FileLinks t o) (pid : ProcessId) : SameFds t (t.reapOrphanIfZombie pid) := by
  refine ⟨?_,?_⟩
  · intro q Q' hQ'
    rw [get_reapOrphanIfZombie] at hQ'
    split at hQ'
    · obtain ⟨Q,hQ,hk⟩ := Option.bind_eq_some_iff.mp hQ'
      unfold unlessDeadOrphan at hk
      split at hk
      · cases hk
      · cases hk
        exact ⟨_,hQ,rfl,id⟩
    · exact ⟨Q',hQ',rfl,id⟩
  · intro q Q hQ hgone
    rw [get_reapOrphanIfZombie,hQ] at hgone
    split at hgone
    · rw [Option.bind_some,unlessDeadOrphan] at hgone
      split at hgone
      · next hd => exact h.zombie hQ (isZombie_iff.mp (Bool.and_eq_true_iff.mp hd).2)
      · cases hgone
    · cases hgone

theorem reapOrphanIfZombie (h : FileLinks t o) : FileLinks (t.reapOrphanIfZombie pid) o :=
  h.of_table (h.sameFds_reapOrphan pid)

theorem ref_exited (h : FileLinks t o) (hP : t.get pid = some P) (hnd : P.children.Nodup)
    (hself : pid ∉ P.children) (exit : ProcessExit) (a : ProcessId × ℕ) :
    (P.children.foldl orphanChild (t.modify pid (ProcessTable.exited exit))).ref a =
      if a.1 = pid then none else t.ref a := by
  obtain ⟨q,fd⟩ := a
  have hq := @get_markExited t pid P exit hnd hself q
  by_cases hpid : q = pid
  · subst hpid
    rw [if_pos rfl,hP,Option.map_some] at hq
    rw [if_pos rfl,ref_some hq]
    change (empty.get fd).map _ = none
    rw [get_empty,Option.map_none]
  · rw [if_neg hpid] at hq
    rw [if_neg hpid]
    unfold ref
    rw [hq]
    split
    · cases hQ : t.get q with
      | none => rfl
      | some Q =>
        rw [Option.bind_some,orphanOrReap]
        split
        · next hz => simp [h.zombie hQ (isZombie_iff.mp hz),get_empty]
        · rfl
    · rfl

theorem mem_entries_ref (hP : t.get pid = some P) {i : OpenFileId} :
    some ⟨i⟩ ∈ P.fdTable.entries ↔ ∃ fd, t.ref (pid,fd) = some i := by
  rw [mem_entries]
  refine exists_congr fun fd => ?_
  rw [ref_eq_some]
  constructor
  · exact fun hi => ⟨P,hP,hi⟩
  · rintro ⟨P',hP',hi⟩
    rw [hP] at hP'
    cases hP'
    exact hi

theorem get_closed (h : FileLinks t o) (i : OpenFileId) : (closeEntries P.fdTable.entries o).get i =
    if some ⟨i⟩ ∈ P.fdTable.entries then none else o.get i :=
  get_closeEntries _ (fun _ hf => h.linked.good hf) i

theorem exited (h : FileLinks t o) (hP : t.get pid = some P) (hnd : P.children.Nodup)
    (hself : pid ∉ P.children) (exit : ProcessExit) :
    FileLinks (P.children.foldl orphanChild (t.modify pid (ProcessTable.exited exit)))
      (closeEntries P.fdTable.entries o) := by
  have href := h.ref_exited hP hnd hself exit
  refine ⟨h.linked.drop (fun a => a.1 = pid) (fun a ha => ?_) (fun a ha => ?_) ?_ fun i hi => ?_,?_⟩
  · rw [href,if_pos ha]
  · rw [href,if_neg ha]
  · rintro ⟨q,fd⟩ i rfl hi
    rw [h.get_closed,if_pos ((mem_entries_ref hP).mpr ⟨fd,hi⟩)]
  · rw [h.get_closed,if_neg]
    rw [mem_entries_ref hP]
    rintro ⟨fd,hfd⟩
    exact hi (pid,fd) rfl hfd
  · intro q Q hQ hz
    rw [@get_markExited t pid P exit hnd hself q] at hQ
    split at hQ
    · obtain ⟨Q₀,-,rfl⟩ := Option.map_eq_some_iff.mp hQ
      rfl
    · split at hQ
      · obtain ⟨Q₀,hQ₀,hk⟩ := Option.bind_eq_some_iff.mp hQ
        unfold orphanOrReap at hk
        split at hk
        · cases hk
        · next hrun =>
          cases hk
          exact absurd (isZombie_iff.mpr hz) hrun
      · exact h.zombie hQ hz

theorem get_stdio (a b c : OpenFileId) (fd : ℕ) :
    (stdio a b c).get fd = if fd = STDERR_FILENO then some ⟨c⟩ else if fd = STDOUT_FILENO then some ⟨b⟩
      else if fd = STDIN_FILENO then some ⟨a⟩ else none := by
  unfold stdio
  rw [FdTable.get_set _ (by decide),FdTable.get_set _ (by decide),FdTable.get_set _ (by decide),
    get_empty]

theorem ref_created {parent : Option ProcessId} {process : Process}
    (hc : Forest.Created t parent process pid t') (q : ProcessId) (fd : ℕ) :
    t'.ref (q,fd) =
      if q = pid then (process.fdTable.get fd).map FdEntry.openFile else t.ref (q,fd) := by
  unfold ref
  rw [hc.get]
  by_cases hq : q = pid
  · simp [hq]
  · rw [if_neg hq,if_neg hq]
    split
    · cases t.get q <;> rfl
    · rfl

theorem created (h : FileLinks t o) {parent : Option ProcessId} {space : AddressSpace}
    {heap : UserHeap} {table : FdTable} {mainTask : TaskId} (hfresh : t.get pid = none)
    (hc : Forest.Created t parent (newProcess pid parent space heap table mainTask) pid t')
    (hopen : OpensStdio o table o') : FileLinks t' o' := by
  obtain ⟨ha,hb,hc'⟩ := hopen
  rename_i a b c o₁ o₂
  have hnone : ∀ fd, t.ref (pid,fd) = none := ref_none hfresh
  have h₁ := h.linked.attach_update (hnone STDIN_FILENO) ha.free ha.self ha.other rfl
  have h₂ := h₁.attach_update (a := (pid,STDOUT_FILENO)) (by simp [hnone]) hb.free hb.self hb.other rfl
  have h₃ := h₂.attach_update (a := (pid,STDERR_FILENO)) (by simp [hnone]) hc'.free hc'.self
    hc'.other rfl
  refine ⟨h₃.congr ?_ fun _ => rfl,?_⟩
  · rintro ⟨q,fd⟩
    rw [ref_created hc]
    by_cases hq : q = pid
    · subst hq
      rw [if_pos rfl]
      change ((stdio a b c).get fd).map _ = _
      rw [get_stdio]
      by_cases h2 : fd = STDERR_FILENO
      · simp [h2]
      · by_cases h1 : fd = STDOUT_FILENO
        · simp [h1]
        · by_cases h0 : fd = STDIN_FILENO
          · simp [h0]
          · simp [h2,h1,h0,hnone]
    · have hne : ∀ n, (q,fd) ≠ (pid,n) := fun n he => hq (Prod.mk.inj he).1
      rw [if_neg hq,Function.update_of_ne (hne _),Function.update_of_ne (hne _),
        Function.update_of_ne (hne _)]
  · intro q Q hQ hz
    rw [hc.get] at hQ
    split at hQ
    · cases hQ
      exact absurd rfl hz
    · split at hQ
      · obtain ⟨Q₀,hQ₀,rfl⟩ := Option.map_eq_some_iff.mp hQ
        have hempty : Q₀.fdTable = .empty := h.zombie hQ₀ hz
        exact hempty
      · exact h.zombie hQ hz

end FileLinks

def fdRow (slot : Option Process) : List (Option FdEntry) :=
  slot.elim [] fun process => process.fdTable.entries

def ProcessTable.references (t : ProcessTable) : List OpenFileId :=
  t.processes.flatMap fun slot => (fdRow slot).filterMap (Option.map FdEntry.openFile)

def runningDescriptors (slot : Option Process) : ℕ :=
  slot.elim 0 fun process => if process.state = .running then process.fdTable.openCount else 0

def ProcessTable.openDescriptors (t : ProcessTable) : ℕ := (t.processes.map runningDescriptors).sum

namespace FileLinks

open ProcessTable

variable {t : ProcessTable} {o : OpenFileTable} {id : OpenFileId} {file : OpenFile}

theorem fdRow_ref {i j : ℕ} {row : List (Option FdEntry)} {e : FdEntry}
    (hrow : (t.processes.map fdRow)[i]? = some row) (he : row[j]? = some (some e)) :
    t.ref (i,j) = some e.openFile := by
  rw [List.getElem?_map] at hrow
  obtain ⟨slot,hslot,rfl⟩ := Option.map_eq_some_iff.mp hrow
  cases slot with
  | none => simp [fdRow] at he
  | some P =>
    refine ref_eq_some.mpr ⟨P,by rw [ProcessTable.get,hslot]; rfl,?_⟩
    change P.fdTable.entries[j]? = _ at he
    rw [FdTable.get,he]
    rfl

theorem mem_references : id ∈ t.references ↔ ∃ a, t.ref a = some id := by
  unfold references
  rw [List.mem_flatMap]
  constructor
  · rintro ⟨slot,hslot,hmem⟩
    obtain ⟨x,hx,hid⟩ := List.mem_filterMap.mp hmem
    obtain ⟨e,rfl,rfl⟩ := Option.map_eq_some_iff.mp hid
    obtain ⟨i,hi⟩ := List.mem_iff_getElem?.mp hslot
    obtain ⟨j,hj⟩ := List.mem_iff_getElem?.mp hx
    exact ⟨(i,j),fdRow_ref (by rw [List.getElem?_map,hi]; rfl) hj⟩
  · rintro ⟨⟨q,fd⟩,ha⟩
    obtain ⟨P,hP,hfd⟩ := ref_eq_some.mp ha
    refine ⟨some P,?_,List.mem_filterMap.mpr ⟨some ⟨id⟩,?_,rfl⟩⟩
    · exact List.mem_of_getElem? (Option.join_eq_some_iff.mp hP)
    · exact mem_entries.mpr ⟨fd,hfd⟩

theorem references_nodup (h : FileLinks t o) : t.references.Nodup := by
  have hrows : t.references =
      (t.processes.map fdRow).flatMap fun row => row.filterMap (Option.map FdEntry.openFile) := by
    rw [references,List.flatMap_map]
  rw [hrows]
  refine nodup_flatMap_filterMap fun hi hi' hj hj' he => ?_
  have ha := fdRow_ref hi hj
  rw [he] at ha
  exact Prod.mk.inj (h.linked.unique ha (fdRow_ref hi' hj'))

theorem count_references (h : FileLinks t o) (hf : o.get id = some file) :
    t.references.count id = 1 :=
  List.count_eq_one_of_mem h.references_nodup (mem_references.mpr (h.linked.used hf))

theorem activeCount_eq (h : FileLinks t o) : o.activeCount = t.references.length := by
  have hperm : (occupied o.files).Perm t.references := by
    refine (List.perm_ext_iff_of_nodup ?_ h.references_nodup).mpr fun i => ?_
    · exact List.Nodup.filter _ List.nodup_range
    · rw [mem_references,occupied,List.mem_filter,List.mem_range]
      constructor
      · rintro ⟨-,hi⟩
        obtain ⟨file,hf⟩ := Option.isSome_iff_exists.mp hi
        exact h.linked.used hf
      · rintro ⟨a,ha⟩
        obtain ⟨file,hf,-⟩ := h.linked.target ha
        refine ⟨OpenFileTable.get_lt hf,?_⟩
        change (o.get i).isSome = true
        rw [hf]
        rfl
  rw [← hperm.length_eq,occupied_length]
  rfl

theorem openDescriptors_eq (h : FileLinks t o) : t.openDescriptors = t.references.length := by
  have hrow : ∀ slot ∈ t.processes, runningDescriptors slot =
      ((fdRow slot).filterMap (Option.map FdEntry.openFile)).length := by
    intro slot hslot
    cases slot with
    | none => rfl
    | some P =>
      obtain ⟨i,hi⟩ := List.mem_iff_getElem?.mp hslot
      have hP : t.get i = some P := by
        rw [ProcessTable.get,hi]
        rfl
      have hlen : ∀ entries : List (Option FdEntry),
          (entries.filterMap (Option.map FdEntry.openFile)).length =
            (entries.filter Option.isSome).length := by
        intro entries
        induction entries with
        | nil => rfl
        | cons e rest ih => cases e <;> simp [ih]
      change (if P.state = .running then P.fdTable.openCount else 0) =
        (P.fdTable.entries.filterMap (Option.map FdEntry.openFile)).length
      rw [hlen]
      split
      · rfl
      · next hz =>
        rw [h.zombie hP hz]
        rfl
  rw [openDescriptors,references,List.length_flatMap,List.map_congr_left hrow]

end FileLinks

end VladOs
