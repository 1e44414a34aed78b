import VladOs.Kernel.Core

namespace VladOs

open Paging OpenFileTable FdTable ProcessTable

variable {B : BootMemory} {c : Core} {i w pid parent child : ℕ} {P Q C : Process} {v v' : TaskView}
  {t t' : ProcessTable} {o' : OpenFileTable} {m m' : Memory} {statusPtr : Option VirtAddr}
  {exit : ProcessExit}

theorem WaitsFor.transport (h : WaitsFor t m v child statusPtr) (hv : v'.process = v.process)
    (hparent : ∀ {pid P}, v.process = some pid → t.get pid = some P → child ∈ P.children →
      ∃ P', t'.get pid = some P' ∧ P'.addressSpace = P.addressSpace ∧ child ∈ P'.children ∧
        SameFlags (m.page P.addressSpace.level4Frame) (m'.page P.addressSpace.level4Frame))
    (hchild : ∀ {C}, t.get child = some C → C.state = .running →
      ∃ C', t'.get child = some C' ∧ C'.state = .running) :
    WaitsFor t' m' v' child statusPtr := by
  obtain ⟨pid,P,C,hp,hP,hmem,hC,hrun,hptr⟩ := h
  obtain ⟨P',hP',hs,hmem',hflags⟩ := hparent hp hP hmem
  obtain ⟨C',hC',hrun'⟩ := hchild hC hrun
  refine ⟨pid,P',C',hv.trans hp,hP',hmem',hC',hrun',?_⟩
  intro a ha
  rw [hs]
  exact hflags.allowed (hptr a ha)

theorem getElem?_modify_phase {views : List TaskView} {phase : Phase} {j : ℕ}
    (h : (views.modify i (.setPhase phase))[j]? = some v') :
    ∃ v, views[j]? = some v ∧ v'.id = v.id ∧ v'.process = v.process ∧
      (j = i ∧ v'.phase = phase ∨ j ≠ i ∧ v' = v) := by
  rw [List.getElem?_modify] at h
  obtain ⟨v,hv,hf⟩ := Option.map_eq_some_iff.mp h
  refine ⟨v,hv,?_⟩
  by_cases hj : i = j
  · rw [if_pos hj] at hf
    subst hf
    exact ⟨rfl,rfl,Or.inl ⟨hj.symm,rfl⟩⟩
  · rw [if_neg hj] at hf
    subst hf
    exact ⟨rfl,rfl,Or.inr ⟨fun hc => hj hc.symm,rfl⟩⟩

theorem ProcessExits.running_iff {t t' : ProcessTable} {pid q : ProcessId} (hx : ProcessExits t pid t')
    (hq : q ≠ pid) : t'.state q = some .running ↔ t.state q = some .running := by
  rw [TaskTable.state_eq,TaskTable.state_eq]
  constructor
  · rintro ⟨Q',hQ',hrun⟩
    obtain ⟨Q,hQ,-,-,-,hsame⟩ := hx.kept hQ'
    exact ⟨Q,hQ,(hsame hq).symm.trans hrun⟩
  · rintro ⟨Q,hQ,hrun⟩
    obtain ⟨Q',hQ',-⟩ := hx.survives hQ hrun hq
    obtain ⟨Q₀,hQ₀,-,-,-,hsame⟩ := hx.kept hQ'
    rw [hQ] at hQ₀
    cases hQ₀
    exact ⟨Q',hQ',(hsame hq).trans hrun⟩

namespace CoreInv

theorem acts_running (h : CoreInv B c) (ha : Acts c i pid P) : P.state = .running := by
  obtain ⟨v,hv,hp,hphase⟩ := ha.view
  obtain ⟨P',hP',hrun⟩ := h.tasks.running hv hp (by rw [hphase]; exact fun hc => by cases hc)
  rw [ha.get] at hP'
  cases hP'
  exact hrun

theorem waits_ne (h : CoreInv B c) (ha : Acts c i pid P) {j : ℕ} (hv : c.tasks[j]? = some v)
    (hphase : v.phase = .waiting child statusPtr) : v.process ≠ some pid ∧ j ≠ i := by
  obtain ⟨u,hu,hp,hactive⟩ := ha.view
  have hne : j ≠ i := by
    rintro rfl
    rw [hu] at hv
    cases hv
    rw [hactive] at hphase
    cases hphase
  exact ⟨fun hc => hne (h.tasks.unique hv hu hc hp),hne⟩

theorem waits_unique (h : CoreInv B c) {j : ℕ} {u : TaskView} {statusPtr' : Option VirtAddr}
    (hv : c.tasks[i]? = some v) (hu : c.tasks[j]? = some u)
    (hphase : v.phase = .waiting child statusPtr) (hphase' : u.phase = .waiting child statusPtr') :
    i = j := by
  obtain ⟨p,P,-,hp,hP,hmem,-⟩ := h.waits hv hphase
  obtain ⟨q,Q,-,hq,hQ,hmem',-⟩ := h.waits hu hphase'
  have hpq : p = q := h.forest.child_unique hP hQ hmem hmem'
  exact h.tasks.unique hv hu hp (hpq ▸ hq)

theorem waits_running (h : CoreInv B c) (hv : c.tasks[i]? = some v)
    (hphase : v.phase = .waiting child statusPtr) (hp : v.process = some pid)
    (hP : c.processes.get pid = some P) : P.state = .running := by
  obtain ⟨P',hP',hrun⟩ := h.tasks.running hv hp (by rw [hphase]; exact fun hc => by cases hc)
  rw [hP] at hP'
  cases hP'
  exact hrun

theorem spawnTask (h : CoreInv B c) (hroom : c.tasks.length < MAX_TASKS) :
    CoreInv B { c with tasks := c.tasks ++ [⟨c.tasks.length,none,.active⟩] } := by
  refine ⟨h.forest,h.orphans,h.files,h.tasks.spawn hroom,?_,h.homes⟩
  intro i v child statusPtr hv hphase
  rcases TaskTable.getElem?_snoc hv with ⟨hv,-⟩ | ⟨-,rfl⟩
  · exact h.waits hv hphase
  · cases hphase

theorem remaps (h : CoreInv B c) (hr : Remaps B c.memory m') : CoreInv B { c with memory := m' } := by
  refine ⟨h.forest,h.orphans,h.files,h.tasks,?_,h.homes.remaps hr⟩
  intro i v child statusPtr hv hphase
  refine (h.waits hv hphase).transport rfl ?_ fun hC hrun => ⟨_,hC,hrun⟩
  intro pid P _ hP hmem
  exact ⟨P,hP,rfl,hmem,hr.flags _ (h.homes.process hP).1⟩

theorem build (h : CoreInv B c) {init : UserTaskInit} (hb : Built B c.memory init m') :
    CoreInv B { c with memory := m', inits := init :: c.inits } :=
  ⟨h.forest,h.orphans,h.files,h.tasks,(h.remaps hb.toExtends.remaps).waits,h.homes.built hb⟩

theorem openFiles (h : CoreInv B c) (hf : FileLinks c.processes o') :
    CoreInv B { c with openFiles := o' } :=
  ⟨h.forest,h.orphans,hf,h.tasks,h.waits,h.homes⟩

theorem dropInit (h : CoreInv B c) (index : ℕ) :
    CoreInv B { c with inits := c.inits.eraseIdx index } :=
  ⟨h.forest,h.orphans,h.files,h.tasks,h.waits,h.homes.erase index⟩

theorem created_fresh (h : Forest t) {process : Process} {q : Option ProcessId}
    (hc : Forest.Created t q process pid t') : t.get pid = none := by
  cases hq : t.get pid with
  | none => rfl
  | some Q =>
    have hlt := (h.slot hq).2.2
    rw [hc.pid_eq] at hlt
    exact absurd hlt (Nat.lt_irrefl _)

theorem spawnProcess (h : CoreInv B c) {index : ℕ} {init : UserTaskInit} {parent : Option ProcessId}
    {table : FdTable} (hroom : c.tasks.length < MAX_TASKS) (hinit : c.inits[index]? = some init)
    (hopen : OpensStdio c.openFiles table o')
    (hc : Forest.Created c.processes parent (newProcess pid parent init.addressSpace init.heap table
      c.tasks.length) pid t') :
    CoreInv B { c with
      tasks := c.tasks ++ [⟨c.tasks.length,some pid,.active⟩]
      processes := t'
      openFiles := o'
      inits := c.inits.eraseIdx index } := by
  have hfresh := created_fresh h.forest hc
  refine ⟨h.forest.created hc,OrphansRun.created h.orphans rfl hc,h.files.created hfresh hc hopen,
    h.tasks.spawnUser hroom hc,?_,h.homes.spawned hinit hc⟩
  have hkeep : ∀ {q Q}, c.processes.get q = some Q →
      ∃ Q', t'.get q = some Q' ∧ (Q' = Q ∨ Q' = addChild pid Q) := by
    intro q Q hQ
    have hne : q ≠ pid := by
      rintro rfl
      rw [hfresh] at hQ
      cases hQ
    rw [hc.get,if_neg hne,hQ]
    split
    · exact ⟨_,rfl,Or.inr rfl⟩
    · exact ⟨_,rfl,Or.inl rfl⟩
  intro i v child statusPtr hv hphase
  rcases TaskTable.getElem?_snoc hv with ⟨hv,-⟩ | ⟨-,rfl⟩
  · refine (h.waits hv hphase).transport rfl ?_ ?_
    · intro q Q _ hQ hmem
      obtain ⟨Q',hQ',rfl | rfl⟩ := hkeep hQ
      · exact ⟨_,hQ',rfl,hmem,.refl _⟩
      · exact ⟨_,hQ',rfl,List.mem_append_left _ hmem,.refl _⟩
    · intro C hC hrun
      obtain ⟨C',hC',rfl | rfl⟩ := hkeep hC
      · exact ⟨_,hC',hrun⟩
      · exact ⟨_,hC',hrun⟩
  · cases hphase

structure KeepsLinks (f : Process → Process) : Prop where
  pid : ∀ P, (f P).pid = P.pid
  parent : ∀ P, (f P).parent = P.parent
  children : ∀ P, (f P).children = P.children
  state : ∀ P, (f P).state = P.state
  addressSpace : ∀ P, (f P).addressSpace = P.addressSpace
  mainTask : ∀ P, (f P).mainTask = P.mainTask
  orphaned : ∀ P, (f P).orphaned = P.orphaned

theorem modify (h : CoreInv B c) {f : Process → Process} (hf : KeepsLinks f)
    (hfiles : FileLinks (c.processes.modify pid f) o')
    (hhomes : Homes B (c.processes.modify pid f) c.inits m')
    (hflags : ∀ {j : ℕ} {v : TaskView} {child statusPtr q Q}, c.tasks[j]? = some v →
      v.phase = .waiting child statusPtr → v.process = some q → c.processes.get q = some Q →
      SameFlags (c.memory.page Q.addressSpace.level4Frame) (m'.page Q.addressSpace.level4Frame)) :
    CoreInv B { c with processes := c.processes.modify pid f, openFiles := o', memory := m' } := by
  have hnew : ∀ {q Q}, c.processes.get q = some Q → ∃ Q', (c.processes.modify pid f).get q = some Q' ∧
      (Q' = Q ∨ Q' = f Q) := by
    intro q Q hQ
    rw [get_modify,hQ]
    split
    · exact ⟨_,rfl,Or.inr rfl⟩
    · exact ⟨_,rfl,Or.inl rfl⟩
  have hold : ∀ {q Q'}, (c.processes.modify pid f).get q = some Q' →
      ∃ Q, c.processes.get q = some Q ∧ (Q' = Q ∨ Q' = f Q) := by
    intro q Q' hQ'
    rw [get_modify] at hQ'
    split at hQ'
    · obtain ⟨Q,hQ,rfl⟩ := Option.map_eq_some_iff.mp hQ'
      exact ⟨Q,hQ,Or.inr rfl⟩
    · exact ⟨Q',hQ',Or.inl rfl⟩
  refine ⟨h.forest.modify fun P => ⟨hf.pid P,hf.parent P,hf.children P,hf.orphaned P⟩,
    OrphansRun.modify h.orphans fun P => ⟨hf.state P,hf.orphaned P⟩,hfiles,?_,?_,hhomes⟩
  · refine h.tasks.processes rfl ?_ ?_
    · intro q Q' hQ'
      obtain ⟨Q,hQ,rfl | rfl⟩ := hold hQ'
      · exact ⟨_,hQ,rfl⟩
      · exact ⟨_,hQ,hf.mainTask Q⟩
    · intro q
      rw [TaskTable.state_eq,TaskTable.state_eq]
      constructor
      · rintro ⟨Q',hQ',hrun⟩
        obtain ⟨Q,hQ,rfl | rfl⟩ := hold hQ'
        · exact ⟨_,hQ,hrun⟩
        · exact ⟨_,hQ,(hf.state Q).symm.trans hrun⟩
      · rintro ⟨Q,hQ,hrun⟩
        obtain ⟨Q',hQ',rfl | rfl⟩ := hnew hQ
        · exact ⟨_,hQ',hrun⟩
        · exact ⟨_,hQ',(hf.state Q).trans hrun⟩
  · intro j v child statusPtr hv hphase
    refine (h.waits hv hphase).transport rfl ?_ ?_
    · intro q Q hq hQ hmem
      have hfl := hflags hv hphase hq hQ
      obtain ⟨Q',hQ',rfl | rfl⟩ := hnew hQ
      · exact ⟨_,hQ',rfl,hmem,hfl⟩
      · exact ⟨_,hQ',hf.addressSpace Q,by rw [hf.children]; exact hmem,hfl⟩
    · intro C hC hrun
      obtain ⟨C',hC',rfl | rfl⟩ := hnew hC
      · exact ⟨_,hC',hrun⟩
      · exact ⟨_,hC',(hf.state C).trans hrun⟩

theorem setFdTable (h : CoreInv B c) {table : FdTable}
    (hfiles : FileLinks (c.processes.setFdTable pid table) o') :
    CoreInv B { c with processes := c.processes.setFdTable pid table, openFiles := o' } := by
  have hhomes : Homes B (c.processes.setFdTable pid table) c.inits c.memory := by
    refine h.homes.processes ?_
    intro q Q' hQ'
    rw [get_setFdTable] at hQ'
    split at hQ'
    · obtain ⟨Q,hQ,rfl⟩ := Option.map_eq_some_iff.mp hQ'
      exact ⟨Q,hQ,rfl,rfl⟩
    · exact ⟨Q',hQ',rfl,rfl⟩
  refine h.modify ⟨?_,?_,?_,?_,?_,?_,?_⟩ hfiles hhomes fun _ _ _ _ => .refl _
  all_goals exact fun _ => rfl

theorem setBreak (h : CoreInv B c) (ha : Acts c i pid P) {brk mappedEnd : VirtAddr}
    (hs : m'.Sound B) (hspaces : m'.addressSpaces = c.memory.addressSpaces)
    (hpages : ∀ r, r ≠ P.addressSpace.level4Frame → m'.page r = c.memory.page r)
    (hheap : HeapInv (m'.page P.addressSpace.level4Frame) (P.heap.setBreak brk mappedEnd)) :
    CoreInv B { c with
      processes := c.processes.modify pid fun process =>
        { process with heap := process.heap.setBreak brk mappedEnd }
      memory := m' } := by
  have hfiles : FileLinks (c.processes.modify pid fun process =>
      { process with heap := process.heap.setBreak brk mappedEnd }) c.openFiles := by
    refine h.files.of_table ⟨?_,?_⟩
    · intro q Q' hQ'
      rw [get_modify] at hQ'
      split at hQ'
      · obtain ⟨Q,hQ,rfl⟩ := Option.map_eq_some_iff.mp hQ'
        exact ⟨Q,hQ,rfl,id⟩
      · exact ⟨Q',hQ',rfl,id⟩
    · intro q Q hQ hgone
      rw [get_modify,hQ] at hgone
      split at hgone <;> cases hgone
  refine h.modify ⟨?_,?_,?_,?_,?_,?_,?_⟩ hfiles
    (h.homes.setHeap ha.get rfl hs hspaces hpages hheap) ?_
  iterate 7 exact fun _ => rfl
  · intro j v child statusPtr q Q hv hphase hq hQ
    refine .of_eq (hpages _ ?_)
    intro he
    have hsame : Q.addressSpace = P.addressSpace := by
      rw [← AddressSpace.mk.injEq] at he
      exact he
    rw [h.homes.unique hQ ha.get hsame] at hq
    exact (h.waits_ne ha hv hphase).1 hq

theorem phase (h : CoreInv B c) {phase : Phase} (hv : c.tasks[i]? = some v)
    (hlive : ∀ {pid}, v.process = some pid →
      (phase ≠ .ended ↔ c.processes.state pid = some .running))
    (hwaits : ∀ {child statusPtr}, phase = .waiting child statusPtr →
      WaitsFor c.processes c.memory v child statusPtr) :
    CoreInv B { c with tasks := c.tasks.modify i (.setPhase phase) } := by
  refine ⟨h.forest,h.orphans,h.files,?_,?_,h.homes⟩
  · refine h.tasks.update (List.length_modify ..) rfl ?_ (fun hQ => ⟨_,hQ,rfl⟩) ?_
    · intro j v' hv'
      obtain ⟨u,hu,hid,hproc,-⟩ := getElem?_modify_phase hv'
      exact ⟨u,hu,hid,hproc⟩
    · intro j v' q hv' hq
      obtain ⟨u,hu,-,hproc,⟨rfl,hph⟩ | ⟨-,rfl⟩⟩ := getElem?_modify_phase hv'
      · rw [hv] at hu
        cases hu
        rw [hph]
        exact hlive (hproc ▸ hq)
      · exact h.tasks.live hu hq
  · intro j v' child statusPtr hv' hphase
    obtain ⟨u,hu,-,hproc,⟨rfl,hph⟩ | ⟨-,rfl⟩⟩ := getElem?_modify_phase hv'
    · rw [hv] at hu
      cases hu
      refine (hwaits (hph.symm.trans hphase)).transport hproc ?_ fun hC hrun => ⟨_,hC,hrun⟩
      intro q Q _ hQ hmem
      exact ⟨Q,hQ,rfl,hmem,.refl _⟩
    · exact h.waits hu hphase

theorem block (h : CoreInv B c) (ha : Acts c i pid P) (hmem : child ∈ P.children)
    (hC : c.processes.get child = some C) (hrun : C.state = .running)
    (hptr : ∀ a, statusPtr = some a →
      Allowed (userChecker .write) (c.memory.page P.addressSpace.level4Frame) a.addr waitStatusSize) :
    CoreInv B { c with tasks := c.tasks.modify i (.setPhase (.waiting child statusPtr)) } := by
  have hactive := h.acts_running ha
  obtain ⟨v,hv,hp,-⟩ := ha.view
  refine h.phase hv ?_ ?_
  · intro q hq
    obtain rfl : pid = q := Option.some.inj (hp.symm.trans hq)
    exact iff_of_true (fun hc => by cases hc) (TaskTable.state_eq.mpr ⟨P,ha.get,hactive⟩)
  · rintro child' statusPtr' ⟨⟩
    exact ⟨pid,P,C,hp,ha.get,hmem,hC,hrun,hptr⟩

theorem endTask (h : CoreInv B c) (hv : c.tasks[i]? = some v) (hp : v.process = none) :
    CoreInv B { c with tasks := c.tasks.modify i (.setPhase .ended) } := by
  refine h.phase hv ?_ ?_
  · intro q hq
    rw [hp] at hq
    cases hq
  · intro _ _ hc
    cases hc

end CoreInv

theorem StatusWritten.remaps {space : AddressSpace} (hm : m.Sound B)
    (h : StatusWritten B m space statusPtr exit m') : Remaps B m m' := by
  cases statusPtr with
  | none =>
    obtain rfl : m' = m := h
    exact .refl hm
  | some a => exact h.1.remaps

namespace CoreInv

theorem reap (h : CoreInv B c) (ha : Acts c i pid P) (hmem : child ∈ P.children)
    (hC : c.processes.get child = some C) (hz : C.state = .zombie exit) :
    CoreInv B { c with processes := reapTable c.processes pid child } := by
  have hne : C.state ≠ .running := by
    rw [hz]
    exact fun hc => by cases hc
  have hold : ∀ {q Q'}, (reapTable c.processes pid child).get q = some Q' → q ≠ child ∧
      ∃ Q, c.processes.get q = some Q ∧ (Q' = Q ∨ Q' = removeChild child Q) := by
    intro q Q' hQ'
    rw [reapTable,get_reapChild] at hQ'
    split at hQ'
    · cases hQ'
    · next hq =>
      refine ⟨hq,?_⟩
      split at hQ'
      · obtain ⟨Q,hQ,rfl⟩ := Option.map_eq_some_iff.mp hQ'
        exact ⟨Q,hQ,Or.inr rfl⟩
      · exact ⟨Q',hQ',Or.inl rfl⟩
  have hnew : ∀ {q Q}, c.processes.get q = some Q → Q.state = .running →
      ∃ Q', (reapTable c.processes pid child).get q = some Q' ∧
        (Q' = Q ∨ q = pid ∧ Q' = removeChild child Q) := by
    intro q Q hQ hrun
    have hqc : q ≠ child := by
      rintro rfl
      rw [hC] at hQ
      cases hQ
      exact hne hrun
    rw [reapTable,get_reapChild,if_neg hqc,hQ]
    split
    · next hq => exact ⟨_,rfl,Or.inr ⟨hq,rfl⟩⟩
    · exact ⟨_,rfl,Or.inl rfl⟩
  refine ⟨h.forest.reapChild ha.get hmem,OrphansRun.reaped h.orphans child,h.files.reaped hC hne,?_,?_,
    h.homes.processes ?_⟩
  · refine h.tasks.processes rfl ?_ ?_
    · intro q Q' hQ'
      obtain ⟨-,Q,hQ,rfl | rfl⟩ := hold hQ'
      · exact ⟨_,hQ,rfl⟩
      · exact ⟨_,hQ,rfl⟩
    · intro q
      rw [TaskTable.state_eq,TaskTable.state_eq]
      constructor
      · rintro ⟨Q',hQ',hrun⟩
        obtain ⟨-,Q,hQ,rfl | rfl⟩ := hold hQ'
        · exact ⟨_,hQ,hrun⟩
        · exact ⟨_,hQ,hrun⟩
      · rintro ⟨Q,hQ,hrun⟩
        obtain ⟨Q',hQ',rfl | ⟨-,rfl⟩⟩ := hnew hQ hrun
        · exact ⟨_,hQ',hrun⟩
        · exact ⟨_,hQ',hrun⟩
  · intro j v child' statusPtr hv hphase
    have hother := (h.waits_ne ha hv hphase).1
    refine (h.waits hv hphase).transport rfl ?_ ?_
    · intro q Q hq hQ hmem'
      obtain ⟨Q',hQ',rfl | ⟨rfl,-⟩⟩ := hnew hQ (h.waits_running hv hphase hq hQ)
      · exact ⟨_,hQ',rfl,hmem',.refl _⟩
      · exact absurd hq hother
    · intro D hD hrun
      obtain ⟨D',hD',rfl | ⟨-,rfl⟩⟩ := hnew hD hrun
      · exact ⟨_,hD',hrun⟩
      · exact ⟨_,hD',hrun⟩
  · intro q Q' hQ'
    obtain ⟨-,Q,hQ,rfl | rfl⟩ := hold hQ'
    · exact ⟨_,hQ,rfl,rfl⟩
    · exact ⟨_,hQ,rfl,rfl⟩

theorem exits (h : CoreInv B c) (ha : Acts c i pid P) (hx : ProcessExits c.processes pid t')
    (hforest : Forest t') (horphans : OrphansRun t') (hfiles : FileLinks t' o')
    {views' : List TaskView} (hlen : views'.length = c.tasks.length)
    (hviews : ∀ {j : ℕ} {v' : TaskView}, views'[j]? = some v' →
      ∃ v, c.tasks[j]? = some v ∧ v'.id = v.id ∧ v'.process = v.process ∧
        (j = i ∧ v'.phase = .ended ∨
          j ≠ i ∧ (v' = v ∨ v'.phase = .active ∧ v.phase ≠ .ended)))
    (hnone : ∀ {j : ℕ} {v' : TaskView} {statusPtr}, views'[j]? = some v' →
      v'.phase ≠ .waiting pid statusPtr) :
    CoreInv B { c with tasks := views', processes := t', openFiles := o' } := by
  obtain ⟨u,hu,hpid,-⟩ := ha.view
  refine ⟨hforest,horphans,hfiles,?_,?_,h.homes.processes ?_⟩
  · refine h.tasks.update hlen hx.nextPid ?_ ?_ ?_
    · intro j v' hv'
      obtain ⟨v,hv,hid,hproc,-⟩ := hviews hv'
      exact ⟨v,hv,hid,hproc⟩
    · intro q Q' hQ'
      obtain ⟨Q,hQ,hm,-⟩ := hx.kept hQ'
      exact ⟨Q,hQ,hm⟩
    · intro j v' q hv' hq
      obtain ⟨v,hv,-,hproc,hcase⟩ := hviews hv'
      have hqv : v.process = some q := hproc ▸ hq
      rcases hcase with ⟨rfl,hended⟩ | ⟨hj,hrest⟩
      · rw [hu] at hv
        cases hv
        obtain rfl : pid = q := Option.some.inj (hpid.symm.trans hqv)
        refine iff_of_false (fun hc => hc hended) ?_
        rw [TaskTable.state_eq]
        rintro ⟨Q',hQ',hrun⟩
        exact hx.dead hQ' hrun
      · have hne : q ≠ pid := by
          rintro rfl
          exact hj (h.tasks.unique hv hu hqv hpid)
        rw [hx.running_iff hne,← h.tasks.live hv hqv]
        rcases hrest with rfl | ⟨hactive,hnot⟩
        · exact Iff.rfl
        · rw [hactive]
          exact iff_of_true (fun hc => by cases hc) hnot
  · intro j v' child statusPtr hv' hphase
    obtain ⟨v,hv,-,-,hcase⟩ := hviews hv'
    rcases hcase with ⟨-,hended⟩ | ⟨hj,rfl | ⟨hactive,-⟩⟩
    · rw [hended] at hphase
      cases hphase
    · have hother := (h.waits_ne ha hv hphase).1
      have hchild : child ≠ pid := by
        rintro rfl
        exact hnone hv' hphase
      refine (h.waits hv hphase).transport rfl ?_ ?_
      · intro q Q hq hQ hmem
        have hne : q ≠ pid := by
          rintro rfl
          exact hother hq
        obtain ⟨Q',hQ',hs,hch⟩ := hx.survives hQ (h.waits_running hv hphase hq hQ) hne
        exact ⟨Q',hQ',hs,hch child hmem hchild,.refl _⟩
      · intro C hC hrun
        exact TaskTable.state_eq.mp ((hx.running_iff hchild).mpr (TaskTable.state_eq.mpr ⟨C,hC,hrun⟩))
    · rw [hactive] at hphase
      cases hphase
  · intro q Q' hQ'
    obtain ⟨Q,hQ,-,hs,hh,-⟩ := hx.kept hQ'
    exact ⟨Q,hQ,hs,hh⟩

theorem exitFiles (h : CoreInv B c) (ha : Acts c i pid P) (exit : ProcessExit) :
    FileLinks (exitTable c.processes pid P exit) (closeEntries P.fdTable.entries c.openFiles) :=
  h.files.exited ha.get (h.forest.nodup ha.get) (h.forest.self_notMem ha.get) exit

theorem exitAlone (h : CoreInv B c) (ha : Acts c i pid P) (exit : ProcessExit)
    (hnone : ∀ {j : ℕ} {v : TaskView} {statusPtr}, c.tasks[j]? = some v →
      v.phase ≠ .waiting pid statusPtr) :
    CoreInv B { c with
      tasks := c.tasks.modify i (.setPhase .ended)
      processes := (exitTable c.processes pid P exit).reapOrphanIfZombie pid
      openFiles := closeEntries P.fdTable.entries c.openFiles } := by
  refine h.exits ha (processExits_exitTable h.forest h.orphans ha.get).reapOrphan
    (h.forest.markExited ha.get exit).reapOrphanIfZombie (OrphansRun.exitAlone h.forest h.orphans ha.get)
    (h.exitFiles ha exit).reapOrphanIfZombie (List.length_modify ..) ?_ ?_
  · intro j v' hv'
    obtain ⟨v,hv,hid,hproc,hcase⟩ := getElem?_modify_phase hv'
    exact ⟨v,hv,hid,hproc,hcase.imp_right fun hc => ⟨hc.1,Or.inl hc.2⟩⟩
  · intro j v' statusPtr hv'
    obtain ⟨v,hv,-,-,⟨-,hended⟩ | ⟨-,rfl⟩⟩ := getElem?_modify_phase hv'
    · rw [hended]
      exact fun hc => by cases hc
    · exact hnone hv

theorem parent_exitTable (h : CoreInv B c) (ha : Acts c i pid P)
    (hQ : c.processes.get parent = some Q) (hmem : pid ∈ Q.children) :
    (exitTable c.processes pid P exit).get parent = some Q :=
  get_exitTable_parent h.forest ha.get hQ hmem

theorem exitWoken (h : CoreInv B c) (ha : Acts c i pid P) (exit : ProcessExit)
    (hv : c.tasks[w]? = some v) (hphase : v.phase = .waiting pid statusPtr)
    (hQ : c.processes.get parent = some Q) (hmem : pid ∈ Q.children) :
    CoreInv B { c with
      tasks := (c.tasks.modify i (.setPhase .ended)).modify w (.setPhase .active)
      processes := reapTable (exitTable c.processes pid P exit) parent pid
      openFiles := closeEntries P.fdTable.entries c.openFiles } := by
  have hparent : (exitTable c.processes pid P exit).get parent = some Q :=
    h.parent_exitTable ha hQ hmem
  have hself : (exitTable c.processes pid P exit).get pid = some (exited exit P) :=
    get_exitTable_self h.forest ha.get
  have hwi := (h.waits_ne ha hv hphase).2
  have hviews : ∀ {j : ℕ} {v' : TaskView},
      ((c.tasks.modify i (.setPhase .ended)).modify w (.setPhase .active))[j]? = some v' →
      ∃ u, c.tasks[j]? = some u ∧ v'.id = u.id ∧ v'.process = u.process ∧
        (j = i ∧ v'.phase = .ended ∨ j ≠ i ∧ (j = w ∧ v'.phase = .active ∨ j ≠ w ∧ v' = u)) := by
    intro j v' hv'
    obtain ⟨u',hu',hid',hproc',hcase'⟩ := getElem?_modify_phase hv'
    obtain ⟨u,hu,hid,hproc,hcase⟩ := getElem?_modify_phase hu'
    refine ⟨u,hu,hid'.trans hid,hproc'.trans hproc,?_⟩
    rcases hcase' with ⟨rfl,hactive⟩ | ⟨hjw,rfl⟩
    · exact Or.inr ⟨hwi,Or.inl ⟨rfl,hactive⟩⟩
    · exact hcase.imp_right fun hc => ⟨hc.1,Or.inr ⟨hjw,hc.2⟩⟩
  refine h.exits ha (processExits_exitTable h.forest h.orphans ha.get).reap
    ((h.forest.markExited ha.get exit).reapChild hparent hmem)
    (OrphansRun.exitReaped h.forest h.orphans ha.get) ((h.exitFiles ha exit).reaped hself ?_) ?_ ?_ ?_
  · exact fun hc => by cases hc
  · rw [List.length_modify,List.length_modify]
  · intro j v' hv'
    obtain ⟨u,hu,hid,hproc,hcase⟩ := hviews hv'
    refine ⟨u,hu,hid,hproc,hcase.imp_right fun hc => ⟨hc.1,?_⟩⟩
    rcases hc.2 with ⟨rfl,hactive⟩ | ⟨-,rfl⟩
    · rw [hv] at hu
      cases hu
      exact Or.inr ⟨hactive,by rw [hphase]; exact fun hc => by cases hc⟩
    · exact Or.inl rfl
  · intro j v' statusPtr' hv' hp
    obtain ⟨u,hu,-,-,⟨-,hended⟩ | ⟨-,⟨-,hactive⟩ | ⟨hjw,rfl⟩⟩⟩ := hviews hv'
    · rw [hended] at hp
      cases hp
    · rw [hactive] at hp
      cases hp
    · exact hjw (h.waits_unique hu hv hp hphase)

theorem init (B : BootMemory) : CoreInv B ⟨[],.new,.new,B.memory,[]⟩ where
  forest := .new
  orphans h := by simp [ProcessTable.new,ProcessTable.get] at h
  files := .new
  tasks := .new
  waits h := by simp at h
  homes := .new B

end CoreInv

theorem CoreStep.inv {c' : Core} (h : CoreInv B c) (hs : CoreStep B c c') : CoreInv B c' := by
  cases hs with
  | spawnTask hroom => exact h.spawnTask hroom
  | extend he => exact h.remaps he.remaps
  | build hb => exact h.build hb
  | dropInit index ho => exact (h.openFiles (h.files.of_files ho)).dropInit index
  | spawnProcess hroom hinit hopen hc => exact h.spawnProcess hroom hinit hopen hc
  | write hw => exact h.remaps hw.remaps
  | failOpen ho => exact h.openFiles (h.files.of_files ho)
  | openFile ha halloc hfd hfree =>
    exact h.setFdTable (h.files.opened ha.get (h.acts_running ha) halloc hfd hfree)
  | readFile hw => exact (h.remaps hw.remaps).openFiles (h.files.setOffset _)
  | closeFile ha he => exact h.setFdTable (h.files.closed ha.get (h.acts_running ha) he)
  | brk ha hs hspaces hpages hheap => exact h.setBreak ha hs hspaces hpages hheap
  | block ha hmem hC hrun hptr => exact h.block ha hmem hC hrun hptr
  | reap ha hmem hC hz hw => exact (h.reap ha hmem hC hz).remaps (hw.remaps h.homes.sound)
  | exitAlone exit ha hnone => exact h.exitAlone ha exit hnone
  | exitWoken exit ha hv hphase hp hQ hmem hw =>
    exact (h.exitWoken ha exit hv hphase hQ hmem).remaps (hw.remaps h.homes.sound)
  | endTask hv hp => exact h.endTask hv hp

end VladOs
