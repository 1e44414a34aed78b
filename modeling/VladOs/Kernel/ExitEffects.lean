import VladOs.Kernel.Delivery
import VladOs.Kernel.RoundRobin

namespace VladOs

open Paging FdTable ProcessTable Kernel Transition

structure WaitingParent (tasks : List Task) (pid : ProcessId) (Q : Process) (i : ℕ) (t : Task)
    (parent : ProcessId) (statusPtr : Option VirtAddr) : Prop where
  childOf : Q.parent = some parent
  task : tasks[i]? = some t
  process : t.processId = some parent
  blocked : t.state = .blocked (.childExit pid statusPtr)

def Awaited (tasks : List Task) (pid : ProcessId) (Q : Process) : Prop :=
  ∃ i t parent statusPtr, WaitingParent tasks pid Q i t parent statusPtr

structure ProcessEffects (tasks : List Task) (table table' : ProcessTable) (pid : ProcessId) (Q : Process)
    (exit : ProcessExit) : Prop where
  zombie : ¬ Awaited tasks pid Q → Q.orphaned = false →
    table'.get pid = some { Q with state := .zombie exit, fdTable := .empty, children := [] }
  collected : Awaited tasks pid Q ∨ Q.orphaned = true → table'.get pid = none
  orphaned : ∀ {c C}, c ∈ Q.children → table.get c = some C → C.state = .running →
    table'.get c = some { C with parent := none, orphaned := true }
  reaped : ∀ {c C e}, c ∈ Q.children → table.get c = some C → C.state = .zombie e → table'.get c = none
  parent : ∀ {i t p statusPtr}, WaitingParent tasks pid Q i t p statusPtr → ∃ R, table.get p = some R ∧
    table'.get p = some { R with children := R.children.filter (· ≠ pid) }
  others : ∀ {q}, q ≠ pid → q ∉ Q.children →
    (∀ {i t statusPtr}, ¬ WaitingParent tasks pid Q i t q statusPtr) → table'.get q = table.get q

structure StoreEffects (k : Kernel) (openFiles' : OpenFileTable) (memory' : Memory) (pid : ProcessId)
    (Q : Process) : Prop where
  closed : ∀ {fd e}, Q.fdTable.get fd = some e → openFiles'.get e.openFile = none
  files : ∀ {q R fd e}, q ≠ pid → k.processes.get q = some R → R.fdTable.get fd = some e →
    openFiles'.get e.openFile = k.openFiles.get e.openFile
  memory : ∀ {q R}, k.processes.get q = some R →
    (∀ {i t statusPtr}, ¬ WaitingParent k.tasks pid Q i t q statusPtr) →
    memory'.page R.addressSpace.level4Frame = k.memory.page R.addressSpace.level4Frame
  status : ∀ {i t p statusPtr R}, WaitingParent k.tasks pid Q i t p statusPtr →
    k.processes.get p = some R →
    SameFlags (k.memory.page R.addressSpace.level4Frame) (memory'.page R.addressSpace.level4Frame) ∧
    ∀ a, (∀ address, statusPtr = some address → a < address.addr ∨ address.addr + waitStatusSize ≤ a) →
      (memory'.page R.addressSpace.level4Frame).byte a =
        (k.memory.page R.addressSpace.level4Frame).byte a

structure TaskEffects (k k' : Kernel) (pid : ProcessId) (Q : Process) : Prop where
  length : k'.tasks.length = k.tasks.length
  woken : ∀ {i t p statusPtr}, WaitingParent k.tasks pid Q i t p statusPtr → ∃ t', k'.tasks[i]? = some t' ∧
    (t'.state = .ready ∧ k'.current ≠ some i ∨ t'.state = .running ∧ k'.current = some i)
  others : ∀ {j t}, k.tasks[j]? = some t → k.current ≠ some j →
    (∀ {p statusPtr}, ¬ WaitingParent k.tasks pid Q j t p statusPtr) → k'.current ≠ some j →
    k'.tasks[j]? = some t

structure ExitEffects (k k' : Kernel) (pid : ProcessId) (Q : Process) (exit : ProcessExit) : Prop where
  processes : ProcessEffects k.tasks k.processes k'.processes pid Q exit
  stores : StoreEffects k k'.openFiles k'.memory pid Q
  tasks : TaskEffects k k' pid Q

section

variable {B : BootMemory} {k k₁ k' : Kernel} {inits : List UserTaskInit} {i j w : ℕ} {t u : Task}
  {f : Task → Task} {pid q parent : ProcessId} {P Q R : Process} {exit : ProcessExit}
  {statusPtr ptr : Option VirtAddr}

theorem WaitingParent.of_woken (hf : Forest k.processes) (hP : k.processes.get pid = some P)
    (hu : k.tasks[w]? = some u) (hstate : u.state = .blocked (.childExit pid statusPtr))
    (hpar : u.processId = some parent) (hR : k.processes.get parent = some R) (hmem : pid ∈ R.children) :
    WaitingParent k.tasks pid P w u parent statusPtr := by
  obtain ⟨C,hC,-,hparent⟩ := hf.child hR hmem
  cases hP.symm.trans hC
  exact ⟨hparent,hu,hpar,hstate⟩

theorem Kernel.Exits.get_self (hc : CoreInv B (k.core inits)) (hP : k.processes.get pid = some P)
    (h : Exits B k i f pid P exit k₁) (hfree : ¬ Awaited k.tasks pid P) :
    k₁.processes.get pid = unlessDeadOrphan (exited exit P) := by
  cases h with
  | alone _ =>
    have hself : (exitTable k.processes pid P exit).get pid = some (exited exit P) :=
      get_exitTable_self hc.forest hP
    change ((exitTable k.processes pid P exit).reapOrphanIfZombie pid).get pid = _
    rw [get_reapOrphanIfZombie,if_pos rfl,hself,Option.bind_some]
  | woken hu _ hstate hpar hR hmem _ =>
    exact absurd ⟨_,_,_,_,WaitingParent.of_woken hc.forest hP hu hstate hpar hR hmem⟩ hfree

theorem Kernel.Exits.get_awaited (hc : CoreInv B (k.core inits)) (h : Exits B k i f pid P exit k₁)
    (haw : Awaited k.tasks pid P) : k₁.processes.get pid = none := by
  obtain ⟨_,_,_,_,hw⟩ := haw
  obtain ⟨_,_,_,-,-,-,-,-,rfl⟩ := h.of_waiter hc hw.task hw.blocked
  exact get_reapTable_child

theorem Kernel.Exits.get_parent (hc : CoreInv B (k.core inits)) (hP : k.processes.get pid = some P)
    (h : Exits B k i f pid P exit k₁) (hw : WaitingParent k.tasks pid P j t q ptr) :
    q < pid ∧ ∃ R, k.processes.get q = some R ∧ k₁.processes.get q = some (removeChild pid R) := by
  obtain ⟨parent,R,_,-,hpar,hR,hmem,-,rfl⟩ := h.of_waiter hc hw.task hw.blocked
  obtain rfl : q = parent := Option.some.inj (hw.process.symm.trans hpar)
  obtain ⟨_,-,hlt,-⟩ := hc.forest.child hR hmem
  have hkept : (exitTable k.processes pid P exit).get q = some R :=
    get_exitTable_parent hc.forest hP hR hmem
  exact ⟨hlt,R,hR,get_reapTable_parent hkept (Nat.ne_of_lt hlt)⟩

theorem Kernel.Exits.get_of_ne (hc : CoreInv B (k.core inits)) (hP : k.processes.get pid = some P)
    (h : Exits B k i f pid P exit k₁) (hq : q ≠ pid)
    (hnot : ∀ {j t ptr}, ¬ WaitingParent k.tasks pid P j t q ptr) :
    k₁.processes.get q =
      if q ∈ P.children then (k.processes.get q).bind orphanOrReap else k.processes.get q := by
  have hexit : (exitTable k.processes pid P exit).get q =
      if q ∈ P.children then (k.processes.get q).bind orphanOrReap else k.processes.get q :=
    (get_exitTable hc.forest hP q).trans (if_neg hq)
  cases h with
  | alone _ =>
    change ((exitTable k.processes pid P exit).reapOrphanIfZombie pid).get q = _
    rw [get_reapOrphanIfZombie,if_neg hq,hexit]
  | @woken w u parent R statusPtr m' hu _ hstate hpar hR hmem _ =>
    have hne : q ≠ parent := by
      rintro rfl
      exact hnot (.of_woken hc.forest hP hu hstate hpar hR hmem)
    change (reapTable (exitTable k.processes pid P exit) parent pid).get q = _
    rw [reapTable,get_reapChild,if_neg hq,if_neg hne,hexit]

theorem Kernel.Exits.get_child (hc : CoreInv B (k.core inits)) (hP : k.processes.get pid = some P)
    (h : Exits B k i f pid P exit k₁) (hq : q ∈ P.children) :
    k₁.processes.get q = (k.processes.get q).bind orphanOrReap := by
  obtain ⟨_,-,hlt,-⟩ := hc.forest.child hP hq
  have hnot : ∀ {j t ptr}, ¬ WaitingParent k.tasks pid P j t q ptr := by
    intro j t ptr hw
    exact Nat.lt_asymm hlt (h.get_parent hc hP hw).1
  rw [h.get_of_ne hc hP (Nat.ne_of_gt hlt) hnot,if_pos hq]

theorem Kernel.Exits.processEffects (hc : CoreInv B (k.core inits)) (hP : k.processes.get pid = some P)
    (h : Exits B k i f pid P exit k₁) :
    ProcessEffects k.tasks k.processes k₁.processes pid P exit := by
  refine ⟨?_,?_,?_,?_,?_,?_⟩
  · intro hfree horphan
    rw [h.get_self hc hP hfree,unlessDeadOrphan]
    simp [exited,horphan]
  · intro hgone
    by_cases haw : Awaited k.tasks pid P
    · exact h.get_awaited hc haw
    · have horphan : P.orphaned = true := hgone.resolve_left haw
      rw [h.get_self hc hP haw,unlessDeadOrphan]
      simp [exited,horphan,Process.isZombie]
  · intro c C hmem hC hrun
    rw [h.get_child hc hP hmem,hC]
    exact orphanOrReap_eq_some.mpr ⟨hrun,rfl⟩
  · intro c C e hmem hC hz
    rw [h.get_child hc hP hmem,hC,Option.bind_some,orphanOrReap]
    simp [Process.isZombie,hz]
  · intro j t p ptr hw
    exact (h.get_parent hc hP hw).2
  · intro q hq hmem hnot
    rw [h.get_of_ne hc hP hq hnot,if_neg hmem]

theorem StatusWritten.page_of_ne {m m' : Memory} {space : AddressSpace} (hm : m.Sound B)
    (h : StatusWritten B m space statusPtr exit m') {r : Frame} (hne : r ≠ space.level4Frame) :
    m'.page r = m.page r := by
  cases statusPtr with
  | none =>
    obtain rfl : m' = m := h
    rfl
  | some address => exact h.1.page_of_ne hm hne

theorem StatusWritten.byte_of_outside {m m' : Memory} {space : AddressSpace} {a : ℕ}
    (h : StatusWritten B m space statusPtr exit m')
    (ha : ∀ address, statusPtr = some address → a < address.addr ∨ address.addr + waitStatusSize ≤ a) :
    (m'.page space.level4Frame).byte a = (m.page space.level4Frame).byte a := by
  cases statusPtr with
  | none =>
    obtain rfl : m' = m := h
    rfl
  | some address =>
    have hout := ha address rfl
    rw [writeBytes_byte h.2,waitStatusBytes_length,if_neg (by omega)]

theorem Kernel.Exits.openFiles (h : Exits B k i f pid P exit k₁) :
    k₁.openFiles = closeEntries P.fdTable.entries k.openFiles := by
  cases h <;> rfl

theorem Kernel.Exits.file_of_ne (hc : CoreInv B (k.core inits)) (hP : k.processes.get pid = some P)
    (h : Exits B k i f pid P exit k₁) {fd : ℕ} {e : FdEntry} (hq : q ≠ pid)
    (hR : k.processes.get q = some R) (he : R.fdTable.get fd = some e) :
    k₁.openFiles.get e.openFile = k.openFiles.get e.openFile := by
  have href : k.processes.ref (q,fd) = some e.openFile := ref_eq_some.mpr ⟨R,hR,he⟩
  have hother : some (⟨e.openFile⟩ : FdEntry) ∉ P.fdTable.entries := by
    intro hmem
    obtain ⟨fd',href'⟩ := (FileLinks.mem_entries_ref hP).mp hmem
    exact hq (congrArg Prod.fst (hc.files.linked.unique href href'))
  rw [h.openFiles]
  exact (hc.files.get_closed e.openFile).trans (if_neg hother)

theorem Kernel.Exits.storeEffects (hc : CoreInv B (k.core inits)) (hP : k.processes.get pid = some P)
    (h : Exits B k i f pid P exit k₁) : StoreEffects k k₁.openFiles k₁.memory pid P := by
  refine ⟨?_,?_,?_,?_⟩
  · intro fd e he
    rw [h.openFiles]
    exact (hc.files.get_closed e.openFile).trans (if_pos (mem_entries.mpr ⟨fd,he⟩))
  · intro q R fd e hq hR he
    exact h.file_of_ne hc hP hq hR he
  · intro q R hR hnot
    cases h with
    | alone _ => rfl
    | woken hu _ hstate hpar hS hmem hwritten =>
      refine hwritten.page_of_ne hc.homes.sound fun hroot => ?_
      obtain rfl := hc.homes.unique hR hS (congrArg AddressSpace.mk hroot)
      exact hnot (.of_woken hc.forest hP hu hstate hpar hS hmem)
  · intro j t p ptr R hw hR
    obtain ⟨parent,S,m',-,hpar,hS,-,hwritten,rfl⟩ := h.of_waiter hc hw.task hw.blocked
    obtain rfl : p = parent := Option.some.inj (hw.process.symm.trans hpar)
    cases hR.symm.trans hS
    have hremaps := hwritten.remaps hc.homes.sound
    exact ⟨hremaps.flags _ (hc.homes.process hR).1,fun a ha => hwritten.byte_of_outside ha⟩

theorem Kernel.Exits.task_of_ne (hc : CoreInv B (k.core inits)) (hP : k.processes.get pid = some P)
    (h : Exits B k i f pid P exit k₁) (ht : k.tasks[j]? = some t) (hj : j ≠ i)
    (hnot : ∀ {p ptr}, ¬ WaitingParent k.tasks pid P j t p ptr) : k₁.tasks[j]? = some t := by
  cases h with
  | alone _ => exact (modifyTask_of_ne hj f).trans ht
  | @woken w u parent R statusPtr m' hu _ hstate hpar hR hmem _ =>
    have hjw : j ≠ w := by
      rintro rfl
      cases ht.symm.trans hu
      exact hnot (.of_woken hc.forest hP ht hstate hpar hR hmem)
    exact (modifyTask_of_ne hjw _).trans ((modifyTask_of_ne hj f).trans ht)

theorem Kernel.Selects.task_of_ne {start : ℕ} {c : Control} (h : Selects k start c k')
    (hj : k'.current ≠ some j) : k'.tasks[j]? = k.tasks[j]? := by
  cases h with
  | resume _ _ _ _ => exact resumed_getElem? fun hne => hj (congrArg some hne.symm)
  | main _ => rfl

theorem Kernel.Selects.length {start : ℕ} {c : Control} (h : Selects k start c k') :
    k'.tasks.length = k.tasks.length := by
  cases h with
  | resume _ _ _ _ => exact List.length_modify ..
  | main _ => rfl

theorem Kernel.Selects.openFiles {start : ℕ} {c : Control} (h : Selects k start c k') :
    k'.openFiles = k.openFiles := by
  cases h <;> rfl

theorem ExitEffects.of_trap {rsp : ℕ} {frame : TrapFrame}
    (h : ExitEffects (k.trap rsp frame) k' pid P exit) : ExitEffects k k' pid P exit :=
  ⟨h.processes,⟨h.stores.closed,h.stores.files,h.stores.memory,h.stores.status⟩,
    ⟨h.tasks.length,h.tasks.woken,h.tasks.others⟩⟩

theorem Kernel.Exits.wakes (hc : CoreInv B (k.core inits)) (h : Exits B k i f pid P exit k₁)
    (hw : WaitingParent k.tasks pid P j t q ptr) : k₁.tasks[j]? = some (t.setState .ready) := by
  obtain ⟨_,_,_,hji,-,-,-,-,rfl⟩ := h.of_waiter hc hw.task hw.blocked
  have hmid : (k.modifyTask i f).tasks[j]? = some t := (modifyTask_of_ne hji f).trans hw.task
  exact modifyTask_self hmid (Task.setState .ready)

theorem Kernel.Exits.taskEffects {c : Control} (hc : CoreInv B (k.core inits))
    (hP : k.processes.get pid = some P) (hcur : k.current = some i) (h : Exits B k i f pid P exit k₁)
    (hsel : Selects k₁ i c k') (hs : k'.Scheduled) : TaskEffects k k' pid P := by
  refine ⟨?_,?_,?_⟩
  · exact hsel.length.trans h.length
  · intro j t p ptr hw
    obtain ⟨t',ht',hstate,-⟩ := hsel.survives (h.wakes hc hw) rfl
    refine ⟨t',ht',hstate.imp (fun hready => ⟨hready,fun hj => ?_⟩) id⟩
    obtain ⟨v,hv,hrun⟩ := hs.task hj
    cases ht'.symm.trans hv
    rw [hready] at hrun
    cases hrun
  · intro j t ht hj hnot hsel'
    have hji : j ≠ i := fun hne => hj (by rw [hne,hcur])
    rw [hsel.task_of_ne hsel']
    exact h.task_of_ne hc hP ht hji hnot

end

section

variable {B : Boot} {P : Platform} {trace : List Event} {s s' : System} {a : Action} {o : Output}
  {pid : ProcessId} {exit : ProcessExit}

theorem exit_effects (h : Run P B trace s) (hstep : Step P s (a,o) s') (hend : EndsProcess s a pid exit) :
    ∃ Q, s.kernel.processes.get pid = some Q ∧ ExitEffects s.kernel s'.kernel pid Q exit := by
  obtain ⟨i,rsp,frame,Q,k₁,c,he⟩ := hend.ended (h.stable.performs hstep)
  have hc := (h.stable.trap rsp frame).core
  have hsel := he.selects
  have heffects : ExitEffects (s.kernel.trap rsp frame) s'.kernel pid Q exit := by
    refine ⟨?_,?_,?_⟩
    · rw [hsel.processes]
      exact he.exits.processEffects hc he.get
    · rw [hsel.openFiles,hsel.memory]
      exact he.exits.storeEffects hc he.get
    · exact he.exits.taskEffects hc he.get he.current hsel (h.after hstep).stable.scheduled
  exact ⟨Q,he.get,heffects.of_trap⟩

theorem FamilyBlocked.waitingParent (hrun : Run P B trace s) (h : FamilyBlocked s) :
    ∃ t Q, s.kernel.processes.get 2 = some Q ∧ WaitingParent s.kernel.tasks 2 Q 0 t 1 none := by
  obtain ⟨t,u,htasks,hstate,hp,-⟩ := h.tasks
  have ht : s.kernel.tasks[0]? = some t := by rw [htasks]; rfl
  obtain ⟨p,R,Q,hp',hR,hmem,hQ,-⟩ := hrun.stable.core.waits (core_view ht) (phase_waiting.mpr hstate)
  obtain rfl : p = 1 := Option.some.inj (hp'.symm.trans hp)
  exact ⟨t,Q,hQ,.of_woken hrun.stable.core.forest hQ ht hstate hp hR hmem⟩

theorem exit_effects_family : ∃ trace s a o s' exit Q, Run standardPlatform smallMachine trace s ∧
    Step standardPlatform s (a,o) s' ∧ EndsProcess s a 2 exit ∧ s.kernel.processes.get 2 = some Q ∧
    ExitEffects s.kernel s'.kernel 2 Q exit := by
  obtain ⟨trace,s,hrun,hblocked⟩ :=
    exists_familyBlocked smallMachine_roomy standardPlatform .yieldThenExit
  obtain ⟨c,s',hstep,-⟩ := hblocked.exits hrun
  obtain ⟨Q,hQ,heffects⟩ := exit_effects hrun hstep hblocked.ends
  exact ⟨trace,s,_,_,s',_,Q,hrun,hstep,hblocked.ends,hQ,heffects⟩

theorem woken_parent_running : ∃ trace s a o s' exit Q i t p t', Run standardPlatform smallMachine trace s ∧
    Step standardPlatform s (a,o) s' ∧ EndsProcess s a 2 exit ∧ s.kernel.processes.get 2 = some Q ∧
    WaitingParent s.kernel.tasks 2 Q i t p none ∧ s'.kernel.tasks[i]? = some t' ∧ t'.state = .running ∧
    t'.state ≠ .ready := by
  obtain ⟨trace,s,hrun,hblocked⟩ :=
    exists_familyBlocked smallMachine_roomy standardPlatform .yieldThenExit
  obtain ⟨c,s',hstep,-,hdone⟩ := hblocked.exits hrun
  obtain ⟨t,Q,hQ,hw⟩ := hblocked.waitingParent hrun
  obtain ⟨t',ht',hrunning⟩ := (hrun.after hstep).stable.scheduled.task hdone.current
  refine ⟨trace,s,_,_,s',_,Q,0,t,1,t',hrun,hstep,hblocked.ends,hQ,hw,ht',hrunning,?_⟩
  rw [hrunning]
  exact fun hc => by cases hc

end

end VladOs
