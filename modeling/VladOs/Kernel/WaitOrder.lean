import VladOs.Kernel.Settled

namespace VladOs

open Code Paging ProcessTable Kernel Transition FdTable

structure WaitCall (frame : TrapFrame) (child : ProcessId) (statusPtr : Option VirtAddr) : Prop where
  number : SyscallNumber.fromRaw frame.rax = some .waitPid
  pid : frame.rdi.toNat = child
  status : waitStatusAddress frame.rsi.toNat = some statusPtr

structure AboutToWait (s : System) (i : ℕ) (t : Task) (parent child : ProcessId) (Q C : Process)
    (statusPtr : Option VirtAddr) : Prop where
  current : s.kernel.current = some i
  task : s.kernel.tasks[i]? = some t
  process : t.processId = some parent
  waiter : s.kernel.processes.get parent = some Q
  waited : s.kernel.processes.get child = some C
  kin : child ∈ Q.children
  running : C.state = .running
  status : StatusAllowed s.kernel Q statusPtr

section

variable {B : BootMemory} {P : Platform} {s s₁ s₂ s₃ s₄ : System} {i rsp : ℕ} {t : Task}
  {parent child : ProcessId} {Q C : Process} {statusPtr : Option VirtAddr} {frame : TrapFrame}
  {a : Action} {o o' : Output} {exit : ProcessExit}

theorem StatusWritten.unique {m m₁ m₂ : Memory} {space : AddressSpace}
    (h₁ : StatusWritten B m space statusPtr exit m₁) (h₂ : StatusWritten B m space statusPtr exit m₂) :
    m₁ = m₂ := by
  cases statusPtr with
  | none => exact h₁.trans h₂.symm
  | some a =>
    obtain ⟨hw₁,hp₁⟩ := h₁
    obtain ⟨hw₂,hp₂⟩ := h₂
    have hpage : m₁.page space.level4Frame = m₂.page space.level4Frame :=
      congrArg Prod.snd (hp₁.symm.trans hp₂)
    have hbytes : m₁.bytes = m₂.bytes := by
      funext g
      by_cases hg : ∃ n e, m.leaf space.level4Frame n = some (g,e)
      · obtain ⟨n,e,hleaf⟩ := hg
        have hn := congrFun hpage n
        simp only [Memory.page,hw₁.leaf,hw₂.leaf,hleaf,Option.map_some,Option.some.injEq,
          Page.mk.injEq] at hn
        exact hn.2
      · have hno : ∀ n e, m.leaf space.level4Frame n ≠ some (g,e) := fun n e he => hg ⟨n,e,he⟩
        rw [hw₁.bytes g hno,hw₂.bytes g hno]
    obtain ⟨own₁,ho₁⟩ := hw₁.sound
    obtain ⟨own₂,ho₂⟩ := hw₂.sound
    have hroot : m₁.kernelLevel4Frame = m₂.kernelLevel4Frame := ho₁.kernelRoot.trans ho₂.kernelRoot.symm
    have hmap : m₁.frameAllocator.memoryMap = m₂.frameAllocator.memoryMap :=
      ho₁.memoryMap.trans ho₂.memoryMap.symm
    have hnext : m₁.frameAllocator.next = m₂.frameAllocator.next := hw₁.next.trans hw₂.next.symm
    have hspaces : m₁.addressSpaces = m₂.addressSpaces := hw₁.spaces.trans hw₂.spaces.symm
    obtain ⟨_,⟨_,_⟩,_,_⟩ := m₁
    obtain ⟨_,⟨_,_⟩,_,_⟩ := m₂
    cases hroot
    cases hmap
    cases hnext
    cases hbytes
    cases hspaces
    rfl

theorem Kernel.settled_modify {k : Kernel} {f g : Task → Task}
    (hf : ∀ t, (f t).resting = g t.resting) :
    (k.modifyTask i f).settled = { k.settled with tasks := k.settled.tasks.modify i g } := by
  have htasks : (k.tasks.modify i f).map Task.resting = (k.tasks.map Task.resting).modify i g :=
    map_modify_of_comm fun {t} _ => hf t
  simp only [settled,modifyTask,htasks]

theorem ending_resting (a : Action) (t : Task) :
    (a.ending t).resting = (a.ending t.resting).resting := by
  have hid : t.resting = t.resting.resting := by
    obtain ⟨_,state,_,_,_,_,_,_,_⟩ := t
    cases state <;> rfl
  cases a with
  | syscall rsp frame => rfl
  | fault rsp frame info => rfl
  | _ => exact hid

theorem Kernel.settled_ending (k : Kernel) (i : ℕ) (a : Action) :
    (k.modifyTask i a.ending).settled =
      { k.settled with tasks := k.settled.tasks.modify i fun t => (a.ending t).resting } :=
  settled_modify (g := fun t => (a.ending t).resting) (ending_resting a)

theorem EndsProcess.index (h : Stable B s) (hend : EndsProcess s a child exit)
    (hC : s.kernel.processes.get child = some C) (hcur : s.kernel.current = some i) : C.mainTask = i := by
  have hpid : s.kernel.currentPid = some child := by cases hend <;> assumption
  obtain ⟨j,t,hj,ht,hp⟩ := currentPid_eq.mp hpid
  cases hcur.symm.trans hj
  exact h.core.tasks.mainTask_eq (core_view ht) hp hC

theorem AboutToWait.blocks (h : AboutToWait s i t parent child Q C statusPtr)
    (hcall : WaitCall frame child statusPtr) (hopt : frame.rdx.toNat = 0)
    (hp : Performs B s (.syscall rsp frame) o s₁) :
    s₁.inits = s.inits ∧ s₁.kernel.settled = { s.kernel.settled with
      tasks := s.kernel.settled.tasks.modify i (Task.setState (.blocked (.childExit child statusPtr))) } ∧
    ∃ t₁, s₁.kernel.tasks[i]? = some t₁ ∧ t₁.state = .blocked (.childExit child statusPtr) ∧
      t₁.savedRsp = rsp ∧ t₁.processId = some parent := by
  obtain ⟨c,k',rfl,rfl,hw⟩ := hp.waited h.current h.task h.process h.waiter hcall.number hcall.status
  rw [hcall.pid] at hw
  cases hw with
  | refused hr =>
    exfalso
    cases hr with
    | options h₀ _ => exact h₀ hopt
    | notChild _ hnot => exact hnot h.kin
    | badPointer _ _ hptr hdeny => exact hdeny (h.status _ hptr)
  | running _ _ _ _ hnohang =>
    rw [hopt] at hnohang
    cases hnohang
  | reaped _ hC hz _ _ =>
    cases h.waited.symm.trans hC
    rw [h.running] at hz
    cases hz
  | blocked _ _ _ _ _ hsel =>
    refine ⟨rfl,?_,?_⟩
    · rw [hsel.settled]
      refine (settled_modify (g := Task.setState _) fun _ => rfl).trans ?_
      rw [settled_setSavedRsp]
      rfl
    · have hself := modifyTask_self (modifyTask_self (k := s.kernel.trap rsp frame) h.task
        (Task.setSavedRsp rsp)) (Task.setState (.blocked (.childExit child statusPtr)))
      have hnone : (none : Option ProcessId) ≠ some child := by simp
      have hkept := (StillWaiting.refl.selected hsel).kept hself rfl hnone
      exact ⟨_,hkept,rfl,rfl,h.process⟩

theorem EndsProcess.wakesParent (h : Stable B s) (hend : EndsProcess s a child exit)
    (hp : Performs B s a o s₁) (hC : s.kernel.processes.get child = some C)
    (hQ : s.kernel.processes.get parent = some Q) (ht : s.kernel.tasks[i]? = some t)
    (hs : t.state = .blocked (.childExit child statusPtr)) (hpar : t.processId = some parent) :
    s₁.inits = s.inits ∧ C.mainTask ≠ i ∧
      ∃ m, StatusWritten B s.kernel.memory Q.addressSpace statusPtr exit m ∧
      s₁.kernel.settled = { s.kernel.settled.collected C.mainTask a.ending parent child C exit m with
        tasks := (s.kernel.settled.tasks.modify C.mainTask fun t => (a.ending t).resting).modify i
          (Task.setState .ready) } := by
  obtain ⟨j,rsp,frame,C',k₁,c,he⟩ := hend.ended hp
  obtain rfl := hend.index h hC he.current
  cases hC.symm.trans he.get
  have hsel := he.selects
  obtain ⟨_,_,m',hne,hpar',hQ',-,hwritten,rfl⟩ := he.exits.of_waiter (h.trap rsp frame).core ht hs
  cases hpar.symm.trans hpar'
  cases hQ.symm.trans hQ'
  refine ⟨he.inits,hne.symm,m',hwritten,?_⟩
  rw [hsel.settled]
  have htasks := settled_modify (k := (s.kernel.trap rsp frame).modifyTask C.mainTask a.ending) (i := i)
    (f := Task.setState .ready) (g := Task.setState .ready) fun _ => rfl
  rw [settled_ending] at htasks
  have hlist := congrArg Settled.tasks htasks
  simp only [settled,setFrame,Settled.collected,Settled.mk.injEq]
  exact ⟨hlist,rfl,rfl,rfl,rfl,trivial,rfl⟩

theorem EndsProcess.leavesZombie (h : Stable B s) (hend : EndsProcess s a child exit)
    (hp : Performs B s a o s₁) (hC : s.kernel.processes.get child = some C)
    (hQ : s.kernel.processes.get parent = some Q) (hmem : child ∈ Q.children)
    (hnone : ∀ {j : ℕ} {u : Task} {ptr}, s.kernel.tasks[j]? = some u →
      u.state ≠ .blocked (.childExit child ptr)) :
    s₁.inits = s.inits ∧ s₁.kernel.settled = { s.kernel.settled with
      tasks := s.kernel.settled.tasks.modify C.mainTask fun t => (a.ending t).resting
      processes := exitTable s.kernel.processes child C exit
      openFiles := closeEntries C.fdTable.entries s.kernel.openFiles } := by
  obtain ⟨j,rsp,frame,C',k₁,c,he⟩ := hend.ended hp
  obtain rfl := hend.index h hC he.current
  cases hC.symm.trans he.get
  refine ⟨he.inits,?_⟩
  rw [he.selects.settled]
  cases he.exits with
  | woken hu _ hstate _ _ _ _ => exact absurd hstate (hnone hu)
  | alone _ =>
    have hlist := congrArg Settled.tasks (settled_ending (s.kernel.trap rsp frame) C.mainTask a)
    have horphan : C.orphaned = false := by
      obtain ⟨C₀,hC₀,-,hparent⟩ := h.core.forest.child hQ hmem
      cases hC.symm.trans hC₀
      cases ho : C.orphaned with
      | false => rfl
      | true => rw [h.core.forest.orphan hC ho] at hparent; cases hparent
    have hkept : (exitTable s.kernel.processes child C exit).reapOrphanIfZombie child =
        exitTable s.kernel.processes child C exit := by
      have hforest : Forest s.kernel.processes := h.core.forest
      rw [reapOrphanIfZombie,get_exitTable_self hforest hC]
      simp [exited,horphan]
    simp only [settled,Settled.mk.injEq]
    exact ⟨hlist,hkept,rfl,rfl,rfl,rfl,rfl⟩

theorem modify_blocked_ready {tasks : List Task} {r : Task} {reason : WaitReason} {j : ℕ} {g : Task → Task}
    (hr : tasks[i]? = some r) (hready : r.state = .ready) (hji : j ≠ i) :
    ((tasks.modify i (Task.setState (.blocked reason))).modify j g).modify i (Task.setState .ready) =
      tasks.modify j g := by
  refine List.ext_getElem? fun n => ?_
  simp only [List.getElem?_modify]
  by_cases hn : i = n
  · subst hn
    have hsame : Task.setState .ready (Task.setState (.blocked reason) r) = r := by
      obtain ⟨_,_,_,_,_,_,_,_,_⟩ := r
      cases hready
      rfl
    simp [hr,hji,hsame]
  · simp [hn]

theorem AboutToWait.resting (hst : Stable B s) (h : AboutToWait s i t parent child Q C statusPtr) :
    s.kernel.settled.tasks[i]? = some t.resting ∧ t.resting.state = .ready := by
  obtain ⟨u,hu,hrun⟩ := hst.scheduled.task h.current
  cases h.task.symm.trans hu
  refine ⟨?_,?_⟩
  · change (s.kernel.tasks.map Task.resting)[i]? = _
    rw [List.getElem?_map,h.task]
    rfl
  · simp only [Task.resting,hrun]
    rfl

structure Outcome (B : BootMemory) (s : System) (a : Action) (i : ℕ) (parent child : ProcessId)
    (Q C : Process) (statusPtr : Option VirtAddr) (exit : ProcessExit) (s' : System) : Prop where
  settled : ∃ m, StatusWritten B s.kernel.memory Q.addressSpace statusPtr exit m ∧
    s'.kernel.settled = s.kernel.settled.collected C.mainTask a.ending parent child C exit m
  rax : ∃ u, s'.kernel.tasks[i]? = some u ∧ (s'.kernel.frames u.savedRsp).rax = UInt64.ofNat child
  inits : s'.inits = s.inits

theorem AboutToWait.waitFirst (hst : Stable B s) (h : AboutToWait s i t parent child Q C statusPtr)
    (hcall : WaitCall frame child statusPtr) (hopt : frame.rdx.toNat = 0)
    (hw : Performs B s (.syscall rsp frame) o s₁) (hr : Rescheduled P s₁ s₂)
    (hend : EndsProcess s₂ a child exit) (he : Performs B s₂ a o' s₃) :
    Outcome B s a i parent child Q C statusPtr exit s₃ := by
  obtain ⟨hinits₁,hset₁,t₁,ht₁,hs₁,hrsp,hpar⟩ := h.blocks hcall hopt hw
  have honly := hr.only (hw.stable hst)
  have hset₂ := honly.settled.trans hset₁
  have ht₂ := honly.waiting.kept ht₁ hs₁ (by simp)
  have hprocesses : s₂.kernel.processes = s.kernel.processes := congrArg Settled.processes hset₂
  have hmemory : s₂.kernel.memory = s.kernel.memory := congrArg Settled.memory hset₂
  obtain ⟨hinits₃,hji,m,hwritten,hset₃⟩ := hend.wakesParent honly.stable he
    (hprocesses ▸ h.waited) (hprocesses ▸ h.waiter) ht₂ hs₁ hpar
  obtain ⟨t₃,ht₃,-,hsaved,hrax⟩ := honly.stable.wakes ht₂ hs₁ he hend
  refine ⟨⟨m,hmemory ▸ hwritten,?_⟩,⟨t₃,ht₃,hsaved ▸ hrax⟩,hinits₃.trans (honly.inits.trans hinits₁)⟩
  obtain ⟨hget,hready⟩ := h.resting hst
  rw [hset₃,hset₂,Settled.collected,modify_blocked_ready hget hready hji]
  rfl

theorem Kernel.settled_getElem? {k : Kernel} {r : Task} (h : k.settled.tasks[i]? = some r) :
    ∃ t, k.tasks[i]? = some t ∧ t.resting = r := by
  change (k.tasks.map Task.resting)[i]? = some r at h
  rw [List.getElem?_map] at h
  exact Option.map_eq_some_iff.mp h

theorem AboutToWait.nobodyWaits (hst : Stable B s) (h : AboutToWait s i t parent child Q C statusPtr)
    (hr : OnlyRescheduled B s s₁) {j : ℕ} {u : Task} {ptr : Option VirtAddr}
    (hu : s₁.kernel.tasks[j]? = some u) : u.state ≠ .blocked (.childExit child ptr) := by
  intro hblocked
  have hprocesses : s₁.kernel.processes = s.kernel.processes := congrArg Settled.processes hr.settled
  obtain ⟨hget,hready⟩ := h.resting hst
  rw [← hr.settled] at hget
  obtain ⟨v,hv,hvr⟩ := settled_getElem? hget
  have hvp : v.processId = some parent := by
    have hproc : v.resting.processId = some parent := by
      rw [hvr]
      exact h.process
    exact hproc
  obtain ⟨pid,R,-,hup,hR,hmem,-⟩ := hr.stable.core.waits (core_view hu) (phase_waiting.mpr hblocked)
  have hR' : s.kernel.processes.get pid = some R := hprocesses ▸ hR
  obtain rfl : pid = parent := hst.core.forest.child_unique hR' h.waiter hmem h.kin
  obtain rfl : j = i := hr.stable.core.tasks.unique (core_view hu) (core_view hv) hup hvp
  cases hu.symm.trans hv
  rw [← hvr] at hready
  simp only [Task.resting,hblocked] at hready
  cases hready

theorem AboutToWait.mainTask_ne (hst : Stable B s) (h : AboutToWait s i t parent child Q C statusPtr) :
    C.mainTask ≠ i := by
  rintro rfl
  obtain ⟨v,hv,hvp⟩ := hst.core.tasks.main h.waited
  cases (core_view h.task).symm.trans hv
  obtain ⟨-,-,hlt,-⟩ := hst.core.forest.child h.waiter h.kin
  cases h.process.symm.trans hvp
  exact Nat.lt_irrefl _ hlt

theorem AboutToWait.leavesZombie (hst : Stable B s) (h : AboutToWait s i t parent child Q C statusPtr)
    (hr₁ : Rescheduled P s s₁) (hend : EndsProcess s₁ a child exit) (he : Performs B s₁ a o s₂)
    (hr₂ : Rescheduled P s₂ s₃) :
    s₃.inits = s.inits ∧ s₃.kernel.settled = { s.kernel.settled with
      tasks := s.kernel.settled.tasks.modify C.mainTask fun t => (a.ending t).resting
      processes := exitTable s.kernel.processes child C exit
      openFiles := closeEntries C.fdTable.entries s.kernel.openFiles } := by
  have honly₁ := hr₁.only hst
  have hprocesses : s₁.kernel.processes = s.kernel.processes :=
    congrArg Settled.processes honly₁.settled
  have hfiles : s₁.kernel.openFiles = s.kernel.openFiles := congrArg Settled.openFiles honly₁.settled
  obtain ⟨hinits,hset⟩ := hend.leavesZombie honly₁.stable he (hprocesses ▸ h.waited)
    (hprocesses ▸ h.waiter) h.kin (h.nobodyWaits hst honly₁)
  have honly₃ := hr₂.only (he.stable honly₁.stable)
  rw [hprocesses,hfiles,honly₁.settled] at hset
  exact ⟨honly₃.inits.trans (hinits.trans honly₁.inits),honly₃.settled.trans hset⟩

theorem AboutToWait.exitFirst (hst : Stable B s) (h : AboutToWait s i t parent child Q C statusPtr)
    (hr₁ : Rescheduled P s s₁) (hend : EndsProcess s₁ a child exit) (he : Performs B s₁ a o s₂)
    (hr₂ : Rescheduled P s₂ s₃) (hcur : s₃.kernel.current = some i)
    (hcall : WaitCall frame child statusPtr) (hopt : frame.rdx.toNat = 0 ∨ frame.rdx.toNat = WNOHANG)
    (hw : Performs B s₃ (.syscall rsp frame) o' s₄) :
    Outcome B s a i parent child Q C statusPtr exit s₄ := by
  obtain ⟨hinits,hset₃⟩ := h.leavesZombie hst hr₁ hend he hr₂
  have hprocesses₃ : s₃.kernel.processes = exitTable s.kernel.processes child C exit :=
    congrArg Settled.processes hset₃
  have hmemory₃ : s₃.kernel.memory = s.kernel.memory := congrArg Settled.memory hset₃
  have hforest : Forest s.kernel.processes := hst.core.forest
  obtain ⟨hget,-⟩ := h.resting hst
  have hget₃ : s₃.kernel.settled.tasks[i]? = some t.resting := by
    rw [hset₃]
    simp [hget,h.mainTask_ne hst]
  obtain ⟨t₃,ht₃,htr⟩ := settled_getElem? hget₃
  have hp₃ : t₃.processId = some parent := by
    have hproc : t₃.resting.processId = some parent := by
      rw [htr]
      exact h.process
    exact hproc
  have hQ₃ : s₃.kernel.processes.get parent = some Q := by
    rw [hprocesses₃]
    exact get_exitTable_parent hforest h.waited h.waiter h.kin
  have hC₃ : s₃.kernel.processes.get child = some (exited exit C) := by
    rw [hprocesses₃]
    exact get_exitTable_self hforest h.waited
  obtain ⟨c,k',rfl,rfl,hres⟩ := hw.waited hcur ht₃ hp₃ hQ₃ hcall.number hcall.status
  rw [hcall.pid] at hres
  cases hres with
  | refused hr =>
    exfalso
    cases hr with
    | options h₀ h₁ => exact hopt.elim h₀ h₁
    | notChild _ hnot => exact hnot h.kin
    | badPointer _ _ hptr hdeny =>
      refine hdeny ?_
      change Allowed _ (s₃.kernel.memory.page _) _ _
      rw [hmemory₃]
      exact h.status _ hptr
  | running _ hC hrun _ _ =>
    cases hC₃.symm.trans hC
    cases hrun
  | blocked _ hC hrun _ _ _ =>
    cases hC₃.symm.trans hC
    cases hrun
  | @reaped D exit' m' _ hC hz _ hwritten =>
    cases hC₃.symm.trans hC
    cases hz
    have hwritten' : StatusWritten B s₃.kernel.memory Q.addressSpace statusPtr exit m' := hwritten
    rw [hmemory₃] at hwritten'
    refine ⟨⟨m',hwritten',?_⟩,⟨_,modifyTask_self ht₃ (Task.setSavedRsp rsp),setRax_frame _ _ _⟩,
      hinits⟩
    have htasks : (s₃.kernel.tasks.modify i (Task.setSavedRsp rsp)).map Task.resting =
        s₃.kernel.settled.tasks := map_modify_of_eq fun _ => rfl
    have hsettled : ({ s₃.kernel.settled with
        processes := reapTable s₃.kernel.processes parent child
        memory := m' } : Settled) =
        s.kernel.settled.collected C.mainTask a.ending parent child C exit m' := by
      rw [hset₃,hprocesses₃]
      rfl
    refine Eq.trans ?_ hsettled
    simp only [← htasks]
    rfl

end

section

variable {B : Boot} {P : Platform} {trace : List Event} {s s₁ s₂ s₃ u₁ u₂ u₃ u₄ : System} {i rsp rsp' : ℕ}
  {t : Task} {parent child : ProcessId} {Q C : Process} {statusPtr : Option VirtAddr}
  {frame frame' : TrapFrame} {a : Action} {o₁ o₂ o₃ o₄ : Output} {exit : ProcessExit}

theorem wait_orders_agree (h : Run P B trace s) (hs : AboutToWait s i t parent child Q C statusPtr)
    (hcall : WaitCall frame child statusPtr) (hopt : frame.rdx.toNat = 0)
    (hwait : Step P s (.syscall rsp frame,o₁) s₁) (hr : Rescheduled P s₁ s₂)
    (hend : EndsProcess s₂ a child exit) (hexit : Step P s₂ (a,o₂) s₃)
    (hr₁ : Rescheduled P s u₁) (hend' : EndsProcess u₁ a child exit) (hexit' : Step P u₁ (a,o₃) u₂)
    (hr₂ : Rescheduled P u₂ u₃) (hcur : u₃.kernel.current = some i)
    (hcall' : WaitCall frame' child statusPtr)
    (hopt' : frame'.rdx.toNat = 0 ∨ frame'.rdx.toNat = WNOHANG)
    (hwait' : Step P u₃ (.syscall rsp' frame',o₄) u₄) :
    s₃.kernel.settled = u₄.kernel.settled ∧ s₃.inits = u₄.inits ∧
      ∃ t₃ t₄, s₃.kernel.tasks[i]? = some t₃ ∧ u₄.kernel.tasks[i]? = some t₄ ∧
        (s₃.kernel.frames t₃.savedRsp).rax = (u₄.kernel.frames t₄.savedRsp).rax := by
  have hst := h.stable
  have hperf := hst.performs hwait
  have hst₂ := (hr.only (hperf.stable hst)).stable
  have hu₁ := (hr₁.only hst).stable
  have hperf₁ := hu₁.performs hexit'
  have hu₃ := (hr₂.only (hperf₁.stable hu₁)).stable
  have hfirst := hs.waitFirst hst hcall hopt hperf hr hend (hst₂.performs hexit)
  have hlast := hs.exitFirst hst hr₁ hend' hperf₁ hr₂ hcur hcall' hopt' (hu₃.performs hwait')
  obtain ⟨m₁,hw₁,hset₁⟩ := hfirst.settled
  obtain ⟨m₂,hw₂,hset₂⟩ := hlast.settled
  obtain ⟨t₃,ht₃,hrax₃⟩ := hfirst.rax
  obtain ⟨t₄,ht₄,hrax₄⟩ := hlast.rax
  obtain rfl := hw₁.unique hw₂
  exact ⟨hset₁.trans hset₂.symm,hfirst.inits.trans hlast.inits.symm,t₃,t₄,ht₃,ht₄,
    hrax₃.trans hrax₄.symm⟩

structure FamilyTurned (s : System) : Prop where
  tasks : ∃ t u, s.kernel.tasks = [t,u] ∧ t.state = .ready ∧ t.processId = some 1 ∧
    u.processId = some 2 ∧ t.kernelStackTop = Task.stackTop HEAP_START ∧
    u.kernelStackTop = Task.stackTop (HEAP_START + TASK_STACK_SIZE)
  current : s.kernel.current = some 1

theorem FamilyRunning.yields (hrun : Run P B trace s) (h : FamilyRunning s) :
    ∃ c s', Step P s (.yield (Task.userFrameBottom HEAP_START) (.ofCall 0 0 0 0),.control c) s' ∧
      FamilyTurned s' := by
  obtain ⟨entry,top,entry',top',htasks⟩ := h.tasks
  have ht : s.kernel.tasks[0]? =
      some (Task.setState .running (Task.newUser 0 1 entry top HEAP_START)) := by rw [htasks]; rfl
  obtain ⟨o,s',hstep,hp⟩ := hrun.stable.progress P
    (a := .yield (Task.userFrameBottom HEAP_START) (.ofCall 0 0 0 0))
    (hrun.frameOn h.current ht rfl (userFrameBottom_add _)) trivial
  cases hp with
  | yielded hsw =>
    have hnext : nextReadyAfter s.kernel.tasks 0 = some 1 := by rw [htasks]; rfl
    have hu : s.kernel.tasks[1]? = some (Task.newUser 1 2 entry' top' (HEAP_START + TASK_STACK_SIZE)) := by
      rw [htasks]
      rfl
    obtain ⟨root,rfl,rfl⟩ := hsw.turned h.current hnext hu
    refine ⟨_,_,hstep,⟨Task.setState .ready (Task.setSavedRsp (Task.userFrameBottom HEAP_START)
        (Task.setState .running (Task.newUser 0 1 entry top HEAP_START))),
      Task.setState .running (Task.newUser 1 2 entry' top' (HEAP_START + TASK_STACK_SIZE)),
      ?_,rfl,rfl,rfl,rfl,rfl⟩,rfl⟩
    change ((s.kernel.tasks.modify 0 _).modify 0 _).modify 1 _ = _
    rw [htasks]
    rfl

theorem FamilyTurned.ends (h : FamilyTurned s) :
    EndsProcess s childExit 2 (Syscall.exitOf (.ofCall 1 0 0 0)) := by
  obtain ⟨t,u,htasks,-,-,hup,-⟩ := h.tasks
  exact .exit (currentPid_eq.mpr ⟨1,u,h.current,by rw [htasks]; rfl,hup⟩) rfl

theorem FamilyTurned.exits (hrun : Run P B trace s) (h : FamilyTurned s) :
    ∃ c s', Step P s (childExit,.control c) s' ∧ FamilyDone s' := by
  obtain ⟨t,u,htasks,hready,htp,hup,htop,hutop⟩ := h.tasks
  have ht : s.kernel.tasks[0]? = some t := by rw [htasks]; rfl
  have hu : s.kernel.tasks[1]? = some u := by rw [htasks]; rfl
  have hlen : s.kernel.tasks.length = 2 := by rw [htasks]; rfl
  obtain ⟨c,k₁,k',hstep,hfin,hsel⟩ := hrun.stable.exits P (.ofCall 1 0 0 0) h.current
    (hrun.frameOn h.current hu hup ((userFrameBottom_add _).trans hutop.symm)) rfl
  have ht₁ : k₁.tasks[0]? = some t := by
    have hother : ((s.kernel.trap (Task.userFrameBottom (HEAP_START + TASK_STACK_SIZE))
        (.ofCall 1 0 0 0)).modifyTask 1 (Syscall.exitTask (Task.userFrameBottom (HEAP_START +
          TASK_STACK_SIZE)) (.ofCall 1 0 0 0))).tasks[0]? = some t :=
      (modifyTask_of_ne (by decide) _).trans ht
    cases hfin with
    | kernel _ _ => exact hother
    | user _ _ _ hx =>
      cases hx with
      | alone _ => exact hother
      | @woken w v _ _ _ _ hv hne hstate _ _ _ _ =>
        exfalso
        change s.kernel.tasks[w]? = some v at hv
        have hlt : w < 2 := hlen ▸ (List.getElem?_eq_some_iff.mp hv).1
        obtain rfl : w = 0 := by omega
        cases ht.symm.trans hv
        rw [hready] at hstate
        cases hstate
  obtain ⟨t',ht',hwake,-⟩ := hsel.survives ht₁ hready
  refine ⟨c,_,hstep,?_,?_⟩
  · exact hfin.resumesFirst (hrun.stable.scheduled.trap _ _) h.current hlen
      (Syscall.exitTask_ends _ _) (fun _ => rfl) hsel ht' hwake
  · cases (hrun.stable.performs hstep).seats hrun.stable with
    | same hafter =>
      obtain ⟨t₀,ht₀,hsame⟩ := hafter.task ht'
      cases ht.symm.trans ht₀
      exact ⟨t',ht',hsame.process.trans htp,
        hsame.top.trans htop⟩

theorem wait_orders_agree_family : ∃ trace trace' s₃ u₄, Run standardPlatform smallMachine trace s₃ ∧
    Run standardPlatform smallMachine trace' u₄ ∧ s₃.kernel.settled = u₄.kernel.settled ∧
    s₃.inits = u₄.inits ∧ ∃ t₃ t₄, s₃.kernel.tasks[0]? = some t₃ ∧ u₄.kernel.tasks[0]? = some t₄ ∧
      (s₃.kernel.frames t₃.savedRsp).rax = (u₄.kernel.frames t₄.savedRsp).rax := by
  obtain ⟨trace,s,hrun,hfamily⟩ :=
    exists_familyRunning smallMachine_roomy standardPlatform .yieldThenExit
  obtain ⟨entry,top,entry',top',htasks⟩ := hfamily.tasks
  obtain ⟨Q,hQ,-,hch⟩ := hfamily.parent
  obtain ⟨C,hC,hCrun,-⟩ := hfamily.child
  have hs : AboutToWait s 0 (Task.setState .running (Task.newUser 0 1 entry top HEAP_START)) 1 2 Q C
      none := by
    refine ⟨hfamily.current,by rw [htasks]; rfl,rfl,hQ,hC,?_,hCrun,fun a ha => by cases ha⟩
    rw [hch]
    exact List.mem_singleton_self _
  have hcall : WaitCall (.ofCall 4 2 0 0) 2 none := ⟨rfl,rfl,rfl⟩
  obtain ⟨c₁,s₁,hwait,hblocked⟩ := hfamily.blocks hrun
  have hrun₁ := hrun.after hwait
  obtain ⟨c₂,s₃,hexit,-⟩ := hblocked.exits hrun₁
  obtain ⟨c₃,u₁,hyield,hturned⟩ := hfamily.yields hrun
  have hrun₂ := hrun.after hyield
  obtain ⟨c₄,u₂,hexit',hdone⟩ := hturned.exits hrun₂
  have hrun₃ := hrun₂.after hexit'
  obtain ⟨t,ht,htp,htop⟩ := hdone.task
  obtain ⟨v,hv,hvrun⟩ := hrun₃.stable.scheduled.task hdone.current
  cases ht.symm.trans hv
  obtain ⟨R,ha⟩ := acts hrun₃.stable.core ht (by rw [hvrun]; rfl) htp
  obtain ⟨c₅,k',hwait',-⟩ := hrun₃.stable.waits standardPlatform (.ofCall 4 2 0 0) hdone.current ht htp
    ha.get (hrun₃.frameOn hdone.current ht htp ((userFrameBottom_add _).trans htop.symm)) rfl rfl
  have hturn : Rescheduled standardPlatform s u₁ := ⟨_,.next (.start rfl) ⟨hyield,trivial⟩⟩
  exact ⟨_,_,s₃,_,hrun₁.after hexit,hrun₃.after hwait',wait_orders_agree hrun hs hcall rfl hwait (.refl _)
    hblocked.ends hexit hturn hturned.ends hexit' (.refl _) hdone.current hcall (Or.inl rfl) hwait'⟩

end

end VladOs
