import VladOs.Kernel.Dispatch

namespace VladOs

open Code Paging ProcessTable

namespace Kernel

def trap (rsp : ℕ) (frame : TrapFrame) (k : Kernel) : Kernel := setFrame rsp (fun _ => frame) k

theorem trap_frame (k : Kernel) (rsp : ℕ) (frame : TrapFrame) : (k.trap rsp frame).frames rsp = frame :=
  if_pos rfl

theorem Evolves.of_trap {B : BootMemory} {inits inits' : List UserTaskInit} {k k' : Kernel} {rsp : ℕ}
    {frame : TrapFrame} (h : Evolves B inits (k.trap rsp frame) inits' k') : Evolves B inits k inits' k' :=
  ⟨h.core,h.scheduled⟩

theorem Scheduled.trap {k : Kernel} (h : k.Scheduled) (rsp : ℕ) (frame : TrapFrame) :
    (k.trap rsp frame).Scheduled :=
  ⟨h.current,h.cached,h.loaded,h.main⟩

end Kernel

open Kernel

structure Stable (B : BootMemory) (s : System) : Prop where
  core : CoreInv B (s.kernel.core s.inits)
  scheduled : s.kernel.Scheduled

def Output.started : Option Control → Output
  | some c => .control c
  | none => .quiet

def faultTask (rsp : ℕ) (info : UserFaultInfo) : Task → Task := endTask rsp .failed none (some info)

inductive Performs (B : BootMemory) (s : System) : Action → Output → System → Prop where
  | spawned {entry : TaskEntry} {rflags : UInt64} {stack : ℕ} {id : TaskId} {k' : Kernel} :
      SpawnsKernel s.kernel entry stack id k' →
      Performs B s (.spawn entry rflags stack) (.task (.ok id)) { s with kernel := k' }
  | spawnRefused {entry : TaskEntry} {rflags : UInt64} {stack : ℕ} :
      MAX_TASKS ≤ s.kernel.tasks.length →
      Performs B s (.spawn entry rflags stack) (.task (.error .full)) s
  | space {r : Except AddressSpaceError AddressSpace} {m' : Memory} : Extends B s.kernel.memory m' →
      Performs B s .newUser (.space r) { s with kernel := { s.kernel with memory := m' } }
  | loaded {bytes : List UInt8} {arg0 : UInt64} {init : UserTaskInit} {m' : Memory} :
      Built B s.kernel.memory init m' →
      Performs B s (.loadUserElf bytes arg0) (.loaded (.ok init))
        ⟨{ s.kernel with memory := m' },init :: s.inits⟩
  | loadFailed {bytes : List UInt8} {arg0 : UInt64} {e : ElfLoadError} {m' : Memory} :
      Extends B s.kernel.memory m' →
      Performs B s (.loadUserElf bytes arg0) (.loaded (.error e))
        { s with kernel := { s.kernel with memory := m' } }
  | built {program : UserProgram} {arg0 : UInt64} {testPageValue : Option UInt64} {init : UserTaskInit}
      {m' : Memory} : Built B s.kernel.memory init m' → m'.next ≤ s.kernel.memory.next + 21 →
      Performs B s (.createUserTask program arg0 testPageValue) (.built (.ok init))
        ⟨{ s.kernel with memory := m' },init :: s.inits⟩
  | buildFailed {program : UserProgram} {arg0 : UInt64} {testPageValue : Option UInt64}
      {e : AddressSpaceError} {m' : Memory} : Extends B s.kernel.memory m' →
      m'.next ≤ s.kernel.memory.next + 21 →
      (Exhausted B m' ∨ B.bytes.entry B.kernelLevel4Frame USER_P4_INDEX ≠ 0) →
      Performs B s (.createUserTask program arg0 testPageValue) (.built (.error e))
        { s with kernel := { s.kernel with memory := m' } }
  | processSpawned {parent : Option ProcessId} {index : ℕ} {rflags : UInt64} {stack : ℕ}
      {init : UserTaskInit} {handle : UserProcessHandle} {k' : Kernel} : s.inits[index]? = some init →
      SpawnsUser s.kernel parent init stack handle k' →
      Performs B s (.spawnUser parent index rflags stack) (.process (.ok handle))
        ⟨k',s.inits.eraseIdx index⟩
  | processRefused {parent : Option ProcessId} {index : ℕ} {rflags : UInt64} {stack : ℕ}
      {e : SpawnError} {k' : Kernel} : SpawnFails s.kernel parent e k' →
      Performs B s (.spawnUser parent index rflags stack) (.process (.error e))
        ⟨k',s.inits.eraseIdx index⟩
  | argument {task : TaskId} {arg0 : UInt64} {b : Bool} {frames : ℕ → TrapFrame} :
      Performs B s (.setTaskInitialArg task arg0) (.accepted b)
        { s with kernel := { s.kernel with frames := frames } }
  | preemption {enabled : Bool} :
      Performs B s (.setPreemption enabled) .quiet
        { s with kernel := { s.kernel with preemptionEnabled := enabled } }
  | copied {task : TaskId} {address : VirtAddr} {bytes : List UInt8}
      {result : Except UserMemoryError Unit} {r : Frame} {m' : Memory} :
      WritesSpace B s.kernel.memory r m' →
      Performs B s (.copyToUser task address bytes) (.copied result)
        { s with kernel := { s.kernel with memory := m' } }
  | started {bootRsp : ℕ} {c : Option Control} {k' : Kernel} : s.kernel.current = none →
      Starts s.kernel bootRsp c k' →
      Performs B s (.run bootRsp) (.started c) { s with kernel := k' }
  | timerIgnored {rsp : ℕ} {frame : TrapFrame} :
      Performs B s (.timer rsp frame) (.control (.resume rsp)) { s with kernel := s.kernel.trap rsp frame }
  | timer {rsp : ℕ} {frame : TrapFrame} {c : Control} {k' : Kernel} :
      Switches (s.kernel.trap rsp frame) rsp c k' →
      Performs B s (.timer rsp frame) (.control c) { s with kernel := k' }
  | yielded {rsp : ℕ} {frame : TrapFrame} {c : Control} {k' : Kernel} :
      Switches (s.kernel.trap rsp frame) rsp c k' →
      Performs B s (.yield rsp frame) (.control c) { s with kernel := k' }
  | userCall {rsp : ℕ} {frame : TrapFrame} {i : ℕ} {pid : ProcessId} {P : Process} {c : Control}
      {k' : Kernel} : Caller B s.inits (s.kernel.trap rsp frame) i pid P →
      Syscall.UserDispatch B s.inits (s.kernel.trap rsp frame) i pid P rsp frame c k' →
      Performs B s (.syscall rsp frame) (.control c) { s with kernel := k' }
  | kernelCall {rsp : ℕ} {frame : TrapFrame} {i : ℕ} {t : Task} {c : Control} {k' : Kernel} :
      s.kernel.current = some i → s.kernel.tasks[i]? = some t → t.processId = none →
      Syscall.KernelDispatch B (s.kernel.trap rsp frame) i rsp frame c k' →
      Performs B s (.syscall rsp frame) (.control c) { s with kernel := k' }
  | faulted {rsp : ℕ} {frame : TrapFrame} {info : UserFaultInfo} {i : ℕ} {k₁ : Kernel} {c : Control}
      {k' : Kernel} : s.kernel.current = some i →
      Finishes B (s.kernel.trap rsp frame) i (faultTask rsp info) .faulted k₁ → Selects k₁ i c k' →
      Performs B s (.fault rsp frame info) (.control c) { s with kernel := k' }
  | kernelReturned {i : ℕ} {t : Task} {c : Control} {k' : Kernel} : s.kernel.current = some i →
      s.kernel.tasks[i]? = some t → t.processId = none →
      Selects (s.kernel.modifyTask i (Task.setState .finished)) i c k' →
      Performs B s .kernelReturn (.control c) { s with kernel := k' }
  | stored {address : VirtAddr} {byte : UInt8} {m' : Memory} :
      WritesSpace B s.kernel.memory s.kernel.cr3 m' →
      Performs B s (.userStore address byte) .quiet { s with kernel := { s.kernel with memory := m' } }

def Action.Admissible : Action → Prop
  | .syscall _ frame => Syscall.PointersCanonical frame
  | _ => True

section

variable {B : BootMemory} {P : Platform} {s s' : System} {a : Action} {o : Output} {ε α : Type}

theorem spec_onKernel {c : Code Kernel ε α} {Q : α → System → Prop} {E : ε → System → Prop} :
    Spec (System.onKernel c) s Q E ↔
      Spec c s.kernel (fun a k' => Q a { s with kernel := k' }) (fun e k' => E e { s with kernel := k' }) :=
  spec_within

theorem spec_onMemory {c : Code Memory ε α} {k : Kernel} {Q : α → Kernel → Prop}
    {E : ε → Kernel → Prop} : Spec (Kernel.onMemory c) k Q E ↔
      Spec c k.memory (fun a m' => Q a { k with memory := m' })
        (fun e m' => E e { k with memory := m' }) :=
  spec_within

theorem spec_keep_ok {init : UserTaskInit} {Q : Unit → System → Prop} {E : ε → System → Prop} :
    Spec (System.keep (.ok init : Except α UserTaskInit)) s Q E ↔
      Q () { s with inits := init :: s.inits } :=
  spec_modify _

theorem spec_keep_error {e : α} {Q : Unit → System → Prop} {E : ε → System → Prop} :
    Spec (System.keep (.error e : Except α UserTaskInit)) s Q E ↔ Q () s :=
  spec_pure _

theorem spec_push {k : Kernel} {rsp : ℕ} {frame : TrapFrame} {Q : Unit → Kernel → Prop}
    {E : ε → Kernel → Prop} : Spec (System.push rsp frame) k Q E ↔ Q () (k.trap rsp frame) :=
  spec_modify _

theorem NewSpace.extends_self {m m' : Memory} {space : AddressSpace} (h : NewSpace B m space m') :
    Extends B m m' :=
  ⟨h.sound,fun _ hr => h.spaces ▸ List.mem_cons_of_mem _ hr,fun _ _ => by rw [h.page]⟩

namespace Stable

variable (h : Stable B s)
include h

theorem sound : s.kernel.memory.Sound B := h.core.homes.sound

theorem trap (rsp : ℕ) (frame : TrapFrame) : Stable B { s with kernel := s.kernel.trap rsp frame } :=
  ⟨h.core,h.scheduled.trap rsp frame⟩

theorem caller {i : ℕ} {t : Task} {pid : ProcessId} (hcur : s.kernel.current = some i)
    (ht : s.kernel.tasks[i]? = some t) (hp : t.processId = some pid) :
    ∃ P, Caller B s.inits s.kernel i pid P := by
  obtain ⟨t',ht',hrun⟩ := h.scheduled.task hcur
  rw [ht] at ht'
  cases ht'
  obtain ⟨P,ha⟩ := Kernel.acts h.core ht (by rw [hrun]; rfl) hp
  exact ⟨P,h.core,hcur,⟨t,ht,hp⟩,ha⟩

theorem createUserTask_spec (program : UserProgram) (arg0 : UInt64) (testPageValue : Option UInt64) :
    Spec (System.perform P (.createUserTask program arg0 testPageValue)) s
      (Performs B s (.createUserTask program arg0 testPageValue)) fun _ _ => False := by
  rw [System.perform,spec_bind,spec_attempt,spec_onKernel,spec_onMemory]
  refine (createUserTaskWithTestPage_spec P.mapper P.programBytes program arg0 testPageValue
    (P.programs_fit program) h.sound).mono ?_ ?_
  · rintro init m' ⟨hbuilt,hnext⟩
    rw [spec_bind,spec_keep_ok,spec_pure]
    exact .built hbuilt hnext
  · rintro e m' ⟨hext,hnext,hcause⟩
    rw [spec_bind,spec_keep_error,spec_pure]
    exact .buildFailed hext hnext hcause

theorem loadUserElf_spec (bytes : List UInt8) (arg0 : UInt64) :
    Spec (System.perform P (.loadUserElf bytes arg0)) s (Performs B s (.loadUserElf bytes arg0))
      fun _ _ => False := by
  rw [System.perform,spec_bind,spec_attempt,spec_onKernel,spec_onMemory]
  refine (VladOs.loadUserElf_spec P.mapper bytes arg0 h.sound).mono ?_ ?_
  · intro init m' hbuilt
    rw [spec_bind,spec_keep_ok,spec_pure]
    exact .loaded hbuilt
  · intro e m' hext
    rw [spec_bind,spec_keep_error,spec_pure]
    exact .loadFailed hext

theorem newUser_spec :
    Spec (System.perform P .newUser) s (Performs B s .newUser) fun _ _ => False := by
  rw [System.perform,spec_bind,spec_attempt,spec_onKernel,spec_onMemory]
  refine (VladOs.newUser_spec h.sound).mono ?_ ?_
  · intro space m' hnew
    exact (spec_pure _).mpr (.space hnew.extends_self)
  · intro e m' hno
    exact (spec_pure _).mpr (.space hno.extends)

theorem spawnUser_spec (parent : Option ProcessId) {index : ℕ} (rflags : UInt64) (stack : ℕ)
    (hindex : index < s.inits.length) :
    Spec (System.perform P (.spawnUser parent index rflags stack)) s
      (Performs B s (.spawnUser parent index rflags stack)) fun _ _ => False := by
  obtain ⟨init,hinit⟩ : ∃ init, s.inits[index]? = some init := ⟨_,List.getElem?_eq_getElem hindex⟩
  rw [System.perform,spec_bind,spec_read]
  simp only [hinit]
  rw [spec_bind,spec_modify,spec_bind,spec_attempt,spec_onKernel]
  refine (spawnUserProcess_spec h.core.forest).mono ?_ ?_
  · intro handle k' hspawn
    exact (spec_pure _).mpr (.processSpawned hinit hspawn)
  · intro e k' hfail
    exact (spec_pure _).mpr (.processRefused hfail)

theorem copyToUser_spec (task : TaskId) (address : VirtAddr) (bytes : List UInt8) :
    Spec (System.perform P (.copyToUser task address bytes)) s
      (Performs B s (.copyToUser task address bytes)) fun _ _ => False := by
  have hsame : ∀ {result}, Performs B s (.copyToUser task address bytes) (.copied result) s :=
    .copied (.refl (r := 0) h.sound)
  rw [System.perform,spec_bind,spec_attempt,spec_onKernel,System.copyToTask,spec_bind,spec_read,spec_bind]
  cases hpid : (s.kernel.tasks[task]?).bind Task.processId with
  | none =>
    rw [spec_orFail_none,spec_pure]
    exact hsame
  | some pid =>
    rw [spec_orFail_some,spec_bind,ProcessTable.addressSpace]
    cases hP : s.kernel.processes.get pid with
    | none =>
      rw [Option.map_none,spec_orFail_none,spec_pure]
      exact hsame
    | some Q =>
      rw [Option.map_some,spec_orFail_some,spec_onMemory]
      refine (VladOs.copyToUser_spec h.sound (h.core.homes.process hP).1 address bytes).mono ?_ ?_
      · rintro - m' ⟨hw,-⟩
        exact (spec_pure _).mpr (.copied hw)
      · rintro e m' ⟨hw,-⟩
        exact (spec_pure _).mpr (.copied hw)

theorem userStore_spec (address : VirtAddr) (byte : UInt8) (hallow : storeAllowed s.kernel address) :
    Spec (System.perform P (.userStore address byte)) s (Performs B s (.userStore address byte))
      fun _ _ => False := by
  obtain ⟨huser,hhardware⟩ := hallow
  obtain ⟨pid,hpid⟩ := Option.isSome_iff_exists.mp huser
  obtain ⟨t,hcur,hp⟩ := Option.bind_eq_some_iff.mp hpid
  obtain ⟨i,hi,ht⟩ := Option.bind_eq_some_iff.mp hcur
  obtain ⟨Q,hcaller⟩ := h.caller hi ht hp
  have hroot : some Q.addressSpace.level4Frame = some s.kernel.cr3 := by
    have hload := (h.scheduled.loaded hi ht).1
    simpa [taskRoot,hp,hcaller.addressSpace] using hload
  have hspace := hcaller.space
  rw [Option.some.inj hroot] at hspace
  obtain ⟨m',hw,hstore⟩ := storeByte_writes h.sound hspace byte hhardware
  rw [System.perform,spec_bind,spec_onKernel,spec_modify,spec_pure,hstore]
  exact .stored hw

omit h in
theorem setTaskInitialArg_spec (task : TaskId) (arg0 : UInt64) :
    Spec (System.perform P (.setTaskInitialArg task arg0)) s
      (Performs B s (.setTaskInitialArg task arg0)) fun _ _ => False := by
  rw [System.perform,spec_bind,spec_onKernel,setTaskInitialArg,spec_bind,spec_read]
  cases ht : s.kernel.tasks[task]? with
  | none => exact (spec_pure _).mpr ((spec_pure _).mpr .argument)
  | some t =>
    simp only
    rw [spec_ite]
    constructor
    · intro _
      exact (spec_pure _).mpr ((spec_pure _).mpr .argument)
    · intro _
      rw [spec_bind,spec_modify,spec_pure,spec_pure]
      exact .argument

theorem run_spec (bootRsp : ℕ) (hcur : s.kernel.current = none) :
    Spec (System.perform P (.run bootRsp)) s (Performs B s (.run bootRsp)) fun _ _ => False := by
  rw [System.perform,spec_bind,spec_onKernel]
  refine (Kernel.run_spec h.core.rooted bootRsp).imp ?_
  intro c k' hstart
  cases c with
  | none => exact (spec_pure _).mpr (.started hcur hstart)
  | some control => exact (spec_pure _).mpr (.started hcur hstart)

theorem interrupt_spec (rsp : ℕ) (frame : TrapFrame) :
    Spec (System.perform P (.timer rsp frame)) s (Performs B s (.timer rsp frame)) (fun _ _ => False) ∧
    Spec (System.perform P (.yield rsp frame)) s (Performs B s (.yield rsp frame)) fun _ _ => False := by
  have ht := h.trap rsp frame
  constructor
  · rw [System.perform,spec_bind,spec_onKernel,spec_push,spec_bind,spec_onKernel]
    refine (onTimerInterrupt_spec ht.scheduled ht.core.rooted rsp).imp ?_
    rintro c k' (⟨rfl,rfl⟩ | hsw)
    · exact (spec_pure _).mpr .timerIgnored
    · exact (spec_pure _).mpr (.timer hsw)
  · rw [System.perform,spec_bind,spec_onKernel,spec_push,spec_bind,spec_onKernel]
    refine (switchFromInterrupt_spec ht.scheduled ht.core.rooted rsp).imp ?_
    intro c k' hsw
    exact (spec_pure _).mpr (.yielded hsw)

theorem syscall_spec {rsp : ℕ} {frame : TrapFrame} (hcur : s.kernel.current.isSome)
    (hcanon : Syscall.PointersCanonical frame) :
    Spec (System.perform P (.syscall rsp frame)) s (Performs B s (.syscall rsp frame))
      fun _ _ => False := by
  have ht := h.trap rsp frame
  obtain ⟨i,hi⟩ := Option.isSome_iff_exists.mp hcur
  obtain ⟨t,htask,-⟩ := h.scheduled.task hi
  rw [System.perform,spec_bind,spec_onKernel,spec_push,spec_bind,spec_onKernel]
  cases hp : t.processId with
  | none =>
    refine (Syscall.dispatch_kernel_spec ht.core ht.scheduled hi htask hp (s.kernel.trap_frame rsp frame)
      hcanon).imp ?_
    intro c k' hd
    exact (spec_pure _).mpr (.kernelCall hi htask hp hd)
  | some pid =>
    obtain ⟨Q,hcaller⟩ := ht.caller hi htask hp
    refine (Syscall.dispatch_user_spec hcaller ht.scheduled (s.kernel.trap_frame rsp frame) hcanon).imp ?_
    intro c k' hd
    exact (spec_pure _).mpr (.userCall hcaller hd)

theorem fault_spec {rsp : ℕ} {frame : TrapFrame} (info : UserFaultInfo)
    (huser : s.kernel.currentPid.isSome) :
    Spec (System.perform P (.fault rsp frame info)) s (Performs B s (.fault rsp frame info))
      fun _ _ => False := by
  have ht := h.trap rsp frame
  obtain ⟨pid,hpid⟩ := Option.isSome_iff_exists.mp huser
  obtain ⟨t,hcur,-⟩ := Option.bind_eq_some_iff.mp hpid
  obtain ⟨i,hi,-⟩ := Option.bind_eq_some_iff.mp hcur
  have hexit : processExit .failed none = some .faulted := rfl
  rw [System.perform,spec_bind,spec_onKernel,spec_push,spec_bind,spec_onKernel]
  refine (finishCurrentFromInterrupt_spec ht.core ht.scheduled hi hexit rsp (some info)).imp ?_
  rintro c k' ⟨k₁,hfin,hsel⟩
  exact (spec_pure _).mpr (.faulted hi hfin hsel)

theorem kernelReturn_spec {t : Task} (hcur : s.kernel.currentTask = some t) (hp : t.processId = none) :
    Spec (System.perform P .kernelReturn) s (Performs B s .kernelReturn) fun _ _ => False := by
  obtain ⟨i,hi,ht⟩ := Option.bind_eq_some_iff.mp hcur
  rw [System.perform,spec_bind,spec_onKernel]
  refine (finishCurrentTask_spec h.core h.scheduled hi ht hp).imp ?_
  intro c k' hsel
  exact (spec_pure _).mpr (.kernelReturned hi ht hp hsel)

theorem perform_spec (P : Platform) (henabled : Enabled s a) (hadm : a.Admissible) :
    Spec (System.perform P a) s (Performs B s a) fun _ _ => False := by
  cases a with
  | spawn entry rflags stack =>
    rw [System.perform,spec_bind,spec_attempt,spec_onKernel]
    refine (spawn_spec entry).mono ?_ ?_
    · intro id k' hspawn
      exact (spec_pure _).mpr (.spawned hspawn)
    · rintro _ _ ⟨rfl,rfl,hfull⟩
      exact (spec_pure _).mpr (.spawnRefused hfull)
  | newUser => exact h.newUser_spec
  | loadUserElf bytes arg0 => exact h.loadUserElf_spec bytes arg0
  | createUserTask program arg0 testPageValue => exact h.createUserTask_spec program arg0 testPageValue
  | spawnUser parent index rflags stack => exact h.spawnUser_spec parent rflags stack henabled.1
  | setTaskInitialArg task arg0 => exact setTaskInitialArg_spec task arg0
  | setPreemption enabled =>
    rw [System.perform,spec_bind,spec_onKernel,spec_modify,spec_pure]
    exact .preemption
  | copyToUser task address bytes => exact h.copyToUser_spec task address bytes
  | run bootRsp => exact h.run_spec bootRsp henabled
  | timer rsp frame => exact (h.interrupt_spec rsp frame).1
  | yield rsp frame => exact (h.interrupt_spec rsp frame).2
  | syscall rsp frame => exact h.syscall_spec henabled.1 hadm
  | fault rsp frame info => exact h.fault_spec info henabled.1
  | kernelReturn =>
    obtain ⟨t,hcur,hp⟩ := henabled
    exact h.kernelReturn_spec hcur hp
  | userStore address byte => exact h.userStore_spec address byte henabled

theorem progress (P : Platform) (henabled : Enabled s a) (hadm : a.Admissible) :
    ∃ o s', Step P s (a,o) s' ∧ Performs B s a o s' := by
  obtain ⟨o,s',hrun,hp⟩ := (h.perform_spec P henabled hadm).returns fun _ _ he => he
  exact ⟨o,s',⟨henabled,hrun⟩,hp⟩

theorem performs (hstep : Step P s (a,o) s') : Performs B s a o s' := by
  obtain ⟨henabled,hrun⟩ := hstep
  refine (h.perform_spec P henabled ?_).ok hrun
  cases a with
  | syscall rsp frame =>
    by_contra hbad
    have hpanic : System.perform P (.syscall rsp frame) s = .panic := by
      refine (bind_ok rfl _).trans (bind_panic (within_panic ?_) _)
      exact Syscall.dispatch_panic (s.kernel.trap_frame rsp frame) hbad
    rw [hpanic] at hrun
    cases hrun
  | _ => trivial

end Stable

theorem setState_ends : Ends (Task.setState .finished) := fun _ => rfl

theorem faultTask_ends (rsp : ℕ) (info : UserFaultInfo) : Ends (faultTask rsp info) :=
  endTask_ends (show processExit .failed none = some .faulted from rfl) rsp (some info)

theorem Performs.evolves (h : Stable B s) (hp : Performs B s a o s') :
    Evolves B s.inits s.kernel s'.inits s'.kernel := by
  have hmemory : ∀ {m' : Memory} {inits' : List UserTaskInit}, m'.Sound B →
      CoreStep B (s.kernel.core s.inits) (Kernel.core { s.kernel with memory := m' } inits') →
      Evolves B s.inits s.kernel inits' { s.kernel with memory := m' } :=
    fun hm' hstep => ⟨Or.inr hstep,scheduled_memory h.scheduled h.sound hm'⟩
  have hswitch : ∀ {rsp frame c k'}, Switches (s.kernel.trap rsp frame) rsp c k' →
      Evolves B s.inits s.kernel s.inits k' := by
    intro rsp frame c k' hsw
    have ht := h.scheduled.trap rsp frame
    exact Evolves.of_trap ⟨Or.inl (hsw.core ht),hsw.scheduled ht⟩
  cases hp with
  | spawned hspawn => exact ⟨Or.inr hspawn.coreStep,hspawn.scheduled h.scheduled⟩
  | spawnRefused _ => exact ⟨Or.inl rfl,h.scheduled⟩
  | space hext => exact hmemory hext.sound (.extend hext)
  | loaded hbuilt => exact hmemory hbuilt.sound (.build hbuilt)
  | loadFailed hext => exact hmemory hext.sound (.extend hext)
  | built hbuilt _ => exact hmemory hbuilt.sound (.build hbuilt)
  | buildFailed hext _ _ => exact hmemory hext.sound (.extend hext)
  | processSpawned hinit hspawn =>
    exact ⟨Or.inr (hspawn.coreStep hinit),hspawn.scheduled h.core h.scheduled⟩
  | processRefused hfail => exact ⟨Or.inr hfail.coreStep,hfail.scheduled h.scheduled⟩
  | argument => exact ⟨Or.inl rfl,h.scheduled.stored ⟨rfl,rfl,rfl,rfl,rfl,rfl⟩ fun _ _ _ => rfl⟩
  | preemption => exact ⟨Or.inl rfl,h.scheduled.stored ⟨rfl,rfl,rfl,rfl,rfl,rfl⟩ fun _ _ _ => rfl⟩
  | copied hw => exact hmemory hw.sound (.write hw)
  | started hcur hstart => exact ⟨Or.inl hstart.core,hstart.scheduled h.scheduled hcur⟩
  | timerIgnored => exact ⟨Or.inl rfl,h.scheduled.trap _ _⟩
  | timer hsw => exact hswitch hsw
  | yielded hsw => exact hswitch hsw
  | @userCall rsp frame i pid P c k' hcaller hd =>
    exact (hd.evolves hcaller (h.scheduled.trap rsp frame)).of_trap
  | @kernelCall rsp frame i t c k' hcur _ _ hd =>
    have ht := h.trap rsp frame
    exact (hd.evolves ht.core ht.scheduled hcur).of_trap
  | @faulted rsp frame info i k₁ c k' hcur hfin hsel =>
    have ht := h.trap rsp frame
    exact (hfin.selected (faultTask_ends rsp info) ht.core ht.scheduled hcur hsel).of_trap
  | kernelReturned hcur ht hp hsel =>
    have hfin : Finishes B s.kernel _ (Task.setState .finished) .faulted _ := .kernel ht hp
    exact hfin.selected setState_ends h.core h.scheduled hcur hsel
  | stored hw => exact hmemory hw.sound (.write hw)

theorem Performs.stable (h : Stable B s) (hp : Performs B s a o s') : Stable B s' :=
  ⟨(hp.evolves h).inv h.core,(hp.evolves h).scheduled⟩

theorem Boot.stable (B : Boot) : Stable B.toBootMemory B.system := by
  refine ⟨CoreInv.init ..,?_⟩
  refine ⟨fun i => ?_,?_,?_,fun _ => rfl⟩
  · exact iff_of_false (fun hc => by cases hc) fun hc => by simp [Boot.system,StateAt] at hc
  · rintro x ⟨⟩
  · rintro i t ⟨⟩

theorem Run.stable {B : Boot} {trace : List Event} (h : Run P B trace s) :
    Stable B.toBootMemory s := by
  refine Transition.Runs.invariant h ?_ ?_
  · rintro _ rfl
    exact B.stable
  · rintro s ⟨a,o⟩ s' hs hstep
    exact (hs.performs hstep).stable hs

end

end VladOs
