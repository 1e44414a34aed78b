import VladOs.Kernel.ExitEffects
import VladOs.Kernel.FileSteps
import VladOs.Kernel.Noninterference
import VladOs.Kernel.Registers

namespace VladOs

open Code Paging FdTable ProcessTable Kernel Transition

def Action.copiesTo (k : Kernel) (q : ProcessId) : Action → Prop
  | .copyToUser task _ _ => (k.tasks[task]?).bind Task.processId = some q
  | _ => False

def Action.wakes (s : System) (a : Action) (q : ProcessId) : Prop :=
  ∃ (i : ℕ) (t : Task) (child : ProcessId) (statusPtr : Option VirtAddr) (exit : ProcessExit),
    s.kernel.tasks[i]? = some t ∧ t.processId = some q ∧
    t.state = .blocked (.childExit child statusPtr) ∧ EndsProcess s a child exit

section

variable {B : BootMemory} {P : Platform} {s s' : System} {a : Action} {o : Output} {k k₁ k' : Kernel}
  {inits : List UserTaskInit} {q pid child parent : ProcessId} {Q R : Process} {i : ℕ}
  {f : Task → Task} {exit : ProcessExit} {statusPtr : Option VirtAddr}

theorem Kernel.viewOf_map {g : Process → Process}
    (hget : k'.processes.get q = (k.processes.get q).map g)
    (hsame : ∀ {Q}, k.processes.get q = some Q → k'.processView (g Q) = k.processView Q) :
    k'.viewOf q = k.viewOf q := by
  unfold viewOf
  rw [hget]
  cases hq : k.processes.get q with
  | none => rfl
  | some Q => rw [Option.map_some,Option.map_some,Option.map_some,hsame hq]

theorem viewOf_memory {m' : Memory} (h : CoreInv B (k.core inits))
    (hpage : ∀ r ∈ k.memory.addressSpaces, m'.page r = k.memory.page r) :
    ({ k with memory := m' } : Kernel).viewOf q = k.viewOf q := by
  refine viewOf_congr rfl fun {Q} hQ => processView_congr ?_ fun _ => rfl
  exact hpage _ (h.homes.process hQ).1

theorem viewOf_writes {m' : Memory} {r : Frame} (h : CoreInv B (k.core inits))
    (hw : WritesSpace B k.memory r m')
    (hr : ∀ {Q}, k.processes.get q = some Q → Q.addressSpace.level4Frame ≠ r) :
    ({ k with memory := m' } : Kernel).viewOf q = k.viewOf q :=
  viewOf_congr rfl fun {_} hQ => processView_congr (hw.page_of_ne h.homes.sound (hr hQ)) fun _ => rfl

theorem CoreInv.openFile {c : Core} {e : FdEntry} (h : CoreInv B c) (hQ : c.processes.get q = some Q)
    (he : some e ∈ Q.fdTable.entries) : ∃ file, c.openFiles.get e.openFile = some file := by
  obtain ⟨fd,hfd⟩ := mem_entries.mp he
  obtain ⟨file,hfile,-⟩ := h.files.target hQ hfd
  exact ⟨file,hfile⟩

theorem Kernel.SpawnsUser.viewOf_old {init : UserTaskInit} {stack : ℕ} {handle : UserProcessHandle}
    {parent : Option ProcessId} (h : CoreInv B (k.core inits))
    (hspawn : SpawnsUser k parent init stack handle k') (hQ : k.processes.get q = some Q) :
    k'.viewOf q = k.viewOf q := by
  cases hspawn with
  | @intro table o' pid t' frames _ hopen hcreated =>
    have hne : q ≠ pid := by
      obtain ⟨-,-,hlt⟩ := h.forest.slot hQ
      rw [hcreated.pid_eq]
      exact Nat.ne_of_lt hlt
    have hview : Kernel.processView { k with openFiles := o' } Q = k.processView Q := by
      refine processView_congr rfl fun {e} he => ?_
      obtain ⟨file,hfile⟩ := h.openFile hQ he
      exact (newWithStdio_opens hopen).kept hfile
    by_cases hparent : parent = some q
    · refine viewOf_map (g := addChild pid) ?_ fun {R} hR => ?_
      · exact (hcreated.get q).trans ((if_neg hne).trans (if_pos hparent))
      · cases hQ.symm.trans hR
        exact hview
    · refine viewOf_congr ?_ fun {R} hR => ?_
      · exact (hcreated.get q).trans ((if_neg hne).trans (if_neg hparent))
      · cases hQ.symm.trans hR
        exact hview

theorem Kernel.Exits.viewOf_other (hc : CoreInv B (k.core inits)) (hP : k.processes.get pid = some R)
    (h : Exits B k i f pid R exit k') (hQ : k.processes.get q = some Q) (hrun : Q.state = .running)
    (hq : q ≠ pid) (hnot : ∀ {j t ptr}, ¬ WaitingParent k.tasks pid R j t q ptr) :
    k'.viewOf q = k.viewOf q := by
  have hview : k'.processView Q = k.processView Q := by
    refine processView_congr ?_ fun {e} he => ?_
    · exact (h.storeEffects hc hP).memory hQ hnot
    · obtain ⟨fd,hfd⟩ := mem_entries.mp he
      exact h.file_of_ne hc hP hq hQ hfd
  have hget := h.get_of_ne hc hP hq hnot
  by_cases hchild : q ∈ R.children
  · rw [if_pos hchild,hQ,Option.bind_some,orphanOrReap_eq_some.mpr ⟨hrun,rfl⟩] at hget
    rw [viewOf_some hQ,viewOf_some hget]
    exact congrArg some hview
  · rw [if_neg hchild,hQ] at hget
    rw [viewOf_some hQ,viewOf_some hget,hview]

theorem Kernel.Finishes.viewOf_other (hc : CoreInv B (k.core inits)) (hcur : k.current = some i)
    (h : Finishes B k i f exit k') (hQ : k.processes.get q = some Q) (hrun : Q.state = .running)
    (hpid : k.currentPid ≠ some q)
    (hnot : ∀ {pid R j t ptr}, k.currentPid = some pid → k.processes.get pid = some R →
      ¬ WaitingParent k.tasks pid R j t q ptr) : k'.viewOf q = k.viewOf q := by
  cases h with
  | kernel _ _ => rfl
  | user ht hp hR hx =>
    have hactor : k.currentPid = some _ := currentPid_eq.mpr ⟨i,_,hcur,ht,hp⟩
    refine hx.viewOf_other hc hR hQ hrun ?_ (hnot hactor hR)
    rintro rfl
    exact hpid hactor

theorem Kernel.Selects.viewOf {start : ℕ} {c : Control} (h : Selects k start c k') :
    k'.viewOf q = k.viewOf q :=
  viewOf_core (show k'.core [] = k.core [] from h.core)

theorem Kernel.Switches.viewOf {rsp : ℕ} {c : Control} (hs : k.Scheduled) (h : Switches k rsp c k') :
    k'.viewOf q = k.viewOf q :=
  viewOf_core (show k'.core [] = k.core [] from h.core hs)

theorem Kernel.WaitResult.viewOf_other {rsp options : ℕ} {c : Control} (h : Caller B inits k i pid R)
    (hw : WaitResult B k i rsp pid R child statusPtr options c k') (hQ : k.processes.get q = some Q)
    (hrun : Q.state = .running) (hq : q ≠ pid) : k'.viewOf q = k.viewOf q := by
  cases hw with
  | refused _ => rfl
  | running _ _ _ _ _ => rfl
  | @reaped C exit m' hmem hC hz hallow hwritten =>
    have hchild : q ≠ child := by
      rintro rfl
      cases hQ.symm.trans hC
      cases hrun.symm.trans hz
    refine viewOf_congr ?_ fun {S} hS => processView_congr ?_ fun _ => rfl
    · change (reapTable k.processes pid child).get q = _
      rw [reapTable,get_reapChild,if_neg hchild,if_neg hq]
    · exact hwritten.page_of_ne h.sound (h.root_ne hS hq)
  | blocked _ _ _ _ _ hsel => exact hsel.viewOf

theorem Stable.currentRoot (h : Stable B s) (hpid : s.kernel.currentPid = some pid) :
    ∃ R, s.kernel.processes.get pid = some R ∧ s.kernel.cr3 = R.addressSpace.level4Frame := by
  obtain ⟨i,t,hi,ht,hp⟩ := currentPid_eq.mp hpid
  obtain ⟨R,hcaller⟩ := h.caller hi ht hp
  have hload := (h.scheduled.loaded hi ht).1
  rw [taskRoot] at hload
  simp only [hp,hcaller.addressSpace,Option.map_some] at hload
  exact ⟨R,hcaller.get,(Option.some.inj hload).symm⟩

theorem Step.copied_other (h : Stable B s) {task : TaskId} {address : VirtAddr} {bytes : List UInt8}
    (hstep : Step P s (.copyToUser task address bytes,o) s')
    (hcopy : (s.kernel.tasks[task]?).bind Task.processId ≠ some q) :
    s'.kernel.viewOf q = s.kernel.viewOf q := by
  have hspec : Spec (System.perform P (.copyToUser task address bytes)) s
      (fun _ s' => s'.kernel.viewOf q = s.kernel.viewOf q) fun _ _ => False := by
    rw [System.perform,spec_bind,spec_attempt,spec_onKernel,System.copyToTask,spec_bind,spec_read,spec_bind]
    cases hpid : (s.kernel.tasks[task]?).bind Task.processId with
    | none => rw [spec_orFail_none,spec_pure]
    | some pid =>
      rw [spec_orFail_some,spec_bind,ProcessTable.addressSpace]
      cases hR : s.kernel.processes.get pid with
      | none => rw [Option.map_none,spec_orFail_none,spec_pure]
      | some R =>
        have hother : ∀ {m'}, WritesSpace B s.kernel.memory R.addressSpace.level4Frame m' →
            ({ s.kernel with memory := m' } : Kernel).viewOf q = s.kernel.viewOf q := by
          intro m' hw
          refine viewOf_writes h.core hw fun {Q} hQ hroot => hcopy ?_
          rw [hpid,h.core.homes.unique hQ hR (congrArg AddressSpace.mk hroot)]
        rw [Option.map_some,spec_orFail_some,spec_onMemory]
        refine (VladOs.copyToUser_spec h.sound (h.core.homes.process hR).1 address bytes).mono ?_ ?_
        · rintro - m' ⟨hw,-⟩
          exact (spec_pure _).mpr (hother hw)
        · rintro e m' ⟨hw,-⟩
          exact (spec_pure _).mpr (hother hw)
  exact hspec.ok hstep.2

theorem Step.viewOf_other (h : Stable B s) (hstep : Step P s (a,o) s')
    (hQ : s.kernel.processes.get q = some Q) (hrun : Q.state = .running)
    (hcur : s.kernel.currentPid ≠ some q) (hcopy : ¬ a.copiesTo s.kernel q) (hwake : ¬ a.wakes s q) :
    s'.kernel.viewOf q = s.kernel.viewOf q := by
  have hextend : ∀ {m'}, Extends B s.kernel.memory m' →
      ({ s.kernel with memory := m' } : Kernel).viewOf q = s.kernel.viewOf q :=
    fun hext => viewOf_memory h.core hext.page
  have hswitch : ∀ {k k' rsp c}, Switches k rsp c k' → k.Scheduled → k.viewOf q = s.kernel.viewOf q →
      k'.viewOf q = s.kernel.viewOf q :=
    fun hsw hs hsame => (hsw.viewOf hs).trans hsame
  have hawake : ∀ {child exit R j t ptr}, EndsProcess s a child exit →
      ¬ WaitingParent s.kernel.tasks child R j t q ptr :=
    fun hends hw => hwake ⟨_,_,_,_,_,hw.task,hw.process,hw.blocked,hends⟩
  cases h.performs hstep with
  | spawned hspawn =>
    cases hspawn with
    | intro _ => rfl
  | space hext => exact hextend hext
  | loaded hbuilt => exact hextend hbuilt.toExtends
  | loadFailed hext => exact hextend hext
  | built hbuilt _ => exact hextend hbuilt.toExtends
  | buildFailed hext _ _ => exact hextend hext
  | processSpawned _ hspawn => exact hspawn.viewOf_old h.core hQ
  | processRefused hfail =>
    obtain rfl := hfail.same
    rfl
  | copied _ => exact hstep.copied_other h hcopy
  | started _ hstart => exact viewOf_core (show _ = s.kernel.core [] from hstart.core)
  | timer hsw => exact hswitch hsw (h.scheduled.trap _ _) rfl
  | yielded hsw => exact hswitch hsw (h.scheduled.trap _ _) rfl
  | @userCall rsp frame j pid R c k' hcaller hd =>
    obtain ⟨t,ht,hp⟩ := hcaller.task
    have hactor : s.kernel.currentPid = some pid := currentPid_eq.mpr ⟨j,t,hcaller.current,ht,hp⟩
    have hq : q ≠ pid := by
      rintro rfl
      exact hcur hactor
    cases hd with
    | returned _ he => exact he.others q hq
    | unknown _ => rfl
    | yielded _ hsw => exact hswitch hsw (scheduled_setRax (h.scheduled.trap _ _) _ _) rfl
    | exited hraw hfin hsel =>
      have hother := hfin.viewOf_other hcaller.inv hcaller.current hQ hrun hcur
        fun hpid' _ => hawake (.exit hpid' hraw)
      exact hsel.viewOf.trans hother
    | waited _ _ hw =>
      have hother := hw.viewOf_other hcaller hQ hrun hq
      exact hother
  | @kernelCall rsp frame j t c k' hj ht hp hd =>
    have hkernel : s.kernel.currentPid = none := by
      rw [Kernel.currentPid,Kernel.currentTask,hj,Option.bind_some,ht,Option.bind_some,hp]
    cases hd with
    | returned _ _ _ _ => rfl
    | yielded _ hsw => exact hswitch hsw (scheduled_setRax (h.scheduled.trap _ _) _ _) rfl
    | exited _ hfin hsel =>
      have hother := hfin.viewOf_other (h.trap rsp frame).core hj hQ hrun hcur fun hpid' _ => by
        cases hkernel.symm.trans hpid'
      exact hsel.viewOf.trans hother
  | @faulted rsp frame info j k₁ c k' hj hfin hsel =>
    have hother := hfin.viewOf_other (h.trap rsp frame).core hj hQ hrun hcur
      fun hpid' _ => hawake (.fault hpid')
    exact hsel.viewOf.trans hother
  | kernelReturned _ _ _ hsel => exact hsel.viewOf
  | stored hw =>
    obtain ⟨pid,hpid⟩ := Option.isSome_iff_exists.mp hstep.1.1
    obtain ⟨R,hR,hroot⟩ := h.currentRoot hpid
    refine viewOf_writes h.core hw fun {S} hS hsame => hcur ?_
    rw [hpid,h.core.homes.unique hS hR (congrArg AddressSpace.mk (hsame.trans hroot))]
  | _ => rfl

theorem setFrame_self {rsp : ℕ} {g : TrapFrame → TrapFrame} :
    (setFrame rsp g k).frames rsp = g (k.frames rsp) := if_pos rfl

theorem setFrame_of_ne {rsp x : ℕ} {g : TrapFrame → TrapFrame} (h : x ≠ rsp) :
    (setFrame rsp g k).frames x = k.frames x := if_neg h

theorem spawn_frames {entry : TaskEntry} {rflags : UInt64} {stack : ℕ} :
    Spec (Kernel.spawn P entry rflags stack) k
      (fun _ k' => k'.frames = (setFrame (Task.kernelFrameBottom stack)
        (fun _ => Task.kernelFrame P.selectors P.taskTrampoline rflags stack) k).frames)
      (fun _ k' => k'.frames = k.frames) := by
  rw [Kernel.spawn,spec_bind,spec_read,spec_ite]
  constructor
  · intro _
    rw [spec_fail]
  · intro _
    rw [spec_bind,spec_modify,spec_bind,spec_modify,spec_pure]

theorem spawnUserProcess_frames {parent : Option ProcessId} {init : UserTaskInit} {rflags : UInt64}
    {stack : ℕ} (hf : Forest k.processes) :
    Spec (spawnUserProcess P parent init rflags stack) k
      (fun _ k' => k'.frames = (setFrame (Task.userFrameBottom stack) (fun _ =>
        Task.userFrame P.selectors init.entryPoint init.userStackTop init.arg0 rflags) k).frames)
      (fun _ k' => k'.frames = k.frames) := by
  rw [spawnUserProcess,spec_bind,spec_read,spec_ite]
  constructor
  · intro _
    rw [spec_fail]
  · intro _
    rw [spec_bind,spec_mapError]
    cases k.processes.canCreate parent with
    | error e => rw [spec_ofExcept_error]
    | ok u =>
      rw [spec_ofExcept_ok,spec_bind]
      refine newFdTable_spec.mono ?_ ?_
      · rintro table _ ⟨o',-,rfl⟩
        rw [spec_bind,spec_mapError,onProcesses,spec_within]
        refine (Forest.create_spec hf parent init.addressSpace init.heap table k.tasks.length).mono ?_ ?_
        · intro pid t' _
          rw [spec_bind,spec_modify,spec_bind,spec_modify,spec_pure]
          rfl
        · intro e t' _
          rfl
      · rintro e _ ⟨-,-,rfl⟩
        rfl

theorem Step.spawn_frames {entry : TaskEntry} {rflags : UInt64} {stack x : ℕ}
    (hstep : Step P s (.spawn entry rflags stack,o) s') (hx : x ≠ Task.kernelFrameBottom stack) :
    s'.kernel.frames x = s.kernel.frames x := by
  have hspec : Spec (System.perform P (.spawn entry rflags stack)) s
      (fun _ s' => s'.kernel.frames x = s.kernel.frames x) fun _ _ => False := by
    rw [System.perform,spec_bind,spec_attempt,spec_onKernel]
    refine VladOs.spawn_frames.mono ?_ ?_
    · intro id k' hframes
      rw [spec_pure]
      exact (congrFun hframes x).trans (setFrame_of_ne hx)
    · intro e k' hframes
      rw [spec_pure]
      exact congrFun hframes x
  exact hspec.ok hstep.2

theorem Step.spawnUser_frames {parent : Option ProcessId} {index : ℕ} {rflags : UInt64} {stack x : ℕ}
    (h : Stable B s) (hstep : Step P s (.spawnUser parent index rflags stack,o) s')
    (hx : x ≠ Task.userFrameBottom stack) : s'.kernel.frames x = s.kernel.frames x := by
  have hspec : Spec (System.perform P (.spawnUser parent index rflags stack)) s
      (fun _ s' => s'.kernel.frames x = s.kernel.frames x) fun _ _ => False := by
    rw [System.perform,spec_bind,spec_read]
    cases s.inits[index]? with
    | none => exact (spec_pure _).mpr rfl
    | some init =>
      simp only
      rw [spec_bind,spec_modify,spec_bind,spec_attempt,spec_onKernel]
      refine (spawnUserProcess_frames h.core.forest).mono ?_ ?_
      · intro handle k' hframes
        rw [spec_pure]
        exact (congrFun hframes x).trans (setFrame_of_ne hx)
      · intro e k' hframes
        rw [spec_pure]
        exact congrFun hframes x
  exact hspec.ok hstep.2

theorem Step.argument_frames {task : TaskId} {arg0 : UInt64} {x : ℕ}
    (hstep : Step P s (.setTaskInitialArg task arg0,o) s')
    (hx : ∀ {t}, s.kernel.tasks[task]? = some t → t.state = .ready → x ≠ t.savedRsp) :
    s'.kernel.frames x = s.kernel.frames x := by
  have hspec : Spec (System.perform P (.setTaskInitialArg task arg0)) s
      (fun _ s' => s'.kernel.frames x = s.kernel.frames x) fun _ _ => False := by
    rw [System.perform,spec_bind,spec_onKernel,setTaskInitialArg,spec_bind,spec_read]
    cases ht : s.kernel.tasks[task]? with
    | none => exact (spec_pure _).mpr ((spec_pure _).mpr rfl)
    | some t =>
      simp only
      rw [spec_ite]
      constructor
      · intro _
        exact (spec_pure _).mpr ((spec_pure _).mpr rfl)
      · intro hready
        rw [spec_bind,spec_modify,spec_pure,spec_pure]
        exact if_neg (hx ht (not_not.mp hready))
  exact hspec.ok hstep.2

theorem userFrameBottom_inside (stack : ℕ) : stack ≤ Task.userFrameBottom stack ∧
    Task.userFrameBottom stack + TRAP_FRAME_SIZE ≤ stack + TASK_STACK_SIZE := by
  unfold Task.userFrameBottom Task.stackTop alignDown TRAP_FRAME_SIZE TASK_STACK_SIZE
  omega

theorem OnStack.ne_new {t : Task} {rsp stack bottom : ℕ} (h : OnStack t rsp)
    (hfree : stack + TASK_STACK_SIZE ≤ t.kernelStack ∨ t.kernelStack + TASK_STACK_SIZE ≤ stack)
    (hbottom : stack ≤ bottom ∧ bottom + TRAP_FRAME_SIZE ≤ stack + TASK_STACK_SIZE) : rsp ≠ bottom := by
  rintro rfl
  obtain ⟨hlow,hhigh⟩ := h
  unfold TRAP_FRAME_SIZE at hhigh hbottom
  omega

theorem Step.frame_other {j : ℕ} {t : Task} (h : Stable B s) (hstacks : Stacks s)
    (hstep : Step P s (a,o) s') (ht : s.kernel.tasks[j]? = some t) (hlive : t.state.terminal = false)
    (hcur : s.kernel.current ≠ some j) (harg : ∀ arg0, a ≠ .setTaskInitialArg j arg0)
    (hwake : ∀ {child ptr exit}, t.state = .blocked (.childExit child ptr) →
      ¬ EndsProcess s a child exit) : s'.kernel.frames t.savedRsp = s.kernel.frames t.savedRsp := by
  have hon := hstacks.saved ht hlive hcur
  have hp := h.performs hstep
  cases hframe : a.frame? with
  | some x =>
    obtain ⟨rsp,frame⟩ := x
    have hne : t.savedRsp ≠ rsp :=
      ((hstacks.push_apart h hstep.1 hframe ht hlive hcur).ne (by decide)).symm
    have hchange := hp.frameChange hframe
    have hkept : (s.kernel.trap rsp frame).frames t.savedRsp = s.kernel.frames t.savedRsp := trap_of_ne hne
    rw [← hkept]
    generalize s'.kernel.frames = frames' at hchange
    cases hchange with
    | none => rfl
    | returned value hsys _ _ =>
      subst hsys
      cases hframe
      exact setRaxAt_of_ne hne
    | @woken w u child ptr exit hu hstate hends =>
      refine setRaxAt_of_ne fun hsame => ?_
      have hwj : w = j := by
        by_contra hwj
        have hlive' : u.state.terminal = false := by rw [hstate]; rfl
        exact (hstacks.saved_apart hu ht hwj hlive' hlive (h.blocked_idle hu hstate) hcur).ne (by decide)
          hsame.symm
      subst hwj
      cases ht.symm.trans hu
      exact hwake hstate hends
  | none =>
    cases a with
    | spawn entry rflags stack =>
      exact hstep.spawn_frames (hon.ne_new (hstep.1.2.2 t (List.mem_of_getElem? ht))
        (onStack_initialFrame (Task.newKernel 0 entry stack)))
    | spawnUser parent index rflags stack =>
      exact hstep.spawnUser_frames h (hon.ne_new (hstep.1.2.2.2 t (List.mem_of_getElem? ht))
        (userFrameBottom_inside stack))
    | setTaskInitialArg task arg0 =>
      refine hstep.argument_frames fun {u} hu hready => ?_
      have hne : task ≠ j := fun hc => harg arg0 (by rw [hc])
      have hidle : s.kernel.current ≠ some task := by
        intro hc
        cases hready.symm.trans ((h.current_iff hu).mp hc)
      exact ((hstacks.saved_apart hu ht hne (by rw [hready]; rfl) hlive hidle hcur).ne (by decide)).symm
    | run bootRsp =>
      cases hp with
      | started _ hstart => cases hstart <;> rfl
    | kernelReturn =>
      cases hp with
      | kernelReturned _ _ _ hsel => exact congrFun hsel.frames _
    | timer _ _ => cases hframe
    | yield _ _ => cases hframe
    | syscall _ _ => cases hframe
    | fault _ _ _ => cases hframe
    | _ => cases hp <;> rfl

end

end VladOs
