import VladOs.Kernel.Endings

namespace VladOs

open Code Paging ProcessTable Kernel Transition

inductive WaitReturns (s s' : System) : Action → ℕ → Option ProcessId → ProcessId → Option VirtAddr →
    UInt64 → Prop where
  | now {i rsp : ℕ} {frame : TrapFrame} {t : Task} {statusPtr : Option VirtAddr} :
      s.kernel.current = some i → s.kernel.tasks[i]? = some t →
      SyscallNumber.fromRaw frame.rax = some .waitPid →
      waitStatusAddress frame.rsi.toNat = some statusPtr → s'.kernel.current = some i →
      WaitReturns s s' (.syscall rsp frame) i t.processId frame.rdi.toNat statusPtr
        (s'.kernel.frames rsp).rax
  | later {a : Action} {i : ℕ} {t t' : Task} {child : ProcessId} {statusPtr : Option VirtAddr} :
      s.kernel.tasks[i]? = some t → t.state = .blocked (.childExit child statusPtr) →
      s'.kernel.tasks[i]? = some t' → t'.state ≠ t.state →
      WaitReturns s s' a i t.processId child statusPtr (s'.kernel.frames t.savedRsp).rax

def BadOptions : Action → Prop
  | .syscall _ frame => frame.rdx.toNat ≠ 0 ∧ frame.rdx.toNat ≠ WNOHANG
  | _ => False

def StatusStored (s : System) (pid : ProcessId) (address : VirtAddr) (exit : ProcessExit) : Prop :=
  ∃ Q, s.kernel.processes.get pid = some Q ∧ ∀ n < waitStatusSize,
    (s.kernel.memory.page Q.addressSpace.level4Frame).byte (address.addr + n) = exit.waitStatusBytes[n]?

structure Collects (s s' : System) (a : Action) (pid child : ProcessId) (statusPtr : Option VirtAddr)
    (exit : ProcessExit) : Prop where
  found : ∃ Q C, s.kernel.processes.get pid = some Q ∧ child ∈ Q.children ∧
    s.kernel.processes.get child = some C
  ended : s.kernel.processes.state child = some (.zombie exit) ∨ EndsProcess s a child exit
  gone : s'.kernel.processes.get child = none
  stored : ∀ address, statusPtr = some address → StatusStored s' pid address exit

inductive WaitOutcome (s s' : System) (a : Action) (caller : Option ProcessId) (child : ProcessId)
    (statusPtr : Option VirtAddr) : UInt64 → Prop where
  | invalid : BadOptions a → s'.kernel.processes = s.kernel.processes →
      WaitOutcome s s' a caller child statusPtr SysError.invalid.rawReturn
  | notChild : s'.kernel.processes = s.kernel.processes →
      WaitOutcome s s' a caller child statusPtr SysError.child.rawReturn
  | badPointer {C : Process} : s.kernel.processes.get child = some C →
      s'.kernel.processes = s.kernel.processes →
      WaitOutcome s s' a caller child statusPtr SysError.fault.rawReturn
  | running {C : Process} : s.kernel.processes.get child = some C →
      s'.kernel.processes = s.kernel.processes → WaitOutcome s s' a caller child statusPtr 0
  | collected {pid : ProcessId} {exit : ProcessExit} : caller = some pid →
      Collects s s' a pid child statusPtr exit →
      WaitOutcome s s' a caller child statusPtr (UInt64.ofNat child)

section

variable {B : BootMemory} {s s' : System} {a : Action} {o : Output} {i : ℕ} {caller : Option ProcessId}
  {child pid : ProcessId} {statusPtr : Option VirtAddr} {v : UInt64} {exit : ProcessExit}

theorem StatusWritten.byte {m m' : Memory} {space : AddressSpace} {address : VirtAddr} {n : ℕ}
    (h : StatusWritten B m space (some address) exit m') (hn : n < waitStatusSize) :
    (m'.page space.level4Frame).byte (address.addr + n) = exit.waitStatusBytes[n]? := by
  rw [writeBytes_byte h.2,waitStatusBytes_length,if_pos (by omega),Nat.add_sub_cancel_left]

theorem get_reapTable_parent {t : ProcessTable} {Q : Process} (hQ : t.get pid = some Q)
    (hne : pid ≠ child) : (reapTable t pid child).get pid = some (removeChild child Q) := by
  rw [reapTable,get_reapChild,if_neg hne,if_pos rfl,hQ,Option.map_some]

theorem get_reapTable_child {t : ProcessTable} : (reapTable t pid child).get child = none := by
  rw [reapTable,get_reapChild,if_pos rfl]

theorem Kernel.WaitResult.outcome {rsp : ℕ} {frame : TrapFrame} {Q : Process} {c : Control} {k' : Kernel}
    (h : Stable B s) (hcur : s.kernel.current = some i) (hQ : s.kernel.processes.get pid = some Q)
    (hw : WaitResult B (s.kernel.trap rsp frame) i rsp pid Q frame.rdi.toNat statusPtr frame.rdx.toNat c k')
    (hstay : k'.current = some i) :
    WaitOutcome s { s with kernel := k' } (.syscall rsp frame) (some pid) frame.rdi.toNat statusPtr
      (k'.frames rsp).rax := by
  cases hw with
  | refused hr =>
    rw [setRax_frame]
    cases hr with
    | options h₀ h₁ => exact .invalid ⟨h₀,h₁⟩ rfl
    | notChild _ _ => exact .notChild rfl
    | badPointer _ hmem _ _ =>
      obtain ⟨C,hC,-⟩ := h.core.forest.child hQ hmem
      exact .badPointer hC rfl
  | running _ hC _ _ _ =>
    rw [setRax_frame]
    exact .running hC rfl
  | reaped hmem hC hz _ hwritten =>
    rw [setRax_frame]
    obtain ⟨_,-,hlt,-⟩ := h.core.forest.child hQ hmem
    refine .collected rfl ⟨⟨Q,_,hQ,hmem,hC⟩,Or.inl (TaskTable.state_eq.mpr ⟨_,hC,hz⟩),
      get_reapTable_child,?_⟩
    rintro address rfl
    exact ⟨_,get_reapTable_parent hQ (Nat.ne_of_lt hlt),fun n hn => hwritten.byte hn⟩
  | blocked _ _ _ _ _ hsel =>
    exfalso
    obtain ⟨t,ht,-⟩ := h.scheduled.task hcur
    cases hsel with
    | main _ => cases hstay
    | resume _ hu hready _ =>
      cases hstay
      have hself := modifyTask_self (modifyTask_self (k := s.kernel.trap rsp frame) ht
        (Task.setSavedRsp rsp)) (Task.setState (.blocked (.childExit frame.rdi.toNat statusPtr)))
      rw [hself] at hu
      cases hu
      cases hready

theorem EndsProcess.outcome {t : Task} (h : Stable B s) (hp : Performs B s a o s')
    (hend : EndsProcess s a child exit) (ht : s.kernel.tasks[i]? = some t)
    (hs : t.state = .blocked (.childExit child statusPtr)) :
    WaitOutcome s s' a t.processId child statusPtr (s'.kernel.frames t.savedRsp).rax := by
  obtain ⟨t',-,-,-,hrax⟩ := h.wakes ht hs hp hend
  rw [hrax]
  obtain ⟨j,rsp,frame,C,k₁,c,he⟩ := hend.ended hp
  have hsel := he.selects
  obtain ⟨parent,Q,m',-,hpar,hQ,hmem,hwritten,rfl⟩ := he.exits.of_waiter (h.trap rsp frame).core ht hs
  obtain ⟨_,-,hlt,-⟩ := h.core.forest.child hQ hmem
  have hparent : (exitTable s.kernel.processes child C exit).get parent = some Q :=
    get_exitTable_parent h.core.forest he.get hQ hmem
  refine .collected hpar ⟨⟨Q,C,hQ,hmem,he.get⟩,Or.inr hend,?_,?_⟩
  · rw [hsel.processes]
    exact get_reapTable_child
  · rintro address rfl
    refine ⟨removeChild child Q,?_,fun n hn => ?_⟩
    · rw [hsel.processes]
      exact get_reapTable_parent hparent (Nat.ne_of_lt hlt)
    · rw [hsel.memory]
      exact hwritten.byte hn

theorem WaitReturns.outcome (h : Stable B s) (hp : Performs B s a o s')
    (hw : WaitReturns s s' a i caller child statusPtr v) : WaitOutcome s s' a caller child statusPtr v := by
  cases hw with
  | @now i rsp frame t statusPtr hcur ht hraw hptr hstay =>
    cases hp with
    | userCall hcaller hd =>
      obtain rfl := hcaller.index_eq hcur
      rw [hcaller.process_eq ht]
      exact (hd.waits hraw hptr).outcome h hcur hcaller.get hstay
    | kernelCall hcur' ht' hnone hd =>
      cases hd with
      | returned r _ _ hr =>
        cases hr hraw
        change WaitOutcome _ _ _ _ _ _ ((Kernel.setRax _ _ _).frames rsp).rax
        rw [setRax_frame]
        exact .notChild rfl
      | yielded hy _ => rw [hraw] at hy; cases hy
      | exited he _ _ => rw [hraw] at he; cases he
  | @later a i t t' child statusPtr ht hs ht' hne =>
    have hends : a.ends s = some child := by
      by_contra hc
      rw [(hp.stillWaiting h).kept ht hs hc] at ht'
      cases ht'
      exact hne rfl
    obtain ⟨exit,hend⟩ := ends_eq.mp hends
    exact hend.outcome h hp ht hs

theorem toNat_pid {n : ℕ} (hn : n ≤ MAX_PROCESSES) : (UInt64.ofNat n).toNat = n :=
  UInt64.toNat_ofNat_of_lt' (Nat.lt_of_le_of_lt hn (by decide))

theorem rawReturn_ne (e : SysError) {n : ℕ} (hn : n ≤ MAX_PROCESSES) : e.rawReturn ≠ UInt64.ofNat n := by
  intro h
  have hhigh : MAX_PROCESSES < e.rawReturn.toNat := by cases e <;> decide
  rw [h,toNat_pid hn] at hhigh
  omega

theorem WaitOutcome.collects (h : Stable B s) (hw : WaitOutcome s s' a caller child statusPtr v)
    (hv : v = UInt64.ofNat child) (hchild : child ≤ MAX_PROCESSES) :
    ∃ pid exit, caller = some pid ∧ Collects s s' a pid child statusPtr exit := by
  cases hw with
  | invalid _ _ => exact absurd hv (rawReturn_ne _ hchild)
  | notChild _ => exact absurd hv (rawReturn_ne _ hchild)
  | badPointer _ _ => exact absurd hv (rawReturn_ne _ hchild)
  | running hC _ =>
    have hzero := congrArg UInt64.toNat hv
    rw [toNat_pid hchild] at hzero
    exact absurd (h.core.forest.slot hC).2.1 (by rw [← hzero]; decide)
  | collected hcaller hc => exact ⟨_,_,hcaller,hc⟩

theorem WaitOutcome.unchanged (h : Stable B s) (hw : WaitOutcome s s' a caller child statusPtr v)
    (hv : v = SysError.invalid.rawReturn ∨ v = SysError.child.rawReturn ∨ v = SysError.fault.rawReturn ∨
      v = 0) : s'.kernel.processes = s.kernel.processes := by
  cases hw with
  | invalid _ hsame => exact hsame
  | notChild hsame => exact hsame
  | badPointer _ hsame => exact hsame
  | running _ hsame => exact hsame
  | collected _ hc =>
    obtain ⟨-,C,-,-,hC⟩ := hc.found
    obtain ⟨-,hpos,hlt⟩ := h.core.forest.slot hC
    have hle : child ≤ MAX_PROCESSES := Nat.le_of_lt_succ (hlt.trans_le h.core.forest.nextPid_le)
    rcases hv with hv | hv | hv | hv
    · exact absurd hv.symm (rawReturn_ne _ hle)
    · exact absurd hv.symm (rawReturn_ne _ hle)
    · exact absurd hv.symm (rawReturn_ne _ hle)
    · have hzero := congrArg UInt64.toNat hv
      rw [toNat_pid hle] at hzero
      exact absurd hpos (by rw [hzero]; decide)

theorem WaitOutcome.absent (hw : WaitOutcome s s' a caller child statusPtr v)
    (hgone : s.kernel.processes.get child = none) :
    v = SysError.child.rawReturn ∨ v = SysError.invalid.rawReturn ∧ BadOptions a := by
  have hno : ∀ {C}, s.kernel.processes.get child ≠ some C := by
    intro C hC
    rw [hgone] at hC
    cases hC
  cases hw with
  | invalid hbad _ => exact Or.inr ⟨rfl,hbad⟩
  | notChild _ => exact Or.inl rfl
  | badPointer hC _ => exact absurd hC hno
  | running hC _ => exact absurd hC hno
  | collected _ hc =>
    obtain ⟨-,C,-,-,hC⟩ := hc.found
    exact absurd hC hno

theorem WaitReturns.task (hw : WaitReturns s s' a i caller child statusPtr v) :
    ∃ t, s.kernel.tasks[i]? = some t ∧ t.processId = caller := by
  cases hw with
  | now _ ht _ _ _ => exact ⟨_,ht,rfl⟩
  | later ht _ _ _ => exact ⟨_,ht,rfl⟩

end

structure EndedWith (P : Platform) (B : Boot) (trace : List Event) (pid : ProcessId)
    (exit : ProcessExit) : Prop where
  step : ∃ older e s₀ s₁, Run P B older s₀ ∧ Step P s₀ e s₁ ∧ e :: older <:+ trace ∧
    EndsProcess s₀ e.1 pid exit

section

variable {P : Platform} {B : Boot} {trace : List Event} {s s' : System}

theorem EndedWith.later {pid : ProcessId} {exit : ProcessExit} (h : EndedWith P B trace pid exit)
    (e : Event) : EndedWith P B (e :: trace) pid exit := by
  obtain ⟨older,e₀,s₀,s₁,hrun,hstep,hsuffix,hend⟩ := h.step
  exact ⟨older,e₀,s₀,s₁,hrun,hstep,hsuffix.trans (List.suffix_cons _ _),hend⟩

theorem Run.endedWith (h : Run P B trace s) : ∀ {pid : ProcessId} {exit : ProcessExit},
    s.kernel.processes.state pid = some (.zombie exit) → EndedWith P B trace pid exit := by
  refine Runs.trace_invariant (I := fun trace s => ∀ {pid : ProcessId} {exit : ProcessExit},
    s.kernel.processes.state pid = some (.zombie exit) → EndedWith P B trace pid exit) h ?_ ?_
  · rintro _ rfl pid exit hz
    simp [Boot.system,ProcessTable.state,ProcessTable.new,ProcessTable.get] at hz
  · rintro trace s ⟨a,o⟩ s' hrun ih hstep pid exit hz
    have hr : Run P B trace s := hrun
    rcases (hr.stable.performs hstep).zombie hr.stable hz with hold | hend
    · exact (ih hold).later _
    · exact ⟨trace,_,s,s',hrun,hstep,List.suffix_refl _,hend⟩

theorem Run.stays_gone (h : Run P B trace s) {pid : ProcessId} {later : List Event}
    (hgone : s.kernel.processes.get pid = none) (hlt : pid < s.kernel.processes.nextPid)
    (h' : Runs (· = s) (Step P) later s') : s'.kernel.processes.get pid = none := by
  refine (Runs.trace_invariant (I := fun later s' => Run P B (later ++ trace) s' ∧
    s'.kernel.processes.get pid = none ∧ pid < s'.kernel.processes.nextPid) h' ?_ ?_).2.1
  · rintro _ rfl
    exact ⟨h,hgone,hlt⟩
  · rintro later s ⟨a,o⟩ s' - ⟨hrun,hgone,hlt⟩ hstep
    have htable := (hrun.evolves hstep).table hrun.stable.core
    exact ⟨hrun.after hstep,htable.gone hrun.stable.core.forest hgone hlt,hlt.trans_le htable.nextPid_le⟩

structure DeliveryLaws (P : Platform) (B : Boot) (trace : List Event) (s : System) (e : Event)
    (s' : System) : Prop where
  collected : ∀ {i caller c statusPtr}, c ≤ MAX_PROCESSES →
    WaitReturns s s' e.1 i caller c statusPtr (UInt64.ofNat c) →
    ∃ p C exit, caller = some p ∧ s.kernel.processes.get c = some C ∧ C.parent = some p ∧
      EndedWith P B (e :: trace) c exit ∧
      ∀ address, statusPtr = some address → StatusStored s' p address exit
  alone : ∀ {i j caller caller' c statusPtr statusPtr'}, c ≤ MAX_PROCESSES →
    WaitReturns s s' e.1 i caller c statusPtr (UInt64.ofNat c) →
    WaitReturns s s' e.1 j caller' c statusPtr' (UInt64.ofNat c) → i = j
  forgotten : ∀ {i caller c statusPtr}, c ≤ MAX_PROCESSES →
    WaitReturns s s' e.1 i caller c statusPtr (UInt64.ofNat c) →
    ∀ {later s₁}, Runs (· = s') (Step P) later s₁ →
      (∀ {j : ℕ} {t : Task} {ptr}, s₁.kernel.tasks[j]? = some t →
        t.state ≠ .blocked (.childExit c ptr)) ∧
      ∀ {e₁ s₂ j caller' ptr v}, Step P s₁ e₁ s₂ → WaitReturns s₁ s₂ e₁.1 j caller' c ptr v →
        v ≠ UInt64.ofNat c ∧
        (v = SysError.child.rawReturn ∨ v = SysError.invalid.rawReturn ∧ BadOptions e₁.1)
  unchanged : ∀ {i caller c statusPtr v}, WaitReturns s s' e.1 i caller c statusPtr v →
    v = SysError.invalid.rawReturn ∨ v = SysError.child.rawReturn ∨ v = SysError.fault.rawReturn ∨
      v = 0 → s'.kernel.processes = s.kernel.processes

theorem statuses_delivered_once {e : Event} (h : Run P B trace s) (hstep : Step P s e s') :
    DeliveryLaws P B trace s e s' := by
  have hst := h.stable
  have hperf := hst.performs hstep
  have hcollects : ∀ {i caller c statusPtr}, c ≤ MAX_PROCESSES →
      WaitReturns s s' e.1 i caller c statusPtr (UInt64.ofNat c) →
      ∃ p exit, caller = some p ∧ Collects s s' e.1 p c statusPtr exit :=
    fun hc hw => (hw.outcome hst hperf).collects hst rfl hc
  have hparent : ∀ {p c statusPtr exit}, Collects s s' e.1 p c statusPtr exit →
      ∃ C, s.kernel.processes.get c = some C ∧ C.parent = some p := by
    intro p c statusPtr exit hcol
    obtain ⟨Q,-,hQ,hmem,-⟩ := hcol.found
    obtain ⟨C,hC,-,hpar⟩ := hst.core.forest.child hQ hmem
    exact ⟨C,hC,hpar⟩
  refine ⟨?_,?_,?_,fun hw hv => (hw.outcome hst hperf).unchanged hst hv⟩
  · intro i caller c statusPtr hc hw
    obtain ⟨p,exit,rfl,hcol⟩ := hcollects hc hw
    obtain ⟨C,hC,hpar⟩ := hparent hcol
    refine ⟨p,C,exit,rfl,hC,hpar,?_,hcol.stored⟩
    rcases hcol.ended with hz | hend
    · exact (h.endedWith hz).later e
    · exact ⟨trace,e,s,s',h,hstep,List.suffix_refl _,hend⟩
  · intro i j caller caller' c statusPtr statusPtr' hc hw hw'
    obtain ⟨p,exit,rfl,hcol⟩ := hcollects hc hw
    obtain ⟨p',exit',rfl,hcol'⟩ := hcollects hc hw'
    obtain ⟨C,hC,hpar⟩ := hparent hcol
    obtain ⟨C',hC',hpar'⟩ := hparent hcol'
    rw [hC] at hC'
    cases hC'
    rw [hpar] at hpar'
    cases hpar'
    obtain ⟨t,ht,htp⟩ := hw.task
    obtain ⟨u,hu,hup⟩ := hw'.task
    exact hst.core.tasks.unique (core_view ht) (core_view hu) htp hup
  · intro i caller c statusPtr hc hw later s₁ hlater
    obtain ⟨p,exit,rfl,hcol⟩ := hcollects hc hw
    obtain ⟨C,hC,-⟩ := hparent hcol
    have hrun' := h.after hstep
    have hlt : c < s'.kernel.processes.nextPid := (hst.core.forest.slot hC).2.2.trans_le
      ((h.evolves hstep).table hst.core).nextPid_le
    have hgone := hrun'.stays_gone hcol.gone hlt hlater
    have hrun₁ : Run P B (later ++ e :: trace) s₁ := hrun'.append hlater
    have hst₁ := hrun₁.stable
    refine ⟨fun {j t ptr} ht hs => ?_,fun {e₁ s₂ j caller' ptr v} hstep₁ hw₁ => ?_⟩
    · obtain ⟨-,-,D,-,-,-,hD,-⟩ := hst₁.core.waits (core_view ht) (phase_waiting.mpr hs)
      change s₁.kernel.processes.get c = some D at hD
      rw [hgone] at hD
      cases hD
    · have hv := (hw₁.outcome hst₁ (hst₁.performs hstep₁)).absent hgone
      refine ⟨?_,hv⟩
      rcases hv with rfl | ⟨rfl,-⟩
      · exact rawReturn_ne _ hc
      · exact rawReturn_ne _ hc

theorem Kernel.Finishes.resumesFirst {B : BootMemory} {k k₁ k' : Kernel} {f : Task → Task}
    {exit : ProcessExit} {c : Control} {t : Task} (hs : k.Scheduled) (hcur : k.current = some 1)
    (hlen : k.tasks.length = 2) (hf : Ends f) (hseat : ∀ t, (f t).seat = t.seat)
    (hfin : Finishes B k 1 f exit k₁) (hsel : Selects k₁ 1 c k') (ht : k'.tasks[0]? = some t)
    (hwake : t.state = .ready ∨ t.state = .running ∧ k'.current = some 0) : k'.current = some 0 := by
  rcases hwake with hready | ⟨-,hfirst⟩
  · exfalso
    cases hsel with
    | main hn => exact nextReadyAfter_none hn ht hready
    | @resume next v root _ hv hvready _ =>
      have hafter : TasksAfter k none k₁.tasks := hfin.tasksAfter hs hcur hf hseat
      obtain ⟨v₀,hv₀,-⟩ := hafter.task hv
      have hlt : next < 2 := hlen ▸ (List.getElem?_eq_some_iff.mp hv₀).1
      obtain rfl | rfl : next = 0 ∨ next = 1 := by omega
      · have hself := modifyTask_self hv (Task.setState .running)
        cases hself.symm.trans ht
        cases hready
      · exact hafter.not_ready hcur hv hvready
  · exact hfirst

def childExit : Action :=
  .syscall (Task.userFrameBottom (HEAP_START + TASK_STACK_SIZE)) (.ofCall 1 0 0 0)

structure FamilyDone (s : System) : Prop where
  current : s.kernel.current = some 0
  task : ∃ t, s.kernel.tasks[0]? = some t ∧ t.processId = some 1 ∧
    t.kernelStackTop = Task.stackTop HEAP_START

theorem FamilyBlocked.ends (h : FamilyBlocked s) :
    EndsProcess s childExit 2 (Syscall.exitOf (.ofCall 1 0 0 0)) := by
  obtain ⟨t,u,htasks,-,-,hup,-⟩ := h.tasks
  exact .exit (currentPid_eq.mpr ⟨1,u,h.current,by rw [htasks]; rfl,hup⟩) rfl

theorem FamilyBlocked.exits (hrun : Run P B trace s) (h : FamilyBlocked s) :
    ∃ c s', Step P s (childExit,.control c) s' ∧
      WaitReturns s s' childExit 0 (some 1) 2 none (UInt64.ofNat 2) ∧ FamilyDone s' := by
  obtain ⟨t,u,htasks,hstate,htp,hup,hrsp,htop,hutop⟩ := h.tasks
  have ht : s.kernel.tasks[0]? = some t := by rw [htasks]; rfl
  have hu : s.kernel.tasks[1]? = some u := by rw [htasks]; rfl
  obtain ⟨c,k₁,k',hstep,hfin,hsel⟩ := hrun.stable.exits P (.ofCall 1 0 0 0) h.current
    (hrun.frameOn h.current hu hup ((userFrameBottom_add _).trans hutop.symm)) rfl
  obtain ⟨t',ht',hwake,-,hrax⟩ :=
    hrun.stable.wakes ht hstate (hrun.stable.performs hstep) h.ends
  have hne : t'.state ≠ t.state := by
    rw [hstate]
    rcases hwake with hw | ⟨hw,-⟩ <;> rw [hw] <;> exact fun hc => by cases hc
  refine ⟨c,_,hstep,?_,?_,?_⟩
  · rw [← hrax,← htp]
    exact .later ht hstate ht' hne
  · have hlen : s.kernel.tasks.length = 2 := by rw [htasks]; rfl
    exact hfin.resumesFirst (hrun.stable.scheduled.trap _ _) h.current hlen
      (Syscall.exitTask_ends _ _) (fun _ => rfl) hsel ht' hwake
  · cases (hrun.stable.performs hstep).seats hrun.stable with
    | same hafter =>
      obtain ⟨t₀,ht₀,hsame⟩ := hafter.task ht'
      rw [ht] at ht₀
      cases ht₀
      exact ⟨t',ht',hsame.process.trans htp,
        hsame.top.trans htop⟩

theorem exists_familyCollected (hB : Roomy B.toBootMemory 2) (P : Platform) (program : UserProgram) :
    ∃ trace s e s', Run P B trace s ∧ Step P s e s' ∧
      WaitReturns s s' e.1 0 (some 1) 2 none (UInt64.ofNat 2) ∧ FamilyDone s' := by
  obtain ⟨trace,s,hrun,hblocked⟩ := exists_familyBlocked hB P program
  obtain ⟨c,s',hstep,hw,hdone⟩ := hblocked.exits hrun
  exact ⟨trace,s,_,s',hrun,hstep,hw,hdone⟩

theorem statuses_delivered_once_family : ∃ trace s e s', Run standardPlatform smallMachine trace s ∧
    Step standardPlatform s e s' ∧ WaitReturns s s' e.1 0 (some 1) 2 none (UInt64.ofNat 2) ∧
    DeliveryLaws standardPlatform smallMachine trace s e s' := by
  obtain ⟨trace,s,e,s',hrun,hstep,hw,-⟩ :=
    exists_familyCollected smallMachine_roomy standardPlatform .yieldThenExit
  exact ⟨trace,s,e,s',hrun,hstep,hw,statuses_delivered_once hrun hstep⟩

theorem collected_child_invalid_options : ∃ trace s e s' e₁ s₁, Run standardPlatform smallMachine trace s ∧
    Step standardPlatform s e s' ∧ WaitReturns s s' e.1 0 (some 1) 2 none (UInt64.ofNat 2) ∧
    Step standardPlatform s' e₁ s₁ ∧
    WaitReturns s' s₁ e₁.1 0 (some 1) 2 none SysError.invalid.rawReturn ∧
    SysError.invalid.rawReturn ≠ SysError.child.rawReturn := by
  obtain ⟨trace,s,e,s',hrun,hstep,hw,hdone⟩ :=
    exists_familyCollected smallMachine_roomy standardPlatform .yieldThenExit
  obtain ⟨t,ht,htp,htop⟩ := hdone.task
  have hcur := hdone.current
  have hrun' := hrun.after hstep
  have hst := hrun'.stable
  obtain ⟨v,hv,hvrun⟩ := hst.scheduled.task hcur
  rw [ht] at hv
  cases hv
  obtain ⟨Q,ha⟩ := acts hst.core ht (by rw [hvrun]; rfl) htp
  obtain ⟨c,k',hstep₁,hres⟩ := hst.waits standardPlatform (.ofCall 4 2 0 2) hcur ht htp ha.get
    (hrun'.frameOn hcur ht htp ((userFrameBottom_add _).trans htop.symm)) rfl rfl
  obtain ⟨p,exit,-,hcol⟩ := (hw.outcome hrun.stable (hrun.stable.performs hstep)).collects hrun.stable rfl
    (by decide)
  have hbad : ¬ ((2 : UInt64).toNat = 0 ∨ (2 : UInt64).toNat = WNOHANG) := by decide
  refine ⟨trace,s,e,s',_,_,hrun,hstep,hw,hstep₁,?_,by decide⟩
  cases hres with
  | refused hr =>
    cases hr with
    | options _ _ =>
      have hreturns : WaitReturns s' ⟨(s'.kernel.trap (Task.userFrameBottom HEAP_START)
          (.ofCall 4 2 0 2)).setRax (Task.userFrameBottom HEAP_START) SysError.invalid.rawReturn,s'.inits⟩
          (.syscall (Task.userFrameBottom HEAP_START) (.ofCall 4 2 0 2)) 0 t.processId 2 none _ :=
        .now hcur ht rfl rfl hcur
      rwa [setRax_frame,htp] at hreturns
    | notChild hopt _ => exact absurd hopt hbad
    | badPointer hopt _ _ _ => exact absurd hopt hbad
  | running _ _ _ _ hopt => exact absurd (Or.inr hopt) hbad
  | reaped _ hC _ _ _ =>
    have hnone := hcol.gone.symm.trans hC
    cases hnone
  | blocked _ _ _ _ hopt _ => exact absurd (Or.inl hopt) hbad

end

end VladOs
