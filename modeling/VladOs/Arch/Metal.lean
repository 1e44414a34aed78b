import VladOs.Arch.Context
import VladOs.Kernel.Records
import VladOs.Machine.Machine

namespace VladOs

open X86 Kernel Transition

def Entry.errorCode : Entry → Bool
  | .generalProtection | .pageFault => true
  | _ => false

def Entry.pushes (e : Entry) (errorCode : UInt64) : Option UInt64 :=
  if e.errorCode then some errorCode else none

def Entry.raises (e : Entry) (cr2 : VirtAddr) (frameRsp : ℕ) (frame : TrapFrame) (errorCode : UInt64) :
    Option Action :=
  match e with
  | .timer => some (.timer frameRsp frame)
  | .yield => some (.yield frameRsp frame)
  | .syscall => some (.syscall frameRsp frame)
  | .generalProtection =>
    if frame.cs &&& 3 = 3 then
      some (.fault frameRsp frame ⟨.generalProtection,none,errorCode⟩)
    else none
  | .pageFault =>
    if frame.cs &&& 3 = 3 then
      some (.fault frameRsp frame ⟨.pageFault,some cr2,errorCode⟩)
    else none

def Saved (s : System) (address : ℕ) : Prop :=
  ∃ (i : ℕ) (t : Task), s.kernel.tasks[i]? = some t ∧ t.state.terminal = false ∧
    s.kernel.current ≠ some i ∧ address = t.savedRsp

structure Metal (s : System) (x : State) : Prop where
  saved : ∀ {address}, Saved s address → TrapFrame.ofBytes x.memory address = s.kernel.frames address
  bounded : ∀ t ∈ s.kernel.tasks, t.kernelStack + TASK_STACK_SIZE < 2 ^ 64

inductive Handles (P : Platform) (cr2 : VirtAddr) (errorCode : UInt64) (s s' : System) (e : Entry)
    (x₁ x₂ : State) : Prop where
  | intro {frame : TrapFrame} {a : Action} {r : ℕ} :
      x₁.memory.Holds (x₁.regs .rdi).toNat (frame.pushed (e.pushes errorCode)) →
      e.raises cr2 (x₁.regs .rdi).toNat frame errorCode = some a →
      Step P s (a,.control (.resume r)) s' → (x₂.regs .rax).toNat = r →
      (∀ address, address = r ∨ Saved s' address →
        TrapFrame.ofBytes x₁.memory address =
          (s.kernel.trap (x₁.regs .rdi).toNat frame).frames address →
        TrapFrame.ofBytes x₂.memory address = s'.kernel.frames address) →
      Handles P cr2 errorCode s s' e x₁ x₂

section

variable {B : BootMemory} {P : Platform} {s s' : System} {a : Action} {i rsp r address : ℕ}
  {frame f g : TrapFrame} {m m' : Bytes} {e : Entry} {cr2 : VirtAddr} {errorCode : UInt64}

theorem pushed_unique {code : Option UInt64} (hf : m.Holds address (f.pushed code))
    (hg : m.Holds address (g.pushed code)) : f = g := by
  cases code with
  | none => exact (holds_words.mp hf).symm.trans (holds_words.mp hg)
  | some code =>
    simp only [TrapFrame.pushed,TrapFrame.wordsWithErrorCode,Bytes.Holds] at hf hg
    cases f
    cases g
    simp_all

theorem Entry.raises_frame (h : e.raises cr2 rsp frame errorCode = some a) :
    a.frame? = some (rsp,frame) := by
  cases e with
  | generalProtection =>
    unfold raises at h
    split_ifs at h
    cases h
    rfl
  | pageFault =>
    unfold raises at h
    split_ifs at h
    cases h
    rfl
  | _ =>
    cases h
    rfl

theorem Entry.raises_fault (he : e.errorCode = true) (h : e.raises cr2 rsp frame errorCode = some a) :
    ∃ info, a = .fault rsp frame info := by
  cases e with
  | generalProtection =>
    unfold raises at h
    split_ifs at h
    exact ⟨_,(Option.some.inj h).symm⟩
  | pageFault =>
    unfold raises at h
    split_ifs at h
    exact ⟨_,(Option.some.inj h).symm⟩
  | _ => cases he

theorem Step.frames_reached (h : Stable B s) (hstep : Step P s (a,.control (.resume r)) s')
    (ha : a.frame? = some (rsp,frame)) (hcur : s.kernel.current = some i)
    (haddress : address = r ∨ Saved s' address) :
    Saved s address ∨ address = rsp ∧
      ∃ t' : Task, s'.kernel.tasks[i]? = some t' ∧ t'.state.terminal = false := by
  have hp := h.performs hstep
  have hst' := hp.stable h
  have hafter := (hp.seats h).trap ha
  have hidle : ∀ {j : ℕ} {u : Task}, s'.kernel.tasks[j]? = some u → u.state.terminal = false →
      s.kernel.current ≠ some j → Saved s u.savedRsp := by
    intro j u hu hlive hj
    obtain ⟨t,ht,hsame⟩ := hafter.task hu
    exact ⟨j,t,ht,hsame.live hlive,hj,hsame.saved hj⟩
  rcases haddress with rfl | ⟨j,u,hu,hlive,hj',rfl⟩
  · have hhanded := hp.handed h
    generalize hk : s'.kernel = k' at hhanded
    generalize ho : Output.control (.resume address) = o at hhanded
    cases hhanded with
    | kept hsame _ hcontrol =>
      rw [ha] at hcontrol
      cases hcontrol ho.symm
      rw [← hk,hcur] at hsame
      obtain ⟨t',ht',hrun⟩ := hst'.scheduled.task hsame
      exact Or.inr ⟨rfl,t',hk ▸ ht',by rw [hrun]; rfl⟩
    | @switched j u _ hne hj _ hu =>
      subst hk
      cases ho
      have hrun := (hst'.current_iff hu).mp hj
      exact Or.inl (hidle hu (by rw [hrun]; rfl) hne)
    | main _ => cases ho
  · by_cases hj : s.kernel.current = some j
    · cases hcur.symm.trans hj
      obtain ⟨t,ht,hsame⟩ := hafter.task hu
      rcases hsame.left hcur with hs | hs | hs
      · exact absurd ((hst'.current_iff hu).mpr hs) hj'
      · cases hs.symm.trans hlive
      · exact Or.inr ⟨(Option.some.inj hs).symm,u,hu,hlive⟩
    · exact Or.inl (hidle hu hlive hj)

end

section

variable {B : Boot} {P : Platform} {trace : List Event} {s s' : System} {pid : ProcessId} {i : ℕ} {t : Task}
  {e : Entry} {cr2 : VirtAddr} {errorCode rsp0 : UInt64} {code : Option UInt64} {x x₁ x' : State}
  {address : ℕ}

theorem frameSize_bounds (code : Option UInt64) :
    TRAP_FRAME_SIZE ≤ frameSize code ∧ frameSize code ≤ TRAP_FRAME_WITH_ERROR_CODE_SIZE := by
  cases code with
  | none => exact ⟨le_refl _,by decide⟩
  | some code => exact ⟨show TRAP_FRAME_SIZE ≤ TRAP_FRAME_WITH_ERROR_CODE_SIZE by decide,le_refl _⟩

theorem stackTop_bounds (stack : ℕ) : stack + TRAP_FRAME_WITH_ERROR_CODE_SIZE ≤ Task.stackTop stack ∧
    Task.stackTop stack ≤ stack + TASK_STACK_SIZE ∧ Task.stackTop stack / 16 * 16 = Task.stackTop stack := by
  unfold TRAP_FRAME_WITH_ERROR_CODE_SIZE Task.stackTop alignDown TASK_STACK_SIZE
  omega

theorem interruptTop_user (huser : fromUser x = true) {stack : ℕ}
    (htss : rsp0.toNat = Task.stackTop stack) : (interruptTop rsp0 x).toNat = Task.stackTop stack := by
  rw [interruptTop,if_pos huser,and_neg_sixteen_toNat,htss]
  exact (stackTop_bounds stack).2.2

theorem Entry.pushes_none {a : Action} {o : Output} {frame : TrapFrame} {rsp : ℕ} {t' : Task}
    {B : BootMemory} (h : Stable B s) (hstep : Step P s (a,o) s')
    (hpid : s.kernel.currentPid = some pid) (hcur : s.kernel.current = some i)
    (hraises : e.raises cr2 rsp frame errorCode = some a) (ht' : s'.kernel.tasks[i]? = some t')
    (hlive : t'.state.terminal = false) : e.pushes errorCode = none := by
  refine if_neg fun he => ?_
  obtain ⟨info,rfl⟩ := Entry.raises_fault he hraises
  have hends : EndsProcess s (.fault rsp frame info) pid .faulted := .fault hpid
  obtain ⟨j,u,hj,-,-,hu',hended,-⟩ := hends.record (h.performs hstep)
  cases hcur.symm.trans hj
  cases ht'.symm.trans hu'
  cases hended.symm.trans hlive

theorem HandedOver.kept (hand : HandedOver rsp0 code x x₁) (h : Run P B trace s)
    (hcur : s.kernel.current = some i) (ht : s.kernel.tasks[i]? = some t)
    (htop : (interruptTop rsp0 x).toNat = Task.stackTop t.kernelStack) (hmetal : Metal s x)
    (hsaved : Saved s address) : address ≠ (x₁.regs .rdi).toNat ∧
      address + TRAP_FRAME_SIZE < 2 ^ 64 ∧
      TrapFrame.ofBytes x₁.memory address = s.kernel.frames address := by
  obtain ⟨j,u,hu,hlive,hj,haddress⟩ := id hsaved
  have hij : i ≠ j := by
    rintro rfl
    exact hj hcur
  obtain ⟨hlow,hhigh⟩ := h.stacks.saved hu hlive hj
  have hbound := hmetal.bounded u (List.mem_of_getElem? hu)
  have hapart := h.stacks.apart ht hu hij
  obtain ⟨hroom,hinside,-⟩ := stackTop_bounds t.kernelStack
  obtain ⟨hsmall,hlarge⟩ := frameSize_bounds code
  have hargument := hand.argument
  rw [htop] at hargument
  rw [← haddress] at hlow hhigh
  have hbelow : t.kernelStack ≤ (x₁.regs .rdi).toNat := by omega
  have houtside : ∀ y, address ≤ y → y < address + TRAP_FRAME_SIZE →
      y < (x₁.regs .rdi).toNat ∨ (interruptTop rsp0 x).toNat ≤ y := by
    intro y hy hy'
    rcases hapart with hbefore | hbehind
    · exact Or.inr (by omega)
    · exact Or.inl (by omega)
  refine ⟨?_,by omega,?_⟩
  · rcases hapart with hbefore | hbehind
    · have hpositive : 0 < TRAP_FRAME_SIZE := by decide
      omega
    · have hpositive : 0 < TRAP_FRAME_SIZE := by decide
      omega
  · rw [← hmetal.saved hsaved]
    exact ofBytes_congr fun y hy hy' => hand.outside y (houtside y hy hy')

theorem entry_realizes_step (gate : Gate) (h : Run P B trace s) (hmetal : Metal s x)
    (hpid : s.kernel.currentPid = some pid) (huser : fromUser x = true)
    (htss : rsp0.toNat = s.kernel.rsp0)
    (hexec : Exec asm (Handles P cr2 errorCode s s') (asm (.entry e))
      (deliver rsp0 gate (e.pushes errorCode) x) x') :
    ∃ frameRsp a r, e.raises cr2 frameRsp (TrapFrame.ofState x) errorCode = some a ∧
      Step P s (a,.control (.resume r)) s' ∧ Resumes s' (.resume r) (TrapFrame.ofState x') ∧
      Metal s' x' := by
  have hst := h.stable
  obtain ⟨i,t,hcur,ht,hp⟩ := currentPid_eq.mp hpid
  rw [(hst.scheduled.loaded hcur ht).2,h.stacks.top ht] at htss
  have htop := interruptTop_user huser htss
  obtain ⟨hroom,hinside,-⟩ := stackTop_bounds t.kernelStack
  obtain ⟨hsmall,hlarge⟩ := frameSize_bounds (e.pushes errorCode)
  have hbounded := hmetal.bounded t (List.mem_of_getElem? ht)
  have hand : HandedOver rsp0 (e.pushes errorCode) x (called (deliver rsp0 gate (e.pushes errorCode) x)) :=
    called_deliver gate (by omega)
  obtain ⟨x₂,hcall,hresumed⟩ := exec_entry.mp hexec
  generalize called (deliver rsp0 gate (e.pushes errorCode) x) = x₁ at hand hcall
  cases hcall with
  | @intro frame a r hholds hraises hstep hrax hupdates =>
    obtain rfl := pushed_unique hholds hand.frame
    have ha := Entry.raises_frame hraises
    have hargument := hand.argument
    have hreached : ∀ address, address = r ∨ Saved s' address →
        address + TRAP_FRAME_SIZE < 2 ^ 64 ∧
          TrapFrame.ofBytes x₂.memory address = s'.kernel.frames address := by
      intro address haddress
      rcases hstep.frames_reached hst ha hcur haddress with hsaved | ⟨rfl,t',ht',hlive⟩
      · obtain ⟨hne,hbound,hframe⟩ := hand.kept h hcur ht htop hmetal hsaved
        exact ⟨hbound,hupdates address haddress (hframe.trans (trap_of_ne hne).symm)⟩
      · have hnone := Entry.pushes_none hst hstep hpid hcur hraises ht' hlive
        rw [hnone] at hand
        refine ⟨by omega,hupdates _ haddress ?_⟩
        rw [trap_frame]
        exact holds_words.mp hand.frame
    obtain ⟨hbound,hframe⟩ := hreached r (Or.inl rfl)
    have hsp : (x₂.set .rsp (x₂.regs .rax)).sp = r := (congrArg UInt64.toNat (set_self ..)).trans hrax
    have hmemory : x'.memory = x₂.memory := by
      rw [hresumed]
      exact resumed_memory
    refine ⟨_,a,r,hraises,hstep,?_,?_,?_⟩
    · have hregisters := resumed_frame (s := x₂.set .rsp (x₂.regs .rax)) (by rwa [hsp])
      rw [hresumed,hregisters,hsp]
      exact hframe
    · intro address hsaved
      rw [hmemory]
      exact (hreached address (Or.inr hsaved)).2
    · intro u hu
      obtain ⟨j,hj⟩ := List.mem_iff_getElem?.mp hu
      obtain ⟨v,hv,hafter⟩ := (((hst.performs hstep).seats hst).trap ha).task hj
      rw [hafter.stack]
      exact hmetal.bounded v (List.mem_of_getElem? hv)

theorem exists_holding {address : ℕ} (hbound : address + TRAP_FRAME_SIZE < 2 ^ 64) (frame : TrapFrame) :
    ∃ memory, TrapFrame.ofBytes memory address = frame := by
  obtain ⟨base,htop⟩ : ∃ base : State, base.sp = address + TRAP_FRAME_SIZE :=
    ⟨markedState (UInt64.ofNat (address + TRAP_FRAME_SIZE)) 0 0 countingBytes,
      UInt64.toNat_ofNat_of_lt' hbound⟩
  have hsize : TRAP_FRAME_SIZE = 160 := rfl
  have hgrown : StackGrown base frame.words.reverse _ := pushAll_grown (by
    change 8 * 20 ≤ base.sp
    omega)
  have hsp := hgrown.sp
  change _ + 8 * 20 = base.sp at hsp
  have hholds := hgrown.holds
  rw [List.reverse_reverse,show State.sp _ = address by omega] at hholds
  exact ⟨_,holds_words.mp hholds⟩

theorem turned_frames (k : Kernel) (i rsp next : ℕ) (u : Task) (root : Frame) {frame : TrapFrame}
    (hrax : frame.rax = 0) :
    (((k.trap rsp frame).setRax rsp 0).turned i rsp next u root).frames = (k.trap rsp frame).frames := by
  funext address
  change (if address = rsp then _ else _) = _
  split
  · next haddress =>
    rw [haddress,trap_frame,← hrax]
  · rfl

structure FamilyMetal (s : System) (memory : Bytes) : Prop where
  metal : Metal s (markedState 0x7000 5 0x23 memory)
  parked : Saved s (Task.userFrameBottom (HEAP_START + TASK_STACK_SIZE))
  running : ∃ entry top,
    s.kernel.tasks[0]? = some (Task.setState .running (Task.newUser 0 1 entry top HEAP_START))
  waiting : ∃ entry top,
    s.kernel.tasks[1]? = some (Task.newUser 1 2 entry top (HEAP_START + TASK_STACK_SIZE))
  next : nextReadyAfter s.kernel.tasks 0 = some 1

theorem FamilyRunning.exists_metal (h : FamilyRunning s) : ∃ memory, FamilyMetal s memory := by
  obtain ⟨entry,top,entry',top',htasks⟩ := h.tasks
  have hu : s.kernel.tasks[1]? = some (Task.newUser 1 2 entry' top' (HEAP_START + TASK_STACK_SIZE)) := by
    rw [htasks]
    rfl
  obtain ⟨memory,hmemory⟩ := exists_holding
    (show Task.userFrameBottom (HEAP_START + TASK_STACK_SIZE) + TRAP_FRAME_SIZE < 2 ^ 64 by decide)
    (s.kernel.frames (Task.userFrameBottom (HEAP_START + TASK_STACK_SIZE)))
  refine ⟨memory,⟨?_,fun t hmem => ?_⟩,⟨1,_,hu,rfl,by rw [h.current]; decide,rfl⟩,⟨entry,top,?_⟩,
    ⟨entry',top',hu⟩,?_⟩
  · rintro address ⟨i,t,hi,-,hidle,rfl⟩
    rw [htasks] at hi
    match i with
    | 0 => exact absurd h.current hidle
    | 1 =>
      cases hi
      exact hmemory
  · rw [htasks] at hmem
    rcases List.mem_pair.mp hmem with rfl | rfl
    · exact (show HEAP_START + TASK_STACK_SIZE < 2 ^ 64 by decide)
    · exact (show HEAP_START + TASK_STACK_SIZE + TASK_STACK_SIZE < 2 ^ 64 by decide)
  · rw [htasks]
    rfl
  · rw [htasks]
    rfl

structure FamilySwitched (s s' : System) (rsp : ℕ) (frame : TrapFrame) : Prop where
  step : Step standardPlatform s
    (.syscall rsp frame,.control (.resume (Task.userFrameBottom (HEAP_START + TASK_STACK_SIZE)))) s'
  current : s'.kernel.current = some 1
  left : Saved s' rsp
  entered : ∃ t, s'.kernel.tasks[1]? = some t ∧
    t.savedRsp = Task.userFrameBottom (HEAP_START + TASK_STACK_SIZE)
  frames : s'.kernel.frames = (s.kernel.trap rsp frame).frames

theorem FamilyMetal.switches {memory : Bytes} {rsp : ℕ} {frame : TrapFrame} (h : FamilyMetal s memory)
    (hrun : Run standardPlatform B trace s) (hcur : s.kernel.current = some 0)
    (hrsp : rsp + TRAP_FRAME_SIZE = Task.stackTop HEAP_START) (hrax : frame.rax = 0) :
    ∃ s', FamilySwitched s s' rsp frame := by
  obtain ⟨entry,top,ht⟩ := h.running
  obtain ⟨entry',top',hu⟩ := h.waiting
  obtain ⟨root,hstep⟩ := hrun.stable.yields standardPlatform frame hcur (hrun.frameOn hcur ht rfl hrsp)
    (by rw [hrax]; rfl) h.next hu
  exact ⟨_,hstep,rfl,⟨0,_,turned_leaves ht (by decide),rfl,show some 1 ≠ some 0 by decide,rfl⟩,
    ⟨_,turned_enters hu (by decide),rfl⟩,turned_frames _ _ _ _ _ _ hrax⟩

theorem entry_realizes_step_family : ∃ trace s s' x x' cr2 address address',
    Run standardPlatform smallMachine trace s ∧ Metal s x ∧
    s.kernel.current = some 0 ∧ Saved s address ∧ s'.kernel.current = some 1 ∧ Saved s' address' ∧
    Exec asm (Handles standardPlatform cr2 0 s s') (asm (.entry .syscall))
      (deliver (UInt64.ofNat s.kernel.rsp0) ⟨0x1234,8⟩ none x) x' ∧
    TrapFrame.ofState x' = s.kernel.frames address ∧ Metal s' x' ∧
    TrapFrame.ofBytes x'.memory address' = TrapFrame.ofState x := by
  obtain ⟨trace,s,hrun,hfamily⟩ := exists_familyRunning smallMachine_roomy standardPlatform .yieldThenExit
  obtain ⟨memory,hpair⟩ := hfamily.exists_metal
  obtain ⟨entry,top,ht⟩ := hpair.running
  have hpid : s.kernel.currentPid = some 1 := currentPid_eq.mpr ⟨0,_,hfamily.current,ht,rfl⟩
  have hrsp0 : s.kernel.rsp0 = Task.stackTop HEAP_START :=
    (hrun.stable.scheduled.loaded hfamily.current ht).2
  have htss : (UInt64.ofNat s.kernel.rsp0).toNat = s.kernel.rsp0 := by
    rw [hrsp0]
    decide
  have huser : fromUser (markedState 0x7000 5 0x23 memory) = true :=
    show decide ((0x23 : UInt64) &&& 3 = 3) = true by decide
  have htop := interruptTop_user huser (htss.trans hrsp0)
  have hand : HandedOver (UInt64.ofNat s.kernel.rsp0) none (markedState 0x7000 5 0x23 memory)
      (called (deliver (UInt64.ofNat s.kernel.rsp0) ⟨0x1234,8⟩ none (markedState 0x7000 5 0x23 memory))) :=
    called_deliver ⟨0x1234,8⟩ (by rw [htop]; decide)
  have hargument := hand.argument
  rw [htop] at hargument
  generalize hx₁ : called (deliver (UInt64.ofNat s.kernel.rsp0) ⟨0x1234,8⟩ none
    (markedState 0x7000 5 0x23 memory)) = x₁ at hand hargument
  obtain ⟨s',hswitched⟩ := hpair.switches hrun hfamily.current hargument
    (show (TrapFrame.ofState (markedState 0x7000 5 0x23 memory)).rax = 0 from rfl)
  obtain ⟨cr2⟩ : Nonempty VirtAddr := ⟨⟨0,Or.inl (by norm_num)⟩⟩
  have hhandles : Handles standardPlatform cr2 0 s s' .syscall x₁
      (x₁.set .rax (UInt64.ofNat (Task.userFrameBottom (HEAP_START + TASK_STACK_SIZE)))) :=
    .intro hand.frame rfl hswitched.step
      ((congrArg UInt64.toNat (set_self ..)).trans (UInt64.toNat_ofNat_of_lt' (by decide)))
      (fun address _ hkept => by rwa [hswitched.frames])
  have hexec : Exec asm (Handles standardPlatform cr2 0 s s') (asm (.entry .syscall))
      (deliver (UInt64.ofNat s.kernel.rsp0) ⟨0x1234,8⟩ none (markedState 0x7000 5 0x23 memory)) _ :=
    exec_entry.mpr ⟨_,by rw [hx₁]; exact hhandles,rfl⟩
  obtain ⟨_,a,r,-,hstep,hresumes,hmetal⟩ :=
    entry_realizes_step ⟨0x1234,8⟩ hrun hpair.metal hpid huser htss hexec
  obtain ⟨u,hu,hsaved⟩ := hswitched.entered
  have hr := ((hrun.stable.performs hstep).handed hrun.stable).moves
    (by rw [hfamily.current]; decide) hswitched.current hu rfl
  have hapart : Task.userFrameBottom (HEAP_START + TASK_STACK_SIZE) ≠ (x₁.regs .rdi).toNat := by
    have hlt : Task.stackTop HEAP_START < Task.userFrameBottom (HEAP_START + TASK_STACK_SIZE) := by decide
    omega
  refine ⟨trace,s,s',_,_,cr2,_,_,hrun,hpair.metal,hfamily.current,hpair.parked,hswitched.current,
    hswitched.left,hexec,?_,hmetal,?_⟩
  · rw [hr,hsaved] at hresumes
    exact hresumes.trans ((congrFun hswitched.frames _).trans (trap_of_ne hapart))
  · exact (hmetal.saved hswitched.left).trans ((congrFun hswitched.frames _).trans (trap_frame ..))

end

end VladOs
