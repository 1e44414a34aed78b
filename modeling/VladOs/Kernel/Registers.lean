import VladOs.Kernel.Stacks

namespace VladOs

open Code ProcessTable Kernel Transition

def setRaxAt (frames : ℕ → TrapFrame) (rsp : ℕ) (value : UInt64) : ℕ → TrapFrame :=
  fun a => if a = rsp then { frames rsp with rax := value } else frames a

inductive FrameChange (s : System) (a : Action) (o : Output) (frames : ℕ → TrapFrame) :
    (ℕ → TrapFrame) → Prop where
  | none : FrameChange s a o frames frames
  | returned {rsp : ℕ} {frame : TrapFrame} (value : UInt64) : a = .syscall rsp frame →
      SyscallNumber.fromRaw frame.rax ≠ some .exit →
      o = .control (.resume rsp) ∨ SyscallNumber.fromRaw frame.rax = some .yield →
      FrameChange s a o frames (setRaxAt frames rsp value)
  | woken {i : ℕ} {t : Task} {child : ProcessId} {statusPtr : Option VirtAddr} {exit : ProcessExit} :
      s.kernel.tasks[i]? = some t → t.state = .blocked (.childExit child statusPtr) →
      EndsProcess s a child exit →
      FrameChange s a o frames (setRaxAt frames t.savedRsp (UInt64.ofNat child))

section

variable {B : BootMemory} {s s' : System} {a : Action} {o : Output} {k k' : Kernel} {rsp : ℕ}
  {frame : TrapFrame} {c : Control}

theorem Kernel.Switches.frames (h : Switches k rsp c k') : k'.frames = k.frames := by
  cases h <;> rfl

theorem Kernel.Finishes.frameChange {i : ℕ} {f : Task → Task} {exit : ProcessExit}
    (hcur : s.kernel.current = some i)
    (hend : ∀ {pid}, s.kernel.currentPid = some pid → EndsProcess s a pid exit)
    (h : Finishes B (s.kernel.trap rsp frame) i f exit k') :
    FrameChange s a o (s.kernel.trap rsp frame).frames k'.frames := by
  cases h with
  | kernel _ _ => exact .none
  | user ht hp _ hx =>
    cases hx with
    | alone _ => exact .none
    | woken hu _ hstate _ _ _ _ => exact .woken hu hstate (hend (currentPid_eq.mpr ⟨i,_,hcur,ht,hp⟩))

theorem Kernel.WaitResult.frameChange {i options : ℕ} {pid child : ProcessId} {P : Process}
    {statusPtr : Option VirtAddr} (hraw : SyscallNumber.fromRaw frame.rax = some .waitPid)
    (h : WaitResult B k i rsp pid P child statusPtr options c k') :
    FrameChange s (.syscall rsp frame) (.control c) k.frames k'.frames := by
  have hexit : SyscallNumber.fromRaw frame.rax ≠ some .exit := by
    rw [hraw]
    decide
  cases h with
  | refused _ => exact .returned _ rfl hexit (Or.inl rfl)
  | running _ _ _ _ _ => exact .returned _ rfl hexit (Or.inl rfl)
  | reaped _ _ _ _ _ => exact .returned _ rfl hexit (Or.inl rfl)
  | blocked _ _ _ _ _ hsel =>
    rw [hsel.frames]
    exact .none

theorem Performs.frameChange (hp : Performs B s a o s') (ha : a.frame? = some (rsp,frame)) :
    FrameChange s a o (s.kernel.trap rsp frame).frames s'.kernel.frames := by
  cases hp with
  | timerIgnored =>
    cases ha
    exact .none
  | timer hsw =>
    cases ha
    rw [hsw.frames]
    exact .none
  | yielded hsw =>
    cases ha
    rw [hsw.frames]
    exact .none
  | userCall hcaller hd =>
    cases ha
    cases hd with
    | @returned _ _ k' hreq he =>
      have hrest : k'.frames = (s.kernel.trap rsp frame).frames := by rw [he.rest]
      have hexit : SyscallNumber.fromRaw frame.rax ≠ some .exit := by
        intro hraw
        simp [Syscall.request,hraw] at hreq
      change FrameChange s _ _ _ (setRaxAt k'.frames rsp _)
      rw [hrest]
      exact .returned _ rfl hexit (Or.inl rfl)
    | unknown hnone => exact .returned _ rfl (by rw [hnone]; simp) (Or.inl rfl)
    | yielded hraw hsw =>
      rw [hsw.frames]
      exact .returned 0 rfl (by rw [hraw]; decide) (Or.inr hraw)
    | exited hraw hfin hsel =>
      rw [hsel.frames]
      exact hfin.frameChange hcaller.current fun hpid => .exit hpid hraw
    | waited hraw _ hw => exact hw.frameChange hraw
  | kernelCall hcur _ _ hd =>
    cases ha
    cases hd with
    | returned _ _ hexit _ => exact .returned _ rfl hexit (Or.inl rfl)
    | yielded hraw hsw =>
      rw [hsw.frames]
      exact .returned 0 rfl (by rw [hraw]; decide) (Or.inr hraw)
    | exited hraw hfin hsel =>
      rw [hsel.frames]
      exact hfin.frameChange hcur fun hpid => .exit hpid hraw
  | faulted hcur hfin hsel =>
    cases ha
    rw [hsel.frames]
    exact hfin.frameChange hcur fun hpid => .fault hpid
  | _ => cases ha

end

def TrapStep (P : Platform) (s : System) (e : Event) (s' : System) : Prop :=
  Step P s e s' ∧ e.1.frame?.isSome

def NoCall (a : Action) : Prop := ∀ rsp frame, a ≠ .syscall rsp frame

structure KeepsRegisters (a : Action) (frame frame' : TrapFrame) : Prop where
  rest : ∃ value, frame' = { frame with rax := value }
  rax : NoCall a → frame' = frame

structure Parked (a : Action) (rsp : ℕ) (frame : TrapFrame) (s : System) (t : Task) : Prop where
  saved : t.savedRsp = rsp
  registers : KeepsRegisters a frame (s.kernel.frames rsp)
  ready : NoCall a → ∀ reason, t.state ≠ .blocked reason

section

variable {B : BootMemory} {s s' : System} {a b : Action} {o : Output} {i rsp r : ℕ} {t t' : Task}
  {frame f : TrapFrame} {frames frames' : ℕ → TrapFrame}

theorem setRaxAt_of_ne {x : ℕ} {value : UInt64} (h : x ≠ rsp) : setRaxAt frames rsp value x = frames x :=
  if_neg h

theorem setRaxAt_self {value : UInt64} :
    setRaxAt frames rsp value rsp = { frames rsp with rax := value } := if_pos rfl

theorem trap_of_ne {k : Kernel} {x : ℕ} (h : x ≠ rsp) : (k.trap rsp frame).frames x = k.frames x :=
  if_neg h

theorem Apart.ne {x y size : ℕ} (h : Apart x y size) (hsize : 0 < size) : x ≠ y := by
  rintro rfl
  rcases h with h | h <;> omega

theorem KeepsRegisters.refl : KeepsRegisters a frame frame := ⟨⟨frame.rax,rfl⟩,fun _ => rfl⟩

theorem KeepsRegisters.setRax {g : TrapFrame} {value : UInt64} (h : KeepsRegisters a frame g)
    (hcall : ¬ NoCall a) : KeepsRegisters a frame { g with rax := value } := by
  obtain ⟨v,rfl⟩ := h.rest
  exact ⟨⟨value,rfl⟩,fun hc => absurd hc hcall⟩

theorem Seats.trap (h : Seats s a o s') (ha : a.frame? = some (rsp,frame)) :
    TasksAfter s.kernel (some rsp) s'.kernel.tasks := by
  cases h with
  | same hafter =>
    rw [ha] at hafter
    exact hafter
  | kernel _ _ => cases ha
  | user _ _ => cases ha

theorem Kernel.TasksAfter.next {k : Kernel} {x : Option ℕ} {tasks : List Task} (h : TasksAfter k x tasks)
    (ht : k.tasks[i]? = some t) : ∃ t', tasks[i]? = some t' ∧ TaskAfter k x i t t' := by
  have hlt : i < tasks.length := h.length ▸ (List.getElem?_eq_some_iff.mp ht).1
  obtain ⟨u,hu,hafter⟩ := h.task (List.getElem?_eq_getElem hlt)
  cases ht.symm.trans hu
  exact ⟨_,List.getElem?_eq_getElem hlt,hafter⟩

theorem Performs.interrupted (h : Stable B s) (hp : Performs B s a o s') (hcall : NoCall a)
    (ha : a.frame? = some (rsp,frame)) (hcur : s.kernel.current = some i)
    (ht' : s'.kernel.tasks[i]? = some t') (reason : WaitReason) : t'.state ≠ .blocked reason := by
  intro hblocked
  obtain ⟨t,ht,hrun⟩ := h.scheduled.task hcur
  have hview : t'.view = t.view → False := by
    intro hv
    have hphase := congrArg TaskView.phase hv
    cases reason
    simp [Task.view,hrun,hblocked,TaskState.phase] at hphase
  have hcore : s'.kernel.core s.inits = s.kernel.core s.inits → False := by
    intro hc
    have hviews : s'.kernel.views = s.kernel.views := congrArg Core.tasks hc
    have hi := congrArg (fun l => l[i]?) hviews
    simp only [views_getElem?,ht,ht',Option.map_some,Option.some.injEq] at hi
    exact hview hi
  cases hp with
  | timerIgnored => exact hcore rfl
  | @timer rsp frame c k' hsw =>
    have hsame : k'.core s.inits = (s.kernel.trap rsp frame).core s.inits :=
      hsw.core (h.scheduled.trap rsp frame)
    exact hcore hsame
  | @yielded rsp frame c k' hsw =>
    have hsame : k'.core s.inits = (s.kernel.trap rsp frame).core s.inits :=
      hsw.core (h.scheduled.trap rsp frame)
    exact hcore hsame
  | userCall _ _ => exact hcall _ _ rfl
  | kernelCall _ _ _ _ => exact hcall _ _ rfl
  | @faulted _ _ info j k₁ c k' hj hfin hsel =>
    cases hcur.symm.trans hj
    have hafter : TasksAfter (s.kernel.trap _ _) none k'.tasks := (hfin.tasksAfter
      (h.scheduled.trap _ _) hcur (faultTask_ends _ info) fun _ => rfl).selected hsel
    obtain ⟨u,-,hleft⟩ := hafter.task ht'
    rcases hleft.left hcur with hs | hs | hs
    · rw [hblocked] at hs
      cases hs
    · rw [hblocked] at hs
      cases hs
    · cases hs
  | _ => cases ha

theorem Stable.blocked_idle {reason : WaitReason} (h : Stable B s) (ht : s.kernel.tasks[i]? = some t)
    (hs : t.state = .blocked reason) : s.kernel.current ≠ some i := by
  intro hc
  have hrun := (h.current_iff ht).mp hc
  rw [hs] at hrun
  cases hrun

theorem FrameChange.other {x : ℕ} (h : FrameChange s a o frames frames')
    (hx : ∀ {g}, a = .syscall rsp g → x ≠ rsp) (ha : a.frame? = some (rsp,frame)) :
    frames' x = frames x ∨ ∃ (j : ℕ) (u : Task) (child : ProcessId) (ptr : Option VirtAddr),
      s.kernel.tasks[j]? = some u ∧ u.state = .blocked (.childExit child ptr) ∧ x = u.savedRsp ∧
      frames' x = { frames x with rax := UInt64.ofNat child } := by
  cases h with
  | none => exact Or.inl rfl
  | returned value hsys _ _ =>
    subst hsys
    cases ha
    exact Or.inl (setRaxAt_of_ne (hx rfl))
  | @woken j u child ptr exit hu hstate _ =>
    by_cases hxu : x = u.savedRsp
    · subst hxu
      exact Or.inr ⟨j,u,child,ptr,hu,hstate,rfl,setRaxAt_self⟩
    · exact Or.inl (setRaxAt_of_ne hxu)

theorem parks (h : Stable B s) (hstacks : Stacks s) (hen : Enabled s a) (hp : Performs B s a o s')
    (ha : a.frame? = some (rsp,frame)) : KeepsRegisters a frame (s'.kernel.frames rsp) := by
  have hself : (s.kernel.trap rsp frame).frames rsp = frame := trap_frame _ _ _
  have hchange := hp.frameChange ha
  generalize hf : s'.kernel.frames = frames' at hchange
  cases hchange with
  | none =>
    rw [hself]
    exact .refl
  | @returned r g value hsys _ _ =>
    subst hsys
    cases ha
    rw [setRaxAt_self,hself]
    exact KeepsRegisters.refl.setRax fun hc => hc _ _ rfl
  | @woken j u child ptr exit hu hstate _ =>
    have hlive : u.state.terminal = false := by rw [hstate]; rfl
    have hj := h.blocked_idle hu hstate
    have hne := (hstacks.push_apart h hen ha hu hlive hj).ne (by decide)
    rw [setRaxAt_of_ne hne,hself]
    exact .refl

theorem Parked.next {g : TrapFrame} (h : Stable B s) (hstacks : Stacks s) (hen : Enabled s b)
    (hp : Performs B s b o s') (hb : b.frame? = some (r,g)) (hcur : s.kernel.current ≠ some i)
    (ht : s.kernel.tasks[i]? = some t) (hlive : t.state.terminal = false)
    (hafter : TaskAfter s.kernel (some r) i t t') (hpark : Parked a rsp frame s t) :
    Parked a rsp frame s' t' := by
  obtain ⟨rfl,hregs,hready⟩ := hpark
  have hne : t.savedRsp ≠ r := ((hstacks.push_apart h hen hb ht hlive hcur).ne (by decide)).symm
  have hkept : (s.kernel.trap r g).frames t.savedRsp = s.kernel.frames t.savedRsp := trap_of_ne hne
  refine ⟨hafter.saved hcur,?_,fun hcall reason hs => hready hcall reason (hafter.waits hcur reason hs)⟩
  rcases (hp.frameChange hb).other (fun _ => hne) hb with hsame | ⟨j,u,child,ptr,hu,hstate,hrsp,hrax⟩
  · rw [hsame,hkept]
    exact hregs
  · rw [hrax,hkept]
    refine hregs.setRax fun hcall => ?_
    have hlive' : u.state.terminal = false := by rw [hstate]; rfl
    have hj := h.blocked_idle hu hstate
    by_cases hij : i = j
    · subst hij
      cases ht.symm.trans hu
      exact hready hcall _ hstate
    · exact (hstacks.saved_apart ht hu hij hlive hlive' hcur hj).ne (by decide) hrsp

structure Resumable (B : BootMemory) (a : Action) (rsp : ℕ) (frame : TrapFrame) (i : ℕ)
    (s : System) : Prop where
  stable : Stable B s
  layout : Stacks s
  task : ∃ t, s.kernel.tasks[i]? = some t ∧ (t.state.terminal = true ∨ Parked a rsp frame s t)

theorem Resumable.start (h : Stable B s) (hstacks : Stacks s) (hen : Enabled s a)
    (hp : Performs B s a o s') (ha : a.frame? = some (rsp,frame)) (hcur : s.kernel.current = some i)
    (hleft : s'.kernel.current ≠ some i) : Resumable B a rsp frame i s' := by
  have hst' := hp.stable h
  obtain ⟨t,ht,-⟩ := h.scheduled.task hcur
  obtain ⟨t',ht',hafter⟩ := ((hp.seats h).trap ha).next ht
  refine ⟨hst',hstacks.next h hen hp,t',ht',?_⟩
  rcases hafter.left hcur with hs | hs | hs
  · exact absurd ((hst'.current_iff ht').mpr hs) hleft
  · exact Or.inl hs
  · exact Or.inr ⟨(Option.some.inj hs).symm,parks h hstacks hen hp ha,
      fun hcall => hp.interrupted h hcall ha hcur ht'⟩

theorem Resumable.next {g : TrapFrame} (h : Resumable B a rsp frame i s) (hen : Enabled s b)
    (hp : Performs B s b o s') (hb : b.frame? = some (r,g)) (hcur : s.kernel.current ≠ some i) :
    Resumable B a rsp frame i s' := by
  obtain ⟨t,ht,hpark⟩ := h.task
  obtain ⟨t',ht',hafter⟩ := ((hp.seats h.stable).trap hb).next ht
  refine ⟨hp.stable h.stable,h.layout.next h.stable hen hp,t',ht',?_⟩
  cases hterm : t.state.terminal with
  | true => exact Or.inl (hafter.ended hterm)
  | false =>
    rw [hterm] at hpark
    exact Or.inr ((hpark.resolve_left Bool.false_ne_true).next h.stable h.layout hen hp hb hcur ht hterm
      hafter)

theorem Resumable.resumed (h : Resumable B a rsp frame i s') (hcur : s.kernel.current ≠ some i)
    (hcur' : s'.kernel.current = some i)
    (hhanded : Handed s.kernel (b.frame?.map Prod.fst) (.control (.resume r)) s'.kernel) :
    r = rsp ∧ KeepsRegisters a frame (s'.kernel.frames r) := by
  obtain ⟨t,ht,hpark⟩ := h.task
  have hrun := (h.stable.current_iff ht).mp hcur'
  have hlive : t.state.terminal ≠ true := by rw [hrun]; decide
  have hparked := hpark.resolve_left hlive
  generalize hk : s'.kernel = k' at hhanded
  generalize ho : Output.control (.resume r) = o at hhanded
  cases hhanded with
  | kept hsame _ _ =>
    rw [← hk] at hsame
    exact absurd (hsame.symm.trans hcur') hcur
  | @switched j u _ _ hj _ hu =>
    subst hk
    cases hcur'.symm.trans hj
    cases ht.symm.trans hu
    cases ho
    rw [hparked.saved]
    exact ⟨rfl,hparked.registers⟩
  | main _ => cases ho

end

structure RegisterLaws (P : Platform) (s : System) (e : Event) (s' : System) (rsp : ℕ)
    (frame : TrapFrame) : Prop where
  change : FrameChange s e.1 e.2 (s.kernel.trap rsp frame).frames s'.kernel.frames
  alone : ∀ {i j : ℕ} {t u : Task} {child : ProcessId} {ptr ptr'}, s.kernel.tasks[i]? = some t →
    s.kernel.tasks[j]? = some u → t.state = .blocked (.childExit child ptr) →
    u.state = .blocked (.childExit child ptr') → i = j
  apart : ∀ {j : ℕ} {u : Task}, s.kernel.tasks[j]? = some u → u.state.terminal = false →
    s.kernel.current ≠ some j → Apart rsp u.savedRsp TRAP_FRAME_SIZE
  back : ∀ {i r}, s.kernel.current = some i → s'.kernel.current = some i →
    e.2 = .control (.resume r) → r = rsp ∧ KeepsRegisters e.1 frame (s'.kernel.frames r)
  later : ∀ {i r later s₁ e₁ s₂}, s.kernel.current = some i → s'.kernel.current ≠ some i →
    Runs (· = s') (fun s e s' => TrapStep P s e s' ∧ s.kernel.current ≠ some i) later s₁ →
    s₁.kernel.current ≠ some i → TrapStep P s₁ e₁ s₂ → s₂.kernel.current = some i →
    e₁.2 = .control (.resume r) → r = rsp ∧ KeepsRegisters e.1 frame (s₂.kernel.frames r)

section

variable {B : Boot} {P : Platform} {trace : List Event} {s s' : System} {rsp : ℕ} {frame : TrapFrame}

theorem registers_restored {e : Event} (h : Run P B trace s) (hstep : Step P s e s')
    (ha : e.1.frame? = some (rsp,frame)) : RegisterLaws P s e s' rsp frame := by
  obtain ⟨a,o⟩ := e
  have hst := h.stable
  have hstacks := h.stacks
  have hp := hst.performs hstep
  refine ⟨hp.frameChange ha,?_,?_,?_,?_⟩
  · intro i j t u child ptr ptr' ht hu hs hs'
    exact hst.waiter_unique ht hs hu hs'
  · exact fun hu hlive hj => hstacks.push_apart hst hstep.1 ha hu hlive hj
  · intro i r hcur hcur' ho
    have hr := (hp.handed hst).stays hcur hcur' ho
    rw [ha] at hr
    cases hr
    exact ⟨rfl,parks hst hstacks hstep.1 hp ha⟩
  · intro i r later s₁ e₁ s₂ hcur hleft hlater hcur₁ htrap hcur₂ ho
    have hres : Resumable B.toBootMemory a rsp frame i s₁ := by
      refine hlater.invariant (I := Resumable B.toBootMemory a rsp frame i) ?_ ?_
      · rintro _ rfl
        exact .start hst hstacks hstep.1 hp ha hcur hleft
      · rintro s₁ ⟨b,o₁⟩ s₂ hs₁ ⟨⟨hstep₁,hframe⟩,hne⟩
        obtain ⟨⟨r,g⟩,hb⟩ := Option.isSome_iff_exists.mp hframe
        exact hs₁.next hstep₁.1 (hs₁.stable.performs hstep₁) hb hne
    obtain ⟨b,o₁⟩ := e₁
    obtain ⟨hstep₁,hframe⟩ := htrap
    obtain ⟨⟨r₁,g⟩,hb⟩ := Option.isSome_iff_exists.mp hframe
    have hp₁ := hres.stable.performs hstep₁
    cases ho
    exact (hres.next hstep₁.1 hp₁ hb hcur₁).resumed hcur₁ hcur₂ (hp₁.handed hres.stable)

theorem registers_restored_family : ∃ trace s e s', Run standardPlatform smallMachine trace s ∧
    Step standardPlatform s e s' ∧ s.kernel.current = some 0 ∧ s'.kernel.current = some 1 ∧
    RegisterLaws standardPlatform s e s' (Task.userFrameBottom HEAP_START) (.ofCall 4 2 0 0) := by
  obtain ⟨trace,s,hrun,hfamily⟩ :=
    exists_familyRunning smallMachine_roomy standardPlatform .yieldThenExit
  obtain ⟨c,s',hstep,hblocked⟩ := hfamily.blocks hrun
  exact ⟨trace,s,_,s',hrun,hstep,hfamily.current,hblocked.current,registers_restored hrun hstep rfl⟩

end

end VladOs
