import VladOs.Kernel.Registers
import VladOs.Kernel.RoundRobin
import VladOs.Kernel.WaitOrder

namespace VladOs

open Code Kernel Transition

def GivesWay (k : Kernel) : Action → Prop
  | .timer _ _ => k.preemptionEnabled = true
  | .yield _ _ => True
  | .syscall _ frame => SyscallNumber.fromRaw frame.rax = some .yield
  | _ => False

inductive Requeues (s : System) (a : Action) (j : ℕ) : Prop where
  | switched {next : ℕ} : GivesWay s.kernel a → s.kernel.current = some j →
      nextReadyAfter s.kernel.tasks j = some next → Requeues s a j
  | woken {t : Task} {child : ProcessId} {statusPtr : Option VirtAddr} {exit : ProcessExit} :
      s.kernel.tasks[j]? = some t → t.state = .blocked (.childExit child statusPtr) →
      EndsProcess s a child exit → Requeues s a j

section

variable {B : BootMemory} {P : Platform} {s s' : System} {a : Action} {o : Output} {k k' : Kernel}
  {i j rsp start : ℕ} {c : Control} {frame : TrapFrame}

theorem Kernel.Selects.readied (h : Selects k start c k') (hj : k'.StateAt j .ready) :
    k.StateAt j .ready := by
  cases h with
  | resume _ ht _ _ =>
    rcases (StateAt.modify (f := Task.setState .running) ht j).mp hj with ⟨-,hc⟩ | ⟨-,hj⟩
    · cases hc
    · exact hj
  | main _ => exact hj

theorem Kernel.StateAt.not_ready (h : k.StateAt j .running) : ¬ k.StateAt j .ready := by
  intro hj
  cases h.symm.trans hj

theorem Kernel.Scheduled.resaved (h : k.Scheduled) (hi : k.current = some i) (rsp : ℕ) :
    (k.modifyTask i (Task.setSavedRsp rsp)).StateAt i .running := by
  obtain ⟨t,ht,hrun⟩ := h.task hi
  exact (StateAt.modify ht i).mpr (Or.inl ⟨rfl,hrun⟩)

theorem Kernel.Switches.next (hs : k.Scheduled) (h : Switches k rsp c k') (hi : k.current = some i)
    (hready : k'.StateAt i .ready) : ∃ next, nextReadyAfter k.tasks i = some next := by
  cases h with
  | idle hnone => cases hi.symm.trans hnone
  | stay hi' _ =>
    cases hi.symm.trans hi'
    exact absurd hready (hs.resaved hi rsp).not_ready
  | switch hi' hnext _ _ _ _ =>
    cases hi.symm.trans hi'
    exact ⟨_,hnext⟩

theorem Kernel.Finishes.not_ready {f : Task → Task} {exit : ProcessExit} {k₁ : Kernel} (hs : k.Scheduled)
    (hi : k.current = some i) (hf : Ends f) (hseat : ∀ t, (f t).seat = t.seat)
    (h : Finishes B k i f exit k₁) (hsel : Selects k₁ i c k') : ¬ k'.StateAt i .ready := by
  intro hready
  obtain ⟨t,ht,hstate⟩ := Option.map_eq_some_iff.mp (hsel.readied hready)
  exact (h.tasksAfter hs hi hf hseat).not_ready hi ht hstate

theorem Kernel.WaitResult.not_ready {pid child : ProcessId} {Q : Process} {statusPtr : Option VirtAddr}
    {options : ℕ} (hs : k.Scheduled) (hi : k.current = some i)
    (h : WaitResult B k i rsp pid Q child statusPtr options c k') : ¬ k'.StateAt i .ready := by
  cases h with
  | refused _ => exact ((hs.current i).mp hi).not_ready
  | running _ _ _ _ _ => exact ((hs.current i).mp hi).not_ready
  | reaped _ _ _ _ _ => exact (hs.resaved hi rsp).not_ready
  | blocked _ _ _ _ _ hsel =>
    intro hready
    obtain ⟨t,ht,-⟩ := hs.task hi
    have hblocked := hsel.readied hready
    rcases (StateAt.modify (modifyTask_self ht (Task.setSavedRsp rsp)) i).mp hblocked with
      ⟨-,hc⟩ | ⟨hc,-⟩
    · cases hc
    · exact hc rfl

theorem UserDispatch.readied {inits : List UserTaskInit} {pid : ProcessId} {Q : Process} (hs : k.Scheduled)
    (hi : k.current = some i) (h : Syscall.UserDispatch B inits k i pid Q rsp frame c k')
    (hready : k'.StateAt i .ready) :
    SyscallNumber.fromRaw frame.rax = some .yield ∧ ∃ next, nextReadyAfter k.tasks i = some next := by
  have hrun := ((hs.current i).mp hi).not_ready
  cases h with
  | @returned _ _ k₁ _ he =>
    have htasks : k₁.tasks = k.tasks := by rw [he.rest]
    refine absurd ?_ hrun
    rw [StateAt,← htasks]
    exact hready
  | unknown _ => exact absurd hready hrun
  | yielded hraw hsw =>
    obtain ⟨next,hnext⟩ := hsw.next (scheduled_setRax hs rsp 0) hi hready
    exact ⟨hraw,next,hnext⟩
  | exited _ hfin hsel =>
    exact absurd hready (hfin.not_ready hs hi (Syscall.exitTask_ends rsp frame) (fun _ => rfl) hsel)
  | waited _ _ hw => exact absurd hready (hw.not_ready hs hi)

theorem KernelDispatch.readied (hs : k.Scheduled) (hi : k.current = some i)
    (h : Syscall.KernelDispatch B k i rsp frame c k') (hready : k'.StateAt i .ready) :
    SyscallNumber.fromRaw frame.rax = some .yield ∧ ∃ next, nextReadyAfter k.tasks i = some next := by
  cases h with
  | returned _ _ _ _ => exact absurd hready ((hs.current i).mp hi).not_ready
  | yielded hraw hsw =>
    obtain ⟨next,hnext⟩ := hsw.next (scheduled_setRax hs rsp 0) hi hready
    exact ⟨hraw,next,hnext⟩
  | exited _ hfin hsel =>
    exact absurd hready (hfin.not_ready hs hi (Syscall.exitTask_ends rsp frame) (fun _ => rfl) hsel)

theorem Step.timer_ignored (h : Step P s (.timer rsp frame,o) s')
    (hoff : s.kernel.preemptionEnabled ≠ true) : s'.kernel.tasks = s.kernel.tasks := by
  have hspec : Spec (System.perform P (.timer rsp frame)) s (fun _ s' => s'.kernel.tasks = s.kernel.tasks)
      fun _ _ => False := by
    rw [System.perform,spec_bind,spec_onKernel,System.push,spec_modify,spec_bind,spec_onKernel,
      onTimerInterrupt,spec_bind,spec_read,if_neg fun hon => hoff hon.1,spec_pure,spec_pure]
    rfl
  exact hspec.ok h.2

theorem Step.requeues_current (h : Stable B s) (hstep : Step P s (a,o) s') (hj : s.kernel.current = some j)
    (hready : s'.kernel.StateAt j .ready) : Requeues s a j := by
  have hrun := (h.scheduled.current j).mp hj
  have hkept : s'.kernel.tasks[j]? ≠ s.kernel.tasks[j]? := by
    intro hsame
    refine hrun.not_ready ?_
    rw [StateAt,← hsame]
    exact hready
  have happended : ∀ new, s'.kernel.tasks ≠ s.kernel.tasks ++ [new] := by
    intro new htasks
    obtain ⟨t,ht,-⟩ := h.scheduled.task hj
    rw [htasks] at hkept
    exact hkept (List.getElem?_append_left (List.getElem?_eq_some_iff.mp ht).1)
  have hs : ∀ {rsp frame}, (s.kernel.trap rsp frame).Scheduled := h.scheduled.trap _ _
  cases h.performs hstep with
  | spawned hspawn =>
    cases hspawn with
    | intro _ => exact absurd rfl (happended _)
  | processSpawned _ hspawn =>
    cases hspawn with
    | intro _ _ _ => exact absurd rfl (happended _)
  | processRefused hfail =>
    obtain rfl := hfail.same
    exact absurd rfl hkept
  | started hidle _ => cases hj.symm.trans hidle
  | timer hsw =>
    by_cases hon : s.kernel.preemptionEnabled = true
    · obtain ⟨next,hnext⟩ := hsw.next hs hj hready
      exact .switched hon hj hnext
    · exact absurd (by rw [hstep.timer_ignored hon]) hkept
  | yielded hsw =>
    obtain ⟨next,hnext⟩ := hsw.next hs hj hready
    exact .switched trivial hj hnext
  | userCall hcaller hd =>
    cases hj.symm.trans hcaller.current
    obtain ⟨hraw,next,hnext⟩ := UserDispatch.readied hs hj hd hready
    exact .switched hraw hj hnext
  | kernelCall hcur _ _ hd =>
    cases hj.symm.trans hcur
    obtain ⟨hraw,next,hnext⟩ := KernelDispatch.readied hs hj hd hready
    exact .switched hraw hj hnext
  | faulted hcur hfin hsel =>
    cases hj.symm.trans hcur
    exact absurd hready (hfin.not_ready hs hj (faultTask_ends _ _) (fun _ => rfl) hsel)
  | kernelReturned hcur ht hp hsel =>
    cases hj.symm.trans hcur
    have hfin : Finishes B s.kernel j (Task.setState .finished) .faulted _ := .kernel ht hp
    exact absurd hready (hfin.not_ready h.scheduled hj setState_ends (fun _ => rfl) hsel)
  | _ => exact absurd rfl hkept

theorem Seats.blocked {t' : Task} {reason : WaitReason} (h : Seats s a o s')
    (ht' : s'.kernel.tasks[j]? = some t') (hstate : t'.state = .blocked reason) :
    s.kernel.current = some j ∨ ∃ t, s.kernel.tasks[j]? = some t ∧ t.state = .blocked reason := by
  by_cases hj : s.kernel.current = some j
  · exact Or.inl hj
  · rcases h.grows with hafter | ⟨new,htasks,hnew,-⟩
    · obtain ⟨t,ht,hsame⟩ := hafter.task ht'
      exact Or.inr ⟨t,ht,hsame.waits hj reason hstate⟩
    · rw [htasks] at ht'
      rcases TaskTable.getElem?_snoc ht' with ⟨ht,-⟩ | ⟨-,rfl⟩
      · exact Or.inr ⟨t',ht,hstate⟩
      · cases hnew.symm.trans hstate

theorem Step.readied (h : Stable B s) (hstep : Step P s (a,o) s') (hready : s'.kernel.StateAt j .ready) :
    s.kernel.StateAt j .ready ∨ s.kernel.tasks.length ≤ j ∨ Requeues s a j := by
  by_cases hj : s.kernel.current = some j
  · exact Or.inr (Or.inr (hstep.requeues_current h hj hready))
  obtain ⟨t',ht',hstate'⟩ := Option.map_eq_some_iff.mp hready
  have hp := h.performs hstep
  rcases (hp.seats h).grows with hafter | ⟨new,htasks,-⟩
  · obtain ⟨t,ht,hsame⟩ := hafter.task ht'
    have hat : s.kernel.StateAt j t.state := congrArg (Option.map Task.state) ht
    have hlive := hsame.live (by rw [hstate']; rfl)
    cases hs : t.state with
    | ready => exact Or.inl (hs ▸ hat)
    | running => exact absurd ((h.scheduled.current j).mpr (hs ▸ hat)) hj
    | blocked reason =>
      obtain ⟨child,statusPtr⟩ := reason
      by_cases hend : a.ends s = some child
      · obtain ⟨exit,hends⟩ := ends_eq.mp hend
        exact Or.inr (Or.inr (.woken ht hs hends))
      · cases ((hp.stillWaiting h).kept ht hs hend).symm.trans ht'
        cases hs.symm.trans hstate'
    | finished => rw [hs] at hlive; cases hlive
    | failed => rw [hs] at hlive; cases hlive
  · rw [htasks] at ht'
    rcases TaskTable.getElem?_snoc ht' with ⟨ht,-⟩ | ⟨hlen,-⟩
    · exact Or.inl (Option.map_eq_some_iff.mpr ⟨t',ht,hstate'⟩)
    · exact Or.inr (Or.inl hlen.ge)

theorem setTaskInitialArg_ready {ε : Type} {t : Task} {value : UInt64} (ht : k.tasks[j]? = some t)
    (hready : t.state = .ready) : (setTaskInitialArg j value : Code Kernel ε Bool) k =
      .ok true (setFrame t.savedRsp (fun frame => { frame with rdi := value }) k) := by
  refine (bind_ok rfl _).trans ?_
  simp only [ht,hready]
  rfl

theorem setTaskInitialArg_refused {ε : Type} {value : UInt64} (h : ¬ k.StateAt j .ready) :
    (setTaskInitialArg j value : Code Kernel ε Bool) k = .ok false k := by
  refine (bind_ok rfl _).trans ?_
  cases ht : k.tasks[j]? with
  | none => rfl
  | some t =>
    have hstate : t.state ≠ .ready := fun hready => h (Option.map_eq_some_iff.mpr ⟨t,ht,hready⟩)
    simp only [if_pos hstate]
    rfl

end

structure Past where
  selected : Set ℕ
  requeued : Set ℕ

def Past.after (past : Past) (s : System) (a : Action) (s' : System) : Past where
  selected := past.selected ∪ {j | j ∈ selection s s'}
  requeued := past.requeued ∪ {j | Requeues s a j}

def RecordedStep (P : Platform) (c : System × Past) (e : Event) (c' : System × Past) : Prop :=
  Step P c.1 e c'.1 ∧ c'.2 = c.2.after c.1 e.1 c'.1

abbrev RecordedRun (P : Platform) (B : Boot) : List Event → System × Past → Prop :=
  Runs (· = (B.system,⟨∅,∅⟩)) (RecordedStep P)

structure PastLaws (s : System) (past : Past) : Prop where
  known : ∀ j ∈ past.selected, j < s.kernel.tasks.length
  current : ∀ {j}, s.kernel.current = some j → j ∈ past.selected
  blocked : ∀ {j t reason}, s.kernel.tasks[j]? = some t → t.state = .blocked reason → j ∈ past.selected
  ran : ∀ j ∈ past.requeued, j ∈ past.selected
  returned : ∀ {j}, s.kernel.StateAt j .ready → j ∈ past.selected → j ∈ past.requeued

structure ArgumentLaws (s : System) (past : Past) (j : TaskId) (value : UInt64) : Prop where
  unstarted : ∀ {k'}, setTaskInitialArg (ε := Empty) j value s.kernel = .ok true k' → j ∉ past.selected
  resumable : ∀ {accepted k' i t}, setTaskInitialArg (ε := Empty) j value s.kernel = .ok accepted k' →
    s.kernel.tasks[i]? = some t → t.state = .ready → i ∈ past.selected →
    k'.frames t.savedRsp = s.kernel.frames t.savedRsp

section

variable {B : Boot} {P : Platform} {trace : List Event} {s s' : System} {past past' : Past} {e : Event}
  {j : ℕ} {value : UInt64}

theorem mem_selection {i : ℕ} (h : i ∈ selection s s') : s'.kernel.current = some i := by
  unfold selection at h
  split at h
  · cases h
  · exact Option.mem_toList.mp h

theorem current_selected (h : s'.kernel.current = some j) :
    s.kernel.current = some j ∨ j ∈ selection s s' := by
  by_cases hsame : s'.kernel.current = s.kernel.current
  · exact Or.inl (hsame ▸ h)
  · rw [selection,if_neg hsame]
    exact Or.inr (Option.mem_toList.mpr h)

theorem RecordedRun.run (h : RecordedRun P B trace (s,past)) : Run P B trace s := by
  generalize hc : (s,past) = c at h
  induction h generalizing s past with
  | start h₀ =>
    subst h₀
    cases hc
    exact .start rfl
  | @next trace c e c' _ hstep ih =>
    subst hc
    exact .next (ih rfl) hstep.1

theorem Run.recorded (h : Run P B trace s) : ∃ past, RecordedRun P B trace (s,past) := by
  induction h with
  | start h₀ =>
    subst h₀
    exact ⟨_,.start rfl⟩
  | @next trace s e s' _ hstep ih =>
    obtain ⟨past,hrun⟩ := ih
    exact ⟨past.after s e.1 s',.next hrun ⟨hstep,rfl⟩⟩

theorem Requeues.selected {a : Action} (h : PastLaws s past) (hq : Requeues s a j) : j ∈ past.selected := by
  cases hq with
  | switched _ hcur _ => exact h.current hcur
  | woken ht hstate _ => exact h.blocked ht hstate

theorem PastLaws.step (hst : Stable B.toBootMemory s) (h : PastLaws s past)
    (hstep : RecordedStep P (s,past) e (s',past')) : PastLaws s' past' := by
  obtain ⟨a,o⟩ := e
  obtain ⟨hstep,hpast⟩ := hstep
  obtain rfl : past' = past.after s a s' := hpast
  have hp := hst.performs hstep
  have hst' := hp.stable hst
  have hseats := hp.seats hst
  have hkept : ∀ {j}, j ∈ past.selected → j ∈ (past.after s a s').selected := Or.inl
  refine ⟨?_,?_,?_,?_,?_⟩
  · intro j hj
    rcases hj with hj | hj
    · exact (h.known j hj).trans_le hseats.length_le
    · obtain ⟨t,ht,-⟩ := hst'.scheduled.task (mem_selection hj)
      exact (List.getElem?_eq_some_iff.mp ht).1
  · intro j hj
    exact (current_selected hj).imp h.current id
  · intro j t reason ht hstate
    rcases hseats.blocked ht hstate with hcur | ⟨u,hu,hblocked⟩
    · exact hkept (h.current hcur)
    · exact hkept (h.blocked hu hblocked)
  · intro j hj
    rcases hj with hj | hj
    · exact hkept (h.ran j hj)
    · exact hkept (hj.selected h)
  · intro j hready hj
    have hold : j ∈ past.selected := by
      refine hj.resolve_right fun hnew => ?_
      exact hst'.not_current hready (mem_selection hnew)
    rcases hstep.readied hst hready with hbefore | hlen | hrequeues
    · exact Or.inl (h.returned hbefore hold)
    · exact absurd (h.known j hold) (Nat.not_lt.mpr hlen)
    · exact Or.inr hrequeues

theorem RecordedRun.laws (h : RecordedRun P B trace (s,past)) : PastLaws s past := by
  have hinv : Stable B.toBootMemory s ∧ PastLaws s past := by
    refine h.invariant (I := fun c => Stable B.toBootMemory c.1 ∧ PastLaws c.1 c.2) ?_ ?_
    · rintro _ rfl
      refine ⟨Run.stable (P := P) (.start rfl),by simp,?_,?_,by simp,?_⟩
      · intro j hj
        cases hj
      · intro j t reason ht
        cases ht
      · intro j _ hj
        cases hj
    · rintro ⟨s,past⟩ e ⟨s',past'⟩ ⟨hst,hlaws⟩ hstep
      exact ⟨(hst.performs hstep.1).stable hst,hlaws.step hst hstep⟩
  exact hinv.2

theorem initial_argument_laws (h : RecordedRun P B trace (s,past)) (j : TaskId) (value : UInt64) :
    ArgumentLaws s past j value ↔ (s.kernel.StateAt j .ready → j ∉ past.requeued) := by
  have hlaws := h.laws
  have hst := h.run.stable
  constructor
  · intro hlaw hready hrequeued
    obtain ⟨t,ht,hstate⟩ := Option.map_eq_some_iff.mp hready
    exact hlaw.unstarted (setTaskInitialArg_ready ht hstate) (hlaws.ran j hrequeued)
  · intro hfresh
    have hunstarted : s.kernel.StateAt j .ready → j ∉ past.selected :=
      fun hready hsel => hfresh hready (hlaws.returned hready hsel)
    by_cases hready : s.kernel.StateAt j .ready
    · obtain ⟨t,ht,hstate⟩ := Option.map_eq_some_iff.mp hready
      have hrun : setTaskInitialArg (ε := Empty) j value s.kernel = .ok true _ :=
        setTaskInitialArg_ready ht hstate
      refine ⟨fun _ => hunstarted hready,fun {accepted k' i u} hset hu hustate hi => ?_⟩
      have hij : i ≠ j := by
        rintro rfl
        exact hunstarted hready hi
      have hapart := h.run.stacks.saved_apart hu ht hij (by rw [hustate]; rfl) (by rw [hstate]; rfl)
        (hst.not_current (Option.map_eq_some_iff.mpr ⟨u,hu,hustate⟩)) (hst.not_current hready)
      cases hrun.symm.trans hset
      exact if_neg (hapart.ne (by decide))
    · have hrun : setTaskInitialArg (ε := Empty) j value s.kernel = .ok false s.kernel :=
        setTaskInitialArg_refused hready
      refine ⟨fun hset => ?_,fun hset _ _ _ => ?_⟩
      · cases hrun.symm.trans hset
      · cases hrun.symm.trans hset
        rfl

theorem initial_argument_laws_root : ∃ trace s past,
    RecordedRun standardPlatform smallMachine trace (s,past) ∧ s.kernel.StateAt 0 .ready ∧
    ArgumentLaws s past 0 1 := by
  obtain ⟨trace,s,e,s',hcareful,hempty,hstep,-,hroot⟩ :=
    exists_rootSpawned smallMachine_roomy standardPlatform .yieldThenExit
  obtain ⟨past,hrun⟩ := hcareful.run.recorded
  have hafter : RecordedRun standardPlatform smallMachine (e :: trace) (s',past.after s e.1 s') :=
    .next hrun ⟨hstep,rfl⟩
  obtain ⟨entry,top,htasks⟩ := hroot.tasks
  have hready : s'.kernel.StateAt 0 .ready := by
    rw [StateAt,htasks]
    rfl
  have hunselected : 0 ∉ (past.after s e.1 s').selected := by
    rintro (hold | hnew)
    · have hknown := hrun.laws.known 0 hold
      rw [hempty] at hknown
      cases hknown
    · cases hroot.current.symm.trans (mem_selection hnew)
  refine ⟨_,s',_,hafter,hready,(initial_argument_laws hafter 0 1).mpr fun _ hrequeued => ?_⟩
  exact hunselected (hafter.laws.ran 0 hrequeued)

theorem yielded_argument_overwritten : ∃ trace s past t k',
    RecordedRun standardPlatform smallMachine trace (s,past) ∧ 0 ∈ past.selected ∧
    s.kernel.tasks[0]? = some t ∧ t.state = .ready ∧
    setTaskInitialArg (ε := Empty) 0 1 s.kernel = .ok true k' ∧
    (s.kernel.frames t.savedRsp).rdi = 0 ∧ (k'.frames t.savedRsp).rdi = 1 := by
  obtain ⟨trace,s,hrun,hfamily⟩ :=
    exists_familyRunning smallMachine_roomy standardPlatform .yieldThenExit
  obtain ⟨c,s',hstep,hturned⟩ := hfamily.yields hrun
  obtain ⟨t,u,htasks,hready,-⟩ := hturned.tasks
  have ht : s'.kernel.tasks[0]? = some t := by rw [htasks]; rfl
  have hp := hrun.stable.performs hstep
  obtain ⟨past,hrecorded⟩ := hrun.recorded
  have hparked : t.savedRsp = Task.userFrameBottom HEAP_START := by
    cases hp.seats hrun.stable with
    | same hafter =>
      obtain ⟨t₀,-,hsame⟩ := hafter.task ht
      rcases hsame.left hfamily.current with hs | hs | hs
      · cases hready.symm.trans hs
      · rw [hready] at hs
        cases hs
      · exact (Option.some.inj hs).symm
  have hframe := (parks hrun.stable hrun.stacks hstep.1 hp rfl).rax fun rsp frame hc => by cases hc
  have hafter : RecordedRun standardPlatform smallMachine _ (s',past.after s _ s') :=
    .next hrecorded ⟨hstep,rfl⟩
  refine ⟨_,s',_,t,_,hafter,Or.inl (hrecorded.laws.current hfamily.current),ht,hready,
    setTaskInitialArg_ready ht hready,?_,?_⟩
  · rw [hparked,hframe]
    rfl
  · simp [setFrame]

end

end VladOs
