import VladOs.Kernel.Switching

namespace VladOs

open Code Paging FdTable ProcessTable

section

variable {child : ProcessId} {tasks : List Task} {i n : ℕ} {statusPtr : Option VirtAddr}

theorem findWaiter_some (h : findWaiter child tasks n = some (i,statusPtr)) :
    n ≤ i ∧ ∃ t, tasks[i - n]? = some t ∧ t.state = .blocked (.childExit child statusPtr) := by
  induction tasks generalizing n with
  | nil => cases h
  | cons t rest ih =>
    have hrest : findWaiter child rest (n + 1) = some (i,statusPtr) →
        n ≤ i ∧ ∃ u, (t :: rest)[i - n]? = some u ∧ u.state = .blocked (.childExit child statusPtr) := by
      intro hr
      obtain ⟨hle,u,hu,hs⟩ := ih hr
      refine ⟨by omega,u,?_,hs⟩
      rw [show i - n = (i - (n + 1)) + 1 by omega,List.getElem?_cons_succ]
      exact hu
    unfold findWaiter at h
    split at h
    · next waited ptr hstate =>
      split at h
      · next hw =>
        cases h
        exact ⟨le_refl _,t,by simp,by rw [hstate,hw]⟩
      · exact hrest h
    · exact hrest h

theorem findWaiter_none (h : findWaiter child tasks n = none) {t : Task} (ht : tasks[i]? = some t) :
    t.state ≠ .blocked (.childExit child statusPtr) := by
  induction tasks generalizing n i with
  | nil => simp at ht
  | cons u rest ih =>
    intro hstate
    cases i with
    | zero =>
      simp only [List.getElem?_cons_zero,Option.some.injEq] at ht
      subst ht
      simp [findWaiter,hstate] at h
    | succ i =>
      rw [List.getElem?_cons_succ] at ht
      have hrest : findWaiter child rest (n + 1) = none := by
        unfold findWaiter at h
        split at h
        · split at h
          · cases h
          · exact h
        · exact h
      exact ih hrest ht hstate

end

namespace Kernel

variable {B : BootMemory} {k k' : Kernel} {inits : List UserTaskInit} {i w : ℕ} {t u : Task}
  {pid parent child : ProcessId} {P Q C : Process} {exit : ProcessExit} {statusPtr : Option VirtAddr}
  {ε : Type}

theorem deliverStatus_spec (hm : k.memory.Sound B) (hP : k.processes.get parent = some P)
    (hr : P.addressSpace.level4Frame ∈ k.memory.addressSpaces)
    (hptr : ∀ a, statusPtr = some a → Allowed (userChecker .write)
      (k.memory.page P.addressSpace.level4Frame) a.addr waitStatusSize) :
    Spec (deliverStatus parent statusPtr exit : Code Kernel ε _) k
      (fun r k' => r = .ok () ∧ ∃ m', StatusWritten B k.memory P.addressSpace statusPtr exit m' ∧
        k' = { k with memory := m' }) fun _ _ => False := by
  cases statusPtr with
  | none =>
    rw [deliverStatus,spec_pure]
    exact ⟨rfl,k.memory,rfl,rfl⟩
  | some a =>
    have hspace : k.processes.addressSpace parent = some P.addressSpace := by
      simp [ProcessTable.addressSpace,hP]
    have hok : (writeBytes (userChecker .write) (k.memory.page P.addressSpace.level4Frame) a.addr
        exit.waitStatusBytes).1 = .ok () :=
      writeBytes_allowed (by rw [waitStatusBytes_length]; exact hptr a rfl)
    rw [deliverStatus,spec_attempt,writeWaitStatus,spec_bind,spec_read,spec_bind,hspace,
      spec_orFail_some,onMemory,spec_within]
    refine (copyToUser_spec hm hr a exit.waitStatusBytes).mono ?_ ?_
    · rintro - m' hw
      exact ⟨rfl,m',hw,rfl⟩
    · rintro e m' ⟨-,herr⟩
      rw [herr] at hok
      cases hok

theorem completeWait_spec (hm : k.memory.Sound B) (ht : k.tasks[w]? = some t)
    (hp : t.processId = some parent) (hQ : k.processes.get parent = some Q)
    (hr : Q.addressSpace.level4Frame ∈ k.memory.addressSpaces) (hmem : child ∈ Q.children)
    (hC : k.processes.get child = some C) (hz : C.state = .zombie exit)
    (hptr : ∀ a, statusPtr = some a → Allowed (userChecker .write)
      (k.memory.page Q.addressSpace.level4Frame) a.addr waitStatusSize) :
    Spec (completeWait w child statusPtr : Code Kernel ε Unit) k
      (fun _ k' => ∃ m', StatusWritten B k.memory Q.addressSpace statusPtr exit m' ∧
        k' = setFrame t.savedRsp (fun frame => { frame with rax := UInt64.ofNat child })
          { k with memory := m', processes := reapTable k.processes parent child })
      fun _ _ => False := by
  have hstate : k.processes.state child = some (.zombie exit) := by
    simp [ProcessTable.state,hC,hz]
  rw [completeWait,spec_bind,spec_taskAt ht]
  simp only [hp,spec_bind,spec_read,hstate]
  refine (deliverStatus_spec hm hQ hr hptr).imp ?_
  rintro _ _ ⟨rfl,m',hw,rfl⟩
  have hreap : k.processes.reapChild parent child = (.ok exit,reapTable k.processes parent child) :=
    reapChild_eq (isChild_iff.mpr ⟨Q,hQ,hmem⟩) hC hz
  have hstep : (reapChild parent child : Code Kernel ε _) { k with memory := m' } =
      .ok (.ok exit) { k with memory := m', processes := reapTable k.processes parent child } := by
    simp only [reapChild,hreap]
  simp only [spec_bind]
  refine Spec.of_ok hstep ?_
  simp only [setSavedRax,spec_bind]
  have ht' : ({ k with memory := m', processes := reapTable k.processes parent child } : Kernel).tasks[w]? =
    some t := ht
  rw [spec_taskAt ht',setFrameRax,spec_modify]
  exact ⟨m',hw,rfl⟩

inductive Exits (B : BootMemory) (k : Kernel) (i : ℕ) (f : Task → Task) (pid : ProcessId) (P : Process)
    (exit : ProcessExit) : Kernel → Prop where
  | alone : (∀ {j : ℕ} {u : Task} {statusPtr}, k.tasks[j]? = some u →
        u.state ≠ .blocked (.childExit pid statusPtr)) →
      Exits B k i f pid P exit { k.modifyTask i f with
        processes := (exitTable k.processes pid P exit).reapOrphanIfZombie pid
        openFiles := closeEntries P.fdTable.entries k.openFiles }
  | woken {w : ℕ} {u : Task} {parent : ProcessId} {Q : Process} {statusPtr : Option VirtAddr}
      {m' : Memory} : k.tasks[w]? = some u → w ≠ i → u.state = .blocked (.childExit pid statusPtr) →
      u.processId = some parent → k.processes.get parent = some Q → pid ∈ Q.children →
      StatusWritten B k.memory Q.addressSpace statusPtr exit m' →
      Exits B k i f pid P exit (setFrame u.savedRsp
        (fun frame => { frame with rax := UInt64.ofNat pid })
        { (k.modifyTask i f).modifyTask w (Task.setState .ready) with
          processes := reapTable (exitTable k.processes pid P exit) parent pid
          openFiles := closeEntries P.fdTable.entries k.openFiles
          memory := m' })

theorem phase_waiting {s : TaskState} :
    s.phase = .waiting child statusPtr ↔ s = .blocked (.childExit child statusPtr) := by
  cases s with
  | blocked reason => cases reason; simp [TaskState.phase]
  | _ => simp [TaskState.phase]

def Ends (f : Task → Task) : Prop := ∀ t, (f t).view = t.view.setPhase .ended

theorem Ends.state {f : Task → Task} (hf : Ends f) (t : Task) :
    (f t).state = .finished ∨ (f t).state = .failed := by
  have hphase : (f t).state.phase = .ended := congrArg TaskView.phase (hf t)
  cases hs : (f t).state with
  | finished => exact Or.inl rfl
  | failed => exact Or.inr rfl
  | blocked reason => cases reason; simp [hs,TaskState.phase] at hphase
  | _ => simp [hs,TaskState.phase] at hphase

theorem core_view (ht : k.tasks[i]? = some t) : (k.core inits).tasks[i]? = some t.view := by
  rw [core,views_getElem?,ht]
  rfl

theorem acts (h : CoreInv B (k.core inits)) (ht : k.tasks[i]? = some t) (hs : t.state.phase = .active)
    (hp : t.processId = some pid) : ∃ P, Acts (k.core inits) i pid P := by
  obtain ⟨P,hP,-⟩ := h.tasks.running (core_view ht) hp
    (by rw [Task.view,hs]; exact fun hc => by cases hc)
  exact ⟨P,⟨_,core_view ht,hp,hs⟩,hP⟩

theorem reapOrphanIfZombie_gone {t : ProcessTable} (h : t.get pid = none) :
    t.reapOrphanIfZombie pid = t := by
  simp only [reapOrphanIfZombie,h]

theorem exitProcess_spec (h : CoreInv B (k.core inits)) (ht : k.tasks[i]? = some t)
    (ha : Acts (k.core inits) i pid P) (hrun : t.state = .running) {f : Task → Task} (hf : Ends f) :
    Spec (exitProcess pid exit : Code Kernel ε Unit) (k.modifyTask i f)
      (fun _ k' => Exits B k i f pid P exit k') fun _ _ => False := by
  have hP : k.processes.get pid = some P := ha.get
  have hmark : (markExited pid exit : Code Kernel ε Unit) (k.modifyTask i f) =
      .ok () { k.modifyTask i f with
        processes := exitTable k.processes pid P exit
        openFiles := closeEntries P.fdTable.entries k.openFiles } := by
    have heq : (k.modifyTask i f).processes.markExited pid exit (k.modifyTask i f).openFiles = _ :=
      markExited_eq hP
    simp only [markExited,heq]
    rfl
  rw [exitProcess,spec_bind]
  refine Spec.of_ok hmark ?_
  rw [spec_bind,wakeParentWaitingFor,spec_bind,spec_read]
  cases hw : findWaiter pid (k.modifyTask i f).tasks 0 with
  | none =>
    simp only [spec_pure,spec_modify]
    refine .alone ?_
    intro j u statusPtr hu hstate
    by_cases hj : j = i
    · subst hj
      rw [ht] at hu
      cases hu
      rw [hrun] at hstate
      cases hstate
    · exact findWaiter_none hw (by rw [modifyTask_of_ne hj]; exact hu) hstate
  | some waiter =>
    obtain ⟨w,statusPtr⟩ := waiter
    obtain ⟨-,u,hu,hstate⟩ := findWaiter_some hw
    rw [Nat.sub_zero] at hu
    have hwi : w ≠ i := by
      rintro rfl
      rw [modifyTask_self ht] at hu
      cases hu
      rcases hf.state t with hc | hc <;> rw [hc] at hstate <;> cases hstate
    have hu₀ : k.tasks[w]? = some u := by rwa [modifyTask_of_ne hwi] at hu
    obtain ⟨parent,Q,-,hpar,hQ,hmem,-,-,hptr⟩ := h.waits (core_view hu₀) (phase_waiting.mpr hstate)
    have hQ' : k.processes.get parent = some Q := hQ
    have hparent : (exitTable k.processes pid P exit).get parent = some Q :=
      h.parent_exitTable ha hQ hmem
    have hself : (exitTable k.processes pid P exit).get pid = some (exited exit P) :=
      get_exitTable_self h.forest hP
    simp only [spec_bind]
    refine (completeWait_spec (k := { k.modifyTask i f with
        processes := exitTable k.processes pid P exit
        openFiles := closeEntries P.fdTable.entries k.openFiles })
      h.homes.sound hu hpar hparent (h.homes.process hQ).1 hmem hself rfl hptr).imp ?_
    rintro - _ ⟨m',hwritten,rfl⟩
    have hu' : (setFrame u.savedRsp (fun frame => { frame with rax := UInt64.ofNat pid })
      { k.modifyTask i f with
        processes := reapTable (exitTable k.processes pid P exit) parent pid
        openFiles := closeEntries P.fdTable.entries k.openFiles
        memory := m' }).tasks[w]? = some u := hu
    refine (spec_taskAt hu').mpr ?_
    simp only [hstate]
    refine (spec_updateTask hu').mpr ?_
    rw [spec_modify]
    have hgone : (reapTable (exitTable k.processes pid P exit) parent pid).get pid = none := by
      rw [reapTable,get_reapChild,if_pos rfl]
    have hresult : Exits B k i f pid P exit _ := .woken hu₀ hwi hstate hpar hQ' hmem hwritten
    refine Eq.mp (congrArg _ ?_) hresult
    simp only [setFrame,modifyTask,reapOrphanIfZombie_gone hgone]

theorem Exits.of_waiter {f : Task → Task} {w : ℕ} {u : Task} {statusPtr : Option VirtAddr}
    (hc : CoreInv B (k.core inits)) (h : Exits B k i f pid P exit k') (hu : k.tasks[w]? = some u)
    (hs : u.state = .blocked (.childExit pid statusPtr)) :
    ∃ parent Q m', w ≠ i ∧ u.processId = some parent ∧ k.processes.get parent = some Q ∧
      pid ∈ Q.children ∧ StatusWritten B k.memory Q.addressSpace statusPtr exit m' ∧
      k' = setFrame u.savedRsp (fun frame => { frame with rax := UInt64.ofNat pid })
        { (k.modifyTask i f).modifyTask w (Task.setState .ready) with
          processes := reapTable (exitTable k.processes pid P exit) parent pid
          openFiles := closeEntries P.fdTable.entries k.openFiles
          memory := m' } := by
  cases h with
  | alone hnone => exact absurd hs (hnone hu)
  | woken hv hvi hstate hpar hQ hmem hwritten =>
    obtain rfl := hc.waits_unique (core_view hu) (core_view hv) (phase_waiting.mpr hs)
      (phase_waiting.mpr hstate)
    cases hu.symm.trans hv
    cases hs.symm.trans hstate
    exact ⟨_,_,_,hvi,hpar,hQ,hmem,hwritten,rfl⟩

theorem Exits.coreStep {f : Task → Task} (hf : Ends f) (ha : Acts (k.core inits) i pid P)
    (h : Exits B k i f pid P exit k') : CoreStep B (k.core inits) (k'.core inits) := by
  have hviews : (k.modifyTask i f).views = k.views.modify i (.setPhase .ended) :=
    views_setPhase fun {t} _ => hf t
  cases h with
  | alone hnone =>
    have hstep := CoreStep.exitAlone (B := B) exit ha (by
      intro j v statusPtr hv hphase
      rw [core,views_getElem?] at hv
      obtain ⟨u,hu,rfl⟩ := Option.map_eq_some_iff.mp hv
      exact hnone hu (phase_waiting.mp hphase))
    rwa [core,← hviews] at hstep
  | @woken w u parent Q statusPtr m' hu hwi hstate hpar hQ hmem hwritten =>
    have hwake : ((k.modifyTask i f).modifyTask w (Task.setState .ready)).views =
        (k.views.modify i (.setPhase .ended)).modify w (.setPhase .active) := by
      rw [← hviews]
      exact views_setPhase fun _ => rfl
    have hstep := CoreStep.exitWoken (B := B) exit ha (core_view hu) (phase_waiting.mpr hstate) hpar hQ
      hmem hwritten
    rwa [core,← hwake] at hstep

theorem Exits.vacant {f : Task → Task} (hf : Ends f) (h : k.Scheduled) (hcur : k.current = some i)
    (hx : Exits B k i f pid P exit k') : k'.Vacant := by
  have hv : (k.modifyTask i f).Vacant := by
    refine h.vacate hcur fun t hc => ?_
    rcases hf.state t with hs | hs <;> rw [hs] at hc <;> cases hc
  cases hx with
  | alone _ => exact ⟨hv.idle,hv.cached⟩
  | @woken w u _ _ _ _ hu hwi _ _ _ _ _ =>
    have hu' : (k.modifyTask i f).tasks[w]? = some u := by rwa [modifyTask_of_ne hwi]
    refine ⟨fun j hj => ?_,hv.cached⟩
    rcases (StateAt.modify hu' j).mp hj with ⟨-,hc⟩ | ⟨-,hc⟩
    · cases hc
    · exact hv.idle j hc

inductive Finishes (B : BootMemory) (k : Kernel) (i : ℕ) (f : Task → Task) (exit : ProcessExit) :
    Kernel → Prop where
  | kernel {t : Task} : k.tasks[i]? = some t → t.processId = none →
      Finishes B k i f exit (k.modifyTask i f)
  | user {t : Task} {pid : ProcessId} {P : Process} {k' : Kernel} : k.tasks[i]? = some t →
      t.processId = some pid → k.processes.get pid = some P → Exits B k i f pid P exit k' →
      Finishes B k i f exit k'

theorem Finishes.coreStep {f : Task → Task} (hf : Ends f) (h : CoreInv B (k.core inits))
    (hs : k.Scheduled) (hcur : k.current = some i) (hx : Finishes B k i f exit k') :
    CoreStep B (k.core inits) (k'.core inits) ∧ k'.Vacant := by
  obtain ⟨t,ht,hrun⟩ := hs.task hcur
  cases hx with
  | kernel hu hp =>
    rw [ht] at hu
    cases hu
    have hviews : (k.modifyTask i f).views = k.views.modify i (.setPhase .ended) :=
      views_setPhase fun {t} _ => hf t
    have hstep : CoreStep B (k.core inits) _ := .endTask (core_view ht) hp
    rw [core,← hviews] at hstep
    refine ⟨hstep,hs.vacate hcur fun t hc => ?_⟩
    rcases hf.state t with hs | hs <;> rw [hs] at hc <;> cases hc
  | user hu hp hP hx =>
    rw [ht] at hu
    cases hu
    obtain ⟨P',ha⟩ := acts h ht (by rw [hrun]; rfl) hp
    have hsame : P' = _ := Option.some.inj (ha.get.symm.trans hP)
    subst hsame
    exact ⟨hx.coreStep hf ha,hx.vacant hf hs hcur⟩

theorem Finishes.selected {f : Task → Task} {k₁ : Kernel} {c : Control} (hf : Ends f)
    (h : CoreInv B (k.core inits)) (hs : k.Scheduled) (hcur : k.current = some i)
    (hx : Finishes B k i f exit k₁) (hsel : Selects k₁ i c k') : Evolves B inits k inits k' := by
  obtain ⟨hstep,hvacant⟩ := hx.coreStep hf h hs hcur
  exact ⟨Or.inr (hsel.core ▸ hstep),hsel.scheduled hvacant⟩

theorem endTask_ends {finalState : TaskState} {exitCode : Option UInt64}
    (hexit : processExit finalState exitCode = some exit) (rsp : ℕ) (info : Option UserFaultInfo) :
    Ends (endTask rsp finalState exitCode info) := by
  have hphase : finalState.phase = .ended := by
    unfold processExit at hexit
    split at hexit
    · rfl
    · rfl
    · cases hexit
  intro t
  have hview : (endTask rsp finalState exitCode info t).view =
      t.view.setPhase finalState.phase := by
    cases exitCode <;> cases info <;> rfl
  rw [hview,hphase]

theorem finishCurrentFromInterrupt_spec (h : CoreInv B (k.core inits)) (hs : k.Scheduled)
    (hcur : k.current = some i) {finalState : TaskState} {exitCode : Option UInt64}
    (hexit : processExit finalState exitCode = some exit) (rsp : ℕ) (info : Option UserFaultInfo) :
    Spec (finishCurrentFromInterrupt rsp finalState exitCode info : Code Kernel ε Control) k
      (fun c k' => ∃ k₁, Finishes B k i (endTask rsp finalState exitCode info) exit k₁ ∧
        Selects k₁ i c k') fun _ _ => False := by
  obtain ⟨t,ht,hrun⟩ := hs.task hcur
  have hf := endTask_ends hexit rsp info
  have hdone : ∀ {k₁}, Finishes B k i (endTask rsp finalState exitCode info) exit k₁ →
      Spec (selectNextOrMain i : Code Kernel ε Control) k₁
        (fun c k' => ∃ k₁, Finishes B k i (endTask rsp finalState exitCode info) exit k₁ ∧
          Selects k₁ i c k') fun _ _ => False := by
    intro k₁ hx
    obtain ⟨hstep,hvacant⟩ := hx.coreStep hf h hs hcur
    exact (selectNextOrMain_spec hvacant (hstep.inv h).rooted i).imp fun _ _ hsel => ⟨k₁,hx,hsel⟩
  rw [finishCurrentFromInterrupt,spec_bind,spec_read,spec_bind,hcur,spec_orAbort_some,spec_bind,
    spec_updateTask ht,spec_bind,spec_taskAt (modifyTask_self ht _)]
  have hsame : (endTask rsp finalState exitCode info t).processId = t.processId := by
    cases exitCode <;> cases info <;> rfl
  cases hp : t.processId with
  | none =>
    have hp' : (endTask rsp finalState exitCode info t).processId = none := hsame.trans hp
    simp only [hp']
    exact hdone (.kernel ht hp)
  | some pid =>
    have hp' : (endTask rsp finalState exitCode info t).processId = some pid := hsame.trans hp
    obtain ⟨P,ha⟩ := acts h ht (by rw [hrun]; rfl) hp
    simp only [hp',spec_bind,hexit,spec_orAbort_some]
    refine (exitProcess_spec h ht ha hrun hf).imp fun _ k₁ hx => ?_
    exact hdone (.user ht hp ha.get hx)

theorem finishCurrentTask_spec (h : CoreInv B (k.core inits)) (hs : k.Scheduled)
    (hcur : k.current = some i) (ht : k.tasks[i]? = some t) (hp : t.processId = none) :
    Spec (finishCurrentTask : Code Kernel ε Control) k
      (Selects (k.modifyTask i (Task.setState .finished)) i) fun _ _ => False := by
  have hf : Ends (Task.setState .finished) := fun _ => rfl
  have hx : Finishes B k i (Task.setState .finished) .faulted _ := .kernel ht hp
  obtain ⟨hstep,hvacant⟩ := hx.coreStep hf h hs hcur
  rw [finishCurrentTask,spec_bind,spec_read,spec_bind,hcur,spec_orAbort_some,spec_bind,
    spec_updateTask ht]
  exact selectNextOrMain_spec hvacant (hstep.inv h).rooted i

end Kernel

end VladOs
