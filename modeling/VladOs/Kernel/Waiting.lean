import VladOs.Kernel.Lifecycle

namespace VladOs

open Code Paging ProcessTable

namespace Kernel

variable {B : BootMemory} {k k' : Kernel} {inits : List UserTaskInit} {i : ℕ} {t : Task}
  {pid parent child : ProcessId} {P : Process} {statusPtr : Option VirtAddr} {ε : Type}

inductive WaitRefused (k : Kernel) (P : Process) (child : ProcessId) (statusPtr : Option VirtAddr)
    (options : ℕ) : SysError → Prop where
  | options : options ≠ 0 → options ≠ WNOHANG → WaitRefused k P child statusPtr options .invalid
  | notChild : options = 0 ∨ options = WNOHANG → child ∉ P.children →
      WaitRefused k P child statusPtr options .child
  | badPointer {a : VirtAddr} : options = 0 ∨ options = WNOHANG → child ∈ P.children →
      statusPtr = some a → ¬ Allowed (userChecker .write)
        (k.memory.page P.addressSpace.level4Frame) a.addr waitStatusSize →
      WaitRefused k P child statusPtr options .fault

def StatusAllowed (k : Kernel) (P : Process) (statusPtr : Option VirtAddr) : Prop :=
  ∀ a, statusPtr = some a → Allowed (userChecker .write)
    (k.memory.page P.addressSpace.level4Frame) a.addr waitStatusSize

def setRax (rsp : ℕ) (value : UInt64) (k : Kernel) : Kernel :=
  setFrame rsp (fun frame => { frame with rax := value }) k

theorem setRax_frame (k : Kernel) (rsp : ℕ) (value : UInt64) :
    ((k.setRax rsp value).frames rsp).rax = value := by
  simp [setRax,setFrame]

inductive WaitResult (B : BootMemory) (k : Kernel) (i rsp : ℕ) (pid : ProcessId) (P : Process)
    (child : ProcessId) (statusPtr : Option VirtAddr) (options : ℕ) : Control → Kernel → Prop where
  | refused {e : SysError} : WaitRefused k P child statusPtr options e →
      WaitResult B k i rsp pid P child statusPtr options (.resume rsp) (k.setRax rsp e.rawReturn)
  | running {C : Process} : child ∈ P.children → k.processes.get child = some C →
      C.state = .running → StatusAllowed k P statusPtr → options = WNOHANG →
      WaitResult B k i rsp pid P child statusPtr options (.resume rsp) (k.setRax rsp 0)
  | reaped {C : Process} {exit : ProcessExit} {m' : Memory} : child ∈ P.children →
      k.processes.get child = some C → C.state = .zombie exit → StatusAllowed k P statusPtr →
      StatusWritten B k.memory P.addressSpace statusPtr exit m' →
      WaitResult B k i rsp pid P child statusPtr options (.resume rsp)
        (setRax rsp (UInt64.ofNat child) { k.modifyTask i (Task.setSavedRsp rsp) with
          memory := m'
          processes := reapTable k.processes pid child })
  | blocked {C : Process} {c : Control} {k' : Kernel} : child ∈ P.children →
      k.processes.get child = some C → C.state = .running → StatusAllowed k P statusPtr → options = 0 →
      Selects ((k.modifyTask i (Task.setSavedRsp rsp)).modifyTask i
        (Task.setState (.blocked (.childExit child statusPtr)))) i c k' →
      WaitResult B k i rsp pid P child statusPtr options c k'

theorem checkStatusPtr_spec (hm : k.memory.Sound B) (hP : k.processes.get parent = some P)
    (hr : P.addressSpace.level4Frame ∈ k.memory.addressSpaces) :
    Spec (checkStatusPtr parent statusPtr : Code Kernel ε _) k
      (fun r k' => k' = k ∧ (r = .ok () ∧ StatusAllowed k P statusPtr ∨
        (∃ e, r = .error e) ∧ ∃ a, statusPtr = some a ∧ ¬ Allowed (userChecker .write)
          (k.memory.page P.addressSpace.level4Frame) a.addr waitStatusSize)) fun _ _ => False := by
  cases statusPtr with
  | none =>
    rw [checkStatusPtr,spec_pure]
    exact ⟨rfl,Or.inl ⟨rfl,fun a ha => by cases ha⟩⟩
  | some a =>
    have hspace : k.processes.addressSpace parent = some P.addressSpace := by
      simp [ProcessTable.addressSpace,hP]
    rw [checkStatusPtr,spec_attempt,validateWaitStatusTarget,spec_bind,spec_read,spec_bind,hspace,
      spec_orFail_some,onMemory,spec_within]
    refine (validateUserRange_spec hm hr a waitStatusSize .write).mono ?_ ?_
    · rintro - m' ⟨rfl,hal⟩
      exact ⟨rfl,Or.inl ⟨rfl,by rintro _ ⟨⟩; exact hal⟩⟩
    · rintro e m' ⟨rfl,hal⟩
      exact ⟨rfl,Or.inr ⟨⟨e,rfl⟩,a,rfl,hal⟩⟩

theorem notChild_iff (h : CoreInv B (k.core inits)) (hP : k.processes.get pid = some P) :
    (child = 0 ∨ (!k.processes.isChild pid child) = true) ↔ child ∉ P.children := by
  have hchild : k.processes.isChild pid child = true ↔ child ∈ P.children := by
    rw [isChild_iff]
    constructor
    · rintro ⟨P',hP',hc⟩
      rw [hP] at hP'
      cases hP'
      exact hc
    · exact fun hc => ⟨P,hP,hc⟩
  rw [Bool.not_eq_true',← Bool.not_eq_true,hchild]
  constructor
  · rintro (rfl | hc)
    · intro hmem
      obtain ⟨_,-,hlt,-⟩ := h.forest.child hP hmem
      exact Nat.not_lt_zero _ hlt
    · exact hc
  · exact Or.inr

theorem blocked_coreStep (ha : Acts (k.core inits) i pid P) {C : Process} (hmem : child ∈ P.children)
    (hC : k.processes.get child = some C) (hrun : C.state = .running)
    (hallow : StatusAllowed k P statusPtr) (rsp : ℕ) :
    CoreStep B (k.core inits) (((k.modifyTask i (Task.setSavedRsp rsp)).modifyTask i
      (Task.setState (.blocked (.childExit child statusPtr)))).core inits) := by
  have hviews : ((k.modifyTask i (Task.setSavedRsp rsp)).modifyTask i
      (Task.setState (.blocked (.childExit child statusPtr)))).views =
        k.views.modify i (.setPhase (.waiting child statusPtr)) := by
    rw [← k.views_setSavedRsp i rsp]
    exact views_setPhase fun _ => rfl
  have hstep : CoreStep B (k.core inits) _ := .block ha hmem hC hrun hallow
  rwa [core,← hviews] at hstep

theorem blocked_vacant (hs : k.Scheduled) (hcur : k.current = some i) (rsp : ℕ) :
    ((k.modifyTask i (Task.setSavedRsp rsp)).modifyTask i
      (Task.setState (.blocked (.childExit child statusPtr)))).Vacant := by
  have hsaved : (k.modifyTask i (Task.setSavedRsp rsp)).Scheduled :=
    hs.modifyTask (Task.setSavedRsp rsp) (fun _ => rfl) (fun _ => rfl) (fun _ => rfl) i
  exact hsaved.vacate hcur fun _ hc => by cases hc

theorem waitpidFromInterrupt_spec (h : CoreInv B (k.core inits)) (hs : k.Scheduled)
    (hcur : k.current = some i) (ht : k.tasks[i]? = some t) (hp : t.processId = some pid)
    (ha : Acts (k.core inits) i pid P) (rsp : ℕ) (child : ProcessId) (statusPtr : Option VirtAddr)
    (options : ℕ) :
    Spec (waitpidFromInterrupt rsp child statusPtr options : Code Kernel ε Control) k
      (WaitResult B k i rsp pid P child statusPtr options) fun _ _ => False := by
  have hm := h.homes.sound
  have hP : k.processes.get pid = some P := ha.get
  have hr := (h.homes.process ha.get).1
  rw [waitpidFromInterrupt,spec_bind,spec_read]
  simp only [hcur,spec_bind]
  rw [spec_taskAt ht]
  simp only [hp]
  rw [spec_ite]
  constructor
  · rintro ⟨h₀,h₁⟩
    rw [returnSysError,spec_bind,setFrameRax,spec_modify,spec_pure]
    exact .refused (.options h₀ h₁)
  · intro hopt
    have hopt' : options = 0 ∨ options = WNOHANG := by
      by_cases h₀ : options = 0
      · exact Or.inl h₀
      · exact Or.inr (not_not.mp fun h₁ => hopt ⟨h₀,h₁⟩)
    rw [spec_bind,spec_read,spec_ite,notChild_iff h hP]
    constructor
    · intro hnot
      rw [returnSysError,spec_bind,setFrameRax,spec_modify,spec_pure]
      exact .refused (.notChild hopt' hnot)
    · intro hmem
      have hmem := not_not.mp hmem
      obtain ⟨C,hC,-⟩ := h.forest.child hP hmem
      have hC' : k.processes.get child = some C := hC
      rw [spec_bind]
      refine (checkStatusPtr_spec hm hP hr).imp ?_
      rintro r k₀ ⟨rfl,⟨rfl,hallow⟩ | ⟨⟨e,rfl⟩,a,ha,hdeny⟩⟩
      · have hstate : k₀.processes.state child = some C.state := by
          simp [ProcessTable.state,hC']
        simp only [spec_bind,spec_read,hstate]
        have ht' := modifyTask_self ht (Task.setSavedRsp rsp)
        cases hst : C.state with
        | zombie exit =>
          simp only [spec_bind]
          rw [spec_updateTask ht]
          refine (completeWait_spec (k := k₀.modifyTask i (Task.setSavedRsp rsp)) hm ht' hp hP hr hmem hC'
            hst hallow).imp ?_
          rintro - _ ⟨m',hw,rfl⟩
          rw [spec_pure]
          exact .reaped hmem hC' hst hallow hw
        | running =>
          simp only
          rw [spec_ite]
          constructor
          · intro hnohang
            rw [spec_bind,setFrameRax,spec_modify,spec_pure]
            exact .running hmem hC' hst hallow hnohang
          · intro hblock
            have hzero : options = 0 := hopt'.resolve_right hblock
            have hstep : CoreStep B (k₀.core inits) _ := blocked_coreStep ha hmem hC' hst hallow rsp
            rw [spec_bind,spec_updateTask ht,spec_bind,spec_updateTask ht']
            exact (selectNextOrMain_spec (blocked_vacant hs hcur rsp) (hstep.inv h).rooted i).imp
              fun _ _ hsel => .blocked hmem hC' hst hallow hzero hsel
      · simp only
        rw [returnSysError,spec_bind,setFrameRax,spec_modify,spec_pure]
        exact .refused (.badPointer hopt' hmem ha hdeny)

theorem scheduled_setRax (hs : k.Scheduled) (rsp : ℕ) (value : UInt64) :
    (k.setRax rsp value).Scheduled :=
  ⟨hs.current,hs.cached,hs.loaded,hs.main⟩

theorem WaitResult.coreStep {rsp options : ℕ} {c : Control} (ha : Acts (k.core inits) i pid P)
    (hw : WaitResult B k i rsp pid P child statusPtr options c k') :
    k'.core inits = k.core inits ∨ CoreStep B (k.core inits) (k'.core inits) := by
  cases hw with
  | refused _ => exact Or.inl rfl
  | running _ _ _ _ _ => exact Or.inl rfl
  | @reaped C exit m' hmem hC hz _ hwritten =>
    have hcore : (setRax rsp (UInt64.ofNat child) { k.modifyTask i (Task.setSavedRsp rsp) with
        memory := m'
        processes := reapTable k.processes pid child }).core inits =
        { k.core inits with processes := reapTable k.processes pid child, memory := m' } := by
      change Core.mk (k.modifyTask i (Task.setSavedRsp rsp)).views _ _ _ _ = _
      rw [views_setSavedRsp]
      rfl
    rw [hcore]
    exact Or.inr (.reap ha hmem hC hz hwritten)
  | blocked hmem hC hrun hallow _ hsel =>
    right
    rw [hsel.core]
    exact blocked_coreStep ha hmem hC hrun hallow rsp

end Kernel

end VladOs
