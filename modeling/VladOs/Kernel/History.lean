import VladOs.Kernel.Steps
import VladOs.Process.History

namespace VladOs

open Code ProcessTable Kernel Transition

theorem kin_modify {t : ProcessTable} {pid : ProcessId} {f : Process → Process}
    (hf : ∀ P, (f P).kin = P.kin) (q : ProcessId) : (t.modify pid f).kin q = t.kin q := by
  unfold ProcessTable.kin
  rw [get_modify]
  split
  · cases t.get q with
    | none => rfl
    | some Q => exact congrArg some (hf Q)
  · rfl

section

variable {B : BootMemory} {c c' : Core} {i : ℕ} {pid : ProcessId} {v' : TaskView}

theorem CoreStep.table (h : CoreInv B c) (hs : CoreStep B c c') : TableStep c.processes c'.processes := by
  have hfd : ∀ {q : ProcessId} {table : FdTable}, TableStep c.processes (c.processes.setFdTable q table) :=
    .same modify_nextPid (kin_modify fun _ => rfl)
  cases hs with
  | spawnProcess _ _ _ hcreated => exact .created hcreated
  | openFile _ _ _ _ => exact hfd
  | closeFile _ _ => exact hfd
  | brk _ _ _ _ _ => exact .same modify_nextPid (kin_modify fun _ => rfl)
  | reap ha hmem hC hz _ => exact .collected ha.get hmem hC hz
  | exitAlone exit ha _ => exact .exited exit ha.get (h.acts_running ha)
  | exitWoken exit ha _ _ _ hQ hmem _ => exact .collectedExit exit ha.get (h.acts_running ha) hQ hmem
  | _ => exact .same rfl fun _ => rfl

theorem CoreStep.origin (hs : CoreStep B c c') (hv' : c'.tasks[i]? = some v')
    (hp : v'.process = some pid) :
    (∃ v, c.tasks[i]? = some v ∧ v.process = some pid) ∨
      pid = c.processes.nextPid ∧ ∃ Q, c'.processes.get pid = some Q ∧ Q.mainTask = i := by
  have hsame : ∀ {l : List TaskView} {j : ℕ} {phase : Phase} {w : TaskView},
      (l.modify j (.setPhase phase))[i]? = some w → ∃ v, l[i]? = some v ∧ v.process = w.process := by
    intro l j phase w hw
    rw [List.getElem?_modify] at hw
    cases hl : l[i]? with
    | none => simp [hl] at hw
    | some v =>
      refine ⟨v,rfl,?_⟩
      rw [hl] at hw
      split at hw <;> · cases hw; rfl
  have hone : ∀ {j : ℕ} {phase : Phase}, (c.tasks.modify j (.setPhase phase))[i]? = some v' →
      ∃ v, c.tasks[i]? = some v ∧ v.process = some pid := by
    intro j phase hw
    obtain ⟨v,hv,he⟩ := hsame hw
    exact ⟨v,hv,he.trans hp⟩
  cases hs with
  | spawnTask _ =>
    rcases TaskTable.getElem?_snoc hv' with ⟨hv,-⟩ | ⟨-,rfl⟩
    · exact Or.inl ⟨v',hv,hp⟩
    · cases hp
  | spawnProcess _ _ _ hcreated =>
    rcases TaskTable.getElem?_snoc hv' with ⟨hv,-⟩ | ⟨rfl,rfl⟩
    · exact Or.inl ⟨v',hv,hp⟩
    · cases hp
      exact Or.inr ⟨hcreated.pid_eq,_,(hcreated.get _).trans (if_pos rfl),rfl⟩
  | block _ _ _ _ _ => exact Or.inl (hone hv')
  | exitAlone _ _ _ => exact Or.inl (hone hv')
  | exitWoken _ _ _ _ _ _ _ _ =>
    obtain ⟨w,hw,he⟩ := hsame hv'
    obtain ⟨v,hv,he'⟩ := hsame hw
    exact Or.inl ⟨v,hv,(he'.trans he).trans hp⟩
  | endTask _ _ => exact Or.inl (hone hv')
  | _ => exact Or.inl ⟨v',hv',hp⟩

end

section

variable {B : BootMemory} {inits inits' : List UserTaskInit} {k k' : Kernel} {i : ℕ} {t' : Task}
  {pid : ProcessId}

theorem Kernel.Evolves.table (h : CoreInv B (k.core inits)) (he : Evolves B inits k inits' k') :
    TableStep k.processes k'.processes := by
  rcases he.core with hc | hc
  · have hp : k'.processes = k.processes := congrArg Core.processes hc
    exact .same (by rw [hp]) fun _ => by rw [hp]
  · exact hc.table h

theorem Kernel.Evolves.origin (he : Evolves B inits k inits' k') (ht' : k'.tasks[i]? = some t')
    (hp : t'.processId = some pid) :
    (∃ t, k.tasks[i]? = some t ∧ t.processId = some pid) ∨
      pid = k.processes.nextPid ∧ ∃ Q, k'.processes.get pid = some Q ∧ Q.mainTask = i := by
  have hback : (∃ v, k.views[i]? = some v ∧ v.process = some pid) →
      ∃ t, k.tasks[i]? = some t ∧ t.processId = some pid := by
    rintro ⟨v,hv,hvp⟩
    rw [views_getElem?] at hv
    obtain ⟨t,ht,rfl⟩ := Option.map_eq_some_iff.mp hv
    exact ⟨t,ht,hvp⟩
  rcases he.core with hc | hc
  · left
    refine hback ⟨t'.view,?_,hp⟩
    have hv : k'.views = k.views := congrArg Core.tasks hc
    rw [← hv,views_getElem?,ht']
    rfl
  · exact (hc.origin (core_view ht') hp).imp hback id

end

section

variable {B : Boot} {P : Platform} {trace : List Event} {s : System}

structure CreatedAs (P : Platform) (B : Boot) (trace : List Event) (pid : ProcessId) (i : ℕ) : Prop where
  step : ∃ older e s₀ s₁, Run P B older s₀ ∧ Step P s₀ e s₁ ∧ e :: older <:+ trace ∧
    s₀.kernel.processes.get pid = none ∧
    ∃ Q, s₁.kernel.processes.get pid = some Q ∧ Q.mainTask = i

theorem CreatedAs.later {pid : ProcessId} {i : ℕ} (h : CreatedAs P B trace pid i) (e : Event) :
    CreatedAs P B (e :: trace) pid i := by
  obtain ⟨older,e₀,s₀,s₁,hrun,hstep,hsuffix,hrest⟩ := h.step
  exact ⟨older,e₀,s₀,s₁,hrun,hstep,hsuffix.trans (List.suffix_cons _ _),hrest⟩

theorem Run.evolves {a : Action} {o : Output} {s' : System} (h : Run P B trace s)
    (hstep : Step P s (a,o) s') : Evolves B.toBootMemory s.inits s.kernel s'.inits s'.kernel :=
  (h.stable.performs hstep).evolves h.stable

theorem Run.createdAs (h : Run P B trace s) : ∀ {i : ℕ} {t : Task} {pid : ProcessId},
    s.kernel.tasks[i]? = some t → t.processId = some pid → CreatedAs P B trace pid i := by
  refine Runs.trace_invariant (I := fun trace s => ∀ {i : ℕ} {t : Task} {pid : ProcessId},
    s.kernel.tasks[i]? = some t → t.processId = some pid → CreatedAs P B trace pid i) h ?_ ?_
  · rintro _ rfl i t pid ht
    simp [Boot.system] at ht
  · rintro trace s ⟨a,o⟩ s' hrun ih hstep i t pid ht hp
    have hr : Run P B trace s := hrun
    rcases (hr.evolves hstep).origin ht hp with ⟨t₀,ht₀,hp₀⟩ | ⟨hpid,hmain⟩
    · exact (ih ht₀ hp₀).later _
    · refine ⟨trace,_,s,s',hrun,hstep,List.suffix_refl _,?_,hmain⟩
      rw [hpid]
      exact hr.stable.core.forest.fresh

def createdPids (trace : List Event) : List ProcessId :=
  trace.filterMap fun e => match e.2 with
    | .process (.ok handle) => some handle.pid
    | _ => none

theorem Run.createdPids_nodup (h : Run P B trace s) :
    (createdPids trace).Nodup ∧ ∀ pid ∈ createdPids trace, pid < s.kernel.processes.nextPid := by
  refine Runs.trace_invariant (I := fun trace s => (createdPids trace).Nodup ∧
    ∀ pid ∈ createdPids trace, pid < s.kernel.processes.nextPid) h ?_ ?_
  · rintro _ rfl
    exact ⟨List.nodup_nil,by simp [createdPids]⟩
  · rintro trace s ⟨a,o⟩ s' hrun ⟨hnodup,hbelow⟩ hstep
    have hr : Run P B trace s := hrun
    have hle := ((hr.evolves hstep).table hr.stable.core).nextPid_le
    have hquiet : createdPids ((a,o) :: trace) = createdPids trace →
        (createdPids ((a,o) :: trace)).Nodup ∧
          ∀ pid ∈ createdPids ((a,o) :: trace), pid < s'.kernel.processes.nextPid := by
      intro heq
      rw [heq]
      exact ⟨hnodup,fun pid hpid => (hbelow pid hpid).trans_le hle⟩
    cases hr.stable.performs hstep with
    | processSpawned _ hspawn =>
      cases hspawn with
      | @intro _ _ pid _ _ _ _ hcreated =>
        change (pid :: createdPids trace).Nodup ∧ ∀ q ∈ pid :: createdPids trace, q < _
        have hpid := hcreated.pid_eq
        refine ⟨List.nodup_cons.mpr ⟨fun hmem => ?_,hnodup⟩,?_⟩
        · exact absurd (hbelow pid hmem) (by rw [hpid]; exact Nat.lt_irrefl _)
        · intro q hq
          rw [hcreated.nextPid]
          rcases List.mem_cons.mp hq with rfl | hq
          · rw [hpid]
            exact Nat.lt_succ_self _
          · exact Nat.lt_succ_of_lt (hbelow q hq)
    | @started _ c _ _ _ => cases c <;> exact hquiet rfl
    | _ => exact hquiet rfl

end

end VladOs
