import VladOs.Kernel.History
import VladOs.Kernel.Progress

namespace VladOs

open Code ProcessTable Kernel Transition

section

variable {B : Boot} {P : Platform} {trace : List Event} {s : System}

structure SchedulerLaws (P : Platform) (B : Boot) (trace : List Event) (s : System) : Prop where
  oneRunning : ∀ {i j}, s.kernel.StateAt i .running → s.kernel.StateAt j .running → i = j
  current : ∀ i, s.kernel.current = some i ↔ s.kernel.StateAt i .running
  id : ∀ {i : ℕ} {t : Task}, s.kernel.tasks[i]? = some t → t.id = i
  created : ∀ {i : ℕ} {t : Task} {pid}, s.kernel.tasks[i]? = some t → t.processId = some pid →
    CreatedAs P B trace pid i
  unique : ∀ {i j : ℕ} {t u : Task} {pid}, s.kernel.tasks[i]? = some t → s.kernel.tasks[j]? = some u →
    t.processId = some pid → u.processId = some pid → i = j
  live : ∀ {i : ℕ} {t : Task} {pid}, s.kernel.tasks[i]? = some t → t.processId = some pid →
    (t.state.terminal = false ↔ s.kernel.processes.state pid = some .running)
  safe : ∀ {a : Action}, Enabled s a → a.Admissible → System.perform P a s ≠ .panic

theorem terminal_iff {state : TaskState} : state.terminal = false ↔ state.phase ≠ .ended := by
  cases state with
  | blocked reason => cases reason; simp [TaskState.terminal,TaskState.phase]
  | _ => simp [TaskState.terminal,TaskState.phase]

theorem scheduler_consistent (h : Run P B trace s) : SchedulerLaws P B trace s where
  oneRunning hi hj := by
    have hsched := h.stable.scheduled
    exact Option.some.inj (((hsched.current _).mpr hi).symm.trans ((hsched.current _).mpr hj))
  current := h.stable.scheduled.current
  id ht := h.stable.core.tasks.id (core_view ht)
  created := h.createdAs
  unique ht hu hp hq := h.stable.core.tasks.unique (core_view ht) (core_view hu) hp hq
  live ht hp := terminal_iff.trans (h.stable.core.tasks.live (core_view ht) hp)
  safe henabled hadm := (h.stable.perform_spec P henabled hadm).not_panic

theorem scheduler_consistent_root : ∃ trace s, Run standardPlatform smallMachine trace s ∧
    s.kernel.current = some 0 ∧ SchedulerLaws standardPlatform smallMachine trace s := by
  obtain ⟨trace,s,hrun,hroot⟩ := exists_rootRunning smallMachine_roomy standardPlatform .yieldThenExit
  exact ⟨trace,s,hrun,hroot.current,scheduler_consistent hrun⟩

structure TableLaws (t : ProcessTable) : Prop where
  slots : t.processes = [] ∨ t.processes.length = 17
  slot : ∀ {i Q}, t.get i = some Q → Q.pid = i ∧ 1 ≤ i ∧ i < t.nextPid
  nextPid_le : t.nextPid ≤ 17
  child : ∀ {p Q c}, t.get p = some Q → c ∈ Q.children →
    ∃ C, t.get c = some C ∧ p < c ∧ C.parent = some p
  nodup : ∀ {p Q}, t.get p = some Q → Q.children.Nodup
  unique : ∀ {p q Q R c}, t.get p = some Q → t.get q = some R → c ∈ Q.children → c ∈ R.children → p = q
  orphan : ∀ {c C}, t.get c = some C → C.orphaned = true →
    C.parent = none ∧ (∀ {p Q}, t.get p = some Q → c ∉ Q.children) ∧ ∀ exit, C.state ≠ .zombie exit

theorem Forest.laws {t : ProcessTable} (h : Forest t) (ho : OrphansRun t) : TableLaws t where
  slots := h.slots
  slot := h.slot
  nextPid_le := h.nextPid_le
  child := h.child
  nodup := h.nodup
  unique hQ hR hc hc' := h.child_unique hQ hR hc hc'
  orphan := by
    intro c C hC hor
    refine ⟨h.orphan hC hor,?_,?_⟩
    · intro p Q hQ hmem
      obtain ⟨C',hC',-,hparent⟩ := h.child hQ hmem
      rw [hC] at hC'
      cases hC'
      rw [h.orphan hC hor] at hparent
      cases hparent
    · intro exit hz
      rw [ho hC hor] at hz
      cases hz

theorem processes_form_forest (h : Run P B trace s) :
    TableLaws s.kernel.processes ∧ (createdPids trace).Nodup :=
  ⟨h.stable.core.forest.laws h.stable.core.orphans,h.createdPids_nodup.1⟩

theorem processes_form_forest_family : ∃ trace s, Run standardPlatform smallMachine trace s ∧
    (∃ Q, s.kernel.processes.get 1 = some Q ∧ 2 ∈ Q.children) ∧
    TableLaws s.kernel.processes ∧ (createdPids trace).Nodup := by
  obtain ⟨trace,s,hcareful,hready⟩ := exists_familyReady smallMachine_roomy standardPlatform .yieldThenExit
  have hrun := hcareful.run
  obtain ⟨Q,hQ,-,hch⟩ := hready.parent
  exact ⟨trace,s,hrun,⟨Q,hQ,by rw [hch]; exact List.mem_singleton_self _⟩,processes_form_forest hrun⟩

end

end VladOs
