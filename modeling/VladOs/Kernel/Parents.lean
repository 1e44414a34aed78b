import VladOs.Kernel.History
import VladOs.Kernel.Seats
import VladOs.Kernel.Progress

namespace VladOs

open Code FdTable ProcessTable Kernel Transition

section

variable {B : BootMemory} {P : Platform} {s s' : System} {a : Action} {o : Output}

theorem Stable.process_kept (h : Stable B s) (hp : Performs B s a o s')
    (htasks : ∀ {i : ℕ} {t' : Task} {pid}, s'.kernel.tasks[i]? = some t' → t'.processId = some pid →
      ∃ (j : ℕ) (t : Task), s.kernel.tasks[j]? = some t ∧ t.processId = some pid) {pid : ProcessId}
    {Q : Process} (hQ : s'.kernel.processes.get pid = some Q) :
    ∃ Q₀, s.kernel.processes.get pid = some Q₀ := by
  obtain ⟨v,hv,hvp⟩ := (hp.stable h).core.tasks.main hQ
  change s'.kernel.views[_]? = some v at hv
  rw [views_getElem?] at hv
  obtain ⟨t',ht',rfl⟩ := Option.map_eq_some_iff.mp hv
  obtain ⟨j,t,ht,htp⟩ := htasks ht' hvp
  have hlt := h.core.tasks.created (core_view ht) htp
  obtain ⟨Q₀,hQ₀,-⟩ := ((hp.evolves h).table h.core).kept h.core.forest hQ hlt
  exact ⟨Q₀,hQ₀⟩

theorem Stable.newParentsRun (h : Stable B s) (hp : Performs B s a o s') (ha : ParentRuns s a) :
    NewParentsRun s.kernel.processes s'.kernel.processes := by
  intro c p C Q exit hC hnone hparent hQ hz
  have hkept : (∃ C₀, s.kernel.processes.get c = some C₀) → False := by
    rintro ⟨C₀,hC₀⟩
    rw [hnone] at hC₀
    cases hC₀
  cases hp.seats h with
  | same hafter =>
    refine hkept (h.process_kept hp (fun {i t' pid} ht' hp' => ?_) hC)
    obtain ⟨t,ht,hseat⟩ := hafter.task ht'
    exact ⟨i,t,ht,hseat.process.symm.trans hp'⟩
  | kernel _ hsame =>
    rw [hsame] at hC
    exact hkept ⟨C,hC⟩
  | user _ hspawn =>
    generalize hk : s'.kernel = k' at hspawn hC
    cases hspawn with
    | @intro _ _ pid _ _ _ _ hcreated =>
      change ProcessTable.get _ c = some C at hC
      rw [hcreated.get] at hC
      split at hC
      · cases hC
        cases hparent
        have hrun := ha Q hQ
        rw [hz] at hrun
        cases hrun
      · split at hC
        · obtain ⟨C₀,hC₀,-⟩ := Option.map_eq_some_iff.mp hC
          exact hkept ⟨C₀,hC₀⟩
        · exact hkept ⟨C,hC⟩

end

section

variable {B : Boot} {P : Platform} {trace : List Event} {s : System}

structure ParentLaws (t : ProcessTable) : Prop where
  alive : ParentsAlive t
  collectable : ∀ {c p C exit}, t.get c = some C → C.parent = some p → C.state = .zombie exit →
    (t.reapChild p c).1 = .ok exit

theorem ParentsAlive.laws {t : ProcessTable} (h : ParentsAlive t) : ParentLaws t := by
  refine ⟨h,fun hC hparent hz => ?_⟩
  obtain ⟨Q,hQ,-,hmem⟩ := h _ _ _ hC hparent
  rw [reapChild_eq (isChild_iff.mpr ⟨Q,hQ,hmem⟩) hC hz]

theorem parents_stay_alive (h : CarefulRun P B trace s) : ParentLaws s.kernel.processes := by
  suffices hinv : Stable B.toBootMemory s ∧ ParentsAlive s.kernel.processes from hinv.2.laws
  refine Runs.invariant_when (I := fun s => Stable B.toBootMemory s ∧ ParentsAlive s.kernel.processes)
    ?_ ?_ h
  · rintro _ rfl
    refine ⟨B.stable,fun c p C hC => ?_⟩
    simp [Boot.system,ProcessTable.new,ProcessTable.get] at hC
  · rintro s ⟨a,o⟩ s' ⟨hst,halive⟩ hruns hstep
    have hp := hst.performs hstep
    exact ⟨hp.stable hst,halive.step hst.core.forest ((hp.evolves hst).table hst.core)
      (hst.newParentsRun hp hruns)⟩

theorem parents_stay_alive_family : ∃ trace s, CarefulRun standardPlatform smallMachine trace s ∧
    (∃ C, s.kernel.processes.get 2 = some C ∧ C.parent = some 1) ∧ ParentLaws s.kernel.processes := by
  obtain ⟨trace,s,hrun,hready⟩ := exists_familyReady smallMachine_roomy standardPlatform .yieldThenExit
  obtain ⟨C,hC,-,hparent⟩ := hready.child
  exact ⟨trace,s,hrun,⟨C,hC,hparent⟩,parents_stay_alive hrun⟩

theorem child_of_zombie : ∃ trace s, Run standardPlatform smallMachine trace s ∧
    ¬ ParentLaws s.kernel.processes := by
  obtain ⟨trace,s,hrun,hexited⟩ :=
    exists_rootExited smallMachine_roomy standardPlatform .yieldThenExit
  obtain ⟨t,htasks,hstack⟩ := hexited.tasks
  obtain ⟨table,o',hfiles⟩ := hexited.files
  obtain ⟨Q,exit,hQ,hz,-⟩ := hexited.process
  obtain ⟨init,hinit⟩ := hexited.init
  have hfirst : s.inits[0]? = some init := by rw [hinit]; rfl
  have hlen : s.kernel.tasks.length = 1 := by rw [htasks]; rfl
  have hparent : ∀ q, (some 1 : Option ProcessId) = some q →
      ∃ Q, s.kernel.processes.get q = some Q := by
    rintro q ⟨⟩
    exact ⟨Q,hQ⟩
  obtain ⟨pid,t',frames,hstep,hcreated⟩ := hrun.stable.spawns standardPlatform hfirst
    (stackFree_second htasks hstack) (by rw [hlen]; decide)
    (by rw [hexited.nextPid]; decide) hparent hfiles 0
  obtain rfl : pid = 2 := hcreated.pid_eq.trans hexited.nextPid
  refine ⟨_,_,hrun.after hstep,fun hlaws => ?_⟩
  have hchild : t'.get 2 = some _ := (hcreated.get 2).trans (if_pos rfl)
  obtain ⟨R,hR,hrunning,-⟩ := hlaws.alive _ 1 _ hchild rfl
  have hzombie : t'.get 1 = some (addChild 2 Q) := by
    rw [hcreated.get,if_neg (by decide),if_pos rfl,hQ]
    rfl
  change t'.get 1 = some R at hR
  rw [hzombie] at hR
  cases hR
  rw [show (addChild 2 Q).state = .zombie exit from hz] at hrunning
  cases hrunning

end

end VladOs
