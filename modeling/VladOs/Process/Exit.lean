import VladOs.Process.Forest

namespace VladOs

open ProcessTable

def exitTable (t : ProcessTable) (pid : ProcessId) (P : Process) (exit : ProcessExit) : ProcessTable :=
  P.children.foldl orphanChild (t.modify pid (exited exit))

def reapTable (t : ProcessTable) (parent child : ProcessId) : ProcessTable :=
  (t.modify parent (removeChild child)).remove child

structure ProcessExits (t : ProcessTable) (pid : ProcessId) (t' : ProcessTable) : Prop where
  nextPid : t'.nextPid = t.nextPid
  dead : ∀ {P'}, t'.get pid = some P' → P'.state ≠ .running
  kept : ∀ {q Q'}, t'.get q = some Q' → ∃ Q, t.get q = some Q ∧ Q'.mainTask = Q.mainTask ∧
    Q'.addressSpace = Q.addressSpace ∧ Q'.heap = Q.heap ∧ (q ≠ pid → Q'.state = Q.state)
  survives : ∀ {q Q}, t.get q = some Q → Q.state = .running → q ≠ pid → ∃ Q', t'.get q = some Q' ∧
    Q'.addressSpace = Q.addressSpace ∧ ∀ c ∈ Q.children, c ≠ pid → c ∈ Q'.children
  orphans : ∀ {c C}, t'.get c = some C → c ≠ pid → C.orphaned = true → C.state = .running

section

variable {t t' : ProcessTable} {pid parent : ProcessId} {P : Process} {exit : ProcessExit}

theorem get_exitTable (h : Forest t) (hP : t.get pid = some P) (q : ProcessId) :
    (exitTable t pid P exit).get q =
      if q = pid then (t.get q).map (exited exit)
      else if q ∈ P.children then (t.get q).bind orphanOrReap
      else t.get q :=
  get_markExited (h.nodup hP) (h.self_notMem hP) q

theorem get_exitTable_self (h : Forest t) (hP : t.get pid = some P) :
    (exitTable t pid P exit).get pid = some (exited exit P) := by
  rw [get_exitTable h hP,if_pos rfl,hP,Option.map_some]

theorem get_exitTable_parent (h : Forest t) (hP : t.get pid = some P) {parent : ProcessId} {Q : Process}
    (hQ : t.get parent = some Q) (hmem : pid ∈ Q.children) :
    (exitTable t pid P exit).get parent = some Q := by
  obtain ⟨_,-,hlt,-⟩ := h.child hQ hmem
  have hnot : parent ∉ P.children := by
    intro hc
    obtain ⟨_,-,hlt',-⟩ := h.child hP hc
    exact Nat.lt_asymm hlt hlt'
  rw [get_exitTable h hP,if_neg (Nat.ne_of_lt hlt),if_neg hnot,hQ]

theorem exitTable_nextPid : (exitTable t pid P exit).nextPid = t.nextPid := by
  unfold exitTable
  rw [foldl_orphanChild_nextPid,modify_nextPid]

theorem orphanOrReap_eq_some {Q Q' : Process} :
    orphanOrReap Q = some Q' ↔ Q.state = .running ∧ Q' = orphan Q := by
  unfold orphanOrReap
  by_cases hz : Q.state = .running
  · simp [Process.isZombie,hz,eq_comm]
  · simp [Process.isZombie,hz]

theorem processExits_exitTable (h : Forest t) (ho : OrphansRun t) (hP : t.get pid = some P) :
    ProcessExits t pid (exitTable t pid P exit) := by
  have hget := fun q => @get_exitTable t pid P exit h hP q
  refine ⟨exitTable_nextPid,?_,?_,?_,?_⟩
  · intro P' hP'
    rw [hget,if_pos rfl,hP,Option.map_some] at hP'
    cases hP'
    exact fun hc => by cases hc
  · intro q Q' hQ'
    rw [hget] at hQ'
    split at hQ'
    · next hq =>
      obtain ⟨Q,hQ,rfl⟩ := Option.map_eq_some_iff.mp hQ'
      exact ⟨Q,hQ,rfl,rfl,rfl,fun hne => absurd hq hne⟩
    · split at hQ'
      · obtain ⟨Q,hQ,hk⟩ := Option.bind_eq_some_iff.mp hQ'
        obtain ⟨-,rfl⟩ := orphanOrReap_eq_some.mp hk
        exact ⟨Q,hQ,rfl,rfl,rfl,fun _ => rfl⟩
      · exact ⟨Q',hQ',rfl,rfl,rfl,fun _ => rfl⟩
  · intro q Q hQ hrun hne
    rw [hget,if_neg hne,hQ]
    split
    · exact ⟨orphan Q,orphanOrReap_eq_some.mpr ⟨hrun,rfl⟩,rfl,fun c hc _ => hc⟩
    · exact ⟨Q,rfl,rfl,fun c hc _ => hc⟩
  · intro c C hC hne hor
    rw [hget,if_neg hne] at hC
    split at hC
    · obtain ⟨Q,-,hk⟩ := Option.bind_eq_some_iff.mp hC
      obtain ⟨hrun,rfl⟩ := orphanOrReap_eq_some.mp hk
      exact hrun
    · exact ho hC hor

namespace ProcessExits

theorem reapOrphan (h : ProcessExits t pid t') : ProcessExits t pid (t'.reapOrphanIfZombie pid) := by
  have hget : ∀ {q Q}, (t'.reapOrphanIfZombie pid).get q = some Q → t'.get q = some Q := by
    intro q Q hQ
    rw [get_reapOrphanIfZombie] at hQ
    split at hQ
    · obtain ⟨Q₀,hQ₀,hk⟩ := Option.bind_eq_some_iff.mp hQ
      unfold unlessDeadOrphan at hk
      split at hk
      · cases hk
      · cases hk
        exact hQ₀
    · exact hQ
  refine ⟨by rw [reapOrphanIfZombie_nextPid,h.nextPid],fun hP => h.dead (hget hP),
    fun hQ => h.kept (hget hQ),?_,fun hC => h.orphans (hget hC)⟩
  intro q Q hQ hrun hne
  rw [get_reapOrphanIfZombie,if_neg hne]
  exact h.survives hQ hrun hne

theorem reap (h : ProcessExits t pid t') : ProcessExits t pid (reapTable t' parent pid) := by
  have hget : ∀ {q Q}, (reapTable t' parent pid).get q = some Q → q ≠ pid ∧
      ∃ Q₀, t'.get q = some Q₀ ∧ (Q = Q₀ ∨ Q = removeChild pid Q₀) := by
    intro q Q hQ
    rw [reapTable,get_reapChild] at hQ
    split at hQ
    · cases hQ
    · next hq =>
      refine ⟨hq,?_⟩
      split at hQ
      · obtain ⟨Q₀,hQ₀,rfl⟩ := Option.map_eq_some_iff.mp hQ
        exact ⟨Q₀,hQ₀,Or.inr rfl⟩
      · exact ⟨Q,hQ,Or.inl rfl⟩
  refine ⟨h.nextPid,?_,?_,?_,?_⟩
  · intro P' hP'
    exact absurd rfl (hget hP').1
  · intro q Q' hQ'
    obtain ⟨-,Q₀,hQ₀,hQ | hQ⟩ := hget hQ'
    · rw [hQ]
      exact h.kept hQ₀
    · obtain ⟨Q,hrest⟩ := h.kept hQ₀
      rw [hQ]
      exact ⟨Q,hrest⟩
  · intro q Q hQ hrun hne
    obtain ⟨Q',hQ',hs,hch⟩ := h.survives hQ hrun hne
    rw [reapTable,get_reapChild,if_neg hne,hQ']
    split
    · refine ⟨removeChild pid Q',rfl,hs,fun c hc hcp => ?_⟩
      exact List.mem_filter.mpr ⟨hch c hc hcp,by simpa using hcp⟩
    · exact ⟨Q',rfl,hs,hch⟩
  · intro c C hC hne hor
    obtain ⟨-,C₀,hC₀,rfl | rfl⟩ := hget hC
    · exact h.orphans hC₀ hne hor
    · have hrun : C₀.state = .running := h.orphans hC₀ hne hor
      exact hrun

end ProcessExits

theorem OrphansRun.exitAlone (h : Forest t) (ho : OrphansRun t) (hP : t.get pid = some P) :
    OrphansRun ((exitTable t pid P exit).reapOrphanIfZombie pid) := by
  intro c C hC hor
  have hx : ProcessExits t pid ((exitTable t pid P exit).reapOrphanIfZombie pid) :=
    (processExits_exitTable h ho hP).reapOrphan
  by_cases hc : c = pid
  · subst hc
    have hdead := hx.dead hC
    rw [get_reapOrphanIfZombie,if_pos rfl] at hC
    obtain ⟨C₀,-,hk⟩ := Option.bind_eq_some_iff.mp hC
    unfold unlessDeadOrphan at hk
    split at hk
    · cases hk
    · next hz =>
      cases hk
      refine absurd ?_ hz
      rw [hor,Bool.true_and]
      simpa [Process.isZombie] using hdead
  · exact hx.orphans hC hc hor

theorem OrphansRun.exitReaped (h : Forest t) (ho : OrphansRun t) (hP : t.get pid = some P) :
    OrphansRun (reapTable (exitTable t pid P exit) parent pid) := by
  intro c C hC hor
  have hx : ProcessExits t pid (reapTable (exitTable t pid P exit) parent pid) :=
    (processExits_exitTable h ho hP).reap
  by_cases hc : c = pid
  · subst hc
    rw [reapTable,get_reapChild,if_pos rfl] at hC
    cases hC
  · exact hx.orphans hC hc hor

theorem OrphansRun.reaped (ho : OrphansRun t) (child : ProcessId) :
    OrphansRun (reapTable t parent child) := by
  intro c C hC hor
  rw [reapTable,get_reapChild] at hC
  split at hC
  · cases hC
  · split at hC
    · obtain ⟨C₀,hC₀,rfl⟩ := Option.map_eq_some_iff.mp hC
      have hrun : C₀.state = .running := ho hC₀ hor
      exact hrun
    · exact ho hC hor

theorem OrphansRun.modify (ho : OrphansRun t) {f : Process → Process}
    (hf : ∀ P, (f P).state = P.state ∧ (f P).orphaned = P.orphaned) : OrphansRun (t.modify pid f) := by
  intro c C hC hor
  rw [get_modify] at hC
  split at hC
  · obtain ⟨C₀,hC₀,rfl⟩ := Option.map_eq_some_iff.mp hC
    rw [(hf C₀).1]
    exact ho hC₀ ((hf C₀).2 ▸ hor)
  · exact ho hC hor

theorem OrphansRun.created (ho : OrphansRun t) {process : Process} {parent : Option ProcessId}
    (hrun : process.state = .running) (hc : Forest.Created t parent process pid t') :
    OrphansRun t' := by
  intro c C hC hor
  rw [hc.get] at hC
  split at hC
  · cases hC
    exact hrun
  · split at hC
    · obtain ⟨C₀,hC₀,rfl⟩ := Option.map_eq_some_iff.mp hC
      have hrun' : C₀.state = .running := ho hC₀ hor
      exact hrun'
    · exact ho hC hor

end

end VladOs
