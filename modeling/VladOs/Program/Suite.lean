import VladOs.Program.Running

namespace VladOs

open Amd64 Build Transition Kernel

inductive Executes (w : Hardware) (pid : ProcessId) (k : Command) (l : PrivateMachine) :
    List UInt8 → PrivateMachine → Prop where
  | once {a : Activity} {l' : PrivateMachine} : PrivateMachine.Step (w.only k) pid l a l' →
      l'.waiting = none → Executes w pid k l a.console l'
  | waited {child : ProcessId} {exit : ProcessExit} {l₁ l' : PrivateMachine} :
      PrivateMachine.Step (w.only k) pid l (.blocked child) l₁ →
      PrivateMachine.Step (w.only k) pid l₁ (.woken child exit) l' → Executes w pid k l [] l'

inductive Passed (w : Hardware) (pid : ProcessId) (l : PrivateMachine) :
    List Command → List (List UInt8) → PrivateMachine → Prop where
  | start : Passed w pid l [] [] l
  | next {done : List Command} {outputs : List (List UInt8)} {k : Command} {output : List UInt8}
      {l₁ l' : PrivateMachine} : Passed w pid l done outputs l₁ → k.holds l₁.view.pages l₁.registers.cpu →
      Executes w pid k l₁ output l' → Passed w pid l (done ++ [k]) (outputs ++ [output]) l'

inductive Verdict (k : Command) (l : PrivateMachine) : Ending → Prop where
  | exits {code : UInt64} : k = .exitWithCode code → Verdict k l (.exited code)
  | asked : k = .primitive .int0x80 → SyscallNumber.fromRaw l.registers.rax = some .exit →
      Verdict k l (.exited l.registers.rdi)
  | failed : ¬ k.holds l.view.pages l.registers.cpu → Verdict k l (.exited 1)
  | faulted {info : UserFaultInfo} : Verdict k l (.faulted info)

inductive Reached (w : Hardware) (pid : ProcessId) (base : ℕ) (script : List Command)
    (l₀ : PrivateMachine) (acts : List Activity) (l : PrivateMachine) : Prop where
  | between {done rest : List Command} {outputs : List (List UInt8)} {k : Command} :
      script = done ++ k :: rest → l.waiting = none → l.registers.rip.toNat = base + (codeOf done).length →
      Passed w pid l₀ done outputs l → spoken outputs.reverse = spoken (acts.map Activity.console) →
      Reached w pid base script l₀ acts l
  | inside {done rest : List Command} {outputs : List (List UInt8)} {j k : Command} {child : ProcessId}
      {l₁ : PrivateMachine} : script = done ++ k :: j :: rest → Passed w pid l₀ done outputs l₁ →
      k.holds l₁.view.pages l₁.registers.cpu → PrivateMachine.Step (w.only k) pid l₁ (.blocked child) l →
      l.registers.rip.toNat = base + (codeOf (done ++ [k])).length →
      spoken outputs.reverse = spoken (acts.map Activity.console) → Reached w pid base script l₀ acts l

section

variable {w : Hardware} {script : List Command} {base : ℕ} {pid : ProcessId} {l l' l₀ l₁ : PrivateMachine}
  {k : Command} {a : Activity} {acts : List Activity} {e : Ending}

theorem fromRaw_asks {number : UInt32}
    (h : number ∈ [SYS_YIELD,SYS_WRITE,SYS_WAITPID,SYS_OPEN,SYS_READ,SYS_CLOSE,SYS_BRK]) :
    SyscallNumber.fromRaw (signed32 number) ≠ some .exit := by
  have hall : [SYS_YIELD,SYS_WRITE,SYS_WAITPID,SYS_OPEN,SYS_READ,SYS_CLOSE,SYS_BRK].all
      (fun number => SyscallNumber.fromRaw (signed32 number) != some .exit) = true := rfl
  simpa using List.all_eq_true.mp hall number h

theorem Build.Command.holds_of_silent (h : k.falls = false ∨ ∃ q, k = .primitive q) {view : Paging.View}
    {c : Cpu} : k.holds view c := by
  rcases h with hstop | ⟨q,rfl⟩
  · cases k with
    | primitive q => trivial
    | exitWithCode code => trivial
    | _ => cases hstop
  · trivial

theorem Continues.holds (h : Continues (w.only k) l l₁) : k.holds l.view.pages l.registers.cpu := by
  by_cases hsilent : k.falls = false ∨ ∃ q, k = .primitive q
  · exact Command.holds_of_silent hsilent
  · push Not at hsilent
    obtain ⟨hfalls,hprimitive⟩ := hsilent
    have houtcome : Build.Outcome _ _ (k.result w.processor l.view.pages l.registers.cpu) :=
      k.outcome (by simpa using hfalls) hprimitive _
    cases h with
    | compute he =>
      obtain ⟨c',raw,hr,-,-⟩ := Hardware.effect_compute he
      rw [hr] at houtcome
      cases houtcome with
      | proceeds hholds => exact hholds
    | call he hexit =>
      obtain ⟨c',hr,rfl⟩ := Hardware.effect_call he
      rw [hr] at houtcome
      cases houtcome with
      | asks hholds => exact hholds
      | fails _ hrax =>
        refine absurd ?_ hexit
        change SyscallNumber.fromRaw (c'.regs .rax) = _
        rw [hrax]
        rfl

theorem Build.Primitive.traps {q : Primitive} {p : Processor} {view : Paging.View} {c c' : Cpu}
    (h : (Command.primitive q).result p view c = .trap 0x80 c') :
    q = .int0x80 ∧ c' = c.goTo (c.rip + UInt64.ofNat (Insn.int 0x80).size) := by
  change p.exec view q.insn c = _ at h
  cases q with
  | int0x80 =>
    cases h
    exact ⟨rfl,rfl⟩
  | storeRaxAtRbx | storeRdiAtRbx | storeOneAtRax | loadRdiAtRbx | loadRaxAtRbx | incAtRbx =>
    simp only [Primitive.insn,Processor.exec] at h
    obtain ⟨bytes,hbytes⟩ := reading_target (by rw [h]; rfl)
    cases hbytes.symm.trans h
  | _ => cases h

theorem PrivateMachine.Ends.verdict (h : PrivateMachine.Ends (w.only k) l e) : Verdict k l e := by
  cases h with
  | fault => exact .faulted
  | @exit next hwait he hexit =>
    obtain ⟨c',hr,rfl⟩ := Hardware.effect_call he
    change SyscallNumber.fromRaw (c'.regs .rax) = _ at hexit
    change Verdict k l (.exited (c'.regs .rdi))
    by_cases hprimitive : ∃ q, k = .primitive q
    · obtain ⟨q,rfl⟩ := hprimitive
      obtain ⟨rfl,rfl⟩ := Primitive.traps hr
      exact .asked rfl hexit
    · by_cases hfalls : k.falls = true
      · have houtcome : Build.Outcome _ _ (k.result w.processor l.view.pages l.registers.cpu) :=
          k.outcome hfalls (fun q hq => hprimitive ⟨q,hq⟩) _
        rw [hr] at houtcome
        cases houtcome with
        | asks _ _ hrax hnumber =>
          rw [hrax] at hexit
          exact absurd hexit (fromRaw_asks hnumber)
        | fails hnot _ hrdi =>
          rw [hrdi]
          exact .failed hnot
      · cases k with
        | primitive q => exact absurd ⟨q,rfl⟩ hprimitive
        | exitWithCode code =>
          cases hr
          exact .exits rfl
        | _ => exact absurd rfl hfalls

theorem spin_still (hwait : l.waiting = none)
    (h : PrivateMachine.Step (w.only (.primitive .spin)) pid l a l') : a = .compute ∧ l' = l := by
  have hspin : (w.only (.primitive .spin)).effect l.registers l.view.pages = .compute l.registers [] := by
    have hback : l.registers.rip + 2 + signed8 0xfe = l.registers.rip := by
      rw [show signed8 0xfe = -2 from rfl]
      grind
    change Effect.compute
      (l.registers.withCpu (l.registers.cpu.goTo (l.registers.rip + 2 + signed8 0xfe))) [] = _
    rw [hback]
    rfl
  obtain ⟨ha,rfl⟩ := (forced_of_compute hwait hspin).only h
  cases a with
  | compute => exact ⟨rfl,rfl⟩
  | _ => cases ha

theorem PrivateMachine.Step.blocks {isa : Isa} (h : PrivateMachine.Step isa pid l a l')
    (hwait : l.waiting = none) (hwait' : l'.waiting ≠ none) : ∃ child, a = .blocked child := by
  cases h with
  | blocked => exact ⟨_,rfl⟩
  | woken hw => cases hwait.symm.trans hw
  | _ => exact absurd hwait hwait'

theorem spoken_cons {xs ys : List (List UInt8)} (x : List UInt8) (h : spoken xs = spoken ys) :
    spoken (x :: xs) = spoken (x :: ys) := by
  unfold spoken at h ⊢
  rw [List.filter_cons,List.filter_cons,h]

theorem spoken_snoc {outputs : List (List UInt8)} (a : Activity)
    (h : spoken outputs.reverse = spoken (acts.map Activity.console)) :
    spoken (outputs ++ [a.console]).reverse = spoken ((a :: acts).map Activity.console) := by
  rw [List.reverse_append,List.map_cons]
  exact spoken_cons _ h

theorem Reached.step (h : Reached w pid base script l₀ acts l) (hclosed : closed none script = true)
    (hstraight : ∀ k ∈ script, k.jumpsBack = false) (hlow : base + (codeOf script).length ≤ 2 ^ 47)
    (hstep : PrivateMachine.Step (w.script base script) pid l a l') :
    Reached w pid base script l₀ (a :: acts) l' := by
  cases h with
  | @between done rest outputs k hscript hwait hrip hpassed hspoken =>
    have hk : Boundary script base l.registers.rip.toNat k := ⟨done,rest,hscript,hrip⟩
    have honly := hstep.congr hk.effect.symm
    have hcontinues := honly.continues hwait
    obtain ⟨c',hlands,hrip'⟩ := hcontinues.lands
    cases hlands with
    | back hback =>
      subst hback
      cases hstraight _ (hscript ▸ List.mem_append_right _ List.mem_cons_self)
    | spins hspin =>
      subst hspin
      obtain ⟨rfl,rfl⟩ := spin_still hwait honly
      exact .between hscript hwait hrip hpassed hspoken
    | falls hfalls hnext =>
      have hbound := hk.bounded hlow
      have haddress : l'.registers.rip.toNat = base + (codeOf (done ++ [k])).length := by
        rw [hrip',hnext,show l.registers.cpu.rip = l.registers.rip from rfl,toNat_add_ofNat hbound,hrip,
          codeOf_append,codeOf_cons,List.length_append,List.length_append,Command.size,Nat.add_assoc]
        rfl
      obtain ⟨j,rest,rfl⟩ := List.exists_cons_of_ne_nil ((closed_split (hscript ▸ hclosed)).1 hfalls)
      by_cases hwait' : l'.waiting = none
      · exact .between (hscript.trans (List.append_cons ..)) hwait' haddress
          (hpassed.next hcontinues.holds (.once honly hwait')) (spoken_snoc a hspoken)
      · obtain ⟨child,rfl⟩ := honly.blocks hwait hwait'
        exact .inside hscript hpassed hcontinues.holds honly haddress hspoken
  | @inside done rest outputs j k child l₁ hscript hpassed hholds honly hrip hspoken =>
    obtain ⟨statusPtr,hwaiting⟩ : ∃ statusPtr, l.waiting = some (child,statusPtr) := by
      cases honly
      exact ⟨_,rfl⟩
    cases hstep with
    | @woken child' statusPtr' exit pages' hw hput =>
      cases hwaiting.symm.trans hw
      exact .between (hscript.trans (List.append_cons ..)) rfl hrip
        (hpassed.next hholds (.waited honly (.woken hw hput))) (spoken_snoc (.woken child exit) hspoken)
    | compute hw | call hw | exhausted hw | unknown hw | yielded hw | waitRefused hw | stillRunning hw
    | collected hw | blocked hw => cases hw.symm.trans hwaiting

theorem Reached.run (hclosed : closed none script = true) (hstraight : ∀ k ∈ script, k.jumpsBack = false)
    (hlow : base + (codeOf script).length ≤ 2 ^ 47) (hwait : l₀.waiting = none)
    (hstart : l₀.registers.rip.toNat = base)
    (hrun : Runs (· = l₀) (PrivateMachine.Step (w.script base script) pid) acts l) :
    Reached w pid base script l₀ acts l := by
  induction hrun with
  | start h =>
    subst h
    cases script with
    | nil => cases hclosed
    | cons k rest => exact .between (List.nil_append _).symm hwait (by simpa [codeOf] using hstart) .start rfl
  | next _ hstep ih => exact ih.step hclosed hstraight hlow hstep

theorem Reached.verdict (h : Reached w pid base script l₀ acts l)
    (hends : PrivateMachine.Ends (w.script base script) l e) : ∃ done k rest outputs,
      script = done ++ k :: rest ∧ Passed w pid l₀ done outputs l ∧
      spoken outputs.reverse = spoken (acts.map Activity.console) ∧ Verdict k l e := by
  cases h with
  | @between done rest outputs k hscript hwait hrip hpassed hspoken =>
    have hk : Boundary script base l.registers.rip.toNat k := ⟨done,rest,hscript,hrip⟩
    exact ⟨done,k,rest,outputs,hscript,hpassed,hspoken,(hends.congr hk.effect.symm).verdict⟩
  | inside _ _ _ honly =>
    cases honly
    cases hends with
    | exit hw => cases hw
    | fault hw => cases hw

end

def Build.Command.steady : Command → Bool
  | .exitWithCode _ | .primitive .int0x80 | .primitive .jmpBackToInc => false
  | _ => true

section

variable {checks done rest : List Command} {k : Command} {l : PrivateMachine} {outputs : List (List UInt8)}
  {events : List Observation} {pid : ProcessId} {output : List UInt8}

theorem steady_straight (h : ∀ k ∈ checks, k.steady = true) :
    ∀ k ∈ checks ++ [.exitWithCode 0], k.jumpsBack = false := by
  intro k hmem
  rcases List.mem_append.mp hmem with hmem | hmem
  · have hsteady := h k hmem
    cases k with
    | primitive q =>
      cases q with
      | jmpBackToInc => cases hsteady
      | _ => rfl
    | _ => rfl
  · rw [List.mem_singleton.mp hmem]
    rfl

theorem Verdict.last (h : Verdict k l (.exited 0)) (hscript : done ++ k :: rest = checks ++ [.exitWithCode 0])
    (hsteady : ∀ k ∈ checks, k.steady = true) : done = checks ∧ k = .exitWithCode 0 := by
  have hleaves : k.steady = false := by
    generalize he : Ending.exited 0 = e at h
    cases h with
    | exits hk | asked hk =>
      rw [hk]
      rfl
    | failed => cases he
    | faulted => cases he
  rcases List.eq_nil_or_concat rest with rfl | ⟨rest,last,rfl⟩
  · obtain ⟨hdone,hk⟩ := List.append_inj' hscript rfl
    exact ⟨hdone,List.singleton_inj.mp hk⟩
  · rw [List.concat_eq_append,← List.cons_append,← List.append_assoc] at hscript
    have hchecks := (List.append_inj' hscript rfl).1
    have hmem : k ∈ checks := hchecks ▸ List.mem_append_right _ List.mem_cons_self
    cases (hsteady k hmem).symm.trans hleaves

theorem printed_spoken (h : spoken outputs.reverse =
      spoken ((events.filter (·.happening.isOf pid)).map Observation.printed))
    (hmem : ⟨.instruction pid,output⟩ ∈ events) (hne : output ≠ []) : output ∈ outputs := by
  have hevent : (⟨.instruction pid,output⟩ : Observation) ∈ events.filter (·.happening.isOf pid) :=
    List.mem_filter.mpr ⟨hmem,by simp [Happening.isOf]⟩
  have hspoken : output ∈ spoken outputs.reverse := by
    rw [h]
    exact List.mem_filter.mpr ⟨List.mem_map_of_mem hevent,by simpa using hne⟩
  exact List.mem_reverse.mp (List.mem_of_mem_filter hspoken)

end

section

variable {pid : ProcessId} {i : ℕ} {m : SharedMachine} {e e' : Ending}

theorem SharedMachine.Gone.unique (h : m.Gone pid i e) (h' : m.Gone pid i e') : e = e' := by
  obtain ⟨t,ht,-,hended⟩ := h
  obtain ⟨t',ht',-,hended'⟩ := h'
  cases ht.symm.trans ht'
  cases e with
  | exited code =>
    cases e' with
    | exited code' => rw [Option.some.inj (hended.2.1.symm.trans hended'.2.1)]
    | faulted info => cases hended.1.symm.trans hended'.1
  | faulted info =>
    cases e' with
    | exited code => cases hended.1.symm.trans hended'.1
    | faulted info' => rw [Option.some.inj (hended.2.2.symm.trans hended'.2.2)]

end

section

variable {B : Boot} {P : Platform} {w : Hardware} {base : ℕ} {script : List Command} {k : Command}
  {p : Program} {arg0 : UInt64} {handle : UserProcessHandle} {pid : ProcessId} {i : ℕ} {l : PrivateMachine}
  {s : System} {cpu : TrapFrame} {m m' : SharedMachine} {trace : List Event} {later : List Observation}
  {e : Ending}

theorem Begun.verdict {events : List Observation} (h : Begun script arg0 l)
    (hclosed : closed none script = true) (hstraight : ∀ k ∈ script, k.jumpsBack = false)
    (hmirrored : Mirrored w.amd64 pid i l m events) (hst : Stable B.toBootMemory m.system)
    (hgone : m.Gone pid i e) :
    ∃ done k rest outputs l', script = done ++ k :: rest ∧ Passed w pid l done outputs l' ∧
      spoken outputs.reverse = spoken (events.map Observation.printed) ∧ Verdict k l' e := by
  cases h.linked.obeys hclosed hmirrored with
  | alive _ _ hl' _ => cases (hgone.process hst).symm.trans hl'
  | ended hcoarse hspoken hends hgone' =>
    obtain rfl := hgone.unique hgone'
    have hreached := Reached.run hclosed hstraight h.linked.installed.present.low h.waiting h.start hcoarse
    obtain ⟨done,k,rest,outputs,hscript,hpassed,hsame,hverdict⟩ := hreached.verdict hends
    exact ⟨done,k,rest,outputs,_,hscript,hpassed,hsame.trans hspoken,hverdict⟩

theorem Launched.followed (h : Launched P B p arg0 handle s) (hclosed : closed none p.script = true)
    (hload : Loadable USER_CODE_BASE p.segments)
    (hlater : Runs (· = ⟨s,cpu⟩)
      (fun m e m' => Observed P w.amd64 m e m' ∧ e.happening.spares handle.taskId) later m') :
    ∃ l, SharedMachine.process ⟨s,cpu⟩ handle.pid = some l ∧ Begun p.script arg0 l ∧
      Mirrored w.amd64 handle.pid handle.taskId l m' (later.filter (·.happening.isOf handle.pid)) ∧
      Stable B.toBootMemory m'.system := by
  obtain ⟨trace,hrun⟩ := h.run
  obtain ⟨hown,l,hl,hbegun⟩ := h.begins hclosed hload cpu
  obtain ⟨⟨⟨trace',hrun'⟩,-⟩,hmirrored⟩ := machine_projects.followed ⟨⟨trace,hrun⟩,hown⟩ hl hlater
  exact ⟨l,hl,hbegun,hmirrored,hrun'.stable⟩

theorem process_runs_script (h : Run P B trace m.system) (hown : m.Owns pid i)
    (hl : m.process pid = some l) (hclosed : closed none script = true)
    (hcode : Installed base (emitAll script []) l.view)
    (hplace : Boundary script base l.registers.rip.toNat k)
    (hlater : Runs (· = m) (fun m e m' => Observed P w.amd64 m e m' ∧ e.happening.spares i) later m') :
    Obeys w base script pid i l m' (later.filter (·.happening.isOf pid)) := by
  rw [emitAll_eq,List.nil_append] at hcode
  have hlinked : Linked script base l l := ⟨.refl l,hcode,k,hplace⟩
  exact hlinked.obeys hclosed (machine_projects.followed ⟨⟨trace,h⟩,hown⟩ hl hlater).2

theorem process_runs_script_hello : ∃ trace m pid i l later m',
    Run standardPlatform smallMachine trace m.system ∧ m.Owns pid i ∧ m.process pid = some l ∧
    Installed USER_CODE_BASE (emitAll writeHello.script []) l.view ∧
    Runs (· = m) (fun m e m' =>
      Observed standardPlatform plainHardware.amd64 m e m' ∧ e.happening.spares i) later m' ∧
    ⟨.instruction pid,helloMessage⟩ ∈ later ∧ m'.Gone pid i (.exited 0) ∧
    Obeys plainHardware USER_CODE_BASE writeHello.script pid i l m'
      (later.filter (·.happening.isOf pid)) := by
  obtain ⟨handle,s,later,m',hlaunched,hlater,-,hsaid,hgone⟩ := exists_hello plainHardware
  obtain ⟨trace,hrun⟩ := hlaunched.run
  have hfits : writeHello.fits = true := by decide
  obtain ⟨hown,l,hl,hbegun⟩ := hlaunched.begins (by decide) (Program.fits.loadable hfits) (.ofCall 0 0 0 0)
  have hcode : Installed USER_CODE_BASE (emitAll writeHello.script []) l.view := by
    rw [emitAll_eq,List.nil_append]
    exact hbegun.linked.installed
  exact ⟨trace,_,_,_,l,later,m',hrun,hown,hl,hcode,hlater,hsaid,hgone,process_runs_script hrun hown hl
    (by decide) hcode ⟨[],_,rfl,hbegun.start⟩ hlater⟩

theorem built_program_runs_script (h : Launched P B p arg0 handle s)
    (hclosed : closed none p.script = true) (hload : Loadable USER_CODE_BASE p.segments)
    (hlater : Runs (· = ⟨s,cpu⟩)
      (fun m e m' => Observed P w.amd64 m e m' ∧ e.happening.spares handle.taskId) later m') :
    ∃ l, SharedMachine.process ⟨s,cpu⟩ handle.pid = some l ∧ Begun p.script arg0 l ∧
      Obeys w USER_CODE_BASE p.script handle.pid handle.taskId l m'
        (later.filter (·.happening.isOf handle.pid)) := by
  obtain ⟨l,hl,hbegun,hmirrored,-⟩ := h.followed hclosed hload hlater
  exact ⟨l,hl,hbegun,hbegun.linked.obeys hclosed hmirrored⟩

theorem built_program_runs_script_hello : ∃ handle s later m' l,
    Launched standardPlatform smallMachine writeHello 0 handle s ∧
    Runs (· = ⟨s,.ofCall 0 0 0 0⟩) (fun m e m' =>
      Observed standardPlatform plainHardware.amd64 m e m' ∧ e.happening.spares handle.taskId) later m' ∧
    ⟨.instruction handle.pid,helloMessage⟩ ∈ later ∧ m'.Gone handle.pid handle.taskId (.exited 0) ∧
    Begun writeHello.script 0 l ∧
    Obeys plainHardware USER_CODE_BASE writeHello.script handle.pid handle.taskId l m'
      (later.filter (·.happening.isOf handle.pid)) := by
  obtain ⟨handle,s,later,m',hlaunched,hlater,-,hsaid,hgone⟩ := exists_hello plainHardware
  have hfits : writeHello.fits = true := by decide
  obtain ⟨l,-,hbegun,hobeys⟩ := built_program_runs_script hlaunched (by decide)
    (Program.fits.loadable hfits) hlater
  exact ⟨handle,s,later,m',l,hlaunched,hlater,hsaid,hgone,hbegun,hobeys⟩

theorem fixture_runs_script (hp : p ∈ fixtures) (h : Launched P B p arg0 handle s)
    (hlater : Runs (· = ⟨s,cpu⟩)
      (fun m e m' => Observed P w.amd64 m e m' ∧ e.happening.spares handle.taskId) later m') :
    ∃ l, SharedMachine.process ⟨s,cpu⟩ handle.pid = some l ∧ Begun p.script arg0 l ∧
      Obeys w USER_CODE_BASE p.script handle.pid handle.taskId l m'
        (later.filter (·.happening.isOf handle.pid)) := by
  have hclosed := fixtures_closed p hp
  obtain ⟨l,hl,hbegun,hmirrored,-⟩ := h.followed hclosed (Program.fits.loadable (fixtures_fit p hp)) hlater
  exact ⟨l,hl,hbegun,hbegun.linked.obeys hclosed hmirrored⟩

theorem built_program_verdict (h : Launched P B p arg0 handle s) (hclosed : closed none p.script = true)
    (hload : Loadable USER_CODE_BASE p.segments) (hstraight : ∀ k ∈ p.script, k.jumpsBack = false)
    (hlater : Runs (· = ⟨s,cpu⟩)
      (fun m e m' => Observed P w.amd64 m e m' ∧ e.happening.spares handle.taskId) later m')
    (hgone : m'.Gone handle.pid handle.taskId e) : ∃ l done k rest outputs l',
      SharedMachine.process ⟨s,cpu⟩ handle.pid = some l ∧ Begun p.script arg0 l ∧
      p.script = done ++ k :: rest ∧ Passed w handle.pid l done outputs l' ∧
      spoken outputs.reverse = spoken ((later.filter (·.happening.isOf handle.pid)).map Observation.printed) ∧
      Verdict k l' e := by
  obtain ⟨l,hl,hbegun,hmirrored,hst⟩ := h.followed hclosed hload hlater
  obtain ⟨done,k,rest,outputs,l',hverdict⟩ := hbegun.verdict hclosed hstraight hmirrored hst hgone
  exact ⟨l,done,k,rest,outputs,l',hl,hbegun,hverdict⟩

theorem built_program_verdict_hello : ∃ handle s l outputs l',
    Launched standardPlatform smallMachine writeHello 0 handle s ∧
    Passed plainHardware handle.pid l
      [.writeSyscall 1 userData (lenU64 helloMessage),.checkRaxEqContinue (lenU64 helloMessage)] outputs l' ∧
    helloMessage ∈ outputs ∧ Verdict (.exitWithCode 0) l' (.exited 0) := by
  obtain ⟨handle,s,later,m',hlaunched,hlater,-,hsaid,hgone⟩ := exists_hello plainHardware
  have hfits : writeHello.fits = true := by decide
  obtain ⟨l,done,k,rest,outputs,l',-,-,hscript,hpassed,hspoken,hverdict⟩ := built_program_verdict hlaunched
    (by decide) (Program.fits.loadable hfits) (by decide) hlater hgone
  have hsplit : done ++ k :: rest = [.writeSyscall 1 userData (lenU64 helloMessage),
    .checkRaxEqContinue (lenU64 helloMessage)] ++ [.exitWithCode 0] := hscript.symm
  obtain ⟨rfl,rfl⟩ := hverdict.last hsplit (by decide)
  exact ⟨handle,s,l,outputs,l',hlaunched,hpassed,printed_spoken hspoken hsaid (by decide),hverdict⟩

theorem fixture_passes {checks : List Command} (hp : p ∈ fixtures)
    (hscript : p.script = checks ++ [.exitWithCode 0]) (hsteady : ∀ k ∈ checks, k.steady = true)
    (h : Launched P B p arg0 handle s)
    (hlater : Runs (· = ⟨s,cpu⟩)
      (fun m e m' => Observed P w.amd64 m e m' ∧ e.happening.spares handle.taskId) later m')
    (hgone : m'.Gone handle.pid handle.taskId (.exited 0)) : ∃ l outputs l',
      SharedMachine.process ⟨s,cpu⟩ handle.pid = some l ∧ Begun p.script arg0 l ∧
      Passed w handle.pid l checks outputs l' ∧ spoken outputs.reverse =
        spoken ((later.filter (·.happening.isOf handle.pid)).map Observation.printed) := by
  have hclosed := fixtures_closed p hp
  obtain ⟨l,hl,hbegun,hmirrored,hst⟩ := h.followed hclosed (Program.fits.loadable (fixtures_fit p hp)) hlater
  obtain ⟨done,k,rest,outputs,l',hsplit,hpassed,hspoken,hverdict⟩ := hbegun.verdict hclosed
    (hscript ▸ steady_straight hsteady) hmirrored hst hgone
  obtain ⟨rfl,-⟩ := hverdict.last (hsplit.symm.trans hscript) hsteady
  exact ⟨l,outputs,l',hl,hbegun,hpassed,hspoken⟩

end

end VladOs
