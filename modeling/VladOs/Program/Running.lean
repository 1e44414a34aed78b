import VladOs.Program.Launch

namespace VladOs

open Amd64 Build Stuttering Transition Paging Kernel

section

variable {B : Boot} {P : Platform} {isa : Isa} {w : Hardware} {m : SharedMachine} {pid : ProcessId} {i : ℕ}
  {l : PrivateMachine} {next : TrapFrame} {d : Cpu} {trace : List Event} {c : Call} {r : Except SysError ℕ}
  {console : List UInt8} {v : ProcessView}

theorem SharedMachine.computes (h : Run P B trace m.system) (hpid : m.system.kernel.currentPid = some pid)
    (hl : m.process pid = some l) (he : isa.effect l.registers l.view.pages = .compute next []) :
    SharedStep P isa m (.instruction pid) ⟨m.system,next⟩ ∧
      SharedMachine.process ⟨m.system,next⟩ pid = some { l with registers := next } := by
  have hst := h.stable
  refine ⟨.compute hpid hl he .nil,?_⟩
  obtain ⟨i,t,Q,hosted,rfl⟩ := (SharedMachine.process_eq hst).mp hl
  obtain ⟨j,u,hcur,hu,hup⟩ := currentPid_eq.mp hpid
  obtain rfl := hst.core.tasks.unique (core_view hu) (core_view hosted.task) hup hosted.process
  have hrunning := (hst.current_iff hosted.task).mp hcur
  refine (SharedMachine.process_eq (m := ⟨m.system,next⟩) hst).mpr ⟨j,t,Q,hosted,?_⟩
  simp only [SharedMachine.contextOf,SharedMachine.registers,if_pos hrunning]

theorem silent_run {n : ℕ} {c : Cpu} (h : Run P B trace m.system)
    (hpid : m.system.kernel.currentPid = some pid)
    (hl : m.process pid = some { l with registers := l.registers.withCpu c })
    (hchain : Chain (w.processor.Silent l.view.pages) n c d) :
    ∃ later m', Runs (· = m) (fun m e m' => Observed P w.amd64 m e m' ∧ e.happening.spares i) later m' ∧
      m'.system = m.system ∧ m'.process pid = some { l with registers := l.registers.withCpu d } := by
  induction hchain generalizing m with
  | done => exact ⟨[],m,.start rfl,rfl,hl⟩
  | @step n c c' d hstep _ ih =>
    have he : w.amd64.effect (l.registers.withCpu c) l.view.pages = .compute (l.registers.withCpu c') [] := by
      change w.effect _ _ (w.processor.step l.view.pages (l.registers.withCpu c).cpu) = _
      rw [TrapFrame.cpu_withCpu,hstep]
      rfl
    obtain ⟨hmachine,hl'⟩ := SharedMachine.computes h hpid hl he
    obtain ⟨later,m',hruns,hsystem,hl''⟩ := ih (m := ⟨m.system,l.registers.withCpu c'⟩) h hpid hl'
    have hobserved : Observed P w.amd64 m ⟨.instruction pid,[]⟩ _ := ⟨hmachine,(List.append_nil _).symm⟩
    exact ⟨_,m',Runs.append (.next (.start rfl) ⟨hobserved,trivial⟩) hruns,hsystem,hl''⟩

theorem exit_gone (h : Run P B trace m.system) (hown : m.Owns pid i)
    (hpid : m.system.kernel.currentPid = some pid) (hl : m.process pid = some l)
    (he : isa.effect l.registers l.view.pages = .call next)
    (hexit : SyscallNumber.fromRaw next.rax = some .exit) :
    ∃ m', Observed P isa m ⟨.instruction pid,[]⟩ m' ∧ SharedMachine.Gone pid i m' (.exited next.rdi) := by
  have hcanonical : Syscall.PointersCanonical next := by
    unfold Syscall.PointersCanonical
    rw [hexit]
    trivial
  obtain ⟨m',hstep⟩ := h.calls hpid hl he hcanonical
  obtain ⟨printed,hobserved⟩ := hstep.observed h.stable
  rcases machine_projects.mine ⟨⟨trace,h⟩,hown⟩ hobserved hl (by simp [Happening.isOf]) with
    ⟨a,l',hact,hmoves,-⟩ | ⟨hquiet,e,hends,hgone⟩
  · by_cases hwait : l.waiting = none
    · cases hact.continues hwait with
      | compute he' => cases he.symm.trans he'
      | call he' hgoesOn =>
        cases he.symm.trans he'
        exact absurd hexit hgoesOn
    · cases hact with
      | woken => cases hmoves
      | compute hw | call hw | exhausted hw | unknown hw | yielded hw | waitRefused hw | stillRunning hw
      | collected hw | blocked hw => exact absurd hw hwait
  · cases hends with
    | exit _ he' =>
      cases he.symm.trans he'
      obtain rfl : printed = [] := hquiet
      exact ⟨m',hobserved,hgone⟩
    | fault _ he' => cases he.symm.trans he'

theorem SharedMachine.answers (h : Run P B trace m.system) (hown : m.Owns pid i)
    (hpid : m.system.kernel.currentPid = some pid) (hl : m.process pid = some l) (hwait : l.waiting = none)
    (he : isa.effect l.registers l.view.pages = .call next) (hreq : Syscall.request next = some c)
    (hcanonical : Syscall.PointersCanonical next) (hcall : l.view.call pid c = ((r,console),v))
    (hspared : ∀ outcome, ¬ Exhausts l.view c outcome) :
    ∃ m', Observed P isa m ⟨.instruction pid,console⟩ m' ∧ m'.system.kernel.currentPid = some pid ∧
      m'.process pid = some { l.answered next (Syscall.result r) with view := v } := by
  obtain ⟨m',hstep⟩ := h.calls hpid hl he hcanonical
  have hcurrent : m'.system.kernel.currentPid = some pid := by
    cases hstep with
    | call _ hl' he' hstep' _ =>
      cases hl.symm.trans hl'
      cases he.symm.trans he'
      obtain ⟨Q,r,k',-,heffect,-,rfl⟩ := (h.stable.performs hstep').calls hpid hreq
      obtain ⟨j,t,hcur,ht,hp⟩ := currentPid_eq.mp hpid
      have htasks : k'.tasks = m.system.kernel.tasks := (congrArg Kernel.tasks heffect.rest).trans rfl
      have hsame : k'.current = m.system.kernel.current := (congrArg Kernel.current heffect.rest).trans rfl
      exact currentPid_eq.mpr ⟨j,t,hsame.trans hcur,htasks ▸ ht,hp⟩
    | compute _ hl' he' | fault _ hl' he' =>
      cases hl.symm.trans hl'
      cases he.symm.trans he'
  obtain ⟨printed,hobserved⟩ := hstep.observed h.stable
  have hraw : ∀ {n}, SyscallNumber.fromRaw next.rax = n → n ≠ none ∧ n ≠ some .yield ∧ n ≠ some .waitPid ∧
      n ≠ some .exit := by
    rintro n rfl
    refine ⟨?_,?_,?_,?_⟩ <;> · intro hn; simp [Syscall.request,hn] at hreq
  rcases machine_projects.mine ⟨⟨trace,h⟩,hown⟩ hobserved hl (by simp [Happening.isOf]) with
    ⟨a,l',hact,-,hconsole,hl'⟩ | ⟨-,e,hends,-⟩
  · cases hact with
    | call _ he' hreq' hcall' =>
      cases he.symm.trans he'
      cases hreq.symm.trans hreq'
      cases hcall.symm.trans hcall'
      obtain rfl : console = printed := hconsole
      exact ⟨m',hobserved,hcurrent,hl'⟩
    | exhausted _ he' hreq' hexhausts =>
      cases he.symm.trans he'
      cases hreq.symm.trans hreq'
      exact absurd hexhausts (hspared _)
    | compute _ he' => cases he.symm.trans he'
    | unknown _ he' hn | yielded _ he' hn | waitRefused _ he' hn | stillRunning _ he' hn | collected _ he' hn
    | blocked _ he' hn =>
      cases he.symm.trans he'
      have hnot := hraw hn
      simp at hnot
    | woken hw => cases hwait.symm.trans hw
  · cases hends with
    | exit _ he' hn =>
      cases he.symm.trans he'
      exact absurd rfl (hraw hn).2.2.2
    | fault _ he' => cases he.symm.trans he'

end

structure Tracks (P : Platform) (B : Boot) (base : ℕ) (script : List Command) (pid : ProcessId) (i : ℕ)
    (l : PrivateMachine) (m : SharedMachine) : Prop where
  run : ∃ trace, Run P B trace m.system
  owns : m.Owns pid i
  current : m.system.kernel.currentPid = some pid
  waiting : l.waiting = none
  process : ∃ l', m.process pid = some l' ∧ Linked script base l l'

section

variable {B : Boot} {P : Platform} {w : Hardware} {base : ℕ} {script : List Command} {k : Command}
  {pid : ProcessId} {i : ℕ} {l : PrivateMachine} {m : SharedMachine} {next : TrapFrame} {c : Call}
  {r : Except SysError ℕ} {console : List UInt8} {v : ProcessView}

theorem TrapFrame.Same.canonical {f f' : TrapFrame} (h : f.Same f') (hf : Syscall.PointersCanonical f) :
    Syscall.PointersCanonical f' := by
  rw [TrapFrame.Same] at h
  rw [h]
  exact hf

structure Poised (P : Platform) (B : Boot) (w : Hardware) (pid : ProcessId) (i : ℕ) (e : Effect)
    (l l₁ : PrivateMachine) (m₁ : SharedMachine) : Prop where
  run : ∃ trace, Run P B trace m₁.system
  owns : m₁.Owns pid i
  current : m₁.system.kernel.currentPid = some pid
  process : m₁.process pid = some l₁
  view : l₁.view = l.view
  waiting : l₁.waiting = none
  effects : EffectsAlike e (w.amd64.effect l₁.registers l₁.view.pages)

theorem Tracks.approach (h : Tracks P B base script pid i l m)
    (hk : Boundary script base l.registers.rip.toNat k) : ∃ later m₁ l₁,
      Runs (· = m) (fun m e m' => Observed P w.amd64 m e m' ∧ e.happening.spares i) later m₁ ∧
      m₁.serial = m.serial ∧
      Poised P B w pid i ((w.only k).effect l.registers l.view.pages) l l₁ m₁ := by
  obtain ⟨⟨trace,hrun⟩,hown,hpid,hwait,l',hl',hlinked⟩ := h
  obtain ⟨n,-,d,hchain,heffects⟩ := hlinked.approach (w := w) hk
  obtain ⟨later,m₁,hruns,hsystem,hl₁⟩ := silent_run (l := l') (c := l'.registers.cpu) hrun hpid hl' hchain
  rw [← hsystem] at hrun hpid
  refine ⟨later,m₁,_,hruns,congrArg (fun s : System => s.kernel.serial) hsystem,⟨trace,hrun⟩,?_,hpid,hl₁,
    hlinked.alike.view,hlinked.alike.waiting.trans hwait,heffects⟩
  rw [SharedMachine.Owns,hsystem]
  exact hown

theorem Tracks.computes (h : Tracks P B base script pid i l m) (hclosed : closed none script = true)
    (hk : Boundary script base l.registers.rip.toNat k)
    (he : (w.only k).effect l.registers l.view.pages = .compute next []) : ∃ later m',
      Runs (· = m) (fun m e m' => Observed P w.amd64 m e m' ∧ e.happening.spares i) later m' ∧
      m'.serial = m.serial ∧ Tracks P B base script pid i { l with registers := next } m' := by
  obtain ⟨later,m₁,l₁,hruns,hserial,hpoised⟩ := h.approach (w := w) hk
  obtain ⟨trace,hrun⟩ := hpoised.run
  obtain ⟨-,-,-,hwait,-,-,-,hinstalled,-⟩ := h
  have heffects := hpoised.effects
  rw [he] at heffects
  generalize he₁ : w.amd64.effect l₁.registers l₁.view.pages = e₁ at heffects
  cases heffects with
  | compute hsame =>
    obtain ⟨hmachine,hl'⟩ := SharedMachine.computes hrun hpoised.current hpoised.process he₁
    have hobserved : Observed P w.amd64 m₁ ⟨.instruction pid,[]⟩ _ := ⟨hmachine,(List.append_nil _).symm⟩
    have hstep : PrivateMachine.Step (w.only k) pid l .compute { l with registers := next } :=
      .compute hwait he
    obtain ⟨c',hlands,hrip⟩ := (hstep.continues hwait).lands
    exact ⟨_,_,.next hruns ⟨hobserved,trivial⟩,hserial,⟨_,hrun⟩,hpoised.owns,hpoised.current,hwait,_,hl',
      ⟨hsame,hpoised.view,hpoised.waiting.trans hwait.symm⟩,hinstalled,
      hrip ▸ hk.lands hclosed hinstalled.present.low hlands⟩

theorem Tracks.asks (h : Tracks P B base script pid i l m) (hclosed : closed none script = true)
    (hk : Boundary script base l.registers.rip.toNat k)
    (he : (w.only k).effect l.registers l.view.pages = .call next) (hreq : Syscall.request next = some c)
    (hcanonical : Syscall.PointersCanonical next) (hcall : l.view.call pid c = ((r,console),v))
    (hspared : ∀ outcome, ¬ Exhausts l.view c outcome) : ∃ later m',
      Runs (· = m) (fun m e m' => Observed P w.amd64 m e m' ∧ e.happening.spares i) later m' ∧
      m'.serial = m.serial ++ console ∧ ⟨.instruction pid,console⟩ ∈ later ∧
      Tracks P B base script pid i { l.answered next (Syscall.result r) with view := v } m' := by
  obtain ⟨later,m₁,l₁,hruns,hserial,hpoised⟩ := h.approach (w := w) hk
  obtain ⟨trace,hrun⟩ := hpoised.run
  obtain ⟨-,-,-,hwait,-,-,-,hinstalled,-⟩ := h
  have heffects := hpoised.effects
  rw [he] at heffects
  generalize he₁ : w.amd64.effect l₁.registers l₁.view.pages = e₁ at heffects
  cases heffects with
  | call hsame =>
    obtain ⟨m',hobserved,hpid',hl'⟩ := SharedMachine.answers hrun hpoised.owns hpoised.current
      hpoised.process hpoised.waiting he₁ (hsame.request.trans hreq) (hsame.canonical hcanonical)
      (hpoised.view ▸ hcall) (hpoised.view ▸ hspared)
    have hstep : PrivateMachine.Step (w.only k) pid l (.call c r console)
      { l.answered next (Syscall.result r) with view := v } := .call hwait he hreq hcall
    obtain ⟨c',hlands,hrip⟩ := (hstep.continues hwait).lands
    obtain ⟨hrun',hown'⟩ := machine_projects.inv ⟨⟨trace,hrun⟩,hpoised.owns⟩ hobserved
    exact ⟨_,m',.next hruns ⟨hobserved,trivial⟩,hobserved.2.trans (by rw [hserial]),List.mem_cons_self,hrun',
      hown',hpid',hwait,_,hl',⟨hsame.answered _,rfl,hpoised.waiting.trans hwait.symm⟩,
      hinstalled.step hstep,hrip ▸ hk.lands hclosed hinstalled.present.low hlands⟩

theorem Tracks.exits (h : Tracks P B base script pid i l m)
    (hk : Boundary script base l.registers.rip.toNat k)
    (he : (w.only k).effect l.registers l.view.pages = .call next)
    (hexit : SyscallNumber.fromRaw next.rax = some .exit) : ∃ later m',
      Runs (· = m) (fun m e m' => Observed P w.amd64 m e m' ∧ e.happening.spares i) later m' ∧
      m'.serial = m.serial ∧ m'.Gone pid i (.exited next.rdi) := by
  obtain ⟨later,m₁,l₁,hruns,hserial,hpoised⟩ := h.approach (w := w) hk
  obtain ⟨trace,hrun⟩ := hpoised.run
  have heffects := hpoised.effects
  rw [he] at heffects
  generalize he₁ : w.amd64.effect l₁.registers l₁.view.pages = e₁ at heffects
  cases heffects with
  | call hsame =>
    obtain ⟨m',hobserved,hgone⟩ := exit_gone hrun hpoised.owns hpoised.current hpoised.process he₁
      (by rw [hsame.rax]; exact hexit)
    rw [hsame.rdi] at hgone
    exact ⟨_,m',.next hruns ⟨hobserved,trivial⟩,
      hobserved.2.trans ((List.append_nil _).trans hserial),hgone⟩

end

structure FirstReady (p : Program) (handle : UserProcessHandle) (s : System) : Prop where
  launched : Launched standardPlatform smallMachine p 0 handle s
  current : s.kernel.current = none
  ready : firstReady s.kernel.tasks = some handle.taskId
  task : ∃ t, s.kernel.tasks[handle.taskId]? = some t ∧ t.processId = some handle.pid
  view : ∃ v, s.kernel.viewOf handle.pid = some v ∧ v.files = stdioViews ∧ ∀ segment ∈ p.segments,
    readBytes (userChecker .read) v.pages segment.vaddr segment.data.length = .ok segment.data

section

variable {p : Program} {handle : UserProcessHandle} {s : System} {l : PrivateMachine} {m : SharedMachine}
  {cpu : TrapFrame} {pid : ProcessId}

theorem Build.Program.heap_ok {bytes : List UInt8} (hfits : p.fits = true) (hsmall : p.small = true)
    (hs : SupportedElf bytes) (hparsed : parsedElf bytes = ⟨USER_CODE_BASE,p.segments.map Segment.loaded⟩)
    (m : Memory) : ∃ heap, (parsedElf bytes).heap m = .ok heap m := by
  obtain ⟨stop,-,-,-,hgreatest⟩ := (maxSegmentEnd_spec (σ := Unit) (ε := Empty) (s := ()) (parsedElf bytes)
    hs.ok.segments_ok hs.ok.nonempty).returns fun _ _ hf => hf
  obtain ⟨⟨_,hmem,rfl⟩,-⟩ := id hgreatest
  rw [hparsed] at hmem
  obtain ⟨segment,hsegment,rfl⟩ := List.mem_map.mp hmem
  obtain ⟨hlow,hhigh,-⟩ := Program.small.segment hfits hsmall hsegment
  obtain ⟨start,limit,-,-,hheap⟩ := hs.ok.heap_ok (s := m) hgreatest hlow (by
    change (segment.vaddr + segment.memsz + 4095) / 4096 * 4096 < 0x8000700000
    omega)
  exact ⟨_,hheap⟩

theorem Build.Program.launches (hfits : p.fits = true) (hsmall : p.small = true) :
    ∃ handle s, FirstReady p handle s := by
  have hrun : Run standardPlatform smallMachine [] smallMachine.system := .start rfl
  obtain ⟨bytes,hbytes,hs,hparsed⟩ := (Program.fits.loadable hfits).written ()
  obtain ⟨heap,hheap⟩ := p.heap_ok hfits hsmall hs hparsed smallMachine.system.kernel.memory
  have hsegments : (parsedElf bytes).segments = p.segments.map Segment.loaded := by rw [hparsed]
  have hroom : smallMachine.system.kernel.memory.next + 4 * pageTotal (parsedElf bytes).segments + 9 <
      smallMachine.usable.length := by
    have hpages := Program.small.pages hfits hsmall
    have hframes := smallMachine_roomy.frames
    have hnext : smallMachine.system.kernel.memory.next = smallMachine.handedOut := rfl
    rw [hsegments]
    omega
  obtain ⟨init,m',hload,hloaded⟩ := hrun.builds smallMachine_roomy.slot hs 0 hheap hroom
  have hstep := Step.loaded hload
  have hparent : ∀ q, (none : Option ProcessId) = some q →
      ∃ Q, ProcessTable.get .new q = some Q := fun _ hc => by cases hc
  obtain ⟨pid,t',frames,hspawn,hcreated⟩ := (hrun.after hstep).stable.spawns standardPlatform
    (show [init][0]? = some init from rfl) (stackFree_first rfl) (show 0 < MAX_TASKS by decide)
    (show 1 ≤ MAX_PROCESSES by decide) hparent
    (show FdTable.newWithStdio .new = (.ok (FdTable.stdio 0 1 2),(FdTable.newWithStdio .new).2) from rfl) 0
  refine ⟨_,_,.intro hrun hbytes hstep hspawn,rfl,rfl,⟨_,rfl,rfl⟩,_,
    viewOf_some ((hcreated.get _).trans (if_pos rfl)),rfl,fun segment hmem => ?_⟩
  have hsegment : segment.loaded ∈ (parsedElf bytes).segments := by
    rw [hsegments]
    exact List.mem_map_of_mem hmem
  exact hloaded.reads (hs.ok.segments_ok _ hsegment) hsegment

theorem fixture_launches (hp : p ∈ fixtures) : ∃ handle s, FirstReady p handle s :=
  Program.launches (fixtures_fit p hp) (fixtures_small p hp)

theorem SharedMachine.process_view (h : m.process pid = some l) :
    m.system.kernel.viewOf pid = some l.view := by
  unfold SharedMachine.process at h
  split at h
  · next hview =>
    split_ifs at h
    cases h
    exact hview
  · cases h

structure Saying (p : Program) (handle : UserProcessHandle) (l : PrivateMachine) (m : SharedMachine) :
    Prop where
  tracks : Tracks standardPlatform smallMachine USER_CODE_BASE p.script handle.pid handle.taskId l m
  start : l.registers.rip = UInt64.ofNat USER_CODE_BASE
  files : l.view.files = stdioViews
  reads : ∀ segment ∈ p.segments,
    readBytes (userChecker .read) l.view.pages segment.vaddr segment.data.length = .ok segment.data

theorem FirstReady.starts (h : FirstReady p handle s) (w : Hardware) (hclosed : closed none p.script = true)
    (hload : Loadable USER_CODE_BASE p.segments) (cpu : TrapFrame) : ∃ l m,
      SharedMachine.process ⟨s,cpu⟩ handle.pid = some l ∧
      Observed standardPlatform w.amd64 ⟨s,cpu⟩ ⟨.kernel (.run 0),[]⟩ m ∧ Saying p handle l m := by
  obtain ⟨hlaunched,hcurrent,hready,⟨t,ht,hp⟩,v,hv,hfiles,hreads⟩ := h
  obtain ⟨trace,hrun⟩ := hlaunched.run
  obtain ⟨hown,l,hl,hbegun⟩ := hlaunched.begins hclosed hload cpu
  cases hv.symm.trans (SharedMachine.process_view hl)
  obtain ⟨root,hstart⟩ := hrun.stable.starts standardPlatform hcurrent hready ht 0
  have hidle : s.kernel.currentPid = none := by
    rw [Kernel.currentPid,Kernel.currentTask,hcurrent]
    rfl
  have hmachine : SharedStep standardPlatform w.amd64 ⟨s,cpu⟩ (.kernel (.run 0)) ⟨_,_⟩ :=
    .kernel hidle hstart fun c hc => by
      cases hc
      rfl
  have hobserved : Observed standardPlatform w.amd64 ⟨s,cpu⟩ ⟨.kernel (.run 0),[]⟩ ⟨_,_⟩ :=
    ⟨hmachine,(List.append_nil _).symm⟩
  obtain ⟨hrun',hown'⟩ := machine_projects.inv ⟨⟨trace,hrun⟩,hown⟩ hobserved
  refine ⟨l,_,hl,hobserved,⟨hrun',hown',currentPid_eq.mpr ⟨handle.taskId,t.setState .running,rfl,?_,hp⟩,
    hbegun.waiting,l,?_,hbegun.linked⟩,UInt64.toNat_inj.mp (hbegun.start.trans rfl),hfiles,hreads⟩
  · exact List.getElem?_modify_eq .. |>.trans (by rw [ht]; rfl)
  · rcases machine_projects.other ⟨⟨trace,hrun⟩,t,ht,hp⟩ hobserved trivial hl rfl with
      hl' | ⟨a,l',hact,hmoves,-⟩
    · exact hl'
    · cases hact with
      | woken hw => cases hbegun.waiting.symm.trans hw
      | _ => cases hmoves

def helloMessage : List UInt8 := ascii "preempted write hello\n"

theorem Saying.writes (h : Saying writeHello handle l m) :
    l.view.call handle.pid (.write 1 dataBase 22) = ((.ok 22,helloMessage),l.view) := by
  have hfile : l.view.file 1 = some ⟨.consoleStdout,.writeOnly,0⟩ := by
    rw [ProcessView.file,h.files]
    rfl
  exact ProcessView.writeFile_console (by decide) hfile rfl rfl
    (h.reads (dataSegment PF_R 22 helloMessage) (List.mem_cons_of_mem _ List.mem_cons_self))

theorem write_request {next : TrapFrame} {buf : VirtAddr}
    (hraw : SyscallNumber.fromRaw next.rax = some .write) (hbuf : VirtAddr.new next.rsi.toNat = some buf) :
    Syscall.request next = some (.write next.rdi.toNat buf next.rdx.toNat) ∧
      Syscall.PointersCanonical next := by
  simp [Syscall.request,Syscall.PointersCanonical,hraw,hbuf]

theorem Saying.hello (h : Saying writeHello handle l m) (w : Hardware) : ∃ later m',
    Runs (· = m) (fun m e m' => Observed standardPlatform w.amd64 m e m' ∧ e.happening.spares handle.taskId)
      later m' ∧ m'.serial = m.serial ++ helloMessage ∧ ⟨.instruction handle.pid,helloMessage⟩ ∈ later ∧
      m'.Gone handle.pid handle.taskId (.exited 0) := by
  have hclosed : closed none writeHello.script = true := by decide
  have hwrite : Boundary writeHello.script USER_CODE_BASE l.registers.rip.toNat
      (.writeSyscall 1 userData (lenU64 helloMessage)) := ⟨[],_,rfl,by rw [h.start]; rfl⟩
  have hbuf : VirtAddr.new userData.toNat = some dataBase := VirtAddr.new_of_lt (by decide)
  obtain ⟨later₁,m₁,hruns₁,hserial₁,hsaid,h₁⟩ := h.tracks.asks (w := w) hclosed hwrite rfl
    (write_request rfl hbuf).1 (write_request rfl hbuf).2 h.writes nofun
  have hcheck : Boundary writeHello.script USER_CODE_BASE
      (l.registers.rip + UInt64.ofNat (Command.writeSyscall 1 userData (lenU64 helloMessage)).size).toNat
      (.checkRaxEqContinue (lenU64 helloMessage)) := ⟨[_],_,rfl,by rw [h.start]; rfl⟩
  obtain ⟨later₂,m₂,hruns₂,hserial₂,h₂⟩ := h₁.computes (w := w) hclosed hcheck rfl
  have hexit : Boundary writeHello.script USER_CODE_BASE
      (l.registers.rip + UInt64.ofNat (Command.writeSyscall 1 userData (lenU64 helloMessage)).size +
        UInt64.ofNat (Command.checkRaxEqContinue (lenU64 helloMessage)).size).toNat
      (.exitWithCode 0) := ⟨[_,_],_,rfl,by rw [h.start]; rfl⟩
  obtain ⟨later₃,m₃,hruns₃,hserial₃,hgone⟩ := h₂.exits (w := w) hexit rfl rfl
  exact ⟨_,m₃,(hruns₁.append hruns₂).append hruns₃,by rw [hserial₃,hserial₂,hserial₁],
    List.mem_append_right _ (List.mem_append_right _ hsaid),hgone⟩

def plainHardware : Hardware := ⟨waitingIsa,fun _ => false,fun _ => false⟩

theorem exists_hello (w : Hardware) : ∃ handle s later m',
    Launched standardPlatform smallMachine writeHello 0 handle s ∧
    Runs (· = ⟨s,.ofCall 0 0 0 0⟩)
      (fun m e m' => Observed standardPlatform w.amd64 m e m' ∧ e.happening.spares handle.taskId) later m' ∧
    m'.serial = s.kernel.serial ++ helloMessage ∧ ⟨.instruction handle.pid,helloMessage⟩ ∈ later ∧
    m'.Gone handle.pid handle.taskId (.exited 0) := by
  have hfits : writeHello.fits = true := by decide
  obtain ⟨handle,s,hfirst⟩ := Program.launches hfits (by decide)
  obtain ⟨l,m,-,hobserved,hsaying⟩ := hfirst.starts w (by decide) (Program.fits.loadable hfits)
    (.ofCall 0 0 0 0)
  obtain ⟨later,m',hruns,hserial,hsaid,hgone⟩ := hsaying.hello w
  refine ⟨handle,s,_,m',hfirst.launched,Runs.append (.next (.start rfl) ⟨hobserved,trivial⟩) hruns,?_,
    List.mem_append_left _ hsaid,hgone⟩
  rw [hserial,hobserved.2]
  exact congrArg (· ++ helloMessage) (List.append_nil _)

end

end VladOs
