import VladOs.Kernel.InitialArgs
import VladOs.Kernel.LoadedImage
import VladOs.Program.Fixtures
import VladOs.Program.Process

namespace VladOs

open Amd64 Build Transition Paging Code Kernel ProcessTable

section

variable {B : BootMemory} {P : Platform} {elf : ParsedElf} {arg0 rflags : UInt64} {init : UserTaskInit}
  {m : Memory} {v : ProcessView} {segment : LoadSegment} {s s' : System} {bytes : List UInt8}
  {parent : Option ProcessId} {index stack : ℕ} {handle : UserProcessHandle}

structure Fresh (P : Platform) (m : Memory) (init : UserTaskInit) (rflags : UInt64)
    (l : PrivateMachine) : Prop where
  registers : l.registers = Task.userFrame P.selectors init.entryPoint init.userStackTop init.arg0 rflags
  pages : l.view.pages = m.page init.addressSpace.level4Frame
  heap : l.view.heap = init.heap
  waiting : l.waiting = none

theorem LoadedElf.installed (h : LoadedElf elf arg0 init m) (hok : ∀ segment ∈ elf.segments, segment.Ok)
    (hheap : HeapInv (m.page init.addressSpace.level4Frame) init.heap) (hmem : segment ∈ elf.segments)
    (hreadOnly : segment.flags &&& PF_W = 0) (hpages : v.pages = m.page init.addressSpace.level4Frame)
    (hv : v.heap = init.heap) : Installed segment.vaddr segment.data v := by
  have hsegment := hok segment hmem
  have hlen := hsegment.data_length
  have hle := hsegment.filesz_le
  have hend := hsegment.end_lt
  refine ⟨⟨by omega,fun k hk => ?_⟩,fun k hk => ?_⟩
  · rw [hpages]
    exact (h.shows hsegment hmem hk).2
  · obtain ⟨p,hp,hflags⟩ := Option.map_eq_some_iff.mp (h.shows hsegment hmem hk).1.1
    have habove := h.heapStart.1.2 _ ⟨segment,hmem,rfl⟩
    have haligned := hheap.start_aligned
    have hmapped := hheap.mappedEnd_eq
    have hbrk := hheap.start_le
    refine ⟨p,hpages ▸ hp,?_,?_,?_⟩
    · rw [hflags,pageTableFlags_writable,LoadSegment.userFlags]
      simp [hreadOnly]
    · rw [hv]
      omega
    · rw [hv]
      omega

theorem Step.loads (hstep : Step P s (.loadUserElf bytes arg0,.loaded (.ok init)) s') :
    ∃ m', loadUserElf P.mapper bytes arg0 s.kernel.memory = .ok init m' ∧
      s' = ⟨{ s.kernel with memory := m' },init :: s.inits⟩ := by
  have hperform := hstep.2
  simp only [System.perform,bind,Code.chain,Code.attempt,System.onKernel,Kernel.onMemory,
    Code.within] at hperform
  cases hload : loadUserElf P.mapper bytes arg0 s.kernel.memory with
  | ok init' m' =>
    rw [hload] at hperform
    cases hperform
    exact ⟨m',rfl,rfl⟩
  | error e m' =>
    rw [hload] at hperform
    cases hperform
  | panic =>
    rw [hload] at hperform
    cases hperform

theorem Step.spawnUser_frame (h : Stable B s) (hinit : s.inits[index]? = some init)
    (hstep : Step P s (.spawnUser parent index rflags stack,.process (.ok handle)) s') :
    s'.kernel.frames (Task.userFrameBottom stack) =
      Task.userFrame P.selectors init.entryPoint init.userStackTop init.arg0 rflags := by
  have hspec : Spec (System.perform P (.spawnUser parent index rflags stack)) s
      (fun o s' => o = .process (.ok handle) → s'.kernel.frames (Task.userFrameBottom stack) =
        Task.userFrame P.selectors init.entryPoint init.userStackTop init.arg0 rflags) fun _ _ => False := by
    rw [System.perform,spec_bind,spec_read,hinit]
    simp only
    rw [spec_bind,spec_modify,spec_bind,spec_attempt,spec_onKernel]
    refine (spawnUserProcess_frames h.core.forest).mono ?_ ?_
    · intro handle k' hframes
      rw [spec_pure]
      intro _
      rw [hframes]
      exact setFrame_self
    · intro e k' _
      rw [spec_pure]
      intro hc
      cases hc
  exact hspec.ok hstep.2 rfl

theorem Step.spawnUser_process (h : Stable B s) (hinit : s.inits[index]? = some init)
    (hstep : Step P s (.spawnUser parent index rflags stack,.process (.ok handle)) s') :
    s'.kernel.current ≠ some handle.taskId ∧
      ∃ l, Rested s' handle.pid handle.taskId l ∧ Fresh P s.kernel.memory init rflags l := by
  have hframe := hstep.spawnUser_frame h hinit
  cases h.performs hstep with
  | processSpawned hinit' hspawns =>
    cases hinit.symm.trans hinit'
    cases hspawns with
    | @intro table o' pid t' frames hroom hopen hcreated =>
      have htask := @List.getElem?_concat_length _ s.kernel.tasks
        (Task.newUser s.kernel.tasks.length pid init.entryPoint init.userStackTop stack)
      have hget := (hcreated.get _).trans (if_pos rfl)
      refine ⟨fun hcur => ?_,_,⟨_,_,⟨htask,rfl,rfl,hget,rfl⟩,rfl⟩,hframe,rfl,rfl,rfl⟩
      obtain ⟨t,ht,-⟩ := h.scheduled.task hcur
      exact absurd (List.getElem?_eq_some_iff.mp ht).1 (Nat.lt_irrefl _)

end

structure Begun (script : List Command) (arg0 : UInt64) (l : PrivateMachine) : Prop where
  linked : Linked script USER_CODE_BASE l l
  start : l.registers.rip.toNat = USER_CODE_BASE
  argument : l.registers.rdi = arg0
  waiting : l.waiting = none

section

variable {B : BootMemory} {P : Platform} {s s' : System} {o : Output} {pid : ProcessId} {i : ℕ} {t : Task}
  {Q : Process} {l : PrivateMachine} {arg0 arg1 : UInt64} {script : List Command} {pages : View}
  {address : VirtAddr} {bytes : List UInt8} {result : Except UserMemoryError Unit}

theorem Rested.held (hrest : Rested s pid i l) (h : Stable B s) (hcur : s.kernel.current ≠ some i)
    (cpu : TrapFrame) : SharedMachine.Owns ⟨s,cpu⟩ pid i ∧ SharedMachine.process ⟨s,cpu⟩ pid = some l := by
  obtain ⟨t,Q,hosted,rfl⟩ := hrest
  exact ⟨⟨t,hosted.task,hosted.process⟩,(SharedMachine.process_eq h).mpr ⟨i,t,Q,hosted,
    (SharedMachine.contextOf_idle (m := ⟨s,cpu⟩) hosted h hcur).symm⟩⟩

theorem Hosted.ready (hosted : Hosted s pid i t Q) (h : Stable B s) (hcur : s.kernel.current ≠ some i)
    (hwait : t.waiting = none) : t.state = .ready := by
  cases hstate : t.state with
  | ready => rfl
  | running => exact absurd ((h.current_iff hosted.task).mpr hstate) hcur
  | blocked reason =>
    cases reason
    rw [Task.waiting_blocked.mpr hstate] at hwait
    cases hwait
  | finished =>
    have hlive := hosted.live
    rw [hstate] at hlive
    cases hlive
  | failed =>
    have hlive := hosted.live
    rw [hstate] at hlive
    cases hlive

theorem Hosted.copied (hosted : Hosted s pid i t Q) (h : Stable B s)
    (hstep : Step P s (.copyToUser i address bytes,o) s') : s'.kernel.current = s.kernel.current ∧
    ∃ result pages, writeBytes (userChecker .write) (s.kernel.processView Q).pages address.addr bytes =
        (result,pages) ∧
      Rested s' pid i ⟨s.kernel.frames t.savedRsp,{ s.kernel.processView Q with pages := pages },
        t.waiting⟩ := by
  have hspec : Spec (System.perform P (.copyToUser i address bytes)) s
      (fun _ s' => ∃ result m', s' = { s with kernel := { s.kernel with memory := m' } } ∧
        writeBytes (userChecker .write) (s.kernel.processView Q).pages address.addr bytes =
          (result,m'.page Q.addressSpace.level4Frame)) fun _ _ => False := by
    rw [System.perform,spec_bind,spec_attempt,spec_onKernel,System.copyToTask,spec_bind,spec_read,spec_bind,
      hosted.task,Option.bind_some,hosted.process,spec_orFail_some,spec_bind,ProcessTable.addressSpace,
      hosted.get,Option.map_some,spec_orFail_some,spec_onMemory]
    refine (VladOs.copyToUser_spec h.sound (h.core.homes.process hosted.get).1 address bytes).mono ?_ ?_
    · rintro - m' ⟨-,hw⟩
      exact (spec_pure _).mpr ⟨_,m',rfl,hw⟩
    · rintro e m' ⟨-,hw⟩
      exact (spec_pure _).mpr ⟨_,m',rfl,hw⟩
  obtain ⟨result,m',rfl,hw⟩ := hspec.ok hstep.2
  exact ⟨rfl,result,_,hw,t,Q,⟨hosted.task,hosted.process,hosted.live,hosted.get,hosted.running⟩,rfl⟩

theorem Hosted.primed (hosted : Hosted s pid i t Q) (hready : t.state = .ready)
    (hstep : Step P s (.setTaskInitialArg i arg1,o) s') : s'.kernel.current = s.kernel.current ∧
    Rested s' pid i ⟨{ s.kernel.frames t.savedRsp with rdi := arg1 },s.kernel.processView Q,
      t.waiting⟩ := by
  have hspec : Spec (System.perform P (.setTaskInitialArg i arg1)) s
      (fun _ s' => s' = { s with kernel :=
        (s.kernel.setFrame t.savedRsp fun frame => { frame with rdi := arg1 }) }) fun _ _ => False := by
    rw [System.perform,spec_bind,spec_onKernel]
    exact Spec.of_ok (setTaskInitialArg_ready hosted.task hready) ((spec_pure _).mpr rfl)
  obtain rfl := hspec.ok hstep.2
  refine ⟨rfl,t,Q,⟨hosted.task,hosted.process,hosted.live,hosted.get,hosted.running⟩,?_⟩
  rw [show (setFrame t.savedRsp _ s.kernel).frames t.savedRsp = _ from setFrame_self]
  rfl

theorem Begun.written (h : Begun script arg0 l)
    (hwrite : writeBytes (userChecker .write) l.view.pages address.addr bytes = (result,pages)) :
    Begun script arg0 { l with view := { l.view with pages := pages } } :=
  ⟨⟨.refl _,h.linked.installed.mono fun hlocked => hlocked.written hwrite,h.linked.boundary⟩,h.start,
    h.argument,h.waiting⟩

theorem Begun.primed (h : Begun script arg0 l) (arg1 : UInt64) :
    Begun script arg1 { l with registers := { l.registers with rdi := arg1 } } :=
  ⟨⟨.refl _,h.linked.installed,h.linked.boundary⟩,h.start,rfl,h.waiting⟩

end

inductive Launched (P : Platform) (B : Boot) (p : Program) : UInt64 → UserProcessHandle → System → Prop where
  | intro {trace : List Event} {s s₁ s₂ : System} {bytes : List UInt8} {arg0 : UInt64} {init : UserTaskInit}
      {parent : Option ProcessId} {rflags : UInt64} {stack : ℕ} {handle : UserProcessHandle} :
      Run P B trace s → (p.bytes : Code Unit ElfLoadError (List UInt8)) () = .ok bytes () →
      Step P s (.loadUserElf bytes arg0,.loaded (.ok init)) s₁ →
      Step P s₁ (.spawnUser parent 0 rflags stack,.process (.ok handle)) s₂ →
      Launched P B p arg0 handle s₂
  | passed {arg0 : UInt64} {handle : UserProcessHandle} {s s' : System} {a : Action} {o : Output} :
      Launched P B p arg0 handle s → Step P s (a,o) s' → a.spares handle.taskId →
      s'.kernel.current ≠ some handle.taskId → Launched P B p arg0 handle s'
  | copied {arg0 : UInt64} {handle : UserProcessHandle} {s s' : System} {address : VirtAddr}
      {bytes : List UInt8} {o : Output} : Launched P B p arg0 handle s →
      Step P s (.copyToUser handle.taskId address bytes,o) s' → Launched P B p arg0 handle s'
  | primed {arg0 arg1 : UInt64} {handle : UserProcessHandle} {s s' : System} {o : Output} :
      Launched P B p arg0 handle s → Step P s (.setTaskInitialArg handle.taskId arg1,o) s' →
      Launched P B p arg1 handle s'

section

variable {B : Boot} {P : Platform} {p : Program} {bytes : List UInt8} {arg0 rflags : UInt64}
  {init : UserTaskInit} {handle : UserProcessHandle} {s s₁ : System} {l : PrivateMachine}
  {trace : List Event}

theorem Launched.run (h : Launched P B p arg0 handle s) : ∃ trace, Run P B trace s := by
  induction h with
  | intro hrun _ hloaded hspawn => exact ⟨_,(hrun.after hloaded).after hspawn⟩
  | passed _ hstep _ _ ih | copied _ hstep ih | primed _ hstep ih =>
    obtain ⟨trace,hrun⟩ := ih
    exact ⟨_,hrun.after hstep⟩

theorem Fresh.begun (hfresh : Fresh P s₁.kernel.memory init rflags l) (h : Run P B trace s)
    (hclosed : closed none p.script = true) (hload : Loadable USER_CODE_BASE p.segments)
    (hbuilt : (p.bytes : Code Unit ElfLoadError (List UInt8)) () = .ok bytes ())
    (hloaded : Step P s (.loadUserElf bytes arg0,.loaded (.ok init)) s₁) : Begun p.script arg0 l := by
  obtain ⟨bytes',hbytes,hsupported,hparsed⟩ := hload.written ()
  cases hbuilt.symm.trans hbytes
  obtain ⟨memory,hmemory,rfl⟩ := hloaded.loads
  obtain ⟨hbuild,-,himage⟩ := (loadUserElf_exact P.mapper hsupported arg0 h.stable.sound).ok hmemory
  have hmem : (codeSegment p.script).loaded ∈ (parsedElf bytes).segments := by
    rw [hparsed]
    exact List.mem_cons_self
  have hreadOnly : (codeSegment p.script).loaded.flags &&& PF_W = 0 :=
    show (PF_R ||| PF_X) &&& PF_W = 0 by decide
  have hcode : Installed USER_CODE_BASE (emitAll p.script []) l.view :=
    himage.installed hsupported.ok.segments_ok hbuild.heap hmem hreadOnly hfresh.pages hfresh.heap
  have hrip : l.registers.rip.toNat = USER_CODE_BASE := by
    rw [hfresh.registers]
    change (UInt64.ofNat init.entryPoint.addr).toNat = USER_CODE_BASE
    rw [himage.entry,hparsed]
    rfl
  rw [emitAll_eq,List.nil_append] at hcode
  refine ⟨⟨.refl l,hcode,?_⟩,hrip,?_,hfresh.waiting⟩
  · cases hscript : p.script with
    | nil =>
      rw [hscript] at hclosed
      cases hclosed
    | cons k rest => exact ⟨k,[],rest,rfl,hrip⟩
  · rw [hfresh.registers]
    exact himage.arg

theorem Launched.rests (h : Launched P B p arg0 handle s) (hclosed : closed none p.script = true)
    (hload : Loadable USER_CODE_BASE p.segments) : s.kernel.current ≠ some handle.taskId ∧
      ∃ l, Rested s handle.pid handle.taskId l ∧ Begun p.script arg0 l := by
  induction h with
  | intro hrun hbuilt hloaded hspawn =>
    have hst := (hrun.after hloaded).stable
    obtain ⟨memory,-,rfl⟩ := hloaded.loads
    obtain ⟨hcur,l,hrest,hfresh⟩ := hspawn.spawnUser_process hst rfl
    exact ⟨hcur,l,hrest,hfresh.begun hrun hclosed hload hbuilt hloaded⟩
  | passed hlaunched hstep hspare hcur' ih =>
    obtain ⟨trace,hrun⟩ := hlaunched.run
    obtain ⟨hcur,_,⟨t,Q,hosted,rfl⟩,hbegun⟩ := ih
    refine ⟨hcur',_,hosted.idle hrun.stable hrun.stacks hstep hcur hspare ?_,hbegun⟩
    rintro ⟨j,u,child,ptr,exit,hu,hup,hstate,-⟩
    obtain rfl := hrun.stable.core.tasks.unique (core_view hu) (core_view hosted.task) hup hosted.process
    cases hu.symm.trans hosted.task
    cases (Task.waiting_blocked.mpr hstate).symm.trans hbegun.waiting
  | copied hlaunched hstep ih =>
    obtain ⟨trace,hrun⟩ := hlaunched.run
    obtain ⟨hcur,_,⟨t,Q,hosted,rfl⟩,hbegun⟩ := ih
    obtain ⟨hsame,result,pages,hwrite,hrest⟩ := hosted.copied hrun.stable hstep
    exact ⟨hsame ▸ hcur,_,hrest,hbegun.written hwrite⟩
  | primed hlaunched hstep ih =>
    obtain ⟨trace,hrun⟩ := hlaunched.run
    obtain ⟨hcur,_,⟨t,Q,hosted,rfl⟩,hbegun⟩ := ih
    obtain ⟨hsame,hrest⟩ := hosted.primed (hosted.ready hrun.stable hcur hbegun.waiting) hstep
    exact ⟨hsame ▸ hcur,_,hrest,hbegun.primed _⟩

theorem Launched.begins (h : Launched P B p arg0 handle s) (hclosed : closed none p.script = true)
    (hload : Loadable USER_CODE_BASE p.segments) (cpu : TrapFrame) :
    SharedMachine.Owns ⟨s,cpu⟩ handle.pid handle.taskId ∧ ∃ l,
      SharedMachine.process ⟨s,cpu⟩ handle.pid = some l ∧ Begun p.script arg0 l := by
  obtain ⟨trace,hrun⟩ := h.run
  obtain ⟨hcur,l,hrest,hbegun⟩ := h.rests hclosed hload
  obtain ⟨hown,hl⟩ := hrest.held hrun.stable hcur cpu
  exact ⟨hown,l,hl,hbegun⟩

end

end VladOs
