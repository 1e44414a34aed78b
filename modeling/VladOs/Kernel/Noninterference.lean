import VladOs.Kernel.LoadedImage
import VladOs.Kernel.Wakeup
import VladOs.Library.Interleaving

namespace VladOs

open Code Paging ProcessTable Kernel Transition

def Reschedules : Action → Prop
  | .timer _ _ => True
  | .yield _ _ => True
  | .syscall _ frame => SyscallNumber.fromRaw frame.rax = some .yield
  | _ => False

def Rescheduled (P : Platform) (s s' : System) : Prop :=
  ∃ trace, Runs (· = s) (fun s e s' => Step P s e s' ∧ Reschedules e.1) trace s'

abbrev CallResult := UInt64 × List UInt8

structure CallStep (P : Platform) (s : System) (pid : ProcessId) (c : Call) (w : CallResult)
    (s' : System) : Prop where
  intro ::
  run : ∃ s₁ rsp frame, Rescheduled P s s₁ ∧ s₁.kernel.currentPid = some pid ∧
    Syscall.request frame = some c ∧ Step P s₁ (.syscall rsp frame,.control (.resume rsp)) s' ∧
    (s'.kernel.frames rsp).rax = w.1 ∧ s'.kernel.serial = s₁.kernel.serial ++ w.2

def ownCall (pid : ProcessId) (v : Option ProcessView) (c : Call) : CallResult × Option ProcessView :=
  match v with
  | none => ((0,[]),none)
  | some v => (((Syscall.result (v.call pid c).1.1,(v.call pid c).1.2)),some (v.call pid c).2)

def FailsExhausted (v : Option ProcessView) (c : Call) (w : CallResult) : Prop :=
  ∃ v₀ r, v = some v₀ ∧ Exhausts v₀ c (r,w.2) ∧ w.1 = Syscall.result r

section

variable {B : BootMemory} {P : Platform} {s s' : System} {a : Action} {o : Output} {q : ProcessId}

theorem viewOf_core {k k' : Kernel} {inits : List UserTaskInit} (h : k'.core inits = k.core inits) :
    k'.viewOf q = k.viewOf q := by
  have hprocesses : k'.processes = k.processes := congrArg Core.processes h
  have hfiles : k'.openFiles = k.openFiles := congrArg Core.openFiles h
  have hmemory : k'.memory = k.memory := congrArg Core.memory h
  exact viewOf_congr (by rw [hprocesses]) fun _ => by simp only [processView,hfiles,hmemory]

theorem Performs.switches (hp : Performs B s a o s') (ha : Reschedules a) :
    ∃ frames, s'.inits = s.inits ∧ (s'.kernel = { s.kernel with frames := frames } ∨
      ∃ rsp c, Switches { s.kernel with frames := frames } rsp c s'.kernel) := by
  cases hp with
  | timerIgnored => exact ⟨_,rfl,Or.inl rfl⟩
  | timer hsw => exact ⟨_,rfl,Or.inr ⟨_,_,hsw⟩⟩
  | yielded hsw => exact ⟨_,rfl,Or.inr ⟨_,_,hsw⟩⟩
  | @userCall rsp frame i pid Q c k' _ hd =>
    have hraw : SyscallNumber.fromRaw frame.rax = some .yield := ha
    cases hd with
    | returned hreq _ => simp [Syscall.request,hraw] at hreq
    | unknown hnone => rw [hraw] at hnone; cases hnone
    | yielded _ hsw => exact ⟨_,rfl,Or.inr ⟨_,_,hsw⟩⟩
    | exited he _ _ => rw [hraw] at he; cases he
    | waited hw _ _ => rw [hraw] at hw; cases hw
  | @kernelCall rsp frame i t c k' _ _ _ hd =>
    have hraw : SyscallNumber.fromRaw frame.rax = some .yield := ha
    cases hd with
    | returned _ hne _ _ => exact absurd hraw hne
    | yielded _ hsw => exact ⟨_,rfl,Or.inr ⟨_,_,hsw⟩⟩
    | exited he _ _ => rw [hraw] at he; cases he
  | _ => cases ha

theorem scheduled_frames {k : Kernel} (h : k.Scheduled) (frames : ℕ → TrapFrame) :
    ({ k with frames := frames } : Kernel).Scheduled :=
  ⟨h.current,h.cached,h.loaded,h.main⟩

theorem Performs.reschedules (h : Stable B s) (hp : Performs B s a o s') (ha : Reschedules a) :
    s'.kernel.viewOf q = s.kernel.viewOf q := by
  obtain ⟨frames,-,hsame | ⟨rsp,c,hsw⟩⟩ := hp.switches ha
  · rw [hsame]
    rfl
  · have hcore : s'.kernel.core s.inits = ({ s.kernel with frames := frames } : Kernel).core s.inits :=
      hsw.core (scheduled_frames h.scheduled frames)
    exact viewOf_core hcore

theorem Rescheduled.stable (h : Stable B s) (hr : Rescheduled P s s') :
    Stable B s' ∧ ∀ q, s'.kernel.viewOf q = s.kernel.viewOf q := by
  obtain ⟨trace,hr⟩ := hr
  refine hr.invariant (I := fun s' => Stable B s' ∧ ∀ q, s'.kernel.viewOf q = s.kernel.viewOf q) ?_ ?_
  · rintro _ rfl
    exact ⟨h,fun _ => rfl⟩
  · rintro s₁ ⟨a,o⟩ s₂ ⟨hst,hview⟩ ⟨hstep,ha⟩
    have hp := hst.performs hstep
    exact ⟨hp.stable hst,fun q => (hp.reschedules hst ha).trans (hview q)⟩

theorem Performs.calls {rsp : ℕ} {frame : TrapFrame} {c : Call} {pid : ProcessId}
    (hp : Performs B s (.syscall rsp frame) o s') (hpid : s.kernel.currentPid = some pid)
    (hreq : Syscall.request frame = some c) :
    ∃ Q r k', s.kernel.processes.get pid = some Q ∧
      CallEffect B s.inits (s.kernel.trap rsp frame) pid Q c r k' ∧ o = .control (.resume rsp) ∧
      s' = { s with kernel := k'.setRax rsp (Syscall.result r) } := by
  obtain ⟨i,t,hi,ht,htp⟩ := currentPid_eq.mp hpid
  have hraw : ∀ {n}, SyscallNumber.fromRaw frame.rax = some n →
      n ≠ .yield ∧ n ≠ .exit ∧ n ≠ .waitPid := by
    intro n hn
    refine ⟨?_,?_,?_⟩ <;> · rintro rfl; simp [Syscall.request,hn] at hreq
  cases hp with
  | @userCall _ _ j q Q c' k' hcaller hd =>
    obtain rfl := hcaller.index_eq hi
    cases htp.symm.trans (hcaller.process_eq ht)
    cases hd with
    | returned hreq' he =>
      rw [hreq] at hreq'
      cases hreq'
      exact ⟨Q,_,_,hcaller.get,he,rfl,rfl⟩
    | unknown hnone => simp [Syscall.request,hnone] at hreq
    | yielded hy _ => exact absurd rfl (hraw hy).1
    | exited he _ _ => exact absurd rfl (hraw he).2.1
    | waited hw _ _ => exact absurd rfl (hraw hw).2.2
  | kernelCall hj hu hnone _ =>
    cases hi.symm.trans hj
    cases ht.symm.trans hu
    rw [htp] at hnone
    cases hnone

theorem callStep_isolates : Interleaving.Isolates (CallStep P) (Stable B)
    (fun s q => s.kernel.viewOf q) ownCall FailsExhausted where
  inv h hstep := by
    obtain ⟨s₁,rsp,frame,hresched,-,-,hsys,-⟩ := hstep.run
    have hst := (hresched.stable h).1
    exact (hst.performs hsys).stable hst
  other := by
    intro s pid c w s' q h hstep hne
    obtain ⟨s₁,rsp,frame,hresched,hpid,hreq,hsys,-⟩ := hstep.run
    obtain ⟨hst,hview⟩ := hresched.stable h
    obtain ⟨Q,r,k',hQ,he,-,rfl⟩ := (hst.performs hsys).calls hpid hreq
    exact (he.others q hne).trans (hview q)
  self := by
    intro s pid c w s' h hstep
    obtain ⟨s₁,rsp,frame,hresched,hpid,hreq,hsys,hrax,hserial⟩ := hstep.run
    obtain ⟨hst,hview⟩ := hresched.stable h
    obtain ⟨Q,r,k',hQ,he,-,rfl⟩ := (hst.performs hsys).calls hpid hreq
    obtain ⟨console,v',hconsole,hself,heff⟩ := he.self
    have hbefore : s.kernel.viewOf pid = some (s₁.kernel.processView Q) :=
      (hview pid).symm.trans (viewOf_some hQ)
    have hw₁ : w.1 = Syscall.result r := hrax.symm.trans (setRax_frame _ _ _)
    have hw₂ : w.2 = console := List.append_cancel_left (hserial.symm.trans hconsole)
    rcases heff with hx | hcall
    · exact Or.inl ⟨_,r,hbefore,hw₂ ▸ hx,hw₁⟩
    · refine Or.inr ?_
      have hafter : (s₁.kernel.processView Q).call pid c = ((r,console),v') := hcall
      simp only [ownCall,hbefore,hafter]
      exact Prod.ext (Prod.ext hw₁.symm hw₂.symm) hself.symm

end

abbrev views (s : System) (pid : ProcessId) : Option ProcessView := s.kernel.viewOf pid

def CallRun (P : Platform) (pid : ProcessId) : System → List (ProcessId × Call × CallResult) → System →
    Prop :=
  Interleaving.Runs (Interleaving.Spared (CallStep P) views FailsExhausted pid)

section

variable {B : Boot} {P : Platform} {trace : List Event} {s s' s₁ : System} {pid : ProcessId}

theorem processes_do_not_interfere (h : Run P B trace s)
    {shared alone : List (ProcessId × Call × CallResult)} (hshared : CallRun P pid s shared s')
    (halone : CallRun P pid s alone s₁)
    (hcalls : (Interleaving.calls pid shared).map Prod.fst = (Interleaving.calls pid alone).map Prod.fst) :
    (Interleaving.calls pid shared).map Prod.snd = (Interleaving.calls pid alone).map Prod.snd ∧
      s'.kernel.viewOf pid = s₁.kernel.viewOf pid :=
  callStep_isolates.same_calls h.stable hshared halone hcalls

theorem Rescheduled.refl (s : System) : Rescheduled P s s := ⟨[],.start rfl⟩

structure Seat (s : System) (i : ℕ) (pid : ProcessId) (stack : ℕ) (t : Task) : Prop where
  task : s.kernel.tasks[i]? = some t
  process : t.processId = some pid
  top : t.kernelStackTop = Task.stackTop stack
  ready : s.kernel.current ≠ some i → t.state = .ready

structure Paired (s : System) : Prop where
  two : s.kernel.tasks.length = 2
  first : ∃ t, Seat s 0 1 HEAP_START t
  second : ∃ t, Seat s 1 2 (HEAP_START + TASK_STACK_SIZE) t
  current : s.kernel.current = some 0 ∨ s.kernel.current = some 1

structure Turned (P : Platform) (s s₁ : System) : Prop where
  rescheduled : Rescheduled P s s₁
  files : s₁.kernel.openFiles = s.kernel.openFiles
  memory : s₁.kernel.memory = s.kernel.memory

theorem Seat.turns {i j stack stack' : ℕ} {q : ProcessId} {t u : Task} (hi : Seat s i pid stack t)
    (hj : Seat s j q stack' u) (hrun : Run P B trace s) (hcur : s.kernel.current = some i)
    (htwo : s.kernel.tasks.length = 2) (hnext : (i + 1) % 2 = j) (hne : j ≠ i) :
    ∃ e s₁, Run P B (e :: trace) s₁ ∧ Turned P s s₁ ∧ s₁.kernel.tasks.length = 2 ∧
      s₁.kernel.current = some j ∧ (∃ t, Seat s₁ i pid stack t) ∧ ∃ t, Seat s₁ j q stack' t := by
  have hready : u.state = .ready := hj.ready (by rw [hcur]; exact fun hc => hne (Option.some.inj hc).symm)
  have hafter : nextReadyAfter s.kernel.tasks i = some j := by
    simp [nextReadyAfter,htwo,List.range'_succ,hnext,hj.task,hready]
  obtain ⟨root,hstep⟩ := hrun.stable.yields P (.ofCall 0 0 0 0) hcur
    (hrun.frameOn hcur hi.task hi.process (hi.top ▸ userFrameBottom_add _)) rfl hafter hj.task
  generalize Task.userFrameBottom stack = rsp at hstep
  have hyield : Rescheduled P s _ := ⟨_,.next (.start rfl) ⟨hstep,rfl⟩⟩
  exact ⟨_,_,hrun.after hstep,⟨hyield,rfl,rfl⟩,turned_length.trans htwo,rfl,
    ⟨(t.setSavedRsp rsp).setState .ready,turned_leaves hi.task hne,hi.process,hi.top,fun _ => rfl⟩,
    ⟨u.setState .running,turned_enters hj.task hne,hj.process,hj.top,fun hc => absurd rfl hc⟩⟩

theorem Paired.schedules (h : Paired s) (hrun : Run P B trace s) (hpid : pid = 1 ∨ pid = 2) :
    ∃ trace₁ s₁ i stack t, Run P B trace₁ s₁ ∧ Turned P s s₁ ∧ Paired s₁ ∧ Seat s₁ i pid stack t ∧
      s₁.kernel.current = some i := by
  obtain ⟨htwo,⟨t,ht⟩,⟨u,hu⟩,hcur⟩ := id h
  have hstay : Turned P s s := ⟨.refl s,rfl,rfl⟩
  rcases hpid with rfl | rfl
  · rcases hcur with hcur | hcur
    · exact ⟨trace,s,0,_,t,hrun,hstay,h,ht,hcur⟩
    · obtain ⟨e,s₁,hrun₁,hturned,htwo₁,hcur₁,hu₁,t₁,ht₁⟩ := hu.turns ht hrun hcur htwo rfl (by decide)
      exact ⟨_,s₁,0,_,t₁,hrun₁,hturned,⟨htwo₁,⟨t₁,ht₁⟩,hu₁,Or.inl hcur₁⟩,ht₁,hcur₁⟩
  · rcases hcur with hcur | hcur
    · obtain ⟨e,s₁,hrun₁,hturned,htwo₁,hcur₁,ht₁,u₁,hu₁⟩ := ht.turns hu hrun hcur htwo rfl (by decide)
      exact ⟨_,s₁,1,_,u₁,hrun₁,hturned,⟨htwo₁,ht₁,⟨u₁,hu₁⟩,Or.inr hcur₁⟩,hu₁,hcur₁⟩
    · exact ⟨trace,s,1,_,u,hrun,hstay,h,hu,hcur⟩

structure Called (B : BootMemory) (P : Platform) (s : System) (pid : ProcessId) (c : Call) (v : ProcessView)
    (r : Except SysError ℕ) (console : List UInt8) (k' : Kernel) (s' : System) : Prop where
  step : CallStep P s pid c (Syscall.result r,console) s'
  exact : ∃ k Q, k.openFiles = s.kernel.openFiles ∧ k.memory = s.kernel.memory ∧ k.processView Q = v ∧
    CallExact B k pid Q c r k'
  files : s'.kernel.openFiles = k'.openFiles
  memory : s'.kernel.memory = k'.memory
  others : ∀ q, q ≠ pid → s'.kernel.viewOf q = s.kernel.viewOf q
  self : ∃ v', s'.kernel.viewOf pid = some v' ∧
    (Exhausts v c (r,console) ∨ v.call pid c = ((r,console),v'))

theorem Paired.calls (h : Paired s) (hrun : Run P B trace s) (hpid : pid = 1 ∨ pid = 2) (frame : TrapFrame)
    {c : Call} {v : ProcessView} (hview : s.kernel.viewOf pid = some v)
    (hreq : Syscall.request frame = some c) (hcanonical : Syscall.PointersCanonical frame) :
    ∃ trace' s' r console k', Run P B trace' s' ∧ Paired s' ∧
      Called B.toBootMemory P s pid c v r console k' s' := by
  obtain ⟨trace₁,s₁,i,stack,t,hrun₁,hturned,hpaired,hseat,hcur⟩ := h.schedules hrun hpid
  obtain ⟨hst,hviews⟩ := hturned.rescheduled.stable hrun.stable
  have hcurrent : s₁.kernel.currentPid = some pid :=
    currentPid_eq.mpr ⟨i,t,hcur,hseat.task,hseat.process⟩
  obtain ⟨o,s',hstep,hperf⟩ := hst.progress P (a := .syscall (Task.userFrameBottom stack) frame)
    ⟨Option.isSome_iff_exists.mpr ⟨i,hcur⟩,
      hrun₁.frameOn hcur hseat.task hseat.process (hseat.top ▸ userFrameBottom_add stack)⟩ hcanonical
  obtain ⟨Q,r,k',hQ,he,rfl,rfl⟩ := hperf.calls hcurrent hreq
  obtain ⟨console,v',hserial,hself,heffect⟩ := he.self
  have hsame : (s₁.kernel.trap (Task.userFrameBottom stack) frame).processView Q = v :=
    Option.some.inj ((viewOf_some hQ).symm.trans ((hviews pid).trans hview))
  have htasks : k'.tasks = s₁.kernel.tasks := (congrArg Kernel.tasks he.rest).trans rfl
  have hcur' : k'.current = s₁.kernel.current := (congrArg Kernel.current he.rest).trans rfl
  refine ⟨_,_,r,console,k',hrun₁.after hstep,?_,?_⟩
  · obtain ⟨htwo,⟨t₁,ht₁⟩,⟨u₁,hu₁⟩,hcurrents⟩ := hpaired
    exact ⟨htasks ▸ htwo,⟨t₁,htasks ▸ ht₁.task,ht₁.process,ht₁.top,fun hc => ht₁.ready (hcur' ▸ hc)⟩,
      ⟨u₁,htasks ▸ hu₁.task,hu₁.process,hu₁.top,fun hc => hu₁.ready (hcur' ▸ hc)⟩,hcur' ▸ hcurrents⟩
  · refine ⟨⟨s₁,_,frame,hturned.rescheduled,hcurrent,hreq,hstep,setRax_frame _ _ _,hserial⟩,
      ⟨s₁.kernel.trap _ frame,Q,hturned.files,hturned.memory,hsame,he.exact⟩,rfl,rfl,
      fun q hq => (he.others q hq).trans (hviews q),v',hself,?_⟩
    rw [← hsame]
    exact heffect

theorem Called.answered {c : Call} {v v' : ProcessView} {r r₀ : Except SysError ℕ}
    {console console₀ : List UInt8} {k' : Kernel} {B : BootMemory}
    (h : Called B P s pid c v r console k' s') (hcall : v.call pid c = ((r₀,console₀),v'))
    (hspared : ¬ Exhausts v c (r,console)) :
    r = r₀ ∧ console = console₀ ∧ s'.kernel.viewOf pid = some v' := by
  obtain ⟨v₁,hview,hx | hself⟩ := h.self
  · exact absurd hx hspared
  · cases hself.symm.trans hcall
    exact ⟨rfl,rfl,hview⟩

def motdPath : List UInt8 := ascii "/motd"

def openedMotd (v : ProcessView) : ProcessView :=
  { v with files := v.files.set 3 (some ⟨.embeddedFile 1,.readOnly,0⟩) }

def heapTop : VirtAddr := ⟨0x8000602000,Or.inl (by norm_num)⟩

theorem DataView.opens {v : ProcessView} (h : DataView motdPath v) (pid : ProcessId) :
    v.call pid (.open dataBase 5 O_RDONLY) = ((.ok 3,[]),openedMotd v) := by
  have hidx : v.files.findIdx? Option.isNone = some 3 := by rw [h.files]; rfl
  exact ProcessView.openPath_done (by decide) (by decide) (h.page.reads (by decide))
    (show findEmbeddedFile motdPath = some 1 by decide) hidx

theorem ProcessView.grows {v : ProcessView} (h : v.heap = dataHeap) (pid : ProcessId) :
    v.call pid (.brk 0x8000602000) = ((.ok 0x8000602000,[]),v.setBreak heapTop heapTop) := by
  rw [ProcessView.call,ProcessView.moveBreak,h]
  rfl

theorem Called.opened {v : ProcessView} {r : Except SysError ℕ} {console : List UInt8} {k' : Kernel}
    {o' : OpenFileTable} {id : OpenFileId} {B : BootMemory}
    (h : Called B P s pid (.open dataBase 5 O_RDONLY) v r console k' s') (hdata : DataView motdPath v)
    (halloc : ∀ file, ∃ id o', s.kernel.openFiles.alloc (.embeddedFile file) .readOnly = (.ok id,o'))
    (hmotd : s.kernel.openFiles.alloc (.embeddedFile 1) .readOnly = (.ok id,o')) :
    r = .ok 3 ∧ console = [] ∧ s'.kernel.viewOf pid = some (openedMotd v) ∧
      s'.kernel.openFiles = o' ∧ s'.kernel.memory = s.kernel.memory := by
  obtain ⟨k,Q,hfiles,hmemory,hview,hexact⟩ := h.exact
  have hcall := hdata.opens pid
  have hspared : ¬ Exhausts v (.open dataBase 5 O_RDONLY) (r,console) := by
    intro hx
    cases hx
    cases hexact with
    | kept hkept =>
      rw [hview] at hkept
      cases hkept.symm.trans hcall
    | @openRefused _ _ _ file _ _ hrefused =>
      obtain ⟨id,o,hok⟩ := halloc file
      rw [← hfiles] at hok
      cases hok.symm.trans hrefused
  obtain ⟨rfl,rfl,hafter⟩ := h.answered hcall hspared
  refine ⟨rfl,rfl,hafter,?_⟩
  have hsame := h.files
  have hsame' := h.memory
  cases hexact with
  | kept hkept =>
    rw [hview] at hkept
    have hsame : openedMotd v = v := congrArg Prod.snd (hcall.symm.trans hkept)
    have hentry := congrArg (fun w : ProcessView => w.files[3]?) hsame
    simp only [openedMotd,hdata.files] at hentry
    cases hentry
  | opened hread hfind halloc' hidx =>
    have hpages : k.memory.page Q.addressSpace.level4Frame = v.pages := congrArg ProcessView.pages hview
    rw [hpages] at hread
    cases (hdata.page.reads (by decide)).symm.trans hread
    cases (show findEmbeddedFile motdPath = some 1 by decide).symm.trans hfind
    rw [hfiles] at halloc'
    cases hmotd.symm.trans halloc'
    exact ⟨hsame,hsame'.trans hmemory⟩

theorem Called.grown {requested n : ℕ} {v v' : ProcessView} {r : Except SysError ℕ} {console : List UInt8}
    {k' : Kernel} {B : BootMemory} (h : Called B P s pid (.brk requested) v r console k' s')
    (hcall : v.call pid (.brk requested) = ((.ok n,[]),v')) (hm : s.kernel.memory.Sound B)
    (hleft : 4 * ((requested + 4095) / 4096 - v.heap.mappedEnd.addr / 4096) < s.kernel.memory.framesLeft) :
    r = .ok n ∧ console = [] ∧ s'.kernel.viewOf pid = some v' := by
  refine h.answered hcall fun hx => ?_
  obtain ⟨k,Q,-,hmemory,rfl,hexact⟩ := h.exact
  cases hx
  cases hexact with
  | kept hkept => cases hkept.symm.trans hcall
  | brkStuck _ hstuck =>
    obtain ⟨own,ho⟩ := hm
    have hnext := hstuck.next_le
    have hexhausted := hstuck.exhausted
    rw [hmemory] at hnext
    rw [ho.framesLeft] at hleft
    change 4 * (_ - Q.heap.mappedEnd.addr / 4096) < _ at hleft
    unfold Exhausted at hexhausted
    omega

theorem Called.starved {requested : ℕ} {v : ProcessView} {r : Except SysError ℕ} {console : List UInt8}
    {k' : Kernel} {B : BootMemory} (h : Called B P s pid (.brk requested) v r console k' s')
    (hheap : v.heap = dataHeap) (hlimit : requested = USER_HEAP_LIMIT) (hsmall : B.usable.length < 255) :
    r = .error .noMemory ∧ console = [] ∧ Exhausts v (.brk requested) (r,console) := by
  obtain ⟨k,Q,-,-,rfl,hexact⟩ := h.exact
  obtain ⟨rfl,-⟩ := hexact.starved hheap hlimit hsmall
  obtain ⟨v',-,hx | hself⟩ := h.self
  · cases id hx
    exact ⟨rfl,rfl,hx⟩
  · cases hself.symm.trans (ProcessView.reaches_limit hheap hlimit pid)

theorem DataView.reads {v : ProcessView} (h : DataView motdPath v) (pid : ProcessId) :
    ∃ v', ((openedMotd v).setBreak heapTop heapTop).call pid (.read 3 dataHeap.start 4) =
      ((.ok 4,[]),v') := by
  have hfile : ((openedMotd v).setBreak heapTop heapTop).file 3 = some ⟨.embeddedFile 1,.readOnly,0⟩ := by
    change ((v.files.set 3 _)[3]?).join = _
    rw [h.files]
    rfl
  refine ProcessView.readFile_done (by decide) hfile rfl rfl
    (show embeddedFile 1 = some ⟨motdPath,ascii "tiny kernel says hello\n"⟩ from rfl)
    (show 0 < (ascii "tiny kernel says hello\n").length by decide) fun j hj => ?_
  have hpage : (dataHeap.start.addr + j) / 4096 = 0x8000601 := by
    change (0x8000601000 + j) / 4096 = 0x8000601
    omega
  refine ⟨zeroPage heapFlags,userChecker_ok.mpr ⟨?_,?_,fun _ => by decide⟩⟩
  · rw [hpage]
    change heapPages v.pages (v.heap.mappedEnd.addr / 4096) _ _ = _
    rw [h.heap]
    exact if_pos (by decide)
  · change 0x8000000000 ≤ 0x8000601000 + j ∧ 0x8000601000 + j < 0x8000800000
    omega

theorem Paired.opens (h : Paired s) (hrun : Run P B trace s) (hpid : pid = 1 ∨ pid = 2) {v : ProcessView}
    {o' : OpenFileTable} {id : OpenFileId} (hview : s.kernel.viewOf pid = some v)
    (hdata : DataView motdPath v)
    (halloc : ∀ file, ∃ id o', s.kernel.openFiles.alloc (.embeddedFile file) .readOnly = (.ok id,o'))
    (hmotd : s.kernel.openFiles.alloc (.embeddedFile 1) .readOnly = (.ok id,o')) :
    ∃ trace' s', Run P B trace' s' ∧ Paired s' ∧ CallStep P s pid (.open dataBase 5 O_RDONLY) (3,[]) s' ∧
      s'.kernel.viewOf pid = some (openedMotd v) ∧
      (∀ q, q ≠ pid → s'.kernel.viewOf q = s.kernel.viewOf q) ∧ s'.kernel.openFiles = o' ∧
      s'.kernel.memory = s.kernel.memory := by
  obtain ⟨trace',s',r,console,k',hrun',hpaired,hcalled⟩ := h.calls hrun hpid (.ofCall 5 0x8000600000 5 0)
    hview rfl rfl
  obtain ⟨rfl,rfl,hafter,hfiles,hmemory⟩ := hcalled.opened hdata halloc hmotd
  exact ⟨trace',s',hrun',hpaired,hcalled.step,hafter,hcalled.others,hfiles,hmemory⟩

theorem Paired.grows (h : Paired s) (hrun : Run P B trace s) {v : ProcessView}
    (hview : s.kernel.viewOf 2 = some (openedMotd v)) (hdata : DataView motdPath v)
    (hleft : 4 < s.kernel.memory.framesLeft) :
    ∃ trace' s', Run P B trace' s' ∧ Paired s' ∧ CallStep P s 2 (.brk 0x8000602000) (0x8000602000,[]) s' ∧
      s'.kernel.viewOf 2 = some ((openedMotd v).setBreak heapTop heapTop) ∧
      s'.kernel.viewOf 1 = s.kernel.viewOf 1 := by
  obtain ⟨trace',s',r,console,k',hrun',hpaired,hcalled⟩ := h.calls hrun (Or.inr rfl)
    (.ofCall 8 0x8000602000 0 0) hview rfl trivial
  have hheap : (openedMotd v).heap = dataHeap := hdata.heap
  obtain ⟨rfl,rfl,hafter⟩ := hcalled.grown (ProcessView.grows hheap 2) hrun.stable.sound (by
    rw [hheap]
    exact hleft)
  exact ⟨trace',s',hrun',hpaired,hcalled.step,hafter,hcalled.others 1 (by decide)⟩

theorem Paired.starves (h : Paired s) (hrun : Run P B trace s) {v : ProcessView}
    (hview : s.kernel.viewOf 1 = some v) (hheap : v.heap = dataHeap) (hsmall : B.usable.length < 255) :
    ∃ trace' s', Run P B trace' s' ∧ Paired s' ∧
      CallStep P s 1 (.brk USER_HEAP_LIMIT) (SysError.noMemory.rawReturn,[]) s' ∧
      FailsExhausted (s.kernel.viewOf 1) (.brk USER_HEAP_LIMIT) (SysError.noMemory.rawReturn,[]) ∧
      s'.kernel.viewOf 2 = s.kernel.viewOf 2 := by
  obtain ⟨trace',s',r,console,k',hrun',hpaired,hcalled⟩ := h.calls hrun (Or.inl rfl)
    (.ofCall 8 0x8000700000 0 0) hview rfl trivial
  obtain ⟨rfl,rfl,hx⟩ := hcalled.starved hheap rfl hsmall
  exact ⟨trace',s',hrun',hpaired,hcalled.step,⟨v,_,hview,hx,rfl⟩,hcalled.others 2 (by decide)⟩

theorem Paired.reads (h : Paired s) (hrun : Run P B trace s) {v : ProcessView}
    (hview : s.kernel.viewOf 2 = some ((openedMotd v).setBreak heapTop heapTop))
    (hdata : DataView motdPath v) : ∃ s', CallStep P s 2 (.read 3 dataHeap.start 4) (4,[]) s' := by
  obtain ⟨trace',s',r,console,k',hrun',hpaired,hcalled⟩ := h.calls hrun (Or.inr rfl)
    (.ofCall 6 3 0x8000601000 4) hview rfl rfl
  obtain ⟨v',hcall⟩ := hdata.reads 2
  obtain ⟨rfl,rfl,-⟩ := hcalled.answered hcall nofun
  exact ⟨s',hcalled.step⟩

theorem DataPair.paired {data : List UInt8} (h : DataPair data s) : Paired s := by
  obtain ⟨entry,top,entry',top',htasks⟩ := h.tasks
  refine ⟨by rw [htasks]; rfl,⟨_,by rw [htasks]; rfl,rfl,rfl,fun hc => absurd h.current hc⟩,
    ⟨_,by rw [htasks]; rfl,rfl,rfl,fun _ => rfl⟩,Or.inl h.current⟩

theorem spared_calls {v : Option ProcessView} :
    ¬ FailsExhausted v (.open dataBase 5 O_RDONLY) (3,[]) ∧
      ¬ FailsExhausted v (.brk 0x8000602000) (0x8000602000,[]) ∧
      ¬ FailsExhausted v (.read 3 dataHeap.start 4) (4,[]) := by
  refine ⟨?_,?_,?_⟩
  · rintro ⟨v₀,r,-,hx,hw⟩
    cases hx
    exact absurd hw (by decide)
  · rintro ⟨v₀,r,-,hx,hw⟩
    cases hx
    exact absurd hw (by decide)
  · rintro ⟨v₀,r,-,hx,-⟩
    cases hx

theorem processes_do_not_interfere_family : ∃ trace s s' s₀,
    Run standardPlatform smallMachine trace s ∧
    CallRun standardPlatform 2 s [(1,.open dataBase 5 O_RDONLY,(3,[])),(2,.open dataBase 5 O_RDONLY,(3,[])),
      (2,.brk 0x8000602000,(0x8000602000,[])),(1,.brk USER_HEAP_LIMIT,(SysError.noMemory.rawReturn,[])),
      (2,.read 3 dataHeap.start 4,(4,[]))] s' ∧
    CallRun standardPlatform 2 s [(2,.open dataBase 5 O_RDONLY,(3,[])),
      (2,.brk 0x8000602000,(0x8000602000,[])),(2,.read 3 dataHeap.start 4,(4,[]))] s₀ ∧
    s'.kernel.viewOf 2 = s₀.kernel.viewOf 2 := by
  obtain ⟨trace,s,hrun,hpair⟩ := exists_dataPair motdPath (by decide)
  obtain ⟨v₁,hview₁,hdata₁⟩ := hpair.view 1 (Or.inl rfl)
  obtain ⟨v₂,hview₂,hdata₂⟩ := hpair.view 2 (Or.inr rfl)
  have hpaired := hpair.paired
  have hleft : 4 < s.kernel.memory.framesLeft := by
    rw [hpair.left]
    decide
  have hfiles : ∀ file, ∃ o', s.kernel.openFiles.alloc (.embeddedFile file) .readOnly = (.ok 6,o') := by
    rw [hpair.files]
    exact fun file => ⟨_,rfl⟩
  obtain ⟨o₁,hmotd₁⟩ := hfiles 1
  have hfiles₁ : ∀ file, ∃ o', o₁.alloc (.embeddedFile file) .readOnly = (.ok 7,o') := by
    rw [hpair.files] at hmotd₁
    cases hmotd₁
    exact fun file => ⟨_,rfl⟩
  obtain ⟨o₂,hmotd₂⟩ := hfiles₁ 1
  have hroom : ∀ file, ∃ id o', s.kernel.openFiles.alloc (.embeddedFile file) .readOnly = (.ok id,o') :=
    fun file => ⟨_,hfiles file⟩
  obtain ⟨_,s₁,hrun₁,hpaired₁,hopen₁,hview₁₁,hothers₁,ho₁,hm₁⟩ :=
    hpaired.opens hrun (Or.inl rfl) hview₁ hdata₁ hroom hmotd₁
  rw [← ho₁] at hfiles₁ hmotd₂
  rw [← hm₁] at hleft
  obtain ⟨_,s₂,hrun₂,hpaired₂,hopen₂,hview₂₂,hothers₂,-,hm₂⟩ := hpaired₁.opens hrun₁ (Or.inr rfl)
    ((hothers₁ 2 (by decide)).trans hview₂) hdata₂ (fun file => ⟨_,hfiles₁ file⟩) hmotd₂
  rw [← hm₂] at hleft
  obtain ⟨_,s₃,hrun₃,hpaired₃,hgrow₃,hview₂₃,hview₁₃⟩ := hpaired₂.grows hrun₂ hview₂₂ hdata₂ hleft
  obtain ⟨_,s₄,hrun₄,hpaired₄,hstarve₄,-,hview₂₄⟩ := hpaired₃.starves hrun₃
    (hview₁₃.trans ((hothers₂ 1 (by decide)).trans hview₁₁)) hdata₁.heap smallMachine_starves
  obtain ⟨s₅,hread₅⟩ := hpaired₄.reads hrun₄ (hview₂₄.trans hview₂₃) hdata₂
  rw [hm₂,hm₁] at hleft
  obtain ⟨_,u₁,hrun₁',hpaired₁',hopen₁',hview₂₁',-,-,hm₁'⟩ :=
    hpaired.opens hrun (Or.inr rfl) hview₂ hdata₂ hroom hmotd₁
  obtain ⟨_,u₂,hrun₂',hpaired₂',hgrow₂',hview₂₂',-⟩ :=
    hpaired₁'.grows hrun₁' hview₂₁' hdata₂ (hm₁' ▸ hleft)
  obtain ⟨u₃,hread₃'⟩ := hpaired₂'.reads hrun₂' hview₂₂' hdata₂
  have hshared : CallRun standardPlatform 2 s _ s₅ :=
    .cons ⟨hopen₁,nofun⟩ (.cons ⟨hopen₂,fun _ => spared_calls.1⟩ (.cons ⟨hgrow₃,fun _ => spared_calls.2.1⟩
      (.cons ⟨hstarve₄,nofun⟩ (.cons ⟨hread₅,fun _ => spared_calls.2.2⟩ .nil))))
  have halone : CallRun standardPlatform 2 s _ u₃ :=
    .cons ⟨hopen₁',fun _ => spared_calls.1⟩ (.cons ⟨hgrow₂',fun _ => spared_calls.2.1⟩
      (.cons ⟨hread₃',fun _ => spared_calls.2.2⟩ .nil))
  exact ⟨trace,s,s₅,u₃,hrun,hshared,halone,(processes_do_not_interfere hrun hshared halone rfl).2⟩

end

end VladOs
