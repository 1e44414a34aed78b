import VladOs.Program.Lockstep

namespace VladOs.Build

open Amd64 Paging

def codeOf (script : List Command) : List UInt8 := script.flatMap fun k => assemble k.insns

def emitAll (script : List Command) : Emitter := fun bytes =>
  script.foldl (fun bytes k => k.emit bytes) bytes

def Command.falls : Command → Bool
  | .exitWithCode _ | .primitive .spin | .primitive .jmpBackToInc => false
  | _ => true

def Command.jumpsBack : Command → Bool
  | .primitive .jmpBackToInc => true
  | _ => false

def Command.isInc : Command → Bool
  | .primitive .incAtRbx => true
  | _ => false

def closed (previous : Option Command) : List Command → Bool
  | [] => false
  | k :: rest =>
    (!k.jumpsBack || previous.any Command.isInc) && (closed (some k) rest || !k.falls && rest.isEmpty)

structure Boundary (script : List Command) (base address : ℕ) (k : Command) : Prop where
  split : ∃ done rest, script = done ++ k :: rest ∧ address = base + (codeOf done).length

inductive Lands (k : Command) (c c' : Cpu) : Prop where
  | falls : k.falls = true → c'.rip = c.rip + UInt64.ofNat k.size → Lands k c c'
  | spins : k = .primitive .spin → c'.rip = c.rip → Lands k c c'
  | back : k = .primitive .jmpBackToInc → c'.rip = c.rip - 3 → Lands k c c'

inductive Outcome (next : UInt64) (holds : Prop) : Result → Prop where
  | proceeds {c : Cpu} {stores : List (ℕ × UInt8)} : holds → c.rip = next →
      Outcome next holds (.proceed c stores)
  | asks {c : Cpu} {number : UInt32} : holds → c.rip = next → c.regs .rax = signed32 number →
      number ∈ [SYS_YIELD,SYS_WRITE,SYS_WAITPID,SYS_OPEN,SYS_READ,SYS_CLOSE,SYS_BRK] →
      Outcome next holds (.trap 0x80 c)
  | fails {c : Cpu} : ¬ holds → c.regs .rax = signed32 SYS_EXIT → c.regs .rdi = 1 →
      Outcome next holds (.trap 0x80 c)
  | pageFault {address : ℕ} {present write : Bool} : Outcome next holds (.pageFault address present write)
  | protection : Outcome next holds .protection

section

variable {script done rest : List Command} {k : Command} {base address : ℕ} {p : Processor} {view : View}
  {c c' : Cpu} {r : Result}

theorem emitAll_eq (script : List Command) (bytes : List UInt8) :
    emitAll script bytes = bytes ++ codeOf script := by
  induction script generalizing bytes with
  | nil => simp [emitAll,codeOf]
  | cons k rest ih =>
    change emitAll rest (k.emit bytes) = _
    rw [ih,k.emits,codeOf,codeOf,List.flatMap_cons,List.append_assoc]

theorem codeOf_append (done rest : List Command) : codeOf (done ++ rest) = codeOf done ++ codeOf rest :=
  List.flatMap_append ..

theorem codeOf_cons (k : Command) (rest : List Command) :
    codeOf (k :: rest) = assemble k.insns ++ codeOf rest := List.flatMap_cons ..

theorem Insn.encode_ne_nil (i : Insn) : i.encode ≠ [] := by
  cases i <;> simp [Insn.encode]

theorem Command.size_pos (k : Command) : 0 < k.size := by
  have hne : ∃ i is, k.insns = i :: is := by
    cases k <;> exact ⟨_,_,rfl⟩
  obtain ⟨i,is,his⟩ := hne
  rw [Command.size,his,assemble,List.flatMap_cons,List.length_append]
  have := List.length_pos_iff.mpr (Insn.encode_ne_nil i)
  omega

theorem commandAt_after (done : List Command) :
    commandAt (done ++ k :: rest) base (base + (codeOf done).length) = some k := by
  induction done generalizing base with
  | nil => simp [commandAt,codeOf]
  | cons j done ih =>
    have hpos := j.size_pos
    have hlen : base + (codeOf (j :: done)).length = base + j.size + (codeOf done).length := by
      rw [codeOf_cons,List.length_append,Command.size,Nat.add_assoc]
    rw [hlen,List.cons_append,commandAt,if_neg (by omega)]
    exact ih

theorem Boundary.command (h : Boundary script base address k) : commandAt script base address = some k := by
  obtain ⟨done,rest,rfl,rfl⟩ := h
  exact commandAt_after done

theorem closed_split {previous : Option Command} (h : closed previous (done ++ k :: rest) = true) :
    (k.falls = true → rest ≠ []) ∧
      (k.jumpsBack = true → (previous.toList ++ done).getLast?.any Command.isInc = true) := by
  induction done generalizing previous with
  | nil =>
    simp only [List.nil_append,closed,Bool.and_eq_true,Bool.or_eq_true,Bool.not_eq_true'] at h
    obtain ⟨hback,hrest⟩ := h
    refine ⟨fun hfalls hnil => ?_,fun hjump => ?_⟩
    · subst hnil
      rcases hrest with hclosed | ⟨hstop,-⟩
      · cases hclosed
      · cases hstop.symm.trans hfalls
    · rcases hback with hno | hinc
      · cases hno.symm.trans hjump
      · cases previous with
        | none => cases hinc
        | some j => exact hinc
  | cons j done ih =>
    simp only [List.cons_append,closed,Bool.and_eq_true,Bool.or_eq_true,List.isEmpty_iff,
      List.append_eq_nil_iff,reduceCtorEq,and_false,or_false] at h
    obtain ⟨hfalls,hjump⟩ := ih h.2
    refine ⟨hfalls,fun hback => ?_⟩
    rw [List.getLast?_append_of_ne_nil _ (List.cons_ne_nil j done)]
    exact hjump hback

theorem Outcome.reading {next : UInt64} {holds : Prop} {write : Bool} {a len : ℕ} {f : List UInt8 → Result}
    (h : Outcome next holds (f (fetch view a len))) :
    Outcome next holds (p.reading view write a len f) := by
  unfold Processor.reading
  split_ifs with hlow
  · cases hread : readBytes (p.checker write) view a len with
    | ok bytes => exact fetch_of_read hread hlow ▸ h
    | error e => exact .pageFault
  · exact .protection
  · exact .pageFault

theorem outcome_asks {next : UInt64} {number : UInt32} (d : Cpu)
    (h : number ∈ [SYS_YIELD,SYS_WRITE,SYS_WAITPID,SYS_OPEN,SYS_READ,SYS_CLOSE,SYS_BRK]) :
    Outcome next True (Command.asks next number d) := .asks trivial rfl (by simp) h

theorem outcome_requires {next : UInt64} {condition : Bool} {holds : Prop} (d : Cpu)
    (h : condition = true ↔ holds) : Outcome next holds (Command.requires next condition d) := by
  unfold Command.requires
  split_ifs with hcondition
  · exact .proceeds (h.mp hcondition) rfl
  · exact .fails (fun hholds => hcondition (h.mpr hholds)) (by simp) (by simp)

theorem Command.outcome (k : Command) (hfalls : k.falls = true) (hk : ∀ q, k ≠ .primitive q)
    (next : UInt64) : Outcome next (k.holds view c) (k.perform p view next c) := by
  cases k with
  | primitive q => exact absurd rfl (hk q)
  | exitWithCode code => cases hfalls
  | checkRaxEqContinue | checkRaxNonzeroContinue => exact outcome_requires _ (by simp [holds])
  | checkRaxEqMemContinue | checkRaxEqMemPlusContinue | checkU32MemEqContinue | checkI32MemEqContinue
  | checkByteMemEqContinue => exact .reading (outcome_requires _ (by simp [holds]))
  | checkBytePtrMemEqContinue => exact .reading (.reading (outcome_requires _ (by simp [holds])))
  | loadRbxFromMemPlus => exact .reading (.proceeds trivial rfl)
  | writeBytePtrMem => exact .reading (.reading (.proceeds trivial rfl))
  | storeRax | storeRdi => exact .reading (.proceeds trivial rfl)
  | readSyscallFdMem | writeSyscallFdMem | waitpidFromMem | closeSyscallFdMem | brkFromMemDelta
  | writeSyscallFdPtrMem => exact .reading (outcome_asks _ (by decide))
  | _ => exact outcome_asks _ (by decide)

theorem Primitive.lands (q : Primitive) (h : (p.exec view q.insn c).target = some c') :
    Lands (.primitive q) c c' := by
  cases q with
  | spin =>
    cases h
    refine .spins rfl ?_
    change c.rip + 2 + signed8 0xfe = c.rip
    rw [show signed8 0xfe = -2 from rfl]
    grind
  | jmpBackToInc =>
    cases h
    refine .back rfl ?_
    change c.rip + 2 + signed8 0xfb = c.rip - 3
    rw [show signed8 0xfb = -5 from rfl]
    grind
  | storeRaxAtRbx | storeRdiAtRbx | storeOneAtRax | loadRdiAtRbx | loadRaxAtRbx | incAtRbx =>
    simp only [Primitive.insn,Processor.exec] at h
    obtain ⟨bytes,hbytes⟩ := reading_target h
    rw [hbytes] at h
    cases h
    exact .falls rfl rfl
  | _ =>
    cases h
    exact .falls rfl rfl

theorem Command.lands (k : Command) (h : (k.result p view c).target = some c') :
    Lands k c c' ∨ k.result p view c = .trap 0x80 c' ∧ c'.regs .rax = signed32 SYS_EXIT := by
  by_cases hprimitive : ∃ q, k = .primitive q
  · obtain ⟨q,rfl⟩ := hprimitive
    exact Or.inl (q.lands h)
  · by_cases hfalls : k.falls = true
    · have houtcome : Outcome (c.rip + UInt64.ofNat k.size) (k.holds view c) (k.result p view c) :=
        k.outcome hfalls (fun q hq => hprimitive ⟨q,hq⟩) _
      generalize k.result p view c = r at h houtcome
      cases houtcome with
      | proceeds _ hrip =>
        cases h
        exact Or.inl (.falls hfalls hrip)
      | asks _ hrip =>
        cases h
        exact Or.inl (.falls hfalls hrip)
      | fails _ hrax =>
        cases h
        exact Or.inr ⟨rfl,hrax⟩
      | pageFault => cases h
      | protection => cases h
    · cases k with
      | exitWithCode code =>
        cases h
        exact Or.inr ⟨rfl,by simp⟩
      | primitive q => exact absurd ⟨q,rfl⟩ hprimitive
      | _ => exact absurd rfl hfalls

theorem Boundary.next {address' : ℕ} (h : Boundary script base address k)
    (hclosed : closed none script = true) (hfalls : k.falls = true)
    (haddress : address' = address + k.size) : ∃ j, Boundary script base address' j := by
  obtain ⟨done,rest,rfl,rfl⟩ := h
  obtain ⟨j,rest,rfl⟩ := List.exists_cons_of_ne_nil ((closed_split hclosed).1 hfalls)
  refine ⟨j,done ++ [k],rest,by simp,?_⟩
  rw [haddress,codeOf_append,codeOf_cons,List.length_append,List.length_append,Command.size,
    Nat.add_assoc]
  rfl

theorem Boundary.back (h : Boundary script base address (.primitive .jmpBackToInc))
    (hclosed : closed none script = true) :
    ∃ j address', address' + 3 = address ∧ Boundary script base address' j := by
  obtain ⟨done,rest,rfl,rfl⟩ := h
  have hlast := (closed_split hclosed).2 rfl
  rw [Option.toList_none,List.nil_append,Option.any_eq_true] at hlast
  obtain ⟨j,hj,hinc⟩ := hlast
  obtain ⟨before,rfl⟩ := List.getLast?_eq_some_iff.mp hj
  have hsize : j.size = 3 := by
    cases j with
    | primitive q =>
      cases q with
      | incAtRbx => rfl
      | _ => cases hinc
    | _ => cases hinc
  have hlen : (codeOf (before ++ [j])).length = (codeOf before).length + j.size := by
    rw [codeOf_append,codeOf_cons,List.length_append,List.length_append,Command.size]
    rfl
  exact ⟨j,base + (codeOf before).length,by omega,before,_,List.append_assoc ..,rfl⟩

theorem Boundary.bounded (h : Boundary script base address k)
    (hlow : base + (codeOf script).length ≤ 2 ^ 47) :
    address + k.size ≤ 2 ^ 47 := by
  obtain ⟨done,rest,rfl,rfl⟩ := h
  rw [codeOf_append,codeOf_cons,List.length_append,List.length_append] at hlow
  rw [Command.size]
  omega

theorem Boundary.lands (h : Boundary script base c.rip.toNat k) (hclosed : closed none script = true)
    (hlow : base + (codeOf script).length ≤ 2 ^ 47) (hlands : Lands k c c') :
    ∃ j, Boundary script base c'.rip.toNat j := by
  have hbound := h.bounded hlow
  cases hlands with
  | falls hfalls hrip =>
    refine h.next hclosed hfalls ?_
    rw [hrip,toNat_add_ofNat hbound]
  | spins _ hrip => exact ⟨k,hrip ▸ h⟩
  | back hk hrip =>
    subst hk
    obtain ⟨j,address,haddress,hj⟩ := h.back hclosed
    have hthree : (3 : UInt64) ≤ c.rip :=
      UInt64.le_iff_toNat_le.mpr (by rw [← haddress]; exact Nat.le_add_left ..)
    have hsub : c'.rip.toNat = address := by
      rw [hrip,UInt64.toNat_sub_of_le _ _ hthree,← haddress]
      rfl
    exact ⟨j,hsub ▸ hj⟩

end

end VladOs.Build

namespace VladOs

open Amd64 Build Stuttering

def commandCost (script : List Command) (base : ℕ) (l : PrivateMachine) : ℕ :=
  match l.waiting with
  | some _ => 1
  | none => (commandAt script base l.registers.rip.toNat).elim 1 fun k => blockLength k.insns

structure Linked (script : List Command) (base : ℕ) (l l' : PrivateMachine) : Prop where
  alike : Alike l l'
  installed : Installed base (codeOf script) l.view
  boundary : ∃ k, Boundary script base l.registers.rip.toNat k

section

variable {w : Hardware} {script : List Command} {base : ℕ} {pid : ProcessId} {l l' l₁ : PrivateMachine}
  {k : Command} {a : Activity} {c : Cpu}

theorem Installed.command (h : Installed base (codeOf script) l.view) {address : ℕ}
    (hk : Boundary script base address k) : CodeAt l.view.pages address (assemble k.insns) := by
  obtain ⟨done,rest,rfl,rfl⟩ := hk
  have hcode := h.present
  rw [codeOf_append,codeOf_cons] at hcode
  exact hcode.right.left

theorem Build.Boundary.effect (hk : Boundary script base l.registers.rip.toNat k) :
    (w.script base script).effect l.registers l.view.pages =
      (w.only k).effect l.registers l.view.pages := by
  simp only [Hardware.script,Hardware.only,hk.command,Option.map_some]

theorem Continues.lands (h : Continues (w.only k) l l₁) :
    ∃ c', Lands k l.registers.cpu c' ∧ l₁.registers.rip = c'.rip := by
  cases h with
  | compute he hrip =>
    obtain ⟨c',raw,hr,rfl,-⟩ := Hardware.effect_compute he
    refine ⟨c',(k.lands (by rw [hr]; rfl)).resolve_right fun hexit => ?_,hrip⟩
    cases hr.symm.trans hexit.1
  | call he hexit hrip =>
    obtain ⟨c',hr,rfl⟩ := Hardware.effect_call he
    refine ⟨c',(k.lands (by rw [hr]; rfl)).resolve_right fun hquit => hexit ?_,hrip⟩
    change SyscallNumber.fromRaw (c'.regs .rax) = _
    rw [hquit.2]
    rfl

theorem silent_chain {n : ℕ} {c d : Cpu} (hwait : l.waiting = none)
    (h : Chain (w.processor.Silent l.view.pages) n c d) :
    Chain (Forced (PrivateMachine.Step w.amd64 pid) (PrivateMachine.Ends w.amd64) Activity.isCompute) n
      { l with registers := l.registers.withCpu c } { l with registers := l.registers.withCpu d } := by
  induction h with
  | done => exact .done
  | @step n c c' d hstep _ ih =>
    refine .step (forced_of_compute hwait ?_) ih
    change w.effect _ _ (w.processor.step l.view.pages (l.registers.withCpu c).cpu) = _
    rw [TrapFrame.cpu_withCpu,hstep]
    rfl

theorem Linked.approach (h : Linked script base l l') (hk : Boundary script base l.registers.rip.toNat k) :
    ∃ n < blockLength k.insns, ∃ d, Chain (w.processor.Silent l'.view.pages) n l'.registers.cpu d ∧
      EffectsAlike ((w.only k).effect l.registers l.view.pages)
        (w.amd64.effect (l'.registers.withCpu d) l'.view.pages) := by
  obtain ⟨halike,hinstalled,-⟩ := h
  have hagree := halike.registers.agree
  have hcode : CodeAt l'.view.pages l'.registers.cpu.rip.toNat (assemble k.insns) := by
    rw [halike.view,hagree.rip]
    exact hinstalled.command hk
  obtain ⟨i,is,his⟩ : ∃ i is, k.insns = i :: is := by
    cases k <;> exact ⟨_,_,rfl⟩
  rw [his] at hcode
  obtain ⟨n,hn,d,hchain,hstep⟩ := hcode.runs (p := w.processor)
  rw [← his] at hn hstep
  refine ⟨n,hn,d,hchain,?_⟩
  change EffectsAlike _ (w.effect _ _ (w.processor.step l'.view.pages (l'.registers.withCpu d).cpu))
  rw [TrapFrame.cpu_withCpu,hstep,halike.view]
  exact (k.matches hagree).effects halike.registers d

theorem script_refines (w : Hardware) (pid : ProcessId) (hclosed : closed none script = true) :
    Refines (PrivateMachine.Step (w.script base script) pid) (PrivateMachine.Ends (w.script base script))
      (PrivateMachine.Step w.amd64 pid) (PrivateMachine.Ends w.amd64) Activity.isCompute
      (Linked script base) (commandCost script base) := by
  refine ⟨fun {l l'} h => ?_⟩
  obtain ⟨halike,hinstalled,k,hk⟩ := h
  have hlow := hinstalled.present.low
  cases hwait : l.waiting with
  | some child =>
    refine ⟨0,by simp [commandCost,hwait],l',.done,fun hstep => ?_,fun hends => ?_⟩
    · obtain ⟨l₁,hstep₁,halike₁,hrip⟩ := hstep.awoken halike hwait
      exact ⟨l₁,hstep₁,halike₁,hinstalled.step hstep₁,k,hrip ▸ hk⟩
    · have hwait' := halike.waiting.trans hwait
      cases hends with
      | exit hw => cases hwait'.symm.trans hw
      | fault hw => cases hwait'.symm.trans hw
  | none =>
    have hwait' := halike.waiting.trans hwait
    obtain ⟨n,hn,d,hchain,heffects⟩ := Linked.approach (w := w) ⟨halike,hinstalled,k,hk⟩ hk
    rw [← hk.effect] at heffects
    have hcost : n < commandCost script base l := by
      simp only [commandCost,hwait,hk.command,Option.elim_some]
      exact hn
    have hview : ({ l' with registers := l'.registers.withCpu d } : PrivateMachine).view = l.view :=
      halike.view
    refine ⟨n,hcost,_,silent_chain hwait' hchain,fun hstep' => ?_,fun hends => hends.matched hwait heffects⟩
    obtain ⟨l₁,hstep₁,halike₁⟩ := hstep'.matched hview hwait hwait' heffects
    obtain ⟨c',hlands,hrip⟩ := ((hstep₁.congr hk.effect.symm).continues hwait).lands
    exact ⟨l₁,hstep₁,halike₁,hinstalled.step hstep₁,hrip ▸ hk.lands hclosed hlow hlands⟩

end

end VladOs
