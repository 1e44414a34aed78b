import VladOs.Program.Suite

namespace VladOs.Build

open Amd64

def Command.loops : Command → Bool
  | .primitive .spin | .primitive .jmpBackToInc => true
  | _ => false

def lifetime (script : List Command) : ℕ := (script.map fun k => blockLength k.insns).sum

def ahead : List Command → ℕ → ℕ → ℕ
  | [], _, _ => 0
  | k :: rest, base, address =>
    if address = base then lifetime (k :: rest) else ahead rest (base + k.size) address

section

variable {script done rest : List Command} {k : Command} {base address : ℕ}

theorem lifetime_cons (k : Command) (rest : List Command) :
    lifetime (k :: rest) = blockLength k.insns + lifetime rest := List.sum_cons

theorem Command.blockLength_pos (k : Command) : 0 < blockLength k.insns := by
  cases k <;> exact Amd64.blockLength_pos ..

theorem ahead_after (done : List Command) :
    ahead (done ++ k :: rest) base (base + (codeOf done).length) = lifetime (k :: rest) := by
  induction done generalizing base with
  | nil => simp [ahead,codeOf]
  | cons j done ih =>
    have hpos := j.size_pos
    have hlen : base + (codeOf (j :: done)).length = base + j.size + (codeOf done).length := by
      rw [codeOf_cons,List.length_append,Command.size,Nat.add_assoc]
    rw [hlen,List.cons_append,ahead,if_neg (by omega)]
    exact ih

theorem Boundary.ahead (h : Boundary script base address k) :
    blockLength k.insns ≤ ahead script base address := by
  obtain ⟨done,rest,rfl,rfl⟩ := h
  rw [ahead_after,lifetime_cons]
  exact Nat.le_add_right ..

theorem Boundary.ahead_next (h : Boundary script base address k) (hclosed : closed none script = true)
    (hfalls : k.falls = true) :
    Build.ahead script base (address + k.size) + blockLength k.insns = Build.ahead script base address := by
  obtain ⟨done,rest,rfl,rfl⟩ := h
  obtain ⟨j,rest,rfl⟩ := List.exists_cons_of_ne_nil ((closed_split hclosed).1 hfalls)
  have hlen : base + (codeOf done).length + k.size = base + (codeOf (done ++ [k])).length := by
    rw [codeOf_append,codeOf_cons,List.length_append,List.length_append,Command.size,Nat.add_assoc]
    rfl
  rw [hlen,ahead_after,lifetime_cons,List.append_cons,ahead_after,Nat.add_comm]

end

end VladOs.Build

namespace VladOs

open Amd64 Build Stuttering Projection Transition Kernel

section

variable {w : Hardware} {script : List Command} {base : ℕ} {pid : ProcessId} {l l' : PrivateMachine}
  {a : Activity}

theorem Linked.cost_le {x : PrivateMachine} (h : Linked script base l x) :
    commandCost script base l ≤ ahead script base l.registers.rip.toNat := by
  obtain ⟨-,-,k,hk⟩ := h
  have hahead := hk.ahead
  unfold commandCost
  split
  · exact Nat.le_trans k.blockLength_pos hahead
  · rw [hk.command]
    exact hahead

theorem script_lowers (w : Hardware) (pid : ProcessId) (hclosed : closed none script = true)
    (hloop : ∀ k ∈ script, k.loops = false) :
    Lowers (PrivateMachine.Step (w.script base script) pid) (Linked script base) (commandCost script base)
      Activity.isInstruction (fun l => ahead script base l.registers.rip.toNat) := by
  refine ⟨Linked.cost_le,fun {l x a l'} hlinked hstep => ?_⟩
  obtain ⟨-,hinstalled,k,hk⟩ := hlinked
  cases hwait : l.waiting with
  | some child =>
    simp only [commandCost,hwait]
    cases hstep with
    | woken => exact Nat.le_refl _
    | compute hw | call hw | exhausted hw | unknown hw | yielded hw | waitRefused hw | stillRunning hw
    | collected hw | blocked hw => cases hw.symm.trans hwait
  | none =>
    simp only [commandCost,hwait,hk.command,Option.elim_some]
    obtain ⟨c',hlands,hrip⟩ := ((hstep.congr hk.effect.symm).continues hwait).lands
    have hmem : k ∈ script := by
      obtain ⟨done,rest,rfl,-⟩ := hk
      exact List.mem_append_right _ List.mem_cons_self
    have hmoves : a.isInstruction = true := by
      cases hstep with
      | woken hw => cases hw.symm.trans hwait
      | _ => rfl
    rw [if_pos hmoves,Nat.add_zero]
    cases hlands with
    | spins hspin =>
      subst hspin
      cases hloop _ hmem
    | back hback =>
      subst hback
      cases hloop _ hmem
    | falls hfalls hnext =>
      have hbound := hk.bounded hinstalled.present.low
      have haddress : l'.registers.rip.toNat = l.registers.rip.toNat + k.size := by
        rw [hrip,hnext,show l.registers.cpu.rip = l.registers.rip from rfl,toNat_add_ofNat hbound]
      rw [haddress]
      exact (hk.ahead_next hclosed hfalls).le

end

section

variable {B : Boot} {P : Platform} {w : Hardware} {p : Program} {arg0 : UInt64} {handle : UserProcessHandle}
  {s : System} {cpu : TrapFrame} {m' : SharedMachine} {later : List Observation}

theorem Mirrored.bounded {isa : Isa} {pid : ProcessId} {i n : ℕ} {l : PrivateMachine}
    {events : List Observation} (h : Mirrored isa pid i l m' events) (hst : Stable B.toBootMemory m'.system)
    (hbounded : ∀ {acts l'}, Runs (· = l) (PrivateMachine.Step isa pid) acts l' →
      (acts.filter Activity.isInstruction).length < n) :
    events.length ≤ n ∧ (m'.process pid ≠ none → events.length < n) := by
  cases h with
  | alive hacts hfits _ =>
    have hlt := hbounded hacts
    rw [hfits.length_eq] at hlt
    exact ⟨hlt.le,fun _ => hlt⟩
  | ended hacts hfits _ _ hgone =>
    have hlt := hbounded hacts
    rw [hfits.length_eq] at hlt
    exact ⟨hlt,fun hsome => absurd (hgone.process hst) hsome⟩

theorem Begun.bounded {script : List Command} {pid : ProcessId} {l l' : PrivateMachine} {acts : List Activity}
    (h : Begun script arg0 l) (hclosed : closed none script = true) (hloop : ∀ k ∈ script, k.loops = false)
    (hacts : Runs (· = l) (PrivateMachine.Step w.amd64 pid) acts l') :
    (acts.filter Activity.isInstruction).length < lifetime script := by
  have hall : ahead script USER_CODE_BASE l.registers.rip.toNat = lifetime script := by
    cases script with
    | nil => cases hclosed
    | cons k rest =>
      rw [h.start]
      exact ahead_after []
  exact hall ▸ (script_refines w pid hclosed).bounded (script_lowers w pid hclosed hloop) h.linked hacts

theorem built_program_ends (h : Launched P B p arg0 handle s) (hclosed : closed none p.script = true)
    (hload : Loadable USER_CODE_BASE p.segments) (hloop : ∀ k ∈ p.script, k.loops = false)
    (hlater : Runs (· = ⟨s,cpu⟩)
      (fun m e m' => Observed P w.amd64 m e m' ∧ e.happening.spares handle.taskId) later m') :
    (later.filter (·.happening.isOf handle.pid)).length ≤ lifetime p.script ∧
      (m'.process handle.pid ≠ none →
        (later.filter (·.happening.isOf handle.pid)).length < lifetime p.script) := by
  obtain ⟨l,-,hbegun,hmirrored,hst⟩ := h.followed hclosed hload hlater
  exact hmirrored.bounded hst fun hacts => hbegun.bounded hclosed hloop hacts

theorem built_program_ends_hello : ∃ handle s later m',
    Launched standardPlatform smallMachine writeHello 0 handle s ∧
    Runs (· = ⟨s,.ofCall 0 0 0 0⟩) (fun m e m' =>
      Observed standardPlatform plainHardware.amd64 m e m' ∧ e.happening.spares handle.taskId) later m' ∧
    ⟨.instruction handle.pid,helloMessage⟩ ∈ later ∧ m'.Gone handle.pid handle.taskId (.exited 0) ∧
    (later.filter (·.happening.isOf handle.pid)).length ≤ lifetime writeHello.script := by
  obtain ⟨handle,s,later,m',hlaunched,hlater,-,hsaid,hgone⟩ := exists_hello plainHardware
  have hfits : writeHello.fits = true := by decide
  obtain ⟨hle,-⟩ := built_program_ends hlaunched (by decide) (Program.fits.loadable hfits) (by decide) hlater
  exact ⟨handle,s,later,m',hlaunched,hlater,hsaid,hgone,hle⟩

theorem fixtures_lifetime : ∀ f ∈ fixtures, lifetime f.script ≤ 430 := by
  decide +kernel

theorem fixture_ends (hp : p ∈ fixtures) (hloop : ∀ k ∈ p.script, k.loops = false)
    (h : Launched P B p arg0 handle s)
    (hlater : Runs (· = ⟨s,cpu⟩)
      (fun m e m' => Observed P w.amd64 m e m' ∧ e.happening.spares handle.taskId) later m') :
    (later.filter (·.happening.isOf handle.pid)).length ≤ 430 := by
  have hclosed := fixtures_closed p hp
  obtain ⟨l,-,hbegun,hmirrored,hst⟩ := h.followed hclosed (Program.fits.loadable (fixtures_fit p hp)) hlater
  exact (hmirrored.bounded hst fun hacts =>
    (hbegun.bounded hclosed hloop hacts).trans_le (fixtures_lifetime p hp)).1

end

end VladOs
