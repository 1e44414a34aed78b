import VladOs.Kernel.Dispatch

namespace VladOs

open Paging

structure Store where
  address : VirtAddr
  byte : UInt8

def storeByteAt (view : View) (st : Store) : View :=
  match view (st.address.addr / 4096) with
  | none => view
  | some p => view.put (st.address.addr / 4096) (p.store (st.address.addr % 4096) [st.byte])

def storeAll (view : View) (stores : List Store) : View := stores.foldl storeByteAt view

def CanStore (view : View) (address : VirtAddr) : Prop :=
  ∃ p, view (address.addr / 4096) = some p ∧ contains p.flags WRITABLE = true

def gatedExceptions : List UInt8 := [3,8,13,14]

inductive Effect where
  | compute (next : TrapFrame) (stores : List Store)
  | call (next : TrapFrame)
  | fault (info : UserFaultInfo)
  | exception (vector : UInt8) (ungated : vector ∉ gatedExceptions)

def Effect.Survivable : Effect → Prop
  | .call next => Syscall.PointersCanonical next
  | .exception _ _ => False
  | _ => True

structure Isa where
  effect : TrapFrame → View → Effect
  permitted : ∀ {registers view next stores}, effect registers view = .compute next stores →
    ∀ st ∈ stores, CanStore view st.address

structure PrivateMachine where
  registers : TrapFrame
  view : ProcessView
  waiting : Option (ProcessId × Option VirtAddr)

inductive Activity where
  | compute
  | call (request : Call) (result : Except SysError ℕ) (console : List UInt8)
  | service
  | blocked (child : ProcessId)
  | woken (child : ProcessId) (exit : ProcessExit)

def Activity.isInstruction : Activity → Bool
  | .woken _ _ => false
  | _ => true

def Activity.console : Activity → List UInt8
  | .call _ _ console => console
  | _ => []

inductive Ending where
  | exited (code : UInt64)
  | faulted (info : UserFaultInfo)

def StatusPut (pages : View) (statusPtr : Option VirtAddr) (exit : ProcessExit) (pages' : View) : Prop :=
  match statusPtr with
  | none => pages' = pages
  | some a => writeBytes (userChecker .write) pages a.addr exit.waitStatusBytes = (.ok (),pages')

namespace PrivateMachine

def answered (l : PrivateMachine) (next : TrapFrame) (value : UInt64) : PrivateMachine :=
  { l with registers := { next with rax := value } }

inductive Step (isa : Isa) (pid : ProcessId) (l : PrivateMachine) : Activity → PrivateMachine → Prop where
  | compute {next : TrapFrame} {stores : List Store} : l.waiting = none →
      isa.effect l.registers l.view.pages = .compute next stores →
      Step isa pid l .compute { l with
        registers := next
        view := { l.view with pages := storeAll l.view.pages stores } }
  | call {next : TrapFrame} {c : Call} {r : Except SysError ℕ} {console : List UInt8} {v' : ProcessView} :
      l.waiting = none → isa.effect l.registers l.view.pages = .call next →
      Syscall.request next = some c → l.view.call pid c = ((r,console),v') →
      Step isa pid l (.call c r console) { l.answered next (Syscall.result r) with view := v' }
  | exhausted {next : TrapFrame} {c : Call} {r : Except SysError ℕ} {console : List UInt8} :
      l.waiting = none → isa.effect l.registers l.view.pages = .call next →
      Syscall.request next = some c → Exhausts l.view c (r,console) →
      Step isa pid l (.call c r console) (l.answered next (Syscall.result r))
  | unknown {next : TrapFrame} : l.waiting = none → isa.effect l.registers l.view.pages = .call next →
      SyscallNumber.fromRaw next.rax = none →
      Step isa pid l .service (l.answered next SysError.noSys.rawReturn)
  | yielded {next : TrapFrame} : l.waiting = none → isa.effect l.registers l.view.pages = .call next →
      SyscallNumber.fromRaw next.rax = some .yield → Step isa pid l .service (l.answered next 0)
  | waitRefused {next : TrapFrame} {e : SysError} : l.waiting = none →
      isa.effect l.registers l.view.pages = .call next →
      SyscallNumber.fromRaw next.rax = some .waitPid → e = .invalid ∨ e = .child ∨ e = .fault →
      Step isa pid l .service (l.answered next e.rawReturn)
  | stillRunning {next : TrapFrame} : l.waiting = none →
      isa.effect l.registers l.view.pages = .call next →
      SyscallNumber.fromRaw next.rax = some .waitPid → next.rdx.toNat = WNOHANG →
      Step isa pid l .service (l.answered next 0)
  | collected {next : TrapFrame} {statusPtr : Option VirtAddr} {exit : ProcessExit} {pages' : View} :
      l.waiting = none → isa.effect l.registers l.view.pages = .call next →
      SyscallNumber.fromRaw next.rax = some .waitPid → waitStatusAddress next.rsi.toNat = some statusPtr →
      StatusPut l.view.pages statusPtr exit pages' →
      Step isa pid l .service { l.answered next next.rdi with view := { l.view with pages := pages' } }
  | blocked {next : TrapFrame} {statusPtr : Option VirtAddr} : l.waiting = none →
      isa.effect l.registers l.view.pages = .call next →
      SyscallNumber.fromRaw next.rax = some .waitPid → next.rdx.toNat = 0 →
      waitStatusAddress next.rsi.toNat = some statusPtr →
      Step isa pid l (.blocked next.rdi.toNat) { l with
        registers := next
        waiting := some (next.rdi.toNat,statusPtr) }
  | woken {child : ProcessId} {statusPtr : Option VirtAddr} {exit : ProcessExit} {pages' : View} :
      l.waiting = some (child,statusPtr) → StatusPut l.view.pages statusPtr exit pages' →
      Step isa pid l (.woken child exit)
        ⟨{ l.registers with rax := UInt64.ofNat child },{ l.view with pages := pages' },none⟩

inductive Ends (isa : Isa) (l : PrivateMachine) : Ending → Prop where
  | exit {next : TrapFrame} : l.waiting = none → isa.effect l.registers l.view.pages = .call next →
      SyscallNumber.fromRaw next.rax = some .exit → Ends isa l (.exited next.rdi)
  | fault {info : UserFaultInfo} : l.waiting = none →
      isa.effect l.registers l.view.pages = .fault info → Ends isa l (.faulted info)

end PrivateMachine

end VladOs
