import VladOs.Kernel.Steps

namespace VladOs

namespace Kernel

variable {B : BootMemory} {k k' : Kernel} {i rsp start bootRsp : ℕ} {c : Control} {f : Task → Task}
  {exit : ProcessExit}

theorem Selects.serial (h : Selects k start c k') : k'.serial = k.serial := by
  cases h <;> rfl

theorem Switches.serial (h : Switches k rsp c k') : k'.serial = k.serial := by
  cases h <;> rfl

theorem Starts.serial {c : Option Control} (h : Starts k bootRsp c k') : k'.serial = k.serial := by
  cases h <;> rfl

theorem Finishes.serial (h : Finishes B k i f exit k') : k'.serial = k.serial := by
  cases h with
  | kernel => rfl
  | user _ _ _ hexits => cases hexits <;> rfl

theorem WaitResult.serial {pid child : ProcessId} {P : Process} {statusPtr : Option VirtAddr} {options : ℕ}
    (h : WaitResult B k i rsp pid P child statusPtr options c k') : k'.serial = k.serial := by
  cases h with
  | blocked _ _ _ _ _ hsel => exact hsel.serial
  | _ => rfl

end Kernel

inductive Prints (s : System) (a : Action) (s' : System) : Prop where
  | nothing : s'.kernel.serial = s.kernel.serial → Prints s a s'
  | bytes {rsp fd len : ℕ} {buf : VirtAddr} {frame : TrapFrame} {bytes : List UInt8} :
      a = .syscall rsp frame →
      Syscall.request frame = some (.write fd buf len) →
      s'.kernel.serial = s.kernel.serial ++ bytes → Prints s a s'

section

variable {B : BootMemory} {P : Platform} {s s' : System} {a : Action} {o : Output}

theorem Performs.prints (h : Performs B s a o s') : Prints s a s' := by
  cases h with
  | spawned hs =>
    cases hs
    exact .nothing rfl
  | processSpawned _ hs =>
    cases hs
    exact .nothing rfl
  | processRefused hf => exact .nothing (by rw [hf.same])
  | started _ hs => exact .nothing hs.serial
  | timer hs | yielded hs => exact .nothing hs.serial
  | faulted _ hf hs => exact .nothing (hs.serial.trans hf.serial)
  | kernelReturned _ _ _ hs => exact .nothing hs.serial
  | kernelCall _ _ _ hd =>
    cases hd with
    | returned => exact .nothing rfl
    | yielded _ hs => exact .nothing hs.serial
    | exited _ hf hs => exact .nothing (hs.serial.trans hf.serial)
  | userCall _ hd =>
    cases hd with
    | unknown => exact .nothing rfl
    | yielded _ hs => exact .nothing hs.serial
    | exited _ hf hs => exact .nothing (hs.serial.trans hf.serial)
    | waited _ _ hw => exact .nothing hw.serial
    | returned hrequest he =>
      have hexact := he.exact
      cases hexact with
      | wrote => exact .bytes rfl hrequest rfl
      | _ => exact .nothing rfl
  | _ => exact .nothing rfl

theorem Step.printed (h : Stable B s) (hstep : Step P s (a,o) s') :
    ∃ bytes, s'.kernel.serial = s.kernel.serial ++ bytes := by
  cases (h.performs hstep).prints with
  | nothing hsame => exact ⟨[],hsame.trans (List.append_nil _).symm⟩
  | bytes _ _ hserial => exact ⟨_,hserial⟩

end

end VladOs
