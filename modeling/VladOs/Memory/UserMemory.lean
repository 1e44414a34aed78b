import VladOs.Memory.AddressSpace

namespace VladOs

abbrev TASK_STACK_SIZE : ℕ := 8 * 1024
abbrev USER_BASE : ℕ := 0x8000000000
abbrev USER_CODE_BASE : ℕ := 0x8000400000
abbrev USER_DATA_BASE : ℕ := 0x8000600000
abbrev USER_TEST_PAGE_BASE : ℕ := 0x8000700000
abbrev USER_STACK_TOP : ℕ := 0x8000800000
abbrev USER_STACK_PAGES : ℕ := TASK_STACK_SIZE / 4096
abbrev USER_ELF_LOAD_START : ℕ := USER_CODE_BASE
abbrev USER_ELF_LOAD_END : ℕ := USER_TEST_PAGE_BASE
abbrev USER_HEAP_LIMIT : ℕ := USER_TEST_PAGE_BASE

example : USER_BASE = USER_P4_INDEX * 2 ^ 39 := rfl

inductive UserMemoryError where
  | addressOverflow
  | outsideUserRange
  | unmapped
  | notWritable
  deriving DecidableEq, Repr

inductive Access where
  | read
  | write
  deriving DecidableEq, Repr

namespace UserMemory

def validateUserByte (space : AddressSpace) (access : Access) (address : VirtAddr) (m : Memory) :
    Except UserMemoryError UserTranslation :=
  if ¬ (USER_BASE ≤ address.addr ∧ address.addr < USER_STACK_TOP) then .error .outsideUserRange
  else (okOr (space.translateUser m address) .unmapped).bind fun translation =>
    if access = .write ∧ contains translation.flags WRITABLE = false then .error .notWritable
    else .ok translation

def validateUserRange (space : AddressSpace) (start : VirtAddr) (len : ℕ) (access : Access) :
    Code Memory UserMemoryError Unit :=
  if len = 0 then pure ()
  else do
    let endAddr ← Code.orFail (checkedAdd start.addr len) .addressOverflow
    if start.addr < USER_BASE ∨ endAddr > USER_STACK_TOP then Code.fail .outsideUserRange
    else forEachPage (fun page => do
      match validateUserByte space access page (← Code.read) with
      | .ok _ => pure ()
      | .error e => Code.fail e) .addressOverflow (alignDown start.addr PAGE_SIZE) endAddr

def validateUserReadRange (space : AddressSpace) (start : VirtAddr) (len : ℕ) :
    Code Memory UserMemoryError Unit :=
  validateUserRange space start len .read

def validateUserWriteRange (space : AddressSpace) (start : VirtAddr) (len : ℕ) :
    Code Memory UserMemoryError Unit :=
  validateUserRange space start len .write

def copyFromUser (space : AddressSpace) (len : ℕ) (src : VirtAddr) :
    Code Memory UserMemoryError (List UInt8) :=
  readChunks (validateUserByte space .read) .addressOverflow src len 0

def copyToUser (space : AddressSpace) (dst : VirtAddr) (src : List UInt8) :
    Code Memory UserMemoryError Unit :=
  writeChunks (validateUserByte space .write) .addressOverflow dst src 0

end UserMemory

end VladOs
