import VladOs.Memory.MemoryState

namespace VladOs

variable {σ ε : Type}

structure UserTranslation where
  phys : ℕ
  flags : ℕ
  deriving DecidableEq, Repr

def forEachPage (body : VirtAddr → Code σ ε Unit) (overflow : ε) (address stop : ℕ) :
    Code σ ε Unit :=
  if address < stop then do
    let page ← Code.orAbort (VirtAddr.new address)
    body page
    if address + PAGE_SIZE < 2 ^ 64 then forEachPage body overflow (address + PAGE_SIZE) stop
    else Code.fail overflow
  else pure ()
termination_by stop - address
decreasing_by
  unfold PAGE_SIZE
  omega

def chunk (phys remaining : ℕ) : ℕ := min remaining (PAGE_SIZE - phys % PAGE_SIZE)

theorem phys_div (f a : ℕ) : (f * PAGE_SIZE + a % PAGE_SIZE) / PAGE_SIZE = f := by
  unfold PAGE_SIZE
  omega

theorem phys_mod (f a : ℕ) : (f * PAGE_SIZE + a % PAGE_SIZE) % PAGE_SIZE = a % PAGE_SIZE := by
  unfold PAGE_SIZE
  omega

theorem chunk_pos {phys remaining : ℕ} (h : 0 < remaining) : 0 < chunk phys remaining := by
  have hm : phys % 4096 < 4096 := Nat.mod_lt _ (by norm_num)
  unfold chunk PAGE_SIZE
  omega

def writeChunks (check : VirtAddr → Memory → Except ε UserTranslation) (overflow : ε)
    (dst : VirtAddr) (src : List UInt8) (copied : ℕ) : Code Memory ε Unit :=
  if _h : copied < src.length then do
    let dstAddr ← Code.orFail (checkedAdd dst.addr copied) overflow
    let current ← Code.orAbort (VirtAddr.new dstAddr)
    let m ← Code.read
    match check current m with
    | .error e => Code.fail e
    | .ok translation => do
      let count := chunk translation.phys (src.length - copied)
      Code.modify (Memory.writeBytes (translation.phys / PAGE_SIZE) (translation.phys % PAGE_SIZE)
        ((src.drop copied).take count))
      writeChunks check overflow dst src (copied + count)
  else pure ()
termination_by src.length - copied
decreasing_by
  have := @chunk_pos translation.phys _ (Nat.sub_pos_of_lt _h)
  omega

def readChunks (check : VirtAddr → Memory → Except ε UserTranslation) (overflow : ε)
    (src : VirtAddr) (len copied : ℕ) : Code Memory ε (List UInt8) :=
  if _h : copied < len then do
    let srcAddr ← Code.orFail (checkedAdd src.addr copied) overflow
    let current ← Code.orAbort (VirtAddr.new srcAddr)
    let m ← Code.read
    match check current m with
    | .error e => Code.fail e
    | .ok translation => do
      let count := chunk translation.phys (len - copied)
      let bytes := (List.range count).map fun k =>
        m.bytes (translation.phys / PAGE_SIZE) (translation.phys % PAGE_SIZE + k)
      let rest ← readChunks check overflow src len (copied + count)
      pure (bytes ++ rest)
  else pure []
termination_by len - copied
decreasing_by
  have := @chunk_pos translation.phys _ (Nat.sub_pos_of_lt _h)
  omega

end VladOs
