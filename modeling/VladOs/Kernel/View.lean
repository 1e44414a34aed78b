import VladOs.Kernel.Syscall
import VladOs.Memory.Regions
import VladOs.Process.Heap

namespace VladOs

open Paging

structure FileView where
  kind : OpenFileKind
  access : AccessMode
  offset : ℕ

def OpenFile.view (file : OpenFile) : FileView := ⟨file.kind,file.access,file.offset⟩

structure ProcessView where
  pages : View
  heap : UserHeap
  files : List (Option FileView)

inductive Call where
  | open (path : VirtAddr) (pathLen flags : ℕ)
  | read (fd : ℕ) (buf : VirtAddr) (len : ℕ)
  | write (fd : ℕ) (buf : VirtAddr) (len : ℕ)
  | close (fd : ℕ)
  | brk (requested : ℕ)
  | getPid

abbrev CallOutcome := Except SysError ℕ × List UInt8

namespace ProcessView

def file (v : ProcessView) (fd : ℕ) : Option FileView := (v.files[fd]?).join

def fail (v : ProcessView) (e : SysError) : CallOutcome × ProcessView := ((.error e,[]),v)

def done (v : ProcessView) (n : ℕ) : CallOutcome × ProcessView := ((.ok n,[]),v)

def openFile (v : ProcessView) (path : List UInt8) : CallOutcome × ProcessView :=
  match findEmbeddedFile path with
  | none => v.fail .noEntry
  | some id =>
    match v.files.findIdx? Option.isNone with
    | none => v.fail .processFileLimit
    | some fd => done { v with files := v.files.set fd (some ⟨.embeddedFile id,.readOnly,0⟩) } fd

def openPath (v : ProcessView) (path : VirtAddr) (pathLen flags : ℕ) : CallOutcome × ProcessView :=
  if flags ≠ O_RDONLY then v.fail .invalid
  else if pathLen = 0 then v.fail .noEntry
  else if pathLen > MAX_PATH_LEN then v.fail .nameTooLong
  else
    match readBytes (userChecker .read) v.pages path.addr pathLen with
    | .error _ => v.fail .fault
    | .ok bytes => v.openFile bytes

theorem openPath_ok {v v' : ProcessView} {path : VirtAddr} {pathLen flags fd : ℕ}
    {console : List UInt8} (h : v.openPath path pathLen flags = ((.ok fd,console),v')) :
    ∃ bytes id, readBytes (userChecker .read) v.pages path.addr pathLen = .ok bytes ∧
      findEmbeddedFile bytes = some id ∧ v.files.findIdx? Option.isNone = some fd ∧
      v' = { v with files := v.files.set fd (some ⟨.embeddedFile id,.readOnly,0⟩) } := by
  unfold openPath at h
  split_ifs at h with hflags hzero hlong
  · cases h
  · cases h
  · cases h
  split at h
  · cases h
  · next bytes hread =>
    unfold openFile at h
    split at h
    · cases h
    · next id hfind =>
      split at h
      · cases h
      · next index hindex =>
        cases h
        exact ⟨bytes,id,hread,hfind,hindex,rfl⟩

theorem openPath_done {v : ProcessView} {path : VirtAddr} {fd : ℕ} {bytes : List UInt8}
    {file : EmbeddedFileId} (hpos : 0 < bytes.length) (hlen : bytes.length ≤ MAX_PATH_LEN)
    (hread : readBytes (userChecker .read) v.pages path.addr bytes.length = .ok bytes)
    (hfind : findEmbeddedFile bytes = some file) (hidx : v.files.findIdx? Option.isNone = some fd) :
    v.openPath path bytes.length O_RDONLY =
      done { v with files := v.files.set fd (some ⟨.embeddedFile file,.readOnly,0⟩) } fd := by
  rw [openPath,if_neg (by simp),if_neg (by omega),if_neg (by omega),hread]
  simp only [openFile,hfind,hidx]

def readEmbedded (v : ProcessView) (fd : ℕ) (buf : VirtAddr) (len : ℕ) (file : FileView)
    (bytes : List UInt8) : CallOutcome × ProcessView :=
  if file.offset ≥ bytes.length then v.done 0
  else
    let count := min len (bytes.length - file.offset)
    match writeBytes (userChecker .write) v.pages buf.addr ((bytes.drop file.offset).take count) with
    | (.error _,pages) => fail { v with pages := pages } .fault
    | (.ok (),pages) => done { v with
        pages := pages
        files := v.files.set fd (some { file with offset := file.offset + count }) } count

def readFile (v : ProcessView) (fd : ℕ) (buf : VirtAddr) (len : ℕ) : CallOutcome × ProcessView :=
  if len = 0 then v.done 0
  else
    match v.file fd with
    | none => v.fail .badFd
    | some file =>
      if file.access ≠ .readOnly then v.fail .badFd
      else
        match file.kind with
        | .nullInput => v.done 0
        | .consoleStdout | .consoleStderr => v.fail .badFd
        | .embeddedFile id =>
          match embeddedFile id with
          | none => v.fail .badFd
          | some embedded => v.readEmbedded fd buf len file embedded.bytes

theorem readFile_done {v : ProcessView} {fd len : ℕ} {buf : VirtAddr} {file : FileView}
    {fileId : EmbeddedFileId} {embedded : EmbeddedFile} (hlen : 0 < len)
    (hfile : v.file fd = some file) (haccess : file.access = .readOnly)
    (hkind : file.kind = .embeddedFile fileId) (hemb : embeddedFile fileId = some embedded)
    (hoff : file.offset < embedded.bytes.length)
    (hallowed : Allowed (userChecker .write) v.pages buf.addr len) :
    ∃ v' : ProcessView, v.readFile fd buf len = v'.done (min len (embedded.bytes.length - file.offset)) := by
  have hwrite : (writeBytes (userChecker .write) v.pages buf.addr ((embedded.bytes.drop file.offset).take
      (min len (embedded.bytes.length - file.offset)))).1 = .ok () := by
    refine writeBytes_allowed fun k hk => hallowed k ?_
    rw [List.length_take,List.length_drop] at hk
    omega
  rw [readFile,if_neg (by omega),hfile]
  simp only [haccess,hkind,hemb,ne_eq,not_true_eq_false,if_false]
  rw [readEmbedded,if_neg (by omega)]
  simp only
  split
  · rename_i hw
    rw [hw] at hwrite
    cases hwrite
  · exact ⟨_,rfl⟩

def writeOut (v : ProcessView) (buf : VirtAddr) (len : ℕ) : CallOutcome × ProcessView :=
  match readBytes (userChecker .read) v.pages buf.addr len with
  | .error _ => v.fail .fault
  | .ok bytes => ((.ok len,bytes),v)

def writeFile (v : ProcessView) (fd : ℕ) (buf : VirtAddr) (len : ℕ) : CallOutcome × ProcessView :=
  if len = 0 then v.done 0
  else
    match v.file fd with
    | none => v.fail .badFd
    | some file =>
      if file.access ≠ .writeOnly then v.fail .badFd
      else
        match file.kind with
        | .consoleStdout | .consoleStderr => v.writeOut buf len
        | .nullInput | .embeddedFile _ => v.fail .badFd

theorem writeFile_console {v : ProcessView} {fd len : ℕ} {buf : VirtAddr} {file : FileView}
    {bytes : List UInt8} (hlen : 0 < len) (hfile : v.file fd = some file) (haccess : file.access = .writeOnly)
    (hkind : file.kind = .consoleStdout)
    (hread : readBytes (userChecker .read) v.pages buf.addr len = .ok bytes) :
    v.writeFile fd buf len = ((.ok len,bytes),v) := by
  rw [writeFile,if_neg (by omega),hfile]
  simp only [haccess,hkind,ne_eq,not_true_eq_false,if_false]
  rw [writeOut,hread]

def closeFile (v : ProcessView) (fd : ℕ) : CallOutcome × ProcessView :=
  match v.file fd with
  | none => v.fail .badFd
  | some _ => done { v with files := v.files.set fd none } 0

def setBreak (v : ProcessView) (brk mappedEnd : VirtAddr) : ProcessView where
  pages := heapPages v.pages (v.heap.mappedEnd.addr / 4096) (mappedEnd.addr / 4096)
  heap := v.heap.setBreak brk mappedEnd
  files := v.files

def moveBreak (v : ProcessView) (requested : ℕ) : CallOutcome × ProcessView :=
  if requested = 0 then v.done v.heap.brk.addr
  else if requested < v.heap.start.addr then v.fail .invalid
  else if requested > v.heap.limit.addr then v.fail .noMemory
  else if requested = v.heap.brk.addr then v.done v.heap.brk.addr
  else
    match VirtAddr.new requested, VirtAddr.new ((requested + 4095) / 4096 * 4096) with
    | some brk, some mappedEnd => done (v.setBreak brk mappedEnd) requested
    | _, _ => v.fail .invalid

def call (pid : ProcessId) (v : ProcessView) : Call → CallOutcome × ProcessView
  | .open path pathLen flags => v.openPath path pathLen flags
  | .read fd buf len => v.readFile fd buf len
  | .write fd buf len => v.writeFile fd buf len
  | .close fd => v.closeFile fd
  | .brk requested => v.moveBreak requested
  | .getPid => v.done pid

end ProcessView

inductive Exhausts (v : ProcessView) : Call → CallOutcome → Prop where
  | files {path : VirtAddr} {pathLen flags : ℕ} :
      Exhausts v (.open path pathLen flags) (.error .systemFileLimit,[])
  | frames {requested : ℕ} : requested ≤ v.heap.limit.addr →
      Exhausts v (.brk requested) (.error .noMemory,[])

namespace Kernel

def fileView (o : OpenFileTable) (entry : Option FdEntry) : Option FileView :=
  entry.bind fun e => (o.get e.openFile).map OpenFile.view

def processView (k : Kernel) (P : Process) : ProcessView where
  pages := k.memory.page P.addressSpace.level4Frame
  heap := P.heap
  files := P.fdTable.entries.map (fileView k.openFiles)

def viewOf (k : Kernel) (pid : ProcessId) : Option ProcessView :=
  (k.processes.get pid).map k.processView

def sysGetPidCurrent : Code Kernel SysError ℕ := do
  Code.orFail (← currentProcessId) .child

def call (X : Mapper) : Call → Code Kernel SysError ℕ
  | .open path pathLen flags => sysOpenCurrent path pathLen flags
  | .read fd buf len => sysReadCurrent fd buf len
  | .write fd buf len => sysWriteCurrent fd buf len
  | .close fd => sysCloseCurrent fd
  | .brk requested => sysBrkCurrent X requested
  | .getPid => sysGetPidCurrent

end Kernel

end VladOs
