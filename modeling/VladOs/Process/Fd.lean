import VladOs.Process.File

namespace VladOs

abbrev STDIN_FILENO : ℕ := 0
abbrev STDOUT_FILENO : ℕ := 1
abbrev STDERR_FILENO : ℕ := 2
abbrev MAX_FDS_PER_PROCESS : ℕ := 16

abbrev FileDescriptor := ℕ

structure FdEntry where
  openFile : OpenFileId
  deriving DecidableEq, Repr

structure FdTable where
  entries : List (Option FdEntry)
  length_eq : entries.length = MAX_FDS_PER_PROCESS
  deriving DecidableEq

namespace FdTable

def empty : FdTable := ⟨List.replicate MAX_FDS_PER_PROCESS none,by simp⟩

def set (t : FdTable) (fd : ℕ) (entry : Option FdEntry) : FdTable :=
  ⟨t.entries.set fd entry,by simpa using t.length_eq⟩

def get (t : FdTable) (fd : ℕ) : Option FdEntry := (t.entries[fd]?).join

def closeEntries : List (Option FdEntry) → OpenFileTable → OpenFileTable
  | [], openFiles => openFiles
  | none :: rest, openFiles => closeEntries rest openFiles
  | some entry :: rest, openFiles => closeEntries rest (openFiles.decRef entry.openFile)

def closeAll (t : FdTable) (openFiles : OpenFileTable) : FdTable × OpenFileTable :=
  (empty,closeEntries t.entries openFiles)

def newWithStdio (openFiles : OpenFileTable) : Except FileError FdTable × OpenFileTable :=
  let table := empty
  match openFiles.alloc .nullInput .readOnly with
  | (.error e,openFiles) => (.error e,openFiles)
  | (.ok stdin,openFiles) =>
    let table := table.set STDIN_FILENO (some ⟨stdin⟩)
    match openFiles.alloc .consoleStdout .writeOnly with
    | (.error e,openFiles) => (.error e,(table.closeAll openFiles).2)
    | (.ok stdout,openFiles) =>
      let table := table.set STDOUT_FILENO (some ⟨stdout⟩)
      match openFiles.alloc .consoleStderr .writeOnly with
      | (.error e,openFiles) => (.error e,(table.closeAll openFiles).2)
      | (.ok stderr,openFiles) => (.ok (table.set STDERR_FILENO (some ⟨stderr⟩)),openFiles)

def allocateLowest (t : FdTable) (openFile : OpenFileId) : Except FileError FileDescriptor × FdTable :=
  match t.entries.findIdx? Option.isNone with
  | none => (.error .tooManyProcessFiles,t)
  | some index => (.ok index,t.set index (some ⟨openFile⟩))

def openCount (t : FdTable) : ℕ := (t.entries.filter Option.isSome).length

def close (t : FdTable) (fd : ℕ) (openFiles : OpenFileTable) :
    Except FileError Unit × FdTable × OpenFileTable :=
  match t.get fd with
  | none => (.error .badFd,t,openFiles)
  | some entry => (.ok (),t.set fd none,openFiles.decRef entry.openFile)

end FdTable

end VladOs
