import Mathlib.Data.List.Basic
import Mathlib.Tactic.Common

namespace VladOs

abbrev MAX_OPEN_FILES : ℕ := 32
abbrev MAX_PATH_LEN : ℕ := 128

abbrev OpenFileId := ℕ
abbrev EmbeddedFileId := ℕ

inductive AccessMode where
  | readOnly
  | writeOnly
  deriving DecidableEq, Repr

inductive OpenFileKind where
  | nullInput
  | consoleStdout
  | consoleStderr
  | embeddedFile (file : EmbeddedFileId)
  deriving DecidableEq, Repr

inductive FileError where
  | badFd
  | noEntry
  | tooManySystemFiles
  | tooManyProcessFiles
  | nameTooLong
  | invalid
  | fault
  deriving DecidableEq, Repr

structure OpenFile where
  kind : OpenFileKind
  access : AccessMode
  offset : ℕ
  refCount : ℕ
  deriving DecidableEq, Repr

structure OpenFileTable where
  files : List (Option OpenFile)
  deriving DecidableEq, Repr

namespace OpenFileTable

def new : OpenFileTable := ⟨[]⟩

def ensureSlots (t : OpenFileTable) : OpenFileTable :=
  if t.files.isEmpty then ⟨List.replicate MAX_OPEN_FILES none⟩ else t

def alloc (t : OpenFileTable) (kind : OpenFileKind) (access : AccessMode) :
    Except FileError OpenFileId × OpenFileTable :=
  let t := t.ensureSlots
  match t.files.findIdx? Option.isNone with
  | some index => (.ok index,⟨t.files.set index (some ⟨kind,access,0,1⟩)⟩)
  | none => (.error .tooManySystemFiles,t)

def get (t : OpenFileTable) (id : OpenFileId) : Option OpenFile := (t.files[id]?).join

def setOffset (t : OpenFileTable) (id : OpenFileId) (offset : ℕ) : OpenFileTable :=
  ⟨t.files.modify id (Option.map fun file => { file with offset := offset })⟩

def decRef (t : OpenFileTable) (id : OpenFileId) : OpenFileTable :=
  match t.get id with
  | none => t
  | some file =>
    let count := file.refCount - 1
    ⟨t.files.set id (if count = 0 then none else some { file with refCount := count })⟩

def activeCount (t : OpenFileTable) : ℕ := (t.files.filter Option.isSome).length

end OpenFileTable

structure EmbeddedFile where
  path : List UInt8
  bytes : List UInt8
  deriving DecidableEq, Repr

def ascii (s : String) : List UInt8 := s.toList.map fun c => UInt8.ofNat c.toNat

def EMBEDDED_FILES : List EmbeddedFile :=
  [⟨ascii "/hello.txt",ascii "hello from embedded file\n"⟩,
    ⟨ascii "/motd",ascii "tiny kernel says hello\n"⟩]

def findEmbeddedFile (path : List UInt8) : Option EmbeddedFileId :=
  EMBEDDED_FILES.findIdx? fun file => file.path = path

def embeddedFile (id : EmbeddedFileId) : Option EmbeddedFile := EMBEDDED_FILES[id]?

end VladOs
