import VariousStuff.InteractivePrograms
import VariousStuff.UserMemory

/-! # Grabbing the list of mounts to unmount

The size of the list is asked for, a zeroed buffer of that size is filled by the driver,
and its strings are written out one by one. The walk has no bound of its own: a byte it
reads behind the buffer is a call, answered by whatever stands there on the stack. -/
namespace VariousStuff.GrabUmountList
open Interactive UserMemory

def ksuInstallMagic1 : Word := 0xDEADBEEF
def ksuInstallMagic2 : Word := 0xCAFEBABE

def ksuUmountGetsize : Byte := 107
def ksuUmountGetlist : Byte := 108

/-- What `arg` of `struct ksu_add_try_umount_cmd` points to. -/
inductive Target where
  | totalSize
  | buffer (size : ℕ)
  deriving DecidableEq

/-- `struct ksu_add_try_umount_cmd`. -/
structure KsuAddTryUmountCmd where
  arg : Target
  flags : BitVec 32
  mode : Byte
  deriving DecidableEq

inductive UmountCall where
  | reboot (magic1 magic2 : Word)
  | ioctl (fd : Int32) (cmd : KsuAddTryUmountCmd)
  | strayRead (offset : ℕ)
  | write (fd : ℕ) (bytes : List Byte)
  deriving DecidableEq

namespace UmountCall

/-- What the driver stores where `arg` points to. -/
abbrev Stored : Target → Type
  | .totalSize => Word
  | .buffer _ => List Byte

/-- The reboot call leaves a descriptor; a request returns an `int` and stores something;
a write returns a count that nobody looks at. -/
abbrev Answer : UmountCall → Type
  | .reboot _ _ => Int32
  | .ioctl _ cmd => Int32 × Stored cmd.arg
  | .strayRead _ => Byte
  | .write _ _ => Word

end UmountCall

abbrev UmountProg := Prog UmountCall.Answer

abbrev UmountTranscript := Transcript UmountCall.Answer

/-- The buffer after the driver wrote `bytes` from its start. -/
def overwrite (buffer bytes : List Byte) : List Byte :=
  bytes.take buffer.length ++ buffer.drop bytes.length

/-- `*char_buf`. -/
def charAt (buffer : List Byte) (charBuf : ℕ) : UmountProg Byte :=
  match buffer[charBuf]? with
  | some c => .ret c
  | none => Prog.ask (UmountCall.strayRead charBuf)

/-- One byte of `strlen`, with the bytes counted so far. -/
def strlenRound (buffer : List Byte) (charBuf : ℕ) (counted : List Byte) :
    UmountProg (List Byte ⊕ List Byte) := do
  let c ← charAt buffer (charBuf + counted.length)
  if c = 0 then return .inr counted
  return .inl (counted ++ [c])

/-- The bytes that `strlen` counts. -/
def strlen (buffer : List Byte) (fuel charBuf : ℕ) : UmountProg (List Byte) :=
  Prog.loop (strlenRound buffer charBuf) fuel []

def newline : List Byte := [10]

/-- One round of the walk; the length is computed twice. -/
def walkRound (buffer : List Byte) (fuel charBuf : ℕ) : UmountProg (ℕ ⊕ ℤ) := do
  let entry ← strlen buffer fuel charBuf
  let _ ← Prog.ask (UmountCall.write 1 entry)
  let _ ← Prog.ask (UmountCall.write 1 newline)
  let entry ← strlen buffer fuel charBuf
  let c ← charAt buffer (charBuf + entry.length + 1)
  if c ≠ 0 then return .inl (charBuf + entry.length + 1)
  return .inr 0

def walk (buffer : List Byte) (fuel charBuf : ℕ) : UmountProg ℤ :=
  Prog.loop (walkRound buffer fuel) fuel charBuf

/-- `alloca` never returns null. -/
def cMain (fuel : ℕ) : UmountProg ℤ := do
  let fd ← Prog.ask (UmountCall.reboot ksuInstallMagic1 ksuInstallMagic2)
  if fd = 0 then return 1
  let (ret, totalSize) ← Prog.ask (UmountCall.ioctl fd ⟨.totalSize, 0, ksuUmountGetsize⟩)
  if ret < 0 then return 1
  if totalSize = 0 then return 1
  let buffer := List.replicate totalSize.toNat 0
  let (ret, bytes) ←
    Prog.ask (UmountCall.ioctl fd ⟨.buffer totalSize.toNat, 0, ksuUmountGetlist⟩)
  if ret < 0 then return 1
  walk (overwrite buffer bytes) fuel 0

end VariousStuff.GrabUmountList
