import VariousStuff.ChibiHash64

/-! # The table of string hashes

The array may be null, shorter than an index, or hold entries that were allocated but
never written; reading there is a fault. Whether a `realloc` succeeds is part of the
input. -/
namespace VariousStuff.HashTable
open CStrings ChibiHash64

inductive Fault where
  | nullArray
  | outOfBounds
  | neverWritten
  deriving DecidableEq

/-- A block of entries; `none` is an entry without a value yet. -/
abbrev Block := List (Option Word)

structure Table where
  hashArray : Option Block
  hashArrayEntryCount : ℕ
  deriving DecidableEq

def Table.empty : Table := ⟨none, 0⟩

/-- `((uint64_t *)hash_array)[i]`. -/
def Table.entry (T : Table) (i : ℕ) : Except Fault Word :=
  match T.hashArray with
  | none => .error .nullArray
  | some block => match block[i]? with
    | none => .error .outOfBounds
    | some none => .error .neverWritten
    | some (some h) => .ok h

/-- The loop over the `n` entries from `i` on that stops at the first equal hash. -/
def scan (T : Table) (hash : Word) : ℕ → ℕ → Except Fault (Option ℕ)
  | 0, _ => .ok none
  | n + 1, i => do
    let h ← T.entry i
    if h = hash then return some i
    scan T hash n (i + 1)

def Table.find (T : Table) (hash : Word) : Except Fault (Option ℕ) :=
  scan T hash T.hashArrayEntryCount 0

/-- A block of `n` entries that starts with the old contents. -/
def realloc (old : Option Block) (n : ℕ) (succeeds : Bool) : Option Block :=
  if succeeds then
    some ((old.getD []).take n ++ List.replicate (n - (old.getD []).length) none)
  else none

/-- Label `skip_anti_dup`. -/
def skipAntiDup (hash : Word) (succeeds : Bool) (T : Table) : Table :=
  match realloc T.hashArray (T.hashArrayEntryCount + 1) succeeds with
  | none => { T with hashArray := none }
  | some block => ⟨some (block.set T.hashArrayEntryCount (some hash)), T.hashArrayEntryCount + 1⟩

def duplicateLine (hash : Word) : Line := ("duplicate hash: 0x%llx\n", [.num hash.toNat])

def tableInsert (wrapper : Text → Word) (succeeds : Bool) (str : Option Text) (T : Table) :
    Except Fault (Table × List Line) :=
  match str with
  | none => .ok (T, [])
  | some str =>
    let hash := wrapper str
    if hash = 0 then .ok (T, [])
    else if T.hashArray = none then .ok (skipAntiDup hash succeeds T, [])
    else do
      match ← T.find hash with
      | some _ => return (T, [duplicateLine hash])
      | none => return (skipAntiDup hash succeeds T, [])

/-- Insertions one after another, each with the outcome of its `realloc`. -/
def inserts (wrapper : Text → Word) : List (Option Text × Bool) → Table →
    Except Fault (Table × List Line)
  | [], T => .ok (T, [])
  | (str, succeeds) :: rest, T => do
    let (T, lines) ← tableInsert wrapper succeeds str T
    let (T, lines') ← inserts wrapper rest T
    return (T, lines ++ lines')

def foundLine (arg : Text) (inputHash entry : Word) : Line :=
  ("found: %s hash: 0x%llx == 0x%llx\n", [.str arg, .num inputHash.toNat, .num entry.toNat])

def notFoundLine (arg : Text) (inputHash : Word) : Line :=
  ("not found: %s hash: 0x%llx\n", [.str arg, .num inputHash.toNat])

/-- The part of `main` behind the insertions: the exit code and the line printed. -/
def lookup (wrapper : Text → Word) (arg : Text) (T : Table) : Except Fault (ℕ × List Line) := do
  let inputHash := wrapper arg
  if inputHash = 0 then return (1, [])
  match ← T.find inputHash with
  | some i => return (0, [foundLine arg inputHash (← T.entry i)])
  | none => return (0, [notFoundLine arg inputHash])

/-- The literals inserted by `main`. -/
def literals : List Text :=
  ["abcd".toList, "efgh".toList, "ijkl".toList, "ijkl".toList, "mnop".toList, "qrst".toList,
    "uvwx".toList, "yzab".toList, "cdef".toList, "ghij".toList, "klmn".toList]

def main (succeeds : ℕ → Bool) (argv1 : Option Text) : Except Fault (ℕ × List Line) := do
  match argv1 with
  | none => return (1, [])
  | some arg =>
    let calls := literals.mapIdx fun i str => (some str, succeeds i)
    let (T, lines) ← inserts chibihash64Wrapper calls Table.empty
    let (code, lines') ← lookup chibihash64Wrapper arg T
    return (code, lines ++ lines')

end VariousStuff.HashTable
