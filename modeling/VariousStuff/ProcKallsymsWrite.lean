import VariousStuff.CStrings
import VariousStuff.UserMemory

/-! # The write handler on `/proc/kallsyms` and its caller

The caller hands over seven values in a structure that starts with a magic word. The
handler fetches the magic, fetches the structure, and replies by overwriting the magic. -/
namespace VariousStuff.ProcKallsymsWrite
open CStrings UserMemory

/-- `struct uint64_tx7`, laid out the same way on both sides. -/
structure Uint64Tx7 where
  magic : Word
  r0 : Word
  r1 : Word
  r2 : Word
  r3 : Word
  r4 : Word
  r5 : Word
  r6 : Word
  deriving DecidableEq

namespace Uint64Tx7

def zero : Uint64Tx7 := ⟨0, 0, 0, 0, 0, 0, 0, 0⟩

def size : ℕ := 64

def fields (s : Uint64Tx7) : ℕ → Word
  | 0 => s.magic
  | 1 => s.r0
  | 2 => s.r1
  | 3 => s.r2
  | 4 => s.r3
  | 5 => s.r4
  | 6 => s.r5
  | _ => s.r6

def toBytes (s : Uint64Tx7) (i : ℕ) : Byte := byteOf (s.fields (i / 8)) (i % 8)

def ofBytes (b : ℕ → Byte) : Uint64Tx7 :=
  let field (j : ℕ) := wordOf fun i => b (8 * j + i)
  ⟨field 0, field 1, field 2, field 3, field 4, field 5, field 6, field 7⟩

end Uint64Tx7

def requestMagic : Word := 0xFFFFFFFFFFFFFFFF
def replyMagic : Word := 0xAAAAAAAAAAAAAAAA

/-- What the kernel's side of one write can meet: where the copies stop, whether the
buffer is allocated, and what the stack held where `magic` is. -/
structure Outcomes where
  magicStop : ℕ
  structStop : ℕ
  replyStop : ℕ
  allocated : Bool
  stack : ℕ → Byte

/-- A finished call of the handler. -/
structure Written where
  ret : Word
  mem : Memory
  log : List Line

def gotShitcall : Line := ("ksym_test: got shitcall\n", [])

def registersLine (s : Uint64Tx7) : Line :=
  ("0x%llx 0x%llx 0x%llx 0x%llx 0x%llx 0x%llx 0x%llx\n",
    [s.r0, s.r1, s.r2, s.r3, s.r4, s.r5, s.r6].map fun r => .num r.toNat)

def ksymWrite (o : Outcomes) (m : Memory) (reg size : Word) : Written :=
  let magic := copyFromUser m o.stack reg 8 o.magicStop
  if magic.1 ≠ 0 then ⟨size, m, []⟩
  else if wordOf magic.2 ≠ requestMagic then ⟨size, m, []⟩
  else if o.allocated = false then ⟨size, m, [gotShitcall]⟩
  else
    let buf := copyFromUser m (fun _ => 0) reg Uint64Tx7.size o.structStop
    if buf.1 ≠ 0 then ⟨size, m, [gotShitcall]⟩
    else ⟨size, (copyToUser m reg (byteOf replyMagic) 8 o.replyStop).2,
      [gotShitcall, registersLine (.ofBytes buf.2)]⟩

/-- A finished call from user space: the returned value, and what the write did. -/
structure Shitcall where
  ret : ℕ
  write : Written

/-- The memory handed to the write: the structure filled in at `reg`. -/
def request (m : Memory) (reg r0 r1 r2 r3 r4 r5 r6 : Word) : Memory :=
  let s := { Uint64Tx7.zero with
    magic := requestMagic, r0 := r0, r1 := r1, r2 := r2, r3 := r3, r4 := r4, r5 := r5, r6 := r6 }
  m.store reg Uint64Tx7.size s.toBytes

def shitcall (o : Outcomes) (m : Memory) (reg r0 r1 r2 r3 r4 r5 r6 : Word) : Shitcall :=
  let write := ksymWrite o (request m reg r0 r1 r2 r3 r4 r5 r6) reg 1
  ⟨if write.mem.load reg ≠ replyMagic then 1 else 0, write⟩

/-! ## Layout -/

theorem Uint64Tx7.ofBytes_congr {b b' : ℕ → Byte} (h : ∀ i < 64, b i = b' i) :
    Uint64Tx7.ofBytes b = Uint64Tx7.ofBytes b' := by
  have hfield : ∀ j < 8, (wordOf fun i => b (8 * j + i)) = wordOf fun i => b' (8 * j + i) :=
    fun j hj => wordOf_congr fun i hi => h _ (by omega)
  simp only [ofBytes, hfield 0 (by omega), hfield 1 (by omega), hfield 2 (by omega),
    hfield 3 (by omega), hfield 4 (by omega), hfield 5 (by omega), hfield 6 (by omega),
    hfield 7 (by omega)]

theorem Uint64Tx7.ofBytes_toBytes (s : Uint64Tx7) : Uint64Tx7.ofBytes s.toBytes = s := by
  have hfield : ∀ j, (wordOf fun i => s.toBytes (8 * j + i)) = s.fields j := by
    intro j
    rw [wordOf_eq_iff]
    intro i hi
    have hdiv : (8 * j + i) / 8 = j := by omega
    have hmod : (8 * j + i) % 8 = i := by omega
    rw [toBytes, hdiv, hmod]
  simp only [ofBytes, hfield, fields]

/-! ## The handler -/

/-- The handler read the all-ones magic and the complete structure. -/
structure Fetched (o : Outcomes) (m : Memory) (reg : Word) : Prop where
  magic_read : (copyFromUser m o.stack reg 8 o.magicStop).1 = 0
  magic_eq : wordOf (copyFromUser m o.stack reg 8 o.magicStop).2 = requestMagic
  allocated : o.allocated = true
  struct_read : (copyFromUser m (fun _ => 0) reg Uint64Tx7.size o.structStop).1 = 0

/-- Then it also wrote all eight bytes of the reply. -/
structure Served (o : Outcomes) (m : Memory) (reg : Word) : Prop extends Fetched o m reg where
  reply_written : (copyToUser m reg (byteOf replyMagic) 8 o.replyStop).1 = 0

section Handler
variable {o : Outcomes} {m : Memory} {reg : Word}

theorem Fetched.load_eq (h : Fetched o m reg) : m.load reg = requestMagic := by
  rw [← h.magic_eq]
  exact wordOf_congr fun i hi => (copyFromUser_complete h.magic_read hi).symm

/-- The handler prints the registers of the caller's structure. -/
theorem ksymWrite_of_fetched (h : Fetched o m reg) (size : Word) :
    ksymWrite o m reg size = ⟨size, (copyToUser m reg (byteOf replyMagic) 8 o.replyStop).2,
      [gotShitcall, registersLine (.ofBytes (m.bytesAt reg))]⟩ := by
  have hbuf := Uint64Tx7.ofBytes_congr fun i hi => copyFromUser_complete h.struct_read hi
  rw [ksymWrite, if_neg (not_not_intro h.magic_read), if_neg (not_not_intro h.magic_eq),
    if_neg (by rw [h.allocated]; decide), if_neg (not_not_intro h.struct_read), hbuf]

theorem ksymWrite_of_not_fetched (h : ¬ Fetched o m reg) (size : Word) :
    (ksymWrite o m reg size).mem = m ∧ (ksymWrite o m reg size).ret = size := by
  rw [ksymWrite]
  split
  · exact ⟨rfl, rfl⟩
  case isFalse hmagic =>
    split
    · exact ⟨rfl, rfl⟩
    case isFalse hones =>
      split
      · exact ⟨rfl, rfl⟩
      case isFalse halloc =>
        dsimp only
        split
        · exact ⟨rfl, rfl⟩
        case isFalse hstruct =>
          exact (h ⟨not_not.mp hmagic, not_not.mp hones, by simpa using halloc,
            not_not.mp hstruct⟩).elim

/-- The handler always claims to have written everything. -/
theorem ksymWrite_ret (o : Outcomes) (m : Memory) (reg size : Word) :
    (ksymWrite o m reg size).ret = size := by
  by_cases h : Fetched o m reg
  · rw [ksymWrite_of_fetched h]
  · exact (ksymWrite_of_not_fetched h size).2

/-- The handler stores leading bytes of the reply, and all of them exactly if it served
the request. -/
theorem ksymWrite_stores (o : Outcomes) (m : Memory) (reg size : Word) :
    ∃ k ≤ 8, (ksymWrite o m reg size).mem = m.store reg k (byteOf replyMagic) ∧
      (k = 8 ↔ Served o m reg) := by
  by_cases h : Fetched o m reg
  · refine ⟨min 8 o.replyStop, Nat.min_le_left _ _, by rw [ksymWrite_of_fetched h]; rfl, ?_⟩
    constructor
    · intro hk
      refine ⟨h, ?_⟩
      rw [copyToUser]
      omega
    · intro hserved
      have hreply : 8 - o.replyStop = 0 := hserved.reply_written
      omega
  · refine ⟨0, Nat.zero_le _, ?_, ?_⟩
    · rw [(ksymWrite_of_not_fetched h size).1, Memory.store_zero]
    · constructor
      · intro hk
        cases hk
      · intro hserved
        exact (h hserved.toFetched).elim

end Handler

/-- A buffer that does not start with the magic is left untouched. -/
theorem ksymWrite_other_buffer (o : Outcomes) {m : Memory} {reg : Word}
    (h : m.load reg ≠ requestMagic) (size : Word) : (ksymWrite o m reg size).mem = m :=
  (ksymWrite_of_not_fetched (fun hfetched => h hfetched.load_eq) size).1

/-! ## The caller -/

section Caller
variable (m : Memory) (reg r0 r1 r2 r3 r4 r5 r6 : Word)

theorem bytesAt_request {i : ℕ} (hi : i < 64) :
    (request m reg r0 r1 r2 r3 r4 r5 r6).bytesAt reg i =
      (Uint64Tx7.mk requestMagic r0 r1 r2 r3 r4 r5 r6).toBytes i := by
  rw [request, Memory.bytesAt_store _ _ _ _ (by omega)]
  exact if_pos hi

theorem ofBytes_request : Uint64Tx7.ofBytes ((request m reg r0 r1 r2 r3 r4 r5 r6).bytesAt reg) =
    ⟨requestMagic, r0, r1, r2, r3, r4, r5, r6⟩ := by
  rw [Uint64Tx7.ofBytes_congr fun i hi => bytesAt_request m reg r0 r1 r2 r3 r4 r5 r6 hi,
    Uint64Tx7.ofBytes_toBytes]

theorem load_request : (request m reg r0 r1 r2 r3 r4 r5 r6).load reg = requestMagic :=
  congrArg Uint64Tx7.magic (ofBytes_request m reg r0 r1 r2 r3 r4 r5 r6)

/-- A partial reply mixes bytes of both magics, and never reads as the whole reply. -/
theorem load_store_reply {m : Memory} {reg : Word} (h : m.load reg = requestMagic) {k : ℕ}
    (hk : k ≤ 8) : (m.store reg k (byteOf replyMagic)).load reg = replyMagic ↔ k = 8 := by
  rw [Memory.load, wordOf_eq_iff]
  constructor
  · intro hreply
    by_contra hne
    have hold := (wordOf_eq_iff _ _).mp h k (by omega)
    have hnew := hreply k (by omega)
    rw [Memory.bytesAt_store _ _ _ _ (by omega), if_neg (Nat.lt_irrefl k), hold] at hnew
    have hdiff : ∀ i < 8, byteOf requestMagic i ≠ byteOf replyMagic i := by decide
    exact hdiff k (by omega) hnew
  · rintro rfl i hi
    rw [Memory.bytesAt_store _ _ _ _ (by omega), if_pos hi]

/-- Overwriting the magic leaves the registers of the structure as they are. -/
theorem ofBytes_store {m : Memory} {reg : Word} {k : ℕ} (hk : k ≤ 8) (bytes : ℕ → Byte) :
    Uint64Tx7.ofBytes ((m.store reg k bytes).bytesAt reg) =
      { Uint64Tx7.ofBytes (m.bytesAt reg) with magic := (m.store reg k bytes).load reg } := by
  have hfield : ∀ j, 0 < j → j < 8 →
      (wordOf fun i => (m.store reg k bytes).bytesAt reg (8 * j + i)) =
        wordOf fun i => m.bytesAt reg (8 * j + i) := by
    intro j hpos hj
    refine wordOf_congr fun i hi => ?_
    rw [Memory.bytesAt_store _ _ _ _ (by omega), if_neg (by omega)]
  simp only [Uint64Tx7.ofBytes, hfield 1 (by omega) (by omega), hfield 2 (by omega) (by omega),
    hfield 3 (by omega) (by omega), hfield 4 (by omega) (by omega),
    hfield 5 (by omega) (by omega), hfield 6 (by omega) (by omega),
    hfield 7 (by omega) (by omega), Memory.load]
  simp

/-- The two sides agree over any faults: the caller returns zero exactly if the handler
served the request, and then the handler printed the arguments; the registers survive,
and the write returns its size. Buffers that do not start with the magic are left
untouched. -/
theorem shitcall_ksymWrite_agree (o : Outcomes) :
    let run := shitcall o m reg r0 r1 r2 r3 r4 r5 r6
    (run.ret = 0 ↔ Served o (request m reg r0 r1 r2 r3 r4 r5 r6) reg) ∧
      (run.ret = 0 → run.write.log =
        [gotShitcall, registersLine ⟨requestMagic, r0, r1, r2, r3, r4, r5, r6⟩]) ∧
      (∃ magic, Uint64Tx7.ofBytes (run.write.mem.bytesAt reg) =
        ⟨magic, r0, r1, r2, r3, r4, r5, r6⟩) ∧
      run.write.ret = 1 ∧
      ∀ (o' : Outcomes) (m' : Memory) (reg' size : Word), (ksymWrite o' m' reg' size).ret = size ∧
        (m'.load reg' ≠ 0xFFFFFFFFFFFFFFFF → (ksymWrite o' m' reg' size).mem = m') := by
  intro run
  have hstruct := ofBytes_request m reg r0 r1 r2 r3 r4 r5 r6
  have hmagic := load_request m reg r0 r1 r2 r3 r4 r5 r6
  have hwrite : run.write = ksymWrite o (request m reg r0 r1 r2 r3 r4 r5 r6) reg 1 := rfl
  have hret : run.ret = 0 ↔ run.write.mem.load reg = replyMagic := by
    simp [run, shitcall]
  obtain ⟨k, hk, hmem, hserved⟩ := ksymWrite_stores o (request m reg r0 r1 r2 r3 r4 r5 r6) reg 1
  have hiff : run.ret = 0 ↔ Served o (request m reg r0 r1 r2 r3 r4 r5 r6) reg := by
    rw [hret, hwrite, hmem, load_store_reply hmagic hk, hserved]
  refine ⟨hiff, ?_, ?_, ?_, fun o' m' reg' size => ⟨ksymWrite_ret o' m' reg' size,
    fun h => ksymWrite_other_buffer o' h size⟩⟩
  · intro hzero
    rw [hwrite, ksymWrite_of_fetched (hiff.mp hzero).toFetched, hstruct]
  · rw [hwrite, hmem, ofBytes_store hk, hstruct]
    exact ⟨_, rfl⟩
  · rw [hwrite, ksymWrite_ret]

end Caller

end VariousStuff.ProcKallsymsWrite
