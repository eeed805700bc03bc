import VariousStuff.InterleavedRuns
import VariousStuff.ProcKallsymsWrite
import VariousStuff.TotalPreconditions

/-! # Putting the write handler in place while callers already try it

A kernel thread looks the operations of `/proc/kallsyms` up and replaces their write
operation, and a program asks for an answer once, at any time before, during or after that. -/
namespace VariousStuff.ProcKallsymsHook
open Interactive CStrings UserMemory ProcKallsymsWrite

/-- What the kernel thread and the program ask for. -/
inductive SystemCall where
  | msleep (ms : ℕ)
  | kernPath (name : Text) (flags : ℕ)
  | dInode (dentry : Word)
  | pde (inode : Word)
  /-- `pde->proc_ops`, or `pde->proc_fops` of older kernels. -/
  | procOps (pde : Word)
  | load (a : Word)
  | writeToReadonlySlot (a x : Word)
  | pathPut (dentry : Word)
  | prInfo (line : Line)
  | openat (dirfd : ℤ) (path : Text) (flags mode : ℕ)
  | write (fd : Int32) (m : Memory) (reg size : Word)
  | exit (code : ℤ)

abbrev SystemCall.Answer : SystemCall → Type
  | .kernPath _ _ => Int32 × Word
  | .dInode _ | .pde _ | .procOps _ | .load _ => Word
  | .writeToReadonlySlot _ _ | .openat _ _ _ _ => Int32
  | .write _ _ _ _ => Written
  | .msleep _ | .pathPut _ | .prInfo _ | .exit _ => Unit

abbrev SystemProg := Prog SystemCall.Answer
abbrev SystemEvent := Σ op, SystemCall.Answer op

def prInfo (format : String) (args : List PrintArg) : SystemProg Unit :=
  Prog.ask (SystemCall.prInfo (format, args))

def procKallsyms : Text := "/proc/kallsyms".toList

def lookupFollow : ℕ := 1
def oWronly : ℕ := 1
def atFdcwd : ℤ := -100

/-- The words of the kernel's memory. -/
abbrev Words := Word → Word

/-- What stays the same in the kernel: the inodes of the entries that are held, where the write
operation of `/proc/kallsyms` is stored and where in its structure, the address of `ksym_write`,
and what `ksu_write_to_readonly_slot` may do. -/
structure Kernel where
  inode : Word → Word
  slot : Word
  writeOffset : Word
  handler : Word
  exchange : Words → Word → Word → Int32 → Words → Prop

def reportLine (ret : Int32) (new : Word) : Line :=
  ("ksym_test: kallsyms_operations->write hijack ret: %d ops->write: 0x%lx\n",
    [.num ret.toInt, .num new.toNat])

/-- `ksu_init_hook_kallsyms_ops` from `write_slot_ptr` on. -/
def replaceWrite (k : Kernel) (ops : Word) : SystemProg Unit := do
  let writeSlotPtr := ops + k.writeOffset
  prInfo "ksym_test: ops %s ok!\n" [.str procKallsyms]
  let old ← Prog.ask (SystemCall.load writeSlotPtr)
  prInfo "ksym_test: found kallsyms_operations->write at slot 0x%lx pointing to 0x%lx \n"
    [.num writeSlotPtr.toNat, .num old.toNat]
  let ret ← Prog.ask (SystemCall.writeToReadonlySlot writeSlotPtr k.handler)
  let new ← Prog.ask (SystemCall.load writeSlotPtr)
  prInfo (reportLine ret new).1 (reportLine ret new).2

/-- The lines between `kern_path` and `bail_out`. -/
def hookOps (k : Kernel) (dentry : Word) : SystemProg Unit := do
  if dentry = 0 then return ()
  let inode ← Prog.ask (SystemCall.dInode dentry)
  if inode = 0 then return ()
  prInfo "ksym_test: path_dentry %s ok!\n" [.str procKallsyms]
  let inode ← Prog.ask (SystemCall.dInode dentry)
  let pde ← Prog.ask (SystemCall.pde inode)
  if pde = 0 then return ()
  prInfo "ksym_test: pde %s ok!\n" [.str procKallsyms]
  let ops ← Prog.ask (SystemCall.procOps pde)
  if ops = 0 then return ()
  replaceWrite k ops

def ksuInitHookKallsymsOps (k : Kernel) : SystemProg ℤ := do
  let _ ← Prog.ask (SystemCall.msleep 30000)
  let (error, dentry) ← Prog.ask (SystemCall.kernPath procKallsyms lookupFollow)
  if error ≠ 0 then
    prInfo "ksym_test: kern_path err: %d\n" [.num error.toInt]
    return 0
  prInfo "ksym_test: kern_path %s ok!\n" [.str procKallsyms]
  hookOps k dentry
  let _ ← Prog.ask (SystemCall.pathPut dentry)
  return 0

/-- `shitcall` on the descriptor `fd`. -/
def shitcallOn (fd : Int32) (m : Memory) (reg r0 r1 r2 r3 r4 r5 r6 : Word) : SystemProg ℤ := do
  let written ← Prog.ask (SystemCall.write fd (request m reg r0 r1 r2 r3 r4 r5 r6) reg 1)
  if written.mem.load reg ≠ replyMagic then return 1
  return 0

/-- `main`, whose structure is at `reg` in its memory `m`. -/
def main (m : Memory) (reg : Word) : SystemProg ℤ := do
  let fd ← Prog.ask (SystemCall.openat atFdcwd procKallsyms oWronly 0o644)
  if fd < 0 then
    let _ ← Prog.ask (SystemCall.exit 1)
    return 1
  let ret ← shitcallOn fd m reg 0 1 2 3 4 5 6
  if ret ≠ 0 then
    let _ ← Prog.ask (SystemCall.exit 1)
    return 1
  let _ ← Prog.ask (SystemCall.exit 0)
  return 0

/-! ## The kernel around them -/

/-- A load finds what is stored, an entry that is held keeps its inode, and a write to the file is
carried out by the function in the slot: without one nothing happens to the memory of the caller,
and of any other function than the handler nothing is known. -/
def Kernel.Step (k : Kernel) (s : Words) : SystemEvent → Words → Prop
  | ⟨.writeToReadonlySlot a x, ret⟩, s' => k.exchange s a x ret s'
  | ⟨.load a, x⟩, s' => s' = s ∧ x = s a
  | ⟨.dInode dentry, x⟩, s' => s' = s ∧ x = k.inode dentry
  | ⟨.write _ m reg size, written⟩, s' => s' = s ∧ (s k.slot = 0 → written.mem = m) ∧
      (s k.slot = k.handler → ∃ o, written = ksymWrite o m reg size)
  | _, s' => s' = s

/-- The inodes of held entries stay. -/
def Kernel.Honest (k : Kernel) : (op : SystemCall) → op.Answer → Prop
  | .dInode dentry, x => x = k.inode dentry
  | _, _ => True

theorem honest_of_step {k : Kernel} {s s' : Words} {e : SystemEvent} (h : k.Step s e s') :
    k.Honest e.1 e.2 := by
  obtain ⟨op, x⟩ := e
  cases op with
  | dInode dentry => exact h.2
  | _ => trivial

/-- The slot is handed to `ksu_write_to_readonly_slot`. -/
def Exchanges : SystemCall → Prop
  | .writeToReadonlySlot _ _ => True
  | _ => False

theorem words_eq_of_step {k : Kernel} {s s' : Words} {e : SystemEvent} (h : k.Step s e s')
    (he : ¬ Exchanges e.1) : s' = s := by
  obtain ⟨op, x⟩ := e
  cases op with
  | writeToReadonlySlot a y => exact (he trivial).elim
  | load a => exact h.1
  | dInode dentry => exact h.1
  | write fd m reg size => exact h.1
  | _ => exact h

theorem words_eq_of_steps {k : Kernel} {s s' : Words} {t : List SystemEvent}
    (h : Steps k.Step s t s') (ht : ∀ e ∈ t, ¬ Exchanges e.1) : s' = s := by
  induction h with
  | nil s => rfl
  | cons step rest ih =>
    rw [ih fun e he => ht e (List.mem_cons_of_mem _ he),
      words_eq_of_step step (ht _ List.mem_cons_self)]

/-! ## The kernel thread -/

/-- A reference to the path was taken. -/
def takesPath : SystemEvent → Bool
  | ⟨.kernPath _ _, (error, _)⟩ => error = 0
  | _ => false

def dropsPath : SystemEvent → Bool
  | ⟨.pathPut _, _⟩ => true
  | _ => false

/-- The kernel has told that the operations are there. -/
def Named (t : Transcript SystemCall.Answer) (ops : Word) : Prop :=
  ops ≠ 0 ∧ ∃ pde, (⟨.procOps pde, ops⟩ : SystemEvent) ∈ t

/-- No null pointer is followed. Only the write operation in a structure that the kernel named is
looked at, and only that is exchanged, once, for the handler. -/
def Kernel.Careful (k : Kernel) (t : Transcript SystemCall.Answer) : SystemCall → Prop
  | .dInode p | .pde p | .procOps p => p ≠ 0
  | .load a => ∃ ops, Named t ops ∧ a = ops + k.writeOffset
  | .writeToReadonlySlot a x => (∃ ops, Named t ops ∧ a = ops + k.writeOffset) ∧ x = k.handler ∧
      ∀ e ∈ t, ¬ Exchanges e.1
  | _ => True

def hookContract (k : Kernel) : Prog.Contract SystemCall.Answer where
  allowed t op := k.Careful t op
  honest := k.Honest

def Reports : SystemCall → Prop
  | .prInfo line => ∃ ret new, line = reportLine ret new
  | _ => False

/-- Nothing was exchanged so far, and nothing was reported. -/
def Quiet (t : Transcript SystemCall.Answer) : Prop := ∀ e ∈ t, ¬ Exchanges e.1 ∧ ¬ Reports e.1

/-- What is reported was found in a structure that the kernel named, after the last exchange. -/
def Kernel.Explained (k : Kernel) (t : Transcript SystemCall.Answer) : Prop :=
  ∀ ret new, (⟨.prInfo (reportLine ret new), ()⟩ : SystemEvent) ∈ t →
    ∃ t₁ ops t₂, t = t₁ ++ ⟨.load (ops + k.writeOffset), new⟩ :: t₂ ∧ Named t₁ ops ∧
      ∀ e ∈ t₂, ¬ Exchanges e.1

theorem Quiet.concat {t : Transcript SystemCall.Answer} (h : Quiet t) (op : SystemCall)
    (x : op.Answer) (hop : ¬ Exchanges op ∧ ¬ Reports op) : Quiet (t ++ [⟨op, x⟩]) := by
  intro e he
  rcases List.mem_append.mp he with he | he
  · exact h e he
  · obtain rfl := List.mem_singleton.mp he
    exact hop

theorem Quiet.explained {k : Kernel} {t : Transcript SystemCall.Answer} (h : Quiet t) :
    k.Explained t := fun ret new hmem => ((h _ hmem).2 ⟨ret, new, rfl⟩).elim

theorem Quiet.prInfo {t : Transcript SystemCall.Answer} (h : Quiet t) {line : Line}
    (x : (SystemCall.prInfo line).Answer) (hline : line.1 ≠ (reportLine 0 0).1) :
    Quiet (t ++ [⟨.prInfo line, x⟩]) := by
  have hreports : ¬ Reports (.prInfo line) := by
    rintro ⟨ret, new, rfl⟩
    exact hline rfl
  exact h.concat (.prInfo line) x ⟨fun h => h, hreports⟩

theorem Named.append {t : Transcript SystemCall.Answer} {ops : Word} (h : Named t ops)
    (u : Transcript SystemCall.Answer) : Named (t ++ u) ops :=
  ⟨h.1, h.2.imp fun _ hmem => List.mem_append_left u hmem⟩

theorem new_eq_of_reportLine {ret ret' : Int32} {new new' : Word}
    (h : reportLine ret' new' = reportLine ret new) : new' = new := by
  have hargs : ret'.toInt = ret.toInt ∧ (new'.toNat : ℤ) = new.toNat := by
    simpa [reportLine] using h
  exact BitVec.eq_of_toNat_eq (Int.ofNat_inj.mp hargs.2)

/-- Anything but finding and dropping the path. -/
def LeavesPath : SystemCall → Prop
  | .kernPath _ _ | .pathPut _ => False
  | _ => True

/-- The references taken and dropped are those of before. -/
def KeepsPath (t u : Transcript SystemCall.Answer) : Prop :=
  u.countP takesPath = t.countP takesPath ∧ u.countP dropsPath = t.countP dropsPath

theorem keepsPath_concat (t u : Transcript SystemCall.Answer) (op : SystemCall) (x : op.Answer)
    (hop : LeavesPath op) (h : KeepsPath t u) : KeepsPath t (u ++ [⟨op, x⟩]) := by
  have hneither : takesPath ⟨op, x⟩ = false ∧ dropsPath ⟨op, x⟩ = false := by
    cases op with
    | kernPath name flags => exact hop.elim
    | pathPut dentry => exact hop.elim
    | _ => exact ⟨rfl, rfl⟩
  rw [KeepsPath, List.countP_append, List.countP_append, List.countP_singleton,
    List.countP_singleton, hneither.1, hneither.2]
  exact h

theorem replaceWrite_restrict (k : Kernel) {ops : Word} {t : Transcript SystemCall.Answer}
    (hquiet : Quiet t) (hnamed : Named t ops) :
    (replaceWrite k ops).wp ((hookContract k).restrict LeavesPath) (fun _ u => k.Explained u) t := by
  rw [replaceWrite]
  refine ⟨⟨trivial, trivial⟩, fun x _ => ⟨⟨⟨ops, hnamed.append _, rfl⟩, trivial⟩, fun old _ =>
    ⟨⟨trivial, trivial⟩, fun y _ => ?_⟩⟩⟩
  have hfound : "ksym_test: found kallsyms_operations->write at slot 0x%lx pointing to 0x%lx \n" ≠
      (reportLine 0 0).1 := by decide
  have hquiet' := ((hquiet.prInfo x (by decide)).concat (.load (ops + k.writeOffset)) old
    ⟨id, id⟩).prInfo y hfound
  refine ⟨⟨⟨⟨ops, ((hnamed.append _).append _).append _, rfl⟩, rfl, fun e he => (hquiet' e he).1⟩,
    trivial⟩, fun ret _ => ?_⟩
  refine ⟨⟨⟨ops, (((hnamed.append _).append _).append _).append _, rfl⟩, trivial⟩, fun new _ =>
    ⟨⟨trivial, trivial⟩, fun _ _ => ?_⟩⟩
  intro ret' new' hmem
  have hnew : new' = new := by
    rcases List.mem_append.mp hmem with hmem | hmem
    · rcases List.mem_append.mp hmem with hmem | hmem
      · rcases List.mem_append.mp hmem with hmem | hmem
        · exact ((hquiet' _ hmem).2 ⟨ret', new', rfl⟩).elim
        · cases List.mem_singleton.mp hmem
      · cases List.mem_singleton.mp hmem
    · exact new_eq_of_reportLine (by simpa using hmem)
  rw [hnew]
  refine ⟨_ ++ [⟨.writeToReadonlySlot (ops + k.writeOffset) k.handler, ret⟩], ops,
    [⟨.prInfo (reportLine ret new), ()⟩], List.append_assoc _ _ _,
    (((hnamed.append _).append _).append _).append _, ?_⟩
  intro e he
  obtain rfl := List.mem_singleton.mp he
  exact id

theorem hookOps_restrict (k : Kernel) (dentry : Word) {t : Transcript SystemCall.Answer}
    (hquiet : Quiet t) : (hookOps k dentry).wp ((hookContract k).restrict LeavesPath)
      (fun _ u => k.Explained u) t := by
  rw [hookOps]
  by_cases hdentry : dentry = 0
  · rw [if_pos hdentry]
    exact hquiet.explained
  · rw [if_neg hdentry]
    refine ⟨⟨hdentry, trivial⟩, ?_⟩
    rintro inode rfl
    have h₁ := hquiet.concat (.dInode dentry) (k.inode dentry) ⟨id, id⟩
    change Prog.wp _ _ (if k.inode dentry = 0 then _ else _) _
    by_cases hinode : k.inode dentry = 0
    · rw [if_pos hinode]
      exact h₁.explained
    · rw [if_neg hinode]
      refine ⟨⟨trivial, trivial⟩, fun x _ => ⟨⟨hdentry, trivial⟩, ?_⟩⟩
      rintro inode rfl
      refine ⟨⟨hinode, trivial⟩, fun pde _ => ?_⟩
      have h₂ := ((h₁.prInfo x (by decide)).concat (.dInode dentry) (k.inode dentry)
        ⟨id, id⟩).concat (.pde (k.inode dentry)) pde ⟨id, id⟩
      change Prog.wp _ _ (if pde = 0 then _ else _) _
      by_cases hpde : pde = 0
      · rw [if_pos hpde]
        exact h₂.explained
      · rw [if_neg hpde]
        refine ⟨⟨trivial, trivial⟩, fun y _ => ⟨⟨hpde, trivial⟩, fun ops _ => ?_⟩⟩
        have h₃ := (h₂.prInfo y (by decide)).concat (.procOps pde) ops ⟨id, id⟩
        change Prog.wp _ _ (if ops = 0 then _ else _) _
        by_cases hnull : ops = 0
        · rw [if_pos hnull]
          exact h₃.explained
        · rw [if_neg hnull]
          refine replaceWrite_restrict k h₃ ⟨hnull, pde, ?_⟩
          exact List.mem_append_right _ (List.mem_singleton_self _)

/-- What the lookup and the exchange do, they do without touching the path. -/
theorem hookOps_wp (k : Kernel) (dentry : Word) {t : Transcript SystemCall.Answer}
    (hquiet : Quiet t) : (hookOps k dentry).wp (hookContract k)
      (fun _ u => k.Explained u ∧ KeepsPath t u) t :=
  Prog.wp_of_restrict (fun _ => ⟨rfl, rfl⟩) keepsPath_concat (hookOps_restrict k dentry hquiet)

/-- The thread returns zero, drops the path exactly if it has found it, and what it has reported
was found after the exchange. -/
def Kernel.ThreadEnds (k : Kernel) (a : ℤ) (t : Transcript SystemCall.Answer) : Prop :=
  a = 0 ∧ t.countP dropsPath = t.countP takesPath ∧ k.Explained t

theorem Kernel.Explained.concat {k : Kernel} {t : Transcript SystemCall.Answer}
    (h : k.Explained t) (op : SystemCall) (x : op.Answer) (hop : ¬ Exchanges op ∧ ¬ Reports op) :
    k.Explained (t ++ [⟨op, x⟩]) := by
  intro ret new hmem
  rcases List.mem_append.mp hmem with hmem | hmem
  · obtain ⟨t₁, ops, t₂, rfl, hnamed, ht₂⟩ := h ret new hmem
    refine ⟨t₁, ops, t₂ ++ [⟨op, x⟩], List.append_assoc _ _ _, hnamed, fun e he => ?_⟩
    rcases List.mem_append.mp he with he | he
    · exact ht₂ e he
    · obtain rfl := List.mem_singleton.mp he
      exact hop.1
  · obtain rfl : SystemCall.prInfo (reportLine ret new) = op :=
      congrArg Sigma.fst (List.mem_singleton.mp hmem)
    exact (hop.2 ⟨ret, new, rfl⟩).elim

theorem ksuInitHookKallsymsOps_wp (k : Kernel) :
    (ksuInitHookKallsymsOps k).wp (hookContract k) k.ThreadEnds [] := by
  rw [ksuInitHookKallsymsOps]
  refine ⟨trivial, fun x _ => ⟨trivial, ?_⟩⟩
  rintro ⟨error, dentry⟩ _
  have hempty : Quiet [] := fun e he => (List.not_mem_nil he).elim
  have hquiet := (hempty.concat (.msleep 30000) x ⟨id, id⟩).concat
    (.kernPath procKallsyms lookupFollow) (error, dentry) ⟨id, id⟩
  change Prog.wp _ _ (if error ≠ 0 then _ else _) _
  by_cases herror : error = 0
  · rw [if_neg (not_not_intro herror)]
    refine ⟨trivial, fun y _ => ?_⟩
    change Prog.wp _ _ ((hookOps k dentry).bind _) _
    rw [Prog.wp_bind]
    refine Prog.wp_mono (hookOps_wp k dentry (hquiet.prInfo y (by decide))) ?_
    rintro _ u ⟨hexplained, htakes, hdrops⟩
    refine ⟨trivial, fun z _ => ⟨rfl, ?_, hexplained.concat (.pathPut dentry) z ⟨id, id⟩⟩⟩
    rw [List.countP_append, List.countP_append, htakes, hdrops]
    simp [takesPath, dropsPath, herror]
  · rw [if_pos herror]
    have hformat : "ksym_test: kern_path err: %d\n" ≠ (reportLine 0 0).1 := by decide
    refine ⟨trivial, fun y _ => ⟨rfl, ?_, (hquiet.prInfo y hformat).explained⟩⟩
    simp [takesPath, dropsPath, herror]

/-! ## The caller -/

section Caller
variable (m : Memory) (reg : Word)

/-- What `main` hands to the kernel. -/
def mainRequest (fd : Int32) : SystemCall :=
  .write fd (request m reg 0 1 2 3 4 5 6) reg 1

theorem load_ksymWrite_iff (o : Outcomes) :
    (ksymWrite o (request m reg 0 1 2 3 4 5 6) reg 1).mem.load reg = replyMagic ↔
      Served o (request m reg 0 1 2 3 4 5 6) reg := by
  have hmagic := load_request m reg 0 1 2 3 4 5 6
  obtain ⟨i, hi, hmem, hserved⟩ := ksymWrite_stores o (request m reg 0 1 2 3 4 5 6) reg 1
  rw [hmem, load_store_reply hmagic hi, hserved]

/-- Without a descriptor `main` fails, with one it makes one request, and the reply decides. -/
def MainEnds (b : ℤ) (u : Transcript SystemCall.Answer) : Prop :=
  (∃ fd : Int32, u = [⟨.openat atFdcwd procKallsyms oWronly 0o644, fd⟩, ⟨.exit 1, ()⟩] ∧ b = 1) ∨
    ∃ (fd : Int32) (written : Written),
      u = [⟨.openat atFdcwd procKallsyms oWronly 0o644, fd⟩, ⟨mainRequest m reg fd, written⟩,
        ⟨.exit b, ()⟩] ∧
      b = if written.mem.load reg = replyMagic then 0 else 1

theorem main_twp : (main m reg).twp (MainEnds m reg) [] := by
  rw [main]
  intro fd
  change Prog.twp _ (if fd < 0 then _ else _) _
  by_cases hfd : fd < 0
  · rw [if_pos hfd]
    exact fun _ => .inl ⟨fd, rfl, rfl⟩
  · rw [if_neg hfd]
    intro written
    change Prog.twp _ (Prog.bind (if written.mem.load reg ≠ replyMagic then _ else _) _) _
    by_cases hreply : written.mem.load reg = replyMagic
    · rw [if_neg (not_not_intro hreply)]
      exact fun _ => .inr ⟨fd, written, rfl, (if_pos hreply).symm⟩
    · rw [if_pos hreply]
      exact fun _ => .inr ⟨fd, written, rfl, (if_neg hreply).symm⟩

end Caller

theorem MainEnds.quiet {m : Memory} {reg : Word} {b : ℤ} {u : Transcript SystemCall.Answer}
    (h : MainEnds m reg b u) : Quiet u := by
  intro e he
  obtain ⟨fd, rfl, _⟩ | ⟨fd, written, rfl, _⟩ := h
  · rcases List.mem_pair.mp he with rfl | rfl
    · exact ⟨id, id⟩
    · exact ⟨id, id⟩
  · rcases List.mem_cons.mp he with rfl | he
    · exact ⟨id, id⟩
    · rcases List.mem_pair.mp he with rfl | rfl
      · exact ⟨id, id⟩
      · exact ⟨id, id⟩

theorem countP_of_mainEnds {m : Memory} {reg : Word} {b : ℤ} {u : Transcript SystemCall.Answer}
    (h : MainEnds m reg b u) : u.countP takesPath = 0 ∧ u.countP dropsPath = 0 := by
  obtain ⟨fd, rfl, _⟩ | ⟨fd, written, rfl, _⟩ := h
  · exact ⟨rfl, rfl⟩
  · exact ⟨rfl, rfl⟩

theorem MainEnds.answer {m : Memory} {reg : Word} {b : ℤ} {u : Transcript SystemCall.Answer}
    (h : MainEnds m reg b u) {fd : Int32} {written : Written}
    (he : ⟨mainRequest m reg fd, written⟩ ∈ u) :
    b = if written.mem.load reg = replyMagic then 0 else 1 := by
  obtain ⟨fd', rfl, _⟩ | ⟨fd', written', rfl, hb⟩ := h
  · simp [mainRequest] at he
  · obtain ⟨rfl, heq⟩ : fd = fd' ∧ HEq written written' := by simpa [mainRequest] using he
    cases heq
    exact hb

theorem MainEnds.of_zero {m : Memory} {reg : Word} {u : Transcript SystemCall.Answer}
    (h : MainEnds m reg 0 u) : ∃ (fd : Int32) (written : Written),
      (⟨mainRequest m reg fd, written⟩ : SystemEvent) ∈ u ∧ written.mem.load reg = replyMagic := by
  obtain ⟨_, _, hb⟩ | ⟨fd, written, rfl, hb⟩ := h
  · cases hb
  · refine ⟨fd, written, List.mem_cons_of_mem _ List.mem_cons_self, ?_⟩
    by_contra hreply
    rw [if_neg hreply] at hb
    cases hb

/-! ## Both at once -/

/-- What is true of every run of both, from the words `s` to the words `s'`: what the thread and
the program return, what the thread asks for when, and what its report and the result of the
program tell. -/
structure Kernel.EndTogether (k : Kernel) (m : Memory) (reg : Word) (a b : ℤ)
    (trace : List (SystemEvent ⊕ SystemEvent)) (s s' : Words) : Prop where
  returns_zero : a = 0
  balanced : (trace.map unmark).countP dropsPath = (trace.map unmark).countP takesPath
  careful : ∀ before op x after, trace = before ++ .inl ⟨op, x⟩ :: after → k.Careful (lefts before) op
  unchanged : (∀ e ∈ trace.map unmark, ¬ Exchanges e.1) → s' = s
  /-- What the report shows is what is stored at the end. -/
  reported : ∀ ret new, (⟨.prInfo (reportLine ret new), ()⟩ : SystemEvent) ∈ trace.map unmark →
    ∃ ops, Named (lefts trace) ops ∧ s' (ops + k.writeOffset) = new
  /-- Success takes an exchange in front of the request. -/
  success : b = 0 → ∃ before fd written after,
    trace = before ++ .inr ⟨mainRequest m reg fd, written⟩ :: after ∧
      ∃ e ∈ before.map unmark, Exchanges e.1
  /-- A request that finds the handler is answered by it, and succeeds exactly if it is served. -/
  served : ∀ before fd written after s₁ s₂,
    trace = before ++ .inr ⟨mainRequest m reg fd, written⟩ :: after →
      Steps k.Step s (before.map unmark) s₁ → k.Step s₁ ⟨mainRequest m reg fd, written⟩ s₂ →
      s₁ k.slot = k.handler →
        ∃ o, written = ksymWrite o (request m reg 0 1 2 3 4 5 6) reg 1 ∧
          (b = 0 ↔ Served o (request m reg 0 1 2 3 4 5 6) reg)

section Together
variable {k : Kernel} {m : Memory} {reg : Word} {a b : ℤ}
  {trace : List (SystemEvent ⊕ SystemEvent)} {s s' : Words}

theorem careful_of_shuffle {t u : Transcript SystemCall.Answer}
    (ht : (ksuInitHookKallsymsOps k).Returns t a) (hshuffle : Shuffle t u trace)
    (hhonest : ∀ e ∈ t, k.Honest e.1 e.2) {before after : List (SystemEvent ⊕ SystemEvent)}
    {op : SystemCall} {x : op.Answer} (htrace : trace = before ++ .inl ⟨op, x⟩ :: after) :
    k.Careful (lefts before) op := by
  subst htrace
  rw [hshuffle.left_eq] at ht hhonest
  exact Prog.allowed_of_runs (ksuInitHookKallsymsOps_wp k) ht hhonest

/-- What was loaded after the last exchange is there at the end. -/
theorem reported_of_shuffle {t u : Transcript SystemCall.Answer} (hshuffle : Shuffle t u trace)
    (hu : Quiet u) (hexplained : k.Explained t) (hsteps : Steps k.Step s (trace.map unmark) s')
    {ret : Int32} {new : Word}
    (hmem : (⟨.prInfo (reportLine ret new), ()⟩ : SystemEvent) ∈ trace.map unmark) :
    ∃ ops, Named (lefts trace) ops ∧ s' (ops + k.writeOffset) = new := by
  have hmem' : (⟨.prInfo (reportLine ret new), ()⟩ : SystemEvent) ∈ t := by
    rcases List.mem_append.mp (hshuffle.perm.mem_iff.mp hmem) with hmem | hmem
    · exact hmem
    · exact ((hu _ hmem).2 ⟨ret, new, rfl⟩).elim
  obtain ⟨t₁, ops, t₂, rfl, hnamed, ht₂⟩ := hexplained ret new hmem'
  obtain ⟨before, after, rfl, rfl, rfl⟩ := hshuffle.exists_of_left
  rw [List.map_append, List.map_cons] at hsteps
  obtain ⟨s₁, s₂, _, ⟨rfl, hload⟩, hafter⟩ := steps_append_cons.mp hsteps
  refine ⟨ops, ?_, ?_⟩
  · rw [lefts, List.filterMap_append]
    exact hnamed.append _
  · have hquiet : ∀ e ∈ after.map unmark, ¬ Exchanges e.1 := by
      intro e he
      obtain ⟨e', he', rfl⟩ := List.mem_map.mp he
      cases e' with
      | inl e => exact ht₂ e (List.mem_filterMap.mpr ⟨_, he', rfl⟩)
      | inr e =>
        have hright : .inr e ∈ before ++ .inl ⟨.load (ops + k.writeOffset), new⟩ :: after :=
          List.mem_append_right _ (List.mem_cons_of_mem _ he')
        exact (hu e (hshuffle.inr_mem_iff.mp hright)).1
    rw [words_eq_of_steps hafter hquiet]
    exact hload.symm

theorem exchanged_of_success {u : Transcript SystemCall.Answer} (hends : MainEnds m reg 0 u)
    (hright : ∀ e, .inr e ∈ trace ↔ e ∈ u) (hsteps : Steps k.Step s (trace.map unmark) s')
    (hstart : s k.slot = 0) : ∃ before fd written after,
      trace = before ++ .inr ⟨mainRequest m reg fd, written⟩ :: after ∧
        ∃ e ∈ before.map unmark, Exchanges e.1 := by
  obtain ⟨fd, written, hmem, hreply⟩ := hends.of_zero
  obtain ⟨before, after, rfl⟩ := List.append_of_mem ((hright _).mpr hmem)
  refine ⟨before, fd, written, after, rfl, ?_⟩
  by_contra hnone
  rw [List.map_append, List.map_cons] at hsteps
  obtain ⟨s₁, s₂, hbefore, ⟨_, hnull, _⟩, _⟩ := steps_append_cons.mp hsteps
  have hwords := words_eq_of_steps hbefore fun e he hex => hnone ⟨e, he, hex⟩
  rw [hnull (by rw [hwords, hstart]), load_request] at hreply
  exact absurd hreply (by decide)

/-- In every order of the steps of the thread and of the program, whatever the exchange does, as
long as `/proc/kallsyms` has no write operation at the start. -/
theorem hook_and_caller (hstart : s k.slot = 0)
    (h : RunTogether k.Step (ksuInitHookKallsymsOps k) (main m reg) a b trace s s') :
    k.EndTogether m reg a b trace s s' := by
  obtain ⟨⟨t, u, ht, hu, hshuffle⟩, hsteps⟩ := h
  have hhonest : ∀ e ∈ t, k.Honest e.1 e.2 := by
    intro e he
    obtain ⟨s₁, s₂, hstep⟩ := hsteps.exists_step (hshuffle.mem_left he)
    exact honest_of_step hstep
  have hends : MainEnds m reg b u := Prog.twp_post (main_twp m reg) hu
  obtain ⟨hzero, hbalanced, hexplained⟩ :=
    Prog.post_of_returns (ksuInitHookKallsymsOps_wp k) ht hhonest
  constructor
  case returns_zero => exact hzero
  case balanced =>
    obtain ⟨htakes, hdrops⟩ := countP_of_mainEnds hends
    rw [hshuffle.perm.countP_eq, hshuffle.perm.countP_eq, List.countP_append, List.countP_append,
      htakes, hdrops, hbalanced]
  case careful =>
    intro before op x after htrace
    exact careful_of_shuffle ht hshuffle hhonest htrace
  case unchanged => exact words_eq_of_steps hsteps
  case reported =>
    intro ret new hmem
    exact reported_of_shuffle hshuffle hends.quiet hexplained hsteps hmem
  case success =>
    rintro rfl
    exact exchanged_of_success hends (fun e => hshuffle.inr_mem_iff) hsteps hstart
  case served =>
    rintro before fd written after s₁ s₂ rfl _ ⟨_, _, hhandler⟩ hslot
    have hmem := hshuffle.inr_mem_iff.mp (List.mem_append_right before List.mem_cons_self)
    obtain ⟨o, rfl⟩ := hhandler hslot
    refine ⟨o, rfl, ?_⟩
    rw [hends.answer hmem, ← load_ksymWrite_iff]
    simp

end Together

/-! ## A caller that comes late enough -/

/-- A kernel whose exchange stores the handler. -/
def smallKernel : Kernel where
  inode _ := 0x20
  slot := 0x48
  writeOffset := 0x28
  handler := 0x1000
  exchange s a x ret s' := ret = 0 ∧ s' = Function.update s a x

/-- Everything is found, and every copy is complete. -/
def completeOutcomes : Outcomes where
  magicStop := 8
  structStop := 64
  replyStop := 8
  allocated := true
  stack _ := 0

def smallKernelEnv (s : Words) : ∀ op : SystemCall, op.Answer × Words
  | .kernPath _ _ => ((0, 0x10), s)
  | .dInode _ => (0x20, s)
  | .pde _ => (0x30, s)
  | .procOps _ => (0x20, s)
  | .load a => (s a, s)
  | .writeToReadonlySlot a x => (0, Function.update s a x)
  | .openat _ _ _ _ => (3, s)
  | .write _ m reg size =>
    (if s 0x48 = 0x1000 then ksymWrite completeOutcomes m reg size else ⟨-5, m, []⟩, s)
  | .msleep _ | .pathPut _ | .prInfo _ | .exit _ => ((), s)

theorem step_smallKernelEnv (s : Words) (op : SystemCall) :
    smallKernel.Step s ⟨op, (smallKernelEnv s op).1⟩ (smallKernelEnv s op).2 := by
  cases op with
  | writeToReadonlySlot a x => exact ⟨rfl, rfl⟩
  | load a => exact ⟨rfl, rfl⟩
  | dInode dentry => exact ⟨rfl, rfl⟩
  | write fd m reg size =>
    refine ⟨rfl, fun hslot => ?_, fun hslot => ⟨completeOutcomes, if_pos hslot⟩⟩
    have hother : ¬ s 0x48 = 0x1000 := fun h => absurd (h.symm.trans hslot) (by decide)
    exact congrArg Written.mem (if_neg hother)
  | _ => rfl

/-- The thread first, then the program. -/
def lateCaller : List Bool := List.replicate 16 true ++ List.replicate 3 false

theorem runScheduled_lateCaller :
    (runScheduled smallKernelEnv lateCaller (ksuInitHookKallsymsOps smallKernel)
      (main (fun _ => 0) 0x100) fun _ => 0).map (fun r => (r.1, r.2.1)) = some (0, 0) := by
  decide +kernel

theorem hook_and_caller_lateCaller : ∃ trace s',
    smallKernel.EndTogether (fun _ => 0) 0x100 0 0 trace (fun _ => 0) s' ∧
      ∃ before fd written after,
        trace = before ++ .inr ⟨mainRequest (fun _ => 0) 0x100 fd, written⟩ :: after ∧
          ∃ e ∈ before.map unmark, Exchanges e.1 := by
  obtain ⟨⟨a, b, trace, s'⟩, hrun, heq⟩ := Option.map_eq_some_iff.mp runScheduled_lateCaller
  obtain ⟨rfl, rfl⟩ : a = 0 ∧ b = 0 := by simpa using heq
  have hends : smallKernel.EndTogether (fun _ => 0) 0x100 0 0 trace (fun _ => 0) s' :=
    hook_and_caller rfl (runTogether_of_runScheduled step_smallKernelEnv hrun)
  exact ⟨trace, s', hends, hends.success rfl⟩

end VariousStuff.ProcKallsymsHook
