import VariousStuff.KernelInterface

/-! # The radiating scan for `kallsyms_lookup_name` -/
namespace VariousStuff.KallsymsBootstrap
open Interactive CStrings KernelNumerals KernelInterface

def maxIter : ℕ := 400000

def sym : Text := "kallsyms_lookup_name+".toList

/-- `sizeof(uint32_t) * 16`: the distance between two probes on one side. -/
def stride : ℕ := 4 * 16

/-- The locals of `bootstrap_kallsyms_lookup_name` that live from one probe to the next. -/
structure Scan where
  iter : ℕ
  curr : Addr
  up : Bool
  rHigh : Addr
  rLow : Addr

/-- Label `inc`: the next probe lies on the other side of the anchor. -/
def Scan.inc (anchor : Addr) (s : Scan) : Scan :=
  if s.up then
    { s with
      iter := s.iter + 1
      rHigh := s.curr
      curr := anchor + BitVec.ofNat 64 (stride * (s.iter + 1))
      up := false }
  else
    { s with
      rLow := s.curr
      curr := anchor - BitVec.ofNat 64 (stride * s.iter)
      up := true }

/-- Label `found_candidate`: from an address inside the symbol back to its start.
Writing the NUL over the slash leaves the text in front of it. -/
def foundCandidate (anchor : Addr) (g : Globals) (s : Scan) (buf : Text) :
    KernelProg (Scan ⊕ (ℤ × Globals)) :=
  match strchr buf '/' with
  | none => return .inl (s.inc anchor)
  | some sl =>
    let buf := buf.take sl
    match strchr buf '+' with
    | none => return .inl (s.inc anchor)
    | some pl => do
      prInfo "candidate found: %s @ 0x%lx\n" [.str buf, lx s.curr]
      match kstrtoul (buf.drop (pl + 1)) 0 with
      | .error _ => return .inl (s.inc anchor)
      | .ok offset =>
        let testP := s.curr - offset
        let buf ← sprintSymbol testP
        if ¬ 0 < buf.length then return .inl (s.inc anchor)
        if ¬ strstr buf "+0x0".toList then return .inl (s.inc anchor)
        let curr := s.curr - offset
        prInfo "%s: %s found at 0x%lx iter: %d range: 0x%lx ~ 0x%lx\n"
          [.str "bootstrap_kallsyms_lookup_name".toList, .str buf, lx curr, .num s.iter,
            lx s.rHigh, lx s.rLow]
        return .inr (0, { g with kallsymsLookupNameFn := curr })

/-- Label `start_r`: one probe. `sizeof(sym)` counts the terminator. -/
def startR (anchor : Addr) (g : Globals) (s : Scan) : KernelProg (Scan ⊕ (ℤ × Globals)) := do
  if s.iter ≥ maxIter then
    prInfo "%s: bootsrap fail! iter: %d range: 0x%lx ~ 0x%lx\n"
      [.str "bootstrap_kallsyms_lookup_name".toList, .num s.iter, lx s.rHigh, lx s.rLow]
    return .inr (-ERANGE, g)
  let ibuf ← copyFromKernelNofault s.curr 4
  if ibuf.isNone then return .inl (s.inc anchor)
  let buf ← sprintSymbol s.curr
  if buf.length < sym.length + 1 then return .inl (s.inc anchor)
  if strstarts buf sym then foundCandidate anchor g s buf
  else return .inl (s.inc anchor)

def Scan.start (ptr : Addr) : Scan := ⟨0, ptr, true, 0, 0⟩

/-- The value returned, and the static variables afterwards. -/
def bootstrapKallsymsLookupName (fuel : ℕ) (g : Globals) (ptr : Addr) : KernelProg (ℤ × Globals) :=
  Prog.loop (startR ptr g) fuel (Scan.start ptr)

end VariousStuff.KallsymsBootstrap
