import VariousStuff.KernelInterface

/-! # `kallsyms_lookup_size_offset` rebuilt from `sprint_symbol` -/
namespace VariousStuff.SymbolSizeOffset
open Interactive CStrings KernelNumerals KernelInterface

/-- The part behind `sprint_symbol`: the size behind the first slash, then the offset
behind the first plus sign of what stands in front of the slash. Each pair is the value
returned and what the two pointers point to afterwards. -/
def parseSizeOffset (buf : Text) (symbolsize offset : Option (BitVec 64)) :
    ℤ × Option (BitVec 64) × Option (BitVec 64) :=
  if ¬ 0 < buf.length then (0, symbolsize, offset)
  else match strchr buf '/' with
  | none => (0, symbolsize, offset)
  | some cSz =>
    match kstrtoul (buf.drop (cSz + 1)) 0 with
    | .error _ => (0, symbolsize, offset)
    | .ok uSz =>
      -- the NUL over the slash bounds the offset
      let buf := buf.take cSz
      match strchr buf '+' with
      | none => (0, symbolsize, offset)
      | some cOff =>
        match kstrtoul (buf.drop (cOff + 1)) 0 with
        | .error _ => (0, symbolsize, offset)
        | .ok uOff => (1, some uSz, some uOff)

/-- A null pointer is `none`. -/
def compatKallsymsLookupSizeOffset (addr : Addr) (symbolsize offset : Option (BitVec 64)) :
    KernelProg (ℤ × Option (BitVec 64) × Option (BitVec 64)) := do
  if addr = 0 ∨ symbolsize.isNone ∨ offset.isNone then return (0, symbolsize, offset)
  let buf ← sprintSymbol addr
  return parseSizeOffset buf symbolsize offset

def getKsymSize (symbolAddr : Addr) (retfail : BitVec 64) : KernelProg (BitVec 64) := do
  let (ret, symbolsize, offset) ← compatKallsymsLookupSizeOffset symbolAddr (some 0) (some 0)
  if ret = 0 then return retfail
  if symbolsize = some 0 ∧ offset = some 0 then return retfail
  return symbolsize.getD 0

end VariousStuff.SymbolSizeOffset
