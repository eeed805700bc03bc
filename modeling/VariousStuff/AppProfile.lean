import VariousStuff.CStrings
import Mathlib.Algebra.GroupWithZero.Nat
import Mathlib.Data.List.OfFn
import Mathlib.Data.List.TakeWhile
import Mathlib.Logic.Function.Basic

/-! # The profile record of an app

The union of the root and the non-root configuration is kept as its bytes; both arms
start with a `bool` at offset 0, and what one arm writes the other one reads. -/
namespace VariousStuff.Profile
open CStrings

abbrev Byte := BitVec 8

/-- `sizeof(profile.rp_config)`, the larger arm of the union. -/
abbrev configSize : ℕ := 512

instance : NeZero configSize := ⟨Nat.succ_ne_zero 511⟩

abbrev Config := Fin configSize → Byte

abbrev maxPackageName : ℕ := 256

instance : NeZero maxPackageName := ⟨Nat.succ_ne_zero 255⟩

structure AppProfile where
  version : BitVec 32
  key : Fin maxPackageName → Char
  currUid : Int32
  allowSu : Bool
  /-- In front of the union, which starts at a multiple of eight. -/
  padding : Fin 7 → Byte
  config : Config

namespace AppProfile

/-- `{ 0 }`. -/
def zero : AppProfile := ⟨0, fun _ => '\x00', 0, false, fun _ => 0, fun _ => 0⟩

/-- The name in `key`. -/
def package (p : AppProfile) : Text := (List.ofFn p.key).takeWhile (· ≠ '\x00')

/-- `strncpy(profile.key, s, sizeof(profile.key) - 1)`, which pads with NULs. -/
def strncpyKey (p : AppProfile) (s : Text) : AppProfile :=
  { p with key := fun i => if i.val < maxPackageName - 1 then s.getD i '\x00' else p.key i }

def boolByte (b : Bool) : Byte := if b then 1 else 0

/-- The rest of the record behind `key`, as bytes. -/
def behindKey (p : AppProfile) : List Byte :=
  List.ofFn (fun i : Fin 4 => p.currUid.toBitVec.extractLsb' (8 * i.val) 8) ++
    boolByte p.allowSu :: (List.ofFn p.padding ++ List.ofFn p.config)

/-- What `%s` prints of `key`. It reads on behind a key without a terminator; where the
whole record has none, the text is cut at its end. -/
def keyText (p : AppProfile) : Text :=
  (List.ofFn p.key ++ p.behindKey.map fun b => Char.ofNat b.toNat).takeWhile (· ≠ '\x00')

/-- `nrp_config.use_default` and `nrp_config.profile.umount_modules`. -/
def setNrp (p : AppProfile) (useDefault umountModules : Bool) : AppProfile :=
  { p with config :=
    Function.update (Function.update p.config 0 (boolByte useDefault)) 1 (boolByte umountModules) }

def nrpUseDefault (p : AppProfile) : Byte := p.config 0

def nrpUmountModules (p : AppProfile) : Byte := p.config 1

def rpUseDefault (p : AppProfile) : Byte := p.config 0

/-- A little-endian `__s32` of the union. -/
def s32At (p : AppProfile) (i : ℕ) (h : i + 3 < configSize) : Int32 :=
  Int32.ofBitVec (p.config ⟨i + 3, h⟩ ++ p.config ⟨i + 2, by omega⟩ ++ p.config ⟨i + 1, by omega⟩ ++
    p.config ⟨i, by omega⟩)

/-- `rp_config.profile.uid`, behind the template name. -/
def rpUid (p : AppProfile) : Int32 := p.s32At 264 (by decide)

def rpGid (p : AppProfile) : Int32 := p.s32At 268 (by decide)

/-- `offsetof(rp_config, profile.selinux_domain)`. -/
def selinuxDomainOffset : ℕ := 432

/-- The literal with its terminator. -/
def selinuxDomain : Text := "u:r:ksu:s0".toList ++ ['\x00']

/-- The union of a fresh root profile: cleared, with the default flag and a domain. -/
def rootConfig : Config :=
  let cleared : Config := fun _ => 0
  let flagged := Function.update cleared 0 (boolByte true)
  fun i =>
    if selinuxDomainOffset ≤ i.val ∧ i.val < selinuxDomainOffset + selinuxDomain.length then
      BitVec.ofNat 8 (selinuxDomain.getD (i.val - selinuxDomainOffset) '\x00').toNat
    else flagged i

/-- What `--setroot` makes of the record: only a grant touches the union. -/
def setRoot (p : AppProfile) (grant : Bool) : AppProfile :=
  if grant then { p with allowSu := true, config := rootConfig } else { p with allowSu := false }

/-! ## The changes on each other -/

/-- Only the first two bytes of the union matter to `setNrp`. -/
theorem setNrp_config_apply (p : AppProfile) (useDefault umountModules : Bool) (i : Fin configSize) :
    (p.setNrp useDefault umountModules).config i =
      if i = 1 then boolByte umountModules
      else if i = 0 then boolByte useDefault
      else p.config i := by
  simp only [setNrp, Function.update_apply]

theorem setNrp_setNrp (p : AppProfile) (d d' b b' : Bool) :
    (p.setNrp d b).setNrp d' b' = p.setNrp d' b' := by
  have hconfig : ((p.setNrp d b).setNrp d' b').config = (p.setNrp d' b').config := by
    funext i
    simp only [setNrp_config_apply]
    split_ifs <;> rfl
  exact congrArg (fun config => { p with config := config }) hconfig

theorem setNrp_eq_self_iff (p : AppProfile) (b : Bool) :
    p.setNrp false b = p ↔ p.nrpUseDefault = 0 ∧ p.nrpUmountModules = boolByte b := by
  constructor
  · intro h
    have hconfig : (p.setNrp false b).config = p.config := congrArg AppProfile.config h
    have hdefault := congrFun hconfig 0
    have humount := congrFun hconfig 1
    rw [setNrp_config_apply] at hdefault humount
    exact ⟨hdefault.symm, humount.symm⟩
  · rintro ⟨hdefault, humount⟩
    have hconfig : (p.setNrp false b).config = p.config := by
      funext i
      rw [setNrp_config_apply]
      split_ifs with h1 h0
      · rw [h1, ← humount]
        rfl
      · rw [h0]
        exact hdefault.symm
      · rfl
    exact congrArg (fun config => { p with config := config }) hconfig

theorem setRoot_setRoot (p : AppProfile) (g : Bool) : (p.setRoot g).setRoot true = p.setRoot true := by
  cases g <;> rfl

/-- Taking root rights away from an app without them changes nothing. -/
theorem setRoot_false_eq_self {p : AppProfile} (h : p.allowSu = false) : p.setRoot false = p := by
  cases p with
  | mk version key currUid allowSu padding config =>
    cases h
    rfl

end AppProfile
end VariousStuff.Profile
