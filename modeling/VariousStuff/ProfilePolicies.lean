import VariousStuff.ProfileUpdates
import Mathlib.Data.List.GetD

/-!
# What an administrator has decided about the apps

The records of the driver seen as decisions: which app is known under which package name,
whether it may have root rights, whether modules are unmounted for it. The arms of the
union share their bytes, so that a grant also clears the decision to unmount.
-/
namespace VariousStuff.Profile
open Interactive CStrings

structure AppPolicy where
  package : Text
  root : Bool
  useDefault : Bool
  umount : Bool
  rootUid : Int32
  rootGid : Int32

abbrev Policies := Int32 → Option AppPolicy

inductive PolicyChange where
  | create (package : Text)
  | umount (b : Bool)
  | root (grant : Bool)

namespace PolicyChange

/-- Only an app with a name can be changed, and unmounting is not for apps with root rights. -/
def Allowed : PolicyChange → Option AppPolicy → Prop
  | create _, _ => True
  | umount _, a => ∃ policy ∈ a, policy.package ≠ [] ∧ policy.root = false
  | root _, a => ∃ policy ∈ a, policy.package ≠ []

def result : PolicyChange → Option AppPolicy → Option AppPolicy
  | create package, _ => some ⟨package, false, true, false, 0, 0⟩
  | umount b, a => a.map fun policy => { policy with useDefault := false, umount := b }
  | root true, a => a.map fun policy => ⟨policy.package, true, true, false, 0, 0⟩
  | root false, a => a.map fun policy => { policy with root := false }

end PolicyChange

/-- One change: it has to be allowed, and no other app notices it. -/
def PolicyStep (π : Policies) (e : Int32 × PolicyChange) (π' : Policies) : Prop :=
  e.2.Allowed (π e.1) ∧ π' = Function.update π e.1 (e.2.result (π e.1))

/-! ## Records as policies -/

namespace AppProfile

/-- The decisions in a record. -/
def policy (p : AppProfile) : AppPolicy where
  package := p.package
  root := p.allowSu
  useDefault := p.rpUseDefault ≠ 0
  umount := p.nrpUmountModules ≠ 0
  rootUid := p.rpUid
  rootGid := p.rpGid

theorem package_eq_nil_iff (p : AppProfile) : p.package = [] ↔ p.key 0 = '\x00' := by
  obtain ⟨rest, hrest⟩ : ∃ rest, List.ofFn p.key = p.key 0 :: rest := ⟨_, List.ofFn_succ⟩
  rw [package, hrest, List.takeWhile_cons]
  by_cases h : p.key 0 = '\x00'
  · simp [h]
  · simp [h]

theorem boolByte_ne_zero (b : Bool) : decide (boolByte b ≠ 0) = b := by
  cases b <;> rfl

/-- The bytes behind the first two do not notice `setNrp`. -/
theorem s32At_setNrp (p : AppProfile) (useDefault umountModules : Bool) {i : ℕ}
    (h : i + 3 < configSize) (hi : 2 ≤ i) : (p.setNrp useDefault umountModules).s32At i h = p.s32At i h := by
  have hbyte : ∀ j (hj : j < configSize), 2 ≤ j →
      (p.setNrp useDefault umountModules).config ⟨j, hj⟩ = p.config ⟨j, hj⟩ := by
    intro j hj h2
    have h1 : (⟨j, hj⟩ : Fin configSize) ≠ 1 := fun heq => by
      have hval := congrArg Fin.val heq
      simp at hval
      omega
    have h0 : (⟨j, hj⟩ : Fin configSize) ≠ 0 := fun heq => by
      have hval := congrArg Fin.val heq
      simp at hval
      omega
    rw [setNrp_config_apply, if_neg h1, if_neg h0]
  simp only [s32At, hbyte _ _ (by omega : 2 ≤ i + 3), hbyte _ _ (by omega : 2 ≤ i + 2),
    hbyte _ _ (by omega : 2 ≤ i + 1), hbyte _ _ hi]

theorem policy_setNrp (p : AppProfile) (useDefault umountModules : Bool) :
    (p.setNrp useDefault umountModules).policy =
      { p.policy with useDefault := useDefault, umount := umountModules } := by
  have hdefault : (p.setNrp useDefault umountModules).rpUseDefault = boolByte useDefault := by
    rw [rpUseDefault, setNrp_config_apply]
    rfl
  have humount : (p.setNrp useDefault umountModules).nrpUmountModules = boolByte umountModules := by
    rw [nrpUmountModules, setNrp_config_apply]
    rfl
  simp only [policy, hdefault, humount, boolByte_ne_zero, rpUid, rpGid]
  rw [s32At_setNrp p _ _ _ (by decide), s32At_setNrp p _ _ _ (by decide)]
  rfl

/-- Between the flag and the domain a fresh root profile is cleared. -/
theorem rootConfig_eq_zero {j : ℕ} (hj : j < configSize) (hpos : 0 < j)
    (hdomain : j < selinuxDomainOffset) : rootConfig ⟨j, hj⟩ = 0 := by
  have hfirst : (⟨j, hj⟩ : Fin configSize) ≠ 0 := Fin.ne_of_val_ne (Nat.ne_of_gt hpos)
  have hbefore : ¬ (selinuxDomainOffset ≤ j ∧ j < selinuxDomainOffset + selinuxDomain.length) := by
    omega
  simp only [rootConfig]
  rw [if_neg hbefore, Function.update_of_ne hfirst]

theorem s32At_cleared {p : AppProfile} (hp : p.config = fun _ => 0) {i : ℕ} (h : i + 3 < configSize) :
    p.s32At i h = 0 := by
  simp only [s32At, hp]
  rfl

theorem s32At_rootConfig (p : AppProfile) {i : ℕ} (h : i + 3 < configSize) (hpos : 0 < i)
    (hdomain : i + 3 < selinuxDomainOffset) : (p.setRoot true).s32At i h = 0 := by
  simp only [s32At, setRoot, if_true]
  rw [rootConfig_eq_zero _ (by omega) hdomain, rootConfig_eq_zero _ (by omega) (by omega),
    rootConfig_eq_zero _ (by omega) (by omega), rootConfig_eq_zero _ hpos (by omega)]
  rfl

theorem policy_setRoot_true (p : AppProfile) :
    (p.setRoot true).policy = ⟨p.package, true, true, false, 0, 0⟩ := by
  have huid : (p.setRoot true).rpUid = 0 := s32At_rootConfig p _ (by decide) (by decide)
  have hgid : (p.setRoot true).rpGid = 0 := s32At_rootConfig p _ (by decide) (by decide)
  have hdefault : (p.setRoot true).rpUseDefault = 1 := rfl
  have humount : (p.setRoot true).nrpUmountModules = 0 := rfl
  rw [policy, huid, hgid, hdefault, humount]
  rfl

theorem policy_setRoot_false (p : AppProfile) :
    (p.setRoot false).policy = { p.policy with root := false } := by
  have hkey : (p.setRoot false).package = p.package := rfl
  have huid : (p.setRoot false).rpUid = p.rpUid := rfl
  have hgid : (p.setRoot false).rpGid = p.rpGid := rfl
  have hdefault : (p.setRoot false).rpUseDefault = p.rpUseDefault := rfl
  have humount : (p.setRoot false).nrpUmountModules = p.nrpUmountModules := rfl
  have hroot : (p.setRoot false).allowSu = false := rfl
  simp only [policy, hkey, huid, hgid, hdefault, humount, hroot]

theorem takeWhile_append_replicate (s : Text) (n : ℕ) :
    (s ++ List.replicate n '\x00').takeWhile (· ≠ '\x00') = s.takeWhile (· ≠ '\x00') := by
  induction s with
  | nil => cases n <;> simp [List.replicate_succ]
  | cons c s ih =>
    by_cases h : c = '\x00'
    · simp [h]
    · rw [List.cons_append, List.takeWhile_cons, List.takeWhile_cons, ih]

theorem package_strncpyKey (p : AppProfile) (s : Text) (hlast : p.key 255 = '\x00') :
    (p.strncpyKey s).package = (s.take 255).takeWhile (· ≠ '\x00') := by
  have hkey : List.ofFn (p.strncpyKey s).key =
      s.take 255 ++ List.replicate (256 - (s.take 255).length) '\x00' := by
    have hsize : maxPackageName = 256 := rfl
    have hat : ∀ i : Fin maxPackageName, (p.strncpyKey s).key i =
        if i.val < maxPackageName - 1 then s.getD i '\x00' else p.key i := fun _ => rfl
    apply List.ext_getElem
    · rw [List.length_ofFn, List.length_append, List.length_replicate, List.length_take]
      omega
    · intro i hi hi'
      rw [List.length_ofFn] at hi
      rw [List.getElem_ofFn, List.getElem_append]
      split
      · rename_i htake
        rw [List.length_take] at htake
        have hfits : i < maxPackageName - 1 := by omega
        have hlen : i < s.length := by omega
        rw [List.getElem_take, hat, if_pos hfits]
        exact List.getD_eq_getElem _ _ hlen
      · rename_i htake
        rw [List.length_take] at htake
        rw [List.getElem_replicate, hat]
        by_cases hfits : i < maxPackageName - 1
        · have hlen : s.length ≤ i := by omega
          rw [if_pos hfits]
          exact List.getD_eq_default _ _ hlen
        · obtain rfl : i = 255 := by omega
          rw [if_neg hfits]
          exact hlast
  rw [package, hkey, takeWhile_append_replicate]

end AppProfile

end VariousStuff.Profile
