import VariousStuff.ProfileStore

/-!
# The two commands as guarded updates

`--setumount` and `--setroot` read the profile of an uid, may refuse it, and write the
whole record back.
-/
namespace VariousStuff.Profile
open Interactive CStrings

/-! ## The commands as updates -/

inductive ProfileUpdate where
  | umount (umountModules : Bool)
  | root (grant : Bool)

namespace ProfileUpdate

/-- The guards on the stored profile. -/
def Accepts : ProfileUpdate → AppProfile → Prop
  | .umount _, p => p.key 0 ≠ '\x00' ∧ p.allowSu = false
  | .root _, p => p.key 0 ≠ '\x00'

instance : (u : ProfileUpdate) → (p : AppProfile) → Decidable (u.Accepts p)
  | .umount _, _ => inferInstanceAs (Decidable (_ ∧ _))
  | .root _, _ => inferInstanceAs (Decidable (¬ _))

def write : ProfileUpdate → AppProfile → AppProfile
  | .umount umountModules, p => p.setNrp false umountModules
  | .root grant, p => p.setRoot grant

theorem write_currUid (u : ProfileUpdate) (p : AppProfile) : (u.write p).currUid = p.currUid := by
  cases u with
  | umount umountModules => rfl
  | root grant => cases grant <;> rfl

/-- The update of the cell of `uid`. A profile that names another uid is written elsewhere. -/
def onCell (u : ProfileUpdate) (uid : Int32) : GuardedUpdate (Option AppProfile) where
  accepts v := ∃ p ∈ v, p.currUid = uid ∧ u.Accepts p
  decidableAccepts _ := inferInstance
  write v := v.map u.write

section Apply
variable {u : ProfileUpdate} {uid : Int32} {p : AppProfile}

theorem apply_of_not_named (u : ProfileUpdate) {v : Option AppProfile} (h : ¬ Named uid v) :
    (u.onCell uid).apply v = v :=
  GuardedUpdate.apply_of_not_accepts fun ⟨p, hp, hnamed, _⟩ => h ⟨p, hp, hnamed⟩

theorem apply_some_of_accepts (hnamed : p.currUid = uid) (h : u.Accepts p) :
    (u.onCell uid).apply (some p) = some (u.write p) :=
  GuardedUpdate.apply_of_accepts (u := u.onCell uid) ⟨p, rfl, hnamed, h⟩

theorem apply_some_of_not_accepts (h : ¬ u.Accepts p) :
    (u.onCell uid).apply (some p) = some p := by
  apply GuardedUpdate.apply_of_not_accepts
  rintro ⟨q, hq, -, haccepts⟩
  cases hq
  exact h haccepts

end Apply

/-! ## When an update is lost -/

/-- Written from the profile `p` that both commands saw, `last` loses what `other` wrote: the
grant, or the configuration that a withdrawal of root rights leaves as it was. -/
def Overwrites (last other : ProfileUpdate) (p : AppProfile) : Prop :=
  match last, other with
  | .umount _, .root true => True
  | .root false, .umount b => ¬ (p.nrpUseDefault = 0 ∧ p.nrpUmountModules = AppProfile.boolByte b)
  | .root false, .root true => p.config ≠ AppProfile.rootConfig
  | _, _ => False

theorem some_ne_of_allowSu {p q : AppProfile} (hp : p.allowSu = false) (hq : q.allowSu = true) :
    some p ≠ some q := by
  rintro ⟨⟩
  rw [hp] at hq
  cases hq

section Overwriting
variable {uid : Int32} {p : AppProfile}

/-- Nothing is lost where `last` accepts what `other` left and would write the same. -/
theorem not_undoes_of_write_eq {last other : ProfileUpdate} (hnamed : p.currUid = uid)
    (ho : other.Accepts p) (hafter : last.Accepts (other.write p))
    (h : last.write (other.write p) = last.write p) :
    ¬ GuardedUpdate.Undoes (last.onCell uid) (other.onCell uid) (some p) := by
  intro hundoes
  apply hundoes.1
  have hnamed' : (other.write p).currUid = uid := (other.write_currUid p).trans hnamed
  rw [apply_some_of_accepts hnamed ho, apply_some_of_accepts hnamed' hafter, h]
  rfl

/-- A stale record of an app without root rights undoes a grant. -/
theorem undoes_umount_grant {b : Bool} (hnamed : p.currUid = uid) (hl : (umount b).Accepts p) :
    GuardedUpdate.Undoes ((umount b).onCell uid) ((root true).onCell uid) (some p) := by
  have hgrant : (root true).Accepts p := hl.1
  have hrefuses : ¬ (umount b).Accepts ((root true).write p) := fun h => Bool.noConfusion h.2
  have hafter : (root true).Accepts ((umount b).write p) := hl.1
  have hnamed' : ((umount b).write p).currUid = uid := hnamed
  have hsu : ((umount b).write p).allowSu = false := hl.2
  rw [GuardedUpdate.Undoes, apply_some_of_accepts hnamed hl, apply_some_of_accepts hnamed hgrant,
    apply_some_of_not_accepts hrefuses, apply_some_of_accepts hnamed' hafter]
  exact ⟨some_ne_of_allowSu hsu rfl, some_ne_of_allowSu hsu rfl⟩

/-- A stale record that keeps the configuration undoes a change of the flags. -/
theorem undoes_revoke_umount_iff {b : Bool} (hnamed : p.currUid = uid)
    (ho : (umount b).Accepts p) :
    GuardedUpdate.Undoes ((root false).onCell uid) ((umount b).onCell uid) (some p) ↔
      ¬ (p.nrpUseDefault = 0 ∧ p.nrpUmountModules = AppProfile.boolByte b) := by
  have hrevoke : (root false).Accepts p := ho.1
  have hafter : (root false).Accepts (p.setNrp false b) := ho.1
  have hnamed' : (p.setNrp false b).currUid = uid := hnamed
  have hwrite : (root false).write p = p := AppProfile.setRoot_false_eq_self ho.2
  have hwrite' : (root false).write (p.setNrp false b) = p.setNrp false b :=
    AppProfile.setRoot_false_eq_self ho.2
  have hother : ((umount b).onCell uid).apply (some p) = some (p.setNrp false b) :=
    apply_some_of_accepts hnamed ho
  have hlast : ((root false).onCell uid).write (some p) = some p := congrArg some hwrite
  rw [GuardedUpdate.Undoes, hother, hlast, apply_some_of_accepts hnamed' hafter, hwrite',
    apply_some_of_accepts hnamed hrevoke, hwrite, hother, ← p.setNrp_eq_self_iff, and_self,
    ne_comm, not_iff_not]
  exact Option.some_inj

/-- A withdrawal from a stale record undoes a grant with another configuration. -/
theorem undoes_revoke_grant_iff (hnamed : p.currUid = uid) (hkey : p.key 0 ≠ '\x00') :
    GuardedUpdate.Undoes ((root false).onCell uid) ((root true).onCell uid) (some p) ↔
      p.config ≠ AppProfile.rootConfig := by
  have hgrant : (root true).Accepts p := hkey
  have hrevoke : (root false).Accepts p := hkey
  have hafter : (root false).Accepts ((root true).write p) := hkey
  have hafter' : (root true).Accepts ((root false).write p) := hkey
  have hnamed' : ((root true).write p).currUid = uid := hnamed
  have hnamed'' : ((root false).write p).currUid = uid := hnamed
  rw [GuardedUpdate.Undoes, apply_some_of_accepts hnamed hgrant,
    apply_some_of_accepts hnamed hrevoke, apply_some_of_accepts hnamed' hafter,
    apply_some_of_accepts hnamed'' hafter']
  constructor
  · intro h hconfig
    apply h.1
    exact congrArg (fun config => some { p with allowSu := false, config := config }) hconfig
  · intro h
    constructor
    · intro heq
      exact h (congrArg AppProfile.config (Option.some.inj heq))
    · exact some_ne_of_allowSu rfl rfl

theorem undoes_iff {last other : ProfileUpdate} (hnamed : p.currUid = uid)
    (hl : last.Accepts p) (ho : other.Accepts p) :
    GuardedUpdate.Undoes (last.onCell uid) (other.onCell uid) (some p) ↔ last.Overwrites other p := by
  cases last with
  | umount b =>
    cases other with
    | umount b' =>
      refine iff_of_false (not_undoes_of_write_eq hnamed ho hl ?_) id
      exact p.setNrp_setNrp false false b' b
    | root g =>
      cases g with
      | false =>
        have hwrite : (root false).write p = p := AppProfile.setRoot_false_eq_self hl.2
        refine iff_of_false (not_undoes_of_write_eq hnamed ho ?_ ?_) id
        · rwa [hwrite]
        · rw [hwrite]
      | true => exact iff_of_true (undoes_umount_grant hnamed hl) trivial
  | root g =>
    cases g with
    | true =>
      cases other with
      | umount b => exact iff_of_false (not_undoes_of_write_eq hnamed ho hl rfl) id
      | root g' =>
        refine iff_of_false (not_undoes_of_write_eq hnamed ho ?_ (p.setRoot_setRoot g')) id
        cases g' <;> exact hl
    | false =>
      cases other with
      | umount b => exact undoes_revoke_umount_iff hnamed ho
      | root g' =>
        cases g' with
        | true => exact undoes_revoke_grant_iff hnamed hl
        | false => exact iff_of_false (not_undoes_of_write_eq hnamed ho hl rfl) id

end Overwriting

end ProfileUpdate

/-- The update the command line asks for, and for which uid. -/
inductive Asks (argv : ℕ → Option Text) : Int32 → ProfileUpdate → Prop where
  | setumount {arg2 arg3} (h : command argv = .setumount arg2 arg3) :
    Asks argv (atoi arg2) (.umount (flag arg3))
  | setRoot {arg2 arg3} (h : command argv = .setRoot arg2 arg3) :
    Asks argv (atoi arg2) (.root (flag arg3))

end VariousStuff.Profile
