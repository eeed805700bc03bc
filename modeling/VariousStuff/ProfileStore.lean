import VariousStuff.GuardedUpdates
import VariousStuff.ProfileTool

/-!
# The stored profiles

The driver as a store from uid to profile whose two requests are atomic. To the uid of an
app the store is one cell.
-/
namespace VariousStuff.Profile
open Interactive CStrings

/-- At most one profile for each uid. Nothing says that it names that uid. -/
abbrev ProfileStore := Int32 → Option AppProfile

/-- A profile is stored under the uid it names. -/
def ProfileStore.set (s : ProfileStore) (profile : AppProfile) : ProfileStore :=
  Function.update s profile.currUid (some profile)

theorem ProfileStore.set_self (s : ProfileStore) (profile : AppProfile) :
    s.set profile profile.currUid = some profile :=
  Function.update_self ..

theorem ProfileStore.set_of_ne (s : ProfileStore) {profile : AppProfile} {uid : Int32}
    (h : profile.currUid ≠ uid) : s.set profile uid = s uid :=
  Function.update_of_ne (Ne.symm h) ..

/-! ## The driver -/

abbrev ToolEvent := Σ op : ToolCall, op.Answer

def Operand.code : Operand → Option (BitVec 64)
  | .num n => some n
  | _ => none

theorem code_setAppProfile_ne : setAppProfile.code ≠ getAppProfile.code := by decide

/-- What a request that succeeds does to the store. -/
inductive Access where
  | fetched (uid : Int32) (profile : Option AppProfile)
  | stored (profile : AppProfile)

def access : ToolEvent → Option Access
  | ⟨.ioctl _ request (.addrOfProfile profile), answer⟩ =>
    if answer.result ≠ 0 then none
    else if request.code = getAppProfile.code then some (.fetched profile.currUid answer.profile)
    else if request.code = setAppProfile.code then some (.stored profile)
    else none
  | _ => none

/-- A request may fail for any reason, and then changes nothing. -/
def Driver (s : ProfileStore) (e : ToolEvent) (s' : ProfileStore) : Prop :=
  match access e with
  | some (.fetched uid profile) => s' = s ∧ profile = s uid ∧ profile ≠ none
  | some (.stored profile) => s' = s.set profile
  | none => s' = s

/-- A kernel that refuses nothing but a profile it does not have. Its driver is on descriptor 3,
and the manager is the app 10100. -/
def permissiveKernel (s : ProfileStore) : ∀ op : ToolCall, op.Answer × ProfileStore
  | .getuid => ((0 : BitVec 32), s)
  | .reboot _ _ _ => (some (3 : BitVec 32), s)
  | .ioctl _ request (.addrOfProfile profile) =>
    if request.code = getAppProfile.code then
      match s profile.currUid with
      | some stored => (IoctlAnswer.mk 0 none (some stored), s)
      | none => (IoctlAnswer.mk (-1) none none, s)
    else if request.code = setAppProfile.code then (IoctlAnswer.mk 0 none none, s.set profile)
    else (IoctlAnswer.mk (-1) none none, s)
  | .ioctl _ _ _ => (IoctlAnswer.mk 0 (some 10100) none, s)
  | .setuid _ => ((0 : Int32), s)
  | .printf _ _ => ((), s)

theorem driver_permissiveKernel (s : ProfileStore) (op : ToolCall) :
    Driver s ⟨op, (permissiveKernel s op).1⟩ (permissiveKernel s op).2 := by
  cases op with
  | ioctl fd request arg =>
    cases arg with
    | addrOfProfile profile =>
      by_cases hget : request.code = getAppProfile.code
      · cases hstored : s profile.currUid <;>
          simp [Driver, access, permissiveKernel, hget, hstored]
      · by_cases hset : request.code = setAppProfile.code
        · simp [Driver, access, permissiveKernel, hset, code_setAppProfile_ne]
        · simp [Driver, access, permissiveKernel, hget, hset]
    | num n => rfl
    | addrOfBuf => rfl
    | addrOfCmd => rfl
    | missing => rfl
  | getuid => rfl
  | reboot magic1 magic2 cmd => rfl
  | setuid uid => rfl
  | printf format args => rfl

/-! ## One uid -/

/-- A call as seen by the cell of `uid`. -/
def cellCall (uid : Int32) (e : ToolEvent) :
    Option (CellCall (Option AppProfile)) :=
  match access e with
  | some (.fetched u profile) => if u = uid then some (.read profile) else none
  | some (.stored profile) => if profile.currUid = uid then some (.write (some profile)) else none
  | none => none

/-- The cell holds a profile of its own uid. -/
def Named (uid : Int32) (v : Option AppProfile) : Prop := ∃ p ∈ v, p.currUid = uid

theorem not_named_none {uid : Int32} : ¬ Named uid none := by
  simp [Named]

theorem named_some {uid : Int32} {p : AppProfile} : Named uid (some p) ↔ p.currUid = uid := by
  simp [Named]

section Driver
variable {s s' : ProfileStore} {e : ToolEvent} {uid : Int32}

theorem cellStep_of_driver {c : CellCall (Option AppProfile)} (h : Driver s e s')
    (hcall : cellCall uid e = some c) : CellStep (s uid) c (s' uid) := by
  rw [Driver] at h
  rw [cellCall] at hcall
  cases haccess : access e with
  | none => simp [haccess] at hcall
  | some a =>
    cases a with
    | fetched u profile =>
      simp only [haccess] at h hcall
      obtain ⟨rfl, hprofile, -⟩ := h
      obtain ⟨rfl, rfl⟩ : u = uid ∧ CellCall.read profile = c := by simpa using hcall
      exact ⟨hprofile, rfl⟩
    | stored profile =>
      simp only [haccess] at h hcall
      obtain rfl := h
      obtain ⟨rfl, rfl⟩ : profile.currUid = uid ∧ CellCall.write (some profile) = c := by
        simpa using hcall
      exact s.set_self profile

theorem store_eq_of_driver (h : Driver s e s') (hcall : cellCall uid e = none) :
    s' uid = s uid := by
  rw [Driver] at h
  rw [cellCall] at hcall
  cases haccess : access e with
  | none =>
    simp only [haccess] at h
    rw [h]
  | some a =>
    cases a with
    | fetched u profile =>
      simp only [haccess] at h
      rw [h.1]
    | stored profile =>
      simp only [haccess] at h hcall
      rw [h]
      exact s.set_of_ne (by simpa using hcall)

theorem named_of_write {w : Option AppProfile} (h : cellCall uid e = some (.write w)) :
    Named uid w := by
  rw [cellCall] at h
  cases haccess : access e with
  | none => simp [haccess] at h
  | some a =>
    cases a with
    | fetched u profile => simp [haccess] at h
    | stored profile =>
      obtain ⟨hnamed, rfl⟩ : profile.currUid = uid ∧ some profile = w := by simpa [haccess] using h
      exact named_some.mpr hnamed

/-- The driver is a cell to each uid. -/
theorem cellSteps_of_steps {t : List ToolEvent} (h : Steps Driver s t s')
    (uid : Int32) : Steps CellStep (s uid) (t.filterMap (cellCall uid)) (s' uid) :=
  h.filterMap (fun s => s uid) (fun _ _ _ _ => cellStep_of_driver)
    fun _ _ _ => store_eq_of_driver

end Driver

end VariousStuff.Profile
