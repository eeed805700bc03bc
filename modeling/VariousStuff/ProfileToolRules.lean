import VariousStuff.ProfileTool

/-! # Rules for the parts of the profile tool

Each part either goes on after calls that are known exactly, or ends the run without
having written. The rules hold for every contract that leaves calls other than writes
alone. -/
namespace VariousStuff.Profile
open Interactive CStrings

def IsWrite : ToolCall → Prop
  | .ioctl _ request _ => request = setAppProfile
  | _ => False

def NoWrites (t : ToolTranscript) : Prop := ∀ e ∈ t, ¬ IsWrite e.1

theorem getInfo_ne_setAppProfile : getInfo ≠ setAppProfile := fun h =>
  absurd (Operand.num.inj h) (by decide)

theorem getManagerUid_ne_setAppProfile : getManagerUid ≠ setAppProfile := fun h =>
  absurd (Operand.num.inj h) (by decide)

theorem getAppProfile_ne_setAppProfile : getAppProfile ≠ setAppProfile := fun h =>
  absurd (Operand.num.inj h) (by decide)

theorem addrOfBuf_ne_setAppProfile : Operand.addrOfBuf ≠ setAppProfile := by
  rw [setAppProfile, ioc]
  exact nofun

theorem noWrites_nil : NoWrites [] := fun _ he => nomatch he

theorem noWrites_cons {e : Σ op : ToolCall, op.Answer} {u : ToolTranscript} (he : ¬ IsWrite e.1)
    (hu : NoWrites u) : NoWrites (e :: u) := by
  intro e' he'
  rcases List.mem_cons.mp he' with rfl | h
  · exact he
  · exact hu e' h

theorem noWrites_append {u v : ToolTranscript} (hu : NoWrites u) (hv : NoWrites v) :
    NoWrites (u ++ v) := by
  intro e he
  rcases List.mem_append.mp he with h | h
  · exact hu e h
  · exact hv e h

theorem noWrites_line (format : String) (args : List PrintArg) :
    NoWrites [⟨.printf format args, ()⟩] :=
  noWrites_cons id noWrites_nil

/-! ## Single calls -/

/-- The contract restricts writes only. -/
def RestrictsWrites (C : Prog.Contract ToolCall.Answer) : Prop :=
  ∀ t op, ¬ IsWrite op → C.allowed t op

/-- Nothing is assumed of the answers. -/
def unrestricted : Prog.Contract ToolCall.Answer where
  allowed _ _ := True
  honest _ _ := True

theorem restrictsWrites_unrestricted : RestrictsWrites unrestricted := fun _ _ _ => trivial

section Rules
variable {C : Prog.Contract ToolCall.Answer} {α : Type} {Q : α → ToolTranscript → Prop}
  {t : ToolTranscript}

theorem wp_ask (hC : RestrictsWrites C) {op : ToolCall} {f : op.Answer → ToolProg α}
    (hop : ¬ IsWrite op) (h : ∀ x, C.honest op x → (f x).wp C Q (t ++ [⟨op, x⟩])) :
    (Prog.ask op >>= f).wp C Q t :=
  ⟨hC t op hop, h⟩

theorem wp_ioctl (hC : RestrictsWrites C) {fd request arg : Operand} {f : IoctlAnswer → ToolProg α}
    (hrequest : request ≠ setAppProfile)
    (h : ∀ answer, C.honest (.ioctl fd request arg) answer →
      (f answer).wp C Q (t ++ [⟨.ioctl fd request arg, answer⟩])) :
    (ioctl fd request arg >>= f).wp C Q t :=
  wp_ask hC hrequest h

theorem wp_printf (hC : RestrictsWrites C) {format : String} {args : List PrintArg}
    {f : Unit → ToolProg α} (h : (f ()).wp C Q (t ++ [⟨.printf format args, ()⟩])) :
    (printf format args >>= f).wp C Q t :=
  wp_ask hC id fun _ _ => h

theorem wp_refuse (hC : RestrictsWrites C) {message : String} {f : Outcome → ToolProg α}
    (h : (f (.exit 1)).wp C Q (t ++ [⟨.printf message [], ()⟩])) :
    (refuse message >>= f).wp C Q t :=
  wp_printf hC h

theorem wp_guard (hC : RestrictsWrites C) {b : Prop} [Decidable b] {message : String}
    {f : Outcome → ToolProg α} {p : ToolProg α}
    (hrefused : b → (f (.exit 1)).wp C Q (t ++ [⟨.printf message [], ()⟩]))
    (hpassed : ¬ b → p.wp C Q t) : (if b then refuse message >>= f else p).wp C Q t := by
  by_cases hb : b
  · rw [if_pos hb]
    exact wp_refuse hC (hrefused hb)
  · rw [if_neg hb]
    exact hpassed hb

end Rules

/-! ## The common parts of the commands -/

section Parts
variable {C : Prog.Contract ToolCall.Answer} {t : ToolTranscript} {fd : BitVec 32}

/-- The request for the uid of the manager. -/
def managerRequest (fd : BitVec 32) : ToolCall := .ioctl (onFd fd) getManagerUid .addrOfCmd

/-- The calls by which the tool becomes the manager. -/
def managerCalls (fd : BitVec 32) (answer : IoctlAnswer) (manager : BitVec 32) : ToolTranscript :=
  [⟨managerRequest fd, answer⟩, ⟨.setuid manager, (0 : Int32)⟩]

theorem noWrites_managerCalls (answer : IoctlAnswer) (manager : BitVec 32) :
    NoWrites (managerCalls fd answer manager) :=
  noWrites_cons getManagerUid_ne_setAppProfile (noWrites_cons id noWrites_nil)

/-- Either the tool becomes the manager for an app's uid, or it exits with 1, or it reads
`cmd` where that has no value. -/
theorem asManager_wp (hC : RestrictsWrites C) {Q : Except Outcome Int32 → ToolTranscript → Prop}
    (cmd : Option (BitVec 32)) (arg2 : Text) (badUid : String)
    (hok : ∀ answer manager, C.honest (managerRequest fd) answer → answer.result = 0 →
      (answer.uid <|> cmd) = some manager → manager ≠ 0 → 10000 ≤ atoi arg2 →
      Q (.ok (atoi arg2)) (t ++ managerCalls fd answer manager))
    (hundefined : ∀ answer, C.honest (managerRequest fd) answer → answer.result = 0 →
      (answer.uid <|> cmd) = none → Q (.error .undefined) (t ++ [⟨managerRequest fd, answer⟩]))
    (herror : ∀ u, NoWrites u → Q (.error (.exit 1)) (t ++ u)) :
    (asManager fd cmd arg2 badUid).wp C Q t := by
  refine wp_ioctl hC getManagerUid_ne_setAppProfile fun answer hhonest => ?_
  have hrefuse : ∀ u, NoWrites u → Q (.error (.exit 1)) (t ++ [⟨managerRequest fd, answer⟩] ++ u) := by
    intro u hu
    rw [List.append_assoc]
    exact herror _ (noWrites_cons getManagerUid_ne_setAppProfile hu)
  refine wp_guard hC (fun _ => hrefuse _ (noWrites_line _ [])) fun hresult => ?_
  cases huid : (answer.uid <|> cmd) with
  | none => exact hundefined answer hhonest (of_not_not hresult) huid
  | some manager =>
    refine wp_guard hC (fun _ => hrefuse _ (noWrites_line _ [])) fun hzero => ?_
    refine wp_guard hC (fun _ => hrefuse _ (noWrites_line badUid [])) fun hlow => ?_
    refine wp_ask hC id fun ret _ => ?_
    rw [List.append_assoc]
    refine wp_guard hC (fun _ => ?_) fun hret => ?_
    · rw [List.append_assoc]
      exact herror _ (noWrites_cons getManagerUid_ne_setAppProfile
        (noWrites_cons id (noWrites_line _ [])))
    · obtain rfl : ret = 0 := of_not_not hret
      exact hok answer manager hhonest (of_not_not hresult) huid hzero (Int32.not_lt.mp hlow)

/-- The request for the stored profile of `uid`. -/
def profileRequest (fd : BitVec 32) (uid : Int32) : ToolCall :=
  .ioctl (onFd fd) getAppProfile
    (.addrOfProfile { AppProfile.zero with version := ksuAppProfileVer, currUid := uid })

theorem noWrites_profileRequest (uid : Int32) (answer : IoctlAnswer) :
    NoWrites [⟨profileRequest fd uid, answer⟩] :=
  noWrites_cons getAppProfile_ne_setAppProfile noWrites_nil

/-- Either the driver filled in a profile that names an app, or the tool exits with 1: the
record it asks with has an empty key. -/
theorem fetchProfile_wp (hC : RestrictsWrites C)
    {Q : Except Outcome AppProfile → ToolTranscript → Prop} (uid : Int32)
    (hok : ∀ answer stored, C.honest (profileRequest fd uid) answer → answer.result = 0 →
      answer.profile = some stored → stored.key 0 ≠ '\x00' →
      Q (.ok stored) (t ++ [⟨profileRequest fd uid, answer⟩]))
    (herror : ∀ u, NoWrites u → Q (.error (.exit 1)) (t ++ u)) :
    (fetchProfile fd .zero uid).wp C Q t := by
  refine wp_ioctl hC getAppProfile_ne_setAppProfile fun answer hhonest => ?_
  have hrefuse : Q (.error (.exit 1)) (t ++ [⟨profileRequest fd uid, answer⟩] ++
      [⟨.printf "Error: no profile!\n" [], ()⟩]) := by
    rw [List.append_assoc]
    exact herror _ (noWrites_append (noWrites_profileRequest uid answer) (noWrites_line _ []))
  refine wp_guard hC (fun _ => hrefuse) fun hresult => ?_
  cases hstored : answer.profile with
  | none => exact wp_guard hC (fun _ => hrefuse) fun hkey => absurd rfl hkey
  | some stored =>
    exact wp_guard hC (fun _ => hrefuse) fun hkey =>
      hok answer stored hhonest (of_not_not hresult) hstored hkey

/-- The request to store `profile`. -/
def writeRequest (fd : BitVec 32) (profile : AppProfile) : ToolCall :=
  .ioctl (onFd fd) setAppProfile (.addrOfProfile profile)

theorem write_eq_of_mem {t u : ToolTranscript} (ht : NoWrites t) (hu : NoWrites u) {fd : BitVec 32}
    {profile : AppProfile} {answer answer' : IoctlAnswer} {fd' arg : Operand}
    (hmem : ⟨.ioctl fd' setAppProfile arg, answer'⟩ ∈ t ++ ⟨writeRequest fd profile, answer⟩ :: u) :
    fd' = onFd fd ∧ arg = .addrOfProfile profile ∧ answer' = answer := by
  rcases List.mem_append.mp hmem with hbefore | hrest
  · exact absurd rfl (ht _ hbefore)
  · rcases List.mem_cons.mp hrest with hwrite | hafter
    · unfold writeRequest at hwrite
      cases hwrite
      exact ⟨rfl, rfl, rfl⟩
    · exact absurd rfl (hu _ hafter)

/-- An allowed write and a last line; the exit code tells whether the write succeeded. -/
theorem storeProfile_wp (hC : RestrictsWrites C) {Q : Outcome → ToolTranscript → Prop}
    (profile : AppProfile) (failure success : String) (args : List PrintArg)
    (hallowed : C.allowed t (writeRequest fd profile))
    (h : ∀ answer code format args, (code = 0 ↔ answer.result = 0) →
      Q (.exit code) (t ++ [⟨writeRequest fd profile, answer⟩, ⟨.printf format args, ()⟩])) :
    (storeProfile fd profile failure success args).wp C Q t := by
  refine ⟨hallowed, fun answer _ => wp_guard hC (fun hresult => ?_) fun hresult => ?_⟩
  · rw [List.append_assoc]
    exact h answer 1 failure [] (iff_of_false (by omega) hresult)
  · refine wp_printf hC ?_
    rw [List.append_assoc]
    exact h answer 0 success args (iff_of_true rfl (of_not_not hresult))

/-- The calls of a command up to the stored profile. -/
def fetchCalls (fd : BitVec 32) (uid : Int32) (answer : IoctlAnswer) (manager : BitVec 32)
    (answer' : IoctlAnswer) : ToolTranscript :=
  managerCalls fd answer manager ++ [⟨profileRequest fd uid, answer'⟩]

theorem noWrites_fetchCalls (uid : Int32) (answer : IoctlAnswer) (manager : BitVec 32)
    (answer' : IoctlAnswer) : NoWrites (fetchCalls fd uid answer manager answer') :=
  noWrites_append (noWrites_managerCalls answer manager) (noWrites_profileRequest uid answer')

/-- What three of the commands have in common: the stored profile of an app, as the manager. -/
def fetching (fd : BitVec 32) (cmd : Option (BitVec 32)) (arg2 : Text)
    (f : Int32 → AppProfile → ToolProg Outcome) : ToolProg Outcome := do
  match ← asManager fd cmd arg2 "Error: bad uid!\n" with
  | .error outcome => return outcome
  | .ok reqUid =>
    match ← fetchProfile fd .zero reqUid with
    | .error outcome => return outcome
    | .ok profile => f reqUid profile

theorem fetching_wp (hC : RestrictsWrites C) {Q : Outcome → ToolTranscript → Prop} {arg2 : Text}
    {cmd : Option (BitVec 32)} {f : Int32 → AppProfile → ToolProg Outcome}
    (hok : ∀ answer manager answer' stored, C.honest (managerRequest fd) answer →
      answer.result = 0 → (answer.uid <|> cmd) = some manager → manager ≠ 0 → 10000 ≤ atoi arg2 →
      C.honest (profileRequest fd (atoi arg2)) answer' → answer'.result = 0 →
      answer'.profile = some stored → stored.key 0 ≠ '\x00' →
      (f (atoi arg2) stored).wp C Q (t ++ fetchCalls fd (atoi arg2) answer manager answer'))
    (hundefined : ∀ answer, C.honest (managerRequest fd) answer → answer.result = 0 →
      (answer.uid <|> cmd) = none → Q .undefined (t ++ [⟨managerRequest fd, answer⟩]))
    (herror : ∀ u, NoWrites u → Q (.exit 1) (t ++ u)) :
    (fetching fd cmd arg2 f).wp C Q t := by
  rw [fetching, Prog.bind_eq, Prog.wp_bind]
  apply asManager_wp hC
  · intro answer manager hhonest hresult huid hzero hge
    dsimp only
    rw [Prog.bind_eq, Prog.wp_bind]
    apply fetchProfile_wp hC
    · intro answer' stored hhonest' hresult' hstored hkey
      rw [List.append_assoc]
      exact hok answer manager answer' stored hhonest hresult huid hzero hge hhonest' hresult'
        hstored hkey
    · intro u hu
      rw [List.append_assoc]
      exact herror _ (noWrites_append (noWrites_managerCalls answer manager) hu)
  · exact hundefined
  · exact herror

/-- The calls by which the tool gets hold of the driver. -/
def openingCalls (fd : BitVec 32) (answer : IoctlAnswer) : ToolTranscript :=
  [⟨.getuid, (0 : BitVec 32)⟩, ⟨.reboot ksuInstallMagic1 ksuInstallMagic2 0, some fd⟩,
    ⟨.ioctl (onFd fd) getInfo .addrOfBuf, answer⟩]

theorem noWrites_openingCalls (fd : BitVec 32) (answer : IoctlAnswer) :
    NoWrites (openingCalls fd answer) :=
  noWrites_cons id (noWrites_cons id (noWrites_cons getInfo_ne_setAppProfile noWrites_nil))

theorem main_wp (hC : RestrictsWrites C) {Q : Outcome → ToolTranscript → Prop}
    {argv : ℕ → Option Text}
    (hcommand : ∀ fd answer, fd ≠ 0 → answer.result = 0 →
      (runCommand fd argv).wp C Q (openingCalls fd answer))
    (hrefused : ∀ u, NoWrites u → Q (.exit 1) u) : (main argv).wp C Q [] := by
  refine wp_ask hC id fun uid _ => ?_
  refine wp_guard hC (fun _ => hrefused _ (noWrites_cons id (noWrites_line _ []))) fun huid => ?_
  obtain rfl : uid = 0 := of_not_not huid
  refine wp_ask hC id fun stored _ => ?_
  have hroot : NoWrites [⟨.getuid, (0 : BitVec 32)⟩,
      ⟨.reboot ksuInstallMagic1 ksuInstallMagic2 0, stored⟩] :=
    noWrites_cons id (noWrites_cons id noWrites_nil)
  by_cases hfd : stored.getD 0 = 0
  · rw [if_pos hfd]
    exact hrefused _ hroot
  · rw [if_neg hfd]
    refine wp_ioctl hC getInfo_ne_setAppProfile fun answer _ => ?_
    by_cases hresult : answer.result = 0
    · rw [if_neg (not_not_intro hresult)]
      cases stored with
      | none => exact absurd rfl hfd
      | some fd => exact hcommand fd answer hfd hresult
    · rw [if_pos hresult]
      refine wp_ioctl hC addrOfBuf_ne_setAppProfile fun legacy _ => ?_
      have hquiet : NoWrites [⟨.getuid, (0 : BitVec 32)⟩,
          ⟨.reboot ksuInstallMagic1 ksuInstallMagic2 0, stored⟩,
          ⟨.ioctl (onFd (stored.getD 0)) getInfo .addrOfBuf, answer⟩,
          ⟨.ioctl getInfoLegacy .addrOfBuf .missing, legacy⟩] :=
        noWrites_append hroot (noWrites_cons getInfo_ne_setAppProfile
          (noWrites_cons addrOfBuf_ne_setAppProfile noWrites_nil))
      have hline : ∀ message, Q (.exit 1) (_ ++ [⟨.printf message [], ()⟩]) := fun message =>
        hrefused _ (noWrites_append hquiet (noWrites_line message []))
      exact wp_guard hC (fun _ => hline _) fun _ => wp_refuse hC (hline _)

end Parts

end VariousStuff.Profile
