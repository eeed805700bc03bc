import VariousStuff.GrabUmountList

/-! # The walk over the grabbed list

Where a terminator more stands behind the list, the walk writes the entries and stops.
A buffer of exactly the list's size has no such byte, and the walk looks for it outside. -/
namespace VariousStuff.GrabUmountList
open Interactive UserMemory

/-- A list that the driver can hand over. -/
structure UmountList where
  entries : List (List Byte)
  nonempty : entries ≠ []
  entry_nonempty : ∀ e ∈ entries, e ≠ []
  entry_nulFree : ∀ e ∈ entries, 0 ∉ e

/-- Every entry, followed by one NUL. -/
def encode (entries : List (List Byte)) : List Byte := entries.flatMap fun e => e ++ [0]

/-- Every entry, followed by one newline. -/
def lines (entries : List (List Byte)) : List Byte := entries.flatMap fun e => e ++ newline

/-- The bytes written to the standard output. -/
def written (t : UmountTranscript) : List Byte :=
  t.flatMap fun
    | ⟨.write 1 bytes, _⟩ => bytes
    | _ => []

/-- The offsets of the reads behind the buffer. -/
def strayReads (t : UmountTranscript) : List ℕ :=
  t.filterMap fun
    | ⟨.strayRead offset, _⟩ => some offset
    | _ => none

theorem written_append (t u : UmountTranscript) : written (t ++ u) = written t ++ written u :=
  List.flatMap_append

theorem strayReads_append (t u : UmountTranscript) :
    strayReads (t ++ u) = strayReads t ++ strayReads u :=
  List.filterMap_append

theorem encode_cons (entry : List Byte) (entries : List (List Byte)) :
    encode (entry :: entries) = entry ++ 0 :: encode entries := by
  simp [encode]

theorem lines_cons (entry : List Byte) (entries : List (List Byte)) :
    lines (entry :: entries) = entry ++ newline ++ lines entries := by
  simp [lines]

theorem strayReads_bind {α β : Type} (env : ∀ op : UmountCall, op.Answer) (p : UmountProg α)
    (f : α → UmountProg β) {i : ℕ} (h : i ∈ strayReads (p.run env).2) :
    i ∈ strayReads ((p.bind f).run env).2 := by
  cases hp : p.run env with
  | mk r t =>
    rw [hp] at h
    cases r with
    | none => rwa [Prog.run_bind_of_none env hp]
    | some a =>
      rw [Prog.run_bind env hp, strayReads_append]
      exact List.mem_append_left _ h

section Walk
variable {buffer entry next rest pad : List Byte} {entries : List (List Byte)} {charBuf fuel : ℕ}

/-- What is left of a list, with enough fuel for its strings and rounds enough. -/
structure Remaining (fuel n : ℕ) (entries : List (List Byte)) : Prop where
  nonempty : entries ≠ []
  entry_nonempty : ∀ e ∈ entries, e ≠ []
  entry_nulFree : ∀ e ∈ entries, 0 ∉ e
  short : ∀ e ∈ entries, e.length < fuel
  rounds : entries.length ≤ n

theorem Remaining.exists_rounds {n : ℕ} (h : Remaining fuel n entries) : ∃ k, n = k + 1 := by
  have hpos := List.length_pos_iff.mpr h.nonempty
  have hle := h.rounds
  exact ⟨n - 1, by omega⟩

theorem Remaining.tail {n : ℕ} (h : Remaining fuel (n + 1) (entry :: next :: entries)) :
    Remaining fuel n (next :: entries) where
  nonempty := List.cons_ne_nil _ _
  entry_nonempty := fun e he => h.entry_nonempty e (List.mem_cons_of_mem _ he)
  entry_nulFree := fun e he => h.entry_nulFree e (List.mem_cons_of_mem _ he)
  short := fun e he => h.short e (List.mem_cons_of_mem _ he)
  rounds := Nat.le_of_succ_le_succ h.rounds

theorem charAt_of_drop {i : ℕ} {c : Byte} (h : buffer.drop i = c :: rest) :
    charAt buffer i = .ret c := by
  have hc : buffer[i]? = some c := by
    rw [← Nat.add_zero i, ← List.getElem?_drop, h]
    rfl
  rw [charAt, hc]

theorem charAt_of_drop_nil {i : ℕ} (h : buffer.drop i = []) :
    charAt buffer i = Prog.ask (UmountCall.strayRead i) := by
  have hc : buffer[i]? = none := List.getElem?_eq_none (List.drop_eq_nil_iff.mp h)
  rw [charAt, hc]

/-- From `counted` on, `strlen` counts what is left of the entry. -/
theorem loop_strlenRound {counted todo : List Byte}
    (h : buffer.drop (charBuf + counted.length) = todo ++ 0 :: rest) (hnul : 0 ∉ todo)
    (hfuel : todo.length < fuel) :
    Prog.loop (strlenRound buffer charBuf) fuel counted = .ret (counted ++ todo) := by
  induction todo generalizing counted fuel with
  | nil =>
    obtain ⟨fuel, rfl⟩ : ∃ n, fuel = n + 1 := ⟨fuel - 1, by rw [List.length_nil] at hfuel; omega⟩
    rw [List.append_nil]
    apply Prog.loop_of_inr
    rw [strlenRound, charAt_of_drop h]
    rfl
  | cons c todo ih =>
    obtain ⟨fuel, rfl⟩ : ∃ n, fuel = n + 1 := ⟨fuel - 1, by rw [List.length_cons] at hfuel; omega⟩
    have hc : ¬ c = 0 := fun hc => hnul (by rw [hc]; exact List.mem_cons_self)
    have htodo : 0 ∉ todo := fun hmem => hnul (List.mem_cons_of_mem _ hmem)
    have hround : strlenRound buffer charBuf counted = .ret (.inl (counted ++ [c])) := by
      rw [strlenRound, charAt_of_drop h, Prog.bind_eq, Prog.ret_bind, if_neg hc, Prog.pure_eq]
    have hnext : buffer.drop (charBuf + (counted ++ [c]).length) = todo ++ 0 :: rest := by
      rw [List.length_append, List.length_singleton, ← Nat.add_assoc, ← List.drop_drop, h]
      rfl
    rw [Prog.loop_of_inl hround, ih hnext htodo (by rw [List.length_cons] at hfuel; omega),
      List.append_assoc, List.singleton_append]

theorem strlen_eq (h : buffer.drop charBuf = entry ++ 0 :: rest) (hnul : 0 ∉ entry)
    (hfuel : entry.length < fuel) : strlen buffer fuel charBuf = .ret entry := by
  have hstart : buffer.drop (charBuf + ([] : List Byte).length) = entry ++ 0 :: rest := h
  exact loop_strlenRound hstart hnul hfuel

theorem walkRound_eq (h : buffer.drop charBuf = entry ++ 0 :: rest) (hnul : 0 ∉ entry)
    (hfuel : entry.length < fuel) :
    walkRound buffer fuel charBuf =
      .call (.write 1 entry) fun _ => .call (.write 1 newline) fun _ =>
        (charAt buffer (charBuf + entry.length + 1)).bind fun c =>
          if c ≠ 0 then .ret (.inl (charBuf + entry.length + 1)) else .ret (.inr 0) := by
  rw [walkRound, strlen_eq h hnul hfuel]
  rfl

theorem drop_next (h : buffer.drop charBuf = entry ++ 0 :: rest) :
    buffer.drop (charBuf + entry.length + 1) = rest := by
  rw [Nat.add_assoc, ← List.drop_drop, h, ← List.drop_drop, List.drop_left]
  rfl

variable (env : ∀ op : UmountCall, op.Answer)

/-- The calls of a round that reads nothing behind the buffer. -/
def lineCalls (entry : List Byte) : UmountTranscript :=
  [⟨.write 1 entry, env (.write 1 entry)⟩, ⟨.write 1 newline, env (.write 1 newline)⟩]

theorem written_lineCalls : written (lineCalls env entry) = entry ++ newline := by
  have hwritten : written (lineCalls env entry) = entry ++ (newline ++ []) := rfl
  rw [hwritten, List.append_nil]

theorem walkRound_more {c : Byte} (h : buffer.drop charBuf = entry ++ 0 :: c :: rest) (hc : c ≠ 0)
    (hnul : 0 ∉ entry) (hfuel : entry.length < fuel) :
    (walkRound buffer fuel charBuf).run env =
      (some (.inl (charBuf + entry.length + 1)), lineCalls env entry) := by
  rw [walkRound_eq h hnul hfuel, charAt_of_drop (drop_next h), Prog.ret_bind, if_pos hc]
  rfl

theorem walkRound_last (h : buffer.drop charBuf = entry ++ 0 :: 0 :: rest) (hnul : 0 ∉ entry)
    (hfuel : entry.length < fuel) :
    (walkRound buffer fuel charBuf).run env = (some (.inr 0), lineCalls env entry) := by
  rw [walkRound_eq h hnul hfuel, charAt_of_drop (drop_next h), Prog.ret_bind, if_neg (by simp)]
  rfl

/-- Behind the last terminator of a full buffer the round reads the stack. -/
theorem walkRound_stray (h : buffer.drop charBuf = entry ++ [0]) (hnul : 0 ∉ entry)
    (hfuel : entry.length < fuel) :
    charBuf + entry.length + 1 ∈ strayReads ((walkRound buffer fuel charBuf).run env).2 := by
  rw [walkRound_eq h hnul hfuel, charAt_of_drop_nil (drop_next h)]
  exact List.mem_cons_self

theorem walkRound_next {n : ℕ} (h : buffer.drop charBuf = encode (entry :: next :: entries) ++ pad)
    (hleft : Remaining fuel n (entry :: next :: entries)) :
    (walkRound buffer fuel charBuf).run env =
        (some (.inl (charBuf + entry.length + 1)), lineCalls env entry) ∧
      buffer.drop (charBuf + entry.length + 1) = encode (next :: entries) ++ pad := by
  have hcons : buffer.drop charBuf = entry ++ 0 :: (encode (next :: entries) ++ pad) := by
    rw [h, encode_cons, List.append_assoc]
    rfl
  have hnext : next ≠ [] := hleft.entry_nonempty next (by simp)
  obtain ⟨c, next', rfl⟩ := List.exists_cons_of_ne_nil hnext
  have hc : c ≠ 0 := by
    rintro rfl
    exact hleft.entry_nulFree (0 :: next') (by simp) List.mem_cons_self
  exact ⟨walkRound_more env hcons hc (hleft.entry_nulFree entry List.mem_cons_self)
    (hleft.short entry List.mem_cons_self), drop_next hcons⟩

/-- From the first byte of an entry on, the walk writes what is left of the list. -/
theorem walk_prints {n : ℕ} (h : buffer.drop charBuf = encode entries ++ 0 :: pad)
    (hleft : Remaining fuel n entries) :
    ∃ t, (Prog.loop (walkRound buffer fuel) n charBuf).run env = (some 0, t) ∧
      written t = lines entries ∧ strayReads t = [] := by
  induction entries generalizing charBuf n with
  | nil => exact absurd rfl hleft.nonempty
  | cons entry entries ih =>
    obtain ⟨n, rfl⟩ := hleft.exists_rounds
    cases entries with
    | nil =>
      have hlast : buffer.drop charBuf = entry ++ 0 :: 0 :: pad := by
        rw [h, encode_cons, List.append_assoc]
        rfl
      have hround := walkRound_last env hlast (hleft.entry_nulFree entry List.mem_cons_self)
        (hleft.short entry List.mem_cons_self)
      refine ⟨lineCalls env entry, Prog.run_loop_inr env hround n, ?_, rfl⟩
      rw [written_lineCalls, lines_cons]
      exact (List.append_nil _).symm
    | cons next entries =>
      obtain ⟨hround, hrest⟩ := walkRound_next env h hleft
      obtain ⟨t, hrun, hwritten, hstray⟩ := ih hrest hleft.tail
      refine ⟨lineCalls env entry ++ t, ?_, ?_, ?_⟩
      · rw [Prog.run_loop_inl env hround, hrun]
      · rw [written_append, written_lineCalls, hwritten, ← lines_cons]
      · rw [strayReads_append, hstray]
        rfl

/-- Without a byte behind it, the end of the list is looked for outside the buffer. -/
theorem walk_strays {n : ℕ} (h : buffer.drop charBuf = encode entries)
    (hleft : Remaining fuel n entries) :
    charBuf + (encode entries).length ∈
      strayReads ((Prog.loop (walkRound buffer fuel) n charBuf).run env).2 := by
  induction entries generalizing charBuf n with
  | nil => exact absurd rfl hleft.nonempty
  | cons entry entries ih =>
    obtain ⟨n, rfl⟩ := hleft.exists_rounds
    have hlen : charBuf + (encode (entry :: entries)).length =
        charBuf + entry.length + 1 + (encode entries).length := by
      rw [encode_cons, List.length_append, List.length_cons]
      omega
    rw [hlen]
    cases entries with
    | nil =>
      have hlast : buffer.drop charBuf = entry ++ [0] := by
        rw [h, encode_cons]
        rfl
      have hstray := walkRound_stray env hlast (hleft.entry_nulFree entry List.mem_cons_self)
        (hleft.short entry List.mem_cons_self)
      rw [Prog.loop]
      exact strayReads_bind env _ _ hstray
    | cons next entries =>
      rw [← List.append_nil (encode (entry :: next :: entries))] at h
      obtain ⟨hround, hrest⟩ := walkRound_next env h hleft
      rw [List.append_nil] at hrest
      have hstray := ih hrest hleft.tail
      rw [Prog.run_loop_inl env hround, strayReads_append]
      exact List.mem_append_right _ hstray

end Walk

/-! ## The whole program -/

section Main
variable (env : ∀ op : UmountCall, op.Answer) (l : UmountList)

/-- The driver grants the descriptor `fd`, reports `totalSize` and writes the encoded list
from the start of the buffer. -/
structure Serves (env : ∀ op : UmountCall, op.Answer) (l : UmountList) (totalSize : Word)
    (fd sizeRet listRet : Int32) : Prop where
  fd_ne_zero : fd ≠ 0
  size_ok : 0 ≤ sizeRet
  list_ok : 0 ≤ listRet
  granted : env (.reboot ksuInstallMagic1 ksuInstallMagic2) = fd
  size : env (.ioctl fd ⟨.totalSize, 0, ksuUmountGetsize⟩) = (sizeRet, totalSize)
  list : env (.ioctl fd ⟨.buffer totalSize.toNat, 0, ksuUmountGetlist⟩) = (listRet, encode l.entries)

theorem overwrite_replicate {totalSize : ℕ} {bytes : List Byte} (h : bytes.length ≤ totalSize) :
    overwrite (List.replicate totalSize 0) bytes =
      bytes ++ List.replicate (totalSize - bytes.length) 0 := by
  rw [overwrite, List.length_replicate, List.take_of_length_le h, List.drop_replicate]

theorem UmountList.encode_ne_nil (l : UmountList) : encode l.entries ≠ [] := by
  obtain ⟨entry, entries, h⟩ := List.exists_cons_of_ne_nil l.nonempty
  simp [h, encode_cons]

theorem length_lt_encode {entries : List (List Byte)} {e : List Byte} (he : e ∈ entries) :
    e.length < (encode entries).length := by
  induction entries with
  | nil => cases he
  | cons entry entries ih =>
    rw [encode_cons, List.length_append, List.length_cons]
    rcases List.mem_cons.mp he with rfl | he
    · omega
    · have hrest := ih he
      omega

theorem length_le_encode (entries : List (List Byte)) :
    entries.length ≤ (encode entries).length := by
  induction entries with
  | nil => exact Nat.zero_le _
  | cons entry entries ih =>
    rw [encode_cons, List.length_append, List.length_cons, List.length_cons]
    omega

theorem UmountList.remaining (l : UmountList) {fuel : ℕ} (hfuel : (encode l.entries).length < fuel) :
    Remaining fuel fuel l.entries where
  nonempty := l.nonempty
  entry_nonempty := l.entry_nonempty
  entry_nulFree := l.entry_nulFree
  short := fun _ he => Nat.lt_trans (length_lt_encode he) hfuel
  rounds := Nat.le_of_lt (Nat.lt_of_le_of_lt (length_le_encode l.entries) hfuel)

theorem cMain_run {totalSize : Word} {fd sizeRet listRet : Int32}
    (h : Serves env l totalSize fd sizeRet listRet)
    (hsize : (encode l.entries).length ≤ totalSize.toNat) (fuel : ℕ) :
    ∃ buffer t, buffer =
        encode l.entries ++ List.replicate (totalSize.toNat - (encode l.entries).length) 0 ∧
      written t = [] ∧ strayReads t = [] ∧ (cMain fuel).run env =
        (((walk buffer fuel 0).run env).1, t ++ ((walk buffer fuel 0).run env).2) := by
  have htotal : ¬ totalSize = 0 := by
    rintro rfl
    exact l.encode_ne_nil (List.eq_nil_of_length_eq_zero (Nat.le_zero.mp hsize))
  refine ⟨_, [⟨.reboot ksuInstallMagic1 ksuInstallMagic2, fd⟩,
    ⟨.ioctl fd ⟨.totalSize, 0, ksuUmountGetsize⟩, (sizeRet, totalSize)⟩,
    ⟨.ioctl fd ⟨.buffer totalSize.toNat, 0, ksuUmountGetlist⟩, (listRet, encode l.entries)⟩],
    rfl, rfl, rfl, ?_⟩
  rw [← overwrite_replicate hsize, cMain, Prog.bind_eq, Prog.ask_bind, Prog.run_call, h.granted,
    if_neg h.fd_ne_zero, Prog.bind_eq, Prog.ask_bind, Prog.run_call, h.size]
  simp only [Int32.not_lt.mpr h.size_ok, htotal, if_false, Prog.bind_eq, Prog.ask_bind,
    Prog.run_call, h.list, Int32.not_lt.mpr h.list_ok]
  rfl

/-- Whatever the driver reports as the size of exactly the list, the byte behind it is read. -/
theorem cMain_strays {totalSize : Word} {fd sizeRet listRet : Int32}
    (h : Serves env l totalSize fd sizeRet listRet)
    (hsize : totalSize.toNat = (encode l.entries).length) {fuel : ℕ}
    (hfuel : (encode l.entries).length < fuel) :
    (encode l.entries).length ∈ strayReads ((cMain fuel).run env).2 := by
  obtain ⟨buffer, t, hbuffer, -, -, hrun⟩ := cMain_run env l h (Nat.le_of_eq hsize.symm) fuel
  have hfull : buffer.drop 0 = encode l.entries := by
    rw [hbuffer, hsize, Nat.sub_self, List.replicate_zero, List.append_nil, List.drop_zero]
  have hstray := walk_strays env hfull (l.remaining hfuel)
  rw [Nat.zero_add] at hstray
  rw [hrun, strayReads_append]
  exact List.mem_append_right _ hstray

end Main

/-- With a driver that reports exactly the size of the list, nothing is read behind the buffer. -/
def ReadsInside (l : UmountList) : Prop :=
  ∀ env totalSize fd sizeRet listRet, Serves env l totalSize fd sizeRet listRet →
    totalSize.toNat = (encode l.entries).length → ∀ fuel, strayReads ((cMain fuel).run env).2 = []

def driver (l : UmountList) (totalSize : Word) : ∀ op : UmountCall, op.Answer
  | .reboot _ _ => 3
  | .ioctl _ ⟨.totalSize, _, _⟩ => (0, totalSize)
  | .ioctl _ ⟨.buffer _, _, _⟩ => (0, encode l.entries)
  | .strayRead _ => 0
  | .write _ bytes => BitVec.ofNat 64 bytes.length

theorem driver_serves (l : UmountList) (totalSize : Word) :
    Serves (driver l totalSize) l totalSize 3 0 0 :=
  ⟨by decide, by decide, by decide, rfl, rfl, rfl⟩

theorem not_readsInside_of_length_lt {l : UmountList} (hlen : (encode l.entries).length < 2 ^ 64) :
    ¬ ReadsInside l := by
  intro hinside
  have hsize : (BitVec.ofNat 64 (encode l.entries).length).toNat = (encode l.entries).length := by
    rw [BitVec.toNat_ofNat, Nat.mod_eq_of_lt hlen]
  have hserves := driver_serves l (BitVec.ofNat 64 (encode l.entries).length)
  have hstray := cMain_strays _ l hserves hsize (Nat.lt_succ_self _)
  rw [hinside _ _ _ _ _ hserves hsize] at hstray
  cases hstray

/-- For no list does the walk stay inside a buffer of exactly its size. -/
theorem not_readsInside (l : UmountList) (hlen : (encode l.entries).length < 2 ^ 64) :
    ¬ ReadsInside l ∧ ∀ env totalSize fd sizeRet listRet, Serves env l totalSize fd sizeRet listRet →
      totalSize.toNat = (encode l.entries).length → ∀ fuel > (encode l.entries).length,
      (encode l.entries).length ∈ strayReads ((cMain fuel).run env).2 :=
  ⟨not_readsInside_of_length_lt hlen, fun env _ _ _ _ h hsize _ hfuel =>
    cMain_strays env l h hsize hfuel⟩

/-- The list whose one entry is `/`. -/
def rootMount : UmountList := ⟨[[0x2f]], by decide, by decide, by decide⟩

theorem rootMount_strays : 2 ∈ strayReads ((cMain 3).run (driver rootMount 2)).2 :=
  (not_readsInside rootMount (by decide)).2 _ _ _ _ _ (driver_serves rootMount 2) (by decide) 3
    (by decide)

theorem rootMount_not_readsInside : ¬ ReadsInside rootMount :=
  not_readsInside_of_length_lt (by decide)

/-- With room for a terminator more, the program writes the entries as lines, all of them,
in order and nothing else, reads nothing behind the buffer and returns zero. -/
theorem cMain_prints_entries (env : ∀ op : UmountCall, op.Answer) (l : UmountList)
    {totalSize : Word} {fd sizeRet listRet : Int32} (h : Serves env l totalSize fd sizeRet listRet)
    (hroom : (encode l.entries).length < totalSize.toNat) {fuel : ℕ}
    (hfuel : totalSize.toNat ≤ fuel) :
    ∃ t, (cMain fuel).run env = (some 0, t) ∧ written t = lines l.entries ∧ strayReads t = [] := by
  obtain ⟨buffer, t, hbuffer, hquiet, hinside, hrun⟩ := cMain_run env l h (Nat.le_of_lt hroom) fuel
  obtain ⟨k, hk⟩ : ∃ k, totalSize.toNat - (encode l.entries).length = k + 1 :=
    ⟨totalSize.toNat - (encode l.entries).length - 1, by omega⟩
  have hzero : buffer.drop 0 = encode l.entries ++ 0 :: List.replicate k 0 := by
    rw [hbuffer, hk, List.replicate_succ, List.drop_zero]
  have hlt : (encode l.entries).length < fuel := Nat.lt_of_lt_of_le hroom hfuel
  obtain ⟨u, hwalk, hwritten, hstray⟩ := walk_prints env hzero (l.remaining hlt)
  refine ⟨t ++ u, ?_, ?_, ?_⟩
  · rw [hrun, walk, hwalk]
  · rw [written_append, hquiet, hwritten, List.nil_append]
  · rw [strayReads_append, hinside, hstray, List.nil_append]

/-- The list of `/` and `/a`. -/
def twoMounts : UmountList := ⟨[[0x2f], [0x2f, 0x61]], by decide, by decide, by decide⟩

theorem cMain_prints_twoMounts :
    ∃ t, (cMain 8).run (driver twoMounts 8) = (some 0, t) ∧
      written t = [0x2f, 0x0a, 0x2f, 0x61, 0x0a] ∧ strayReads t = [] :=
  cMain_prints_entries _ twoMounts (driver_serves twoMounts 8) (by decide) (by decide)

end VariousStuff.GrabUmountList
