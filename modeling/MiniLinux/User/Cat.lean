import MiniLinux.User.Calls

/-! `cat` of `user/laboratory.c` against the files of the kernel. -/

namespace MiniLinux.User

open Foundation Interaction

-----------------------------------------------------------------------------------------
-- The program
-----------------------------------------------------------------------------------------

/-- The path that `cat` builds in `path[96]` from a name of at most 90 characters. -/
def catPath (name : List Byte) : UserCode (List Byte) := do
  let n := name.length
  let start := if name.head? = some 47 then 0 else 1
  let path : Buffer 96 := Buffer.fresh
  let path ← if start = 1 then path.store 0 47 else pure path
  let path ← path.storeAll start name
  path.loadAll 0 (start + n)

/-- One round of the loop of `cat`; `bytes` is `bytes[128]`. -/
def catRound (fd : U64) (bytes : Buffer 128) : UserCode (Buffer 128 ⊕ PUnit) := do
  let reply ← request (.read fd 128)
  let bytes := bytes.receive reply.stored
  if reply.result.sle 0 then do
    if reply.result.slt 0 then print "cat: read failed\n"
    pure (.inr ⟨⟩)
  else do
    let text ← bytes.loadAll 0 reply.result.toNat
    writeBytes text
    pure (.inl bytes)

/-- `cat` -/
def cat (rounds : Nat) (name : List Byte) : UserCode PUnit :=
  if name.length > 90 ∨ name.length = 0 then print "cat: expected a short file name\n"
  else do
    let path ← catPath name
    let fd ← call (.open path)
    if fd.slt 0 then print "cat: file not found\n"
    else do
      iterate (catRound fd) rounds Buffer.fresh
      let _ ← call (closeCall fd)
      pure ⟨⟩

-----------------------------------------------------------------------------------------
-- The kernel's side
-----------------------------------------------------------------------------------------

/-- The descriptors of the task, and what it passed to `SYS_WRITE` so far. -/
structure FileState where
  slots : Slots
  writes : List (List Byte)

/-- How `syscall_dispatch` serves the calls on files. A range in the program's own memory is
accepted up to the length that `user_range` allows.
-/
def fileReply (files : List File) (state : FileState) : Request → Option (Reply × FileState)
  | .write bytes =>
      let result := if bytes.length ≤ copyLimit then BitVec.ofNat 64 bytes.length else -2
      some (⟨result, []⟩, { state with writes := state.writes ++ [bytes] })
  | .open name =>
      if name.length ≤ copyLimit then
        let (result, slots) := ramfsOpen files state.slots name
        some (⟨result, []⟩, { state with slots })
      else some (⟨-2, []⟩, state)
  | .read fd length =>
      if length.toNat ≤ copyLimit then
        (ramfsRead files state.slots fd length).map fun (result, bytes, slots) =>
          (⟨result, bytes⟩, { state with slots })
      else some (⟨-2, []⟩, state)
  | .plain number fd _ _ =>
      if Syscall.ofNumber number = some .close then
        let (result, slots) := ramfsClose state.slots fd
        some (⟨result, []⟩, { state with slots })
      else none
  | _ => none

/-- The kernel as a server of a table of files. -/
def fileServer (files : List File) : Interaction.Server Request Reply FileState :=
  fun request state reply state' => fileReply files state request = some (reply, state')

section Served

variable {files : List File} {α : Type} {state state' : FileState} {question : Request}
  {reply : Reply} {next : Reply → UserCode α} {post : α → FileState → Prop}

/-- A call that the kernel serves. -/
theorem ensures_served (served : fileReply files state question = some (reply, state'))
    : Ensures (fileServer files) (.ask question next) state post
      ↔ Ensures (fileServer files) (next reply) state' post := by
  have only {reply' : Reply} {state'' : FileState}
      (other : fileServer files question state reply' state'')
      : reply' = reply ∧ state'' = state' := by
    simpa [fileServer, served, eq_comm] using other
  constructor
  · exact fun ensures => ensures.2 reply state' served
  · intro later
    refine ⟨⟨reply, state', served⟩, fun reply' state'' other => ?_⟩
    obtain ⟨rfl, rfl⟩ := only other
    exact later

/-- `SYS_WRITE` -/
@[simp] theorem ensures_write {bytes : List Byte}
    : Ensures (fileServer files) (.ask (.write bytes) next) state post
      ↔ Ensures (fileServer files)
          (next ⟨if bytes.length ≤ copyLimit then BitVec.ofNat 64 bytes.length else -2, []⟩)
          { state with writes := state.writes ++ [bytes] } post :=
  ensures_served rfl

/-- `write_bytes` passes on the text in pieces of at most 256 bytes. Witness: induction on the
length of the text.
-/
theorem writeBytes_ensures (text : List Byte) (state : FileState)
    : Ensures (fileServer files) (writeBytes text) state fun _ state' =>
        ∃ pieces : List (List Byte),
          state' = { state with writes := state.writes ++ pieces }
          ∧ pieces.flatten = text
          ∧ ∀ piece ∈ pieces, piece.length ≤ copyLimit := by
  induction text using writeBytes.induct generalizing state with
  | case1 text empty =>
      unfold writeBytes
      have nothing : text = [] := by simpa using empty
      simp only [empty, if_pos, pure_eq, ensures_done]
      exact ⟨[], by simp [nothing]⟩
  | case2 text some part ih =>
      unfold writeBytes
      simp only [some, if_false, call, request_bind, pure_eq, ask_bind, done_bind, ensures_write]
      refine (ih _).mono fun _ state' => ?_
      rintro ⟨pieces, rfl, whole, short⟩
      refine ⟨text.take part :: pieces, by simp [part], by simp [whole], ?_⟩
      intro piece member
      rcases List.mem_cons.mp member with rfl | member
      · simp [part]
      · exact short piece member

/-- A message is one call. -/
theorem print_ensures {message : String} (some : message ≠ "") (short : message.length ≤ copyLimit)
    : Ensures (fileServer files) (print message) state fun _ state' =>
        state' = { state with writes := state.writes ++ [textBytes message] } := by
  simp [print_short some short]

end Served

-----------------------------------------------------------------------------------------
-- The path
-----------------------------------------------------------------------------------------

/-- The file that a word names. -/
def pathOf (word : List Byte) : List Byte := if word.head? = some 47 then word else 47 :: word

/-- The path is built inside the buffer, and only written bytes of it are used. -/
theorem catPath_eq {name : List Byte} (short : name.length ≤ 90)
    : catPath name = .done (pathOf name) := by
  have empty := Buffer.holds_nil (Buffer.fresh : Buffer 96)
  by_cases rooted : name.head? = some 47
  · obtain ⟨path, stored, holds⟩ := empty.storeAll name (by simp; omega)
    have loaded := holds.loadAll (show 0 + name.length ≤ ([] ++ name).length by simp)
    simp only [List.length_nil, List.nil_append] at stored loaded
    simp only [catPath, pathOf, rooted, if_true, if_false, Nat.zero_ne_one, Nat.zero_add, pure_eq,
      done_bind, stored, loaded]
    simp
  · obtain ⟨slash, first, holds⟩ := empty.store (by simp) 47
    obtain ⟨path, stored, whole⟩ := holds.storeAll name (by simp; omega)
    have loaded := whole.loadAll
      (show 0 + (1 + name.length) ≤ ([] ++ [47] ++ name).length by simp; omega)
    simp only [List.length_nil, Nat.zero_add, List.nil_append, List.length_cons,
      List.singleton_append] at first stored loaded
    simp only [catPath, pathOf, rooted, if_true, if_false, first, stored, loaded, done_bind]
    simp [Nat.add_comm 1]

-----------------------------------------------------------------------------------------
-- The loop
-----------------------------------------------------------------------------------------

section Loop

variable {files : List File} {slots : Slots} {descriptor : Descriptor} {index : Nat} {file : File}

/-- The number of a descriptor. -/
def numberOf (descriptor : Descriptor) : U64 := BitVec.ofNat 64 descriptor.val

theorem usedSlot_numberOf {slots : Slots} (used : (slots descriptor).used = true)
    : usedSlot slots (numberOf descriptor) = some descriptor := by
  have value : (numberOf descriptor).toNat = descriptor.val := by
    fin_cases descriptor <;> rfl
  unfold usedSlot
  simp [value, used, Nat.le_of_lt_succ descriptor.isLt]

/-- The loop of `cat` has passed on the bytes of the file before the offset of its descriptor. -/
structure Printed (slots : Slots) (descriptor : Descriptor) (index : Nat) (file : File)
    (state : FileState)
    : Prop where
  slots
    : ∃ offset : U64, state.slots = Function.update slots descriptor ⟨true, index, offset⟩
  inside : (state.slots descriptor).offset.toNat ≤ file.bytes.length
  written : state.writes.flatten = file.bytes.take (state.slots descriptor).offset.toNat
  short : ∀ piece ∈ state.writes, piece.length ≤ copyLimit

/-- One round either passes on the next bytes or finds that there are no more. -/
theorem catRound_ensures (known : files[index]? = some file) (size : file.bytes.length < 2 ^ 64)
    (bytes : Buffer 128) {state : FileState} (printed : Printed slots descriptor index file state)
    : Ensures (fileServer files) (catRound (numberOf descriptor) bytes) state fun outcome state' =>
        Printed slots descriptor index file state'
        ∧ match outcome with
          | .inl _ =>
              file.bytes.length - (state'.slots descriptor).offset.toNat
                < file.bytes.length - (state.slots descriptor).offset.toNat
          | .inr _ => state'.writes.flatten = file.bytes := by
  obtain ⟨⟨offset, here⟩, inside, written, short⟩ := printed
  have slot : state.slots descriptor = ⟨true, index, offset⟩ := by
    rw [here, Function.update_self]
  simp only [slot] at inside written
  obtain ⟨count, count_eq, read⟩ := @ramfsRead_inside files state.slots (numberOf descriptor) 128
    descriptor file (usedSlot_numberOf (by rw [slot])) (by rwa [slot]) (by rwa [slot]) size
  simp only [slot, here, Function.update_idem] at count_eq read
  let next := (file.bytes.drop offset.toNat).take count.toNat
  let after : FileState := ⟨Function.update slots descriptor ⟨true, index, offset + count⟩, state.writes⟩
  have served
      : fileReply files state (.read (numberOf descriptor) 128) = some (⟨count, next⟩, after) := by
    simp only [fileReply, here, read]
    rfl
  have request : (128 : U64).toNat = 128 := rfl
  rw [request] at count_eq
  have bound : count.toNat ≤ 128 := count_eq ▸ Nat.min_le_left _ _
  have length : next.length = count.toNat := by
    simp only [next, List.length_take, List.length_drop]
    omega
  have moved : (offset + count).toNat = offset.toNat + count.toNat := by
    rw [BitVec.toNat_add_of_lt]
    omega
  have value : count.toInt = count.toNat := BitVec.toInt_eq_toNat_of_lt (by omega)
  unfold catRound
  rw [request_bind, ensures_served served]
  rcases Nat.eq_zero_or_pos count.toNat with ends | positive
  · have last : count.sle 0 = true := by
      rw [BitVec.sle_iff_toInt_le, value, ends]
      rfl
    have fine : count.slt 0 = false := by
      rw [BitVec.slt_eq_decide, value, ends]
      rfl
    have all : offset.toNat = file.bytes.length := by omega
    simp only [last, fine, if_true, Bool.false_eq_true, if_false, pure_eq, ensures_done]
    have whole : state.writes.flatten = file.bytes := by rw [written, all, List.take_length]
    refine ⟨⟨⟨_, rfl⟩, ?_, ?_, short⟩, whole⟩
    · simp only [after, Function.update_self]
      omega
    · simp only [after, Function.update_self, moved, ends, Nat.add_zero]
      exact written
  · have more : count.sle 0 = false := by
      rw [BitVec.sle_eq_decide, value]
      simpa using Nat.ne_of_gt positive
    have loaded := (bytes.receive_holds (show next.length ≤ 128 by omega)).loadAll
      (show 0 + count.toNat ≤ next.length by omega)
    simp only [List.drop_zero, List.take_of_length_le (Nat.le_of_eq length)] at loaded
    simp only [more, Bool.false_eq_true, if_false, loaded, done_bind]
    refine (writeBytes_ensures next after).bind fun _ state' => ?_
    rintro ⟨pieces, rfl, parts, small⟩
    refine ⟨⟨⟨_, rfl⟩, ?_, ?_, ?_⟩, ?_⟩
    · simp only [after, Function.update_self]
      omega
    · simp only [after, Function.update_self, List.flatten_append, written, parts, moved]
      exact (List.take_add ..).symm
    · intro piece member
      rcases List.mem_append.mp member with old | new
      · exact short piece old
      · exact small piece new
    · simp only [after, Function.update_self, slot]
      omega

/-- The loop passes on the whole file, if it may take more rounds than the file has bytes. -/
theorem catLoop_ensures (known : files[index]? = some file) (size : file.bytes.length < 2 ^ 64)
    {rounds : Nat} (enough : file.bytes.length < rounds)
    : Ensures (fileServer files) (iterate (catRound (numberOf descriptor)) rounds Buffer.fresh)
        ⟨Function.update slots descriptor ⟨true, index, 0⟩, []⟩ fun _ state' =>
        Printed slots descriptor index file state' ∧ state'.writes.flatten = file.bytes := by
  refine @Ensures.iterate _ _ _ _ _ _ _ _ _
    (fun (_ : Buffer 128) state => Printed slots descriptor index file state)
    (fun _ state => file.bytes.length - (state.slots descriptor).offset.toNat) _ _ ?_ ?_ ?_
  · intro bytes state printed
    refine (catRound_ensures known size bytes printed).mono fun outcome state' => ?_
    rintro ⟨printed', outcomeHolds⟩
    cases outcome with
    | inl _ => exact ⟨printed', outcomeHolds⟩
    | inr _ => exact ⟨printed', outcomeHolds⟩
  · refine ⟨⟨0, rfl⟩, ?_, ?_, ?_⟩
    · simp
    · simp
    · simp
  · simpa using enough

end Loop

-----------------------------------------------------------------------------------------
-- The whole call
-----------------------------------------------------------------------------------------

section Cat

variable {files : List File} {slots : Slots} {word : List Byte} {rounds : Nat}

/-- The messages of `cat` on a file that cannot be opened. -/
def catErrors : List String := ["cat: expected a short file name\n", "cat: file not found\n"]

/-- A name that no file has, or no descriptor for it: the kernel refuses to open it. -/
theorem ramfsOpen_refused
    (refused : (∀ file ∈ files, file.name ≠ word) ∨ ∀ descriptor, (slots descriptor).used = true)
    : ∃ result, ramfsOpen files slots word = (result, slots) ∧ result.slt 0 = true := by
  unfold ramfsOpen
  cases found : files.findIdx? fun file => file.name = word with
  | none => exact ⟨-4, rfl, by decide⟩
  | some index =>
      obtain ⟨inside, same, _⟩ := List.findIdx?_eq_some_iff_getElem.mp found
      rcases refused with missing | full
      · exact absurd (of_decide_eq_true same) (missing _ (List.getElem_mem inside))
      · have taken : freeSlot slots = none := by
          refine List.find?_eq_none.mpr fun descriptor _ => ?_
          simp [full descriptor]
        simp only [taken]
        exact ⟨-5, rfl, by decide⟩

/-- A file that the kernel opens on the first free descriptor. -/
theorem ramfsOpen_opens (distinct : (files.map File.name).Nodup) {file : File}
    (member : file ∈ files) {descriptor : Descriptor} (free : (slots descriptor).used = false)
    : ∃ descriptor index,
        (slots descriptor).used = false
        ∧ files[index]? = some file
        ∧ ramfsOpen files slots file.name
          = (numberOf descriptor, Function.update slots descriptor ⟨true, index, 0⟩) := by
  have known : ∃ index, files.findIdx? (fun other => other.name = file.name) = some index := by
    refine Option.isSome_iff_exists.mp ?_
    rw [List.findIdx?_isSome]
    exact List.any_eq_true.mpr ⟨file, member, by simp⟩
  obtain ⟨index, found⟩ := known
  obtain ⟨inside, same, _⟩ := List.findIdx?_eq_some_iff_getElem.mp found
  have this : files[index] = file :=
    List.inj_on_of_nodup_map distinct (List.getElem_mem inside) member (of_decide_eq_true same)
  cases first : freeSlot slots with
  | none =>
      have taken := List.find?_eq_none.mp first descriptor (List.mem_finRange descriptor)
      simp [free] at taken
  | some lowest =>
      have unused : (slots lowest).used = false := by
        simpa using List.find?_some first
      refine ⟨lowest, index, unused, ?_, ?_⟩
      · rw [List.getElem?_eq_getElem inside, this]
      · simp only [ramfsOpen, found, first]
        rfl

/-- A file that can be opened is passed on and its descriptor closed again. -/
theorem cat_opened (distinct : (files.map File.name).Nodup) {file : File} (member : file ∈ files)
    (short : file.name.length ≤ 90) (size : file.bytes.length < 2 ^ 64) (some : word ≠ [])
    (named : file.name = pathOf word) {descriptor : Descriptor}
    (free : (slots descriptor).used = false) (enough : file.bytes.length < rounds)
    : Ensures (fileServer files) (cat rounds word) ⟨slots, []⟩ fun _ state =>
        state.writes.flatten = file.bytes
        ∧ (∀ piece ∈ state.writes, piece.length ≤ copyLimit)
        ∧ ∀ descriptor,
            (state.slots descriptor).used = (slots descriptor).used
            ∧ ((slots descriptor).used = true → state.slots descriptor = slots descriptor) := by
  have length : word.length ≤ 90 := by
    rw [named] at short
    unfold pathOf at short
    split_ifs at short
    · exact short
    · simp only [List.length_cons] at short
      omega
  have accepted : ¬(word.length > 90 ∨ word.length = 0) := by
    have some' : word.length ≠ 0 := by simpa using some
    omega
  obtain ⟨opened, index, unused, known, open'⟩ := ramfsOpen_opens distinct member free
  have positive : (numberOf opened).slt 0 = false := by
    fin_cases opened <;> rfl
  have fits : (pathOf word).length ≤ copyLimit := by
    rw [← named]
    exact short.trans (by decide)
  rw [named] at open'
  have served : fileReply files ⟨slots, []⟩ (.open (pathOf word))
      = Option.some (⟨numberOf opened, []⟩, ⟨Function.update slots opened ⟨true, index, 0⟩, []⟩) := by
    simp only [fileReply, fits, if_true, open']
  unfold cat
  simp only [accepted, if_false, catPath_eq length, done_bind, call, request_bind, pure_eq, ask_bind,
    ensures_served served, positive, Bool.false_eq_true]
  refine (catLoop_ensures known size enough).bind fun _ state => ?_
  rintro ⟨⟨⟨offset, here⟩, _, _, small⟩, whole⟩
  have used : usedSlot state.slots (numberOf opened) = Option.some opened :=
    usedSlot_numberOf (by rw [here, Function.update_self])
  have closes : ramfsClose state.slots (numberOf opened)
      = (0, Function.update slots opened ⟨false, index, offset⟩) := by
    unfold ramfsClose
    rw [used]
    simp [here]
  have number : Syscall.ofNumber 7 = Option.some .close := rfl
  have closed : fileReply files state (closeCall (numberOf opened))
      = Option.some (⟨0, []⟩, ⟨Function.update slots opened ⟨false, index, offset⟩, state.writes⟩) := by
    simp only [fileReply, closeCall, number, if_true, closes]
  rw [ensures_served closed, ensures_done]
  refine ⟨whole, small, fun other => ?_⟩
  rcases eq_or_ne other opened with rfl | different
  · simp [unused]
  · simp [Function.update_of_ne different]

/-- A file that cannot be opened: one message, and the descriptors stay as they are. -/
theorem cat_refused
    (refused
      : (∀ file ∈ files, file.name ≠ pathOf word) ∨ ∀ descriptor, (slots descriptor).used = true)
    : Ensures (fileServer files) (cat rounds word) ⟨slots, []⟩ fun _ state =>
        state.slots = slots ∧ ∃ message ∈ catErrors, state.writes = [textBytes message] := by
  unfold cat
  split_ifs with rejected
  · refine (print_ensures (by decide) (by decide)).mono fun _ state => ?_
    rintro rfl
    exact ⟨rfl, _, List.mem_cons_self, rfl⟩
  · obtain ⟨result, open', negative⟩ := ramfsOpen_refused refused
    have fits : (pathOf word).length ≤ copyLimit := by
      unfold pathOf copyLimit
      split_ifs
      · omega
      · simp only [List.length_cons]
        omega
    have served : fileReply files ⟨slots, []⟩ (.open (pathOf word))
        = some (⟨result, []⟩, ⟨slots, []⟩) := by
      simp only [fileReply, fits, if_true, open']
    simp only [catPath_eq (show word.length ≤ 90 by omega), done_bind, call, request_bind, pure_eq,
      ask_bind, ensures_served served, negative, if_true]
    refine (print_ensures (by decide) (by decide)).mono fun _ state => ?_
    rintro rfl
    exact ⟨rfl, _, List.mem_cons_of_mem _ List.mem_cons_self, rfl⟩

/-- `cat` terminates for every table of files and every word. If the word names a file and a
descriptor is free, exactly the bytes of the file are passed to `SYS_WRITE`, at most 256 at a
time, and the descriptor is closed again. Otherwise one message is written and no descriptor
changes. The path stays inside its buffer and only written bytes of it are used.
-/
theorem cat_prints_the_file (distinct : (files.map File.name).Nodup)
    (short : ∀ file ∈ files, file.name.length ≤ 90)
    (sizes : ∀ file ∈ files, file.bytes.length < 2 ^ 64) (slots : Slots) (some : word ≠ [])
    : ∃ enough, ∀ rounds, enough ≤ rounds →
        Ensures (fileServer files) (cat rounds word) ⟨slots, []⟩ fun _ state =>
          (∀ file ∈ files,
            file.name = pathOf word
            → (∃ descriptor, (slots descriptor).used = false)
            → state.writes.flatten = file.bytes
              ∧ (∀ piece ∈ state.writes, piece.length ≤ 256)
              ∧ ∀ descriptor,
                  (state.slots descriptor).used = (slots descriptor).used
                  ∧ ((slots descriptor).used = true
                    → state.slots descriptor = slots descriptor))
          ∧ ((∀ file ∈ files, file.name ≠ pathOf word)
              ∨ (∀ descriptor, (slots descriptor).used = true)
            → state.slots = slots
              ∧ ∃ message ∈ catErrors, state.writes = [textBytes message]) := by
  by_cases openable
      : (∃ file ∈ files, file.name = pathOf word) ∧ ∃ descriptor, (slots descriptor).used = false
  · obtain ⟨⟨file, member, named⟩, descriptor, free⟩ := openable
    refine ⟨file.bytes.length + 1, fun rounds enough => ?_⟩
    refine (cat_opened distinct member (short file member) (sizes file member) some named free
      enough).mono fun _ state holds => ⟨?_, ?_⟩
    · intro other member' named' _
      rw [List.inj_on_of_nodup_map distinct member' member (named'.trans named.symm)]
      exact holds
    · rintro (missing | full)
      · exact absurd named (missing file member)
      · exact absurd (full descriptor) (by simp [free])
  · have refused : (∀ file ∈ files, file.name ≠ pathOf word)
        ∨ ∀ descriptor, (slots descriptor).used = true := by
      rcases not_and_or.mp openable with missing | full
      · exact Or.inl fun file member same => missing ⟨file, member, same⟩
      · exact Or.inr fun descriptor => by simpa using not_exists.mp full descriptor
    refine ⟨0, fun rounds _ => (cat_refused refused).mono fun _ state holds => ⟨?_, ?_⟩⟩
    · intro file member named free
      exact absurd ⟨⟨file, member, named⟩, free⟩ openable
    · exact fun _ => holds

/-- The kernel's own table, with a name that lacks its slash. -/
theorem cat_prints_hello
    : ∃ enough, ∀ rounds, enough ≤ rounds →
        Ensures (fileServer MiniLinux.files) (cat rounds (textBytes "hello.txt")) ⟨Slots.zero, []⟩
          fun _ state => state.writes.flatten = textBytes "hello from ramfs\n" := by
  obtain ⟨enough, ensures⟩ := @cat_prints_the_file MiniLinux.files (textBytes "hello.txt")
    (by decide) (by decide) (by decide) Slots.zero (by decide)
  refine ⟨enough, fun rounds more => (ensures rounds more).mono fun _ state holds => ?_⟩
  exact (holds.1 _ List.mem_cons_self rfl ⟨0, rfl⟩).1

end Cat

end MiniLinux.User
