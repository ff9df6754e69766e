import MiniLinux.Memory.Machine

/-! The interrupt frame of `include/cpu.h` and the stack traffic of `kernel/entry.S`.
A kernel stack is a run of words; stack pointers count words from its base. The C code
reads a frame by the order of the structure, the assembly writes it by the order of its
pushes; both give the interrupted context.
-/

namespace MiniLinux

/-- The general registers, in the order of `struct interrupt_frame`. -/
inductive Register where
  | r15 | r14 | r13 | r12 | r11 | r10 | r9 | r8
  | rdi | rsi | rbp | rdx | rcx | rbx | rax
  deriving DecidableEq, Repr

/-- The fields of `struct interrupt_frame`. -/
inductive FrameField where
  | general (register : Register)
  | vector | error | rip | cs | rflags | rsp | ss
  deriving DecidableEq, Repr

def Register.offset : Register → Nat
  | .r15 => 0
  | .r14 => 1
  | .r13 => 2
  | .r12 => 3
  | .r11 => 4
  | .r10 => 5
  | .r9 => 6
  | .r8 => 7
  | .rdi => 8
  | .rsi => 9
  | .rbp => 10
  | .rdx => 11
  | .rcx => 12
  | .rbx => 13
  | .rax => 14

/-- The word of a field in the structure. -/
def FrameField.offset : FrameField → Nat
  | .general register => register.offset
  | .vector => 15
  | .error => 16
  | .rip => 17
  | .cs => 18
  | .rflags => 19
  | .rsp => 20
  | .ss => 21

/-- `sizeof(struct interrupt_frame)` in words -/
def frameWords : Nat := 22

/-- `sizeof(task->stack)` in words -/
def stackWords : Nat := 1024

/-- The words of a kernel stack. -/
abbrev Stack := Nat → U64

/-- What a task owns of the processor. -/
structure Context where
  general : Register → U64
  rip : U64
  cs : U64
  rflags : U64
  rsp : U64
  ss : U64

/-- The frame at a word of a stack, as the C code reads it. -/
def frameContext (stack : Stack) (word : Nat) : Context where
  general register := stack (word + register.offset)
  rip := stack (word + FrameField.rip.offset)
  cs := stack (word + FrameField.cs.offset)
  rflags := stack (word + FrameField.rflags.offset)
  rsp := stack (word + FrameField.rsp.offset)
  ss := stack (word + FrameField.ss.offset)

/-- `pushq` of each value in turn -/
def pushWords (stack : Stack) (rsp : Nat) : List U64 → Stack
  | [] => stack
  | value :: rest => pushWords (Function.update stack (rsp - 1) value) (rsp - 1) rest

/-- The exceptions for which the processor itself pushes an error code. -/
def errorCodeVectors : List Nat := [8, 10, 11, 12, 13, 14, 17, 21, 29, 30]

/-- The stubs with `error` set in `entry.S`, which push no word of their own for it. -/
def errorStubs : List Nat := [8, 10, 11, 12, 13, 14, 17, 21, 29, 30]

/-- The number of the stub behind a gate; `cpu_init` points the other gates at the last. -/
def stubNumber (vector : Fin 256) : Nat :=
  if vector.val ≤ 32 ∨ vector.val = 128 then vector.val else 255

/-- The pushes of `interrupt_common` -/
def pushOrder : List Register :=
  [.rax, .rbx, .rcx, .rdx, .rbp, .rsi, .rdi, .r8, .r9, .r10, .r11, .r12, .r13, .r14, .r15]

/-- The pops of `restore_frame` -/
def popOrder : List Register :=
  [.r15, .r14, .r13, .r12, .r11, .r10, .r9, .r8, .rdi, .rsi, .rbp, .rdx, .rcx, .rbx, .rax]

/-- All words pushed from the interrupt to the call of `interrupt_dispatch`. -/
def entryPushes (context : Context) (vector : Fin 256) (error : U64) : List U64 :=
  [context.ss, context.rsp, context.rflags, context.cs, context.rip]
  ++ (if vector.val ∈ errorCodeVectors then [error] else [])
  ++ (if stubNumber vector ∈ errorStubs then [] else [0])
  ++ [BitVec.ofNat 64 (stubNumber vector)]
  ++ pushOrder.map context.general

/-- `popq` into each register in turn -/
def popRegisters (stack : Stack) (word : Nat) (general : Register → U64)
    : List Register → Register → U64
  | [] => general
  | register :: rest =>
      popRegisters stack (word + 1) (Function.update general register (stack word)) rest

/-- `restore_frame`, with `iretq`, from the registers that the C code leaves -/
def restoreFrame (stack : Stack) (word : Nat) (general : Register → U64) : Context :=
  let general := popRegisters stack word general popOrder
  let word := word + popOrder.length + 2
  {
    general,
    rip := stack word,
    cs := stack (word + 1),
    rflags := stack (word + 2),
    rsp := stack (word + 3),
    ss := stack (word + 4)
  }

/-- Pushed words are found below the old stack pointer, the last one lowest; the other words
stay. Witness: induction on the values.
-/
theorem pushWords_apply (stack : Stack) (rsp : Nat) (values : List U64)
    (room : values.length ≤ rsp) (word : Nat)
    : pushWords stack rsp values word
      = if rsp - values.length ≤ word ∧ word < rsp then values.getD (rsp - 1 - word) 0
        else stack word := by
  induction values generalizing stack rsp with
  | nil =>
      rw [if_neg, pushWords]
      simp only [List.length_nil]
      omega
  | cons value rest ih =>
      simp only [List.length_cons] at room
      rw [pushWords, ih _ _ (by omega), List.length_cons]
      by_cases top : word = rsp - 1
      · subst top
        have first : rsp - 1 - (rsp - 1) = 0 := Nat.sub_self _
        rw [if_neg (by omega), if_pos (by omega), Function.update_self, first, List.getD_cons_zero]
      · by_cases inside : rsp - 1 - rest.length ≤ word ∧ word < rsp - 1
        · have next : rsp - 1 - word = rsp - 1 - 1 - word + 1 := by omega
          rw [if_pos inside, if_pos (by omega), next, List.getD_cons_succ]
        · rw [if_neg inside, if_neg (by omega), Function.update_of_ne top]

/-- A stub omits its word exactly where the processor pushes one. -/
theorem stub_agrees (vector : Fin 256)
    : stubNumber vector ∈ errorStubs ↔ vector.val ∈ errorCodeVectors := by
  unfold stubNumber
  split
  · rfl
  · next other =>
      refine iff_of_false (by decide) ?_
      intro member
      simp only [errorCodeVectors, List.mem_cons, List.not_mem_nil, or_false] at member
      omega

/-- Every entry pushes a whole frame. -/
theorem entryPushes_length (context : Context) (vector : Fin 256) (error : U64)
    : (entryPushes context vector error).length = frameWords := by
  have same := stub_agrees vector
  unfold entryPushes
  by_cases code : vector.val ∈ errorCodeVectors
  · rw [if_pos code, if_pos (same.mpr code)]
    rfl
  · rw [if_neg code, if_neg (mt same.mp code)]
    rfl

/-- The words that the entry leaves in the frame. -/
def entryFrame (context : Context) (vector : Fin 256) (error : U64) : FrameField → U64
  | .general register => context.general register
  | .vector => BitVec.ofNat 64 (stubNumber vector)
  | .error => if vector.val ∈ errorCodeVectors then error else 0
  | .rip => context.rip
  | .cs => context.cs
  | .rflags => context.rflags
  | .rsp => context.rsp
  | .ss => context.ss

theorem FrameField.offset_lt (field : FrameField) : field.offset < frameWords := by
  cases field with
  | general register => cases register <;> decide
  | _ => decide

theorem FrameField.offset_injective : Function.Injective FrameField.offset := by
  have registers (first second : Register) (same : first.offset = second.offset)
      : first = second := by
    cases first <;> cases second <;> first | rfl | exact absurd same (by decide)
  have below (register : Register) : register.offset < 15 := by
    cases register <;> decide
  intro first second same
  cases first with
  | general register =>
      have low := below register
      cases second with
      | general other => rw [registers register other same]
      | _ => simp only [FrameField.offset] at same; omega
  | _ =>
      cases second with
      | general register =>
          have low := below register
          simp only [FrameField.offset] at same
          omega
      | _ => first | rfl | exact absurd same (by decide)

/-- A store to a saved register changes that register of the context only. -/
theorem frameContext_update (stack : Stack) (word : Nat) (register : Register) (value : U64)
    : frameContext (Function.update stack (word + (FrameField.general register).offset) value) word
      = { frameContext stack word with
          general := Function.update (frameContext stack word).general register value } := by
  have apart {field : FrameField} (different : field ≠ .general register)
      : Function.update stack (word + (FrameField.general register).offset) value
          (word + field.offset)
        = stack (word + field.offset) := by
    apply Function.update_of_ne
    intro same
    exact different (FrameField.offset_injective (Nat.add_left_cancel same))
  have general : (fun other : Register =>
        Function.update stack (word + (FrameField.general register).offset) value
          (word + other.offset))
      = Function.update (fun other : Register => stack (word + other.offset)) register value := by
    funext other
    by_cases same : other = register
    · subst other
      rw [Function.update_self]
      exact Function.update_self ..
    · rw [Function.update_of_ne same]
      exact @apart (.general other) fun equal => same (FrameField.general.inj equal)
  unfold frameContext
  rw [general, apart (by simp), apart (by simp), apart (by simp), apart (by simp),
    apart (by simp)]

/-- The assembly's frame, read by the order of the structure. -/
theorem entryPushes_field (context : Context) (vector : Fin 256) (error : U64) (field : FrameField)
    : (entryPushes context vector error).getD (frameWords - 1 - field.offset) 0
      = entryFrame context vector error field := by
  have same := stub_agrees vector
  unfold entryPushes
  by_cases code : vector.val ∈ errorCodeVectors
  · rw [if_pos code, if_pos (same.mpr code)]
    cases field with
    | general register => cases register <;> rfl
    | error => simp only [entryFrame, if_pos code]; rfl
    | _ => rfl
  · rw [if_neg code, if_neg (mt same.mp code)]
    cases field with
    | general register => cases register <;> rfl
    | error => simp only [entryFrame, if_neg code]; rfl
    | _ => rfl

/-- An entry saves the interrupted context in the topmost frame and touches nothing else. -/
theorem entry_saves (stack : Stack) (context : Context) (vector : Fin 256) (error : U64)
    (field : FrameField)
    : pushWords stack stackWords (entryPushes context vector error)
        (stackWords - frameWords + field.offset)
      = entryFrame context vector error field := by
  have inside := field.offset_lt
  have length := entryPushes_length context vector error
  rw [pushWords_apply _ _ _ (by rw [length]; decide), length, if_pos,
    ← entryPushes_field context vector error field]
  · congr 1
    simp only [stackWords, frameWords] at inside ⊢
    omega
  · simp only [stackWords, frameWords] at inside ⊢
    omega

/-- The pops restore exactly what the C code sees in the frame. -/
theorem restoreFrame_eq (stack : Stack) (word : Nat) (general : Register → U64)
    : restoreFrame stack word general = frameContext stack word := by
  have registers : popRegisters stack word general popOrder
      = fun register => stack (word + register.offset) := by
    funext register
    cases register <;> simp [popRegisters, popOrder, Register.offset, Nat.add_assoc]
  rw [restoreFrame, registers]
  rfl

end MiniLinux
