import MiniLinux.Laboratory.Calls
import MiniLinux.Observer.TraceText

/-! What the self-tests of the first levels share: a check that panics, and the report that they
print between the checks. A report changes nothing but COM1.
-/

namespace MiniLinux

open Foundation Foundation.Halting

/-- `require` -/
def require (condition : Prop) [Decidable condition] (message : String) : LabM Unit :=
  if condition then pure () else halt (.panic message)

/-- `serial_write_hex` -/
def serialWriteHex (value : U64) : LabM Unit := serialWriteBytes (traceHex value)

/-- `page_get_info(&info)` -/
def pageGetInfo : LabM PageInfo := do
  let lab ← get
  pure lab.machine.pageInfo

/-- `free_count` -/
def freeCount : LabM U64 := do
  let info ← pageGetInfo
  pure info.freeCount

-----------------------------------------------------------------------------------------
-- Reports
-----------------------------------------------------------------------------------------

/-- A program that only sends bytes to COM1. -/
def Prints (program : LabM Unit) : Prop :=
  ∀ lab, ∃ bytes, program lab = .ok ((), lab.printed bytes)

namespace Prints

theorem serialWrite (message : String) : Prints (serialWrite message) :=
  fun _ => ⟨textBytes message, rfl⟩

theorem serialWriteNumber (value : U64) : Prints (serialWriteNumber value) :=
  fun _ => ⟨textBytes (toString value.toNat), rfl⟩

theorem serialWriteHex (value : U64) : Prints (serialWriteHex value) :=
  fun _ => ⟨traceHex value, rfl⟩

theorem pure : Prints (pure ()) := by
  intro lab
  refine ⟨[], ?_⟩
  rw [Lab.printed, serialBytes, List.flatMap_nil, List.append_nil]
  rfl

theorem bind {first next : LabM Unit} (prints : Prints first) (later : Prints next)
    : Prints (first >>= fun _ => next) := by
  intro lab
  obtain ⟨bytes, here⟩ := prints lab
  obtain ⟨bytes', there⟩ := later (lab.printed bytes)
  refine ⟨bytes ++ bytes', (bind_ok here _).trans (there.trans ?_)⟩
  simp only [Lab.printed, serialBytes, List.flatMap_append, List.append_assoc]

end Prints

-----------------------------------------------------------------------------------------
-- Checks and reports in a program
-----------------------------------------------------------------------------------------

section Steps

variable {α β : Type} {lab : Lab}

theorem bind_require_ok {condition : Prop} [Decidable condition] (holds : condition)
    (message : String) (next : LabM α)
    : (require condition message >>= fun _ => next) lab = next lab := by
  rw [require, if_pos holds]
  rfl

theorem bind_require_error {condition : Prop} [Decidable condition] (fails : ¬condition)
    (message : String) (next : LabM α)
    : (require condition message >>= fun _ => next) lab = .error (.panic message) := by
  rw [require, if_neg fails]
  rfl

/-- What a part of a test establishes, whatever COM1 has received. -/
def Passes (program : LabM α) (post : α → Machine → Prop) (machine : Machine) : Prop :=
  ∀ lab : Lab, lab.machine = machine →
    ∃ value lab', program lab = .ok (value, lab') ∧ post value lab'.machine

namespace Passes

variable {machine machine' : Machine}

theorem pure {value : α} {post : α → Machine → Prop} (holds : post value machine)
    : Passes (pure value) post machine :=
  fun lab same => ⟨value, lab, rfl, same ▸ holds⟩

theorem bind {first : LabM α} {next : α → LabM β} {middle : α → Machine → Prop}
    {post : β → Machine → Prop} (passes : Passes first middle machine)
    (later : ∀ value machine', middle value machine' → Passes (next value) post machine')
    : Passes (first >>= next) post machine := by
  intro lab same
  obtain ⟨value, lab', here, holds⟩ := passes lab same
  obtain ⟨value', lab'', there, holds'⟩ := later value lab'.machine holds lab' rfl
  exact ⟨value', lab'', (bind_ok here next).trans there, holds'⟩

/-- A part whose value and machine are known. -/
theorem next {first : LabM α} {next : α → LabM β} {value : α} {post : β → Machine → Prop}
    (passes : Passes first (fun value' after => value' = value ∧ after = machine') machine)
    (later : Passes (next value) post machine')
    : Passes (first >>= next) post machine := by
  refine passes.bind ?_
  intro value' after known
  rw [known.1, known.2]
  exact later

theorem prints {program : LabM Unit} {next : LabM β} {post : β → Machine → Prop}
    (report : Prints program) (later : Passes next post machine)
    : Passes (program >>= fun _ => next) post machine := by
  intro lab same
  obtain ⟨bytes, here⟩ := report lab
  obtain ⟨value, lab', there, holds⟩ := later (lab.printed bytes) same
  exact ⟨value, lab', (bind_ok here _).trans there, holds⟩

theorem require {condition : Prop} [Decidable condition] (holds : condition) {message : String}
    {next : LabM β} {post : β → Machine → Prop} (later : Passes next post machine)
    : Passes (require condition message >>= fun _ => next) post machine := by
  intro lab same
  obtain ⟨value, lab', there, holds'⟩ := later lab same
  exact ⟨value, lab', (bind_require_ok holds message next).trans there, holds'⟩

theorem required {condition : Prop} [Decidable condition] (holds : condition) {message : String}
    : Passes (MiniLinux.require condition message) (fun _ after => after = machine) machine := by
  intro lab same
  refine ⟨(), lab, ?_, same⟩
  rw [MiniLinux.require, if_pos holds]
  rfl

theorem onMachine {program : MachineM α} {value : α}
    (returns : program machine = .ok (value, machine')) {next : α → LabM β}
    {post : β → Machine → Prop} (later : Passes (next value) post machine')
    : Passes (onMachine program >>= next) post machine := by
  intro lab same
  subst same
  obtain ⟨value', lab', there, holds⟩ := later { lab with machine := machine' } rfl
  exact ⟨value', lab', (bind_ok (onMachine_ok returns) next).trans there, holds⟩

theorem pageGetInfo {next : PageInfo → LabM β} {post : β → Machine → Prop}
    (later : Passes (next machine.pageInfo) post machine)
    : Passes (pageGetInfo >>= next) post machine := by
  intro lab same
  subst same
  obtain ⟨value, lab', there, holds⟩ := later lab rfl
  exact ⟨value, lab', there, holds⟩

theorem freeCount {next : U64 → LabM β} {post : β → Machine → Prop}
    (later : Passes (next machine.pages.freeCount) post machine)
    : Passes (freeCount >>= next) post machine := by
  intro lab same
  subst same
  obtain ⟨value, lab', there, holds⟩ := later lab rfl
  exact ⟨value, lab', there, holds⟩

theorem mono {program : LabM α} {post post' : α → Machine → Prop}
    (passes : Passes program post machine)
    (weaker : ∀ value machine', post value machine' → post' value machine')
    : Passes program post' machine := by
  intro lab same
  obtain ⟨value, lab', here, holds⟩ := passes lab same
  exact ⟨value, lab', here, weaker _ _ holds⟩

end Passes

/-- The panic that a part of a test ends in. -/
def Fails (program : LabM α) (message : String) (machine : Machine) : Prop :=
  ∀ lab : Lab, lab.machine = machine → program lab = .error (.panic message)

/-- A part that passes if a condition holds, and otherwise panics with a message. -/
structure Decides (program : LabM α) (condition : Prop) (post : α → Machine → Prop)
    (message : String) (machine : Machine)
    : Prop where
  passes : condition → Passes program post machine
  fails : ¬condition → Fails program message machine

section Verdicts

variable {machine : Machine} {condition : Prop} {message : String} {post : β → Machine → Prop}

theorem Fails.require {condition : Prop} [Decidable condition] (fails : ¬condition)
    {next : LabM α}
    : Fails (require condition message >>= fun _ => next) message machine :=
  fun _ _ => bind_require_error fails message next

theorem Fails.bind {first : LabM α} (fails : Fails first message machine) {next : α → LabM β}
    : Fails (first >>= next) message machine :=
  fun lab same => bind_error (fails lab same) next

theorem Passes.fails {first : LabM α} {next : α → LabM β} {middle : α → Machine → Prop}
    (passes : Passes first middle machine)
    (later : ∀ value machine', middle value machine' → Fails (next value) message machine')
    : Fails (first >>= next) message machine := by
  intro lab same
  obtain ⟨value, lab', here, holds⟩ := passes lab same
  exact (bind_ok here next).trans (later value lab'.machine holds lab' rfl)

/-- A part whose value and machine are known comes before the panic. -/
theorem Fails.after {first : LabM α} {next : α → LabM β} {value : α} {machine' : Machine}
    (passes : Passes first (fun value' after => value' = value ∧ after = machine') machine)
    (later : Fails (next value) message machine')
    : Fails (first >>= next) message machine := by
  refine passes.fails ?_
  intro value' after known
  rw [known.1, known.2]
  exact later

theorem Fails.afterRequire {condition : Prop} [Decidable condition] (holds : condition)
    {early : String} {next : LabM α} (later : Fails next message machine)
    : Fails (MiniLinux.require condition early >>= fun _ => next) message machine := by
  refine (Passes.required holds).fails ?_
  intro _ after same
  rw [same]
  exact later

/-- What comes before the decision passes. -/
theorem Passes.decides {first : LabM α} {next : α → LabM β} {middle : α → Machine → Prop}
    (passes : Passes first middle machine)
    (later
      : ∀ value machine', middle value machine'
        → Decides (next value) condition post message machine')
    : Decides (first >>= next) condition post message machine :=
  ⟨fun holds => passes.bind fun value machine' here => (later value machine' here).passes holds,
    fun fails => passes.fails fun value machine' here => (later value machine' here).fails fails⟩

/-- What comes after the decision passes. -/
theorem Decides.bind {first : LabM α} {next : α → LabM β} {middle : α → Machine → Prop}
    (decides : Decides first condition middle message machine)
    (later
      : condition → ∀ value machine', middle value machine' → Passes (next value) post machine')
    : Decides (first >>= next) condition post message machine :=
  ⟨fun holds => (decides.passes holds).bind (later holds), fun fails => (decides.fails fails).bind⟩

end Verdicts

/-- A report leaves the machine alone. -/
theorem Prints.passes {program : LabM Unit} (report : Prints program) {machine : Machine}
    : Passes program (fun _ after => after = machine) machine := by
  intro lab same
  obtain ⟨bytes, here⟩ := report lab
  exact ⟨(), lab.printed bytes, here, same⟩

end Steps

end MiniLinux
