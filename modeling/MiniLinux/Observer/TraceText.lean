import MiniLinux.Foundation.Lines
import MiniLinux.Laboratory.State
import MiniLinux.Observer.Guest

/-! The trace channel: how `kernel/main.c` and `kernel/laboratory.c` write a record to COM2,
and the lines and fields that the host makes of it.
-/

namespace MiniLinux

open Foundation

-----------------------------------------------------------------------------------------
-- Writing
-----------------------------------------------------------------------------------------

/-- The loop of `trace_number`, which fills its buffer from the end; it has room for twenty
digits.
-/
def traceDigits : Nat → U64 → List Byte → List Byte
  | 0, _, digits => digits
  | room + 1, value, digits =>
      let digits := BitVec.ofNat 8 (48 + (value % 10).toNat) :: digits
      if value / 10 ≠ 0 then traceDigits room (value / 10) digits else digits

/-- `trace_number` -/
def traceNumber (value : U64) : List Byte := traceDigits 20 value []

/-- `digits[(value >> (4 * i)) & 15]` -/
def traceHexDigit (value : U64) (i : Nat) : Byte :=
  (textBytes "0123456789abcdef").getD ((value >>> (4 * i)) &&& 15).toNat 0

/-- `trace_hex` -/
def traceHex (value : U64) : List Byte :=
  textBytes "0x" ++ (List.range 16).reverse.map (traceHexDigit value)

/-- A field after its tab. -/
def TraceField.bytes : TraceField → List Byte
  | .number value => traceNumber value
  | .hex value => traceHex value
  | .negative value => textBytes "-" ++ traceNumber value
  | .text value => textBytes value

/-- `event(kind)`, the fields and `end_event()` -/
def TraceRecord.bytes (record : TraceRecord) : List Byte :=
  textBytes "ML\t" ++ textBytes record.kind ++ textBytes "\t" ++ traceNumber record.tick
  ++ (record.fields.flatMap fun field => textBytes "\t" ++ field.bytes) ++ textBytes "\n"

/-- What COM2 carries for some records. -/
def traceStream (records : List TraceRecord) : List Byte := records.flatMap TraceRecord.bytes

-----------------------------------------------------------------------------------------
-- Reading
-----------------------------------------------------------------------------------------

/-- `self._event(line)` for each line in turn -/
def guestEvents : List Text → GuestM Unit
  | [] => pure ()
  | line :: rest => do
      guestEvent line
      guestEvents rest

/-- `_read` of the trace on one chunk: every line is taken off the pending text and handled;
the text that is pending before and after
-/
def readTrace (pending : Text) (chunk : List Byte) : GuestM Text := do
  let split := splitLines '\n' (pending ++ decodeAscii chunk)
  guestEvents split.1
  if split.2.length > 4096 then throw (.runtimeError "Unterminated observation record")
  else pure split.2

/-- `_read` of the trace on several chunks -/
def readTraceChunks (pending : Text) : List (List Byte) → GuestM Text
  | [] => pure pending
  | chunk :: rest => do
      let pending ← readTrace pending chunk
      readTraceChunks pending rest

-----------------------------------------------------------------------------------------
-- Numbers as text
-----------------------------------------------------------------------------------------

/-- The text of a field. -/
def TraceField.written : TraceField → Text
  | .number value => Nat.toDigits 10 value.toNat
  | .hex value =>
      "0x".toList ++ (List.range 16).reverse.map fun i =>
        Nat.digitChar ((value.toNat >>> (4 * i)) % 16)
  | .negative value => '-' :: Nat.toDigits 10 value.toNat
  | .text value => value.toList

/-- The line of a record without its end, in tab-separated parts. -/
def TraceRecord.parts (record : TraceRecord) : List Text :=
  "ML".toList :: record.kind.toList :: Nat.toDigits 10 record.tick.toNat
    :: record.fields.map TraceField.written

/-- The line of a record without its end. -/
def TraceRecord.line (record : TraceRecord) : Text := ['\t'].intercalate record.parts

/-- A character of one byte that separates nothing. -/
structure PlainCharacter (character : Char) : Prop where
  ascii : character.toNat < 128
  apart : character ≠ '\t' ∧ character ≠ '\n' ∧ character ≠ '\r'

instance (character : Char) : Decidable (PlainCharacter character) :=
  decidable_of_iff
    (character.toNat < 128 ∧ character ≠ '\t' ∧ character ≠ '\n' ∧ character ≠ '\r')
    ⟨fun both => ⟨both.1, both.2⟩, fun plain => ⟨plain.ascii, plain.apart⟩⟩

/-- A text of plain characters. -/
def PlainText (text : Text) : Prop := ∀ character ∈ text, PlainCharacter character

instance (text : Text) : Decidable (PlainText text) := List.decidableBAll _ text

/-- The texts of a record are of plain characters. -/
structure TraceRecord.Plain (record : TraceRecord) : Prop where
  kind : ∀ character ∈ record.kind.toList, PlainCharacter character
  texts
    : ∀ text, .text text ∈ record.fields → ∀ character ∈ text.toList, PlainCharacter character

theorem decodeAscii_append (left right : List Byte)
    : decodeAscii (left ++ right) = decodeAscii left ++ decodeAscii right :=
  List.map_append

/-- A text of ASCII characters survives its bytes. -/
theorem decodeAscii_textBytes {text : String} (ascii : ∀ c ∈ text.toList, c.toNat < 128)
    : decodeAscii (textBytes text) = text.toList := by
  unfold decodeAscii textBytes
  rw [List.map_map]
  refine (List.map_congr_left ?_).trans (List.map_id _)
  intro character member
  have small := ascii character member
  have same : (BitVec.ofNat 8 character.toNat).toNat = character.toNat := by
    rw [BitVec.toNat_ofNat]
    omega
  simp only [Function.comp_apply, same, if_pos small, Char.ofNat_toNat, id]

/-- A digit of `trace_number` as a character. -/
theorem decode_digit {digit : Nat} (small : digit < 10)
    : decodeAscii [BitVec.ofNat 8 (48 + digit)] = [Nat.digitChar digit] := by
  interval_cases digit <;> decide

/-- Witness: induction on the room, which the value does not exhaust. -/
theorem decode_traceDigits {room : Nat} {value : U64} (fits : value.toNat < 10 ^ room)
    (positive : 0 < room) (digits : List Byte)
    : decodeAscii (traceDigits room value digits)
      = Nat.toDigits 10 value.toNat ++ decodeAscii digits := by
  induction room generalizing value digits with
  | zero => omega
  | succ room ih =>
      have quotient : (value / 10).toNat = value.toNat / 10 := BitVec.toNat_udiv
      have remainder : (value % 10).toNat = value.toNat % 10 := BitVec.toNat_umod
      have zero : value / 10 = 0 ↔ value.toNat < 10 := by
        rw [← BitVec.toNat_inj, quotient]
        change value.toNat / 10 = 0 ↔ _
        omega
      have last := decode_digit (Nat.mod_lt value.toNat (by decide : 0 < 10))
      have shape : ∀ rest : List Byte,
          decodeAscii (BitVec.ofNat 8 (48 + value.toNat % 10) :: rest)
            = Nat.digitChar (value.toNat % 10) :: decodeAscii rest := by
        intro rest
        exact (decodeAscii_append [_] rest).trans (by rw [last]; rfl)
      rw [traceDigits, remainder]
      by_cases small : value.toNat < 10
      · rw [if_neg (not_not.mpr (zero.mpr small)), shape, Nat.toDigits_of_lt_base small,
          Nat.mod_eq_of_lt small]
        rfl
      · have more : value / 10 ≠ 0 := mt zero.mp small
        have large : 10 ≤ value.toNat := Nat.not_lt.mp small
        have room' : 0 < room := by
          rcases Nat.eq_zero_or_pos room with none | some
          · subst none
            omega
          · exact some
        rw [if_pos more, ih _ room', quotient, shape, Nat.toDigits_of_base_le (by decide) large,
          List.append_assoc]
        · rfl
        · rw [quotient]
          rw [Nat.pow_succ] at fits
          omega

theorem decode_traceNumber (value : U64)
    : decodeAscii (traceNumber value) = Nat.toDigits 10 value.toNat := by
  have fits : value.toNat < 10 ^ 20 := lt_trans value.isLt (by decide)
  have digits := decode_traceDigits fits (by decide) []
  rw [show decodeAscii [] = [] from rfl, List.append_nil] at digits
  exact digits

theorem decode_traceHex (value : U64)
    : decodeAscii (traceHex value) = (TraceField.hex value).written := by
  rw [traceHex, decodeAscii_append]
  have mark : decodeAscii (textBytes "0x") = "0x".toList := by decide
  have digit : ∀ nibble < 16,
      decodeAscii [(textBytes "0123456789abcdef").getD nibble 0] = [Nat.digitChar nibble] := by
    decide
  rw [mark, TraceField.written]
  congr 1
  unfold decodeAscii
  rw [List.map_map]
  apply List.map_congr_left
  intro i _
  have mask : (15 : U64).toNat = 2 ^ 4 - 1 := rfl
  have nibble : ((value >>> (4 * i)) &&& 15).toNat = (value.toNat >>> (4 * i)) % 16 := by
    rw [BitVec.toNat_and, BitVec.toNat_ushiftRight, mask, Nat.and_two_pow_sub_one_eq_mod]
  have single := digit ((value.toNat >>> (4 * i)) % 16) (Nat.mod_lt _ (by decide))
  unfold decodeAscii at single
  simp only [List.map_cons, List.map_nil, List.cons.injEq, and_true] at single
  simp only [Function.comp_apply, traceHexDigit, nibble]
  exact single

theorem plain_of_isDigit {character : Char} (digit : character.isDigit)
    : PlainCharacter character := by
  have range : 48 ≤ character.toNat ∧ character.toNat ≤ 57 := by
    simpa [Char.isDigit, UInt32.le_iff_toNat_le] using digit
  refine ⟨by omega, ?_, ?_, ?_⟩
  all_goals
    intro same
    rw [same] at range
    exact absurd range (by decide)

theorem plain_toDigits (value : Nat)
    : ∀ character ∈ Nat.toDigits 10 value, PlainCharacter character :=
  fun _ member => plain_of_isDigit (Nat.isDigit_of_mem_toDigits (by decide) (by decide) member)

theorem plain_written {field : TraceField}
    (texts : ∀ text, field = .text text → ∀ character ∈ text.toList, PlainCharacter character)
    : ∀ character ∈ field.written, PlainCharacter character := by
  intro character member
  cases field with
  | number value => exact plain_toDigits _ character member
  | hex value =>
      rcases List.mem_append.mp member with mark | digit
      · have all : PlainText "0x".toList := by decide
        exact all character mark
      · obtain ⟨i, _, same⟩ := List.mem_map.mp digit
        have all : ∀ nibble < 16, PlainCharacter (Nat.digitChar nibble) := by decide
        exact same ▸ all _ (Nat.mod_lt _ (by decide))
  | negative value =>
      rcases List.mem_cons.mp member with sign | digit
      · exact sign ▸ (by decide : PlainCharacter '-')
      · exact plain_toDigits _ character digit
  | text text => exact texts text rfl character member

theorem decode_field {field : TraceField}
    (texts : ∀ text, field = .text text → ∀ character ∈ text.toList, PlainCharacter character)
    : decodeAscii field.bytes = field.written := by
  cases field with
  | number value => exact decode_traceNumber value
  | hex value => exact decode_traceHex value
  | negative value =>
      rw [TraceField.bytes, decodeAscii_append, decode_traceNumber]
      rfl
  | text text => exact decodeAscii_textBytes fun character member => (texts text rfl character member).ascii

namespace TraceRecord.Plain

variable {record : TraceRecord}

/-- No part of a line holds a separator. -/
theorem parts (plain : record.Plain)
    : ∀ part ∈ record.parts, ∀ character ∈ part, PlainCharacter character := by
  intro part member
  simp only [TraceRecord.parts, List.mem_cons, List.mem_map] at member
  rcases member with mark | kind | tick | ⟨field, member, written⟩
  · subst mark
    exact (by decide : PlainText "ML".toList)
  · exact kind ▸ plain.kind
  · exact tick ▸ plain_toDigits _
  · subst written
    apply plain_written
    intro text same
    exact plain.texts text (same ▸ member)

/-- The bytes of a record are its line and a newline. -/
theorem decode_bytes (plain : record.Plain)
    : decodeAscii record.bytes = record.line ++ ['\n'] := by
  have fields : ∀ fields : List TraceField, (∀ field ∈ fields, field ∈ record.fields)
      → decodeAscii (fields.flatMap fun field => textBytes "\t" ++ field.bytes)
        = (fields.map TraceField.written).flatMap fun written => '\t' :: written := by
    intro fields known
    induction fields with
    | nil => rfl
    | cons field rest ih =>
        have texts : ∀ text, field = .text text
            → ∀ character ∈ text.toList, PlainCharacter character := by
          intro text same
          exact plain.texts text (same ▸ known field List.mem_cons_self)
        rw [List.flatMap_cons, decodeAscii_append, decodeAscii_append, decode_field texts,
          ih fun other member => known other (List.mem_cons_of_mem _ member)]
        rfl
  have join : ∀ (first : Text) (rest : List Text),
      ['\t'].intercalate (first :: rest) = first ++ rest.flatMap fun part => '\t' :: part := by
    intro first rest
    induction rest generalizing first with
    | nil => simp [List.intercalate]
    | cons second rest ih =>
        rw [List.flatMap_cons, List.intercalate_cons_cons, ih]
        simp
  have mark : decodeAscii (textBytes "ML\t") = "ML".toList ++ ['\t'] := by decide
  have tab : decodeAscii (textBytes "\t") = ['\t'] := by decide
  have newline : decodeAscii (textBytes "\n") = ['\n'] := by decide
  have kind := decodeAscii_textBytes fun character member => (plain.kind character member).ascii
  rw [TraceRecord.bytes, TraceRecord.line, TraceRecord.parts, join]
  simp only [decodeAscii_append, mark, tab, newline, kind, decode_traceNumber,
    fields record.fields fun _ member => member, List.flatMap_cons, List.append_assoc,
    List.cons_append, List.nil_append]

/-- The line holds no newline and does not end in a carriage return. -/
theorem line (plain : record.Plain) (apart : Char) (separates : ¬PlainCharacter apart)
    (noTab : apart ≠ '\t')
    : apart ∉ record.line := by
  have go : ∀ parts : List Text, (∀ part ∈ parts, ∀ character ∈ part, PlainCharacter character)
      → apart ∉ ['\t'].intercalate parts := by
    intro parts all
    induction parts with
    | nil => simp [List.intercalate]
    | cons first rest ih =>
        have here : apart ∉ first := fun member =>
          separates (all first List.mem_cons_self apart member)
        have later := ih fun part member => all part (List.mem_cons_of_mem _ member)
        cases rest with
        | nil => simpa [List.intercalate] using here
        | cons second rest =>
            rw [List.intercalate_cons_cons]
            simp only [List.mem_append, List.mem_singleton, not_or]
            exact ⟨⟨here, noTab⟩, later⟩
  exact go _ plain.parts

/-- The host finds the parts of the line. -/
theorem lineParts_eq (plain : record.Plain) : lineParts record.line = record.parts := by
  have noReturn := plain.line '\r' (by decide) (by decide)
  have same : (record.line.rdropWhile fun character => character = '\r') = record.line := by
    rw [List.rdropWhile_eq_self_iff]
    intro nonempty last
    have ends := List.getLast_mem nonempty
    rw [of_decide_eq_true last] at ends
    exact noReturn ends
  rw [lineParts, same]
  apply List.splitOn_intercalate
  · intro part member tab
    exact (plain.parts part member '\t' tab).apart.1 rfl
  · exact List.cons_ne_nil _ _

end TraceRecord.Plain

-----------------------------------------------------------------------------------------
-- Fields as numbers
-----------------------------------------------------------------------------------------

theorem digitValue_of_isDigit {character : Char} (digit : character.isDigit)
    : digitValue character = some (character.toNat - '0'.toNat) := by
  have range : '0' ≤ character ∧ character ≤ '9' := by
    simpa [Char.isDigit, Char.le_def] using digit
  rw [digitValue, if_pos range]

theorem not_underscore_of_isDigit {character : Char} (digit : character.isDigit)
    : character ≠ '_' := by
  intro same
  rw [same] at digit
  exact absurd digit (by decide)

/-- Digits are read from the first to the last. Witness: induction on the digits. -/
theorem pyDigits_eq {digits : Text} (all : ∀ character ∈ digits, character.isDigit) (value : Nat)
    : pyDigits value digits = some (Nat.ofDigitChars 10 digits value) := by
  induction digits generalizing value with
  | nil => rfl
  | cons character rest ih =>
      have here := all character List.mem_cons_self
      have step : pyDigits value (character :: rest)
          = (digitValue character).bind fun digit => pyDigits (10 * value + digit) rest := by
        rw [pyDigits]
        · rfl
        · intro _ _ same _
          exact not_underscore_of_isDigit here same
      rw [step, digitValue_of_isDigit here, Option.bind_some,
        ih (fun other member => all other (List.mem_cons_of_mem _ member)),
        Nat.ofDigitChars_cons]

theorem pyUnsigned_toDigits (value : Nat) : pyUnsigned (Nat.toDigits 10 value) = some value := by
  have all : ∀ character ∈ Nat.toDigits 10 value, character.isDigit :=
    fun _ member => Nat.isDigit_of_mem_toDigits (by decide) (by decide) member
  have read := @Nat.ofDigitChars_ten_toDigits value
  cases digits : Nat.toDigits 10 value with
  | nil => exact absurd digits Nat.toDigits_ne_nil
  | cons character rest =>
      rw [digits] at all read
      have here := all character List.mem_cons_self
      rw [pyUnsigned, digitValue_of_isDigit here]
      change pyDigits _ rest = _
      rw [pyDigits_eq fun other member => all other (List.mem_cons_of_mem _ member)]
      rw [Nat.ofDigitChars_cons, Nat.mul_zero, Nat.zero_add] at read
      rw [read]

theorem not_space_of_isDigit {character : Char} (digit : character.isDigit)
    : isPySpace character = false := by
  have range : 48 ≤ character.toNat ∧ character.toNat ≤ 57 := by
    simpa [Char.isDigit, UInt32.le_iff_toNat_le] using digit
  simp only [isPySpace, Bool.or_eq_false_iff, Bool.and_eq_false_iff, decide_eq_false_iff_not]
  omega

/-- A text without white space is not stripped. -/
theorem strip_eq {text : Text} (solid : ∀ character ∈ text, isPySpace character = false)
    : (text.dropWhile isPySpace).rdropWhile isPySpace = text := by
  have front : text.dropWhile isPySpace = text := by
    cases text with
    | nil => rfl
    | cons character rest =>
        rw [List.dropWhile_cons, solid character List.mem_cons_self]
        rfl
  rw [front, List.rdropWhile_eq_self_iff]
  intro nonempty last
  rw [solid _ (List.getLast_mem nonempty)] at last
  exact Bool.false_ne_true last

theorem pyInt_toDigits (value : Nat) : pyInt (Nat.toDigits 10 value) = some (value : Int) := by
  have all : ∀ character ∈ Nat.toDigits 10 value, character.isDigit :=
    fun _ member => Nat.isDigit_of_mem_toDigits (by decide) (by decide) member
  rw [pyInt, strip_eq fun character member => not_space_of_isDigit (all character member)]
  split
  · next rest same =>
      have sign := all '-' (same ▸ List.mem_cons_self)
      exact absurd sign (by decide)
  · next rest same =>
      have sign := all '+' (same ▸ List.mem_cons_self)
      exact absurd sign (by decide)
  · rw [pyUnsigned_toDigits]
    rfl

theorem pyInt_negative (value : Nat)
    : pyInt ('-' :: Nat.toDigits 10 value) = some (-(value : Int)) := by
  have solid : ∀ character ∈ '-' :: Nat.toDigits 10 value, isPySpace character = false := by
    intro character member
    rcases List.mem_cons.mp member with sign | digit
    · exact sign ▸ (by decide)
    · exact not_space_of_isDigit (Nat.isDigit_of_mem_toDigits (by decide) (by decide) digit)
  rw [pyInt, strip_eq solid]
  simp only [pyUnsigned_toDigits, Option.map_some]

/-- The value of a hexadecimal digit. -/
def hexDigitValue (character : Char) : Option Nat :=
  if '0' ≤ character ∧ character ≤ '9' then some (character.toNat - '0'.toNat)
  else if 'a' ≤ character ∧ character ≤ 'f' then some (character.toNat - 'a'.toNat + 10)
  else none

/-- `int(text, 16)` for a text with the prefix of a pointer -/
def pyHex : Text → Option Nat
  | '0' :: 'x' :: digits =>
      digits.foldlM (fun value character =>
        (hexDigitValue character).map fun digit => 16 * value + digit) 0
  | _ => none

/-- Sixteen digits hold a number of 64 bits. Witness: induction on the digits read so far. -/
theorem pyHex_written (value : U64) : pyHex (TraceField.hex value).written = some value.toNat := by
  have digit : ∀ nibble < 16, hexDigitValue (Nat.digitChar nibble) = some nibble := by decide
  have read : ∀ count ≤ 16,
      (((List.range count).reverse.map fun i =>
            Nat.digitChar ((value.toNat >>> (4 * i)) % 16)).foldlM
          (fun value character =>
            (hexDigitValue character).map fun digit => 16 * value + digit)
          (value.toNat >>> (4 * count)) : Option Nat)
        = some value.toNat := by
    intro count bound
    induction count with
    | zero => rfl
    | succ count ih =>
        have next : 16 * (value.toNat >>> (4 * (count + 1))) + (value.toNat >>> (4 * count)) % 16
            = value.toNat >>> (4 * count) := by
          have shift : value.toNat >>> (4 * (count + 1)) = (value.toNat >>> (4 * count)) / 16 := by
            rw [Nat.mul_succ, Nat.shiftRight_add, Nat.shiftRight_eq_div_pow _ 4]
          rw [shift]
          exact Nat.div_add_mod _ _
        rw [List.range_succ, List.reverse_append, List.reverse_singleton, List.singleton_append,
          List.map_cons, List.foldlM_cons, digit _ (Nat.mod_lt _ (by decide)), Option.map_some, next]
        exact ih (by omega)
  have whole := read 16 (Nat.le_refl _)
  have high : value.toNat >>> (4 * 16) = 0 := by
    rw [Nat.shiftRight_eq_div_pow]
    exact Nat.div_eq_of_lt value.isLt
  rw [high] at whole
  exact whole

/-- The field's text has the value that the kernel passed. -/
def TraceField.ReadsAs (field : TraceField) (text : Text) : Prop :=
  match field with
  | .number value => pyInt text = some (value.toNat : Int)
  | .negative value => pyInt text = some (-(value.toNat : Int))
  | .hex value => pyHex text = some value.toNat
  | .text value => text = value.toList

/-- Every field reads as it was written. -/
theorem TraceField.readsAs_written (field : TraceField) : field.ReadsAs field.written := by
  cases field with
  | number value => exact pyInt_toDigits _
  | negative value => exact pyInt_negative _
  | hex value => exact pyHex_written value
  | text value => rfl

end MiniLinux
