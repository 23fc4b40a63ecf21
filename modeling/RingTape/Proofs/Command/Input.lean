/-
# What the input command accepts

A line is trimmed twice. What is read as a number is the core of the line, without the blanks
at both ends; what is reported, if that is no number, is the line without its ending, with all
other blanks as they were. The numbers that are accepted are those that a cell of 64 bits can
hold, in any spelling; a byte cell keeps the remainder of such a number.
-/

import RingTape.Proofs.Command.Primitive
import RingTape.Proofs.Tape.Ring
import RingTape.Proofs.Text.Numeral

namespace RingTape

namespace Machine

/-- In every state and for every line, the command that is written as a comma takes just that
line. If the core of the line is a numeral in the range of 64 bits, its value is stored in the
cell at the pointer and nothing is reported. Otherwise no cell changes, and one report is made:
of the line, without carriage returns and newlines at its end. -/
theorem input_accepts_numerals (m : Machine) (line : String)
    (supplied : m.source.read.1 = .ok (some line)) :
    (∀ registry : Registry, registry.resolve ',' = some Builtin.input.routine) ∧
    ∃ (core : List Char) (rest : String), Text.IsCore line.toList core ∧
      Text.IsUnended line.toList rest.toList ∧
      (∀ z, Decimal.Numeral core z → -2 ^ 63 ≤ z → z ≤ 2 ^ 63 - 1 → ∃ (tape : Tape) (value : Int64),
        m.perform Builtin.input.routine = { m with source := m.source.read.2, tape } ∧
        tape.pointer = m.tape.pointer ∧ tape.size = m.tape.size ∧ tape.mode = m.tape.mode ∧
        tape.cells[m.tape.pointer]? = some value ∧
        value.toInt = (match m.tape.mode with
          | .unbounded => z
          | .byte => z % 256) ∧
        ∀ cell, cell ≠ m.tape.pointer → tape.cells[cell]? = m.tape.cells[cell]?) ∧
      ((¬ ∃ z, Decimal.Numeral core z ∧ -2 ^ 63 ≤ z ∧ z ≤ 2 ^ 63 - 1) →
        m.perform Builtin.input.routine =
          { m with
            source := m.source.read.2
            hook := m.hook.map (⟨m.position, .notANumber rest⟩ :: ·)
            journal := m.journal.record (.inputFailed ⟨m.position, .notANumber rest⟩) }) := by
  refine ⟨fun registry => registry.resolve_symbol .input, Text.trimList line.toList,
    Text.trimLineEnd line, Text.isCore_trimList _, Text.isUnended_trimLineEnd line,
    fun z numeral low high => ?_, fun outside => ?_⟩
  · have held : (Int64.ofInt z).toInt = z := Int64.toInt_ofInt_of_le low (by omega)
    have read : Decimal.int64? (Text.trimList line.toList) = some (Int64.ofInt z) :=
      Decimal.int64?_eq_some_iff.mpr (held.symm ▸ numeral)
    refine ⟨m.tape.set (Int64.ofInt z), m.tape.mode.normalize (Int64.ofInt z), ?_, rfl,
      m.tape.size_set _, rfl, ?_, ?_, fun cell other => ?_⟩
    · rw [perform_input, supplied, Reading.number_line, read]
    · rw [Tape.getElem?_cells_set, if_pos rfl]
    · cases m.tape.mode with
      | unbounded => exact held
      | byte => rw [CellMode.toInt_normalize_byte, held]
    · rw [Tape.getElem?_cells_set, if_neg other]
  · rw [perform_input, supplied, Reading.number_line, Decimal.int64?_eq_none_iff.mpr outside]
    rfl

/-- A negative number between blanks of several kinds goes into a byte cell as a remainder, and
a sign in a wrong place is reported with the blanks around it. -/
theorem input_accepts_numerals_padded :
    let lines : List Reading := [.ok (some "\u2003-007 \r\n"), .ok (some " 7-\t\r\n")]
    let m : Machine :=
      { tape := .blank 1 .byte (by decide), sink := .collecting, source := .scripted lines
        hook := some [] }
    let m' := m.perform Builtin.input.routine
    let m'' := m'.perform Builtin.input.routine
    m'.tape.cells[0]? = some (249 : Int64) ∧ m'.hook = some [] ∧ m''.tape = m'.tape ∧
      m''.hook = some [⟨none, .notANumber " 7-\t"⟩] := by
  intro lines m m' m''
  obtain ⟨-, core, rest, isCore, -, accepts, -⟩ :=
    input_accepts_numerals m "\u2003-007 \r\n" rfl
  have trimmed : core = ['-', '0', '0', '7'] := isCore.eq_trimList.trans (by decide)
  have seven : Decimal.Numeral core (-7) :=
    trimmed ▸ .minus ⟨by decide, List.all_eq_true.mp rfl, by decide⟩
  obtain ⟨tape, value, stored, -, -, -, held, shows, -⟩ :=
    accepts (-7) seven (by omega) (by omega)
  have byte : value = 249 := Int64.toInt_inj.mp shows
  have first : m' = { m with source := m.source.read.2, tape } := stored
  have supplied : m'.source.read.1 = .ok (some " 7-\t\r\n") := by rw [first]; rfl
  obtain ⟨-, core', rest', isCore', isUnended', -, rejects⟩ :=
    input_accepts_numerals m' " 7-\t\r\n" supplied
  have unread : Decimal.int64? core' = none := isCore'.eq_trimList ▸ by decide
  have second := rejects (Decimal.int64?_eq_none_iff.mp unread)
  have named : rest' = " 7-\t" := isUnended'.eq_trimLineEnd.trans (by decide)
  have hook : m'.hook = some [] := congrArg Machine.hook first
  have known : m'.position = none := congrArg Machine.position first
  refine ⟨?_, hook, (congrArg Machine.tape second).trans rfl, (congrArg Machine.hook second).trans ?_⟩
  · rw [first, ← byte]
    exact held
  · rw [hook, known, named]
    rfl

end Machine

end RingTape
