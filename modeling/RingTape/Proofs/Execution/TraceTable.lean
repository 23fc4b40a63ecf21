/-
# The table tells the run

What a traced execution writes is fixed by the run alone: the header, then a row for
every step that was completed, and none for an instruction that failed. A row mixes what
was seen before its step with what was seen after it. Read from top to bottom the rows
fit together: where a row says that its step led is where the next row stands, and what
it says of pointer and cell afterwards is what the next row finds.
-/

import RingTape.Proofs.Execution.CallStack
import RingTape.Proofs.Machine.Effects
import RingTape.Proofs.Text.Utf8

namespace RingTape

namespace Writer

/-- A writer after a text that it had room for. -/
def took (w : Writer) (text : String) : Writer :=
  { w with written := w.written ++ Utf8.encode text }

@[simp] theorem room_took (w : Writer) (text : String) : (w.took text).room = w.room := rfl

/-- A writer without a limit takes every text. -/
theorem write_of_unlimited {w : Writer} (unlimited : w.room = none) (text : String) :
    (w.write (Utf8.encode text)).1 = w.took text := by
  obtain ⟨room, written⟩ := w
  obtain rfl : room = none := unlimited
  rfl

/-- Texts taken one after the other are their concatenation. -/
theorem took_took (w : Writer) (first second : String) :
    (w.took first).took second = w.took (first ++ second) := by
  rw [took, took, took, Utf8.encode_append]
  exact congrArg (Writer.mk w.room) (Array.toList_inj.mp (by simp))

theorem took_empty (w : Writer) : w.took "" = w := by
  simp [took, Utf8.encode]

/-- A new writer holds no more than what it takes. -/
theorem written_took_new (text : String) : (took {} text).written = text.toUTF8.data :=
  Array.toList_inj.mp (by simp [took, Utf8.encode])

end Writer

namespace Execution

open Nesting

/-- The rows of the steps that a run takes from a state, up to a number of them. -/
def rows (program : Program) (registry : Registry) : Nat → Configuration → List Row
  | 0, _ => []
  | n + 1, c =>
    match step program registry c with
    | .next row after => row :: rows program registry n after
    | .halt _ _ => []

/-- The numbers handed to the sink between two states of a run. -/
def Configuration.putOut (before after : Configuration) : List Int64 :=
  after.machine.sink.values.drop before.machine.sink.values.length

namespace Row

/-- The words for a command that left the pointer at `pointer` on a cell holding `cell`. -/
inductive Words (row : Row) (pointer : Nat) (cell : Int64) : Prop
  | moved (character : row.instruction = '>' ∨ row.instruction = '<')
      (words : row.action = "Moved pointer head to index " ++ toString pointer)
  | increment (character : row.instruction = '+')
      (words : row.action = "Increment " ++ ("cell[" ++ toString pointer ++ "] from " ++
        toString row.cell.toInt ++ " to " ++ toString cell.toInt))
  | decrement (character : row.instruction = '-')
      (words : row.action = "Decrement " ++ ("cell[" ++ toString pointer ++ "] from " ++
        toString row.cell.toInt ++ " to " ++ toString cell.toInt))
  | output (character : row.instruction = '.')
      (words : row.action = "Output value " ++ toString cell.toInt)
  | unchanged (character : row.instruction = ',') (same : cell = row.cell)
      (words : row.action = "Read input -> cell[" ++ toString pointer ++ "] " ++
        ("unchanged (" ++ toString cell.toInt ++ ")"))
  | input (character : row.instruction = ',') (other : cell ≠ row.cell)
      (words : row.action = "Read input -> cell[" ++ toString pointer ++ "] " ++
        ("= " ++ toString cell.toInt))
  | custom (character : row.instruction ∉ ['>', '<', '+', '-', '.', ','])
      (words : row.action = "Custom command '" ++ row.instruction.toString ++ "': ptr " ++
        toString row.pointer ++ " -> " ++ toString pointer ++ ", cell " ++
        toString row.cell.toInt ++ " -> " ++ toString cell.toInt)

/-- Where the instruction of a row led, to which pointer and cell, and what its action
tells of that. A command goes to the next character, as does the way into a loop; the
way past a loop goes behind the marker that closes it, and the way back to the one that
the row's own marker closes. -/
inductive LeadsTo (program : Program) (registry : Registry) (row : Row) :
    (next pointer : Nat) → (cell : Int64) → Prop
  | command {pointer : Nat} {cell : Int64}
      (known : (registry.resolve row.instruction).isSome)
      (words : row.Words pointer cell) :
      LeadsTo program registry row (row.index + 1) pointer cell
  | enter {close : Nat} (marker : row.instruction = loopOpen) (nonzero : row.cell ≠ 0)
      (found : program.findClose row.index = .ok close)
      (words : row.action = "Cell != 0; enter loop (matching ']' at IP " ++
        toString close ++ ")") :
      LeadsTo program registry row (row.index + 1) row.pointer row.cell
  | skip {close : Nat} (marker : row.instruction = loopOpen) (zero : row.cell = 0)
      (found : program.findClose row.index = .ok close)
      (words : row.action = "Cell is 0; jump past matching ']' at IP " ++
        toString close) :
      LeadsTo program registry row (close + 1) row.pointer row.cell
  | back {header : Nat} (marker : row.instruction = loopClose)
      (closes : program.findClose header = .ok row.index)
      (words : row.action = "Return to loop header at IP " ++ toString header) :
      LeadsTo program registry row header row.pointer row.cell

/-- Whether a row tells of a number that was put out. -/
def IsOutput (row : Row) : Prop := row.action.startsWith "Output value "

instance (row : Row) : Decidable row.IsOutput := inferInstanceAs (Decidable (_ = true))

/-- Those rows are the ones of the output command. -/
theorem isOutput_iff (row : Row) :
    row.IsOutput ↔ row.move = .command ∧ row.instruction = Builtin.output.symbol := by
  rw [IsOutput, String.startsWith_string_iff, action]
  cases row.move with
  | command =>
    rw [commandAction]
    cases spelled : Builtin.ofSymbol? row.instruction with
    | none =>
      have other : row.instruction ≠ Builtin.output.symbol := by
        intro same
        rw [same, Builtin.ofSymbol?_symbol] at spelled
        cases spelled
      simp [other]
    | some b =>
      rw [Builtin.eq_symbol_of_ofSymbol? spelled]
      cases b <;> simp [Builtin.symbol]
  | enter close => simp
  | skip close => simp
  | back header => simp

/-- A row tells of the step between two states: its columns of the first, its action of
the second. -/
structure Tells (program : Program) (registry : Registry) (row : Row)
    (before after : Configuration) : Prop where
  step : row.step = before.steps
  index : row.index = before.index
  pointer : row.pointer = before.machine.tape.pointer
  cell : row.cell = before.machine.get
  instruction : program[before.index]? = some row.instruction
  columns : row.line =
    String.ofList ((toString before.steps).toList.rightpad 4 ' ') ++ " | " ++
      String.ofList ((toString before.index).toList.rightpad 3 ' ') ++ " | " ++
      String.ofList ((toString before.machine.tape.pointer).toList.rightpad 3 ' ') ++ " | " ++
      String.ofList ((toString before.machine.get.toInt).toList.rightpad 4 ' ') ++ " |  " ++
      row.instruction.toString ++ "    | " ++ row.action ++ "\n"
  leads : row.LeadsTo program registry after.index after.machine.tape.pointer after.machine.get
  isOutput : row.IsOutput ↔ row.instruction = Builtin.output.symbol
  output : row.instruction = Builtin.output.symbol → ∃ value,
    row.action = "Output value " ++ toString value.toInt ∧ before.putOut after = [value]

end Row

variable {program : Program} {registry : Registry} {c : Configuration}

/-! ## The text -/

/-- A traced run into a writer without a limit takes the steps of the run without a
table, and writes the lines of its rows. -/
theorem advanceTraced_toWriter {w : Writer} (unlimited : w.room = none) (n : Nat)
    (c : Configuration) :
    advanceTraced .toWriter program registry n c w =
      (advance program registry n c,
        w.took (String.join ((rows program registry n c).map Row.line))) := by
  induction n generalizing c w with
  | zero => rw [rows, List.map_nil, String.join_nil, Writer.took_empty, advance, advanceTraced]
  | succ n ih =>
    rw [advanceTraced, advance, rows]
    cases step program registry c with
    | halt result final => rw [List.map_nil, String.join_nil, Writer.took_empty]
    | next row after =>
      rw [List.map_cons, String.join_cons, ← Writer.took_took]
      have line : Tracer.toWriter.onMachine row.line after.machine w =
          (after.machine, w.took row.line) :=
        congrArg (Prod.mk after.machine) (Writer.write_of_unlimited unlimited row.line)
      simp only [line]
      exact ih (by rw [Writer.room_took, unlimited]) after

/-- The header is written first. -/
theorem begin_toWriter {w : Writer} (unlimited : w.room = none) (m : Machine) :
    Tracer.toWriter.begin m w = (m, w.took (String.join tableHeader)) := by
  have written (text : String) {w : Writer} (unlimited : w.room = none) :
      Tracer.toWriter.onMachine text m w = (m, w.took text) :=
    congrArg (Prod.mk m) (Writer.write_of_unlimited unlimited text)
  simp only [Tracer.begin, tableHeader, List.foldl_cons, List.foldl_nil, written _ unlimited,
    written _ ((Writer.room_took w _).trans unlimited), Writer.took_took, String.join_cons,
    String.join_nil, String.append_empty]

/-- A table is taken with its two lines of header. -/
theorem took_table (w : Writer) (lines : List String) :
    w.took (String.join (tableHeader ++ lines)) = { w with
      written := w.written ++ (
        "STEP | IP  | PTR | CELL | INSTR | ACTION\n" ++
        "-----+-----+-----+------+-------+------------------------------------------------\n" ++
        String.join lines).toUTF8.data } := by
  have text : String.join (tableHeader ++ lines) = _ := String.join_append
  rw [Writer.took, Utf8.encode, text]
  refine congrArg (Writer.mk w.room) (Array.toList_inj.mp ?_)
  simp [tableHeader]

/-! ## The rows -/

/-- A run that halts has a row for each step that it completed, and no other. -/
theorem rows_of_halted {n : Nat} {result : Except ExecutionError Unit} {final : Configuration}
    (run : advance program registry n c = .halted result final) :
    advance program registry (rows program registry n c).length c = .running final ∧
      Performs program.toList registry final (.halt result final) := by
  induction n generalizing c with
  | zero => cases run
  | succ n ih =>
    obtain ⟨outcome, performs⟩ := exists_performs program.toList registry c
    rw [rows, performs.step_eq]
    cases outcome with
    | next row after =>
      rw [advance_succ_of_next performs] at run
      rw [List.length_cons, advance_succ_of_next performs]
      exact ih run
    | halt other last =>
      obtain rfl := performs.final_eq
      rw [advance_succ_of_halt performs] at run
      cases run
      exact ⟨rfl, performs⟩

/-- A run has as many rows as it took steps. -/
theorem length_rows_of_advance {last : Configuration}
    (run : advance program registry n c = .running last) :
    (rows program registry n c).length = n := by
  induction n generalizing c with
  | zero => rfl
  | succ n ih =>
    obtain ⟨row, after, performs, rest⟩ := exists_first_step run
    rw [rows, performs.step_eq, List.length_cons, ih rest]

/-- One step more adds its row. -/
theorem rows_succ_of_next {row : Row} {before after : Configuration}
    (run : advance program registry n c = .running before)
    (performs : Performs program.toList registry before (.next row after)) :
    rows program registry (n + 1) c = rows program registry n c ++ [row] := by
  induction n generalizing c with
  | zero =>
    cases run
    simp only [rows, performs.step_eq, List.nil_append]
  | succ n ih =>
    obtain ⟨first, middle, stepped, rest⟩ := exists_first_step run
    rw [rows, rows, stepped.step_eq]
    exact congrArg (first :: ·) (ih rest)

/-- More steps than a run takes add no rows. -/
theorem rows_length_rows (program : Program) (registry : Registry) (n : Nat) (c : Configuration) :
    rows program registry (rows program registry n c).length c = rows program registry n c := by
  induction n generalizing c with
  | zero => rfl
  | succ n ih =>
    rw [rows]
    cases stepped : step program registry c with
    | next row after =>
      simp only [List.length_cons, rows, stepped]
      rw [ih after]
    | halt result final => rfl

/-- Each row is that of the step at its place. -/
theorem exists_of_getElem?_rows {n k : Nat} {row : Row}
    (listed : (rows program registry n c)[k]? = some row) :
    ∃ before after, advance program registry k c = .running before ∧
      advance program registry (k + 1) c = .running after ∧
      Performs program.toList registry before (.next row after) := by
  induction n generalizing c k with
  | zero => simp [rows] at listed
  | succ n ih =>
    obtain ⟨outcome, performs⟩ := exists_performs program.toList registry c
    rw [rows, performs.step_eq] at listed
    cases outcome with
    | halt result last => simp at listed
    | next first second =>
      cases k with
      | zero =>
        obtain rfl : first = row := by simpa using listed
        exact ⟨c, second, rfl, by rw [advance_succ_of_next performs, advance], performs⟩
      | succ k =>
        rw [advance_succ_of_next performs, advance_succ_of_next performs]
        exact ih (by simpa using listed)

/-- The output command hands over the number in the cell, and leaves the tape as it is. -/
theorem putOut_performed_output (c : Configuration) :
    c.putOut (c.performed Builtin.output.routine) =
      [(c.performed Builtin.output.routine).machine.get] := by
  let m : Machine := { c.machine with position := some c.index }
  have tape : (c.performed Builtin.output.routine).machine.tape = c.machine.tape :=
    (m.frame_emit c.machine.get).1
  have cell : (c.performed Builtin.output.routine).machine.get = c.machine.get :=
    congrArg Tape.get tape
  have sink : (c.performed Builtin.output.routine).machine.sink =
      c.machine.sink.after [.emitted c.machine.get] := (m.observed_emit c.machine.get).sink
  rw [cell, Configuration.putOut, sink, Sink.values_after]
  exact List.drop_left

/-- The words for a command are those for the pointer and the cell after it. The words for the
two that add name the cell by the pointer before, which is the same. -/
theorem words_row_command {name : Char} {routine : Routine}
    (resolved : registry.resolve name = some routine) :
    (c.row name .command (c.performed routine)).Words
      (c.performed routine).machine.tape.pointer (c.performed routine).machine.get := by
  rw [Registry.resolve] at resolved
  cases spelled : Builtin.ofSymbol? name with
  | none =>
    refine .custom ?_ ?_
    · intro member
      simp only [List.mem_cons, List.not_mem_nil, or_false] at member
      rcases member with rfl | rfl | rfl | rfl | rfl | rfl <;> cases spelled
    · rw [Row.action, Configuration.row, Row.commandAction, spelled]
  | some b =>
    rw [spelled] at resolved
    obtain rfl : b.routine = routine := Option.some.inj resolved
    obtain rfl : name = b.symbol := Builtin.eq_symbol_of_ofSymbol? spelled
    cases b with
    | right => exact .moved (.inl rfl) rfl
    | left => exact .moved (.inr rfl) rfl
    | increment => exact .increment rfl rfl
    | decrement => exact .decrement rfl rfl
    | output => exact .output rfl rfl
    | input =>
      let after := c.performed Builtin.input.routine
      have action : (c.row ',' .command after).action =
          "Read input -> cell[" ++ toString after.machine.tape.pointer ++ "] " ++
            (if after.machine.get = c.machine.get then
              "unchanged (" ++ toString after.machine.get.toInt ++ ")"
            else "= " ++ toString after.machine.get.toInt) := rfl
      by_cases same : after.machine.get = c.machine.get
      · rw [if_pos same] at action
        exact .unchanged rfl same action
      · rw [if_neg same] at action
        exact .input rfl same action

/-- The row of a marker tells of the step, wherever it leads, since no marker touches the
tape or the sink. -/
theorem tells_of_marker {name : Char} {move : Move} {after : Configuration}
    (read : program.toList[c.index]? = some name) (marker : name = loopOpen ∨ name = loopClose)
    (leads : (c.row name move after).LeadsTo program registry after.index
      after.machine.tape.pointer after.machine.get) :
    (c.row name move after).Tells program registry c after := by
  have silent : name ≠ Builtin.output.symbol := by
    rcases marker with rfl | rfl <;> decide
  exact
    { step := rfl
      index := rfl
      pointer := rfl
      cell := rfl
      instruction := by rwa [← Array.getElem?_toList]
      columns := rfl
      leads
      isOutput := by
        rw [Row.isOutput_iff]
        exact ⟨And.right, fun output => absurd output silent⟩
      output := fun output => absurd output silent }

/-- The row of a command tells of the step. -/
theorem tells_of_command {name : Char} {routine : Routine}
    (read : program.toList[c.index]? = some name)
    (resolved : registry.resolve name = some routine) :
    (c.row name .command (c.performed routine)).Tells program registry c
      (c.performed routine) := by
  refine
    { step := rfl
      index := rfl
      pointer := rfl
      cell := rfl
      instruction := by rwa [← Array.getElem?_toList]
      columns := rfl
      leads := .command (Option.isSome_iff_exists.mpr ⟨routine, resolved⟩)
        (words_row_command resolved)
      isOutput := by
        rw [Row.isOutput_iff]
        exact ⟨And.right, fun output => ⟨rfl, output⟩⟩
      output := fun output => ?_ }
  obtain rfl : name = Builtin.output.symbol := output
  obtain rfl : Builtin.output.routine = routine := Option.some.inj resolved
  exact ⟨_, rfl, putOut_performed_output c⟩

/-- The row of a step tells of it. Only for the way back does it matter that the run
began where the text begins: that the header is the one to go to is known of its stack. -/
theorem tells_of_performs {row : Row} {after : Configuration}
    (nested : Nested program.toList c)
    (performs : Performs program.toList registry c (.next row after)) :
    row.Tells program registry c after := by
  cases performs with
  | command name routine read resolved => exact tells_of_command read resolved
  | enter close read found nonzero =>
    exact tells_of_marker read (.inl rfl)
      (.enter rfl nonzero (findClose_eq_ok_iff.mpr found) rfl)
  | skip close read found zero =>
    exact tells_of_marker read (.inl rfl) (.skip rfl zero (findClose_eq_ok_iff.mpr found) rfl)
  | back header outer read calls =>
    obtain ⟨-, closes⟩ := nested.partner_header calls read
    exact tells_of_marker read (.inr rfl) (.back rfl (findClose_eq_ok_iff.mpr closes) rfl)

/-- Row by row, the rows of output tell of the numbers that the output command put out. -/
theorem outputs_eq (listed : List Row) (states : Nat → Configuration)
    (tells : ∀ (k : Nat) (row : Row), listed[k]? = some row →
      row.Tells program registry (states k) (states (k + 1))) :
    (listed.filter Row.IsOutput).map Row.action =
      (((List.range listed.length).filter fun k =>
        program[(states k).index]? = some Builtin.output.symbol).flatMap fun k =>
          (states k).putOut (states (k + 1))).map fun value =>
            "Output value " ++ toString value.toInt := by
  induction listed generalizing states with
  | nil => rfl
  | cons row rest ih =>
    have head : row.Tells program registry (states 0) (states 1) := tells 0 row rfl
    have read : program[(states 0).index]? = some Builtin.output.symbol ↔ row.IsOutput := by
      rw [head.isOutput, head.instruction, Option.some.injEq]
    -- The rest is a list of rows of its own, whose states are numbered one less.
    have tail := ih (fun k => states (k + 1)) fun k row listed => tells (k + 1) row listed
    rw [List.length_cons, List.range_succ_eq_map, List.filter_cons, List.filter_cons,
      List.filter_map]
    by_cases output : row.IsOutput
    · obtain ⟨value, words, handed⟩ := head.output (head.isOutput.mp output)
      rw [if_pos (by simpa using output), if_pos (by simpa using read.mpr output), List.map_cons,
        tail, List.flatMap_cons, handed, List.flatMap_map, words]
      rfl
    · rw [if_neg (by simpa using output), if_neg (by simpa [read] using output), tail,
        List.flatMap_map]
      rfl

end Execution

namespace Interpreter

open Execution

/-- The state of an execution after a number of steps, or the last one if it ends sooner. -/
def stateAfter (i : Interpreter) (code : String) (n : Nat) : Configuration :=
  (advance (Program.ofString code) i.registry n (i.initial code)).state

theorem stateAfter_eq {i : Interpreter} {code : String} {n : Nat} {c : Configuration}
    (reached : i.Reaches code n c) : i.stateAfter code n = c := by
  rw [stateAfter, reached, Progress.state]

/-- A list of rows gives a faithful account of an execution from `i` to `after`, whose
states are `states` and which had this result. -/
structure Tabulates (i : Interpreter) (code : String) (result : Except ExecutionError Unit)
    (after : Interpreter) (rows : List Row) (states : Nat → Configuration) : Prop where
  /-- The states are those that the execution passes, one more than there are rows. -/
  reached : ∀ k ≤ rows.length, i.Reaches code k (states k)
  first : (states 0).index = 0
  /-- The rows are numbered from 0, and each tells of the step between two states. -/
  tells : ∀ (k : Nat) (row : Row), rows[k]? = some row → row.step = k ∧
    row.Tells (Program.ofString code) i.registry (states k) (states (k + 1))
  /-- The next row stands where a row led to, and finds what its action tells of. -/
  linked : ∀ (k : Nat) (row next : Row), rows[k]? = some row → rows[k + 1]? = some next →
    row.LeadsTo (Program.ofString code) i.registry next.index next.pointer next.cell
  /-- The last row leads to the end, and its action tells of what is there at the end. -/
  last : ∀ row, rows.getLast? = some row →
    row.LeadsTo (Program.ofString code) i.registry (states rows.length).index
      after.machine.tape.pointer after.machine.get
  /-- The rows of output tell of the numbers that the output command handed to the sink. -/
  outputs : (rows.filter Row.IsOutput).map Row.action =
    (((List.range rows.length).filter fun k =>
      (Program.ofString code)[(states k).index]? = some Builtin.output.symbol).flatMap fun k =>
        (states k).putOut (states (k + 1))).map fun value => "Output value " ++ toString value.toInt
  /-- The step that has no row is the one that ends the execution. -/
  halts : step (Program.ofString code) i.registry (states rows.length) =
    .halt result (states rows.length)
  finished : result = .ok () → (states rows.length).index = code.toList.length
  failed : ∀ e, result = .error e → (states rows.length).index = e.position
  left : after = ⟨(states rows.length).machine.record (closing rows.length result), i.registry⟩

variable {i after : Interpreter} {code : String} {w w' : Writer}
  {result : Except ExecutionError Unit}

/-- The rows of an execution that ends are a faithful account of it. -/
theorem tabulates_rows {n : Nat} {final : Configuration}
    (run : advance (Program.ofString code) i.registry n (i.initial code) = .halted result final) :
    i.Tabulates code result ⟨final.machine.record (closing final.steps result), i.registry⟩
      (rows (Program.ofString code) i.registry n (i.initial code)) (i.stateAfter code) := by
  obtain ⟨complete, halt⟩ := rows_of_halted run
  generalize rows_eq : rows (Program.ofString code) i.registry n (i.initial code) = listed
    at complete
  have at_end : i.stateAfter code listed.length = final := stateAfter_eq complete
  -- A row at place `k` is evidence that the run passes the states `k` and `k + 1`.
  have tells (k : Nat) (row : Row) (at_k : listed[k]? = some row) :
      i.Reaches code k (i.stateAfter code k) ∧ row.step = k ∧
        row.Tells (Program.ofString code) i.registry (i.stateAfter code k)
          (i.stateAfter code (k + 1)) := by
    rw [← rows_eq] at at_k
    obtain ⟨before, next, passed, follows, performs⟩ := exists_of_getElem?_rows at_k
    have told := tells_of_performs (nested_of_reaches passed) performs
    rw [stateAfter_eq passed, stateAfter_eq follows]
    exact ⟨passed, told.step.trans ((steps_of_advance passed).trans (Nat.zero_add k)), told⟩
  refine
    { reached := fun k le => ?_
      first := rfl
      tells := fun k row at_k => (tells k row at_k).2
      linked := fun k row next at_k at_next => ?_
      last := fun row at_last => ?_
      outputs := outputs_eq listed _ fun k row at_k => (tells k row at_k).2.2
      halts := ?_
      finished := ?_
      failed := ?_
      left := ?_ }
  · rcases Nat.lt_or_eq_of_le le with lt | rfl
    · exact (tells k listed[k] (List.getElem?_eq_getElem lt)).1
    · rw [at_end]
      exact complete
  · have told := (tells k row at_k).2.2
    have follows := (tells (k + 1) next at_next).2.2
    rw [follows.index, follows.pointer, follows.cell]
    exact told.leads
  · rw [List.getLast?_eq_getElem?] at at_last
    obtain ⟨-, -, told⟩ := tells _ row at_last
    have nonempty : listed.length - 1 + 1 = listed.length := by
      have inside := (List.getElem?_eq_some_iff.mp at_last).1
      omega
    rw [nonempty, at_end] at told
    rw [at_end]
    exact told.leads
  · rw [at_end]
    exact halt.step_eq
  · rintro rfl
    rw [at_end]
    cases halt with
    | finish ended => exact ((nested_of_reaches complete).calls_eq_nil ended).1
  · rintro e rfl
    rw [at_end]
    cases halt <;> rfl
  · have counted : final.steps = listed.length :=
      (steps_of_advance complete).trans (Nat.zero_add _)
    rw [at_end, counted]

/-- A traced execution that ends with a writer without a limit has written the header and its
rows. -/
theorem exists_of_executeTraced_toWriter {fuel : Nat} (unlimited : w.room = none)
    (executed : i.executeTraced .toWriter fuel code w = some (result, after, w')) :
    ∃ final, advance (Program.ofString code) i.registry fuel (i.initial code) =
        .halted result final ∧
      after = ⟨final.machine.record (closing final.steps result), i.registry⟩ ∧
      w' = w.took (String.join (tableHeader ++
        (rows (Program.ofString code) i.registry fuel (i.initial code)).map Row.line)) := by
  rw [executeTraced_eq, begun, begin_toWriter unlimited] at executed
  simp only [advanceTraced_toWriter ((Writer.room_took w _).trans unlimited)] at executed
  rw [Writer.took_took, ← String.join_append] at executed
  rw [initial]
  cases run : advance (Program.ofString code) i.registry fuel
      (.start (start i.machine (Program.ofString code))) with
  | running c =>
    rw [run] at executed
    cases executed
  | halted result' final =>
    rw [run] at executed
    cases executed
    exact ⟨final, rfl, rfl, rfl⟩

/-- What a traced execution writes is the header and the rows of a faithful account. -/
theorem executesTraced_tabulates (unlimited : w.room = none)
    (executed : i.ExecutesTraced .toWriter code w result after w') :
    ∃ (rows : List Row) (states : Nat → Configuration), i.Tabulates code result after rows states ∧
      w' = { w with
        written := w.written ++ (
          "STEP | IP  | PTR | CELL | INSTR | ACTION\n" ++
          "-----+-----+-----+------+-------+------------------------------------------------\n" ++
          String.join (rows.map Row.line)).toUTF8.data } := by
  obtain ⟨n, executed⟩ := executed
  obtain ⟨final, run, rfl, rfl⟩ := exists_of_executeTraced_toWriter unlimited executed
  exact ⟨_, _, tabulates_rows run, took_table w _⟩

/-- The table of a loop that runs once, behind which a closing marker is refused. -/
theorem executesTraced_tabulates_loop :
    let m : Machine := ⟨.blank 2 .byte (by decide), .collecting, .stream [], none, none, [], {}⟩
    let i : Interpreter := ⟨m, .empty⟩
    ∃ after w', i.ExecutesTraced .toWriter ">+.[-]]" {} (.error (.unmatchedClose 6)) after w' ∧
      w'.written = (String.join [
        "STEP | IP  | PTR | CELL | INSTR | ACTION\n",
        "-----+-----+-----+------+-------+------------------------------------------------\n",
        "0    | 0   | 0   | 0    |  >    | Moved pointer head to index 1\n",
        "1    | 1   | 1   | 0    |  +    | Increment cell[1] from 0 to 1\n",
        "2    | 2   | 1   | 1    |  .    | Output value 1\n",
        "3    | 3   | 1   | 1    |  [    | Cell != 0; enter loop (matching ']' at IP 5)\n",
        "4    | 4   | 1   | 1    |  -    | Decrement cell[1] from 1 to 0\n",
        "5    | 5   | 1   | 0    |  ]    | Return to loop header at IP 3\n",
        "6    | 3   | 1   | 0    |  [    | Cell is 0; jump past matching ']' at IP 5\n"
        ]).toUTF8.data ∧
      ∃ (rows : List Row) (states : Nat → Configuration),
        i.Tabulates ">+.[-]]" (.error (.unmatchedClose 6)) after rows states ∧
        (states rows.length).index = 6 := by
  intro m i
  have ended : (i.executeTraced .toWriter 8 ">+.[-]]" {}).map Prod.fst =
      some (.error (.unmatchedClose 6)) := by decide
  obtain ⟨⟨result, after, w'⟩, executed, rfl⟩ := Option.map_eq_some_iff.mp ended
  obtain ⟨rows, states, account, -⟩ := executesTraced_tabulates rfl ⟨8, executed⟩
  refine ⟨after, w', ⟨8, executed⟩, ?_, rows, states, account, account.failed _ rfl⟩
  obtain ⟨-, -, -, written⟩ := exists_of_executeTraced_toWriter rfl executed
  have lines : (Execution.rows (Program.ofString ">+.[-]]") i.registry 8
      (i.initial ">+.[-]]")).map Row.line = [
        "0    | 0   | 0   | 0    |  >    | Moved pointer head to index 1\n",
        "1    | 1   | 1   | 0    |  +    | Increment cell[1] from 0 to 1\n",
        "2    | 2   | 1   | 1    |  .    | Output value 1\n",
        "3    | 3   | 1   | 1    |  [    | Cell != 0; enter loop (matching ']' at IP 5)\n",
        "4    | 4   | 1   | 1    |  -    | Decrement cell[1] from 1 to 0\n",
        "5    | 5   | 1   | 0    |  ]    | Return to loop header at IP 3\n",
        "6    | 3   | 1   | 0    |  [    | Cell is 0; jump past matching ']' at IP 5\n"] := by
    decide
  rw [written, lines, Writer.written_took_new]
  simp only [tableHeader, List.cons_append, List.nil_append]

end Interpreter

end RingTape
