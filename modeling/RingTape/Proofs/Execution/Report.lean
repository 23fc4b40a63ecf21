/-
# The lines of a report

A report is meant to have three lines: what is wrong and where, a part of the program, and a
caret under the character in question. The part is counted in characters and cut out in bytes,
which succeeds for every position of every program. Breaks inside it are shown as spaces, so
that the caret stays in its column. The first line is not looked after in the same way. It
names the character that is no command, and if that is a newline the line is broken there: the
report then has four lines, and the second of them tells the place.
-/

import Mathlib.Data.List.Forall2
import RingTape.Execution.Report
import RingTape.Proofs.Execution.Stepping
import RingTape.Proofs.Text.Decimal

namespace RingTape

/-! ## Lines -/

namespace Text

/-- A text without a newline. -/
def Unbroken (text : String) : Prop := '\n' ∉ text.toList

instance (text : String) : Decidable (Unbroken text) := inferInstanceAs (Decidable (_ ∉ _))

theorem unbroken_append {first second : String} :
    Unbroken (first ++ second) ↔ Unbroken first ∧ Unbroken second := by
  rw [Unbroken, String.toList_append, List.mem_append, not_or, Unbroken, Unbroken]

theorem unbroken_ofList {cs : List Char} : Unbroken (String.ofList cs) ↔ '\n' ∉ cs := by
  rw [Unbroken, String.toList_ofList]

theorem unbroken_toString (n : Nat) : Unbroken (toString n) :=
  unbroken_ofList.mpr fun member => absurd (Decimal.isDigit_of_mem_toDigits member) (by decide)

/-- A text is made up of lines, each of them ended by a newline and without one in it. -/
structure ConsistsOf (text : String) (lines : List String) : Prop where
  spelled : text = String.join (lines.map (· ++ "\n"))
  unbroken : ∀ line ∈ lines, Unbroken line

/-- One line more in front. -/
theorem ConsistsOf.cons {text line : String} {lines : List String}
    (consists : ConsistsOf text lines) (unbroken : Unbroken line) :
    ConsistsOf (line ++ "\n" ++ text) (line :: lines) where
  spelled := by rw [List.map_cons, String.join_cons, consists.spelled]
  unbroken := List.forall_mem_cons.mpr ⟨unbroken, consists.unbroken⟩

/-- A text has as many newlines as lines. -/
theorem ConsistsOf.count_newline {text : String} {lines : List String}
    (consists : ConsistsOf text lines) : text.toList.count '\n' = lines.length := by
  obtain ⟨rfl, unbroken⟩ := consists
  induction lines with
  | nil => rfl
  | cons line rest ih =>
    obtain ⟨here, later⟩ := List.forall_mem_cons.mp unbroken
    rw [List.map_cons, String.join_cons, String.toList_append, String.toList_append,
      List.count_append, List.count_append, ih later, List.count_eq_zero.mpr here]
    simp [Nat.add_comm]

end Text

open Text

namespace Execution

/-! ## The context and the caret -/

/-- How a character of a program is shown: one that would end the line or leave its column as a
space, and any other as itself. -/
inductive ShownAs : Char → Char → Prop
  | blank {c : Char} (break_or_tab : c = '\n' ∨ c = '\r' ∨ c = '\t') : ShownAs c ' '
  | itself {c : Char} (ne_newline : c ≠ '\n') (ne_return : c ≠ '\r') (ne_tab : c ≠ '\t') :
      ShownAs c c

theorem shownAs_iff {c shown : Char} : ShownAs c shown ↔ reportChar c = shown := by
  constructor
  · intro shows
    cases shows with
    | blank break_or_tab => rw [reportChar, if_pos break_or_tab]
    | itself ne_newline ne_return ne_tab =>
      rw [reportChar, if_neg (by simp [ne_newline, ne_return, ne_tab])]
  · rintro rfl
    unfold reportChar
    split
    · next break_or_tab => exact .blank break_or_tab
    · next plain =>
      simp only [not_or] at plain
      exact .itself plain.1 plain.2.1 plain.2.2

/-- Characters are shown one by one. -/
theorem forall₂_shownAs_iff {cs shown : List Char} :
    List.Forall₂ ShownAs cs shown ↔ cs.map reportChar = shown := by
  have same : ShownAs = fun c shown => reportChar c = shown :=
    funext fun c => funext fun shown => propext shownAs_iff
  rw [same, ← List.forall₂_map_left_iff, List.forall₂_eq_eq_eq]

/-- The characters around a position, as they are shown. -/
def reportSlice (code : List Char) (position : Nat) : List Char :=
  let start := position - reportReach
  ((code.drop start).take (position + reportReach + 1 - start)).map reportChar

/-- The characters of what is cut out of the bytes of the program. -/
theorem toList_reportPart (code : String) (position : Nat) :
    (reportPart code position).toList =
      (code.toList.take (position + reportReach + 1)).drop (position - reportReach) := by
  have cut : reportPart code position = _ := Option.get_of_eq_some _ (reportPart?_eq code position)
  rw [cut, String.toList_ofList]

theorem map_toList_reportPart (code : String) (position : Nat) :
    (reportPart code position).toList.map reportChar = reportSlice code.toList position := by
  rw [toList_reportPart, List.drop_take, reportSlice]

/-- A character as it is shown breaks no line. -/
theorem reportChar_ne_newline (c : Char) : reportChar c ≠ '\n' := by
  unfold reportChar
  split
  · decide
  · next plain => exact fun newline => plain (.inl newline)

/-- What is shown are the characters before the one in question, that one, and those behind
it. -/
theorem reportSlice_append (front : List Char) (offender : Char) (back : List Char) :
    reportSlice (front ++ offender :: back) front.length =
      (front.drop (front.length - reportReach) ++ offender :: back.take reportReach).map
        reportChar := by
  have start : front.length - reportReach ≤ front.length := Nat.sub_le _ _
  have before : (front.drop (front.length - reportReach)).length ≤
      front.length + reportReach + 1 - (front.length - reportReach) := by
    rw [List.length_drop]
    omega
  have others : front.length + reportReach + 1 - (front.length - reportReach) -
      (front.drop (front.length - reportReach)).length = reportReach + 1 := by
    rw [List.length_drop]
    omega
  rw [reportSlice, List.drop_append_of_le_length start, List.take_append,
    List.take_of_length_le before, others, List.take_succ_cons]

/-- The part of a program around a position, as a line. -/
def contextLine (code : String) (position : Nat) : String :=
  "  " ++ String.ofList (reportSlice code.toList position)

/-- The line with the caret. -/
def caretLine (position : Nat) : String :=
  "  " ++ String.ofList (List.replicate (min position reportReach) ' ') ++ "^"

theorem unbroken_contextLine (code : String) (position : Nat) :
    Unbroken (contextLine code position) := by
  refine unbroken_append.mpr ⟨by decide, unbroken_ofList.mpr fun member => ?_⟩
  obtain ⟨c, -, shown⟩ := List.mem_map.mp member
  exact reportChar_ne_newline c shown

theorem unbroken_caretLine (position : Nat) : Unbroken (caretLine position) := by
  refine unbroken_append.mpr ⟨unbroken_append.mpr ⟨by decide, unbroken_ofList.mpr ?_⟩, by decide⟩
  intro member
  exact absurd (List.eq_of_mem_replicate member) (by decide)

/-- A line that shows a part of a program, and one with a caret in the column where the first
shows the character at a position. -/
def PointsAt (code : String) (position : Nat) (context caret : String) : Prop :=
  ∃ (skipped left : List Char) (offender : Char) (right rest : List Char)
    (before : List Char) (shown : Char) (behind : List Char),
    code.toList = skipped ++ left ++ offender :: (right ++ rest) ∧
    (skipped ++ left).length = position ∧
    context.toList = [' ', ' '] ++ before ++ shown :: behind ∧
    List.Forall₂ ShownAs left before ∧ ShownAs offender shown ∧
    List.Forall₂ ShownAs right behind ∧
    caret.toList = List.replicate (before.length + 2) ' ' ++ ['^']

theorem pointsAt_caretLine {code : String} {position : Nat} {offender : Char}
    (read : code.toList[position]? = some offender) :
    PointsAt code position (contextLine code position) (caretLine position) := by
  obtain ⟨inside, here⟩ := List.getElem?_eq_some_iff.mp read
  let front := code.toList.take position
  let back := code.toList.drop (position + 1)
  have whole : code.toList = front ++ offender :: back := by
    rw [← here, ← List.drop_eq_getElem_cons inside, List.take_append_drop]
  have counted : front.length = position := List.length_take_of_le inside.le
  let left := front.drop (position - reportReach)
  have shown : left.length = min position reportReach := by
    simp only [left, List.length_drop, counted]
    omega
  refine ⟨front.take (position - reportReach), left, offender, back.take reportReach,
    back.drop reportReach, _, _, _, ?_, ?_, ?_, forall₂_shownAs_iff.mpr rfl, shownAs_iff.mpr rfl,
    forall₂_shownAs_iff.mpr rfl, ?_⟩
  · rw [List.take_append_drop, List.take_append_drop]
    exact whole
  · rw [List.take_append_drop, counted]
  · rw [contextLine, String.toList_append, String.toList_ofList, String.toList_ofList]
    have slice := reportSlice_append front offender back
    rw [← whole, counted, List.map_append, List.map_cons] at slice
    rw [slice, List.append_assoc]
  · rw [caretLine, String.toList_append, String.toList_append, String.toList_ofList,
      String.toList_ofList, List.length_map, shown]
    rfl

/-! ## The report -/

/-- The last two lines of a report. -/
def illustration (code : String) (position : Nat) : String :=
  contextLine code position ++ "\n" ++ (caretLine position ++ "\n")

theorem consistsOf_illustration (code : String) (position : Nat) :
    ConsistsOf (illustration code position) [contextLine code position, caretLine position] where
  spelled := by rw [illustration, List.map_cons, List.map_singleton, String.join_cons,
    String.join_cons, String.join_nil, String.append_empty]
  unbroken := List.forall_mem_cons.mpr ⟨unbroken_contextLine code position,
    List.forall_mem_singleton.mpr (unbroken_caretLine position)⟩

/-- A report is its label and the place, and those two lines. -/
theorem report_eq (label code : String) (position : Nat) :
    report label code position =
      label ++ " at position " ++ toString position ++ "\n" ++
        illustration code position := by
  have column : position - (position - reportReach) = min position reportReach := by omega
  rw [report, map_toList_reportPart, column, ← String.toList_inj]
  simp [illustration, contextLine, caretLine]

/-- A report is exact at every position, also behind the program. What it shows is cut out of
the bytes in order and between two characters, whatever the sizes of the characters are: it is
the characters up to 32 before the position and up to 32 behind it. The caret stands under the
character at the position if there is one. -/
theorem report_exact (label code : String) (position : Nat) :
    let start := Text.byteIndex code (position - 32)
    let stop := Text.byteIndex code (min code.length (position + 33))
    (start ≤ stop ∧ (String.Pos.Raw.mk start).IsValid code ∧
      (String.Pos.Raw.mk stop).IsValid code) ∧
    ∃ part, Text.slice? code start stop = some part ∧
      (∀ k, part.toList[k]? = if position - 32 + k < min code.length (position + 33) then
        code.toList[position - 32 + k]? else none) ∧
      part.length ≤ 65 ∧
      ∃ shown context caret, List.Forall₂ ShownAs part.toList shown ∧
        context = "  " ++ String.ofList shown ∧
        caret = "  " ++ String.ofList (List.replicate (min position 32) ' ') ++ "^" ∧
        report label code position =
          label ++ " at position " ++ toString position ++ "\n" ++
            (context ++ "\n" ++ (caret ++ "\n")) ∧
        (position < code.length → PointsAt code position context caret) := by
  intro start stop
  have cut : Text.slice? code start stop = some (reportPart code position) := by
    have whole : reportPart? code position = some (reportPart code position) :=
      (Option.some_get _).symm
    rwa [reportPart?, Nat.min_comm] at whole
  have characters : (reportPart code position).toList =
      (code.toList.take (position + 33)).drop (position - 32) := toList_reportPart code position
  have context : contextLine code position =
      "  " ++ String.ofList ((reportPart code position).toList.map reportChar) := by
    rw [contextLine, map_toList_reportPart]
  refine ⟨Text.valid_of_slice? cut, reportPart code position, cut, ?_, ?_,
    _, contextLine code position, caretLine position, forall₂_shownAs_iff.mpr rfl, context, rfl,
    report_eq label code position, ?_⟩
  · intro k
    rw [characters, List.getElem?_drop, List.getElem?_take]
    split
    · next near =>
      split
      · rfl
      · next outside =>
        refine List.getElem?_eq_none ?_
        rw [String.length_toList]
        omega
    · next far =>
      exact (if_neg fun inside => far (by omega)).symm
  · rw [← String.length_toList, characters, List.length_drop, List.length_take]
    omega
  · intro inside
    have read : code.toList[position]? = some code.toList[position] :=
      List.getElem?_eq_getElem (String.length_toList ▸ inside)
    exact pointsAt_caretLine read

/-- Among characters of all lengths, a tab and a carriage return are shown as spaces, and the caret
is under the character behind them. -/
theorem report_exact_behind_breaks :
    let code := "é\t日\r😀x"
    Text.slice? code 0 12 = some code ∧
      report "m" code 4 = "m at position 4\n  é 日 😀x\n      ^\n" ∧
      PointsAt code 4 "  é 日 😀x" "      ^" := by
  intro code
  obtain ⟨-, part, cut, -, -, shown, context, caret, shows, context_eq, caret_eq, written, points⟩ :=
    report_exact "m" code 4
  have whole : Text.slice? code (Text.byteIndex code (4 - 32))
      (Text.byteIndex code (min code.length (4 + 33))) = some code := by decide
  obtain rfl : code = part := Option.some.inj (whole.symm.trans cut)
  obtain rfl := forall₂_shownAs_iff.mp shows
  have context_is : context = "  é 日 😀x" := context_eq.trans (by decide)
  have caret_is : caret = "      ^" := caret_eq.trans (by decide)
  rw [context_is, caret_is] at written points
  exact ⟨by decide, written.trans (by decide), points (by decide)⟩

/-- What stands before the wording of an error. -/
def opening (reporter : Option String) : String :=
  match reporter with
  | some name => name ++ ": "
  | none => ""

/-- A report is the wording of the error and the place, and the last two lines. -/
theorem errorReport_eq (reporter : Option String) (code : String) (e : ExecutionError) :
    errorReport reporter code e =
      opening reporter ++ errorLabel e ++ " at position " ++ toString e.position ++ "\n" ++
        illustration code e.position := by
  have unfolded : errorReport reporter code e =
      report (opening reporter ++ errorLabel e) code e.position := rfl
  rw [unfolded, report_eq]

theorem unbroken_opening {reporter : Option String}
    (named : ∀ name ∈ reporter, Unbroken name) : Unbroken (opening reporter) := by
  cases reporter with
  | none => decide
  | some name => exact unbroken_append.mpr ⟨named name rfl, by decide⟩

/-- The wording of an error has no newline, unless it names one. -/
theorem unbroken_errorLabel {e : ExecutionError} (plain : e ≠ .unknownCommand '\n' e.position) :
    Unbroken (errorLabel e) := by
  cases e with
  | unknownCommand name position =>
    have named : Unbroken name.toString := by
      have other : name ≠ '\n' := fun newline => plain (newline ▸ rfl)
      simpa [Unbroken] using other.symm
    exact unbroken_append.mpr ⟨unbroken_append.mpr ⟨by decide, named⟩, by decide⟩
  | unmatchedOpen position => exact (by decide : Unbroken (errorLabel (.unmatchedOpen 0)))
  | unmatchedClose position => exact (by decide : Unbroken (errorLabel (.unmatchedClose 0)))

end Execution

namespace Interpreter

open Execution

variable {i after : Interpreter} {code : String} {e : ExecutionError}

/-- An error is met at a character of the program, and it names a newline if it is met at
one. -/
theorem Executes.exists_offender (executed : i.Executes code (.error e) after) :
    ∃ offender, code.toList[e.position]? = some offender ∧
      (offender = '\n' ↔ e = .unknownCommand '\n' e.position) := by
  obtain ⟨n, c, -, last, -⟩ := executes_iff.mp executed
  cases last with
  | unmatchedOpen read alone =>
    exact ⟨loopOpen, read, iff_of_false (by decide) fun same => nomatch same⟩
  | unmatchedClose read calls =>
    exact ⟨loopClose, read, iff_of_false (by decide) fun same => nomatch same⟩
  | unknown name read unresolved ne_open ne_close =>
    refine ⟨name, read, fun newline => newline ▸ rfl, fun same => ?_⟩
    exact (ExecutionError.unknownCommand.inj same).1

/-- The report of an error that ended an execution. The caret stands in the column of the
character that the error is about. The report has three lines, and the first tells the place;
but if that character is a newline, the first line is broken in front of the apostrophe that
follows it, and what tells the place is a line of its own. -/
theorem errorReport_lines {reporter : Option String}
    (executed : i.Executes code (.error e) after) (named : ∀ name ∈ reporter, Unbroken name) :
    ∃ context caret, PointsAt code e.position context caret ∧
      (code.toList[e.position]? ≠ some '\n' → ∃ label,
        ConsistsOf (errorReport reporter code e)
          [label ++ " at position " ++ toString e.position, context, caret]) ∧
      (code.toList[e.position]? = some '\n' → ∃ label,
        ConsistsOf (errorReport reporter code e)
          [label, "' at position " ++ toString e.position, context, caret]) := by
  obtain ⟨offender, read, newline_iff⟩ := executed.exists_offender
  have consists := consistsOf_illustration code e.position
  have opened := unbroken_opening named
  refine ⟨contextLine code e.position, caretLine e.position, pointsAt_caretLine read,
    fun plain => ⟨opening reporter ++ errorLabel e, ?_⟩,
    fun newline => ⟨opening reporter ++ "Syntax error: unknown command '", ?_⟩⟩
  · have label : Unbroken (errorLabel e) := unbroken_errorLabel fun named =>
      plain (newline_iff.mpr named ▸ read)
    have wording : Unbroken (opening reporter ++ errorLabel e ++ " at position ") :=
      unbroken_append.mpr ⟨unbroken_append.mpr ⟨opened, label⟩, by decide⟩
    rw [errorReport_eq]
    exact consists.cons (unbroken_append.mpr ⟨wording, unbroken_toString _⟩)
  · rw [read, Option.some.injEq] at newline
    have broken : errorReport reporter code e =
        opening reporter ++ "Syntax error: unknown command '" ++ "\n" ++
          ("' at position " ++ toString e.position ++ "\n" ++
            illustration code e.position) := by
      have label : errorLabel e = "Syntax error: unknown command '" ++ "\n" ++ "'" :=
        (congrArg errorLabel (newline_iff.mp newline)).trans rfl
      have quoted : "' at position " = "'" ++ " at position " := by decide
      rw [errorReport_eq, label, quoted]
      simp only [String.append_assoc]
    rw [broken]
    exact (consists.cons (unbroken_append.mpr ⟨by decide, unbroken_toString _⟩)).cons
      (unbroken_append.mpr ⟨opened, by decide⟩)

/-- A newline in a loop that is skipped is no more than a space in the report. -/
theorem errorReport_lines_behind_newline :
    let i := ofTape (.blank 1 .byte (by decide)) .collecting (.stream [])
    let e := ExecutionError.unknownCommand 'x' 3
    ∃ after, i.Executes "[\n]x" (.error e) after ∧
      ∃ context caret label, PointsAt "[\n]x" 3 context caret ∧
        ConsistsOf (errorReport none "[\n]x" e)
          [label ++ " at position " ++ toString 3, context, caret] := by
  intro i e
  have ended : (i.execute 2 "[\n]x").map Prod.fst = some (.error e) := by decide
  obtain ⟨⟨_, after⟩, executed, rfl⟩ := Option.map_eq_some_iff.mp ended
  have executes : i.Executes "[\n]x" (.error e) after := ⟨2, executed⟩
  obtain ⟨context, caret, points, three, -⟩ :=
    @errorReport_lines i after _ e none executes (fun _ named => nomatch named)
  obtain ⟨label, consists⟩ := three (by decide)
  exact ⟨after, executes, context, caret, label, points, consists⟩

/-- The newline at the end of an ordinary file is no command. Its report has four lines. -/
theorem four_lines_of_newline :
    let i := ofTape (.blank 1 .unbounded (by decide)) .collecting (.stream [])
    let e := ExecutionError.unknownCommand '\n' 2
    (∃ after, i.Executes "+.\n" (.error e) after) ∧ Unbroken "tapebf" ∧
      ¬ ∃ first context caret,
        ConsistsOf (errorReport (some "tapebf") "+.\n" e) [first, context, caret] := by
  intro i e
  have ended : (i.execute 3 "+.\n").map Prod.fst = some (.error e) := by decide
  obtain ⟨⟨_, after⟩, executed, rfl⟩ := Option.map_eq_some_iff.mp ended
  refine ⟨⟨after, 3, executed⟩, by decide, ?_⟩
  rintro ⟨first, context, caret, consists⟩
  have broken : (errorReport (some "tapebf") "+.\n" e).toList.count '\n' = 4 := by decide
  have lines := consists.count_newline
  rw [broken] at lines
  cases lines

end Interpreter

end RingTape
