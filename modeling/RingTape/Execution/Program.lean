/-
# Programs and their loops

A program is a sequence of characters; positions count characters from 0. The
closing marker of a loop is found by counting: it is the first one after the
opening marker at which as many loops were closed as were opened since.
-/

import RingTape.Command.Registry
import RingTape.Execution.Error

namespace RingTape

/-- The characters of a program. -/
abbrev Program := Array Char

namespace Program

/-- The program that a text spells. -/
def ofString (code : String) : Program := code.toList.toArray

/-- Look from `index` on, through at most `left` characters, for the marker that
closes one more loop than is opened. `depth` counts the inner loops still open. -/
def closeFrom (program : Program) : (left depth index : Nat) → Option Nat
  | 0, _, _ => none
  | left + 1, depth, index =>
    match program[index]? with
    | none => none
    | some c =>
      if c = loopOpen then closeFrom program left (depth + 1) (index + 1)
      else if c = loopClose then
        match depth with
        | 0 => some index
        | depth + 1 => closeFrom program left depth (index + 1)
      else closeFrom program left depth (index + 1)

/-- The position of the marker that closes the loop opened at `start`, if there is
one before the program ends. The character at `start` itself is not looked at. -/
def matchingClose (program : Program) (start : Nat) : Option Nat :=
  closeFrom program (program.size - (start + 1)) 0 (start + 1)

/-- The same with an error for a loop that nothing closes. -/
def findClose (program : Program) (start : Nat) : Except ExecutionError Nat :=
  match matchingClose program start with
  | some close => .ok close
  | none => .error (.unmatchedOpen start)

end Program

/-- The characters that the language itself gives a meaning: its built-in commands and
the loop markers. -/
def instructions : List Char := ['>', '<', '+', '-', '.', ',', '[', ']']

/-- Those are the names of the built-in commands and the two markers, and no others. -/
theorem mem_instructions_iff (c : Char) :
    c ∈ instructions ↔ Registry.isBuiltin c ∨ c = loopOpen ∨ c = loopClose := by
  unfold Registry.isBuiltin Builtin.ofSymbol?
  split <;> simp_all [instructions, loopOpen, loopClose]

/-- Whether a character can mean something beside the given custom names. -/
def isInstruction (custom : List Char) (c : Char) : Bool :=
  instructions.contains c || custom.contains c

/-- A text without the characters that can mean nothing. -/
def instructionsOnly (text : String) (custom : List Char) : String :=
  String.ofList (text.toList.filter (isInstruction custom))

end RingTape
