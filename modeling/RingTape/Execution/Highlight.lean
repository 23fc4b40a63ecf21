/-
# Highlighting

Every character of a line plays one role, and every role has a style. A line is read
once from its beginning and cut into the longest runs of characters of the same role;
joined, the parts give the line back. The characters with the role of a comment are
those that filtering a text for instructions drops.
-/

import RingTape.Execution.Program

namespace RingTape

/-- What a character does. -/
inductive Role
  | builtin (b : Builtin)
  | loop
  | custom
  | comment
  deriving DecidableEq, Repr

/-- A colour in three bytes of red, green and blue. -/
structure Colour where
  red : Nat
  green : Nat
  blue : Nat
  deriving DecidableEq, Repr

/-- How text is shown. -/
structure Style where
  colour : Colour
  bold : Bool
  deriving DecidableEq, Repr

namespace Role

/-- The role of a character among custom names. -/
def of (custom : List Char) (c : Char) : Role :=
  match Builtin.ofSymbol? c with
  | some b => .builtin b
  | none =>
    if c = loopOpen ∨ c = loopClose then .loop
    else if custom.contains c then .custom
    else .comment

/-- The colour of a role. -/
def colour : Role → Colour
  | .builtin .right => ⟨137, 220, 235⟩
  | .builtin .left => ⟨148, 226, 213⟩
  | .builtin .increment => ⟨166, 227, 161⟩
  | .builtin .decrement => ⟨243, 139, 168⟩
  | .builtin .output => ⟨249, 226, 175⟩
  | .builtin .input => ⟨250, 179, 135⟩
  | .loop => ⟨203, 166, 247⟩
  | .custom => ⟨137, 180, 250⟩
  | .comment => ⟨108, 112, 134⟩

/-- The style of a role. Only comments are not bold. -/
def style (r : Role) : Style := ⟨r.colour, r ≠ .comment⟩

end Role

/-- A line that is being highlighted: the parts that are complete, and the run of characters
of one role that was begun last, if any was. -/
structure Highlighting where
  parts : List (Role × List Char) := []
  run : Option (Role × List Char) := none

namespace Highlighting

/-- Take one more character. It goes on with the run if it has its role. Otherwise that run
is complete, and the character begins another one. -/
def push (custom : List Char) (h : Highlighting) (c : Char) : Highlighting :=
  let role := Role.of custom c
  match h.run with
  | some (current, text) =>
    if current = role then { h with run := some (current, text ++ [c]) }
    else { parts := h.parts ++ [(current, text)], run := some (role, [c]) }
  | none => { h with run := some (role, [c]) }

theorem push_of_eq {custom : List Char} {role : Role} {c : Char}
    (parts : List (Role × List Char)) (text : List Char) (same : role = Role.of custom c) :
    push custom ⟨parts, some (role, text)⟩ c = ⟨parts, some (role, text ++ [c])⟩ := if_pos same

theorem push_of_ne {custom : List Char} {role : Role} {c : Char}
    (parts : List (Role × List Char)) (text : List Char) (other : role ≠ Role.of custom c) :
    push custom ⟨parts, some (role, text)⟩ c =
      ⟨parts ++ [(role, text)], some (Role.of custom c, [c])⟩ := if_neg other

/-- The parts at the end of the line, which completes the last run as well. -/
def close (h : Highlighting) : List (Role × List Char) := h.parts ++ h.run.toList

end Highlighting

/-- The parts of a line with their roles, in order. -/
def highlight (custom : List Char) (line : List Char) : List (Role × List Char) :=
  (line.foldl (Highlighting.push custom) {}).close

/-- The parts of a line in the styles that they are shown in. -/
def styled (custom : List Char) (line : String) : List (Style × String) :=
  (highlight custom line.toList).map fun part => (part.1.style, String.ofList part.2)

end RingTape
