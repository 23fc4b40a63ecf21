/-
# TOML documents

Reading a document takes two steps. The text is cut into statements; then the
statements are carried out one after the other on an empty table. A table is
defined once: a header may open a table that so far was only implied, dotted keys
extend only tables that dotted keys made, and what stands between braces is
closed. Anything else that meets an existing name is refused.
-/

import RingTape.Main.Toml.Scalar

namespace RingTape.Toml

/-! ## Tables -/

/-- Put a value in the place of the one under a name. -/
def replace (name : String) (value : Value) (entries : Entries) : Entries :=
  entries.map fun entry => if entry.1 = name then (name, value) else entry

/-- What is done to a table, given how the table came about. -/
abbrev Change := Origin → Entries → Option (Origin × Entries)

/-- Follow names down from a table and change the table reached. Missing tables on
the way are made. With `dotted`, the names are those of a dotted key, which passes
through no table that has a header of its own and through no array. -/
def follow (dotted : Bool) (change : Change) : Key → Change
  | [], origin, entries => change origin entries
  | name :: names, origin, entries =>
    match entries.lookup name with
    | none => do
      let fresh := if dotted then .dotted else .implied
      let (o, es) ← follow dotted change names fresh []
      some (origin, entries ++ [(name, .table o es)])
    | some (.table .inline _) => none
    | some (.table o es) =>
      if dotted ∧ o = .header then none
      else do
        let (o, es) ← follow dotted change names o es
        some (origin, replace name (.table o es) entries)
    | some (.tables earlier last) =>
      if dotted then none
      else do
        let (_, es) ← follow dotted change names .header last
        some (origin, replace name (.tables earlier es) entries)
    | some _ => none

/-- Add an entry to a table, at a key relative to it. -/
def addEntry (key : Key) (value : Value) : Change := fun origin entries =>
  match key.reverse with
  | [] => none
  | name :: path =>
    follow true (fun origin entries =>
      if (origin == .dotted) == path.isEmpty then none
      else if (entries.lookup name).isSome then none
      else some (origin, entries ++ [(name, value)])) path.reverse origin entries

/-- Open the table of a header. -/
def openTable (key : Key) : Change := fun origin entries =>
  match key.reverse with
  | [] => none
  | name :: path =>
    follow false (fun origin entries =>
      match entries.lookup name with
      | none => some (origin, entries ++ [(name, .table .header [])])
      | some (.table .implied es) => some (origin, replace name (.table .header es) entries)
      | some _ => none) path.reverse origin entries

/-- Open one more table of an array of tables. -/
def openArray (key : Key) : Change := fun origin entries =>
  match key.reverse with
  | [] => none
  | name :: path =>
    follow false (fun origin entries =>
      match entries.lookup name with
      | none => some (origin, entries ++ [(name, .tables [] [])])
      | some (.tables earlier last) =>
        some (origin, replace name (.tables (.table .header last :: earlier) []) entries)
      | some _ => none) path.reverse origin entries

/-- The items of an array of tables. -/
def tableItems (earlier : List Value) (last : Entries) : List Value :=
  earlier.reverse ++ [.table .header last]

/-- A document that is being read: its entries and the key of the open table. -/
structure Draft where
  entries : Entries := []
  here : Key := []

/-- Carry out a statement. -/
def Draft.perform (d : Draft) : Statement → Option Draft
  | .header key => (openTable key .header d.entries).map fun r => ⟨r.2, key⟩
  | .arrayHeader key => (openArray key .header d.entries).map fun r => ⟨r.2, key⟩
  | .entry key value =>
    (follow false (addEntry key value) d.here .header d.entries).map fun r => ⟨r.2, d.here⟩

/-! ## Statements -/

/-- Take items with commas between them and perhaps one at the end, up to a closing
character. There are at most `fuel` of them. -/
def items {α : Type} (item : Reader α) (close : Char) : Nat → Reader (List α)
  | 0, _ => none
  | fuel + 1, cs =>
    match skipSpace cs with
    | [] => none
    | c :: rest =>
      if c = close then some ([], rest)
      else do
        let (first, rest) ← item (c :: rest)
        match skipSpace rest with
        | ',' :: rest =>
          let (others, rest) ← items item close fuel rest
          some (first :: others, rest)
        | d :: rest => if d = close then some ([first], rest) else none
        | [] => none

/-- Take a key, an equals sign and a value. -/
def keyValue (value : Reader Value) : Reader (Key × Value) := fun cs => do
  let (k, rest) ← key cs
  let rest ← separator '=' (skipBlanks rest)
  let (v, rest) ← value (skipBlanks rest)
  some ((k, v), rest)

/-- The table between braces that has the given entries. -/
def inlineTable (pairs : List (Key × Value)) : Option Value := do
  let (origin, entries) ← pairs.foldlM
    (fun (origin, entries) (k, v) => addEntry k v origin entries) (Origin.inline, [])
  some (.table origin entries)

/-- How deep arrays and tables may stand inside each other. -/
def maxDepth : Nat := 80

/-- Take a value with at most `depth` arrays and tables inside each other. -/
def value : (depth : Nat) → Reader Value
  | depth, cs =>
    match depth, cs with
    | depth + 1, '[' :: rest => do
      let (vs, rest) ← items (value depth) ']' (rest.length + 1) rest
      some (.array vs, rest)
    | depth + 1, '\x7b' :: rest => do
      let (pairs, rest) ← items (keyValue (value depth)) '\x7d' (rest.length + 1) rest
      let table ← inlineTable pairs
      some (table, rest)
    | _, c :: rest =>
      if c = '"' ∨ c = singleQuote then do
        let (s, rest) ← anyString (c :: rest)
        some (.string s, rest)
      else scalar (c :: rest)
    | _, [] => none

/-- Take a statement, without the end of its line. -/
def statement : Reader Statement
  | '[' :: '[' :: rest => do
    let (k, rest) ← key (skipBlanks rest)
    let rest ← separator ']' (skipBlanks rest)
    let rest ← separator ']' rest
    some (.arrayHeader k, rest)
  | '[' :: rest => do
    let (k, rest) ← key (skipBlanks rest)
    let rest ← separator ']' (skipBlanks rest)
    some (.header k, rest)
  | cs => do
    let ((k, v), rest) ← keyValue (value maxDepth) cs
    some (.entry k v, rest)

/-- All of a text as statements, of which there are at most `fuel`. -/
def statements : Nat → List Char → Option (List Statement)
  | 0, _ => none
  | fuel + 1, cs =>
    match skipSpace cs with
    | [] => some []
    | cs => do
      let (first, rest) ← statement cs
      let rest ← endOfLine? rest
      let others ← statements fuel rest
      some (first :: others)

/-- A text without the byte-order mark at its front. -/
def dropMark : List Char → List Char
  | '\uFEFF' :: rest => rest
  | cs => cs

/-- The entries of the document that a text is, if it is one. -/
def document? (text : String) : Option Entries := do
  let cs := dropMark text.toList
  let all ← statements (cs.length + 1) cs
  let draft ← all.foldlM Draft.perform {}
  some draft.entries

end RingTape.Toml
