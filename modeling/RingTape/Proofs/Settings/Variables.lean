/-
# What the variables say

Each of the four settings has a variable. The text of a variable, without the blanks around it,
means a value or is objected to, and which of the two depends on the text alone: a size is a
number in digits that fits into a word of 64 bits, a choice is one of two names in letters of
either case, and a truth value is spelled in one of two ways.

The reader of a variable finds the value that its text means and, where it means none, the
objection to it. So the environment as a whole gives for every setting what its variable means,
and notes the objections in the order of the settings.
-/

import Mathlib.Data.List.Basic
import RingTape.Proofs.Text.Blank
import RingTape.Proofs.Text.Numeral
import RingTape.Settings.Environment

namespace RingTape

open Text (IsCore trimList)

/-- The settings, each by its name. -/
inductive Setting
  | tapeSize
  | cellMode
  | output
  | extensions
  deriving DecidableEq, Repr

namespace Setting

/-- The order in which the environment is asked for them. -/
def all : List Setting := [.tapeSize, .cellMode, .output, .extensions]

/-- What a setting can be set to. -/
def Value : Setting → Type
  | tapeSize => Nat
  | cellMode => CellMode
  | output => OutputFormat
  | extensions => Bool

/-- The variable that gives a setting. -/
def key : Setting → String
  | tapeSize => "TAPEBF_TAPE_SIZE"
  | cellMode => "TAPEBF_CELL_MODE"
  | output => "TAPEBF_OUTPUT"
  | extensions => "TAPEBF_EXTENSIONS"

/-- What a word means as a value of a setting. Names may have capitals, truth values may not. -/
inductive Means : (s : Setting) → (word : List Char) → s.Value → Prop
  | size {word : List Char} {size : Nat} (spelled : Decimal.Unsigned word size)
      (fits : size < UInt64.size) : Means tapeSize word size
  | unbounded {word : List Char} (spelled : word.map Char.toLower = "unbounded".toList) :
      Means cellMode word CellMode.unbounded
  | byte {word : List Char} (spelled : word.map Char.toLower = "byte".toList) :
      Means cellMode word CellMode.byte
  | numbers {word : List Char} (spelled : word.map Char.toLower = "numbers".toList) :
      Means output word OutputFormat.numbers
  | ascii {word : List Char} (spelled : word.map Char.toLower = "ascii".toList) :
      Means output word OutputFormat.ascii
  | on {word : List Char} (spelled : word = "1".toList ∨ word = "true".toList) :
      Means extensions word true
  | off {word : List Char} (spelled : word = "0".toList ∨ word = "false".toList) :
      Means extensions word false

/-- What is said against a word that means no value of a setting. A word that begins with a size
beyond the limit is found too large before anything behind that is looked at. -/
inductive Objects : Setting → (word : List Char) → String → Prop
  | noSize : Objects tapeSize [] "cannot parse integer from empty string"
  | largeSize {front back : List Char} {size : Nat} (spelled : Decimal.Unsigned front size)
      (large : UInt64.size ≤ size) :
      Objects tapeSize (front ++ back) "number too large to fit in target type"
  | notSize {word : List Char} (nonempty : word ≠ [])
      (fits : ∀ front size, front <+: word → Decimal.Unsigned front size → size < UInt64.size) :
      Objects tapeSize word "invalid digit found in string"
  | notMode {word : List Char} : Objects cellMode word
      ("invalid cell mode '" ++ String.ofList (word.map Char.toLower) ++
        "', must be 'unbounded' or 'byte'")
  | notFormat {word : List Char} : Objects output word
      ("invalid output format '" ++ String.ofList (word.map Char.toLower) ++
        "', must be 'numbers' or 'ascii'")
  | notSwitch {word : List Char} : Objects extensions word
      ("expected 1/0/true/false, got '" ++ String.ofList word ++ "'")

/-- A warning in a log: its message and its fields. -/
abbrev Warning := String × List (String × FieldValue)

/-- What is told of a setting by the environment, and the warning that this gives rise to. A
variable that is not set tells nothing, and neither does one that cannot be used, which is warned
of. -/
inductive Told (env : Environment) (s : Setting) : Option s.Value → Option Warning → Prop
  | unset (absent : env s.key = none) : Told env s none none
  | valid {text : String} {word : List Char} {value : s.Value} (set : env s.key = some text)
      (core : IsCore text.toList word) (means : s.Means word value) : Told env s (some value) none
  | invalid {text : String} {word : List Char} {reason : String} (set : env s.key = some text)
      (core : IsCore text.toList word) (meaningless : ∀ value, ¬ s.Means word value)
      (objects : s.Objects word reason) :
      Told env s none (some ("ignoring environment variable",
        [("key", .quoted s.key), ("value", .plain text), ("error", .plain reason)]))

/-! ## The meaning of a word -/

variable {s : Setting} {word : List Char} {value value' : s.Value} {reason reason' : String}

/-- A word means one value at most. -/
theorem Means.unique (means : s.Means word value) (other : s.Means word value') :
    value' = value := by
  cases means with
  | size spelled => cases other with | size spelled' => exact spelled.unique spelled'
  | unbounded spelled =>
    cases other with
    | unbounded => rfl
    | byte spelled' => exact absurd (spelled.symm.trans spelled') (by decide)
  | byte spelled =>
    cases other with
    | unbounded spelled' => exact absurd (spelled.symm.trans spelled') (by decide)
    | byte => rfl
  | numbers spelled =>
    cases other with
    | numbers => rfl
    | ascii spelled' => exact absurd (spelled.symm.trans spelled') (by decide)
  | ascii spelled =>
    cases other with
    | numbers spelled' => exact absurd (spelled.symm.trans spelled') (by decide)
    | ascii => rfl
  | on spelled =>
    cases other with
    | on => rfl
    | off spelled' => rcases spelled with rfl | rfl <;> exact absurd spelled' (by decide)
  | off spelled =>
    cases other with
    | on spelled' => rcases spelled with rfl | rfl <;> exact absurd spelled' (by decide)
    | off => rfl

/-- There is one objection to it at most. -/
theorem Objects.unique (objects : s.Objects word reason) (other : s.Objects word reason') :
    reason' = reason := by
  have long {front back : List Char} {size : Nat} (spelled : Decimal.Unsigned front size) :
      front ++ back ≠ [] := List.append_ne_nil_of_left_ne_nil spelled.ne_nil back
  generalize found : word = same at other
  cases objects with
  | noSize =>
    cases other with
    | noSize => rfl
    | largeSize spelled => exact absurd found.symm (long spelled)
    | notSize nonempty => exact absurd found.symm nonempty
  | @largeSize front back size spelled large =>
    cases other with
    | noSize => exact absurd found (long spelled)
    | largeSize => rfl
    | notSize _ fits =>
      exact absurd (fits front size (found ▸ List.prefix_append front back) spelled) (by omega)
  | notSize nonempty fits =>
    cases other with
    | noSize => exact absurd found nonempty
    | @largeSize front back size spelled large =>
      exact absurd (fits front size (found ▸ List.prefix_append front back) spelled) (by omega)
    | notSize => rfl
  | notMode | notFormat | notSwitch =>
    cases other
    rw [found]

/-! ## The readers -/

/-- How the text of a variable is read. -/
def parse : (s : Setting) → String → Except String s.Value
  | tapeSize => readSize
  | cellMode => CellMode.read
  | output => OutputFormat.read
  | extensions => readSwitch

theorem ofList_eq_iff {cs : List Char} {text : String} :
    String.ofList cs = text ↔ cs = text.toList := by
  rw [← String.toList_inj, String.toList_ofList]

/-- In lower case a trimmed text is the word in lower case. -/
theorem map_trim (text : String) (f : Char → Char) :
    (Text.trim text).map f = String.ofList ((trimList text.toList).map f) := by
  rw [← String.toList_inj, String.toList_map, Text.trim, String.toList_ofList, String.toList_ofList]

/-- What a text is read as, by the word that it is around. -/
inductive Reads (s : Setting) (word : List Char) : Except String s.Value → Prop
  | value {value : s.Value} (means : s.Means word value) : Reads s word (.ok value)
  | objection {reason : String} (meaningless : ∀ value, ¬ s.Means word value)
      (objects : s.Objects word reason) : Reads s word (.error reason)

/-- A size is read by the grammar of numbers. -/
theorem reads_readSize (text : String) :
    Reads tapeSize (trimList text.toList) (readSize text) := by
  have read : readSize text = (Decimal.readNatural Decimal.maxSize
      (trimList text.toList)).mapError Decimal.ReadError.message := by
    rw [readSize, Decimal.size?, Text.trim, String.toList_ofList]
  have limit : UInt64.size = Decimal.maxSize + 1 := rfl
  have meaningless {e : Decimal.ReadError}
      (failed : Decimal.readNatural Decimal.maxSize (trimList text.toList) = .error e)
      (value : tapeSize.Value) : ¬ tapeSize.Means (trimList text.toList) value := by
    rintro ⟨spelled, fits⟩
    rw [Decimal.readNatural_eq_ok_iff.mpr ⟨spelled, by omega⟩] at failed
    cases failed
  rw [read]
  cases result : Decimal.readNatural Decimal.maxSize (trimList text.toList) with
  | ok size =>
    obtain ⟨spelled, fits⟩ := Decimal.readNatural_eq_ok_iff.mp result
    exact .value (.size spelled (by omega))
  | error e =>
    refine .objection (meaningless result) ?_
    cases e with
    | empty =>
      rw [Decimal.eq_nil_of_readNatural_eq_empty result]
      exact .noSize
    | tooLarge =>
      obtain ⟨front, back, size, cut, spelled, large⟩ :=
        Decimal.exists_of_readNatural_eq_tooLarge result
      rw [cut]
      exact .largeSize spelled (by omega)
    | invalidDigit =>
      obtain ⟨nonempty, fits⟩ := Decimal.le_of_readNatural_eq_invalidDigit result
      exact .notSize nonempty fun front size begins spelled => by
        have := fits front size begins spelled
        omega

/-- A reader that knows two values, each by some words, and objects to all other words. -/
theorem reads_ite {one other : Prop} [Decidable one] [Decidable other]
    (first : one → s.Means word value) (second : other → s.Means word value')
    (only : ∀ value, s.Means word value → one ∨ other) (objects : s.Objects word reason) :
    Reads s word
      (if one then .ok value else if other then .ok value' else .error reason) := by
  split
  · next holds => exact .value (first holds)
  · next fails =>
    split
    · next holds => exact .value (second holds)
    · next fails' =>
      exact .objection (fun value means => (only value means).elim fails fails') objects

/-- A mode is read by its name. -/
theorem reads_readMode (text : String) :
    Reads cellMode (trimList text.toList) (CellMode.read text) := by
  have read : CellMode.read text =
      if (trimList text.toList).map Char.toLower = "unbounded".toList then .ok .unbounded
      else if (trimList text.toList).map Char.toLower = "byte".toList then .ok .byte
      else .error ("invalid cell mode '" ++
        String.ofList ((trimList text.toList).map Char.toLower) ++
          "', must be 'unbounded' or 'byte'") := by
    simp only [CellMode.read, CellMode.ofName?, map_trim, ofList_eq_iff]
    split_ifs <;> rfl
  rw [read]
  refine reads_ite .unbounded .byte (fun value means => ?_) .notMode
  cases means with
  | unbounded spelled => exact .inl spelled
  | byte spelled => exact .inr spelled

/-- A format is read in the same way. -/
theorem reads_readFormat (text : String) :
    Reads output (trimList text.toList) (OutputFormat.read text) := by
  have read : OutputFormat.read text =
      if (trimList text.toList).map Char.toLower = "numbers".toList then .ok .numbers
      else if (trimList text.toList).map Char.toLower = "ascii".toList then .ok .ascii
      else .error ("invalid output format '" ++
        String.ofList ((trimList text.toList).map Char.toLower) ++
          "', must be 'numbers' or 'ascii'") := by
    simp only [OutputFormat.read, OutputFormat.ofName?, map_trim, ofList_eq_iff]
    split_ifs <;> rfl
  rw [read]
  refine reads_ite .numbers .ascii (fun value means => ?_) .notFormat
  cases means with
  | numbers spelled => exact .inl spelled
  | ascii spelled => exact .inr spelled

/-- A truth value is read as it is spelled. -/
theorem reads_readSwitch (text : String) :
    Reads extensions (trimList text.toList) (readSwitch text) := by
  rw [readSwitch, Text.trim]
  simp only [ofList_eq_iff]
  refine reads_ite .on .off (fun value means => ?_) .notSwitch
  cases means with
  | on spelled => exact .inl spelled
  | off spelled => exact .inr spelled

/-- Every variable is read as what its text means, or is objected to where that is nothing. -/
theorem reads_parse (s : Setting) (text : String) :
    Reads s (trimList text.toList) (s.parse text) := by
  cases s with
  | tapeSize => exact reads_readSize text
  | cellMode => exact reads_readMode text
  | output => exact reads_readFormat text
  | extensions => exact reads_readSwitch text

/-- A text around a word that means a value is read as the value, -/
theorem parse_of_means {text : String} (core : IsCore text.toList word)
    (means : s.Means word value) : s.parse text = .ok value := by
  have reads := reads_parse s text
  rw [← core.eq_trimList] at reads
  generalize s.parse text = result at reads ⊢
  cases reads with
  | value means' => rw [means.unique means']
  | objection meaningless => exact absurd means (meaningless value)

/-- and one around a word that means none is objected to. -/
theorem parse_of_objects {text : String} (core : IsCore text.toList word)
    (meaningless : ∀ value, ¬ s.Means word value) (objects : s.Objects word reason) :
    s.parse text = .error reason := by
  have reads := reads_parse s text
  rw [← core.eq_trimList] at reads
  generalize s.parse text = result at reads ⊢
  cases reads with
  | value means => exact absurd means (meaningless _)
  | objection _ objects' => rw [objects.unique objects']

/-! ## The environment -/

variable {env : Environment} {found : Option s.Value} {complaint : Option Warning}

/-- What is read of a variable gives a value, -/
theorem read_of_ok {text : String} (set : env s.key = some text)
    (reads : s.parse text = .ok value) : env.read s.key s.parse = (some value, []) := by
  simp only [Environment.read, set, reads]

/-- or is noted. -/
theorem read_of_error {text : String} (set : env s.key = some text)
    (reads : s.parse text = .error reason) :
    env.read s.key s.parse = (none, [.variableIgnored s.key text reason]) := by
  simp only [Environment.read, set, reads]

/-- What is warned of by an event. -/
def warning (event : Event) : Warning := (event.message, event.fields)

/-- A text that is read as a value means it, -/
theorem told_of_ok {text : String} (set : env s.key = some text)
    (reads_as : s.parse text = .ok value) : s.Told env (some value) none := by
  have reads := reads_parse s text
  rw [reads_as] at reads
  cases reads with
  | value means => exact .valid set (Text.isCore_trimList text.toList) means

/-- and what is said when it cannot be read is the objection to it. -/
theorem told_of_error {text : String} (set : env s.key = some text)
    (failed : s.parse text = .error reason) :
    s.Told env none (some ("ignoring environment variable",
      [("key", .quoted s.key), ("value", .plain text), ("error", .plain reason)])) := by
  have reads := reads_parse s text
  rw [failed] at reads
  cases reads with
  | objection meaningless objects =>
    exact .invalid set (Text.isCore_trimList text.toList) meaningless objects

/-- Of every setting there is something to be told, or nothing. -/
theorem exists_told (env : Environment) (s : Setting) :
    ∃ found complaint, s.Told env found complaint := by
  cases set : env s.key with
  | none => exact ⟨none, none, .unset set⟩
  | some text =>
    cases reads_as : s.parse text with
    | ok value => exact ⟨_, _, told_of_ok set reads_as⟩
    | error reason => exact ⟨_, _, told_of_error set reads_as⟩

/-- What is told is what is read, and what is noted of it is the warning. -/
theorem Told.read_eq (told : s.Told env found complaint) :
    (env.read s.key s.parse).1 = found ∧
      (env.read s.key s.parse).2.map warning = complaint.toList ∧
      ∀ event ∈ (env.read s.key s.parse).2, event.level = .warn := by
  cases told with
  | unset absent =>
    rw [Environment.read, absent]
    exact ⟨rfl, rfl, List.forall_mem_nil _⟩
  | valid set core means =>
    rw [read_of_ok set (parse_of_means core means)]
    exact ⟨rfl, rfl, List.forall_mem_nil _⟩
  | invalid set core meaningless objects =>
    rw [read_of_error set (parse_of_objects core meaningless objects)]
    exact ⟨rfl, rfl, List.forall_mem_singleton.mpr rfl⟩

/-- What a layer gives for a setting, if anything. -/
def given (o : Overrides) : (s : Setting) → Option s.Value
  | tapeSize => o.tapeSize
  | cellMode => o.cellMode
  | output => o.output
  | extensions => o.extensions

/-- The layer of the environment gives for every setting what is told of it. -/
theorem Told.given_layer (told : s.Told env found complaint) : s.given env.layer.1 = found := by
  rw [← told.read_eq.1]
  cases s <;> rfl

/-- What is noted of the environment is what is noted of the settings, in their order. -/
theorem events_layer (env : Environment) :
    env.layer.2 = all.flatMap fun s => (env.read s.key s.parse).2 := by
  have parts : env.layer.2 =
      (env.read tapeSize.key tapeSize.parse).2 ++ (env.read cellMode.key cellMode.parse).2 ++
        (env.read output.key output.parse).2 ++
        (env.read extensions.key extensions.parse).2 := rfl
  rw [parts, all]
  simp only [List.flatMap_cons, List.flatMap_nil, List.append_nil, List.append_assoc]

/-- All of it are warnings, one for each variable that is objected to. -/
theorem warnings_layer {complaints : Setting → Option Warning}
    (say : ∀ s : Setting, ∃ found, s.Told env found (complaints s)) :
    (∀ event ∈ env.layer.2, event.level = .warn) ∧
      env.layer.2.map warning = all.filterMap complaints := by
  rw [events_layer]
  constructor
  · intro event member
    obtain ⟨s, -, noted⟩ := List.mem_flatMap.mp member
    obtain ⟨found, told⟩ := say s
    exact told.read_eq.2.2 event noted
  · rw [List.map_flatMap, List.filterMap_eq_flatMap_toList]
    congr 1
    funext s
    obtain ⟨found, told⟩ := say s
    exact told.read_eq.2.1

end Setting

end RingTape
