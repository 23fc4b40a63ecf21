/-
# Text sinks that run full

A text sink writes its numbers one after the other, each as some bytes: the number in base ten
and a newline, or the encoding of one character. A writer with a limit takes what still fits,
which may be a part of such bytes only, and the sink gives up on the batch. It may be handed
further batches all the same. They find the writer full, so that what is written stays a first
part of the bytes of all batches together, cut off at the limit, and every batch that is not
empty is refused from then on.

The state of a writer is therefore known from its limit and from the bytes it was offered since
the beginning, whether it took them or not.
-/

import Mathlib.Data.List.Forall2
import RingTape.Proofs.Machine.Effects
import RingTape.Proofs.Text.Utf8

namespace RingTape

/-! ## The bytes of a number -/

namespace OutputFormat

/-- The bytes of a number in a format. -/
def bytes (format : OutputFormat) (value : Int64) : List UInt8 := Utf8.encode (format.render value)

/-- The bytes that are to be written for a number. In the format of characters they are those of
one character: the scalar value that the number is, or the replacement of those that are none,
negative or too large or a surrogate. -/
inductive Spells : OutputFormat → Int64 → List UInt8 → Prop
  | number (value : Int64) : Spells .numbers value (Utf8.encode (toString value.toInt ++ "\n"))
  | scalar {value : Int64} (c : Char) (code : (c.toNat : Int) = value.toInt) :
      Spells .ascii value (String.utf8EncodeChar c)
  | replaced {value : Int64}
      (outside : value.toInt < 0 ∨ 0x10FFFF < value.toInt ∨
        0xD800 ≤ value.toInt ∧ value.toInt ≤ 0xDFFF) :
      Spells .ascii value (String.utf8EncodeChar '\uFFFD')

theorem bytes_ascii (value : Int64) :
    bytes .ascii value = String.utf8EncodeChar (character value) := by
  rw [bytes, render, Utf8.encode_ofList, List.flatMap_singleton]

theorem spells_bytes (format : OutputFormat) (value : Int64) :
    format.Spells value (format.bytes value) := by
  cases format with
  | numbers => exact .number value
  | ascii =>
    rw [bytes_ascii, character]
    split
    · next valid =>
      obtain ⟨nonnegative, valid⟩ := valid
      refine .scalar _ ?_
      rw [Char.ofNat, dif_pos valid]
      exact Int.toNat_of_nonneg nonnegative
    · next invalid =>
      refine .replaced ?_
      rw [Nat.isValidChar] at invalid
      omega

/-- No number is spelled in two ways. -/
theorem spells_iff {format : OutputFormat} {value : Int64} {spelled : List UInt8} :
    format.Spells value spelled ↔ format.bytes value = spelled := by
  constructor
  · intro spells
    cases spells with
    | number => rfl
    | scalar c code =>
      have nonnegative : 0 ≤ value.toInt := code ▸ Int.natCast_nonneg c.toNat
      have same : value.toInt.toNat = c.toNat := by rw [← code, Int.toNat_natCast]
      rw [bytes_ascii, character, if_pos ⟨nonnegative, same ▸ c.valid⟩, same, Char.ofNat_toNat]
    | replaced outside =>
      rw [bytes_ascii, character, if_neg]
      rintro ⟨nonnegative, valid⟩
      rw [Nat.isValidChar] at valid
      omega
  · rintro rfl
    exact format.spells_bytes value

/-- Numbers are spelled one by one. -/
theorem forall₂_spells_iff {format : OutputFormat} {values : List Int64}
    {pieces : List (List UInt8)} :
    List.Forall₂ format.Spells values pieces ↔ values.map format.bytes = pieces := by
  have same : format.Spells = fun value spelled => format.bytes value = spelled :=
    funext fun value => funext fun spelled => propext spells_iff
  rw [same, ← List.forall₂_map_left_iff, List.forall₂_eq_eq_eq]

theorem bytes_ne_nil (format : OutputFormat) (value : Int64) : format.bytes value ≠ [] := by
  intro empty
  have none_left : format.render value = "" := by
    have decoded := Utf8.decode?_encode (format.render value)
    rw [show Utf8.encode (format.render value) = Utf8.encode "" from empty,
      Utf8.decode?_encode] at decoded
    exact (Option.some.inj decoded).symm
  cases format with
  | numbers => simp [render] at none_left
  | ascii => simp [render] at none_left

end OutputFormat

/-! ## Writers with a limit -/

namespace Writer

variable {limit : Option Nat} {before bytes : List UInt8}

/-- Whether bytes are within a limit, if there is one. -/
def Fits (limit : Option Nat) (bytes : List UInt8) : Prop := ∀ n ∈ limit, bytes.length ≤ n

instance (limit : Option Nat) (bytes : List UInt8) : Decidable (Fits limit bytes) :=
  inferInstanceAs (Decidable (∀ n ∈ limit, bytes.length ≤ n))

theorem fits_some {n : Nat} : Fits (some n) bytes ↔ bytes.length ≤ n := by simp [Fits]

theorem fits_none : Fits none bytes := fun _ absent => by cases absent

/-- A writer with a limit that was offered some bytes. It took those within the limit. -/
def offered (limit : Option Nat) (bytes : List UInt8) : Writer where
  room := limit.map fun n => n - bytes.length
  written := (limit.elim bytes bytes.take).toArray

theorem fits_of_append {more : List UInt8} (all : Fits limit (before ++ more)) :
    Fits limit before := fun n some_n =>
  Nat.le_trans (List.length_append ▸ Nat.le_add_right _ _) (all n some_n)

/-- A writer that is full takes no more. -/
theorem offered_append_of_not_fits (full : ¬ Fits limit before) (more : List UInt8) :
    offered limit (before ++ more) = offered limit before := by
  cases limit with
  | none => exact absurd fits_none full
  | some n =>
    have longer : n ≤ before.length := Nat.le_of_lt (Nat.lt_of_not_le (mt fits_some.mpr full))
    simp only [offered, Option.map_some, Option.elim_some, List.length_append,
      List.take_append_of_le_length longer]
    rw [Nat.sub_eq_zero_of_le (by omega), Nat.sub_eq_zero_of_le longer]

/-- Bytes that are offered to a writer are added to those it was offered before. All of them
were taken if the limit was not passed, or if there were none. -/
theorem write_offered (limit : Option Nat) (before bytes : List UInt8) :
    (offered limit before).write bytes =
      (offered limit (before ++ bytes), decide (bytes = [] ∨ Fits limit (before ++ bytes))) := by
  cases limit with
  | none =>
    simp only [offered, write, Option.map_none, Option.elim_none, fits_none, or_true, decide_true]
    exact congrArg (fun all => (Writer.mk none all, true)) (Array.toList_inj.mp (by simp))
  | some n =>
    have taken : (before.take n).toArray ++ bytes.take (n - before.length) =
        ((before ++ bytes).take n).toArray := by
      rw [List.take_append]
      exact Array.toList_inj.mp (by simp)
    have left : n - before.length - (bytes.take (n - before.length)).length =
        n - (before ++ bytes).length := by
      rw [List.length_take, List.length_append]
      omega
    have all : bytes.length ≤ n - before.length ↔ bytes = [] ∨ Fits (some n) (before ++ bytes) := by
      rw [fits_some, ← List.length_eq_zero_iff, List.length_append]
      omega
    simp only [offered, write, Option.map_some, Option.elim_some, taken, left, all]

end Writer

namespace Sink

/-- The bytes of numbers, one after the other. -/
abbrev text (format : OutputFormat) (values : List Int64) : List UInt8 :=
  values.flatMap format.bytes

/-- The answer to a batch, when its bytes were added to those of a writer with a limit. -/
def answer (limit : Option Nat) (batch : Batch) (bytes : List UInt8) : Except SinkError Unit :=
  if batch = [] ∨ Writer.Fits limit bytes then .ok () else .error .full

/-- All bytes of a batch are offered to the writer, or would find it full. -/
theorem writeText_offered (format : OutputFormat) (limit : Option Nat) (before : List UInt8)
    (batch : Batch) :
    writeText format (.offered limit before) batch =
      (.offered limit (before ++ text format batch),
        answer limit batch (before ++ text format batch)) := by
  induction batch generalizing before with
  | nil => simp [writeText, answer]
  | cons value rest ih =>
    have whole : before ++ text format (value :: rest) =
        before ++ format.bytes value ++ text format rest := by
      rw [text, List.flatMap_cons, List.append_assoc]
    have written : (Writer.offered limit before).write (Utf8.encode (format.render value)) =
        (.offered limit (before ++ format.bytes value),
          decide (Writer.Fits limit (before ++ format.bytes value))) := by
      rw [← OutputFormat.bytes, Writer.write_offered]
      simp only [format.bytes_ne_nil value, false_or]
    rw [writeText, written, whole]
    by_cases fits : Writer.Fits limit (before ++ format.bytes value)
    · have same : answer limit rest (before ++ format.bytes value ++ text format rest) =
          answer limit (value :: rest) (before ++ format.bytes value ++ text format rest) := by
        cases rest with
        | nil => simp [answer, fits]
        | cons next others => simp only [answer, List.cons_ne_nil, false_or]
      simp only [decide_eq_true fits, ih, same]
    · simp only [decide_eq_false fits, Writer.offered_append_of_not_fits fits, answer]
      rw [if_neg]
      rintro (empty | all)
      · cases empty
      · exact fits (Writer.fits_of_append all)

/-- Hand batches to a sink, one after the other, whatever it answers. -/
def writeAll : Sink → List Batch → Sink × List (Except SinkError Unit)
  | s, [] => (s, [])
  | s, batch :: rest =>
    let (s, answer) := s.write batch
    let (s, answers) := s.writeAll rest
    (s, answer :: answers)

theorem text_flatten_cons (format : OutputFormat) (batch : Batch) (rest : List Batch) :
    text format (batch :: rest).flatten = text format batch ++ text format rest.flatten := by
  rw [List.flatten_cons, text, List.flatMap_append]

/-- Batches that are handed to a text sink leave it with the bytes of all their numbers offered.
Each of them is answered by what was offered up to it. -/
theorem writeAll_offered (format : OutputFormat) (limit : Option Nat) (before : List UInt8)
    (noted batches : List Batch) :
    writeAll ⟨.text format (.offered limit before), noted⟩ batches =
      (⟨.text format (.offered limit (before ++ text format batches.flatten)),
          batches.reverse ++ noted⟩,
        batches.mapIdx fun i batch =>
          answer limit batch (before ++ text format (batches.take (i + 1)).flatten)) := by
  induction batches generalizing before noted with
  | nil => simp [writeAll]
  | cons batch rest ih =>
    rw [writeAll, write, writeText_offered]
    simp only [ih, List.mapIdx_cons, List.take_succ_cons, text_flatten_cons, List.append_assoc,
      List.reverse_cons, List.singleton_append]
    simp

/-- What effects hand to a sink are batches of one number each. -/
theorem after_eq_writeAll (s : Sink) (effects : List Effect) :
    s.after effects = (s.writeAll ((effects.filterMap Effect.value?).map ([·]))).1 := by
  induction effects generalizing s with
  | nil => rfl
  | cons effect rest ih =>
    have later : s.after (effect :: rest) = _ := ih (effect.onSink s)
    rw [later]
    cases effect <;> rfl

/-- A text sink writes the bytes of the numbers among effects. -/
theorem written_after_offered (format : OutputFormat) (limit : Option Nat) (before : List UInt8)
    (noted : List Batch) (effects : List Effect) :
    (after ⟨.text format (.offered limit before), noted⟩ effects).written =
      (Writer.offered limit
        (before ++ text format (effects.filterMap Effect.value?))).written := by
  rw [after_eq_writeAll, writeAll_offered, ← List.flatMap_def, List.flatMap_singleton']
  rfl

/-- A text sink that was just made is one that was offered nothing. -/
theorem toText_eq (format : OutputFormat) (limit : Option Nat) :
    toText format limit = ⟨.text format (.offered limit []), []⟩ := by
  cases limit with
  | none => rfl
  | some n => simp [toText, Writer.offered]

/-- A text sink whose writer has a limit keeps the bytes of all numbers it was ever handed, cut
off at the limit, also inside a number or a character. A batch is taken if it is empty or if all
bytes up to its end are within the limit, and it is refused by a full writer otherwise. Without a
limit all bytes are kept, so that the text is the same as of one batch of all numbers. The bytes
of a number are those of its format. -/
theorem writeAll_within_limit (format : OutputFormat) (batches : List Batch) :
    (∀ limit : Nat,
      ((toText format (some limit)).writeAll batches).1.written.toList =
        (text format batches.flatten).take limit ∧
      ((toText format (some limit)).writeAll batches).2 = batches.mapIdx fun i batch =>
        if batch = [] ∨ (text format (batches.take (i + 1)).flatten).length ≤ limit then .ok ()
        else .error .full) ∧
    ((toText format none).writeAll batches).1.written.toList = text format batches.flatten ∧
    ((toText format none).writeAll batches).1.written =
      ((toText format none).write batches.flatten).1.written ∧
    ∀ value, format.Spells value (format.bytes value) := by
  have run (limit : Option Nat) := writeAll_offered format limit [] [] batches
  have one := writeText_offered format none [] batches.flatten
  simp only [← toText_eq, List.nil_append] at run one
  refine ⟨fun limit => ?_, ?_, ?_, format.spells_bytes⟩
  · rw [run]
    refine ⟨rfl, ?_⟩
    simp only [answer, Writer.fits_some]
  · rw [run]
    rfl
  · rw [run, toText_eq, write, one]
    rfl

/-- The limit may fall into a character. -/
example : ((toText .ascii (some 4)).writeAll [[0xE9], [0x1F600], [], [0x41]]).1.written =
    #[0xC3, 0xA9, 0xF0, 0x9F] := by decide

end Sink

end RingTape
