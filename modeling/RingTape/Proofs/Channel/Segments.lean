/-
# Lines of a stream

The bytes of a stream can be cut beforehand into the segments that readings will take one
by one: each ends just after a newline byte, and only the last may lack it. A reading takes
the whole of its segment, whatever the segment holds. So what the input command finds, a
number or one of three problems, is known of every segment by its place in the stream.

A reader need not have the whole stream. One that gets it in portions of any sizes and
searches them one after the other gives the same answers.
-/

import Mathlib.Data.List.SplitBy
import RingTape.Proofs.Command.Primitive

namespace RingTape

namespace Source

/-- The bytes of a stream, cut just after every newline byte. -/
def segments (bytes : List UInt8) : List (List UInt8) := bytes.splitBy fun b _ => b ≠ newline

/-- What the input command takes from a segment, or from the end of the stream if there is
none: the number in it, or the problem that it reports. -/
def numberOn : Option (List UInt8) → Except InputProblem Int64
  | none => .error .exhausted
  | some segment =>
    match Utf8.decode? segment with
    | none => .error (.unreadable ReadError.invalidText.message)
    | some line =>
      match Decimal.int64? (Text.trimList line.toList) with
      | some value => .ok value
      | none => .error (.notANumber (Text.trimLineEnd line))

@[simp] theorem flatten_segments (bytes : List UInt8) : (segments bytes).flatten = bytes :=
  List.flatten_splitBy _ bytes

theorem nil_notMem_segments (bytes : List UInt8) : [] ∉ segments bytes :=
  List.nil_notMem_splitBy _ bytes

/-- The answer to a reading is what the segment holds. -/
theorem number_segmentReading {segment : Option (List UInt8)} (nonempty : segment ≠ some []) :
    (segmentReading (segment.getD [])).number = numberOn segment := by
  cases segment with
  | none => rfl
  | some bytes =>
    have some_bytes : ¬ bytes.isEmpty := fun empty =>
      nonempty (congrArg some (List.isEmpty_iff.mp empty))
    rw [Option.getD_some, segmentReading, if_neg some_bytes, numberOn]
    cases Utf8.decode? bytes with
    | none => rfl
    | some line => exact Reading.number_line line

/-! ## Readings of a stream -/

theorem firstLine_cons (b : UInt8) (rest : List UInt8) :
    firstLine (b :: rest) =
      if b = newline then ([b], rest) else (b :: (firstLine rest).1, (firstLine rest).2) :=
  rfl

/-- A line has no newline before its last byte. -/
theorem isChain_firstLine (bytes : List UInt8) :
    (firstLine bytes).1.IsChain fun b _ => decide (b ≠ newline) = true := by
  induction bytes with
  | nil => exact .nil
  | cons b rest ih =>
    rw [firstLine_cons]
    split
    · exact .singleton b
    · next other => exact List.isChain_cons.mpr ⟨fun _ _ => decide_eq_true other, ih⟩

/-- A line with bytes behind it ends with a newline. -/
theorem getLast?_firstLine {bytes : List UInt8} (more : (firstLine bytes).2 ≠ []) :
    (firstLine bytes).1.getLast? = some newline := by
  induction bytes with
  | nil => exact absurd rfl more
  | cons b rest ih =>
    rw [firstLine_cons] at more ⊢
    split at more
    · next ending => rw [if_pos ending, ending, List.getLast?_singleton]
    · next other => rw [if_neg other, List.getLast?_cons, ih more, Option.getD_some]

theorem firstLine_ne_nil {bytes : List UInt8} (nonempty : bytes ≠ []) :
    (firstLine bytes).1 ≠ [] := by
  cases bytes with
  | nil => exact absurd rfl nonempty
  | cons b rest =>
    rw [firstLine_cons]
    split <;> exact List.cons_ne_nil _ _

/-- The first segment is the first line. -/
theorem segments_eq_cons {bytes : List UInt8} (nonempty : bytes ≠ []) :
    segments bytes = (firstLine bytes).1 :: segments (firstLine bytes).2 := by
  have cut : ∀ x ∈ (firstLine bytes).1.getLast?, ∀ y ∈ (firstLine bytes).2.head?,
      decide (x ≠ newline) = false := by
    intro x last y behind
    have more : (firstLine bytes).2 ≠ [] := fun none_left => by simp [none_left] at behind
    rw [getLast?_firstLine more] at last
    simpa using last.symm
  have one : segments (firstLine bytes).1 = [(firstLine bytes).1] :=
    List.splitBy_of_isChain (firstLine_ne_nil nonempty) (isChain_firstLine bytes)
  have both : segments ((firstLine bytes).1 ++ (firstLine bytes).2) =
      segments (firstLine bytes).1 ++ segments (firstLine bytes).2 := List.splitBy_append cut
  rwa [firstLine_append, one] at both

/-- Where some segments have been taken, what is left is cut as before. -/
theorem segments_flatten_drop (bytes : List UInt8) (k : Nat) :
    segments ((segments bytes).drop k).flatten = (segments bytes).drop k :=
  List.splitBy_flatten (fun empty => nil_notMem_segments bytes (List.mem_of_mem_drop empty))
    (fun _ member => List.isChain_of_mem_splitBy (List.mem_of_mem_drop member))
    ((List.isChain_getLast_head_splitBy (fun b _ => b ≠ newline) bytes).drop k)

/-- Then a reading takes exactly the next segment. -/
theorem firstLine_flatten_drop (bytes : List UInt8) (k : Nat) :
    firstLine ((segments bytes).drop k).flatten =
      ((segments bytes)[k]?.getD [], ((segments bytes).drop (k + 1)).flatten) := by
  have own := segments_flatten_drop bytes k
  rw [← List.head?_drop, ← List.tail_drop]
  generalize (segments bytes).drop k = left at own ⊢
  cases left with
  | nil => rfl
  | cons segment others =>
    have nonempty : (segment :: others).flatten ≠ [] := fun empty => by
      rw [empty] at own
      cases own
    rw [segments_eq_cons nonempty] at own
    obtain ⟨first, rest⟩ := List.cons.inj own
    exact Prod.ext first ((flatten_segments _).symm.trans (congrArg List.flatten rest))

/-- The stream behind the first `k` segments. -/
def behind (bytes : List UInt8) (k : Nat) : Source := .stream ((segments bytes).drop k).flatten

theorem behind_zero (bytes : List UInt8) : behind bytes 0 = .stream bytes := by
  rw [behind, List.drop_zero, flatten_segments]

theorem number_read_behind (bytes : List UInt8) (k : Nat) :
    (behind bytes k).read.1.number = numberOn (segments bytes)[k]? := by
  have nonempty : (segments bytes)[k]? ≠ some [] := fun empty =>
    nil_notMem_segments bytes (List.mem_of_getElem? empty)
  rw [behind, read, firstLine_flatten_drop]
  exact number_segmentReading nonempty

theorem rest_read_behind (bytes : List UInt8) (k : Nat) :
    (behind bytes k).read.2 = behind bytes (k + 1) := by
  rw [behind, read, firstLine_flatten_drop]
  rfl

/-! ## Streams in portions -/

/-- Read a line from portions: those without a newline are taken whole, and the first with
one as far as that goes. The portions that are left are returned with the line. -/
def lineOf : List (List UInt8) → List UInt8 × List (List UInt8)
  | [] => ([], [])
  | portion :: more =>
    if newline ∈ portion then ((firstLine portion).1, (firstLine portion).2 :: more)
    else (portion ++ (lineOf more).1, (lineOf more).2)

theorem firstLine_append_of_mem {portion : List UInt8} (member : newline ∈ portion)
    (more : List UInt8) :
    firstLine (portion ++ more) = ((firstLine portion).1, (firstLine portion).2 ++ more) := by
  induction portion with
  | nil => cases member
  | cons b rest ih =>
    rw [List.cons_append, firstLine_cons, firstLine_cons]
    split
    · rfl
    · next other => rw [ih (List.mem_of_ne_of_mem (Ne.symm other) member)]

theorem firstLine_append_of_notMem {portion : List UInt8} (lacks : newline ∉ portion)
    (more : List UInt8) :
    firstLine (portion ++ more) = (portion ++ (firstLine more).1, (firstLine more).2) := by
  induction portion with
  | nil => rfl
  | cons b rest ih =>
    obtain ⟨other, lacks⟩ := not_or.mp (mt List.mem_cons.mpr lacks)
    rw [List.cons_append, firstLine_cons, if_neg (Ne.symm other), ih lacks]
    rfl

/-- The line is the same as from the whole stream, and so is what is left. -/
theorem firstLine_flatten (portions : List (List UInt8)) :
    firstLine portions.flatten = ((lineOf portions).1, (lineOf portions).2.flatten) := by
  induction portions with
  | nil => rfl
  | cons portion more ih =>
    rw [List.flatten_cons, lineOf]
    split
    · next member => exact firstLine_append_of_mem member more.flatten
    · next lacks => rw [firstLine_append_of_notMem lacks, ih]

/-- The portions that are left when lines have been read. -/
def portionsAfter (portions : List (List UInt8)) (lines : Nat) : List (List UInt8) :=
  (fun left => (lineOf left).2)^[lines] portions

/-- A source that reads its lines from portions. -/
def buffered (portions : List (List UInt8)) : Source :=
  .answers (fun k => segmentReading (lineOf (portionsAfter portions k)).1) 0

/-- The source after some readings. -/
def after (s : Source) (readings : Nat) : Source := (fun left => left.read.2)^[readings] s

/-- Sources that will give the same answers. -/
def AnswersAlike (s s' : Source) : Prop := ∀ k, (s'.after k).read.1 = (s.after k).read.1

theorem AnswersAlike.reading {s s' : Source} (alike : s.AnswersAlike s') :
    s'.read.1 = s.read.1 := alike 0

/-- After a reading they still will. -/
theorem AnswersAlike.rest {s s' : Source} (alike : s.AnswersAlike s') :
    s.read.2.AnswersAlike s'.read.2 := fun k => alike (k + 1)

theorem after_stream (portions : List (List UInt8)) (k : Nat) :
    (stream portions.flatten).after k = .stream (portionsAfter portions k).flatten := by
  induction k generalizing portions with
  | zero => rfl
  | succ k ih =>
    have first : (stream portions.flatten).read.2 = .stream (lineOf portions).2.flatten := by
      rw [read, firstLine_flatten]
    rw [after, Function.iterate_succ_apply, first]
    exact ih (lineOf portions).2

theorem after_answers (nth : Nat → Reading) (asked k : Nat) :
    (answers nth asked).after k = .answers nth (asked + k) := by
  induction k generalizing asked with
  | zero => rfl
  | succ k ih =>
    rw [after, Function.iterate_succ_apply, ← Nat.add_assoc, Nat.add_right_comm]
    exact ih (asked + 1)

/-- A stream answers as its portions do, whatever their sizes. -/
theorem answersAlike_buffered (portions : List (List UInt8)) :
    (stream portions.flatten).AnswersAlike (buffered portions) := by
  intro k
  rw [after_stream, buffered, after_answers, Nat.zero_add, read, read, firstLine_flatten]

end Source

end RingTape
