/-
# The outcome of a run

Whoever runs a program from the command line sees the status it ends with and what is on the
standard output. Both are known from the execution of its code on a fresh interpreter with the
settings in force: the numbers that this puts out, written in the format of the settings, and
whether it ended well. Where the code comes from, and whether the table of its steps is asked
for, makes no difference, since the table goes elsewhere.
-/

import RingTape.CommandLine.Launch
import RingTape.Proofs.Channel.Room
import RingTape.Proofs.Execution.Observers
import RingTape.Proofs.Settings.Layers

namespace RingTape

/-! ## Fresh interpreters -/

namespace Settings

/-- A fresh interpreter with settings, which collects its numbers and reads its lines from an
input, if memory is granted for its tape. It knows the stock commands if the extensions are on. -/
def fresh (s : Settings) (grants : Nat → Bool) (input : List UInt8) :
    Except TapeError Interpreter :=
  (Interpreter.new grants s.tapeSize s.cellMode .collecting (.stream input)).map fun i =>
    if s.extensions then i.addStock.2 else i

variable {settings : Settings} {grants : Nat → Bool} {input : List UInt8}

/-- Without a fresh interpreter none is built. -/
theorem build_of_fresh_error {e : TapeError} (failed : settings.fresh grants input = .error e)
    (journal : Journal) : settings.build grants (.stream input) journal = .error (.tape e) := by
  rw [fresh, Interpreter.new] at failed
  cases tape : Tape.new grants settings.tapeSize settings.cellMode with
  | error other =>
    rw [tape] at failed
    cases failed
    exact build_of_error tape _ journal
  | ok tape' =>
    rw [tape] at failed
    cases failed

/-- The interpreter that is built differs from the fresh one in its observers only: its numbers
go to a text sink. -/
theorem exists_build_of_fresh {i : Interpreter} (made : settings.fresh grants input = .ok i)
    (journal : Journal) :
    ∃ j, settings.build grants (.stream input) journal = .ok j ∧ j.registry = i.registry ∧
      Machine.Twins i.machine j.machine i.machine j.machine ∧ i.machine.sink = .collecting ∧
      j.machine.sink = .toText settings.output none := by
  rw [fresh, Interpreter.new] at made
  rw [build]
  cases tape : Tape.new grants settings.tapeSize settings.cellMode with
  | error e =>
    rw [tape] at made
    cases made
  | ok tape' =>
    rw [tape] at made
    cases extended : settings.extensions with
    | false =>
      rw [extended] at made
      cases made
      exact ⟨_, rfl, rfl, .refl rfl rfl rfl, rfl, rfl⟩
    | true =>
      rw [extended] at made
      cases made
      exact ⟨_, rfl, rfl, .refl rfl rfl rfl, rfl, rfl⟩

end Settings

namespace CommandLine

open Execution

/-! ## Executions -/

/-- An execution asked for on the command line comes as far as one before other observers, and
to the same end, whether or not the table is asked for. The same effects are handed to both
sinks. -/
theorem execute_and_executeRun {i j : Interpreter} (registry : j.registry = i.registry)
    (twins : Machine.Twins i.machine j.machine i.machine j.machine) (fuel : Nat) (debug : Bool)
    (code : String) :
    (i.execute fuel code = none ∧ executeRun fuel debug code j = none) ∨
    ∃ result after after' effects, i.execute fuel code = some (result, after) ∧
      executeRun fuel debug code j = some (result, after') ∧
      after.machine.sink = i.machine.sink.after effects ∧
      after'.machine.sink = j.machine.sink.after effects := by
  cases debug with
  | true =>
    rw [executeRun, if_pos rfl]
    rcases Interpreter.execute_and_executeTraced Tracer.discreet_toJournal registry twins fuel code
      () with ⟨running, running'⟩ |
      ⟨result, after, after', w, executed, executed', -, -, -, -, effects, one, other, -⟩
    · exact .inl ⟨running, by rw [running']; rfl⟩
    · exact .inr ⟨result, after, after', effects, executed, by rw [executed']; rfl, one.sink,
        other.sink⟩
  | false =>
    rw [executeRun, if_neg Bool.false_ne_true]
    rcases Interpreter.execute_and_execute registry twins fuel code with
      running | ⟨result, after, after', executed, executed', -, -, -, -, effects, one, other, -⟩
    · exact .inl running
    · exact .inr ⟨result, after, after', effects, executed, executed', one.sink, other.sink⟩

/-! ## Outcomes -/

/-- What whoever started the program sees of its end. -/
structure Outcome where
  status : Nat
  stdout : List UInt8
  deriving DecidableEq, Repr

/-- What is seen of an ending. -/
def Ending.outcome (e : Ending) : Outcome := { status := e.status, stdout := e.written.stdout.toList }

/-- What the standard output holds when numbers were put out: each is spelled in the format, one
after the other, and a newline ends characters. -/
def Holds (format : OutputFormat) (values : List Int64) (stdout : List UInt8) : Prop :=
  ∃ pieces, List.Forall₂ format.Spells values pieces ∧
    stdout = pieces.flatten ++ if format = .ascii then [0x0A] else []

/-- The text of numbers on the standard output, which ends a line also after characters. -/
def outputText (format : OutputFormat) (values : List Int64) : List UInt8 :=
  Sink.text format values ++ if format = .ascii then [Source.newline] else []

theorem holds_iff {format : OutputFormat} {values : List Int64} {stdout : List UInt8} :
    Holds format values stdout ↔ stdout = outputText format values := by
  simp only [Holds, OutputFormat.forall₂_spells_iff, exists_eq_left', outputText, Sink.text,
    List.flatMap_def, Source.newline]

/-- What is to be seen when code was executed on a fresh interpreter. -/
def outcomeOf (format : OutputFormat) : Except ExecutionError Unit × Interpreter → Outcome
  | (result, after) =>
    { status := if result = .ok () then 0 else 1
      stdout := outputText format after.machine.sink.values }

/-- The code that a run is given: its words, of which there must be one at least, or what is in
a file, without any words. -/
inductive RunArguments.Gives (s : Surroundings) (a : RunArguments) (code : String) : Prop
  | words (run : a.help = false) (no_file : a.file = none) (some_words : a.code ≠ [])
      (joined : String.join a.code = code)
  | file (path : String) (run : a.help = false) (named : a.file = some path)
      (no_words : a.code = []) (readable : s.files.read path = .ok (Utf8.encode code))

variable {s : Surroundings} {a : RunArguments} {code : String}

/-- A run that is given code executes it. -/
theorem launchRun_of_gives (gives : a.Gives s code) (fuel : Nat) :
    launchRun fuel s a =
      runCode fuel a.debug s.grants (Settings.resolve s.toOrigins a.overrides).1
        (s.journal.recordAll (Settings.resolve s.toOrigins a.overrides).2) s.input code := by
  cases gives with
  | words run no_file some_words joined =>
    have source : a.source s = .ok code := by rw [RunArguments.source, no_file, ← joined]
    simp [launchRun, run, no_file, some_words, source]
  | file path run named no_words readable =>
    have source : a.source s = .ok code := by
      simp only [RunArguments.source, named, Files.text, readable, Utf8.decode?_encode]
    simp [launchRun, run, named, no_words, source]

/-- What the standard output gets of a text sink that effects were handed to. -/
theorem runOutput_of_after {j after : Interpreter} {format : OutputFormat} {effects : List Effect}
    (fresh : j.machine.sink = .toText format none)
    (sink : after.machine.sink = j.machine.sink.after effects) :
    (runOutput format after).toList = outputText format (effects.filterMap Effect.value?) := by
  have written : after.machine.sink.written.toList =
      Sink.text format (effects.filterMap Effect.value?) := by
    rw [sink, fresh, Sink.toText_eq, Sink.written_after_offered]
    rfl
  cases format with
  | numbers => simp [runOutput, outputText, written]
  | ascii =>
    have newline : Utf8.encode "\n" = [Source.newline] := by decide
    simp [runOutput, outputText, written, newline]

/-- What is seen of code that was run with settings is what an execution with as many steps on a
fresh interpreter comes to. -/
theorem outcome_runCode (fuel : Nat) (debug : Bool) (grants : Nat → Bool) (settings : Settings)
    (journal : Journal) (input : List UInt8) (code : String) :
    (runCode fuel debug grants settings journal input code).map Ending.outcome =
      match settings.fresh grants input with
      | .error _ => some { status := 1, stdout := [] }
      | .ok i => (i.execute fuel code).map (outcomeOf settings.output) := by
  rw [runCode]
  cases made : settings.fresh grants input with
  | error e =>
    rw [Settings.build_of_fresh_error made]
    rfl
  | ok i =>
    obtain ⟨j, built, registry, twins, collecting, text⟩ :=
      Settings.exists_build_of_fresh made journal
    simp only [built]
    rcases execute_and_executeRun registry twins fuel debug code with
      ⟨running, running'⟩ | ⟨result, after, after', effects, executed, executed', one, other⟩
    · rw [running, running']
      rfl
    · rw [executed, executed']
      have values : after.machine.sink.values = effects.filterMap Effect.value? := by
        rw [one, collecting, Sink.values_after]
        rfl
      have stdout := runOutput_of_after text other
      cases result with
      | ok done => simp [finishRun, Ending.outcome, endWith, outcomeOf, values, stdout]
      | error e => simp [finishRun, Ending.outcome, endWith, outcomeOf, values, stdout]

/-- What whoever started a run sees follows the execution of its code on a fresh interpreter with
the settings in force. If there can be no tape the run fails and writes nothing. If the execution
ends, so does the run: with status 0 if the result is good and with status 1 if it is an error,
and in both cases with all numbers that were put out spelled on the standard output, where one
newline follows in the format of characters. Otherwise the run goes on for ever. Nothing of that
depends on whether the table was asked for, on how the code is split into words, or on whether it
is in a file. -/
theorem run_follows_execution (gives : a.Gives s code) :
    let settings := (Settings.resolve s.toOrigins a.overrides).1
    (∀ e, settings.fresh s.grants s.input = .error e → ∀ fuel, ∃ ending,
      launchRun fuel s a = some ending ∧ ending.status = 1 ∧ ending.written.stdout = #[]) ∧
    (∀ i, settings.fresh s.grants s.input = .ok i →
      (i.Terminates code ↔ ∃ fuel ending, launchRun fuel s a = some ending) ∧
      ∀ result after, i.Executes code result after → ∀ fuel ending,
        launchRun fuel s a = some ending →
          ending.status = (if result = .ok () then 0 else 1) ∧
          Holds settings.output after.machine.sink.values ending.written.stdout.toList) ∧
    ∀ a' : RunArguments, a'.Gives s code → a'.overrides = a.overrides → ∀ fuel,
      (launchRun fuel s a').map Ending.outcome = (launchRun fuel s a).map Ending.outcome := by
  intro settings
  have seen (a' : RunArguments) (gives' : a'.Gives s code) (same : a'.overrides = a.overrides)
      (fuel : Nat) : (launchRun fuel s a').map Ending.outcome =
        match settings.fresh s.grants s.input with
        | .error _ => some { status := 1, stdout := [] }
        | .ok i => (i.execute fuel code).map (outcomeOf settings.output) := by
    rw [launchRun_of_gives gives', same, outcome_runCode]
  refine ⟨fun e failed fuel => ?_, fun i made => ⟨?_, ?_⟩, fun a' gives' same fuel => ?_⟩
  · have ended := seen a gives rfl fuel
    rw [failed] at ended
    obtain ⟨ending, launched, outcome⟩ := Option.map_eq_some_iff.mp ended
    exact ⟨ending, launched, congrArg Outcome.status outcome,
      Array.toList_inj.mp (congrArg Outcome.stdout outcome)⟩
  · have together (fuel : Nat) : (launchRun fuel s a).isSome = (i.execute fuel code).isSome := by
      have alike := congrArg Option.isSome (seen a gives rfl fuel)
      rwa [made, Option.isSome_map, Option.isSome_map] at alike
    constructor
    · rintro ⟨result, after, fuel, executed⟩
      exact ⟨fuel, Option.isSome_iff_exists.mp ((together fuel).trans (by rw [executed]; rfl))⟩
    · rintro ⟨fuel, ending, launched⟩
      obtain ⟨⟨result, after⟩, executed⟩ := Option.isSome_iff_exists.mp
        ((together fuel).symm.trans (by rw [launched]; rfl))
      exact ⟨result, after, fuel, executed⟩
  · intro result after executed fuel ending launched
    have outcome := seen a gives rfl fuel
    rw [made, launched] at outcome
    obtain ⟨⟨other, last⟩, executed', equal⟩ := Option.map_eq_some_iff.mp outcome.symm
    obtain ⟨rfl, rfl⟩ := executed.unique ⟨fuel, executed'⟩
    exact ⟨(congrArg Outcome.status equal).symm,
      holds_iff.mpr (congrArg Outcome.stdout equal).symm⟩
  · rw [seen a' gives' same fuel, seen a gives rfl fuel]

/-- Four runs where there is memory for no more than eight cells. The first is in two words, asks
for the table and fails at its last command, and the second takes the same code from a file: both
put out the letter that was written before, and end the line. The third puts out a negative
number, and the fourth has no tape. -/
theorem run_follows_execution_of_words :
    let s : Surroundings :=
      { env := fun _ => none
        home := none
        files :=
          { present := fun path => path = "a.bf"
            read := fun path => if path = "a.bf" then .ok (Utf8.encode "+******+.x")
              else .error "No such file or directory (os error 2)" }
        layer := fun _ => .ok {}
        filter := .silent
        grants := fun cells => cells ≤ 8
        input := []
        terminal := false }
    let overrides : Overrides :=
      { tapeSize := some 1, output := some .ascii, extensions := some true }
    let a : RunArguments := { debug := true, code := ["+***", "***+.x"], overrides }
    let a' : RunArguments := { file := some "a.bf", overrides }
    let below : RunArguments := { code := ["-", "."], overrides := { tapeSize := some 8 } }
    let tooLarge : RunArguments := { code := ["-."], overrides := { tapeSize := some 9 } }
    (a.Gives s "+******+.x" ∧ a'.Gives s "+******+.x" ∧ a'.overrides = a.overrides ∧
      below.Gives s "-." ∧ tooLarge.Gives s "-.") ∧
    (∃ fuel ending, launchRun fuel s a = some ending ∧ ending.outcome = ⟨1, [0x41, 0x0A]⟩ ∧
      (launchRun fuel s a').map Ending.outcome = some ⟨1, [0x41, 0x0A]⟩) ∧
    (∃ fuel ending, launchRun fuel s below = some ending ∧
      ending.outcome = ⟨0, [0x2D, 0x31, 0x0A]⟩) ∧
    ∀ fuel, ∃ ending, launchRun fuel s tooLarge = some ending ∧ ending.status = 1 ∧
      ending.written.stdout = #[] := by
  intro s overrides a a' below tooLarge
  have gives : a.Gives s "+******+.x" := .words rfl rfl (List.cons_ne_nil _ _) (by decide)
  have gives' : a'.Gives s "+******+.x" := .file "a.bf" rfl rfl rfl rfl
  have gives_below : below.Gives s "-." := .words rfl rfl (List.cons_ne_nil _ _) (by decide)
  have gives_tooLarge : tooLarge.Gives s "-." := .words rfl rfl (List.cons_ne_nil _ _) (by decide)
  have settle {b : RunArguments} {code : String} (given : b.Gives s code) (n : Nat)
      (outcome : Outcome)
      (executed : ((Settings.resolve s.toOrigins b.overrides).1.fresh s.grants s.input).toOption.bind
        (fun i => (i.execute n code).map
          (outcomeOf (Settings.resolve s.toOrigins b.overrides).1.output)) = some outcome) :
      ∃ fuel ending, launchRun fuel s b = some ending ∧ ending.outcome = outcome := by
    obtain ⟨-, ends, -⟩ := run_follows_execution given
    cases made : (Settings.resolve s.toOrigins b.overrides).1.fresh s.grants s.input with
    | error e =>
      rw [made] at executed
      cases executed
    | ok i =>
      rw [made] at executed
      obtain ⟨⟨result, after⟩, execution, seen⟩ := Option.map_eq_some_iff.mp executed
      obtain ⟨together, each⟩ := ends i made
      obtain ⟨fuel, ending, launched⟩ := together.mp ⟨result, after, n, execution⟩
      obtain ⟨status, stdout⟩ := each result after ⟨n, execution⟩ fuel ending launched
      exact ⟨fuel, ending, launched,
        (congrArg₂ Outcome.mk status (holds_iff.mp stdout)).trans seen⟩
  refine ⟨⟨gives, gives', rfl, gives_below, gives_tooLarge⟩, ?_, ?_, ?_⟩
  · obtain ⟨fuel, ending, launched, seen⟩ :=
      settle gives 12 ⟨1, [0x41, 0x0A]⟩ (by decide)
    obtain ⟨-, -, same⟩ := run_follows_execution gives
    exact ⟨fuel, ending, launched, seen, by rw [same a' gives' rfl fuel, launched, ← seen]; rfl⟩
  · exact settle gives_below 3 _ (by decide)
  · obtain ⟨failed, -⟩ := run_follows_execution gives_tooLarge
    exact failed (.tooLarge 9) rfl

end CommandLine

end RingTape
