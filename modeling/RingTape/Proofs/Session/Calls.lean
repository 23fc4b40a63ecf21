/-
# Sessions as calls

What a session does to its interpreter is a sequence of calls: some submissions reset it,
some execute a program on it, and the others are passed over. An error in one call does not
keep the next from being made. Whether the session comes to its end, and with what tape and
what numbers, is known from these calls alone, since what it prints beside them makes no
difference.

Where every call is an execution that ends well, they come to what the execution of all
programs as one comes to. A bare session on the same text does just that.
-/

import RingTape.CommandLine.Launch
import RingTape.Proofs.Execution.Concatenation
import RingTape.Proofs.Session.Submissions
import RingTape.Proofs.Text.Utf8

namespace RingTape

namespace CommandLine

/-- The environment decides whether a session of the program ends with its first
execution. -/
theorem once_of_launchSession {fuel : Nat} {s : Surroundings} {a : SessionArguments}
    {opening : Written} {c : Conversation}
    (launched : launchSession fuel s a = some (.prompt opening c)) :
    c.once = true ↔ s.env "TAPEBF_REPL_ONCE" = some "1" := by
  unfold launchSession at launched
  split at launched
  · cases launched
  · split at launched
    · cases launched
    · next mode selected =>
      simp only at launched
      split at launched
      · cases launched
      · cases mode with
        | bare =>
          obtain ⟨_, -, equal⟩ := Option.map_eq_some_iff.mp launched
          cases equal
        | editor =>
          cases launched
          exact decide_eq_true_iff

end CommandLine

namespace Session

open CommandLine Execution

/-- What a session can do to its interpreter. -/
inductive Call
  | reset
  | execute (code : String)
  deriving DecidableEq, Repr

/-- The calls that are made for what is asked. -/
def Ask.calls : Ask → List Call
  | .nothing | .leave => []
  | .reset => [.reset]
  | .execute code => [.execute code]

/-- Whether the session is over after what is asked. -/
def Ask.ends (once : Bool) : Ask → Bool
  | .nothing | .reset => false
  | .leave => true
  | .execute _ => once

/-- The calls that submissions lead to, up to the one that ends the session. -/
def calls (names : List Char) (once : Bool) : List String → List Call
  | [] => []
  | submission :: rest =>
    let ask := Ask.of names submission
    ask.calls ++ if ask.ends once then [] else calls names once rest

/-- Calls are made one after the other. The executions among them give results, and the last
call leaves an interpreter behind. -/
inductive Makes :
    Interpreter → List Call → List (Except ExecutionError Unit) → Interpreter → Prop
  | done (i : Interpreter) : Makes i [] [] i
  | reset {i j : Interpreter} {later : List Call} {results : List (Except ExecutionError Unit)}
      (makes : Makes i.reset later results j) : Makes i (.reset :: later) results j
  | execute {i after j : Interpreter} {code : String} {result : Except ExecutionError Unit}
      {later : List Call} {results : List (Except ExecutionError Unit)}
      (executes : i.Executes code result after) (makes : Makes after later results j) :
      Makes i (.execute code :: later) (result :: results) j

/-- The interpreter after the last of some replies. -/
def last : Interpreter → List Reply → Interpreter
  | i, [] => i
  | _, reply :: rest => last reply.interpreter rest

variable {once : Bool} {i j k : Interpreter} {ask : Ask} {reply : Reply}
  {submissions : List String} {names : List Char} {made first second : List Call}
  {results : List (Except ExecutionError Unit)}

/-! ### Calls -/

/-- Calls have one outcome. -/
theorem Makes.unique {others : List (Except ExecutionError Unit)} (one : Makes i made results j)
    (two : Makes i made others k) : results = others ∧ j = k := by
  induction one generalizing others with
  | done i =>
    cases two
    exact ⟨rfl, rfl⟩
  | reset _ ih =>
    cases two with
    | reset makes => exact ih makes
  | execute executes _ ih =>
    cases two with
    | execute executes' makes =>
      obtain ⟨rfl, rfl⟩ := executes.unique executes'
      obtain ⟨rfl, rfl⟩ := ih makes
      exact ⟨rfl, rfl⟩

/-- Interpreters that are alike are alike after the same calls. -/
theorem Makes.exists_alike (makes : Makes i made results j) (alike : i.Alike k) :
    ∃ j', Makes k made results j' ∧ j.Alike j' := by
  induction makes generalizing k with
  | done i => exact ⟨k, .done k, alike⟩
  | reset _ ih =>
    obtain ⟨j', makes, same⟩ := ih alike.reset
    exact ⟨j', .reset makes, same⟩
  | execute executes _ ih =>
    obtain ⟨after', executes', between⟩ := alike.exists_executes executes
    obtain ⟨j', makes, same⟩ := ih between
    exact ⟨j', .execute executes' makes, same⟩

/-- Calls can be made in two parts. -/
theorem makes_append_iff :
    Makes i (first ++ second) results j ↔
      ∃ early k late, Makes i first early k ∧ Makes k second late j ∧
        results = early ++ late := by
  constructor
  · intro makes
    induction first generalizing i results with
    | nil => exact ⟨[], i, results, .done i, makes, rfl⟩
    | cons call rest ih =>
      cases makes with
      | reset makes =>
        obtain ⟨early, k, late, before, behind, rfl⟩ := ih makes
        exact ⟨early, k, late, .reset before, behind, rfl⟩
      | execute executes makes =>
        obtain ⟨early, k, late, before, behind, rfl⟩ := ih makes
        exact ⟨_ :: early, k, late, .execute executes before, behind, rfl⟩
  · rintro ⟨early, k, late, before, behind, rfl⟩
    induction before with
    | done => exact behind
    | reset _ ih => exact .reset (ih behind)
    | execute executes _ ih => exact .execute executes (ih behind)

/-! ### Runs of sessions -/

theorem Answers.ended_eq (answers : Answers once i ask reply) : reply.ended = ask.ends once := by
  cases answers <;> assumption

theorem Answers.registry_eq (answers : Answers once i ask reply) :
    reply.interpreter.registry = i.registry := by
  cases answers with
  | nothing _ alike => exact alike.registry
  | leave _ alike => exact alike.registry
  | reset _ alike => exact alike.registry
  | execute _ _ _ _ executes alike => exact alike.registry.trans executes.registry_eq

/-- The reply to a submission makes the calls that were asked for. -/
theorem Answers.exists_makes (answers : Answers once i ask reply) :
    ∃ results j, Makes i ask.calls results j ∧ j.Alike reply.interpreter := by
  cases answers with
  | nothing _ alike => exact ⟨[], i, .done i, alike⟩
  | leave _ alike => exact ⟨[], i, .done i, alike⟩
  | reset _ alike => exact ⟨[], i.reset, .reset (.done i.reset), alike⟩
  | execute _ result after _ executes alike =>
    exact ⟨[result], after, .execute executes (.done after), alike⟩

/-- A reply that does not end the session is followed by those to the other submissions. -/
theorem run_cons_iff {fuel : Nat} {submission : String} {replies : List Reply} :
    run fuel once (submission :: submissions) i = some replies ↔
      ∃ reply, submit fuel once submission i = some reply ∧
        ((reply.ended = true ∧ replies = [reply]) ∨
          (reply.ended = false ∧ ∃ others,
            run fuel once submissions reply.interpreter = some others ∧
              replies = reply :: others)) := by
  rw [run]
  apply Option.bind_eq_some_iff.trans
  apply exists_congr
  intro reply
  apply and_congr_right
  intro _
  cases ended : reply.ended with
  | true => simp [eq_comm]
  | false =>
    simp only [Bool.false_eq_true, if_false, false_and, false_or, true_and]
    apply Option.bind_eq_some_iff.trans
    simp [eq_comm]

/-- With more steps a session takes the same course. -/
theorem run_add {fuel : Nat} {replies : List Reply}
    (ran : run fuel once submissions i = some replies) (more : Nat) :
    run (fuel + more) once submissions i = some replies := by
  induction submissions generalizing i replies with
  | nil => exact ran
  | cons submission rest ih =>
    rw [run_cons_iff] at ran ⊢
    obtain ⟨reply, submitted, goes⟩ := ran
    refine ⟨reply, submit_add submitted more, ?_⟩
    rcases goes with stopped | ⟨ended, others, ran, equal⟩
    · exact .inl stopped
    · exact .inr ⟨ended, others, ih ran, equal⟩

/-- A session makes the calls that its submissions lead to. -/
theorem exists_makes_of_run {fuel : Nat} {replies : List Reply}
    (ran : run fuel once submissions i = some replies) :
    ∃ results j, Makes i (calls i.registry.customNames once submissions) results j ∧
      j.Alike (last i replies) := by
  induction submissions generalizing i replies with
  | nil =>
    cases ran
    exact ⟨[], i, .done i, .refl i⟩
  | cons submission rest ih =>
    obtain ⟨reply, submitted, goes⟩ := run_cons_iff.mp ran
    have answers := answers_of_submit submitted
    obtain ⟨early, k, before, alike⟩ := answers.exists_makes
    rw [calls, ← answers.ended_eq]
    rcases goes with ⟨ended, rfl⟩ | ⟨ended, others, later, rfl⟩
    · rw [if_pos ended, List.append_nil]
      exact ⟨early, k, before, alike⟩
    · obtain ⟨late, j', behind, same⟩ := ih later
      obtain ⟨j, makes, between⟩ := behind.exists_alike alike.symm
      rw [answers.registry_eq] at makes
      refine ⟨early ++ late, j, ?_, between.symm.trans same⟩
      rw [if_neg (by simp [ended])]
      exact makes_append_iff.mpr ⟨early, k, late, before, makes, rfl⟩

/-- Where the calls come to an end the session does. -/
theorem exists_run_of_makes
    (makes : Makes i (calls i.registry.customNames once submissions) results j) :
    ∃ fuel replies, run fuel once submissions i = some replies := by
  induction submissions generalizing i results j with
  | nil => exact ⟨0, [], rfl⟩
  | cons submission rest ih =>
    rw [calls] at makes
    obtain ⟨early, k, late, before, behind, -⟩ := makes_append_iff.mp makes
    have ends (code : String) (asks : Ask.of i.registry.customNames submission = .execute code) :
        i.Terminates code := by
      rw [asks] at before
      cases before with
      | execute executes => exact ⟨_, _, executes⟩
    obtain ⟨fuel, reply, submitted⟩ := exists_submit once submission i ends
    have answers := answers_of_submit submitted
    rw [← answers.ended_eq] at behind
    cases ended : reply.ended with
    | true => exact ⟨fuel, [reply], run_cons_iff.mpr ⟨reply, submitted, .inl ⟨ended, rfl⟩⟩⟩
    | false =>
      obtain ⟨_, k', before', alike⟩ := answers.exists_makes
      obtain ⟨-, rfl⟩ := before.unique before'
      rw [if_neg (by simp [ended]), ← answers.registry_eq] at behind
      obtain ⟨_, behind', -⟩ := behind.exists_alike alike
      obtain ⟨more, others, ran⟩ := ih behind'
      have ran' := run_add ran fuel
      rw [Nat.add_comm] at ran'
      exact ⟨fuel + more, reply :: others, run_cons_iff.mpr
        ⟨reply, submit_add submitted more, .inr ⟨ended, others, ran', rfl⟩⟩⟩

/-! ### Sessions that only execute -/

/-- Program text asks for the execution of what is left of it. -/
theorem Ask.of_isText {submission : String} (text : IsText submission) (names : List Char) :
    Ask.of names submission =
      if instructionsOnly (Text.trim submission) names = "" then .nothing
      else .execute (instructionsOnly (Text.trim submission) names) := by
  cases trimmed : Text.trimList submission.toList with
  | nil =>
    have empty : Text.trim submission = "" := trim_eq_empty_iff.mpr trimmed
    rw [Ask.of_blank trimmed, empty]
    rfl
  | cons c rest =>
    apply Ask.of_text trimmed
    intro colon
    rw [IsText, trimmed, colon] at text
    exact text rfl

/-- Executions that all end well come to what the execution of their programs as one comes
to. -/
theorem exists_executes_join (texts : ∀ submission ∈ submissions, IsText submission)
    (makes : Makes i (calls names false submissions) results j)
    (well : ∀ result ∈ results, result = .ok ()) :
    ∃ after, i.Executes (String.join (submissions.map fun submission =>
        instructionsOnly (Text.trim submission) names)) (.ok ()) after ∧
      after.machine.tape = j.machine.tape ∧ after.machine.sink = j.machine.sink := by
  induction submissions generalizing i results with
  | nil =>
    cases makes with
    | done => exact ⟨_, ⟨1, rfl⟩, rfl, rfl⟩
  | cons submission rest ih =>
    have texts' : ∀ submission ∈ rest, IsText submission := fun other member =>
      texts other (List.mem_cons_of_mem submission member)
    rw [List.map_cons, String.join_cons]
    rw [calls, Ask.of_isText (texts submission List.mem_cons_self) names] at makes
    generalize instructionsOnly (Text.trim submission) names = code at makes ⊢
    by_cases empty : code = ""
    · rw [if_pos empty] at makes
      rw [empty, String.empty_append]
      exact ih texts' makes well
    · rw [if_neg empty] at makes
      cases makes with
      | execute executes later =>
        obtain rfl := well _ List.mem_cons_self
        obtain ⟨after, whole, tape, sink⟩ := ih texts' later fun result member =>
          well result (List.mem_cons_of_mem _ member)
        obtain ⟨after', both, related⟩ := Interpreter.exists_executes_append executes whole
        exact ⟨after', both, related.tape.trans tape, related.sink.trans sink⟩

/-- A bare session executes what is left of its input. -/
theorem runBare_encode (fuel : Nat) (text : String) (i : Interpreter) :
    let code := instructionsOnly (Text.trim text) i.registry.customNames
    runBare fuel (Utf8.encode text) i =
      if code = "" then some i else i.executeBuffer fuel code := by
  intro code
  have ran : (runText fuel (Text.trim text) i).map Reply.interpreter =
      if code = "" then some i else i.executeBuffer fuel code := by
    by_cases empty : code = ""
    · rw [runText, if_pos empty, if_pos empty]
      rfl
    · rw [runText, if_neg empty, if_neg empty, Option.map_map]
      exact Option.map_id'
  rw [runBare, readSubmission, Utf8.decode?_encode]
  by_cases empty : text = ""
  · have nothing : code = "" := by
      show instructionsOnly (Text.trim text) i.registry.customNames = ""
      rw [empty]
      rfl
    simp only [if_pos empty, if_pos nothing]
  · simp only [if_neg empty]
    exact ran

/-- Trimming takes no instructions away, unless a custom command has a blank name. -/
theorem instructionsOnly_trim (solid : ∀ name ∈ names, Text.isBlank name = false)
    (text : String) : instructionsOnly (Text.trim text) names = instructionsOnly text names := by
  have dropped (c : Char) (blank : Text.isBlank c) : isInstruction names c = false := by
    have builtin : instructions.all fun c => !Text.isBlank c := by decide
    apply Bool.eq_false_iff.mpr
    intro kept
    rcases Bool.or_eq_true_iff.mp kept with known | known
    · have other := List.all_eq_true.mp builtin c (List.contains_iff_mem.mp known)
      rw [blank] at other
      cases other
    · rw [solid c (List.contains_iff_mem.mp known)] at blank
      cases blank
  rw [instructionsOnly, Text.trim, String.toList_ofList, Text.filter_trimList dropped]
  rfl

/-- The instructions of texts one after the other are those of each. -/
theorem instructionsOnly_join (texts : List String) (names : List Char) :
    instructionsOnly (String.join texts) names =
      String.join (texts.map fun text => instructionsOnly text names) := by
  induction texts with
  | nil => rfl
  | cons text rest ih =>
    rw [List.map_cons, String.join_cons, String.join_cons, ← ih, instructionsOnly,
      String.toList_append, List.filter_append, String.ofList_append]
    rfl

/-- A bare session leaves what the execution of the instructions in its input leaves. -/
theorem exists_runBare {text : String} {whole : Interpreter}
    (executed : i.Executes (instructionsOnly (Text.trim text) i.registry.customNames) (.ok ())
      whole) :
    ∃ fuel bare, runBare fuel (Utf8.encode text) i = some bare ∧
      bare.machine.tape = whole.machine.tape ∧ bare.machine.sink = whole.machine.sink := by
  by_cases empty : instructionsOnly (Text.trim text) i.registry.customNames = ""
  · rw [empty] at executed
    obtain ⟨-, rfl⟩ := executed.unique ⟨1, rfl⟩
    exact ⟨0, i, by rw [runBare_encode, if_pos empty], rfl, rfl⟩
  · obtain ⟨fuel, executed⟩ := executed
    refine ⟨fuel, whole, ?_, rfl, rfl⟩
    rw [runBare_encode, if_neg empty, Interpreter.executeBuffer, executed]
    rfl

/-! ### The fold -/

/-- An error leaves the tape and the numbers as they were when it was met. -/
theorem exists_reached_of_error {code : String} {e : ExecutionError} {after : Interpreter}
    (executed : i.Executes code (.error e) after) :
    ∃ n c, i.Reaches code n c ∧ Performs code.toList i.registry c (.halt (.error e) c) ∧
      after.machine.tape = c.machine.tape ∧ after.machine.sink = c.machine.sink := by
  obtain ⟨n, c, reached, last, rfl⟩ := Interpreter.executes_iff.mp executed
  exact ⟨n, c, reached, last, rfl, rfl⟩

/-- A session is the fold of its submissions, whether or not the environment has it end with
its first execution. A blank one changes nothing, a request does
what its word asks and executes nothing, and anything else is executed once if instructions
are left of it, where an error keeps what was reached and ends nothing. So the session comes
to its end exactly if the calls that its submissions lead to do, and with what they come to.
Where all of these are executions that end well, and none ends the session, the execution of
all programs as one comes to the same tape and numbers, and so does a bare session on the
submissions one after the other if no command has a blank name. -/
theorem session_folds (once : Bool) (submissions : List String) (i : Interpreter) :
    let names := i.registry.customNames
    (∀ fuel s a opening c, launchSession fuel s a = some (.prompt opening c) →
      (c.once = true ↔ s.env "TAPEBF_REPL_ONCE" = some "1")) ∧
    (∀ submission fuel reply, submit fuel once submission i = some reply →
      Answers once i (Ask.of names submission) reply ∧
        (Text.trim submission = "" → reply = { interpreter := i })) ∧
    (∀ code e after, i.Executes code (.error e) after →
      ∃ n c, i.Reaches code n c ∧ Performs code.toList i.registry c (.halt (.error e) c) ∧
        after.machine.tape = c.machine.tape ∧ after.machine.sink = c.machine.sink) ∧
    ((∃ fuel replies, run fuel once submissions i = some replies) ↔
      ∃ results j, Makes i (calls names once submissions) results j) ∧
    ∀ fuel replies results j, run fuel once submissions i = some replies →
      Makes i (calls names once submissions) results j →
      j.Alike (last i replies) ∧
      (once = false → (∀ submission ∈ submissions, IsText submission) →
        (∀ result ∈ results, result = .ok ()) →
        (∃ whole, i.Executes (String.join (submissions.map fun submission =>
              instructionsOnly (Text.trim submission) names)) (.ok ()) whole ∧
            (last i replies).machine.tape = whole.machine.tape ∧
            (last i replies).machine.sink = whole.machine.sink) ∧
        ((∀ name ∈ names, Text.isBlank name = false) →
          ∃ fuel bare, runBare fuel (Utf8.encode (String.join submissions)) i = some bare ∧
            (last i replies).machine.tape = bare.machine.tape ∧
            (last i replies).machine.sink = bare.machine.sink)) := by
  intro names
  refine ⟨?_, ?_, ?_, ⟨?_, ?_⟩, ?_⟩
  · intro fuel s a opening c launched
    exact once_of_launchSession launched
  · intro submission fuel reply submitted
    refine ⟨answers_of_submit submitted, ?_⟩
    intro blank
    rw [submit_blank (trim_eq_empty_iff.mp blank)] at submitted
    exact (Option.some.inj submitted).symm
  · intro code e after executed
    exact exists_reached_of_error executed
  · rintro ⟨fuel, replies, ran⟩
    obtain ⟨results, j, makes, -⟩ := exists_makes_of_run ran
    exact ⟨results, j, makes⟩
  · rintro ⟨results, j, makes⟩
    exact exists_run_of_makes makes
  · intro fuel replies results j ran makes
    obtain ⟨_, _, makes', alike⟩ := exists_makes_of_run ran
    obtain ⟨rfl, rfl⟩ := makes.unique makes'
    refine ⟨alike, ?_⟩
    rintro rfl texts well
    obtain ⟨whole, executed, tape, sink⟩ := exists_executes_join texts makes well
    have same_tape : (last i replies).machine.tape = whole.machine.tape :=
      alike.machine.tape.trans tape.symm
    have same_sink : (last i replies).machine.sink = whole.machine.sink :=
      alike.machine.sink.trans sink.symm
    refine ⟨⟨whole, executed, same_tape, same_sink⟩, ?_⟩
    intro solid
    have trimmed : (submissions.map fun submission =>
        instructionsOnly (Text.trim submission) names) =
        submissions.map fun submission => instructionsOnly submission names :=
      List.map_congr_left fun submission _ => instructionsOnly_trim solid submission
    rw [trimmed, ← instructionsOnly_join, ← instructionsOnly_trim solid] at executed
    obtain ⟨fuel, bare, ran, tape', sink'⟩ := exists_runBare executed
    exact ⟨fuel, bare, ran, same_tape.trans tape'.symm, same_sink.trans sink'.symm⟩

end Session

end RingTape
