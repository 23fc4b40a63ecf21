/-
# What a submission asks for

A submission is read between its blanks. A blank one asks for nothing. One that starts with
a colon is a request to the session: to leave it, to reset the tape, or for something that
changes neither. Any other is a program with comments, and if instructions are left of it
they are executed once. Whatever a submission asks for, its reply does that and nothing else,
apart from text that is printed.
-/

import RingTape.Proofs.Session.Alike
import RingTape.Proofs.Text.Blank

namespace RingTape

namespace Session

open Execution

/-- What a submission asks for. -/
inductive Ask
  | nothing
  | leave
  | reset
  | execute (code : String)
  deriving DecidableEq, Repr

/-- What the word after a colon asks for. -/
def Ask.ofWord (word : String) : Ask :=
  if word ∈ ["exit", "quit", "q"] then .leave
  else if word = "reset" then .reset
  else .nothing

/-- What a submission asks for where custom commands have the given names. -/
def Ask.of (names : List Char) (submission : String) : Ask :=
  match Text.trimList submission.toList with
  | [] => .nothing
  | ':' :: word => .ofWord (String.ofList (Text.trimList word))
  | _ =>
    let code := instructionsOnly (Text.trim submission) names
    if code = "" then .nothing else .execute code

/-- A submission that is no request to the session. -/
def IsText (submission : String) : Prop := (Text.trimList submission.toList).head? ≠ some ':'

/-- A reply does what was asked for. Beyond that it only prints. -/
inductive Answers (once : Bool) (i : Interpreter) : Ask → Reply → Prop
  | nothing (reply : Reply) (alike : i.Alike reply.interpreter)
      (executed : reply.executed = false) (ended : reply.ended = false) :
      Answers once i .nothing reply
  | leave (reply : Reply) (alike : i.Alike reply.interpreter)
      (executed : reply.executed = false) (ended : reply.ended = true) :
      Answers once i .leave reply
  | reset (reply : Reply) (alike : i.reset.Alike reply.interpreter)
      (fresh : reply.interpreter.machine.tape =
        .blank i.machine.tape.size i.machine.tape.mode i.machine.tape.size_pos)
      (executed : reply.executed = false) (ended : reply.ended = false) :
      Answers once i .reset reply
  | execute (code : String) (result : Except ExecutionError Unit) (after : Interpreter)
      (reply : Reply) (executes : i.Executes code result after)
      (alike : after.Alike reply.interpreter)
      (executed : reply.executed = true) (ended : reply.ended = once) :
      Answers once i (.execute code) reply

variable {once : Bool} {i : Interpreter} {submission code : String} {names : List Char}

/-- Every request is answered as its word asks. -/
theorem answer_ofWord (once : Bool) (line word : String) (i : Interpreter) :
    Answers once i (.ofWord word) (answer line i (.ofWord word)) := by
  unfold Request.ofWord
  split
  · exact .leave _ (.refl i) rfl rfl
  · exact .leave _ (.refl i) rfl rfl
  · exact .leave _ (.refl i) rfl rfl
  · exact .nothing _ (Interpreter.alike_print i _) rfl rfl
  · exact .nothing _ (Interpreter.alike_print i _) rfl rfl
  · exact .reset _ (Interpreter.alike_print i.reset _) rfl rfl rfl
  · exact .nothing _ (.refl i) rfl rfl
  · next not_exit not_quit not_q not_help not_h not_reset not_tape =>
    have other : Ask.ofWord word = .nothing := by
      rw [Ask.ofWord, if_neg (by simp; exact ⟨not_exit, not_quit, not_q⟩), if_neg not_reset]
    rw [other]
    exact .nothing _ (Interpreter.alike_print i _) rfl rfl

/-! ### The three kinds of submissions -/

section Kinds

variable {c : Char} {word rest : List Char}

theorem trim_eq_empty_iff : Text.trim submission = "" ↔ Text.trimList submission.toList = [] :=
  String.ofList_eq_empty_iff

theorem Ask.of_blank (blank : Text.trimList submission.toList = []) :
    Ask.of names submission = .nothing := by
  rw [Ask.of, blank]

theorem Ask.of_request (request : Text.trimList submission.toList = ':' :: word) :
    Ask.of names submission = .ofWord (String.ofList (Text.trimList word)) := by
  rw [Ask.of, request]
  rfl

theorem Ask.of_text (text : Text.trimList submission.toList = c :: rest) (program : c ≠ ':') :
    Ask.of names submission =
      if instructionsOnly (Text.trim submission) names = "" then .nothing
      else .execute (instructionsOnly (Text.trim submission) names) := by
  rw [Ask.of, text]
  split
  · contradiction
  · next equal => exact absurd (List.cons.inj equal).1 program
  · rfl

/-- A blank submission is passed over. -/
theorem submit_blank (blank : Text.trimList submission.toList = []) (fuel : Nat) (once : Bool)
    (i : Interpreter) : submit fuel once submission i = some { interpreter := i } := by
  rw [submit, if_pos (trim_eq_empty_iff.mpr blank)]

/-- A submission with a colon is a request. -/
theorem submit_request (request : Text.trimList submission.toList = ':' :: word) (fuel : Nat)
    (once : Bool) (i : Interpreter) :
    submit fuel once submission i =
      some (answer (Text.trim submission) i (.ofWord (String.ofList (Text.trimList word)))) := by
  have solid : ¬ Text.trim submission = "" := by simp [trim_eq_empty_iff, request]
  have parsed : Request.parse (Text.trim submission) =
      some (.ofWord (String.ofList (Text.trimList word))) := by
    rw [Request.parse, Text.trim, String.toList_ofList, Text.trimList_trimList, request]
    rfl
  rw [submit, if_neg solid, parsed]

/-- Any other submission is program text. -/
theorem submit_text (text : Text.trimList submission.toList = c :: rest) (program : c ≠ ':')
    (fuel : Nat) (once : Bool) (i : Interpreter) :
    submit fuel once submission i =
      (runText fuel (Text.trim submission) i).map fun reply =>
        { reply with ended := once && reply.executed } := by
  have solid : ¬ Text.trim submission = "" := by simp [trim_eq_empty_iff, text]
  have parsed : Request.parse (Text.trim submission) = none := by
    rw [Request.parse, Text.trim, String.toList_ofList, Text.trimList_trimList, text]
    split
    · next equal => exact absurd (List.cons.inj equal).1 program
    · rfl
  rw [submit, if_neg solid, parsed]

end Kinds

/-- What is no execution is answered at once. -/
theorem exists_reply (once : Bool) (submission : String) (i : Interpreter)
    (idle : ∀ code, Ask.of i.registry.customNames submission ≠ .execute code) :
    ∃ reply, (∀ fuel, submit fuel once submission i = some reply) ∧
      Answers once i (Ask.of i.registry.customNames submission) reply := by
  cases text : Text.trimList submission.toList with
  | nil =>
    refine ⟨{ interpreter := i }, fun fuel => submit_blank text fuel once i, ?_⟩
    rw [Ask.of_blank text]
    exact .nothing _ (.refl i) rfl rfl
  | cons c rest =>
    by_cases request : c = ':'
    · subst request
      refine ⟨_, fun fuel => submit_request text fuel once i, ?_⟩
      rw [Ask.of_request text]
      exact answer_ofWord once _ _ i
    · rw [Ask.of_text text request] at idle ⊢
      by_cases empty : instructionsOnly (Text.trim submission) i.registry.customNames = ""
      · refine ⟨{ interpreter := i, ended := once && false }, ?_, ?_⟩
        · intro fuel
          rw [submit_text text request, runText, if_pos empty]
          rfl
        · rw [if_pos empty]
          exact .nothing _ (.refl i) rfl (Bool.and_false once)
      · rw [if_neg empty] at idle
        exact absurd rfl (idle _)

/-- A program is executed once. -/
theorem submit_of_execute (fuel : Nat) (once : Bool)
    (asks : Ask.of i.registry.customNames submission = .execute code) :
    submit fuel once submission i = (i.executeBuffer fuel code).map fun after =>
      { interpreter := after, executed := true, ended := once } := by
  cases text : Text.trimList submission.toList with
  | nil =>
    rw [Ask.of_blank text] at asks
    cases asks
  | cons c rest =>
    by_cases request : c = ':'
    · subst request
      rw [Ask.of_request text, Ask.ofWord] at asks
      split at asks
      · cases asks
      · split at asks <;> cases asks
    · rw [Ask.of_text text request] at asks
      by_cases empty : instructionsOnly (Text.trim submission) i.registry.customNames = ""
      · rw [if_pos empty] at asks
        cases asks
      · rw [if_neg empty] at asks
        rw [submit_text text request, runText, if_neg empty, Ask.execute.inj asks, Option.map_map]
        simp [Function.comp_def]

/-- The reply to a submission does what was asked for. -/
theorem answers_of_submit {fuel : Nat} {reply : Reply}
    (submitted : submit fuel once submission i = some reply) :
    Answers once i (Ask.of i.registry.customNames submission) reply := by
  cases asks : Ask.of i.registry.customNames submission with
  | execute code =>
    rw [submit_of_execute fuel once asks, Interpreter.executeBuffer, Option.map_map] at submitted
    obtain ⟨⟨result, after⟩, executed, rfl⟩ := Option.map_eq_some_iff.mp submitted
    refine .execute code result after _ ⟨fuel, executed⟩ ?_ rfl rfl
    cases result with
    | ok => exact .refl after
    | error e => exact Interpreter.alike_print after _
  | _ =>
    obtain ⟨other, always, answers⟩ := exists_reply once submission i (by simp [asks])
    rw [always fuel] at submitted
    cases submitted
    rwa [asks] at answers

/-- A submission is answered if what it asks for comes to an end. -/
theorem exists_submit (once : Bool) (submission : String) (i : Interpreter)
    (ends : ∀ code, Ask.of i.registry.customNames submission = .execute code →
      i.Terminates code) :
    ∃ fuel reply, submit fuel once submission i = some reply := by
  cases asks : Ask.of i.registry.customNames submission with
  | execute code =>
    obtain ⟨result, after, fuel, executed⟩ := ends code asks
    refine ⟨fuel, ?_⟩
    rw [submit_of_execute fuel once asks, Interpreter.executeBuffer, executed]
    exact ⟨_, rfl⟩
  | _ =>
    obtain ⟨reply, always, -⟩ := exists_reply once submission i (by simp [asks])
    exact ⟨0, reply, always 0⟩

/-- With more steps the reply is the same. -/
theorem submit_add {fuel : Nat} {reply : Reply}
    (submitted : submit fuel once submission i = some reply) (more : Nat) :
    submit (fuel + more) once submission i = some reply := by
  cases asks : Ask.of i.registry.customNames submission with
  | execute code =>
    rw [submit_of_execute _ once asks, Interpreter.executeBuffer] at submitted ⊢
    cases executed : i.execute fuel code with
    | none =>
      rw [executed] at submitted
      cases submitted
    | some answer => rwa [Interpreter.execute_add executed, ← executed]
  | _ =>
    obtain ⟨other, always, -⟩ := exists_reply once submission i (by simp [asks])
    rw [always] at submitted ⊢
    exact submitted

end Session

end RingTape
