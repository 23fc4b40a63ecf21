/-
# Loops as loops

A program can be run as the tree that it is: a command is performed, a loop runs its
body again as long as the current cell is not zero, and no index or stack says where
to go on. For a balanced text this comes to the same as the run over its characters,
which knows of loops only as jumps: either both end, with the same result and the
same machine but for what the run notes of its jumps, or neither does.

One half follows a part of the tree by the run, from the first character of that
part to the one behind it, with the same stack at both. The other half starts from a
run that ends. A loop that goes round once more leaves a shorter run to its end, so
that the number of steps bounds the rounds.
-/

import RingTape.Proofs.Execution.Stepping
import RingTape.Proofs.Program.Block

namespace RingTape

/-- How a part of a program ended, and the machine that it left behind. -/
abbrev Ending := Except ExecutionError Unit × Machine

namespace Block

/-! ## Running a tree -/

/-- Go on after a part that ended well. -/
def andThen (next : Machine → Option Ending) : Option Ending → Option Ending
  | some (.ok (), m) => next m
  | other => other

/-- Run the body of a loop again as long as the current cell is not zero. The answer
is `none` if that was not over after `fuel` tests. -/
def repeatWhile (body : Machine → Option Ending) : Nat → Machine → Option Ending
  | 0, _ => none
  | fuel + 1, m =>
    if m.get = 0 then some (.ok (), m) else andThen (repeatWhile body fuel) (body m)

theorem repeatWhile_of_zero {m : Machine} (body : Machine → Option Ending) (fuel : Nat)
    (zero : m.get = 0) : repeatWhile body (fuel + 1) m = some (.ok (), m) :=
  if_pos zero

theorem repeatWhile_of_nonzero {m : Machine} (body : Machine → Option Ending) (fuel : Nat)
    (nonzero : m.get ≠ 0) :
    repeatWhile body (fuel + 1) m = andThen (repeatWhile body fuel) (body m) :=
  if_neg nonzero

/-- Run a block whose first character has the given position. -/
def evaluate (registry : Registry) (fuel : Nat) : Block → Nat → Machine → Option Ending
  | empty, _, m => some (.ok (), m)
  | command name _ rest, position, m =>
    match registry.resolve name with
    | some routine => rest.evaluate registry fuel (position + 1) (m.performAt position routine)
    | none => some (.error (.unknownCommand name position), m)
  | loop body rest, position, m =>
    andThen (rest.evaluate registry fuel (position + 1 + body.spell.length + 1))
      (repeatWhile (body.evaluate registry fuel (position + 1)) fuel m)

/-- A block that is a whole program runs to an end. -/
def Evaluates (block : Block) (registry : Registry) (m : Machine)
    (result : Except ExecutionError Unit) (after : Machine) : Prop :=
  ∃ fuel, block.evaluate registry fuel 0 m = some (result, after)

theorem andThen_eq_some_iff {next : Machine → Option Ending} {first : Option Ending}
    {result : Except ExecutionError Unit} {after : Machine} :
    andThen next first = some (result, after) ↔
      (∃ m, first = some (.ok (), m) ∧ next m = some (result, after)) ∨
      ∃ e, first = some (.error e, after) ∧ result = .error e := by
  match first with
  | none => simp [andThen]
  | some (.ok (), m) => simp [andThen]
  | some (.error e, m) =>
    simp only [andThen, Option.some.injEq, Prod.mk.injEq]
    constructor
    · rintro ⟨rfl, rfl⟩
      exact .inr ⟨e, ⟨rfl, rfl⟩, rfl⟩
    · rintro (⟨_, ⟨impossible, -⟩, -⟩ | ⟨_, ⟨same, rfl⟩, rfl⟩)
      · cases impossible
      · exact ⟨same, rfl⟩

/-- If both parts keep their answers, so do they one after the other. -/
theorem andThen_mono {next more : Machine → Option Ending} {first again : Option Ending}
    (firsts : ∀ ending, first = some ending → again = some ending)
    (nexts : ∀ m ending, next m = some ending → more m = some ending) (ending : Ending)
    (done : andThen next first = some ending) : andThen more again = some ending := by
  obtain ⟨result, after⟩ := ending
  rcases andThen_eq_some_iff.mp done with ⟨m, begun, ended⟩ | ⟨e, failed, rfl⟩
  · exact andThen_eq_some_iff.mpr (.inl ⟨m, firsts _ begun, nexts m _ ended⟩)
  · exact andThen_eq_some_iff.mpr (.inr ⟨e, firsts _ failed, rfl⟩)

theorem repeatWhile_mono {body again : Machine → Option Ending} {fuel more : Nat}
    (bodies : ∀ m ending, body m = some ending → again m = some ending) (le : fuel ≤ more)
    (m : Machine) (ending : Ending) (done : repeatWhile body fuel m = some ending) :
    repeatWhile again more m = some ending := by
  induction fuel generalizing more m ending with
  | zero => cases done
  | succ fuel ih =>
    obtain ⟨more, rfl⟩ := Nat.exists_eq_add_of_lt le
    rcases eq_or_ne m.get 0 with zero | nonzero
    · rw [repeatWhile_of_zero _ _ zero] at done ⊢
      exact done
    · rw [repeatWhile_of_nonzero _ _ nonzero] at done ⊢
      exact andThen_mono (bodies m) (ih (Nat.le_add_right fuel more)) ending done

/-- With more fuel an evaluation comes to the same end. -/
theorem evaluate_mono (registry : Registry) {fuel more : Nat} (le : fuel ≤ more) (block : Block)
    (position : Nat) (m : Machine) (ending : Ending)
    (done : block.evaluate registry fuel position m = some ending) :
    block.evaluate registry more position m = some ending := by
  induction block generalizing position m ending with
  | empty => exact done
  | command name plain rest ih =>
    rw [evaluate] at done ⊢
    split at done
    · exact ih _ _ _ done
    · exact done
  | loop body rest ihBody ihRest =>
    exact andThen_mono (repeatWhile_mono (ihBody (position + 1)) le m) (ihRest _) ending done

/-! ## Following a tree by a run -/

open Execution Nesting

variable {program : Program} {registry : Registry} {start middle stop header close : Nat}

/-- Where a run is when a part of its program has ended: behind that part, with the
stack it had before it, or at the step that aborts it. -/
def Arrives (text : List Char) (registry : Registry) (stop : Nat) (calls : List Nat)
    (final : Configuration) : Except ExecutionError Unit → Prop
  | .ok () => final.index = stop ∧ final.calls = calls
  | .error e => Performs text registry final (.halt (.error e) final)

/-- What a part of a tree comes to, a run that begins at `start` comes to as well. -/
def Sound (program : Program) (registry : Registry) (start stop : Nat)
    (part : Machine → Option Ending) : Prop :=
  ∀ base c m result after, c.index = start → Machine.Relocated id base c.machine m →
    part m = some (result, after) →
    ∃ n final, advance program registry n c = .running final ∧
      Machine.Relocated id base final.machine after ∧
      Arrives program.toList registry stop c.calls final result

/-- One part follows on the other in the run as in the tree. -/
theorem Sound.andThen {first next : Machine → Option Ending}
    (before : Sound program registry start middle first)
    (behind : Sound program registry middle stop next) :
    Sound program registry start stop fun m => andThen next (first m) := by
  intro base c m result after index related done
  rcases andThen_eq_some_iff.mp done with ⟨m₁, begun, ended⟩ | ⟨e, failed, rfl⟩
  · obtain ⟨n, d, run, between, at_middle, calls⟩ := before base c m _ m₁ index related begun
    obtain ⟨k, final, rest, still, arrives⟩ := behind base d m₁ _ _ at_middle between ended
    rw [calls] at arrives
    exact ⟨n + k, final, by rwa [advance_add run], still, arrives⟩
  · exact before base c m _ _ index related failed

/-- A step goes first. -/
theorem Sound.of_next {part : Machine → Option Ending}
    (behind : Sound program registry middle stop part) {base m after : Machine}
    {c d : Configuration} {row : Row} {result : Except ExecutionError Unit}
    (performs : Performs program.toList registry c (.next row d)) (index : d.index = middle)
    (related : Machine.Relocated id base d.machine m) (done : part m = some (result, after)) :
    ∃ n final, advance program registry n c = .running final ∧
      Machine.Relocated id base final.machine after ∧
      Arrives program.toList registry stop d.calls final result := by
  obtain ⟨n, final, run, still, arrives⟩ := behind base d m result after index related done
  exact ⟨n + 1, final, by rwa [advance_succ_of_next performs], still, arrives⟩

/-- A loop is run by its jumps. -/
theorem Sound.repeatWhile {body : Machine → Option Ending}
    (opened : program.toList[header]? = some loopOpen)
    (found : partner program.toList header = some close)
    (inside : Sound program registry (header + 1) close body) (fuel : Nat) :
    Sound program registry header (close + 1) (repeatWhile body fuel) := by
  obtain ⟨-, closed, -⟩ := (partner_eq_some_iff opened).mp found
  induction fuel with
  | zero =>
    intro base c m result after _ _ done
    cases done
  | succ fuel ih =>
    intro base c m result after index related done
    subst index
    rcases eq_or_ne c.machine.get 0 with zero | nonzero
    · rw [repeatWhile_of_zero _ _ (related.get_eq.trans zero)] at done
      cases done
      exact ⟨1, c.skipped close, advance_succ_of_next (.skip close opened found zero),
        related.record_left rfl, rfl, rfl⟩
    · rw [repeatWhile_of_nonzero _ _ (related.get_eq.trans_ne nonzero)] at done
      have enters : Performs program.toList registry c
          (.next (c.row loopOpen (.enter close) (c.entered close)) (c.entered close)) :=
        .enter close opened found nonzero
      have entered : Machine.Relocated id base (c.entered close).machine m :=
        related.record_left rfl
      rcases andThen_eq_some_iff.mp done with ⟨m₁, begun, ended⟩ | ⟨e, failed, rfl⟩
      · obtain ⟨n, d, run, between, at_close, calls⟩ := inside.of_next enters rfl entered begun
        have returns : Performs program.toList registry d
            (.next (d.row loopClose (.back c.index) (d.returned c.index c.calls))
              (d.returned c.index c.calls)) :=
          .back c.index c.calls (at_close ▸ closed) calls
        obtain ⟨k, final, rest, still, arrives⟩ := ih.of_next returns rfl between ended
        exact ⟨n + k, final, by rwa [advance_add run], still, arrives⟩
      · exact inside.of_next enters rfl entered failed

/-- Blocks are run as they are evaluated. -/
theorem sound_evaluate (block : Block) (fuel : Nat) {position : Nat}
    (spelled : SpelledAt program.toList position block) :
    Sound program registry position (position + block.spell.length)
      (block.evaluate registry fuel position) := by
  induction block generalizing position with
  | empty =>
    intro base c m result after index related done
    cases done
    exact ⟨0, c, rfl, related, index, rfl⟩
  | command name plain rest ih =>
    intro base c m result after index related done
    subst index
    obtain ⟨read, later⟩ := spelled.command
    rw [evaluate] at done
    split at done
    · next routine resolved =>
      have behind := ih later
      rw [Nat.add_assoc, Nat.add_comm 1] at behind
      have performs : Performs program.toList registry c
          (.next (c.row name .command (c.performed routine)) (c.performed routine)) :=
        .command name routine read resolved
      have followed := behind.of_next performs rfl (related.performAt c.index routine) done
      exact followed
    · next unresolved =>
      cases done
      exact ⟨0, c, rfl, related, .unknown name read unresolved plain.1 plain.2⟩
  | loop body rest ihBody ihRest =>
    obtain ⟨opened, found, inner, later⟩ := spelled.loop
    have looped := Sound.repeatWhile opened found (ihBody inner) fuel
    have behind := looped.andThen (ihRest later)
    have stop : position + (loop body rest).spell.length =
        position + 1 + body.spell.length + 1 + rest.spell.length := by
      simp only [spell, List.length_cons, List.length_append]
      omega
    rw [stop]
    exact behind

/-! ## From a run to the tree -/

/-- Where a run that begins at `start` halts, a part of a tree comes to an end. -/
def Complete (program : Program) (registry : Registry) (start : Nat)
    (part : Nat → Machine → Option Ending) : Prop :=
  ∀ base c m n result final, c.index = start → Machine.Relocated id base c.machine m →
    advance program registry n c = .halted result final → ∃ fuel ending, part fuel m = some ending

/-- More fuel changes no answer. -/
def Persists (part : Nat → Machine → Option Ending) : Prop :=
  ∀ ⦃fuel more⦄, fuel ≤ more → ∀ m ending, part fuel m = some ending → part more m = some ending

theorem persists_repeatWhile {body : Nat → Machine → Option Ending} (bodies : Persists body) :
    Persists fun fuel => repeatWhile (body fuel) fuel :=
  fun _ _ le => repeatWhile_mono (bodies le) le

theorem persists_evaluate (block : Block) (registry : Registry) (position : Nat) :
    Persists fun fuel => block.evaluate registry fuel position :=
  fun _ _ le => evaluate_mono registry le block position

theorem Complete.andThen {first next : Nat → Machine → Option Ending}
    (before : Complete program registry start first) (firsts : Persists first)
    (sound : ∀ fuel, Sound program registry start middle (first fuel))
    (behind : Complete program registry middle next) (nexts : Persists next) :
    Complete program registry start fun fuel m => andThen (next fuel) (first fuel m) := by
  intro base c m n result final index related halted
  obtain ⟨fuel, ⟨ended, m₁⟩, begun⟩ := before base c m n result final index related halted
  cases ended with
  | error e => exact ⟨fuel, (.error e, m₁), andThen_eq_some_iff.mpr (.inr ⟨e, begun, rfl⟩)⟩
  | ok _ =>
    obtain ⟨k, d, run, between, at_middle, -⟩ := sound fuel base c m _ m₁ index related begun
    obtain ⟨left, -, rest⟩ := exists_rest run halted
    obtain ⟨more, ending, done⟩ := behind base d m₁ left result final at_middle between rest
    refine ⟨max fuel more, ending, andThen_eq_some_iff.mpr (.inl ⟨m₁, ?_, ?_⟩)⟩
    · exact firsts (Nat.le_max_left fuel more) m _ begun
    · exact nexts (Nat.le_max_right fuel more) m₁ ending done

/-- The rounds of a loop come to an end, since each of them leaves fewer steps of the
run. -/
theorem Complete.repeatWhile {body : Nat → Machine → Option Ending}
    (opened : program.toList[header]? = some loopOpen)
    (found : partner program.toList header = some close)
    (inside : Complete program registry (header + 1) body) (bodies : Persists body)
    (sound : ∀ fuel, Sound program registry (header + 1) close (body fuel)) :
    Complete program registry header fun fuel => repeatWhile (body fuel) fuel := by
  obtain ⟨-, closed, -⟩ := (partner_eq_some_iff opened).mp found
  intro base c m n result final index related halted
  induction n using Nat.strongRecOn generalizing c m with
  | ind n ih =>
    subst index
    rcases eq_or_ne c.machine.get 0 with zero | nonzero
    · exact ⟨1, (.ok (), m), repeatWhile_of_zero _ 0 (related.get_eq.trans zero)⟩
    · have enters : Performs program.toList registry c
          (.next (c.row loopOpen (.enter close) (c.entered close)) (c.entered close)) :=
        .enter close opened found nonzero
      have entered : Machine.Relocated id base (c.entered close).machine m :=
        related.record_left rfl
      have nonzero' : m.get ≠ 0 := related.get_eq.trans_ne nonzero
      obtain ⟨l, rfl, rest⟩ := exists_rest_of_next enters halted
      obtain ⟨fuel, ⟨ended, m₁⟩, begun⟩ := inside base _ m l result final rfl entered rest
      cases ended with
      | error e =>
        refine ⟨fuel + 1, (.error e, m₁), (repeatWhile_of_nonzero _ fuel nonzero').trans ?_⟩
        apply andThen_eq_some_iff.mpr
        exact .inr ⟨e, bodies (Nat.le_succ fuel) m _ begun, rfl⟩
      | ok _ =>
        obtain ⟨k, d, run, between, at_close, calls⟩ :=
          sound fuel base _ m _ m₁ rfl entered begun
        have returns : Performs program.toList registry d
            (.next (d.row loopClose (.back c.index) (d.returned c.index c.calls))
              (d.returned c.index c.calls)) :=
          .back c.index c.calls (at_close ▸ closed) calls
        obtain ⟨l', rfl, rest'⟩ := exists_rest run rest
        obtain ⟨left, rfl, again⟩ := exists_rest_of_next returns rest'
        obtain ⟨more, ending, done⟩ :=
          ih left (by omega) (d.returned c.index c.calls) m₁ rfl between again
        refine ⟨max fuel more + 1, ending, (repeatWhile_of_nonzero _ _ nonzero').trans ?_⟩
        apply andThen_eq_some_iff.mpr
        have enough_body : fuel ≤ max fuel more + 1 := by omega
        have enough_rounds : more ≤ max fuel more := Nat.le_max_right fuel more
        have rounds := repeatWhile_mono (bodies (enough_rounds.trans (Nat.le_succ _)))
          enough_rounds m₁ ending done
        exact .inl ⟨m₁, bodies enough_body m _ begun, rounds⟩

/-- Blocks are evaluated as they are run. -/
theorem complete_evaluate (block : Block) {position : Nat}
    (spelled : SpelledAt program.toList position block) :
    Complete program registry position fun fuel => block.evaluate registry fuel position := by
  induction block generalizing position with
  | empty => exact fun _ _ m _ _ _ _ _ _ => ⟨0, (.ok (), m), rfl⟩
  | command name plain rest ih =>
    intro base c m n result final index related halted
    subst index
    obtain ⟨read, later⟩ := spelled.command
    cases resolved : registry.resolve name with
    | none =>
      refine ⟨0, (.error (.unknownCommand name c.index), m), ?_⟩
      simp only [evaluate, resolved]
    | some routine =>
      obtain ⟨left, -, rest'⟩ :=
        exists_rest_of_next (.command name routine read resolved) halted
      obtain ⟨fuel, ending, done⟩ := ih later base _ (m.performAt c.index routine) left result
        final rfl (related.performAt c.index routine) rest'
      refine ⟨fuel, ending, ?_⟩
      simp only [evaluate, resolved]
      exact done
  | loop body rest ihBody ihRest =>
    obtain ⟨opened, found, inner, later⟩ := spelled.loop
    have bodies := persists_evaluate body registry (position + 1)
    have soundBody (fuel : Nat) : Sound program registry (position + 1)
        (position + 1 + body.spell.length) (body.evaluate registry fuel (position + 1)) :=
      sound_evaluate body fuel inner
    have looped := Complete.repeatWhile opened found (ihBody inner) bodies soundBody
    have soundLoop (fuel : Nat) := Sound.repeatWhile opened found (soundBody fuel) fuel
    exact looped.andThen (persists_repeatWhile bodies) soundLoop (ihRest later)
      (persists_evaluate rest registry _)

end Block

namespace Interpreter

open Execution Nesting

variable {i : Interpreter} {code : String} {block : Block}

/-- What the block of a program comes to, an execution of it comes to as well. -/
theorem exists_executes_of_evaluates {result : Except ExecutionError Unit} {m : Machine}
    (spelled : block.spell = code.toList)
    (evaluated : block.Evaluates i.registry i.machine result m) :
    ∃ after, i.Executes code result after ∧ after.registry = i.registry ∧
      Machine.Agrees after.machine m := by
  obtain ⟨fuel, done⟩ := evaluated
  have whole : Block.SpelledAt (Program.ofString code).toList 0 block :=
    Block.spelledAt_zero spelled
  obtain ⟨n, final, reached, related, arrives⟩ :=
    Block.sound_evaluate block fuel whole i.machine (i.initial code) i.machine result m rfl
      ((Machine.Relocated.refl id i.machine).record_left rfl) done
  have last : Performs code.toList i.registry final (.halt result final) := by
    cases result with
    | error e => exact arrives
    | ok _ =>
      apply Performs.finish
      apply List.getElem?_eq_none
      rw [arrives.1, Nat.zero_add, spelled]
  refine ⟨_, executes_iff.mpr ⟨n, final, reached, last, rfl⟩, rfl, ?_⟩
  exact (related.record_left (isOfCommand_closing final.steps result)).agrees

/-- Where an execution of a program ends, so does the evaluation of its block. -/
theorem exists_evaluates_of_terminates (spelled : block.spell = code.toList)
    (terminates : i.Terminates code) :
    ∃ result m, block.Evaluates i.registry i.machine result m := by
  obtain ⟨result, after, executed⟩ := terminates
  obtain ⟨n, final, reached, last, -⟩ := executes_iff.mp executed
  have whole : Block.SpelledAt (Program.ofString code).toList 0 block :=
    Block.spelledAt_zero spelled
  obtain ⟨fuel, ⟨ended, m⟩, done⟩ :=
    Block.complete_evaluate block whole i.machine (i.initial code) i.machine (n + 1) result final
      rfl ((Machine.Relocated.refl id i.machine).record_left rfl) (halted_of_reaches reached last)
  exact ⟨ended, m, fuel, done⟩

/-- A program whose markers are balanced is executed as the block that it spells is
evaluated. The one ends if the other does, with the same result, and the machines
differ in nothing but what the engine notes of its own doings. -/
theorem executes_as_block (i : Interpreter) (code : String) (balanced : Balanced code.toList) :
    ∃ block, Block.parse code.toList = some block ∧
      (i.Terminates code ↔ ∃ result m, block.Evaluates i.registry i.machine result m) ∧
      ∀ result after result' m, i.Executes code result after →
        block.Evaluates i.registry i.machine result' m →
        result = result' ∧ Machine.Agrees after.machine m ∧ after.registry = i.registry := by
  obtain ⟨block, parsed⟩ := Block.exists_parse_of_balanced balanced
  have spelled := Block.parse_eq_some_iff.mp parsed
  refine ⟨block, parsed, ?_, ?_⟩
  · constructor
    · exact exists_evaluates_of_terminates spelled
    · rintro ⟨result, m, evaluated⟩
      obtain ⟨after, executed, -⟩ := exists_executes_of_evaluates spelled evaluated
      exact ⟨result, after, executed⟩
  · intro result after result' m executed evaluated
    obtain ⟨other, again, registry, agrees⟩ := exists_executes_of_evaluates spelled evaluated
    obtain ⟨rfl, rfl⟩ := executed.unique again
    exact ⟨rfl, agrees, registry⟩

/-- A program that moves two from one cell of a short tape to the next. -/
theorem executes_as_block_moving :
    let i := ofTape (.blank 3 .byte (by decide)) .collecting (.stream [])
    Balanced "++[>+<-]".toList ∧
      ∃ block result m, Block.parse "++[>+<-]".toList = some block ∧
        block.Evaluates i.registry i.machine result m := by
  intro i
  have balanced : Balanced "++[>+<-]".toList := by decide
  obtain ⟨block, parsed, ends, -⟩ := executes_as_block i "++[>+<-]" balanced
  have terminates : i.Terminates "++[>+<-]" := by
    have executed : (i.execute 20 "++[>+<-]").isSome := by decide
    obtain ⟨⟨result, after⟩, same⟩ := Option.isSome_iff_exists.mp executed
    exact ⟨result, after, 20, same⟩
  obtain ⟨result, m, evaluated⟩ := ends.mp terminates
  exact ⟨balanced, block, result, m, parsed, evaluated⟩

end Interpreter

end RingTape
