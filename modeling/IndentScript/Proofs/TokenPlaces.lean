import IndentScript.Proofs.ReaderRules
import Mathlib.Data.List.Forall2

/-!
Reading does not depend on the line numbers of tokens. Two token lists that differ only in them
are read alike: both readings succeed, with the same result and with what is left differing only
in line numbers, or both fail with the same fault.
-/

namespace IndentScript

abbrev AlikeLists (left right : List Token) : Prop :=
  List.Forall₂ Token.Alike left right

namespace Parser

section

variable {α β σ : Type}

def SameEnd :
    Except ParseFailure (α × List Token) → Except ParseFailure (α × List Token) → Prop
  | .ok (one, rest), .ok (other, otherRest) => one = other ∧ AlikeLists rest otherRest
  | .error failure, .error other => failure.fault = other.fault ∧ AlikeLists failure.rest other.rest
  | _, _ => False

/-- Two readers that cannot tell alike lists apart. -/
def Agree (one other : Parser α) : Prop :=
  ∀ left right, AlikeLists left right → SameEnd (one left) (other right)

theorem Agree.bind {one other : Parser α} {next otherNext : α → Parser β} (first : Agree one other)
    (second : ∀ value, Agree (next value) (otherNext value)) :
    Agree (one >>= next) (other >>= otherNext) := by
  intro left right alike
  have ends := first left right alike
  cases oneEnd : one left with
  | error failure =>
      cases otherEnd : other right with
      | error otherFailure =>
          rw [oneEnd, otherEnd] at ends
          rw [bind_error oneEnd, bind_error otherEnd]
          exact ends
      | ok found =>
          rw [oneEnd, otherEnd] at ends
          cases ends
  | ok found =>
      obtain ⟨value, rest⟩ := found
      cases otherEnd : other right with
      | error otherFailure =>
          rw [oneEnd, otherEnd] at ends
          cases ends
      | ok otherFound =>
          obtain ⟨otherValue, otherRest⟩ := otherFound
          rw [oneEnd, otherEnd] at ends
          obtain ⟨rfl, alikeRest⟩ := ends
          rw [bind_ok oneEnd, bind_ok otherEnd]
          exact second value rest otherRest alikeRest

theorem agree_pure (value : α) : Agree (pure value) (pure value) :=
  fun _ _ alike => ⟨rfl, alike⟩

theorem agree_fail (fault : ParseFault) : Agree (fail fault : Parser α) (fail fault) :=
  fun _ _ alike => ⟨rfl, alike⟩

theorem agree_expect (kind : Kind) {next otherNext : Token → Parser β}
    (goesOn : ∀ one other : Token, one.Alike other → Agree (next one) (otherNext other)) :
    Agree (expect kind >>= next) (expect kind >>= otherNext) := by
  intro left right alike
  cases alike with
  | nil => exact ⟨rfl, .nil⟩
  | @cons one other rest otherRest same alikeRest =>
      by_cases found : one.kind = kind
      · rw [bind_ok (expect_of_kind found rest),
          bind_ok (expect_of_kind (same.1.symm.trans found) otherRest)]
        exact goesOn one other same rest otherRest alikeRest
      · have otherNot : other.kind ≠ kind := by rwa [← same.1]
        rw [bind_error (expect_of_ne found rest), bind_error (expect_of_ne otherNot otherRest)]
        exact ⟨rfl, .cons same alikeRest⟩

theorem agree_looking (absent : Option α) {low high : Kind → Parser α}
    (agree : ∀ kind, Agree (low kind) (high kind)) :
    Agree (looking absent low) (looking absent high) := by
  intro left right alike
  cases alike with
  | nil =>
      cases absent with
      | none => exact ⟨rfl, .nil⟩
      | some value => exact ⟨rfl, .nil⟩
  | @cons one other rest otherRest same alikeRest =>
      rw [looking, looking, same.1]
      exact agree other.kind _ _ (.cons same alikeRest)

theorem agree_repeatedWithin {low high : σ → Parser (Option σ)} {spentUp : σ → Parser σ}
    (ends : ∀ gathered, Agree (spentUp gathered) (spentUp gathered))
    (agree : ∀ gathered, Agree (low gathered) (high gathered)) {budget otherBudget : List Token}
    (alike : AlikeLists budget otherBudget) (gathered : σ) :
    Agree (repeatedWithin low spentUp budget gathered)
      (repeatedWithin high spentUp otherBudget gathered) := by
  induction alike generalizing gathered with
  | nil => exact ends gathered
  | cons _ _ ih =>
      apply (agree gathered).bind
      intro found
      cases found with
      | none => exact agree_pure gathered
      | some more => exact ih more

end

theorem agree_composesFreely : Relation.ComposesFreely fun _ _ low high => Agree low high where
  weaken := id
  pure := agree_pure
  fail := fun _ => agree_fail _
  bind := Agree.bind
  expect := fun kind goesOn => agree_expect kind goesOn
  look := fun absent agree => agree_looking absent agree
  repeated := fun ends agree first left right alike =>
    agree_repeatedWithin ends agree alike first left right alike

theorem agree_program (depth : Nat) : Agree (program depth) (program depth) := by
  have statements := agree_composesFreely.composes.statement 0 (agree_fail _) (agree_fail _) depth
  rw [Nat.zero_add] at statements
  exact agree_composesFreely.programOf depth (sound_statement depth) statements

end Parser

/-- Token lists that differ at most in line numbers have the same program. -/
theorem parseWithin_eq_ok_of_alike {depth : Nat} {tokens others : List Token} {program : Program}
    (alike : AlikeLists tokens others) (success : parseWithin depth tokens = .ok program) :
    parseWithin depth others = .ok program := by
  cases alike with
  | nil => cases success
  | @cons one other rest otherRest same alikeRest =>
      have ends := Parser.agree_program depth (one :: rest) (other :: otherRest)
        (.cons same alikeRest)
      change Except.bind (Parser.program depth (one :: rest)) _ = _ at success
      change Except.bind (Parser.program depth (other :: otherRest)) _ = _
      cases first : Parser.program depth (one :: rest) with
      | error failure =>
          rw [first] at success
          cases success
      | ok found =>
          cases second : Parser.program depth (other :: otherRest) with
          | error failure =>
              rw [first, second] at ends
              cases ends
          | ok otherFound =>
              rw [first] at success
              rw [first, second] at ends
              have samePrograms : found.1 = otherFound.1 := ends.1
              cases success
              exact congrArg Except.ok samePrograms.symm

end IndentScript
