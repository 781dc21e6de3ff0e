import IndentScript.Proofs.Forks
import IndentScript.Proofs.SourceEnd

/-!
No token list with a dead end is a program. Every reader does before the dead end what it does before
any other tokens, and it does not get past it. So a list that would be a program with other tokens in
place of the dead end fails there, and for its syntax.
-/

namespace IndentScript

namespace Parser

section

variable {fork : Fork} {deep : Prop}

theorem refuses_expression {level : Nat} (deeper : level = 0 → deep) :
    Refuses deep (expression level) := by
  intro token rest known
  cases level with
  | zero => exact ⟨⟨.tooDeep, token :: rest⟩, rfl, .inr ⟨rfl, deeper rfl⟩⟩
  | succ level => exact ⟨_, logical_fails (expression level) known rest, .inl rfl⟩

theorem halting_statement {level : Nat} (deeper : level = 0 → deep) :
    Halting deep (statement level) := by
  cases level with
  | zero => exact fun tokens _ => .failure (.inr ⟨rfl, deeper rfl⟩)
  | succ level =>
      have refuses : Refuses deep (expression (level + 1)) := refuses_expression nofun
      have evaluation := (refuses.bind fun value => pure (Stmt.evaluate value)).halting
      intro tokens deadEnd
      obtain ⟨⟨kind, payload, line⟩, rest, rfl, known, _⟩ := deadEnd.exists_cons
      cases kind with
      | keyword word =>
          cases word with
          | returnWord => exact halting_result refuses _ deadEnd
          | _ => cases known
      | indent => exact evaluation _ deadEnd
      | dedent => exact evaluation _ deadEnd
      | endOfSource => contradiction
      | _ => cases known

theorem outlives_statement {depth level : Nat} (above : depth ≤ level)
    (deeper : level ≤ depth → deep) : Outlives fork deep (statement depth) (statement level) := by
  obtain ⟨more, rfl⟩ := Nat.exists_eq_add_of_le' above
  have bottom : more = 0 → deep := fun none => deeper (by omega)
  exact (outlives_composes fork deep).statement more
    ⟨(refuses_expression bottom).halting, fun _ _ => .fails rfl⟩
    ⟨halting_statement bottom, fun _ _ => .fails rfl⟩ depth

theorem outlives_program {depth level : Nat} (above : depth ≤ level)
    (deeper : level ≤ depth → deep) : Outlives fork deep (program depth) (program level) := by
  apply (outlives_composes fork deep).programOf 0 (sound_statement depth)
  rw [nextStatement_eq, nextStatement_eq]
  apply outlives_looking
  intro kind
  split
  · exact outlives_pure none
  · exact (outlives_statement above deeper).bind fun _ => outlives_pure _

end

/-! ### Programs -/

/-- A program that is read before the end of the source has not come to a dead end. So where its
tokens part, the reading that may nest deeper fails, unless the other one does. -/
theorem program_of_fork {fork : Fork} {deep : Prop} {inner : List Token} (fits : fork.Fits inner)
    (inside : ∀ token ∈ inner, token.kind ≠ .endOfSource) {depth level : Nat}
    (above : depth ≤ level) (deeper : level ≤ depth → deep) :
    (∃ failure, program depth (inner ++ fork.onward) = .error failure) ∨
      ∃ failure, program level (inner ++ fork.blocked) = .error failure ∧
        failure.fault.IsAllowed deep := by
  cases (outlives_program above deeper).parts inner fits with
  | @together _ left suffix _ otherEnds =>
      have ended := program_stop otherEnds
      cases left with
      | nil => exact absurd ended fork.deadEnd.not_atEnd
      | cons token rest =>
          exact absurd (ended token rfl) (inside token (suffix.subset List.mem_cons_self))
  | @fails failure ends => exact .inl ⟨failure, ends⟩
  | halts halts =>
      cases ends : program level (inner ++ fork.blocked) with
      | error failure =>
          rw [ends] at halts
          cases halts with
          | failure allowed => exact .inr ⟨failure, rfl, allowed⟩
      | ok found =>
          rw [ends] at halts
          cases halts with
          | success deadEnd => exact absurd (program_stop ends) deadEnd.not_atEnd

end Parser

/-- A token list with a dead end is not read into a program. If other tokens in place of the dead end
make a program, all readings that may nest deeper than is needed for that fail for the syntax. -/
theorem DeadEnd.refused {inner blocked : List Token} (deadEnd : DeadEnd blocked)
    (fits : ∀ last ∈ inner.getLast?, last.kind = .symbol .colon →
      ∀ first ∈ blocked.head?, first.kind ≠ .indent)
    (inside : ∀ token ∈ inner, token.kind ≠ .endOfSource) (level : Nat) :
    ∃ failure, parseWithin level (inner ++ blocked) = .error failure ∧
      ∀ onward depth program, parseWithin depth (inner ++ onward) = .ok program → depth < level →
        failure.fault.isSyntactic = true := by
  have nonempty : inner ++ blocked ≠ [] := by
    obtain ⟨token, rest, rfl, _⟩ := deadEnd.exists_cons
    exact List.append_ne_nil_of_right_ne_nil _ (List.cons_ne_nil _ _)
  -- Compared with itself, the reading fails; it may be too deep.
  obtain ⟨failure, ends⟩ : ∃ failure, Parser.program level (inner ++ blocked) = .error failure := by
    have fitsItself : Fork.Fits ⟨blocked, blocked, deadEnd⟩ inner := fits
    rcases Parser.program_of_fork fitsItself inside (Nat.le_refl level) fun _ => trivial with
      failed | ⟨failure, ends, _⟩
    · exact failed
    · exact ⟨failure, ends⟩
  refine ⟨failure, by rw [parseWithin_eq_map nonempty, ends]; rfl, ?_⟩
  intro onward depth program parsed deeper
  have fitsOnward : Fork.Fits ⟨onward, blocked, deadEnd⟩ inner := fits
  rcases Parser.program_of_fork fitsOnward inside (Nat.le_of_lt deeper)
      (Nat.not_le_of_lt deeper) with ⟨other, failed⟩ | ⟨other, sameEnds, allowed⟩
  · have someTokens : inner ++ onward ≠ [] := by
      intro nothing
      rw [nothing] at parsed
      cases parsed
    rw [parseWithin_eq_map someTokens, failed] at parsed
    cases parsed
  · cases ends.symm.trans sameEnds
    rcases allowed with syntactic | ⟨_, impossible⟩
    · exact syntactic
    · exact impossible.elim

end IndentScript
