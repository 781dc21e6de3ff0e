import IndentScript.Proofs.LineLayout
import IndentScript.Proofs.Seams

/-!
Reading never goes past the end of the source. Whatever tokens come before it, a reader stops there
at the latest: it takes no token from there on, and what comes behind makes no difference to it. So
it is never without a current token, and all that can be wrong with the tokens of a source text is
their syntax.

A reader fails as too deep only on a list with at least as many tokens as it may nest deep.
-/

namespace IndentScript

namespace Parser

theorem confined_tooDeep {α : Type} (seam : Seam) :
    Confined seam 0 (fail .tooDeep : Parser α) (fail .tooDeep) :=
  fun _ _ => Carries.fail (.inr ⟨rfl, Nat.zero_le _⟩) _ fun _ => rfl

theorem confined_statement (seam : Seam) (depth : Nat) :
    Confined seam depth (statement depth) (statement depth) := by
  have confined := (confined_composes seam).statement 0 (confined_tooDeep seam)
    (confined_tooDeep seam) depth
  rwa [Nat.zero_add] at confined

theorem confined_program (seam : Seam) (ended : seam.head.kind = .endOfSource) (depth : Nat) :
    Confined seam depth (program depth) (program depth) :=
  (confined_composes seam).programOf depth (sound_statement depth)
    ((confined_statement seam depth).lastStatement ended)

/-- How a reading ends that is confined by every end of the source: alike for all tokens behind it,
none of which is taken. -/
theorem Confined.ends {α : Type} {reader : Parser α} {limit : Nat} {final : Token}
    (isFinal : final.kind = .endOfSource)
    (confined : ∀ more, Confined ⟨final, final, more, isFinal⟩ limit reader reader)
    (inner : List Token) :
    (∃ value left, left <:+ inner ∧
      ∀ more, reader (inner ++ final :: more) = .ok (value, left ++ final :: more)) ∨
    ∃ fault left, left <:+ inner ∧
      (fault.isSyntactic = true ∨ fault = .tooDeep ∧ limit ≤ inner.length) ∧
      ∀ more, reader (inner ++ final :: more) = .error ⟨fault, left ++ final :: more⟩ := by
  -- The reading with nothing behind the end says how all the others end.
  have carries : ∀ more, Carries ⟨final, final, more, isFinal⟩ (limit ≤ inner.length) inner reader
      reader := fun more => confined more inner (Seam.fits_of_endOfSource isFinal inner)
  cases carries [] with
  | @success value left suffix ends _ =>
      refine .inl ⟨value, left, suffix, ?_⟩
      intro more
      cases carries more with
      | success _ sameEnds otherEnds =>
          have same := Except.ok.inj (ends.symm.trans sameEnds)
          rw [Prod.mk.injEq, List.append_left_inj] at same
          rw [same.1, same.2]
          exact otherEnds
      | failure _ _ otherEnds => cases ends.symm.trans otherEnds
  | @failure fault left suffix allowed ends _ =>
      refine .inr ⟨fault, left, suffix, allowed, ?_⟩
      intro more
      cases carries more with
      | success _ otherEnds => cases ends.symm.trans otherEnds
      | failure _ _ sameEnds otherEnds =>
          have same := Except.error.inj (ends.symm.trans sameEnds)
          rw [ParseFailure.mk.injEq, List.append_left_inj] at same
          rw [same.1, same.2]
          exact otherEnds rfl

end Parser

/-- The tokens of a source text are read into a program, and the end of the source is all that is
left of them; or there is a fault of syntax before or at the end. Only if the reading may nest no
deeper than there are tokens can it be too deep. All this is the same whatever tokens are put behind
the end of the source: none of them is ever the current one. -/
theorem start_program_of_tokenize {source : String} {tokens : List Token}
    (success : tokenize source = .ok tokens) :
    ∃ inner final, tokens = inner ++ [final] ∧ final.kind = .endOfSource ∧ ∀ depth,
      (∃ program, ∀ more,
        (Parser.program depth).start (tokens ++ more) = .ok (program, final :: more)) ∨
      ∃ fault left, left <:+ inner ∧
        (fault.isSyntactic = true ∨ fault = .tooDeep ∧ depth ≤ inner.length) ∧
        ∀ more, (Parser.program depth).start (tokens ++ more) =
          .error ⟨fault, left ++ final :: more⟩ := by
  obtain ⟨noFault, rfl⟩ := tokenize_eq_ok_iff.mp success
  obtain ⟨_, ended⟩ := Lexing.laidOut_cut (Text.lines source.toList)
  obtain ⟨_, inner, final, split, isFinal, inside⟩ := ended noFault
  refine ⟨inner, final, split, isFinal, ?_⟩
  intro depth
  have starts : ∀ more, (Parser.program depth).start ((inner ++ [final]) ++ more) =
      Parser.program depth (inner ++ final :: more) := by
    intro more
    rw [List.append_assoc, List.singleton_append]
    exact Parser.start_of_ne_nil _ (List.append_ne_nil_of_right_ne_nil _ (List.cons_ne_nil _ _))
  rw [split]
  rcases Parser.Confined.ends isFinal
      (fun more => Parser.confined_program ⟨final, final, more, isFinal⟩ isFinal depth) inner with
    ⟨program, left, suffix, ends⟩ | ⟨fault, left, suffix, allowed, ends⟩
  · have nothingLeft : left = [] := by
      cases left with
      | nil => rfl
      | cons token rest =>
          have stopped := Parser.program_stop (ends [])
          exact absurd (stopped token rfl) (inside token (suffix.subset List.mem_cons_self))
    refine .inl ⟨program, ?_⟩
    intro more
    rw [starts, ends, nothingLeft, List.nil_append]
  · refine .inr ⟨fault, left, suffix, allowed, ?_⟩
    intro more
    rw [starts, ends]

def unclosed : String :=
  "if (x"

def unclosedTokens : List Token :=
  [⟨.keyword .ifWord, .text "if", 1⟩, ⟨.symbol .openParen, .text "(", 1⟩,
    ⟨.identifier, .text "x", 1⟩, ⟨.endOfSource, .absent, 1⟩]

theorem tokenize_unclosed : tokenize unclosed = .ok unclosedTokens :=
  tokenize_eq_ok_iff.mpr ⟨by decide +kernel, by decide +kernel⟩

theorem start_program_unclosed :
    tokenize unclosed = .ok unclosedTokens ∧
      ∃ inner final, unclosedTokens = inner ++ [final] ∧ final.kind = .endOfSource ∧ ∀ depth,
        (∃ program, ∀ more, (Parser.program depth).start (unclosedTokens ++ more) =
          .ok (program, final :: more)) ∨
        ∃ fault left, left <:+ inner ∧
          (fault.isSyntactic = true ∨ fault = .tooDeep ∧ depth ≤ inner.length) ∧
          ∀ more, (Parser.program depth).start (unclosedTokens ++ more) =
            .error ⟨fault, left ++ final :: more⟩ :=
  ⟨tokenize_unclosed, start_program_of_tokenize tokenize_unclosed⟩

end IndentScript
