import IndentScript.Proofs.ReaderRules

/-!
What may stand in place of the end of a source. Two readings are compared: in one the tokens are
followed by the end of the source alone, in the other by tokens that stand in its place. As long as
these cannot be taken for more of the last phrase, a reading that succeeds with the end of the source
succeeds with them in the same way; and if they begin with the same end of the source, a reading
that fails does so in the same way, too.

Of the steps of a reader, three depend on what stands at the end: a look at the current token, a name,
which may be called, and the word that ends a function.
-/

namespace IndentScript

/-- A fault of the tokens. The others are that a token is missing and that the nesting is too
deep. -/
def ParseFault.isSyntactic : ParseFault → Bool
  | .expected _ | .expressionExpected => true
  | .noToken | .emptyList | .tooDeep => false

/-- The end of a source, and a first token and others that stand in its place. -/
structure Seam where
  final : Token
  head : Token
  others : List Token
  isFinal : final.kind = .endOfSource

namespace Seam

def follow (seam : Seam) : List Token :=
  seam.head :: seam.others

/-- The first token cannot be taken for more of the last phrase of the tokens before. A name goes on
with arguments, and `return` goes on with a value. -/
structure Fits (seam : Seam) (inner : List Token) : Prop where
  separate : seam.head.kind ∉ Kind.continuations
  noCall : ∀ last ∈ inner.getLast?, last.kind = .identifier →
    seam.head.kind ≠ .symbol .openParen
  noValue : ∀ last ∈ inner.getLast?, last.kind = .keyword .returnWord →
    seam.head.kind = .endOfSource

variable {seam : Seam} {inner left : List Token}

theorem Fits.of_suffix (fits : seam.Fits inner) (suffix : left <:+ inner) : seam.Fits left := by
  have sameLast : ∀ last ∈ left.getLast?, last ∈ inner.getLast? := by
    obtain ⟨taken, rfl⟩ := suffix
    intro last member
    rw [List.getLast?_append, Option.mem_def.mp member]
    rfl
  refine ⟨fits.separate, ?_, ?_⟩
  · intro last member
    exact fits.noCall last (sameLast last member)
  · intro last member
    exact fits.noValue last (sameLast last member)

/-- The end of the source fits everywhere. -/
theorem fits_of_endOfSource (ended : seam.head.kind = .endOfSource) (inner : List Token) :
    seam.Fits inner := by
  refine ⟨?_, ?_, ?_⟩
  · rw [ended]
    decide
  · intro last _ _
    rw [ended]
    exact Kind.noConfusion
  · intro last _ _
    exact ended

end Seam

namespace Parser

section

variable {α β σ : Type}

/-- How two readings end, the one with the end of the source alone behind the tokens and the other
with what stands in its place. Reading may be too deep only where `deep` says so. -/
inductive Carries (seam : Seam) (deep : Prop) (inner : List Token) (alone followed : Parser α) : Prop
  | success {value : α} {left : List Token} (suffix : left <:+ inner)
      (ends : alone (inner ++ [seam.final]) = .ok (value, left ++ [seam.final]))
      (otherEnds : followed (inner ++ seam.follow) = .ok (value, left ++ seam.follow))
  | failure {fault : ParseFault} {left : List Token} (suffix : left <:+ inner)
      (allowed : fault.isSyntactic = true ∨ fault = .tooDeep ∧ deep)
      (ends : alone (inner ++ [seam.final]) = .error ⟨fault, left ++ [seam.final]⟩)
      (otherEnds : seam.head = seam.final →
        followed (inner ++ seam.follow) = .error ⟨fault, left ++ seam.follow⟩)

/-- Wherever the seam fits, the two readings end alike; they are too deep on lists of at least the
given length only. -/
def Confined (seam : Seam) (limit : Nat) (alone followed : Parser α) : Prop :=
  ∀ inner, seam.Fits inner → Carries seam (limit ≤ inner.length) inner alone followed

variable {seam : Seam} {deep : Prop} {inner : List Token} {limit : Nat}

/-! ### Steps -/

theorem Carries.pure (value : α) : Carries seam deep inner (Pure.pure value) (Pure.pure value) :=
  .success List.suffix_rfl rfl rfl

theorem Carries.fail {fault : ParseFault} (allowed : fault.isSyntactic = true ∨ fault = .tooDeep ∧ deep)
    (followed : Parser α) (same : seam.head = seam.final → followed = Parser.fail fault) :
    Carries seam deep inner (Parser.fail fault) followed := by
  refine .failure List.suffix_rfl allowed rfl ?_
  intro ended
  rw [same ended]
  rfl

theorem Carries.mono {other : Prop} {alone followed : Parser α}
    (carries : Carries seam deep inner alone followed) (implies : deep → other) :
    Carries seam other inner alone followed := by
  cases carries with
  | success suffix ends otherEnds => exact .success suffix ends otherEnds
  | failure suffix allowed ends otherEnds =>
      refine .failure suffix ?_ ends otherEnds
      rcases allowed with syntactic | ⟨tooDeep, isDeep⟩
      · exact .inl syntactic
      · exact .inr ⟨tooDeep, implies isDeep⟩

/-- After some tokens are taken alike, the readings go on with what is left. -/
theorem Carries.after {left : List Token} {alone followed : Parser α} {next otherNext : Parser α}
    (carries : Carries seam deep left next otherNext) (suffix : left <:+ inner)
    (same : alone (inner ++ [seam.final]) = next (left ++ [seam.final]))
    (otherSame : followed (inner ++ seam.follow) = otherNext (left ++ seam.follow)) :
    Carries seam deep inner alone followed := by
  cases carries with
  | success nextSuffix ends otherEnds =>
      exact .success (nextSuffix.trans suffix) (same.trans ends) (otherSame.trans otherEnds)
  | failure nextSuffix allowed ends otherEnds =>
      refine .failure (nextSuffix.trans suffix) allowed (same.trans ends) ?_
      intro ended
      exact otherSame.trans (otherEnds ended)

theorem Carries.bind {alone followed : Parser α} {next otherNext : α → Parser β}
    (carries : Carries seam deep inner alone followed)
    (goesOn : ∀ value left, left <:+ inner →
      alone (inner ++ [seam.final]) = .ok (value, left ++ [seam.final]) →
        Carries seam deep left (next value) (otherNext value)) :
    Carries seam deep inner (alone >>= next) (followed >>= otherNext) := by
  cases carries with
  | success suffix ends otherEnds =>
      exact (goesOn _ _ suffix ends).after suffix (bind_ok ends next) (bind_ok otherEnds otherNext)
  | failure suffix allowed ends otherEnds =>
      refine .failure suffix allowed (bind_error ends next) ?_
      intro ended
      exact bind_error (otherEnds ended) otherNext

/-- A token of the given kind is there, or both readings fail. -/
theorem Carries.expect {kind : Kind} (noEnd : kind ≠ .endOfSource) {next otherNext : Token → Parser β}
    (goesOn : ∀ token rest, inner = token :: rest → token.kind = kind →
      Carries seam deep rest (next token) (otherNext token)) :
    Carries seam deep inner (Parser.expect kind >>= next) (Parser.expect kind >>= otherNext) := by
  have fails : ∀ (token : Token) (rest : List Token), token.kind ≠ kind →
      Parser.expect kind (token :: rest) = .error ⟨.expected kind, token :: rest⟩ :=
    fun _ _ different => if_neg different
  cases inner with
  | nil =>
      have final : seam.final.kind ≠ kind := by
        rw [seam.isFinal]
        exact noEnd.symm
      refine .failure List.suffix_rfl (.inl rfl) (bind_error (fails _ _ final) next) ?_
      intro ended
      rw [← ended] at final
      exact bind_error (fails _ _ final) otherNext
  | cons token rest =>
      by_cases same : token.kind = kind
      · have ends : ∀ more, Parser.expect kind (token :: rest ++ more) = .ok (token, rest ++ more) :=
          fun _ => if_pos same
        exact (goesOn token rest rfl same).after (List.suffix_cons token rest)
          (bind_ok (ends _) next) (bind_ok (ends _) otherNext)
      · exact .failure List.suffix_rfl (.inl rfl) (bind_error (fails _ _ same) next)
          fun _ => bind_error (fails _ _ same) otherNext

theorem Confined.bind {alone followed : Parser α} {next otherNext : α → Parser β}
    (confined : Confined seam limit alone followed)
    (goesOn : ∀ value, Confined seam limit (next value) (otherNext value)) :
    Confined seam limit (alone >>= next) (followed >>= otherNext) := by
  intro inner fits
  apply (confined inner fits).bind
  intro value left suffix _
  apply (goesOn value left (fits.of_suffix suffix)).mono
  exact fun long => Nat.le_trans long suffix.length_le

/-- Behind a token that must be there, one fewer is left. -/
theorem confined_expect {kind : Kind} (noEnd : kind ≠ .endOfSource)
    {next otherNext : Token → Parser β}
    (goesOn : ∀ token, Confined seam limit (next token) (otherNext token)) :
    Confined seam (limit + 1) (expect kind >>= next) (expect kind >>= otherNext) := by
  intro inner fits
  apply Carries.expect noEnd
  rintro token rest rfl _
  apply (goesOn token rest (fits.of_suffix (List.suffix_cons token rest))).mono
  exact Nat.succ_le_succ

/-- A look at the current token, or at what stands at the end. -/
theorem Carries.looking (absent : Option α) {low high : Kind → Parser α}
    (present : ∀ token rest, inner = token :: rest →
      Carries seam deep inner (low token.kind) (high token.kind))
    (atEnd : inner = [] → Carries seam deep inner (low .endOfSource) (high seam.head.kind)) :
    Carries seam deep inner (Parser.looking absent low) (Parser.looking absent high) := by
  cases inner with
  | nil =>
      refine (atEnd rfl).after List.suffix_rfl ?_ rfl
      rw [← seam.isFinal]
      rfl
  | cons token rest => exact (present token rest rfl).after List.suffix_rfl rfl rfl

theorem confined_looking (absent : Option α) {low high : Kind → Parser α} (closes : Closes low high)
    (confined : ∀ kind, Confined seam limit (low kind) (high kind)) :
    Confined seam limit (looking absent low) (looking absent high) := by
  intro inner fits
  apply Carries.looking absent
  · intro token rest _
    exact confined token.kind inner fits
  · rintro rfl
    cases closes with
    | settled value settled =>
        have final : Kind.endOfSource ∉ Kind.continuations := by decide
        rw [(settled _ final).1, (settled _ fits.separate).2]
        exact Carries.pure value
    | fails takes =>
        cases confined .endOfSource [] fits with
        | success suffix ends _ =>
            -- The end of the source is still there, so no token would have been taken.
            rw [List.suffix_nil.mp suffix] at ends
            exact absurd (takes _ _ _ ends) (Nat.lt_irrefl _)
        | failure suffix allowed ends otherEnds =>
            refine .failure suffix allowed ends ?_
            intro ended
            rw [ended, seam.isFinal]
            exact otherEnds ended

/-! ### Steps in which the end counts -/

theorem confined_named {low high : String → Parser Expr}
    (confined : ∀ name, Confined seam limit (low name) (high name)) :
    Confined seam (limit + 1) (named low) (named high) := by
  intro inner fits
  simp only [named, identifier, bind_assoc, pure_bind]
  apply Carries.expect Kind.noConfusion
  rintro name rest rfl isName
  apply Carries.looking
  · intro token more _
    split
    · have carries := confined name.payload.asText rest (fits.of_suffix (List.suffix_cons name rest))
      exact carries.mono Nat.succ_le_succ
    · exact Carries.pure _
  · rintro rfl
    rw [if_neg Kind.noConfusion, if_neg (fits.noCall name rfl isName)]
    exact Carries.pure _

/-- A `return` in front of the end of the source has no value; so what stands in its place is an
end, too. -/
theorem confined_result {low high : Parser Expr} (confined : Confined seam limit low high) :
    Confined seam limit (result low) (result high) := by
  intro inner fits
  rw [result_eq, result_eq]
  simp only [expectWord, bind_assoc, pure_bind]
  apply Carries.expect Kind.noConfusion
  rintro word rest rfl isReturn
  have suffix := List.suffix_cons word rest
  apply Carries.looking
  · intro token more _
    split
    · exact Carries.pure _
    · have carries := (confined rest (fits.of_suffix suffix)).mono fun long =>
        Nat.le_trans long suffix.length_le
      exact carries.bind fun _ _ _ _ => Carries.pure _
  · rintro rfl
    rw [if_pos rfl, if_pos (fits.noValue word rfl isReturn)]
    exact Carries.pure _

/-! ### Repetition -/

/-- Every round takes a token, so that budgets that are longer than the tokens last. -/
theorem Confined.repeatedWithin {low high : σ → Parser (Option σ)} {spentUp : σ → Parser σ}
    (confined : ∀ gathered, Confined seam limit (low gathered) (high gathered))
    (takes : ∀ gathered, TakesToFind (low gathered)) {budget otherBudget : List Token}
    (enough : inner.length < budget.length) (otherEnough : inner.length < otherBudget.length)
    (fits : seam.Fits inner) (deeper : limit ≤ inner.length → deep) (gathered : σ) :
    Carries seam deep inner (Parser.repeatedWithin low spentUp budget gathered)
      (Parser.repeatedWithin high spentUp otherBudget gathered) := by
  induction budget generalizing inner otherBudget gathered with
  | nil => exact absurd enough (Nat.not_lt_zero _)
  | cons spent budget ih =>
      cases otherBudget with
      | nil => exact absurd otherEnough (Nat.not_lt_zero _)
      | cons otherSpent otherBudget =>
          apply ((confined gathered inner fits).mono deeper).bind
          intro found left suffix ends
          cases found with
          | none => exact Carries.pure gathered
          | some more =>
              have shorter := takes _ _ _ _ ends
              simp only [List.length_append, List.length_cons] at shorter enough otherEnough
              apply ih (by omega) (by omega) (fits.of_suffix suffix)
              exact fun long => deeper (Nat.le_trans long suffix.length_le)

theorem confined_composes (seam : Seam) :
    Relation.Composes fun _ limit alone followed => Confined seam limit alone followed where
  weaken := fun confined inner fits => (confined inner fits).mono Nat.le_of_succ_le
  pure := fun value _ _ => Carries.pure value
  unexpected := fun _ _ => Carries.fail (.inl rfl) _ fun _ => rfl
  bind := Confined.bind
  expect := by
    intro β limit kind next otherNext ordinary goesOn
    have noEnd : kind ≠ .endOfSource := by
      rintro rfl
      cases ordinary
    exact confined_expect noEnd fun token => goesOn token token ⟨rfl, rfl⟩
  look := fun absent closes confined => confined_looking absent closes confined
  named := confined_named
  result := fun confined _ => confined_result confined
  inBlock := by
    intro α limit low high confined
    have rest : Confined seam limit
        (low >>= fun found => expect .dedent >>= fun _ => pure found)
        (high >>= fun found => expect .dedent >>= fun _ => pure found) := by
      apply confined.bind
      intro found inner _
      apply Carries.expect Kind.noConfusion
      exact fun _ _ _ _ => Carries.pure found
    intro inner fits
    simp only [inBlock, expectSign, bind_assoc, pure_bind]
    refine (confined_expect Kind.noConfusion (fun _ => ?_) inner fits).mono Nat.le_of_succ_le
    exact confined_expect Kind.noConfusion fun _ => rest
  repeated := by
    intro σ limit low high spentUp takes _ confined first inner fits
    have carries : Carries seam (limit ≤ inner.length) inner
        (Parser.repeatedWithin low spentUp (inner ++ [seam.final]) first)
        (Parser.repeatedWithin high spentUp (inner ++ seam.follow) first) :=
      Confined.repeatedWithin confined takes (by simp) (by simp [Seam.follow]) fits id first
    exact carries.after List.suffix_rfl rfl rfl

/-- Where what stands in place of the end of the source is an end, too, it ends a program. -/
theorem Confined.lastStatement {statement : Parser Stmt}
    (confined : Confined seam limit statement statement) (ended : seam.head.kind = .endOfSource) :
    Confined seam limit (nextStatement .endOfSource statement)
      (nextStatement .endOfSource statement) := by
  intro inner fits
  rw [nextStatement_eq]
  apply Carries.looking
  · intro token rest _
    split
    · exact Carries.pure none
    · exact (confined inner fits).bind fun _ _ _ _ => Carries.pure _
  · intro _
    rw [if_pos rfl, if_pos ended]
    exact Carries.pure none

theorem Confined.statementsWithin {statement : Parser Stmt}
    (confined : Confined seam limit statement statement) (takes : Takes statement)
    (ended : seam.head.kind = .endOfSource) {budget otherBudget : List Token}
    (enough : inner.length < budget.length) (otherEnough : inner.length < otherBudget.length)
    (fits : seam.Fits inner) :
    Carries seam (limit ≤ inner.length) inner
      (Parser.statementsWithin .endOfSource statement budget)
      (Parser.statementsWithin .endOfSource statement otherBudget) := by
  rw [statementsWithin_eq, statementsWithin_eq]
  have rounds := (confined_composes seam).gathering (confined.lastStatement ended)
  exact Confined.repeatedWithin rounds (takesToFind_nextStatement _ takes).gathering enough
    otherEnough fits id []

end

end Parser

end IndentScript
