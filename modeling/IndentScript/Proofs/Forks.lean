import IndentScript.Proofs.Seams

/-!
Tokens that no reading gets past, and two readings of which one comes to such tokens.

A block opens behind a colon only, and behind the word that ends a function there is a value or the
end of the source. So these are dead ends: a token that opens a block, where no colon is before it;
and that word with a token of the layout behind it. What a reading can do there is to close blocks,
if closing tokens come first, and then to fail.

To see that it fails for the syntax and not for its depth, it is compared with another reading, which
has the same tokens up to the dead end and goes on from there in any way. As long as that one
succeeds, the reading that may nest deeper does the same, until it comes to the dead end.
-/

namespace IndentScript

/-- Closing tokens, and then a token that opens a block, or the word that ends a function and a token
of the layout behind it. -/
inductive DeadEnd : List Token → Prop where
  | opening {token : Token} {more : List Token} : token.kind = .indent → DeadEnd (token :: more)
  | valueless {word token : Token} {more : List Token} : word.kind = .keyword .returnWord →
    token.kind = .indent ∨ token.kind = .dedent → DeadEnd (word :: token :: more)
  | closing {token : Token} {more : List Token} : token.kind = .dedent → DeadEnd more →
    DeadEnd (token :: more)

namespace DeadEnd

theorem exists_cons {tokens : List Token} (deadEnd : DeadEnd tokens) :
    ∃ token rest, tokens = token :: rest ∧ token.kind.isOrdinary = false ∧
      token.kind ≠ .endOfSource := by
  cases deadEnd with
  | opening kind => exact ⟨_, _, rfl, by rw [kind]; decide⟩
  | valueless kind _ => exact ⟨_, _, rfl, by rw [kind]; decide⟩
  | closing kind _ => exact ⟨_, _, rfl, by rw [kind]; decide⟩

/-- The source does not end there. -/
theorem not_atEnd {tokens : List Token} (deadEnd : DeadEnd tokens) : ¬ Grammar.AtEnd tokens := by
  obtain ⟨token, rest, rfl, _, noEnd⟩ := deadEnd.exists_cons
  intro ended
  exact noEnd (ended token rfl)

end DeadEnd

structure Fork where
  onward : List Token
  blocked : List Token
  deadEnd : DeadEnd blocked

/-- The dead end does not open a block behind a colon. -/
def Fork.Fits (fork : Fork) (inner : List Token) : Prop :=
  ∀ last ∈ inner.getLast?, last.kind = .symbol .colon →
    ∀ first ∈ fork.blocked.head?, first.kind ≠ .indent

theorem Fork.Fits.of_suffix {fork : Fork} {inner left : List Token} (fits : fork.Fits inner)
    (suffix : left <:+ inner) : fork.Fits left := by
  obtain ⟨taken, rfl⟩ := suffix
  intro last member
  apply fits last
  rw [List.getLast?_append, Option.mem_def.mp member]
  rfl

/-- A fault of the tokens, or that the nesting is too deep where `deep` allows that. -/
def ParseFault.IsAllowed (deep : Prop) (fault : ParseFault) : Prop :=
  fault.isSyntactic = true ∨ fault = .tooDeep ∧ deep

namespace Parser

section

variable {α β σ : Type}

/-! ### At a dead end -/

inductive Halts (deep : Prop) : Except ParseFailure (α × List Token) → Prop where
  | failure {failure : ParseFailure} (allowed : failure.fault.IsAllowed deep) :
    Halts deep (.error failure)
  | success {value : α} {rest : List Token} (deadEnd : DeadEnd rest) : Halts deep (.ok (value, rest))

def Halting (deep : Prop) (reader : Parser α) : Prop :=
  ∀ tokens, DeadEnd tokens → Halts deep (reader tokens)

def Refuses (deep : Prop) (reader : Parser α) : Prop :=
  ∀ token rest, token.kind.isOrdinary = false →
    ∃ failure, reader (token :: rest) = .error failure ∧ failure.fault.IsAllowed deep

variable {deep : Prop}

theorem Refuses.halting {reader : Parser α} (refuses : Refuses deep reader) :
    Halting deep reader := by
  intro tokens deadEnd
  obtain ⟨token, rest, rfl, known, _⟩ := deadEnd.exists_cons
  obtain ⟨failure, ends, allowed⟩ := refuses token rest known
  rw [ends]
  exact .failure allowed

/-- A reader that always fails for the same reason fails for an allowed one if it does so once. -/
theorem Rejects.refuses {reader : Parser α} (rejects : Rejects reader) (halting : Halting deep reader) :
    Refuses deep reader := by
  obtain ⟨fault, fails⟩ := rejects
  have allowed : fault.IsAllowed deep := by
    obtain ⟨left, ends⟩ := fails ⟨.indent, .absent, 0⟩ [] rfl
    have halts := halting [⟨.indent, .absent, 0⟩] (.opening rfl)
    rw [ends] at halts
    cases halts with
    | failure allowed => exact allowed
  intro token rest known
  obtain ⟨left, ends⟩ := fails token rest known
  exact ⟨⟨fault, left⟩, ends, allowed⟩

theorem Refuses.bind {first : Parser α} (refuses : Refuses deep first) (next : α → Parser β) :
    Refuses deep (first >>= next) := by
  intro token rest known
  obtain ⟨failure, ends, allowed⟩ := refuses token rest known
  exact ⟨failure, bind_error ends next, allowed⟩

theorem Halts.bind {first : Parser α} {tokens : List Token} (halts : Halts deep (first tokens))
    {next : α → Parser β} (halting : ∀ value, Halting deep (next value)) :
    Halts deep ((first >>= next) tokens) := by
  cases ends : first tokens with
  | error failure =>
      rw [ends] at halts
      cases halts with
      | failure allowed =>
          rw [bind_error ends]
          exact .failure allowed
  | ok found =>
      rw [ends] at halts
      cases halts with
      | success deadEnd =>
          rw [bind_ok ends]
          exact halting _ _ deadEnd

theorem halting_pure (value : α) : Halting deep (pure value : Parser α) :=
  fun _ deadEnd => .success deadEnd

theorem refuses_expect {kind : Kind} (ordinary : kind.isOrdinary = true) :
    Refuses deep (expect kind) := by
  intro token rest known
  exact ⟨_, expect_of_ne (ne_of_isOrdinary ordinary known) rest, .inl rfl⟩

/-- A block is closed there if a closing token comes first. -/
theorem halting_expect_dedent : Halting deep (expect .dedent) := by
  intro tokens deadEnd
  cases deadEnd with
  | opening kind =>
      rw [expect_of_ne (by rw [kind]; decide)]
      exact .failure (.inl rfl)
  | valueless kind _ =>
      rw [expect_of_ne (by rw [kind]; decide)]
      exact .failure (.inl rfl)
  | closing kind rest =>
      rw [expect_of_kind kind]
      exact .success rest

/-! ### Before a dead end -/

/-- How two readings of the same tokens end, the first with any tokens behind them and the second
with a dead end behind them: alike and before these, or the first fails, or the second comes to the
dead end. -/
inductive Parts (fork : Fork) (deep : Prop) (inner : List Token) (low high : Parser α) : Prop where
  | together {value : α} {left : List Token} (suffix : left <:+ inner)
    (ends : low (inner ++ fork.onward) = .ok (value, left ++ fork.onward))
    (otherEnds : high (inner ++ fork.blocked) = .ok (value, left ++ fork.blocked))
  | fails {failure : ParseFailure} (ends : low (inner ++ fork.onward) = .error failure)
  | halts (ends : Halts deep (high (inner ++ fork.blocked)))

/-- Wherever the dead end fits, the second reader does as the first until it comes there, and it does
not get past it. -/
structure Outlives (fork : Fork) (deep : Prop) (low high : Parser α) : Prop where
  halting : Halting deep high
  parts : ∀ inner, fork.Fits inner → Parts fork deep inner low high

variable {fork : Fork} {inner : List Token}

/-- After some tokens are taken alike, the readings go on with what is left. -/
theorem Parts.after {left : List Token} {low high next otherNext : Parser α}
    (parts : Parts fork deep left next otherNext) (suffix : left <:+ inner)
    (same : low (inner ++ fork.onward) = next (left ++ fork.onward))
    (otherSame : high (inner ++ fork.blocked) = otherNext (left ++ fork.blocked)) :
    Parts fork deep inner low high := by
  cases parts with
  | together nextSuffix ends otherEnds =>
      exact .together (nextSuffix.trans suffix) (same.trans ends) (otherSame.trans otherEnds)
  | fails ends => exact .fails (same.trans ends)
  | halts ends =>
      rw [← otherSame] at ends
      exact .halts ends

theorem Parts.bind {low high : Parser α} {next otherNext : α → Parser β}
    (parts : Parts fork deep inner low high) (halting : ∀ value, Halting deep (otherNext value))
    (goesOn : ∀ value left, left <:+ inner →
      low (inner ++ fork.onward) = .ok (value, left ++ fork.onward) →
        Parts fork deep left (next value) (otherNext value)) :
    Parts fork deep inner (low >>= next) (high >>= otherNext) := by
  cases parts with
  | together suffix ends otherEnds =>
      exact (goesOn _ _ suffix ends).after suffix (bind_ok ends next) (bind_ok otherEnds otherNext)
  | fails ends => exact .fails (bind_error ends next)
  | halts ends => exact .halts (ends.bind halting)

theorem Outlives.bind {low high : Parser α} {next otherNext : α → Parser β}
    (outlives : Outlives fork deep low high)
    (nextOutlives : ∀ value, Outlives fork deep (next value) (otherNext value)) :
    Outlives fork deep (low >>= next) (high >>= otherNext) where
  halting := fun tokens deadEnd =>
    (outlives.halting tokens deadEnd).bind fun value => (nextOutlives value).halting
  parts := by
    intro inner fits
    apply (outlives.parts inner fits).bind fun value => (nextOutlives value).halting
    intro value left suffix _
    exact (nextOutlives value).parts left (fits.of_suffix suffix)

theorem outlives_pure (value : α) : Outlives fork deep (pure value) (pure value) where
  halting := halting_pure value
  parts := fun _ _ => .together List.suffix_rfl rfl rfl

/-- Where no token is left before the dead end, a reader does what it does there. -/
theorem Outlives.of_cons {low high : Parser α} (halting : Halting deep high)
    (parts : ∀ token rest, fork.Fits (token :: rest) → Parts fork deep (token :: rest) low high) :
    Outlives fork deep low high where
  halting := halting
  parts := by
    intro inner fits
    cases inner with
    | nil => exact .halts (halting _ fork.deadEnd)
    | cons token rest => exact parts token rest fits

theorem parts_expect (kind : Kind) (token : Token) (rest : List Token) :
    Parts fork deep (token :: rest) (expect kind) (expect kind) := by
  by_cases same : token.kind = kind
  · exact .together (List.suffix_cons token rest) (expect_of_kind same _) (expect_of_kind same _)
  · exact .fails (expect_of_ne same _)

theorem outlives_expect {kind : Kind} (ordinary : kind.isOrdinary = true) :
    Outlives fork deep (expect kind) (expect kind) :=
  .of_cons (refuses_expect ordinary).halting fun token rest _ => parts_expect kind token rest

theorem outlives_expect_dedent : Outlives fork deep (expect .dedent) (expect .dedent) :=
  .of_cons halting_expect_dedent fun token rest _ => parts_expect .dedent token rest

theorem outlives_identifier : Outlives fork deep identifier identifier :=
  (outlives_expect rfl).bind fun _ => outlives_pure _

theorem outlives_looking (absent : Option α) {low high : Kind → Parser α}
    (outlives : ∀ kind, Outlives fork deep (low kind) (high kind)) :
    Outlives fork deep (looking absent low) (looking absent high) := by
  apply Outlives.of_cons
  · intro tokens deadEnd
    obtain ⟨token, rest, rfl, _, _⟩ := deadEnd.exists_cons
    exact (outlives token.kind).halting _ deadEnd
  · intro token rest fits
    exact ((outlives token.kind).parts _ fits).after List.suffix_rfl rfl rfl

/-! ### Steps in which the dead end counts -/

/-- Behind the colon the dead end opens no block. -/
theorem Outlives.inBlock {low high : Parser α} (outlives : Outlives fork deep low high) :
    Outlives fork deep (Parser.inBlock low) (Parser.inBlock high) := by
  have rest : Outlives fork deep
      (low >>= fun found => expect .dedent >>= fun _ => pure found)
      (high >>= fun found => expect .dedent >>= fun _ => pure found) :=
    outlives.bind fun found => outlives_expect_dedent.bind fun _ => outlives_pure found
  simp only [Parser.inBlock, expectSign, bind_assoc, pure_bind]
  apply Outlives.of_cons ((refuses_expect rfl).bind _).halting
  intro colon more fits
  have fitsMore := fits.of_suffix (List.suffix_cons colon more)
  by_cases isColon : colon.kind = .symbol .colon
  · refine Parts.after ?_ (List.suffix_cons colon more) (bind_ok (expect_of_kind isColon _) _)
      (bind_ok (expect_of_kind isColon _) _)
    cases more with
    | nil =>
        obtain ⟨token, others, split, _, _⟩ := fork.deadEnd.exists_cons
        have noOpening := fits colon rfl isColon token (by rw [split]; rfl)
        apply Parts.halts
        rw [List.nil_append, split, bind_error (expect_of_ne noOpening others)]
        exact .failure (.inl rfl)
    | cons opening more =>
        apply (parts_expect .indent opening more).bind fun _ => rest.halting
        intro _ left suffix _
        exact rest.parts left (fitsMore.of_suffix suffix)
  · exact .fails (bind_error (expect_of_ne isColon _) _)

/-- What starts a dead end is no value behind the word that ends a function. -/
theorem result_fails {reader : Parser Expr} (refuses : Refuses deep reader) {word token : Token}
    (isReturn : word.kind = .keyword .returnWord) (known : token.kind.isOrdinary = false)
    (noEnd : token.kind ≠ .endOfSource) (rest : List Token) :
    ∃ failure, result reader (word :: token :: rest) = .error failure ∧
      failure.fault.IsAllowed deep := by
  obtain ⟨failure, ends, allowed⟩ :=
    refuses.bind (fun value => pure (Stmt.result (some value))) token rest known
  refine ⟨failure, ?_, allowed⟩
  have taken : expectWord .returnWord (word :: token :: rest) = .ok ((), token :: rest) :=
    bind_ok (expect_of_kind isReturn _) _
  rw [result_eq, bind_ok taken, looking, if_neg noEnd, ends]

theorem halting_result {reader : Parser Expr} (refuses : Refuses deep reader) :
    Halting deep (result reader) := by
  have other : ∀ (token : Token) (rest : List Token), token.kind ≠ .keyword .returnWord →
      Halts deep (result reader (token :: rest)) := by
    intro token rest different
    have fails : expectWord .returnWord (token :: rest) = .error ⟨_, token :: rest⟩ :=
      bind_error (expect_of_ne different rest) _
    rw [result, bind_error fails]
    exact .failure (.inl rfl)
  intro tokens deadEnd
  cases deadEnd with
  | opening kind => exact other _ _ (by rw [kind]; decide)
  | closing kind _ => exact other _ _ (by rw [kind]; decide)
  | valueless kind isLayout =>
      obtain ⟨failure, ends, allowed⟩ := result_fails refuses kind
        (by rcases isLayout with kind | kind <;> rw [kind] <;> decide)
        (by rcases isLayout with kind | kind <;> rw [kind] <;> decide) _
      rw [ends]
      exact .failure allowed

theorem Outlives.result {low high : Parser Expr} (outlives : Outlives fork deep low high)
    (refuses : Refuses deep high) : Outlives fork deep (Parser.result low) (Parser.result high) := by
  apply Outlives.of_cons (halting_result refuses)
  intro word rest fits
  by_cases isReturn : word.kind = .keyword .returnWord
  · cases rest with
    | nil =>
        obtain ⟨token, others, split, known, noEnd⟩ := fork.deadEnd.exists_cons
        obtain ⟨failure, ends, allowed⟩ := result_fails refuses isReturn known noEnd others
        apply Parts.halts
        rw [split, List.singleton_append, ends]
        exact .failure allowed
    | cons token rest =>
        have fitsRest := fits.of_suffix (List.suffix_cons word _)
        have taken : ∀ more, expectWord .returnWord (word :: more) = .ok ((), more) :=
          fun more => bind_ok (expect_of_kind isReturn more) _
        rw [result_eq, result_eq]
        refine Parts.after ?_ (List.suffix_cons word _) (bind_ok (taken _) _) (bind_ok (taken _) _)
        refine Outlives.parts (outlives_looking _ ?_) _ fitsRest
        intro kind
        split
        · exact outlives_pure _
        · exact outlives.bind fun _ => outlives_pure _
  · exact .fails (bind_error (bind_error (expect_of_ne isReturn _) _) _)

/-! ### Repetition -/

/-- A loop at a dead end: its rounds come no further, and those of a loop that must not spend its budget
do not even start. -/
theorem halting_repeatedWithin {round : σ → Parser (Option σ)} {spentUp : σ → Parser σ}
    (lasts : Lasts round spentUp)
    (halting : ∀ gathered, Halting deep (round gathered)) (spent : Token) (budget : List Token)
    (gathered : σ) : Halting deep (repeatedWithin round spentUp (spent :: budget) gathered) := by
  rcases lasts with rfl | ⟨rfl, rejects⟩
  · induction budget generalizing spent gathered with
    | nil =>
        intro tokens deadEnd
        apply (halting gathered tokens deadEnd).bind
        intro found
        cases found with
        | none => exact halting_pure gathered
        | some more => exact halting_pure more
    | cons next budget ih =>
        intro tokens deadEnd
        apply (halting gathered tokens deadEnd).bind
        intro found
        cases found with
        | none => exact halting_pure gathered
        | some more => exact ih next more
  · exact (((rejects gathered).refuses (halting gathered)).bind _).halting

/-- Every round takes a token, so that the budgets last as long as there are tokens before the dead
end. -/
theorem Outlives.repeatedWithin {low high : σ → Parser (Option σ)} {spentUp : σ → Parser σ}
    (takes : ∀ gathered, TakesToFind (low gathered))
    (lasts : Lasts high spentUp)
    (outlives : ∀ gathered, Outlives fork deep (low gathered) (high gathered))
    {budget otherBudget : List Token} (enough : inner.length ≤ budget.length)
    (otherEnough : inner.length < otherBudget.length) (fits : fork.Fits inner) (gathered : σ) :
    Parts fork deep inner (Parser.repeatedWithin low spentUp budget gathered)
      (Parser.repeatedWithin high spentUp otherBudget gathered) := by
  have halting := halting_repeatedWithin lasts fun gathered => (outlives gathered).halting
  induction otherBudget generalizing inner budget gathered with
  | nil => exact absurd otherEnough (Nat.not_lt_zero _)
  | cons otherSpent otherBudget ih =>
      cases inner with
      | nil => exact .halts (halting _ _ gathered _ fork.deadEnd)
      | cons token rest =>
          cases budget with
          | nil => exact absurd enough (Nat.not_succ_le_zero _)
          | cons spent budget =>
              simp only [List.length_cons] at enough otherEnough
              -- A token is left, so that the budget of the second reading lasts for its end.
              obtain ⟨last, others, rfl⟩ : ∃ last others, otherBudget = last :: others :=
                List.exists_cons_of_length_pos (by omega)
              apply ((outlives gathered).parts _ fits).bind
              · intro found
                cases found with
                | none => exact halting_pure gathered
                | some more => exact halting last others more
              · intro found left suffix read
                cases found with
                | none => exact (outlives_pure gathered).parts left (fits.of_suffix suffix)
                | some more =>
                    have shorter := takes _ _ _ _ read
                    simp only [List.length_append, List.length_cons] at shorter
                    exact ih (by omega) (by omega) (fits.of_suffix suffix) more

theorem Outlives.repeated {low high : σ → Parser (Option σ)} {spentUp : σ → Parser σ}
    (takes : ∀ gathered, TakesToFind (low gathered))
    (lasts : Lasts high spentUp)
    (outlives : ∀ gathered, Outlives fork deep (low gathered) (high gathered)) (first : σ) :
    Outlives fork deep (Parser.repeated low spentUp first) (Parser.repeated high spentUp first) where
  halting := by
    intro tokens deadEnd
    obtain ⟨token, rest, rfl, _, _⟩ := deadEnd.exists_cons
    exact halting_repeatedWithin lasts (fun gathered => (outlives gathered).halting) token rest first _
      deadEnd
  parts := by
    intro inner fits
    obtain ⟨token, rest, split, _, _⟩ := fork.deadEnd.exists_cons
    have parts : Parts fork deep inner
        (Parser.repeatedWithin low spentUp (inner ++ fork.onward) first)
        (Parser.repeatedWithin high spentUp (inner ++ fork.blocked) first) :=
      Outlives.repeatedWithin takes lasts outlives (by simp) (by simp [split]) fits first
    exact parts.after List.suffix_rfl rfl rfl

theorem outlives_composes (fork : Fork) (deep : Prop) :
    Relation.Composes fun _ _ low high => Outlives fork deep low high where
  weaken := id
  pure := outlives_pure
  unexpected := ⟨fun _ _ => .failure (.inl rfl), fun _ _ => .fails rfl⟩
  bind := Outlives.bind
  expect := fun ordinary goesOn =>
    (outlives_expect ordinary).bind fun token => goesOn token token ⟨rfl, rfl⟩
  look := fun absent _ outlives => outlives_looking absent outlives
  named := by
    intro _ low high outlives
    apply outlives_identifier.bind
    intro name
    apply outlives_looking
    intro kind
    split
    · exact outlives name
    · exact outlives_pure _
  result := fun outlives rejects => outlives.result (rejects.refuses outlives.halting)
  inBlock := Outlives.inBlock
  repeated := Outlives.repeated

end

end Parser

end IndentScript
