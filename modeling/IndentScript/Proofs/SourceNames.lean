import IndentScript.Proofs.GrammarSoundness
import IndentScript.Proofs.SourceTokens

/-!
Names in programs that come from source texts. A word that is spelled like a keyword is never cut
up into an identifier, and a name that a statement sets comes from an identifier among its tokens. So
no statement of such a program, at whatever depth it stands, sets a name that is spelled like a
keyword.
-/

namespace IndentScript

namespace Stmt

def bodies : Stmt → List Block
  | .branch _ body arms otherwise => body :: (arms.map Prod.snd ++ otherwise.toList)
  | .count _ _ body | .loop _ body | .define _ _ body => [body]
  | _ => []

def target? : Stmt → Option String
  | .assign name _ | .define name _ _ => some name
  | _ => none

/-- The statement stands in the block or, at any depth, in a statement of it. -/
inductive Occurs (statement : Stmt) : Block → Prop where
  | here {block : Block} : statement ∈ block → Occurs statement block
  | deeper {outer : Stmt} {block inner : Block} : outer ∈ block → inner ∈ outer.bodies →
    Occurs statement inner → Occurs statement block

theorem Occurs.mono {part : Stmt} {block others : Block} (occurs : part.Occurs block)
    (subset : block ⊆ others) : part.Occurs others := by
  cases occurs with
  | here member => exact .here (subset member)
  | deeper member isBody inside => exact .deeper (subset member) isBody inside

theorem Occurs.trans {part statement : Stmt} {block : Block} (occurs : statement.Occurs block)
    (inside : part.Occurs [statement]) : part.Occurs block := by
  induction occurs with
  | here member => exact inside.mono (List.cons_subset.mpr ⟨member, List.nil_subset _⟩)
  | deeper member isBody _ ih => exact .deeper member isBody ih

end Stmt

/-! ### Tokens of sentences -/

namespace Grammar

/-- The sentence is made of some of the tokens. -/
def MadeOf (tokens : List Token) (sentence : Sentence) : Prop :=
  ∃ taken follow, Derives sentence taken follow ∧ taken ⊆ tokens

variable {tokens : List Token}

theorem MadeOf.statement {block : Block} (made : MadeOf tokens (.statements block)) {statement : Stmt}
    (member : statement ∈ block) : MadeOf tokens (.statement statement) := by
  obtain ⟨taken, follow, derives, among⟩ := made
  induction block generalizing taken with
  | nil => cases member
  | cons first others ih =>
      cases derives with
      | statements isFirst areOthers =>
          obtain ⟨amongFirst, amongOthers⟩ := List.append_subset.mp among
          rcases List.mem_cons.mp member with rfl | inOthers
          · exact ⟨_, _, isFirst, amongFirst⟩
          · exact ih inOthers _ areOthers amongOthers

theorem MadeOf.body {block : Block} (made : MadeOf tokens (.body block)) :
    MadeOf tokens (.statements block) := by
  obtain ⟨_, _, derives, among⟩ := made
  cases derives with
  | body _ _ isInner _ =>
      have amongInner := (List.cons_subset.mp (List.cons_subset.mp among).2).2
      exact ⟨_, _, isInner, (List.append_subset.mp amongInner).1⟩

theorem MadeOf.arm {arms : List (Expr × Block)} (made : MadeOf tokens (.arms arms))
    {arm : Expr × Block} (member : arm ∈ arms) : MadeOf tokens (.statements arm.2) := by
  obtain ⟨taken, follow, derives, among⟩ := made
  induction arms generalizing taken with
  | nil => cases member
  | cons first others ih =>
      cases derives with
      | arm _ _ isBody areOthers =>
          have amongBoth := (List.append_subset.mp (List.cons_subset.mp among).2).2
          obtain ⟨amongBody, amongOthers⟩ := List.append_subset.mp amongBoth
          rcases List.mem_cons.mp member with rfl | inOthers
          · exact MadeOf.body ⟨_, _, isBody, amongBody⟩
          · exact ih inOthers _ areOthers amongOthers

theorem MadeOf.otherwise {last : Option Block} (made : MadeOf tokens (.otherwise last))
    {block : Block} (member : block ∈ last.toList) : MadeOf tokens (.statements block) := by
  obtain ⟨_, _, derives, among⟩ := made
  cases derives with
  | noOtherwise => cases member
  | otherwise _ isBody =>
      obtain rfl := List.mem_singleton.mp member
      exact MadeOf.body ⟨_, _, isBody, (List.cons_subset.mp among).2⟩

/-- The blocks in a statement are made of its tokens. -/
theorem MadeOf.bodies {outer : Stmt} (made : MadeOf tokens (.statement outer)) {inner : Block}
    (member : inner ∈ outer.bodies) : MadeOf tokens (.statements inner) := by
  obtain ⟨_, _, derives, among⟩ := made
  cases derives with
  | branch _ _ isBody areArms isOtherwise =>
      have amongAll := (List.append_subset.mp (List.cons_subset.mp among).2).2
      obtain ⟨amongBody, amongRest⟩ := List.append_subset.mp amongAll
      obtain ⟨amongArms, amongLast⟩ := List.append_subset.mp amongRest
      rcases List.mem_cons.mp member with rfl | inRest
      · exact MadeOf.body ⟨_, _, isBody, amongBody⟩
      · rcases List.mem_append.mp inRest with inArms | inLast
        · obtain ⟨arm, isArm, rfl⟩ := List.mem_map.mp inArms
          exact MadeOf.arm ⟨_, _, areArms, amongArms⟩ isArm
        · exact MadeOf.otherwise ⟨_, _, isOtherwise, amongLast⟩ inLast
  | count _ _ _ _ _ isBody =>
      obtain rfl := List.mem_singleton.mp member
      simp only [List.cons_subset, List.append_subset] at among
      exact MadeOf.body ⟨_, _, isBody, among.2.2.2.2.2⟩
  | loop _ _ isBody =>
      obtain rfl := List.mem_singleton.mp member
      simp only [List.cons_subset, List.append_subset] at among
      exact MadeOf.body ⟨_, _, isBody, among.2.2⟩
  | define _ _ _ _ _ isBody =>
      obtain rfl := List.mem_singleton.mp member
      simp only [List.cons_subset, List.append_subset] at among
      exact MadeOf.body ⟨_, _, isBody, among.2.2.2.2.2⟩
  | _ => cases member

theorem MadeOf.occurs {statement : Stmt} {block : Block} (occurs : statement.Occurs block)
    (made : MadeOf tokens (.statements block)) : MadeOf tokens (.statement statement) := by
  induction occurs with
  | here member => exact made.statement member
  | deeper member isBody _ ih => exact ih ((made.statement member).bodies isBody)

/-- A name that a statement sets is the text of an identifier among its tokens. -/
theorem MadeOf.target {statement : Stmt} (made : MadeOf tokens (.statement statement))
    {name : String} (sets : statement.target? = some name) :
    ∃ token ∈ tokens, token.kind = .identifier ∧ token.payload.asText = name := by
  obtain ⟨_, _, derives, among⟩ := made
  cases derives with
  | assign _ nameKind _ _ =>
      cases sets
      exact ⟨_, among (List.mem_cons_of_mem _ List.mem_cons_self), nameKind, rfl⟩
  | define _ nameKind _ _ _ _ =>
      cases sets
      exact ⟨_, among (List.mem_cons_of_mem _ List.mem_cons_self), nameKind, rfl⟩
  | table _ nameKind _ _ _ _ =>
      cases sets
      exact ⟨_, among (List.mem_cons_of_mem _ List.mem_cons_self), nameKind, rfl⟩
  | _ => cases sets

theorem madeOf_of_parseWithin {depth : Nat} {program : Program}
    (parsed : parseWithin depth tokens = .ok program) :
    MadeOf tokens (.statements program.statements) := by
  obtain ⟨rest, read⟩ := parseWithin_eq_ok parsed
  obtain ⟨taken, rfl, derives⟩ :=
    Parser.sound_statementsUntil (Parser.sound_statement depth) tokens _ rest read
  exact ⟨taken, rest, derives, List.subset_append_left _ _⟩

end Grammar

/-- No statement of a program that comes from a source text sets a name that is spelled like a
keyword. -/
theorem Stmt.Occurs.target_ne_keyword {source : String} {tokens : List Token} {depth : Nat}
    {program : Program} (lexed : tokenize source = .ok tokens)
    (parsed : parseWithin depth tokens = .ok program) {statement : Stmt}
    (occurs : statement.Occurs program.statements) {name : String} {keyword : Keyword}
    (spelled : Keyword.ofSpelling? name = some keyword) : statement.target? ≠ some name := by
  intro sets
  have made := Grammar.MadeOf.occurs occurs (Grammar.madeOf_of_parseWithin parsed)
  obtain ⟨token, member, identifier, rfl⟩ := made.target sets
  have carries := carrying_of_tokenize lexed token member
  rw [identifier] at carries
  obtain ⟨word, payload, unknown⟩ := carries
  rw [payload, Payload.asText, unknown] at spelled
  cases spelled

end IndentScript
