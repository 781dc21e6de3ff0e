import IndentScript.Token.Lexer

/-!
The layout of a source text. Line by line the stack of open blocks goes from zero at its bottom
strictly upward, and it is as high as the number of blocks that the tokens so far have opened and
not closed. No block is closed before it is opened, and the tokens stand in the order of their lines.

A line whose width is smaller than that of the innermost block and not on the stack opens a block
before it closes the others. So what a line does is counted as a whole: from the number of blocks
open before it to the number of blocks open behind it.
-/

namespace IndentScript

def opened (tokens : List Token) : Nat :=
  tokens.countP fun token => token.kind = .indent

def closed (tokens : List Token) : Nat :=
  tokens.countP fun token => token.kind = .dedent

def Kind.isLayout : Kind → Bool
  | .indent | .dedent | .endOfSource => true
  | _ => false

namespace Lexing

/-! ### Lexemes and the tokens of a line -/

theorem wordKind_cases (word : String) :
    (∃ keyword, Keyword.ofSpelling? word = some keyword ∧ wordKind word = .keyword keyword) ∨
      Keyword.ofSpelling? word = none ∧ wordKind word = .identifier := by
  unfold wordKind
  cases known : Keyword.ofSpelling? word with
  | some keyword => exact .inl ⟨keyword, rfl, rfl⟩
  | none => exact .inr ⟨rfl, rfl⟩

/-- A lexeme is a text in quotes, a number, a word or a sign. -/
theorem lexeme_cases {line : Nat} {c : Char} {rest : List Char} {found : Lexeme}
    (success : lexeme line c rest = .ok found) :
    (∃ content, found.kind = .string ∧ found.payload = .text content) ∨
      (∃ value, found.kind = .number ∧ found.payload = .number value) ∨
      (∃ word, found.kind = wordKind word ∧ found.payload = .text word) ∨
      ∃ sign, found.kind = .symbol sign ∧ found.payload = .text sign.spelling := by
  unfold lexeme at success
  split at success
  · split at success
    · cases success
    · cases success
      exact .inl ⟨_, rfl, rfl⟩
  · split at success
    · dsimp only at success
      split at success
      · cases success
      · cases success
        exact .inr (.inl ⟨_, rfl, rfl⟩)
    · split at success
      · cases success
        exact .inr (.inr (.inl ⟨_, rfl, rfl⟩))
      · split at success
        · cases success
          exact .inr (.inr (.inr ⟨_, rfl, rfl⟩))
        · split at success
          · cases success
            exact .inr (.inr (.inr ⟨_, rfl, rfl⟩))
          · cases success

/-- What holds of every lexeme holds of every token behind the indentation of a line. -/
theorem forall_mem_scan (property : Kind → Payload → Prop) (line : Nat)
    (holds : ∀ c rest found, lexeme line c rest = .ok found → property found.kind found.payload)
    (characters : List Char) :
    ∀ token ∈ (scan line characters).1, token.line = line ∧ property token.kind token.payload := by
  fun_induction scan line characters with
  | case1 => exact List.forall_mem_nil _
  | case2 c rest blank ih => exact ih
  | case3 c rest visible fault failed => exact List.forall_mem_nil _
  | case4 c rest visible found success tokens fault scanned ih =>
      rw [scanned] at ih
      exact List.forall_mem_cons.mpr ⟨⟨rfl, holds c rest found success⟩, ih⟩

theorem isLayout_of_mem_scan (line : Nat) (characters : List Char) :
    ∀ token ∈ (scan line characters).1, token.line = line ∧ token.kind.isLayout = false := by
  apply forall_mem_scan fun kind _ => kind.isLayout = false
  intro c rest found success
  rcases lexeme_cases success with ⟨_, kind, _⟩ | ⟨_, kind, _⟩ | ⟨word, kind, _⟩ | ⟨_, kind, _⟩
  · rw [kind]
    rfl
  · rw [kind]
    rfl
  · rcases wordKind_cases word with ⟨keyword, _, same⟩ | ⟨_, same⟩
    · rw [kind, same]
      rfl
    · rw [kind, same]
      rfl
  · rw [kind]
    rfl

/-! ### The stack of open blocks -/

/-- The widths of open blocks, innermost first: they decrease strictly and end with zero. -/
structure Nested (widths : List Nat) : Prop where
  bottom : widths.getLast? = some 0
  decreasing : widths.Pairwise (· > ·)

theorem nested_zero : Nested [0] :=
  ⟨rfl, List.pairwise_singleton _ _⟩

theorem Nested.ne_nil {widths : List Nat} (nested : Nested widths) : widths ≠ [] := by
  rintro rfl
  cases nested.bottom

/-- Below a block that is not at the margin there is another. -/
theorem Nested.tail {top : Nat} {others : List Nat} (nested : Nested (top :: others))
    (indented : 0 < top) : Nested others := by
  cases others with
  | nil =>
      have margin : top = 0 := Option.some.inj nested.bottom
      omega
  | cons second others => exact ⟨nested.bottom, nested.decreasing.of_cons⟩

theorem Nested.push {width : Nat} {widths : List Nat} (nested : Nested widths)
    (wider : widths.headD 0 < width) : Nested (width :: widths) := by
  cases widths with
  | nil => cases nested.bottom
  | cons top others =>
      refine ⟨nested.bottom, List.pairwise_cons.mpr ⟨?_, nested.decreasing⟩⟩
      intro other member
      rcases List.mem_cons.mp member with rfl | inOthers
      · exact wider
      · exact Nat.lt_trans (List.rel_of_pairwise_cons nested.decreasing inOthers) wider

/-- The block at the margin is never closed, so that there always is a block to compare with. -/
theorem Nested.closeWider {widths : List Nat} (nested : Nested widths) (width : Nat) :
    Nested (Lexing.closeWider width widths).2 ∧
      (Lexing.closeWider width widths).1 + (Lexing.closeWider width widths).2.length =
        widths.length := by
  induction widths with
  | nil => cases nested.bottom
  | cons top others ih =>
      rw [Lexing.closeWider]
      split
      · rename_i wider
        obtain ⟨outer, count⟩ := ih (nested.tail (by omega))
        refine ⟨outer, ?_⟩
        simp only [List.length_cons]
        omega
      · exact ⟨nested, by simp⟩

/-! ### Tokens between two heights of the stack -/

/-- Tokens of the lines from `first` to `last`, in their order, that lead from one number of open
blocks to another and on the way never close a block that is not open. The source does not end
among them. -/
structure Leads (first last before after : Nat) (tokens : List Token) : Prop where
  total : before + opened tokens = after + closed tokens
  covered : ∀ front, front <+: tokens → closed front ≤ before + opened front
  ordered : tokens.Pairwise fun one other => one.line ≤ other.line
  placed : ∀ token ∈ tokens, first ≤ token.line ∧ token.line ≤ last
  inside : ∀ token ∈ tokens, token.kind ≠ .endOfSource

section

variable {first middle last before between after : Nat} {front back tokens : List Token}

@[simp]
theorem opened_append : opened (front ++ back) = opened front + opened back :=
  List.countP_append

@[simp]
theorem closed_append : closed (front ++ back) = closed front + closed back :=
  List.countP_append

theorem leads_nil (first last before : Nat) : Leads first last before before [] where
  total := rfl
  covered := by
    intro front isPrefix
    rw [List.prefix_nil.mp isPrefix]
    exact Nat.zero_le _
  ordered := List.Pairwise.nil
  placed := List.forall_mem_nil _
  inside := List.forall_mem_nil _

theorem Leads.append (leadsFront : Leads first middle before between front)
    (leadsBack : Leads middle last between after back) (lower : first ≤ middle)
    (upper : middle ≤ last) :
    Leads first last before after (front ++ back) where
  total := by
    have totalFront := leadsFront.total
    have totalBack := leadsBack.total
    rw [opened_append, closed_append]
    omega
  covered := by
    rintro start ⟨rest, split⟩
    rcases List.append_eq_append_iff.mp split with ⟨more, inFront, _⟩ | ⟨more, rfl, inBack⟩
    · exact leadsFront.covered start ⟨more, inFront.symm⟩
    · have totalFront := leadsFront.total
      have coveredBack := leadsBack.covered more ⟨rest, inBack.symm⟩
      rw [opened_append, closed_append]
      omega
  ordered := by
    refine List.pairwise_append.mpr ⟨leadsFront.ordered, leadsBack.ordered, ?_⟩
    intro one inFront other inBack
    have oneLine := (leadsFront.placed one inFront).2
    have otherLine := (leadsBack.placed other inBack).1
    omega
  placed := by
    intro token member
    rcases List.mem_append.mp member with inFront | inBack
    · have line := leadsFront.placed token inFront
      omega
    · have line := leadsBack.placed token inBack
      omega
  inside := List.forall_mem_append.mpr ⟨leadsFront.inside, leadsBack.inside⟩

theorem Leads.from_earlier {earlier : Nat} (leads : Leads first last before after tokens)
    (lower : earlier ≤ first) : Leads earlier last before after tokens where
  total := leads.total
  covered := leads.covered
  ordered := leads.ordered
  placed := by
    intro token member
    have line := leads.placed token member
    omega
  inside := leads.inside

/-- Tokens of one line that are no layout change no height. -/
theorem leads_of_plain {line : Nat} (before : Nat)
    (plain : ∀ token ∈ tokens, token.line = line ∧ token.kind.isLayout = false) :
    Leads line line before before tokens := by
  have nothing : ∀ front, front <+: tokens → opened front = 0 ∧ closed front = 0 := by
    intro front isPrefix
    constructor
    · refine List.countP_eq_zero.mpr ?_
      intro token member isOpening
      have kind := (plain token (isPrefix.subset member)).2
      rw [of_decide_eq_true isOpening] at kind
      cases kind
    · refine List.countP_eq_zero.mpr ?_
      intro token member isClosing
      have kind := (plain token (isPrefix.subset member)).2
      rw [of_decide_eq_true isClosing] at kind
      cases kind
  refine ⟨?_, ?_, ?_, ?_, ?_⟩
  · obtain ⟨noOpening, noClosing⟩ := nothing tokens (List.prefix_refl tokens)
    rw [noOpening, noClosing]
  · intro front isPrefix
    rw [(nothing front isPrefix).2]
    exact Nat.zero_le _
  · refine List.Pairwise.imp_of_mem ?_ (List.pairwise_of_forall (fun _ _ => trivial))
    intro one other inTokens otherInTokens _
    exact Nat.le_of_eq ((plain one inTokens).1.trans (plain other otherInTokens).1.symm)
  · intro token member
    rw [(plain token member).1]
    exact ⟨Nat.le_refl _, Nat.le_refl _⟩
  · intro token member isFinal
    have kind := (plain token member).2
    rw [isFinal] at kind
    cases kind

theorem leads_opening (line before : Nat) :
    Leads line line before (before + 1) [Token.opening line] where
  total := rfl
  covered := by
    intro front isPrefix
    have noClosing : closed [Token.opening line] = 0 := rfl
    have fewer : closed front ≤ closed [Token.opening line] := isPrefix.sublist.countP_le
    omega
  ordered := List.pairwise_singleton _ _
  placed := List.forall_mem_singleton.mpr ⟨Nat.le_refl _, Nat.le_refl _⟩
  inside := List.forall_mem_singleton.mpr Kind.noConfusion

theorem leads_closings (line after count : Nat) :
    Leads line line (after + count) after (List.replicate count (Token.closing line)) := by
  have counts : ∀ count, opened (List.replicate count (Token.closing line)) = 0 ∧
      closed (List.replicate count (Token.closing line)) = count := by
    intro count
    constructor
    · rw [opened, List.countP_replicate]
      rfl
    · rw [closed, List.countP_replicate]
      rfl
  refine ⟨?_, ?_, ?_, ?_, ?_⟩
  · rw [(counts count).1, (counts count).2]
    rfl
  · intro front isPrefix
    have fewer : closed front ≤ closed (List.replicate count (Token.closing line)) :=
      isPrefix.sublist.countP_le
    rw [(counts count).2] at fewer
    omega
  · exact List.pairwise_replicate.mpr (.inr (Nat.le_refl _))
  · intro token member
    rw [List.eq_of_mem_replicate member]
    exact ⟨Nat.le_refl _, Nat.le_refl _⟩
  · intro token member
    rw [List.eq_of_mem_replicate member]
    exact Kind.noConfusion

end

/-- The layout tokens of a line lead from the height of the stack before it to the one behind it. -/
theorem Nested.layout {widths : List Nat} (nested : Nested widths) (line width : Nat) :
    Nested (Lexing.layout line width widths).2 ∧
      Leads line line (widths.length - 1) ((Lexing.layout line width widths).2.length - 1)
        (Lexing.layout line width widths).1 := by
  obtain ⟨outer, count⟩ := nested.closeWider width
  have someLeft := List.length_pos_iff.mpr outer.ne_nil
  unfold Lexing.layout
  dsimp only
  split
  · rename_i wider
    refine ⟨outer.push wider, ?_⟩
    -- The block is opened first, so that the closing tokens start one level higher.
    have opening := leads_opening line (widths.length - 1)
    have closings := leads_closings line (Lexing.closeWider width widths).2.length
      (Lexing.closeWider width widths).1
    have height : widths.length - 1 + 1 =
        (Lexing.closeWider width widths).2.length + (Lexing.closeWider width widths).1 := by
      omega
    rw [height] at opening
    exact opening.append closings (Nat.le_refl _) (Nat.le_refl _)
  · refine ⟨outer, ?_⟩
    have closings := leads_closings line ((Lexing.closeWider width widths).2.length - 1)
      (Lexing.closeWider width widths).1
    have height : (Lexing.closeWider width widths).2.length - 1 +
        (Lexing.closeWider width widths).1 = widths.length - 1 := by
      omega
    rwa [height] at closings

/-! ### Lines one after another -/

/-- What is reached behind some lines, with the blocks that are open there left open. -/
def reach (line next : Nat) (widths : List Nat) : List (List Char) → Outcome
  | [] => ⟨[], line, widths, none⟩
  | characters :: others =>
    let width := indentation characters
    let (layoutTokens, inner) := layout next width widths
    let (tokens, fault) := scan next (characters.drop width)
    match fault with
    | some fault => ⟨layoutTokens ++ tokens, next, inner, some fault⟩
    | none =>
      let rest := reach next (next + 1) inner others
      { rest with tokens := layoutTokens ++ tokens ++ rest.tokens }

def Outcome.resume (reached : Outcome) (next : Nat) (rows : List (List Char)) : Outcome :=
  match reached.fault with
  | some _ => reached
  | none =>
    let rest := cut reached.line next reached.widths rows
    { rest with tokens := reached.tokens ++ rest.tokens }

private theorem resume_behind (tokens : List Token) (reached : Outcome) (next : Nat)
    (rows : List (List Char)) :
    Outcome.resume { reached with tokens := tokens ++ reached.tokens } next rows =
      { reached.resume next rows with tokens := tokens ++ (reached.resume next rows).tokens } := by
  obtain ⟨reachedTokens, line, widths, fault⟩ := reached
  cases fault with
  | some fault => rfl
  | none =>
      dsimp only [Outcome.resume]
      rw [List.append_assoc]

/-- The work on lines passes through what is reached behind the first of them. -/
theorem cut_append (line next : Nat) (widths : List Nat) (front back : List (List Char)) :
    cut line next widths (front ++ back) =
      (reach line next widths front).resume (next + front.length) back := by
  induction front generalizing line next widths with
  | nil => rfl
  | cons characters others ih =>
      rw [List.cons_append, cut, reach]
      dsimp only
      cases (scan next (List.drop (indentation characters) characters)).2 with
      | some fault => rfl
      | none =>
          dsimp only
          rw [ih, resume_behind, List.length_cons, Nat.add_right_comm next 1, Nat.add_assoc next]

/-- Whatever the lines are, the stack stays in order, and the tokens lead from its height before
them to its height behind them; this holds at a fault, too. -/
theorem Nested.reach {widths : List Nat} (nested : Nested widths) {line next : Nat}
    (ascending : line ≤ next) (rows : List (List Char)) :
    Nested (Lexing.reach line next widths rows).widths ∧
      Leads line (Lexing.reach line next widths rows).line (widths.length - 1)
        ((Lexing.reach line next widths rows).widths.length - 1)
        (Lexing.reach line next widths rows).tokens ∧
      line ≤ (Lexing.reach line next widths rows).line ∧
      (Lexing.reach line next widths rows).line < max (line + 1) (next + rows.length) := by
  induction rows generalizing line next widths with
  | nil =>
      refine ⟨nested, leads_nil _ _ _, Nat.le_refl _, ?_⟩
      exact Nat.lt_of_lt_of_le (Nat.lt_succ_self line) (Nat.le_max_left _ _)
  | cons characters others ih =>
      obtain ⟨inner, layoutLeads⟩ := nested.layout next (indentation characters)
      have scanned := leads_of_plain
        ((Lexing.layout next (indentation characters) widths).2.length - 1)
        (isLayout_of_mem_scan next (characters.drop (indentation characters)))
      have lineLeads := layoutLeads.append scanned (Nat.le_refl _) (Nat.le_refl _)
      rw [Lexing.reach]
      dsimp only
      cases (scan next (characters.drop (indentation characters))).2 with
      | some fault =>
          refine ⟨inner, lineLeads.from_earlier ascending, ascending, ?_⟩
          simp only [List.length_cons]
          omega
      | none =>
          obtain ⟨innermost, restLeads, notBefore, notBehind⟩ := ih inner (Nat.le_add_right next 1)
          have leads := lineLeads.append restLeads (Nat.le_refl _) notBefore
          refine ⟨innermost, leads.from_earlier ascending, Nat.le_trans ascending notBefore, ?_⟩
          simp only [List.length_cons]
          omega

/-! ### Whole source texts -/

/-- Tokens and a stack of open blocks that fit together, with the tokens in the order of their lines,
of which there are the given number. -/
structure LaidOut (rows : Nat) (tokens : List Token) (widths : List Nat) : Prop where
  nested : Nested widths
  height : opened tokens = closed tokens + (widths.length - 1)
  covered : ∀ front, front <+: tokens → closed front ≤ opened front
  ordered : tokens.Pairwise fun one other => one.line ≤ other.line
  placed : ∀ token ∈ tokens, 1 ≤ token.line ∧ token.line ≤ max 1 rows

theorem Leads.laidOut {last rows : Nat} {tokens : List Token} {widths : List Nat}
    (leads : Leads 1 last 0 (widths.length - 1) tokens) (nested : Nested widths)
    (bound : last ≤ max 1 rows) : LaidOut rows tokens widths where
  nested := nested
  height := by
    have total := leads.total
    omega
  covered := by
    intro front isPrefix
    have covered := leads.covered front isPrefix
    omega
  ordered := leads.ordered
  placed := by
    intro token member
    have line := leads.placed token member
    omega

/-- The token for the end of the source opens and closes nothing. -/
theorem Leads.laidOut_final {last rows : Nat} {tokens : List Token} (leads : Leads 1 last 0 0 tokens)
    (start : 1 ≤ last) (bound : last ≤ max 1 rows) :
    LaidOut rows (tokens ++ [Token.final last]) [0] := by
  have inner : LaidOut rows tokens [0] := Leads.laidOut leads nested_zero bound
  have noOpening : opened [Token.final last] = 0 := rfl
  have noClosing : closed [Token.final last] = 0 := rfl
  refine ⟨nested_zero, ?_, ?_, ?_, ?_⟩
  · have height := inner.height
    rw [opened_append, closed_append, noOpening, noClosing]
    exact height
  · intro front isPrefix
    rcases List.prefix_concat_iff.mp isPrefix with whole | inTokens
    · have covered := inner.covered tokens (List.prefix_refl tokens)
      rw [whole, opened_append, closed_append, noOpening, noClosing]
      exact covered
    · exact inner.covered front inTokens
  · refine List.pairwise_append.mpr ⟨inner.ordered, List.pairwise_singleton _ _, ?_⟩
    intro token member other isFinal
    rw [List.mem_singleton.mp isFinal]
    exact (leads.placed token member).2
  · exact List.forall_mem_append.mpr
      ⟨inner.placed, List.forall_mem_singleton.mpr ⟨start, bound⟩⟩

theorem Nested.drop_all_but_last {widths : List Nat} (nested : Nested widths) :
    widths.drop (widths.length - 1) = [0] := by
  obtain ⟨others, rfl⟩ := List.getLast?_eq_some_iff.mp nested.bottom
  rw [List.length_append, List.length_singleton, Nat.add_sub_cancel, List.drop_left]

theorem laidOut_reach (count : Nat) (rows : List (List Char)) :
    LaidOut rows.length (reach 1 1 [0] (rows.take count)).tokens
      (reach 1 1 [0] (rows.take count)).widths := by
  obtain ⟨nested, leads, _, notBehind⟩ := nested_zero.reach (Nat.le_refl 1) (rows.take count)
  apply leads.laidOut nested
  have fewer := List.length_take_le' count rows
  omega

/-- The tokens of some lines, with the blocks closed that are open behind them. -/
theorem leads_reach_closed (rows : List (List Char)) :
    Leads 1 (reach 1 1 [0] rows).line 0 0
      ((reach 1 1 [0] rows).tokens ++
        List.replicate ((reach 1 1 [0] rows).widths.length - 1)
          (Token.closing (reach 1 1 [0] rows).line)) := by
  obtain ⟨_, leads, notBefore, _⟩ := nested_zero.reach (Nat.le_refl 1) rows
  have closings := leads_closings (reach 1 1 [0] rows).line 0
    ((reach 1 1 [0] rows).widths.length - 1)
  rw [Nat.zero_add] at closings
  exact leads.append closings notBefore (Nat.le_refl _)

/-- At the end every block is closed, and the token for the end of the source comes last. -/
theorem laidOut_cut (rows : List (List Char)) :
    LaidOut rows.length (cut 1 1 [0] rows).tokens (cut 1 1 [0] rows).widths ∧
      ((cut 1 1 [0] rows).fault = none → (cut 1 1 [0] rows).widths = [0] ∧
        ∃ inner final, (cut 1 1 [0] rows).tokens = inner ++ [final] ∧
          final.kind = .endOfSource ∧ ∀ token ∈ inner, token.kind ≠ .endOfSource) := by
  obtain ⟨nested, leads, notBefore, notBehind⟩ := nested_zero.reach (Nat.le_refl 1) rows
  have bound : (reach 1 1 [0] rows).line ≤ max 1 rows.length := by omega
  have passed := cut_append 1 1 [0] rows []
  rw [List.append_nil, Outcome.resume] at passed
  rw [passed]
  cases faulty : (reach 1 1 [0] rows).fault with
  | some fault =>
      refine ⟨leads.laidOut nested bound, ?_⟩
      intro noFault
      rw [faulty] at noFault
      cases noFault
  | none =>
      dsimp only [cut]
      have all := leads_reach_closed rows
      rw [nested.drop_all_but_last, ← List.append_assoc]
      refine ⟨all.laidOut_final notBefore bound, ?_⟩
      intro _
      exact ⟨rfl, _, _, rfl, rfl, all.inside⟩

end Lexing

theorem tokenize_eq_ok_iff {source : String} {tokens : List Token} :
    tokenize source = .ok tokens ↔
      (Lexing.cut 1 1 [0] (Text.lines source.toList)).fault = none ∧
        (Lexing.cut 1 1 [0] (Text.lines source.toList)).tokens = tokens := by
  unfold tokenize Lexer.tokenize
  dsimp only [Lexer.new]
  cases (Lexing.cut 1 1 [0] (Text.lines source.toList)).fault with
  | some fault =>
      constructor
      · exact nofun
      · exact nofun
  | none =>
      constructor
      · intro success
        exact ⟨rfl, Except.ok.inj success⟩
      · rintro ⟨_, same⟩
        exact congrArg Except.ok same

def Lexing.reachedBehind (source : String) (count : Nat) : Outcome :=
  reach 1 1 [0] ((Text.lines source.toList).take count)

/-- At every line and at a fault, the stack of open blocks is in order and as high as the tokens so
far say, and the work goes on from there. Whatever comes, no block is closed before it is opened and
the tokens are in the order of their lines; if nothing is at fault, every block is closed at the
end, and the one token for the end of the source comes last. -/
theorem Lexer.tokenize_laidOut (source : String) :
    (∀ count, Lexing.LaidOut (Text.lines source.toList).length
        (Lexing.reachedBehind source count).tokens (Lexing.reachedBehind source count).widths ∧
      (∀ width, (Lexing.closeWider width (Lexing.reachedBehind source count).widths).2 ≠ []) ∧
      Lexing.cut 1 1 [0] (Text.lines source.toList) =
        (Lexing.reachedBehind source count).resume
          (1 + ((Text.lines source.toList).take count).length)
          ((Text.lines source.toList).drop count)) ∧
    Lexing.LaidOut (Text.lines source.toList).length (Lexer.new source).tokenize.1.tokens
      (Lexer.new source).tokenize.1.widths ∧
    ((Lexer.new source).tokenize.2 = none →
      opened (Lexer.new source).tokenize.1.tokens = closed (Lexer.new source).tokenize.1.tokens ∧
        (Lexer.new source).tokenize.1.widths = [0] ∧
        ∃ inner final, (Lexer.new source).tokenize.1.tokens = inner ++ [final] ∧
          final.kind = .endOfSource ∧ ∀ token ∈ inner, token.kind ≠ .endOfSource) := by
  obtain ⟨laidOut, ends⟩ := Lexing.laidOut_cut (Text.lines source.toList)
  refine ⟨?_, laidOut, ?_⟩
  · intro count
    have atLine := Lexing.laidOut_reach count (Text.lines source.toList)
    refine ⟨atLine, ?_, ?_⟩
    · intro width
      exact (atLine.nested.closeWider width).1.ne_nil
    · have passed := Lexing.cut_append 1 1 [0] ((Text.lines source.toList).take count)
        ((Text.lines source.toList).drop count)
      rwa [List.take_append_drop] at passed
  · intro noFault
    obtain ⟨margin, final⟩ := ends noFault
    have height := laidOut.height
    rw [margin] at height
    exact ⟨height, margin, final⟩

def stepsBack : String :=
  "if (x):\n        a\n    b\n"

example : ((Lexer.new stepsBack).tokenize.1.tokens.drop 5).map Token.kind =
    [.indent, .identifier, .indent, .dedent, .identifier, .dedent, .endOfSource] := by
  decide +kernel

theorem Lexer.tokenize_stepsBack :
    (Lexer.new stepsBack).tokenize.2 = none ∧
      opened (Lexer.new stepsBack).tokenize.1.tokens =
        closed (Lexer.new stepsBack).tokenize.1.tokens ∧
      (Lexer.new stepsBack).tokenize.1.widths = [0] ∧
      ∃ inner final, (Lexer.new stepsBack).tokenize.1.tokens = inner ++ [final] ∧
        final.kind = .endOfSource ∧ ∀ token ∈ inner, token.kind ≠ .endOfSource :=
  ⟨by decide +kernel, (Lexer.tokenize_laidOut stepsBack).2.2 (by decide +kernel)⟩

end IndentScript
