import IndentScript.Proofs.LineLayout

/-!
What the tokens of a source text carry. The kind of a token says what its payload can be: a keyword
and a sign carry their spelling, an identifier carries a word that is spelled like no keyword, and
there is no token of a kind outside the language.
-/

namespace IndentScript

theorem Keyword.spelling_of_ofSpelling? {word : String} {keyword : Keyword}
    (known : ofSpelling? word = some keyword) : keyword.spelling = word := by
  unfold ofSpelling? at known
  simpa using List.find?_some known

theorem Keyword.ofSpelling?_spelling (keyword : Keyword) :
    ofSpelling? keyword.spelling = some keyword := by
  cases keyword <;> decide

/-- A token of the kind can carry the payload. -/
def Kind.Carries : Kind → Payload → Prop
  | .endOfSource, payload => payload = .absent
  | .indent, payload | .dedent, payload => payload = .text ""
  | .number, payload => ∃ value, payload = .number value
  | .string, payload => ∃ content, payload = .text content
  | .identifier, payload => ∃ word, payload = .text word ∧ Keyword.ofSpelling? word = none
  | .keyword word, payload => payload = .text word.spelling
  | .symbol sign, payload => payload = .text sign.spelling
  | .other _, _ => False

def Carrying (tokens : List Token) : Prop :=
  ∀ token ∈ tokens, token.kind.Carries token.payload

namespace Lexing

theorem lexeme_carries {line : Nat} {c : Char} {rest : List Char} {found : Lexeme}
    (success : lexeme line c rest = .ok found) : found.kind.Carries found.payload := by
  rcases lexeme_cases success with ⟨content, kind, payload⟩ | ⟨value, kind, payload⟩ |
    ⟨word, kind, payload⟩ | ⟨sign, kind, payload⟩
  · rw [kind, payload]
    exact ⟨content, rfl⟩
  · rw [kind, payload]
    exact ⟨value, rfl⟩
  · rcases wordKind_cases word with ⟨keyword, known, same⟩ | ⟨unknown, same⟩
    · rw [kind, payload, same, ← Keyword.spelling_of_ofSpelling? known]
      rfl
    · rw [kind, payload, same]
      exact ⟨word, rfl, unknown⟩
  · rw [kind, payload]
    rfl

theorem carrying_scan (line : Nat) (characters : List Char) : Carrying (scan line characters).1 :=
  fun token member => (forall_mem_scan Kind.Carries line (fun _ _ _ => lexeme_carries) characters
    token member).2

theorem carrying_closings (line count : Nat) :
    Carrying (List.replicate count (Token.closing line)) := by
  intro token member
  rw [List.eq_of_mem_replicate member]
  rfl

theorem carrying_layout (line width : Nat) (widths : List Nat) :
    Carrying (layout line width widths).1 := by
  unfold layout
  dsimp only
  split
  · exact List.forall_mem_cons.mpr ⟨rfl, carrying_closings _ _⟩
  · exact carrying_closings _ _

theorem carrying_cut (line next : Nat) (widths : List Nat) (rows : List (List Char)) :
    Carrying (cut line next widths rows).tokens := by
  induction rows generalizing line next widths with
  | nil =>
      exact List.forall_mem_append.mpr
        ⟨carrying_closings _ _, List.forall_mem_singleton.mpr rfl⟩
  | cons characters others ih =>
      have row := List.forall_mem_append.mpr ⟨carrying_layout next (indentation characters) widths,
        carrying_scan next (characters.drop (indentation characters))⟩
      rw [cut]
      dsimp only
      cases (scan next (characters.drop (indentation characters))).2 with
      | some fault => exact row
      | none => exact List.forall_mem_append.mpr ⟨row, ih _ _ _⟩

end Lexing

theorem carrying_of_tokenize {source : String} {tokens : List Token}
    (lexed : tokenize source = .ok tokens) : Carrying tokens := by
  obtain ⟨_, rfl⟩ := tokenize_eq_ok_iff.mp lexed
  exact Lexing.carrying_cut _ _ _ _

end IndentScript
