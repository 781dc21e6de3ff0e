import IndentScript.Proofs.OuterBlanks

/-!
Words and the blanks between them. A text that is cut into words and put together again has one
space in the place of every row of blanks, and none at its ends. So a text comes back as it was
exactly if it has no blanks but single spaces between its words.
-/

namespace IndentScript

namespace Text

/-! ### Words -/

structure IsWord (text : String) : Prop where
  nonempty : text ≠ ""
  visible : ∀ c ∈ text.toList, isBlank c = false

theorem isWord_iff_all (text : String) :
    IsWord text ↔ text ≠ "" ∧ text.toList.all (!isBlank ·) = true := by
  simp only [List.all_eq_true, Bool.not_eq_true']
  constructor
  · intro isWord
    exact ⟨isWord.nonempty, isWord.visible⟩
  · intro conditions
    exact ⟨conditions.1, conditions.2⟩

instance : DecidablePred IsWord :=
  fun text => decidable_of_iff _ (isWord_iff_all text).symm

theorem wordsFrom_append {word : List Char} (visible : ∀ c ∈ word, isBlank c = false)
    (current rest : List Char) :
    wordsFrom current (word ++ rest) = wordsFrom (word.reverse ++ current) rest := by
  induction word generalizing current with
  | nil => rfl
  | cons c word ih =>
      obtain ⟨first, others⟩ := List.forall_mem_cons.mp visible
      rw [List.cons_append, wordsFrom, first, if_neg Bool.false_ne_true, ih others,
        List.reverse_cons, List.append_assoc, List.singleton_append]

theorem wordsFrom_of_isWord {word : String} (isWord : IsWord word) (rest : List Char) :
    wordsFrom [] (word.toList ++ rest) = wordsFrom word.toList.reverse rest := by
  rw [wordsFrom_append isWord.visible, List.append_nil]

/-- A word ends before a blank. -/
theorem words_append {word : String} (isWord : IsWord word) {c : Char} (blank : isBlank c = true)
    (rest : List Char) : words (String.ofList (word.toList ++ c :: rest)) =
      word :: words (String.ofList rest) := by
  have full : word.toList.reverse ≠ [] := by simpa using isWord.nonempty
  rw [words, words, String.toList_ofList, String.toList_ofList, wordsFrom_of_isWord isWord, wordsFrom,
    if_pos blank, if_neg (by simpa using full), List.reverse_reverse, String.ofList_toList]

theorem words_of_isWord {word : String} (isWord : IsWord word) : words word = [word] := by
  have full : word.toList.reverse ≠ [] := by simpa using isWord.nonempty
  have whole := wordsFrom_of_isWord isWord []
  rw [List.append_nil] at whole
  rw [words, whole, wordsFrom, if_neg (by simpa using full), List.reverse_reverse,
    String.ofList_toList]

theorem unwords_cons_cons (first second : String) (rest : List String) :
    unwords (first :: second :: rest) =
      String.ofList (first.toList ++ ' ' :: (unwords (second :: rest)).toList) := by
  simp [unwords, List.intercalate_cons_cons]

theorem unwords_singleton (word : String) : unwords [word] = word := by
  simp [unwords]

theorem isBlank_space : isBlank ' ' = true := by
  decide

/-- Words come back from the text that they make. -/
theorem words_unwords {parts : List String} (areWords : ∀ part ∈ parts, IsWord part) :
    words (unwords parts) = parts := by
  induction parts with
  | nil => rfl
  | cons first others ih =>
      obtain ⟨isFirst, areOthers⟩ := List.forall_mem_cons.mp areWords
      cases others with
      | nil =>
          rw [unwords_singleton]
          exact words_of_isWord isFirst
      | cons second rest =>
          rw [unwords_cons_cons, words_append isFirst isBlank_space, String.ofList_toList,
            ih areOthers]

theorem isWord_of_mem_wordsFrom {current : List Char} (visible : ∀ c ∈ current, isBlank c = false)
    (characters : List Char) : ∀ word ∈ wordsFrom current characters, IsWord word := by
  have ofCurrent : ∀ {current : List Char}, ¬current.isEmpty = true →
      (∀ c ∈ current, isBlank c = false) → IsWord (String.ofList current.reverse) := by
    intro current full visible
    refine ⟨?_, ?_⟩
    · simpa using full
    · simpa using visible
  induction characters generalizing current with
  | nil =>
      rw [wordsFrom]
      split
      · exact List.forall_mem_nil _
      · rename_i full
        exact List.forall_mem_singleton.mpr (ofCurrent full visible)
  | cons c rest ih =>
      rw [wordsFrom]
      split
      · split
        · exact ih (List.forall_mem_nil _)
        · rename_i full
          exact List.forall_mem_cons.mpr ⟨ofCurrent full visible, ih (List.forall_mem_nil _)⟩
      · rename_i sighted
        exact ih (List.forall_mem_cons.mpr ⟨by simpa using sighted, visible⟩)

theorem isWord_of_mem_words (text : String) : ∀ word ∈ words text, IsWord word :=
  isWord_of_mem_wordsFrom (List.forall_mem_nil _) text.toList

/-- The blanks of a text that words make are spaces. -/
theorem not_mem_unwords {c : Char} (blank : isBlank c = true) (other : c ≠ ' ') {parts : List String}
    (areWords : ∀ part ∈ parts, IsWord part) : c ∉ (unwords parts).toList := by
  have inNone : ∀ {part}, IsWord part → c ∉ part.toList := by
    intro part isWord member
    have visible := isWord.visible c member
    rw [blank] at visible
    cases visible
  induction parts with
  | nil => simp [unwords]
  | cons first others ih =>
      obtain ⟨isFirst, areOthers⟩ := List.forall_mem_cons.mp areWords
      cases others with
      | nil =>
          rw [unwords_singleton]
          exact inNone isFirst
      | cons second rest =>
          rw [unwords_cons_cons, String.toList_ofList, List.mem_append, List.mem_cons, not_or, not_or]
          exact ⟨inNone isFirst, other, ih areOthers⟩

/-- A text that words make is one line. -/
theorem unbroken_unwords {parts : List String} (areWords : ∀ part ∈ parts, IsWord part) :
    ∀ c ∈ (unwords parts).toList, isLineBreak c = false := by
  intro c member
  cases breaks : isLineBreak c with
  | false => rfl
  | true =>
      have other : c ≠ ' ' := by
        rintro rfl
        revert breaks
        decide
      exact absurd member (not_mem_unwords (isBlank_of_isLineBreak breaks) other areWords)

/-! ### Squeezed texts -/

/-- The characters with one space in the place of every row of blanks; `inGap` says whether a blank
stands right before them. -/
def squeezeFrom (inGap : Bool) : List Char → List Char
  | [] => []
  | c :: rest =>
    if isBlank c then
      if inGap then squeezeFrom true rest else ' ' :: squeezeFrom true rest
    else c :: squeezeFrom false rest

def squeezed (text : String) : String :=
  String.ofList (squeezeFrom false text.toList)

/-- The blanks among the characters are spaces, and no two of them are neighbours. -/
structure EvenlySpaced (characters : List Char) : Prop where
  spaces : ∀ c ∈ characters, isBlank c = true → c = ' '
  single : characters.IsChain fun one other => isBlank one = false ∨ isBlank other = false

theorem squeezeFrom_blank {c : Char} (blank : isBlank c = true) (inGap : Bool) (rest : List Char) :
    squeezeFrom inGap (c :: rest) =
      if inGap then squeezeFrom true rest else ' ' :: squeezeFrom true rest := by
  rw [squeezeFrom, if_pos blank]

theorem squeezeFrom_visible {c : Char} (visible : isBlank c = false) (inGap : Bool)
    (rest : List Char) : squeezeFrom inGap (c :: rest) = c :: squeezeFrom false rest := by
  rw [squeezeFrom, visible, if_neg Bool.false_ne_true]

theorem length_squeezeFrom_le (inGap : Bool) (characters : List Char) :
    (squeezeFrom inGap characters).length ≤ characters.length := by
  fun_induction squeezeFrom inGap characters with
  | case1 => exact Nat.le_refl 0
  | case2 c rest blank ih =>
      rw [List.length_cons]
      omega
  | case3 inGap c rest blank gapless ih =>
      rw [List.length_cons, List.length_cons]
      omega
  | case4 inGap c rest visible ih =>
      rw [List.length_cons, List.length_cons]
      omega

theorem evenlySpaced_nil : EvenlySpaced [] :=
  ⟨List.forall_mem_nil _, List.isChain_nil⟩

theorem evenlySpaced_cons {c : Char} {rest : List Char} :
    EvenlySpaced (c :: rest) ↔
      (isBlank c = true → c = ' ' ∧ ∀ d ∈ rest.head?, isBlank d = false) ∧ EvenlySpaced rest := by
  constructor
  · rintro ⟨spaces, single⟩
    obtain ⟨first, others⟩ := List.forall_mem_cons.mp spaces
    obtain ⟨apart, chain⟩ := List.isChain_cons.mp single
    refine ⟨fun blank => ⟨first blank, fun d next => ?_⟩, others, chain⟩
    rcases apart d next with visible | visible
    · rw [blank] at visible
      cases visible
    · exact visible
  · rintro ⟨first, others, chain⟩
    refine ⟨List.forall_mem_cons.mpr ⟨fun blank => (first blank).1, others⟩,
      List.isChain_cons.mpr ⟨fun d next => ?_, chain⟩⟩
    cases blank : isBlank c with
    | false => exact .inl rfl
    | true => exact .inr ((first blank).2 d next)

/-- Squeezing leaves the characters as they are if they are evenly spaced, and only then. -/
theorem squeezeFrom_eq_self_iff (inGap : Bool) (characters : List Char) :
    squeezeFrom inGap characters = characters ↔
      (inGap = true → ∀ c ∈ characters.head?, isBlank c = false) ∧ EvenlySpaced characters := by
  induction characters generalizing inGap with
  | nil => simp [squeezeFrom, evenlySpaced_nil]
  | cons c rest ih =>
      rw [evenlySpaced_cons]
      cases blank : isBlank c with
      | false =>
          rw [squeezeFrom_visible blank]
          simp [ih, blank]
      | true =>
          rw [squeezeFrom_blank blank]
          cases inGap with
          | true =>
              -- A blank in a gap is left out, so that the text gets shorter.
              have shorter := length_squeezeFrom_le true rest
              constructor
              · intro same
                rw [if_pos rfl] at same
                rw [same, List.length_cons] at shorter
                omega
              · rintro ⟨starts, _⟩
                have visible := starts rfl c rfl
                rw [blank] at visible
                cases visible
          | false =>
              rw [if_neg Bool.false_ne_true, List.cons.injEq, ih]
              constructor
              · rintro ⟨rfl, starts, even⟩
                exact ⟨by simp, fun _ => ⟨rfl, starts rfl⟩, even⟩
              · rintro ⟨_, first, even⟩
                exact ⟨(first rfl).1.symm, fun _ => (first rfl).2, even⟩

instance : DecidablePred EvenlySpaced :=
  fun characters => decidable_of_iff (squeezeFrom false characters = characters)
    ((squeezeFrom_eq_self_iff false characters).trans (by simp))

theorem squeezed_eq_self_iff (text : String) : squeezed text = text ↔ EvenlySpaced text.toList := by
  have characters := squeezeFrom_eq_self_iff false text.toList
  rw [squeezed, ← String.toList_inj, String.toList_ofList, characters]
  simp

/-- What is left of squeezed characters has no line break in it. -/
theorem unbroken_squeezeFrom (inGap : Bool) (characters : List Char) :
    ∀ c ∈ squeezeFrom inGap characters, isLineBreak c = false := by
  have visible : ∀ c, isBlank c = false → isLineBreak c = false := by
    intro c sighted
    cases breaks : isLineBreak c with
    | false => rfl
    | true =>
        rw [isBlank_of_isLineBreak breaks] at sighted
        cases sighted
  fun_induction squeezeFrom inGap characters with
  | case1 => exact List.forall_mem_nil _
  | case2 c rest blank ih => exact ih
  | case3 inGap c rest blank gapless ih => exact List.forall_mem_cons.mpr ⟨by decide, ih⟩
  | case4 inGap c rest sighted ih =>
      exact List.forall_mem_cons.mpr ⟨visible c (by simpa using sighted), ih⟩

/-! ### Words put together again -/

def EndsVisibly (characters : List Char) : Prop :=
  ∃ c ∈ characters.getLast?, isBlank c = false

theorem endsVisibly_cons {c : Char} {rest : List Char} (ends : EndsVisibly (c :: rest)) :
    rest = [] ∧ isBlank c = false ∨ EndsVisibly rest := by
  obtain ⟨last, isLast, visible⟩ := ends
  cases rest with
  | nil =>
      obtain rfl : c = last := by simpa using isLast
      exact .inl ⟨rfl, visible⟩
  | cons d rest => exact .inr ⟨last, by rwa [List.getLast?_cons_cons] at isLast, visible⟩

theorem EndsVisibly.tail {c : Char} {rest : List Char} (ends : EndsVisibly (c :: rest))
    (blank : isBlank c = true) : EndsVisibly rest := by
  rcases endsVisibly_cons ends with ⟨_, visible⟩ | later
  · rw [blank] at visible
    cases visible
  · exact later

theorem EndsVisibly.wordsFrom_ne_nil {characters : List Char} (ends : EndsVisibly characters)
    (current : List Char) : wordsFrom current characters ≠ [] := by
  induction characters generalizing current with
  | nil =>
      obtain ⟨last, isLast, _⟩ := ends
      cases isLast
  | cons c rest ih =>
      rw [wordsFrom]
      cases blank : isBlank c with
      | true =>
          rw [if_pos rfl]
          split
          · exact ih (ends.tail blank) []
          · exact List.cons_ne_nil _ _
      | false =>
          rw [if_neg Bool.false_ne_true]
          rcases endsVisibly_cons ends with ⟨rfl, _⟩ | later
          · simp [wordsFrom]
          · exact ih later _

theorem unwords_cons_of_ne_nil (first : String) {others : List String} (some : others ≠ []) :
    (unwords (first :: others)).toList = first.toList ++ ' ' :: (unwords others).toList := by
  obtain ⟨second, rest, rfl⟩ := List.exists_cons_of_ne_nil some
  rw [unwords_cons_cons, String.toList_ofList]

/-- A text that words make starts with the first of them. -/
theorem starts_unwords {parts : List String} (areWords : ∀ part ∈ parts, IsWord part) :
    ∀ c ∈ (unwords parts).toList.head?, isBlank c = false := by
  cases parts with
  | nil => simp [unwords]
  | cons first others =>
      have isFirst := areWords first List.mem_cons_self
      have full : first.toList ≠ [] := by simpa using isFirst.nonempty
      have starts : (unwords (first :: others)).toList.head? = first.toList.head? := by
        cases others with
        | nil => rw [unwords_singleton]
        | cons second rest =>
            rw [unwords_cons_cons, String.toList_ofList, List.head?_append_of_ne_nil _ full]
      intro c isHead
      rw [starts] at isHead
      exact isFirst.visible c (List.mem_of_head? isHead)

/-- With a word under way what follows is squeezed; without one, blanks at the start are left out. -/
theorem unwords_wordsFrom (characters : List Char) :
    (∀ current, current ≠ [] → (characters = [] ∨ EndsVisibly characters) →
      (unwords (wordsFrom current characters)).toList =
        current.reverse ++ squeezeFrom false characters) ∧
    (EndsVisibly characters →
      (unwords (wordsFrom [] characters)).toList = squeezeFrom true characters) := by
  induction characters with
  | nil =>
      refine ⟨fun current some _ => ?_, fun ends => ?_⟩
      · have full : ¬current.isEmpty = true := by simpa using some
        rw [wordsFrom, if_neg full, unwords_singleton, String.toList_ofList, squeezeFrom,
          List.append_nil]
      · obtain ⟨last, isLast, _⟩ := ends
        cases isLast
  | cons c rest ih =>
      obtain ⟨underWay, fresh⟩ := ih
      have restEnds : EndsVisibly (c :: rest) → rest = [] ∨ EndsVisibly rest :=
        fun ends => (endsVisibly_cons ends).imp_left And.left
      cases blank : isBlank c with
      | true =>
          refine ⟨fun current some ends => ?_, fun ends => ?_⟩
          · have full : ¬current.isEmpty = true := by simpa using some
            have later : EndsVisibly rest := (ends.resolve_left (List.cons_ne_nil _ _)).tail blank
            rw [wordsFrom, if_pos blank, if_neg full,
              unwords_cons_of_ne_nil _ (later.wordsFrom_ne_nil []), fresh later,
              String.toList_ofList, squeezeFrom_blank blank, if_neg Bool.false_ne_true]
          · rw [wordsFrom, if_pos blank, if_pos List.isEmpty_nil, squeezeFrom_blank blank, if_pos rfl]
            exact fresh (ends.tail blank)
      | false =>
          refine ⟨fun current some ends => ?_, fun ends => ?_⟩
          · have later := restEnds (ends.resolve_left (List.cons_ne_nil _ _))
            rw [wordsFrom, blank, if_neg Bool.false_ne_true, squeezeFrom_visible blank,
              underWay _ (List.cons_ne_nil _ _) later, List.reverse_cons, List.append_assoc,
              List.singleton_append]
          · rw [wordsFrom, blank, if_neg Bool.false_ne_true, squeezeFrom_visible blank,
              underWay [c] (List.cons_ne_nil _ _) (restEnds ends)]
            rfl

structure IsTrimmed (text : String) : Prop where
  nonempty : text ≠ ""
  trimmed : trim text = text

instance : DecidablePred IsTrimmed :=
  fun text => decidable_of_iff (text ≠ "" ∧ trim text = text)
    ⟨fun both => ⟨both.1, both.2⟩, fun isTrimmed => ⟨isTrimmed.nonempty, isTrimmed.trimmed⟩⟩

theorem IsTrimmed.starts {text : String} (isTrimmed : IsTrimmed text) :
    ∀ c ∈ text.toList.head?, isBlank c = false := by
  obtain ⟨back, _, same⟩ := exists_trim_blanks text
  intro c first
  apply head?_trimStart text
  rw [same, isTrimmed.trimmed, List.head?_append, first]
  rfl

theorem IsTrimmed.ends {text : String} (isTrimmed : IsTrimmed text) : EndsVisibly text.toList := by
  have full : text.toList ≠ [] := by simpa using isTrimmed.nonempty
  obtain ⟨last, isLast⟩ := Option.isSome_iff_exists.mp (List.getLast?_isSome.mpr full)
  refine ⟨last, isLast, ?_⟩
  have stopped := List.head?_dropWhile_not isBlank (text.toList.dropWhile isBlank).reverse
  have characters := congrArg String.toList isTrimmed.trimmed
  rw [trim, String.toList_ofList] at characters
  rw [← characters, List.getLast?_reverse] at isLast
  rw [isLast] at stopped
  simpa using stopped

/-- Cutting a text into words and putting them together squeezes it. -/
theorem IsTrimmed.unwords_words {text : String} (isTrimmed : IsTrimmed text) :
    unwords (words text) = squeezed text := by
  apply String.toList_inj.mp
  rw [words, (unwords_wordsFrom text.toList).2 isTrimmed.ends, squeezed, String.toList_ofList]
  cases characters : text.toList with
  | nil => rfl
  | cons c rest =>
      have visible := isTrimmed.starts c (by rw [characters]; rfl)
      rw [squeezeFrom_visible visible, squeezeFrom_visible visible]

theorem IsTrimmed.words_ne_nil {text : String} (isTrimmed : IsTrimmed text) : words text ≠ [] :=
  isTrimmed.ends.wordsFrom_ne_nil []

end Text

end IndentScript
