import IndentScript.Token.Lexer
import Mathlib.Data.List.Chain

/-!
The classes of characters that the lexer tells apart do not overlap where it matters: what can
start a word is neither a digit nor a blank, what can go on in a word is not a blank, and a digit
is not a blank.

The classes are tables of intervals. Two tables in increasing order are compared by one walk along
both, so that the kernel decides the few facts about the tables quickly.
-/

namespace IndentScript.Text

/-! ### Tables that do not overlap -/

def apart : Nat → List (Nat × Nat) → List (Nat × Nat) → Bool
  | 0, _, _ => false
  | _, [], _ => true
  | _, _, [] => true
  | steps + 1, one :: left, other :: right =>
    if Nat.blt one.2 other.1 then apart steps left (other :: right)
    else Nat.blt other.2 one.1 && apart steps (one :: left) right

abbrev Increasing (intervals : List (Nat × Nat)) : Prop :=
  intervals.IsChain fun one other => one.1 ≤ other.1

private theorem Increasing.head_le {first : Nat × Nat} {rest : List (Nat × Nat)}
    (increasing : Increasing (first :: rest)) {interval : Nat × Nat}
    (member : interval ∈ first :: rest) : first.1 ≤ interval.1 := by
  have transitive : IsTrans (Nat × Nat) (fun one other => one.1 ≤ other.1) :=
    ⟨fun _ _ _ => Nat.le_trans⟩
  have pairwise := List.isChain_iff_pairwise.mp increasing
  rcases List.mem_cons.mp member with same | inRest
  · rw [same]
  · exact (List.pairwise_cons.mp pairwise).1 interval inRest

private theorem separate_of_apart (steps : Nat) (left right : List (Nat × Nat))
    (leftIncreasing : Increasing left) (rightIncreasing : Increasing right)
    (checked : apart steps left right = true) :
    ∀ one ∈ left, ∀ other ∈ right, one.2 < other.1 ∨ other.2 < one.1 := by
  fun_induction apart steps left right with
  | case1 => cases checked
  | case2 =>
      intro one member
      cases member
  | case3 =>
      intro one _ other member
      cases member
  | case4 steps one left other right before ih =>
      intro someLeft leftMember someRight rightMember
      have below : one.2 < other.1 := by simpa [Nat.blt_eq] using before
      rcases List.mem_cons.mp leftMember with same | inLeft
      · left
        rw [same]
        exact Nat.lt_of_lt_of_le below (rightIncreasing.head_le rightMember)
      · exact ih leftIncreasing.tail rightIncreasing checked someLeft inLeft someRight rightMember
  | case5 steps one left other right notBefore ih =>
      intro someLeft leftMember someRight rightMember
      obtain ⟨before, others⟩ := Bool.and_eq_true_iff.mp checked
      have below : other.2 < one.1 := by simpa [Nat.blt_eq] using before
      rcases List.mem_cons.mp rightMember with same | inRight
      · right
        rw [same]
        exact Nat.lt_of_lt_of_le below (leftIncreasing.head_le leftMember)
      · exact ih leftIncreasing rightIncreasing.tail others someLeft leftMember someRight inRight

/-! ### The tables of the character database -/

def decimalIntervals : List (Nat × Nat) :=
  zeroDigits.map fun origin => (origin, origin + 9)

private def separateTables : List (List (Nat × Nat) × List (Nat × Nat)) :=
  [(letterIntervals, decimalIntervals), (letterIntervals, otherDigitIntervals),
    (letterIntervals, blankIntervals), (decimalIntervals, blankIntervals),
    (otherDigitIntervals, blankIntervals), (otherNumericIntervals, blankIntervals)]

private theorem tables_apart : ∀ tables ∈ separateTables,
    Increasing tables.1 ∧ Increasing tables.2 ∧ apart 1000 tables.1 tables.2 = true := by
  decide +kernel

private theorem not_inIntervals_of_separate {left right : List (Nat × Nat)}
    (listed : (left, right) ∈ separateTables) {c : Char} (inLeft : inIntervals left c = true) :
    inIntervals right c = false := by
  rw [← Bool.not_eq_true]
  intro inRight
  obtain ⟨leftIncreasing, rightIncreasing, checked⟩ := tables_apart (left, right) listed
  obtain ⟨one, oneMember, oneLow, oneHigh⟩ := (inIntervals_eq_true_iff left c).mp inLeft
  obtain ⟨other, otherMember, otherLow, otherHigh⟩ := (inIntervals_eq_true_iff right c).mp inRight
  have separate := separate_of_apart 1000 left right leftIncreasing rightIncreasing checked
    one oneMember other otherMember
  omega

private theorem inIntervals_of_decimalValue {c : Char} (decimal : (decimalValue? c).isSome = true) :
    inIntervals decimalIntervals c = true := by
  rw [decimalValue?, Option.isSome_map] at decimal
  obtain ⟨origin, member, low, high⟩ :
      ∃ origin ∈ zeroDigits, origin ≤ c.toNat ∧ c.toNat ≤ origin + 9 := by
    simpa using decimal
  rw [inIntervals_eq_true_iff]
  exact ⟨(origin, origin + 9), List.mem_map_of_mem member, low, high⟩

/-- What holds of every ASCII character by its code holds of every character below 128. -/
private theorem of_ascii (property : Char → Prop)
    (checked : ∀ code < 128, property (Char.ofNat code)) {c : Char} (ascii : c.toNat < 128) :
    property c := by
  have atCode := checked c.toNat ascii
  rwa [Char.ofNat_toNat] at atCode

theorem isDigit_eq_false_of_isLetter {c : Char} (letter : isLetter c = true) :
    isDigit c = false := by
  by_cases ascii : c.toNat < 128
  · exact of_ascii (fun c => isLetter c = true → isDigit c = false)
      (by decide) ascii letter
  · rw [isLetter, if_neg ascii] at letter
    have notDecimal : (decimalValue? c).isSome = false := by
      rw [← Bool.not_eq_true]
      intro decimal
      have apartFrom : inIntervals decimalIntervals c = false :=
        not_inIntervals_of_separate (by simp [separateTables]) letter
      rw [inIntervals_of_decimalValue decimal] at apartFrom
      cases apartFrom
    have notOther : inIntervals otherDigitIntervals c = false :=
      not_inIntervals_of_separate (by simp [separateTables]) letter
    rw [isDigit, if_neg ascii, notDecimal, notOther]
    rfl

theorem isBlank_eq_false_of_isLetter {c : Char} (letter : isLetter c = true) :
    isBlank c = false := by
  by_cases ascii : c.toNat < 128
  · exact of_ascii (fun c => isLetter c = true → isBlank c = false)
      (by decide) ascii letter
  · rw [isLetter, if_neg ascii] at letter
    exact not_inIntervals_of_separate (by simp [separateTables]) letter

theorem isBlank_eq_false_of_isDigit {c : Char} (digit : isDigit c = true) : isBlank c = false := by
  by_cases ascii : c.toNat < 128
  · exact of_ascii (fun c => isDigit c = true → isBlank c = false)
      (by decide) ascii digit
  · rw [isDigit, if_neg ascii] at digit
    rcases Bool.or_eq_true_iff.mp digit with decimal | other
    · exact not_inIntervals_of_separate (by simp [separateTables])
        (inIntervals_of_decimalValue decimal)
    · exact not_inIntervals_of_separate (by simp [separateTables]) other

/-! ### The ten digits of ASCII -/

private theorem toNat_lt_of_isDigit {c : Char} (digit : c.isDigit = true) : c.toNat < 128 := by
  have bounds := Char.isDigit_iff_toNat.mp digit
  have nine : '9'.toNat = 57 := rfl
  omega

theorem isDigit_of_ascii {c : Char} (digit : c.isDigit = true) : isDigit c = true := by
  rw [isDigit, if_pos (toNat_lt_of_isDigit digit)]
  exact digit

theorem decimalValue?_of_ascii {c : Char} (digit : c.isDigit = true) :
    decimalValue? c = some (c.toNat - '0'.toNat) :=
  of_ascii (fun c => c.isDigit = true → decimalValue? c = some (c.toNat - '0'.toNat))
    (by decide) (toNat_lt_of_isDigit digit) digit

end IndentScript.Text

namespace IndentScript.Lexing

open Text

theorem continuesWord_of_startsWord {c : Char} (starts : startsWord c = true) :
    continuesWord c = true := by
  rcases Bool.or_eq_true_iff.mp starts with letter | underscore
  · simp only [continuesWord, isLetterOrNumeric, letter, Bool.true_or]
  · simp only [continuesWord, underscore, Bool.or_true]

theorem isDigit_eq_false_of_startsWord {c : Char} (starts : startsWord c = true) :
    isDigit c = false := by
  rcases Bool.or_eq_true_iff.mp starts with letter | underscore
  · exact isDigit_eq_false_of_isLetter letter
  · rw [of_decide_eq_true underscore]
    decide

theorem isBlank_eq_false_of_continuesWord {c : Char} (continues : continuesWord c = true) :
    isBlank c = false := by
  rcases Bool.or_eq_true_iff.mp continues with numeric | underscore
  · simp only [isLetterOrNumeric, Bool.or_eq_true] at numeric
    rcases numeric with (letter | digit) | other
    · exact isBlank_eq_false_of_isLetter letter
    · exact isBlank_eq_false_of_isDigit digit
    · exact not_inIntervals_of_separate (by simp [separateTables]) other
  · rw [of_decide_eq_true underscore]
    decide

end IndentScript.Lexing
