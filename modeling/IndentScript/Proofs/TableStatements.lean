import Mathlib.Data.List.Induction
import IndentScript.Proofs.Frames
import IndentScript.Proofs.GrammarSoundness
import IndentScript.Proofs.RunRules

/-!
Table statements. A key may be written more than once. The table has it where it was written first,
with the expression that was written last; an expression that a later one replaces is never
evaluated. The others are evaluated once each, in the order of the keys, and the name is set behind
all of them, so that a statement which is stopped sets nothing.
-/

namespace IndentScript

/-! ### Repeated keys -/

namespace Entries

variable {α : Type}

theorem ofPairs_concat (pairs : List (String × α)) (name : String) (value : α) :
    ofPairs (pairs ++ [(name, value)]) = set name value (ofPairs pairs) := by
  simp [ofPairs]

/-- Every key has its first place, and no other. -/
theorem names_ofPairs (pairs : List (String × α)) :
    names (ofPairs pairs) = (pairs.map Prod.fst).eraseDups := by
  induction pairs using List.reverseRecOn with
  | nil => rfl
  | append_singleton pairs pair ih =>
      obtain ⟨name, value⟩ := pair
      rw [ofPairs_concat, names_set, ih, List.map_append, List.eraseDups_append]
      by_cases known : name ∈ pairs.map Prod.fst
      · simp [List.removeAll, known]
      · simp [List.removeAll, known, List.eraseDups_cons]

theorem nodup_names_set {entries : Entries α} (distinct : (names entries).Nodup) (name : String)
    (value : α) : (names (set name value entries)).Nodup := by
  rw [names_set]
  by_cases known : name ∈ names entries
  · rwa [if_pos known]
  · rw [if_neg known, List.nodup_append]
    refine ⟨distinct, List.pairwise_singleton _ _, ?_⟩
    intro other member new isNew same
    rw [same, List.mem_singleton.mp isNew] at member
    exact known member

theorem nodup_names_ofPairs (pairs : List (String × α)) : (names (ofPairs pairs)).Nodup := by
  induction pairs using List.reverseRecOn with
  | nil => exact List.nodup_nil
  | append_singleton pairs pair ih =>
      obtain ⟨name, value⟩ := pair
      rw [ofPairs_concat]
      exact nodup_names_set ih name value

theorem mem_set_cases {entries : Entries α} (distinct : (names entries).Nodup) {name : String}
    {value : α} {entry : String × α} (member : entry ∈ set name value entries) :
    entry = (name, value) ∨ entry.1 ≠ name ∧ entry ∈ entries := by
  induction entries with
  | nil => exact .inl (List.mem_singleton.mp member)
  | cons head rest ih =>
      obtain ⟨key, held⟩ := head
      obtain ⟨absent, distinctRest⟩ := List.nodup_cons.mp distinct
      unfold set at member
      split at member
      · rename_i same
        rcases List.mem_cons.mp member with isHead | inRest
        · rw [isHead, same]
          exact .inl rfl
        · refine .inr ⟨?_, List.mem_cons_of_mem _ inRest⟩
          intro repeated
          have again : entry.1 ∈ rest.map Prod.fst := List.mem_map_of_mem inRest
          rw [repeated, ← same] at again
          exact absent again
      · rename_i other
        rcases List.mem_cons.mp member with isHead | inRest
        · rw [isHead]
          exact .inr ⟨other, List.mem_cons_self⟩
        · rcases ih distinctRest inRest with isNew | ⟨different, held⟩
          · exact .inl isNew
          · exact .inr ⟨different, List.mem_cons_of_mem _ held⟩

/-- Behind the pair whose value the key has, the key does not come again. -/
theorem last_of_mem_ofPairs {pairs : List (String × α)} {entry : String × α}
    (member : entry ∈ ofPairs pairs) :
    ∃ before behind, pairs = before ++ entry :: behind ∧ entry.1 ∉ behind.map Prod.fst := by
  induction pairs using List.reverseRecOn with
  | nil => cases member
  | append_singleton pairs pair ih =>
      obtain ⟨name, value⟩ := pair
      rw [ofPairs_concat] at member
      rcases mem_set_cases (nodup_names_ofPairs pairs) member with isNew | ⟨different, held⟩
      · rw [isNew]
        exact ⟨pairs, [], rfl, List.not_mem_nil⟩
      · obtain ⟨before, behind, rfl, noMore⟩ := ih held
        refine ⟨before, behind ++ [(name, value)], by simp, ?_⟩
        simp only [List.map_append, List.mem_append, not_or]
        exact ⟨noMore, by simpa using different⟩

/-- The entries are what is left of the pairs when every key is kept once: the keys in the order in
which they first come, each with what it is paired with last. -/
structure Sums (pairs entries : List (String × α)) : Prop where
  keys : entries.map Prod.fst = (pairs.map Prod.fst).eraseDups
  once : (entries.map Prod.fst).Nodup
  last : ∀ entry ∈ entries,
    ∃ before behind, pairs = before ++ entry :: behind ∧ entry.1 ∉ behind.map Prod.fst

theorem sums_ofPairs (pairs : List (String × α)) : Sums pairs (ofPairs pairs) where
  keys := names_ofPairs pairs
  once := nodup_names_ofPairs pairs
  last _ := last_of_mem_ofPairs

end Entries

/-! ### Tokens of a table statement -/

namespace Grammar

inductive IsTable : String → List (String × Expr) → List Token → Prop where
  | mk {word name sign opening closing : Token} {pairs : List (String × Expr)} {inner : List Token} :
    word.kind = .keyword .tableWord → name.kind = .identifier → sign.kind = .symbol .assign →
    opening.kind = .symbol .openBrace → Listing IsField pairs inner →
    closing.kind = .symbol .closeBrace →
      IsTable name.payload.asText pairs (word :: name :: sign :: opening :: (inner ++ [closing]))

theorem Derives.table_of_word {word : Token} (isTable : word.kind = .keyword .tableWord)
    {value : Stmt} {tokens follow : List Token}
    (derives : Derives (.statement value) (word :: tokens) follow) :
    ∃ name pairs, IsTable name pairs (word :: tokens) ∧
      value = .assign name (.table (Entries.ofPairs pairs)) := by
  have differs : ∀ {keyword : Keyword}, word.kind = .keyword keyword → keyword = .tableWord := by
    intro keyword isWord
    rw [isTable] at isWord
    cases isWord
    rfl
  cases derives with
  | table _ isName isSign opens listing closes =>
      exact ⟨_, _, .mk isTable isName isSign opens listing closes, rfl⟩
  | evaluate expression =>
      have known := Yields.kinds expression word List.mem_cons_self
      rw [isTable] at known
      exact absurd known (by decide)
  | assign isWord | print isWord | branch isWord | count isWord | loop isWord | leave isWord
  | next isWord | define isWord | noResult isWord | result isWord | load isWord =>
      simp [isTable] at isWord

theorem table_of_statement {level : Nat} {word : Token} (isTable : word.kind = .keyword .tableWord)
    {tokens rest : List Token} {value : Stmt}
    (read : Parser.statement level (word :: tokens) = .ok (value, rest)) :
    ∃ name pairs taken, word :: tokens = taken ++ rest ∧ IsTable name pairs taken ∧
      value = .assign name (.table (Entries.ofPairs pairs)) := by
  obtain ⟨taken, split, derives⟩ := Parser.sound_statement level _ _ _ read
  cases taken with
  | nil => exact absurd rfl derives.ne_nil
  | cons first others =>
      rw [List.cons_append, List.cons.injEq] at split
      obtain ⟨rfl, rfl⟩ := split
      obtain ⟨name, pairs, isTokens, same⟩ := derives.table_of_word isTable
      exact ⟨name, pairs, _, rfl, isTokens, same⟩

end Grammar

/-! ### Evaluation of the fields -/

namespace Run

variable [Limits]

/-- The expressions are evaluated one after another, each once, on the machine that the one before
has left. -/
inductive Evaluated (rounds depth : Nat) :
    List (String × Expr) → Machine → List (String × Value) → Machine → Prop where
  | nil {machine : Machine} : Evaluated rounds depth [] machine [] machine
  | cons {key : String} {expression : Expr} {others : List (String × Expr)} {value : Value}
      {fields : List (String × Value)} {machine middle left : Machine} :
    (evaluate rounds depth expression).run.run machine = (.ok value, middle) →
    Evaluated rounds depth others middle fields left →
      Evaluated rounds depth ((key, expression) :: others) machine ((key, value) :: fields) left

variable {rounds depth : Nat} {entries : List (String × Expr)} {fields : List (String × Value)}
  {machine left : Machine}

theorem Evaluated.keys (evaluated : Evaluated rounds depth entries machine fields left) :
    fields.map Prod.fst = entries.map Prod.fst := by
  induction evaluated with
  | nil => rfl
  | cons _ _ ih => rw [List.map_cons, List.map_cons, ih]

theorem Evaluated.scopes (evaluated : Evaluated rounds depth entries machine fields left) :
    left.scopes = machine.scopes := by
  induction evaluated with
  | nil => rfl
  | cons ran _ ih =>
      rw [ih]
      exact (unchanging_evaluate rounds depth _).scopes_of_run ran

/-- The expressions up to one have values, and that one is stopped. -/
inductive StoppedAmong (rounds depth : Nat) :
    List (String × Expr) → Machine → Stop → Machine → Prop where
  | mk {done others : List (String × Expr)} {entry : String × Expr} {fields : List (String × Value)}
      {machine middle left : Machine} {stop : Stop} :
    Evaluated rounds depth done machine fields middle →
    (evaluate rounds depth entry.2).run.run middle = (.error stop, left) →
      StoppedAmong rounds depth (done ++ entry :: others) machine stop left

theorem StoppedAmong.scopes {stop : Stop}
    (stopped : StoppedAmong rounds depth entries machine stop left) : left.scopes = machine.scopes := by
  cases stopped with
  | mk evaluated ran =>
      rw [← evaluated.scopes]
      exact (unchanging_evaluate rounds depth _).scopes_of_run ran

theorem StoppedAmong.behind {key : String} {expression : Expr} {value : Value} {middle : Machine}
    {stop : Stop} (ran : (evaluate rounds depth expression).run.run machine = (.ok value, middle))
    (stopped : StoppedAmong rounds depth entries middle stop left) :
    StoppedAmong rounds depth ((key, expression) :: entries) machine stop left := by
  cases stopped with
  | mk evaluated ranEntry => exact .mk (.cons ran evaluated) ranEntry

theorem run_fields (rounds depth : Nat) (entries : List (String × Expr)) (machine : Machine) :
    (∃ fields left, Evaluated rounds depth entries machine fields left ∧
      (entries.mapM (fieldOf rounds depth)).run.run machine = (.ok fields, left)) ∨
    ∃ stop left, StoppedAmong rounds depth entries machine stop left ∧
      (entries.mapM (fieldOf rounds depth)).run.run machine = (.error stop, left) := by
  induction entries generalizing machine with
  | nil => exact .inl ⟨[], machine, .nil, rfl⟩
  | cons entry others ih =>
      obtain ⟨key, expression⟩ := entry
      rw [List.mapM_cons]
      cases ran : (evaluate rounds depth expression).run.run machine with
      | mk ended middle =>
          cases ended with
          | error stop =>
              have first := @run_fieldOf_error _ rounds depth (key, expression) machine middle stop ran
              refine .inr ⟨stop, middle, ?_, run_bind_error first _⟩
              exact @StoppedAmong.mk _ rounds depth [] others (key, expression) _ _ _ _ _ .nil ran
          | ok value =>
              have first := @run_fieldOf_ok _ rounds depth (key, expression) machine middle value ran
              rw [run_bind_ok first]
              rcases ih middle with ⟨fields, left, evaluated, ranOthers⟩ | ⟨stop, left, stopped, ranOthers⟩
              · exact .inl ⟨(key, value) :: fields, left, .cons ran evaluated, run_bind_ok ranOthers _⟩
              · exact .inr ⟨stop, left, stopped.behind ran, run_bind_error ranOthers _⟩

def bound (name : String) (fields : List (String × Value)) (machine : Machine) : Machine :=
  { machine with
    scopes := assigned name (.table machine.nextIdentity fields) machine.scopes
    nextIdentity := machine.nextIdentity + 1 }

theorem run_table_statement (rounds depth : Nat) (name : String) (entries : List (String × Expr))
    (machine : Machine) :
    (∃ fields left, Evaluated rounds depth entries machine fields left ∧
      (execute rounds (depth + 2) (.assign name (.table entries))).run.run machine =
        (.ok (), bound name fields left)) ∨
    ∃ stop left, StoppedAmong rounds depth entries machine stop left ∧
      (execute rounds (depth + 2) (.assign name (.table entries))).run.run machine =
        (.error stop, left) := by
  rcases run_fields rounds depth entries machine with
    ⟨fields, left, evaluated, ran⟩ | ⟨stop, left, stopped, ran⟩
  · refine .inl ⟨fields, left, evaluated, ?_⟩
    have table : (evaluate rounds (depth + 1) (.table entries)).run.run machine =
        (.ok (.table left.nextIdentity fields), { left with nextIdentity := left.nextIdentity + 1 }) :=
      run_bind_ok ran _
    exact run_bind_ok table _
  · refine .inr ⟨stop, left, stopped, ?_⟩
    have table : (evaluate rounds (depth + 1) (.table entries)).run.run machine = (.error stop, left) :=
      run_bind_error ran _
    exact run_bind_error table _

end Run

open Run

/-- Every table statement that is read, and every run of it. The table that it makes has each key once,
in the order in which the keys first come in the statement, with the expression that comes last for the
key. These expressions are evaluated, each once and one after another in that order. If all have
values, the name is bound in the innermost scope to a new table of the keys with these values, and
nothing else is bound. If one is stopped, so is the statement, with the machine that the expression
leaves, on which every name in every scope is bound as it was. -/
theorem table_statement_runs [Limits] {level : Nat} {word : Token} {tokens rest : List Token}
    {statement : Stmt} (isTable : word.kind = .keyword .tableWord)
    (read : Parser.statement level (word :: tokens) = .ok (statement, rest)) :
    ∃ name pairs taken entries, word :: tokens = taken ++ rest ∧
      Grammar.IsTable name pairs taken ∧ statement = .assign name (.table entries) ∧
      Entries.Sums pairs entries ∧ ∀ rounds machine,
        (∀ depth,
          (∃ fields left, Evaluated rounds depth entries machine fields left ∧
            fields.map Prod.fst = entries.map Prod.fst ∧
            (execute rounds (depth + 2) statement).run.run machine =
              (.ok (), bound name fields left) ∧
            ∀ env outer, machine.scopes = env :: outer → (bound name fields left).scopes =
              Entries.set name (.table left.nextIdentity fields) env :: outer) ∨
          ∃ stop left, StoppedAmong rounds depth entries machine stop left ∧
            (execute rounds (depth + 2) statement).run.run machine = (.error stop, left) ∧
            left.scopes = machine.scopes) ∧
        ∀ depth < 2,
          (execute rounds depth statement).run.run machine = (.error (.fault .tooDeep), machine) := by
  obtain ⟨name, pairs, taken, split, isTokens, rfl⟩ := Grammar.table_of_statement isTable read
  refine ⟨name, pairs, taken, Entries.ofPairs pairs, split, isTokens, rfl,
    Entries.sums_ofPairs pairs, ?_⟩
  intro rounds machine
  constructor
  · intro depth
    rcases run_table_statement rounds depth name (Entries.ofPairs pairs) machine with
      ⟨fields, left, evaluated, ran⟩ | ⟨stop, left, stopped, ran⟩
    · refine .inl ⟨fields, left, evaluated, evaluated.keys, ran, ?_⟩
      intro env outer scopes
      rw [bound, evaluated.scopes, scopes]
      rfl
    · exact .inr ⟨stop, left, stopped, ran, stopped.scopes⟩
  · intro depth shallow
    cases depth with
    | zero => rfl
    | succ depth =>
        obtain rfl : depth = 0 := by omega
        rfl

def repeatsKey : List Token :=
  [⟨.keyword .tableWord, .text "table", 1⟩, ⟨.identifier, .text "t", 1⟩,
    ⟨.symbol .assign, .text "=", 1⟩, ⟨.symbol .openBrace, .text "\x7b", 1⟩,
    ⟨.string, .text "a", 1⟩, ⟨.symbol .colon, .text ":", 1⟩, ⟨.identifier, .text "unset", 1⟩,
    ⟨.symbol .comma, .text ",", 1⟩, ⟨.string, .text "b", 1⟩, ⟨.symbol .colon, .text ":", 1⟩,
    ⟨.number, .number 2, 1⟩, ⟨.string, .text "a", 1⟩, ⟨.symbol .colon, .text ":", 1⟩,
    ⟨.identifier, .text "inputline", 1⟩, ⟨.symbol .openParen, .text "(", 1⟩,
    ⟨.symbol .closeParen, .text ")", 1⟩, ⟨.symbol .closeBrace, .text "\x7d", 1⟩, Token.final 1]

/-- The line is read for the key that comes first, and the variable is not looked up. -/
theorem table_statement_runs_repeated_key :
    Parser.statement 2 repeatsKey = .ok (.assign "t"
      (.table [("a", .call "inputline" []), ("b", .literal (.int 2))]), [Token.final 1]) ∧
    ∃ fields left, Evaluated 1 2 [("a", .call "inputline" []), ("b", .literal (.int 2))]
        (Machine.new { input := [some "one"] }) fields left ∧
      (execute 1 4 (.assign "t"
          (.table [("a", .call "inputline" []), ("b", .literal (.int 2))]))).run.run
        (Machine.new { input := [some "one"] }) = (.ok (), bound "t" fields left) ∧
      left.console.input = [] := by
  have read : Parser.statement 2 repeatsKey = .ok (.assign "t"
      (.table [("a", .call "inputline" []), ("b", .literal (.int 2))]), [Token.final 1]) := rfl
  obtain ⟨name, pairs, taken, entries, _, _, same, _, runs⟩ := table_statement_runs rfl read
  cases same
  refine ⟨read, ?_⟩
  rcases (runs 1 (Machine.new { input := [some "one"] })).1 2 with
    ⟨fields, left, evaluated, _, ran, _⟩ | ⟨stop, left, _, ran, _⟩
  · refine ⟨fields, left, evaluated, ran, ?_⟩
    have inputs := congrArg (fun ended => ended.2.console.input) ran
    exact inputs.symm
  · cases ran

end IndentScript
