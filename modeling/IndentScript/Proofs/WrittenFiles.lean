import IndentScript.FileTree

/-!
Reading back what was written to a file. The bytes of a text are read as the characters of the text; a
file stands at the end of its path when it was written, since no folder on the way was replaced. So a
text without carriage returns, which would be read as line feeds, is read back as it was.
-/

namespace IndentScript

/-! ### Bytes of a text -/

namespace Text.Utf8

theorem isContinuation_of_bounds {byte : UInt8} (bounds : 128 ≤ byte.toNat ∧ byte.toNat < 192) :
    isContinuation byte = true := by
  simp only [isContinuation, UInt8.le_iff_toNat_le, Bool.and_eq_true, decide_eq_true_eq]
  exact ⟨bounds.1, Nat.le_of_lt_succ bounds.2⟩

/-- The second byte is bounded more narrowly behind the four first bytes at the ends of a range. -/
theorem goesOn_of_bounds {first second : UInt8} (bounds : 128 ≤ second.toNat ∧ second.toNat < 192)
    (three : first.toNat = 224 → 160 ≤ second.toNat)
    (surrogate : first.toNat = 237 → second.toNat < 160)
    (four : first.toNat = 240 → 144 ≤ second.toNat)
    (last : first.toNat = 244 → second.toNat < 144) : goesOn first second = true := by
  rw [goesOn, isContinuation_of_bounds bounds, Bool.true_and]
  simp only [← UInt8.toNat_inj, UInt8.le_iff_toNat_le, UInt8.reduceToNat]
  grind

theorem character_one {first : UInt8} (start : first.toNat < 128) (rest : List UInt8) :
    character first rest = .ok (Char.ofNat first.toNat, 0) := by
  rw [character.eq_def, if_pos (UInt8.lt_iff_toNat_lt.mpr start)]

theorem character_two {first second : UInt8} (start : 194 ≤ first.toNat ∧ first.toNat < 224)
    (follows : isContinuation second = true) (rest : List UInt8) :
    character first (second :: rest) =
      .ok (Char.ofNat (first.toNat % 32 * 64 + lowBits second), 1) := by
  simp only [character, UInt8.lt_iff_toNat_lt, UInt8.reduceToNat, follows]
  rw [if_neg (by omega), if_neg (by simp; omega), if_pos (by omega), if_pos trivial]

theorem character_three {first second third : UInt8} (start : 224 ≤ first.toNat ∧ first.toNat < 240)
    (follows : goesOn first second = true) (ends : isContinuation third = true)
    (rest : List UInt8) :
    character first (second :: third :: rest) =
      .ok (Char.ofNat ((first.toNat % 16 * 64 + lowBits second) * 64 + lowBits third), 2) := by
  simp only [character, UInt8.lt_iff_toNat_lt, UInt8.reduceToNat, follows, ends]
  rw [if_neg (by omega), if_neg (by simp; omega), if_neg (by omega), if_pos (by omega),
    if_neg (by simp), if_neg (by simp)]

theorem character_four {first second third fourth : UInt8}
    (start : 240 ≤ first.toNat ∧ first.toNat ≤ 244) (follows : goesOn first second = true)
    (goesOn : isContinuation third = true) (ends : isContinuation fourth = true)
    (rest : List UInt8) :
    character first (second :: third :: fourth :: rest) =
      .ok (Char.ofNat (((first.toNat % 8 * 64 + lowBits second) * 64 + lowBits third) * 64
        + lowBits fourth), 3) := by
  simp only [character, UInt8.lt_iff_toNat_lt, UInt8.reduceToNat, follows, goesOn, ends]
  rw [if_neg (by omega), if_neg (by simp; omega), if_neg (by omega), if_neg (by omega),
    if_neg (by simp), if_neg (by simp), if_neg (by simp)]

def continuation (value : Nat) : UInt8 :=
  UInt8.ofNat (value % 64 + 128)

theorem toNat_continuation (value : Nat) : (continuation value).toNat = value % 64 + 128 :=
  UInt8.toNat_ofNat_of_lt' (show value % 64 + 128 < 256 by omega)

theorem lowBits_continuation (value : Nat) : lowBits (continuation value) = value % 64 := by
  rw [lowBits, toNat_continuation]
  omega

theorem isContinuation_continuation (value : Nat) : isContinuation (continuation value) = true :=
  isContinuation_of_bounds (by rw [toNat_continuation]; omega)

/-- The bytes of a character are read as that character, whatever stands behind them. -/
theorem character_utf8EncodeChar (c : Char) : ∃ first others,
    String.utf8EncodeChar c = first :: others ∧
      ∀ rest, character first (others ++ rest) = .ok (c, others.length) := by
  have valid : c.val.toNat < 55296 ∨ 57343 < c.val.toNat ∧ c.val.toNat < 1114112 := c.valid
  have back : ∀ code, code = c.val.toNat → Char.ofNat code = c := by
    rintro _ rfl
    exact Char.ofNat_toNat c
  have byte : ∀ value, value < 256 → (UInt8.ofNat value).toNat = value :=
    fun value => UInt8.toNat_ofNat_of_lt'
  fun_cases String.utf8EncodeChar c with
  | case1 code one =>
    have first := byte code (by omega)
    refine ⟨_, _, rfl, fun rest => ?_⟩
    rw [character_one (by omega), first, back code rfl]
    rfl
  | case2 code one two =>
    have first := byte (code / 64 % 32 + 192) (by omega)
    refine ⟨_, [continuation code], rfl, fun rest => ?_⟩
    rw [List.cons_append, character_two (by omega) (isContinuation_continuation _), first,
      lowBits_continuation, back _ (by omega)]
    rfl
  | case3 code one two three =>
    have first := byte (code / 4096 % 16 + 224) (by omega)
    refine ⟨_, [continuation (code / 64), continuation code], rfl, fun rest => ?_⟩
    have second := toNat_continuation (code / 64)
    have follows : goesOn (UInt8.ofNat (code / 4096 % 16 + 224)) (continuation (code / 64)) = true :=
      goesOn_of_bounds (by omega) (by omega) (by omega) (by omega) (by omega)
    rw [List.cons_append, List.cons_append,
      character_three (by omega) follows (isContinuation_continuation _), first,
      lowBits_continuation, lowBits_continuation, back _ (by omega)]
    rfl
  | case4 code one two three =>
    have first := byte (code / 262144 % 8 + 240) (by omega)
    refine ⟨_, [continuation (code / 4096), continuation (code / 64), continuation code], rfl,
      fun rest => ?_⟩
    have second := toNat_continuation (code / 4096)
    have follows :
        goesOn (UInt8.ofNat (code / 262144 % 8 + 240)) (continuation (code / 4096)) = true :=
      goesOn_of_bounds (by omega) (by omega) (by omega) (by omega) (by omega)
    rw [List.cons_append, List.cons_append, List.cons_append,
      character_four (by omega) follows (isContinuation_continuation _)
        (isContinuation_continuation _), first,
      lowBits_continuation, lowBits_continuation, lowBits_continuation, back _ (by omega)]
    rfl

theorem decodeFrom_flatMap (characters : List Char) (position : Nat) :
    decodeFrom position (characters.flatMap String.utf8EncodeChar) = .ok characters := by
  induction characters generalizing position with
  | nil => rw [List.flatMap_nil, decodeFrom]
  | cons c rest ih =>
      obtain ⟨first, others, bytes, reads⟩ := character_utf8EncodeChar c
      rw [List.flatMap_cons, bytes, List.cons_append, decodeFrom, reads]
      dsimp only
      rw [List.drop_left, ih]

theorem toList_loop_eq (bytes : ByteArray) (index : Nat) (front : List UInt8) :
    ByteArray.toList.loop bytes index front = front.reverse ++ bytes.data.toList.drop index := by
  fun_induction ByteArray.toList.loop bytes index front with
  | case1 index front inside ih =>
      have bound : index < bytes.data.toList.length := inside
      have here : bytes.data.toList.drop index =
          bytes.get! index :: bytes.data.toList.drop (index + 1) := by
        rw [List.drop_eq_getElem_cons bound]
        simp [ByteArray.get!, inside]
      rw [ih, here, List.reverse_cons, List.append_assoc, List.singleton_append]
  | case2 index front outside =>
      have nothing : bytes.data.toList.drop index = [] :=
        List.drop_eq_nil_of_le (Nat.le_of_not_lt outside)
      rw [nothing, List.append_nil]

theorem encode_eq_flatMap (text : String) :
    encode text = text.toList.flatMap String.utf8EncodeChar := by
  have bytes : text.toUTF8.data.toList = text.toList.flatMap String.utf8EncodeChar := by
    conv => lhs; rw [← String.ofList_toList (s := text)]
    exact List.toList_data_toByteArray
  rw [encode, ByteArray.toList, toList_loop_eq, ← bytes]
  rfl

/-- The bytes of a text are read as its characters. -/
theorem decode_encode (text : String) : decode (encode text) = .ok text.toList := by
  rw [decode, encode_eq_flatMap, decodeFrom_flatMap]

end Text.Utf8

theorem Text.uniformLineEnds_of_not_mem {characters : List Char} (noReturn : '\r' ∉ characters) :
    Text.uniformLineEnds characters = characters := by
  induction characters with
  | nil => rfl
  | cons c rest ih =>
      rw [List.mem_cons, not_or] at noReturn
      rw [Text.uniformLineEnds, if_neg (Ne.symm noReturn.1), ih noReturn.2]
      intro tail same _
      exact noReturn.1 same.symm

/-! ### Items at places -/

namespace Item

def below? : Place → Item → Option Item
  | [], item => some item
  | name :: rest, folder entries => (Entries.get? name entries).bind (below? rest)
  | _ :: _, file _ => none

theorem below?_append (front back : Place) (item : Item) :
    below? (front ++ back) item = (below? front item).bind (below? back) := by
  induction front generalizing item with
  | nil => rfl
  | cons name front ih =>
      cases item with
      | file content => rfl
      | folder entries =>
          rw [List.cons_append, below?, below?, Option.bind_assoc]
          exact congrArg _ (funext ih)

theorem below?_put_self {root : Item} {place : Place} {entries : Entries Item}
    (found : below? place root = some (folder entries)) (name : String) (added : Item) :
    below? (place ++ [name]) (put added (place ++ [name]) root) = some added := by
  induction place generalizing root with
  | nil =>
      cases found
      simp [put, below?]
  | cons first rest ih =>
      cases root with
      | file content => cases found
      | folder held =>
          obtain ⟨inner, there, foundBelow⟩ := Option.bind_eq_some_iff.mp found
          rw [List.cons_append, put, there, below?, Entries.get?_set_self]
          exact ih foundBelow

/-- The folders below an item are folders below the other, with at least the same names in them. -/
def FoldersIn (item other : Item) : Prop :=
  ∀ place entries, below? place item = some (folder entries) →
    ∃ others, below? place other = some (folder others) ∧
      ∀ name, (Entries.get? name entries).isSome → (Entries.get? name others).isSome

theorem foldersIn_self (item : Item) : FoldersIn item item :=
  fun _ entries found => ⟨entries, found, fun _ present => present⟩

theorem foldersIn_of_file {item : Item} (isFile : ¬item.isFolder = true) (other : Item) :
    FoldersIn item other := by
  intro place entries found
  cases item with
  | folder held => exact absurd rfl isFile
  | file content =>
      cases place with
      | nil => cases found
      | cons name rest => cases found

theorem foldersIn_set {name : String} {added : Item} {entries : Entries Item}
    (inside : ∀ inner, Entries.get? name entries = some inner → FoldersIn inner added) :
    FoldersIn (folder entries) (folder (Entries.set name added entries)) := by
  intro place held found
  cases place with
  | nil =>
      cases found
      refine ⟨_, rfl, fun other present => ?_⟩
      by_cases same : other = name
      · rw [same, Entries.get?_set_self]
        rfl
      · rwa [Entries.get?_set_of_ne same]
  | cons first rest =>
      obtain ⟨inner, there, foundBelow⟩ := Option.bind_eq_some_iff.mp found
      by_cases same : first = name
      · subst same
        rw [below?, Entries.get?_set_self]
        exact inside inner there rest held foundBelow
      · rw [below?, Entries.get?_set_of_ne same, there]
        exact ⟨held, foundBelow, fun _ present => present⟩

theorem foldersIn_put_file {root : Item} {place : Place} {entries : Entries Item}
    (found : below? place root = some (folder entries)) {name : String}
    (noFolder : ¬(Entries.get? name entries).any isFolder = true) (content : List UInt8) :
    FoldersIn root (put (file content) (place ++ [name]) root) := by
  induction place generalizing root with
  | nil =>
      cases found
      refine foldersIn_set fun inner there => foldersIn_of_file ?_ _
      rwa [there] at noFolder
  | cons first rest ih =>
      cases root with
      | file held => cases found
      | folder held =>
          obtain ⟨inner, there, foundBelow⟩ := Option.bind_eq_some_iff.mp found
          rw [List.cons_append, put, there]
          refine foldersIn_set fun other same => ?_
          cases there.symm.trans same
          exact ih foundBelow

end Item

/-! ### Ways through a changed tree -/

namespace FileTree

/-- Every name of a trail leads from the folder before it to the item that stands with it. -/
def Trail.Leads (root : Item) : Trail → Prop
  | [] => True
  | (name, item) :: trail => Trail.Leads root trail ∧
      ∃ entries, Trail.item root trail = .folder entries ∧ Entries.get? name entries = some item

theorem Trail.place_cons (name : String) (item : Item) (trail : Trail) :
    Trail.place ((name, item) :: trail) = trail.place ++ [name] := by
  simp [Trail.place]

theorem Trail.place_drop (trail : Trail) : Trail.place (trail.drop 1) = trail.place.dropLast := by
  simp [Trail.place]

namespace Trail.Leads

theorem below?_place {root : Item} {trail : Trail} (leads : trail.Leads root) :
    root.below? trail.place = some (trail.item root) := by
  induction trail with
  | nil => rfl
  | cons last trail ih =>
      obtain ⟨name, item⟩ := last
      obtain ⟨front, entries, isFolder, there⟩ := leads
      rw [place_cons, Item.below?_append, ih front, isFolder, Option.bind_some, Item.below?, there]
      rfl

theorem drop {root : Item} {trail : Trail} (leads : trail.Leads root) :
    Trail.Leads root (trail.drop 1) := by
  cases trail with
  | nil => exact leads
  | cons last trail => exact leads.1

end Trail.Leads

/-- Two trails, each in a tree of its own, to one and the same place. -/
structure Trail.Alongside (root changed : Item) (trail copy : Trail) : Prop where
  leads : trail.Leads root
  copyLeads : copy.Leads changed
  samePlace : copy.place = trail.place

theorem Trail.Alongside.item_copy {root changed : Item} {trail copy : Trail} {entries : Entries Item}
    (both : Trail.Alongside root changed trail copy) (keeps : root.FoldersIn changed)
    (isFolder : trail.item root = .folder entries) :
    ∃ others, copy.item changed = .folder others ∧
      ∀ name, (Entries.get? name entries).isSome → (Entries.get? name others).isSome := by
  have found := both.leads.below?_place
  rw [isFolder] at found
  obtain ⟨others, foundCopy, atLeast⟩ := keeps _ _ found
  rw [← both.samePlace, both.copyLeads.below?_place] at foundCopy
  exact ⟨others, Option.some.inj foundCopy, atLeast⟩

/-- Names that lead to a folder lead to the same place where no folder is missing. -/
theorem walk_of_foldersIn {root changed : Item} (keeps : root.FoldersIn changed)
    {trail copy ended : Trail} {names : List String} (both : Trail.Alongside root changed trail copy)
    (walked : walk root trail names = .ok ended) (back : List String) :
    ∃ copied : Trail, Trail.Alongside root changed ended copied ∧
      walk changed copy (names ++ back) = walk changed copied back := by
  fun_induction walk root trail names generalizing copy with
  | case1 trail =>
      cases walked
      exact ⟨copy, both, rfl⟩
  | case2 trail name rest content isFile => cases walked
  | case3 trail name rest entries isFolder stays ih =>
      obtain ⟨others, copyFolder, _⟩ := both.item_copy keeps isFolder
      obtain ⟨copied, bothEnd, reached⟩ := ih both walked
      refine ⟨copied, bothEnd, ?_⟩
      rw [List.cons_append, walk, copyFolder]
      dsimp only
      rw [if_pos stays, reached]
  | case4 trail rest entries isFolder moves ih =>
      obtain ⟨others, copyFolder, _⟩ := both.item_copy keeps isFolder
      have bothUp : Trail.Alongside root changed (trail.drop 1) (copy.drop 1) :=
        ⟨both.leads.drop, both.copyLeads.drop, by
          rw [Trail.place_drop, Trail.place_drop, both.samePlace]⟩
      obtain ⟨copied, bothEnd, reached⟩ := ih bothUp walked
      refine ⟨copied, bothEnd, ?_⟩
      rw [List.cons_append, walk, copyFolder]
      dsimp only
      rw [if_neg moves, if_pos rfl, reached]
  | case5 trail name rest entries isFolder moves down long => cases walked
  | case6 trail name rest entries isFolder moves down short there => cases walked
  | case7 trail name rest entries isFolder moves down short item there ih =>
      obtain ⟨others, copyFolder, atLeast⟩ := both.item_copy keeps isFolder
      obtain ⟨copyItem, copyThere⟩ := Option.isSome_iff_exists.mp (atLeast name (there ▸ rfl))
      have bothDown : Trail.Alongside root changed ((name, item) :: trail) ((name, copyItem) :: copy) :=
        ⟨⟨both.leads, entries, isFolder, there⟩, ⟨both.copyLeads, others, copyFolder, copyThere⟩, by
          rw [Trail.place_cons, Trail.place_cons, both.samePlace]⟩
      obtain ⟨copied, bothEnd, reached⟩ := ih bothDown walked
      refine ⟨copied, bothEnd, ?_⟩
      rw [List.cons_append, walk, copyFolder]
      dsimp only
      rw [if_neg moves, if_neg down, if_neg short, copyThere]
      exact reached

theorem leads_of_walk {root : Item} {names : List String} {ended : Trail}
    (walked : walk root [] names = .ok ended) : ended.Leads root := by
  have atRoot : Trail.Alongside root root [] [] := ⟨trivial, trivial, rfl⟩
  obtain ⟨copied, both, _⟩ := walk_of_foldersIn root.foldersIn_self atRoot walked []
  exact both.leads

/-- A path that does not end in a slash consists of the names before the last one and the last one. -/
theorem reverse_dropWhile_empty {names : List String} {name : String}
    (last : (names.reverse.dropWhile (· = "")).head? = some name)
    (notSlashed : names.getLast? ≠ some "") :
    names = ((names.reverse.dropWhile (· = "")).drop 1).reverse ++ [name] := by
  cases backward : names.reverse with
  | nil =>
      rw [backward] at last
      cases last
  | cons final front =>
      have visible : final ≠ "" := by
        rintro rfl
        rw [List.getLast?_eq_head?_reverse, backward] at notSlashed
        exact notSlashed rfl
      rw [backward, List.dropWhile_cons_of_neg (by simpa using visible)] at last
      cases last
      rw [List.dropWhile_cons_of_neg (by simpa using visible), List.drop_one, List.tail_cons,
        ← List.reverse_cons, ← backward, List.reverse_reverse]

theorem fromRoot_append (tree : FileTree) (path : String) (front back : List String) :
    tree.fromRoot path (front ++ back) = tree.fromRoot path front ++ back := by
  rw [fromRoot, fromRoot]
  split
  · rfl
  · rw [List.append_assoc]

/-! ### Written files -/

theorem of_bind_eq_ok {ε α β : Type} {first : Except ε α} {next : α → Except ε β} {result : β}
    (success : first >>= next = .ok result) : ∃ middle, first = .ok middle ∧ next middle = .ok result := by
  cases first with
  | error failure => cases success
  | ok middle => exact ⟨middle, rfl, success⟩

/-- The target of a path that ends in a name: the folder is what the names before it lead to. -/
theorem target_eq_ok {tree : FileTree} {path name : String} {folder : Place} {entries : Entries Item}
    (aimed : tree.target path = .ok ⟨folder, entries, some name, false⟩) :
    ∃ front trail, checkedNames path = .ok (front ++ [name]) ∧
      walk tree.root [] (tree.fromRoot path front) = .ok trail ∧
      trail.item tree.root = .folder entries ∧ folder = trail.place ∧
      name ≠ "" ∧ ¬(name = "." ∨ name = "..") ∧ ¬longestName < name.utf8ByteSize := by
  rw [target] at aimed
  obtain ⟨names, checked, aimed⟩ := of_bind_eq_ok aimed
  obtain ⟨trail, walked, aimed⟩ := of_bind_eq_ok aimed
  cases isFolder : trail.item tree.root with
  | file content =>
      rw [isFolder] at aimed
      cases aimed
  | folder held =>
      rw [isFolder] at aimed
      cases last : (names.reverse.dropWhile (· = "")).head? with
      | none =>
          rw [last] at aimed
          cases aimed
      | some final =>
          rw [last] at aimed
          dsimp only at aimed
          by_cases dots : final = "." ∨ final = ".."
          · rw [if_pos dots] at aimed
            cases aimed
          · by_cases long : longestName < final.utf8ByteSize
            · rw [if_neg dots, if_pos long] at aimed
              cases aimed
            · rw [if_neg dots, if_neg long] at aimed
              simp only [pure, Except.pure, Except.ok.injEq, Target.mk.injEq, Option.some.injEq,
                decide_eq_false_iff_not] at aimed
              obtain ⟨rfl, rfl, rfl, notSlashed⟩ := aimed
              have ends := reverse_dropWhile_empty last notSlashed
              refine ⟨_, trail, checked.trans (congrArg _ ends), walked, isFolder, rfl, ?_, dots, long⟩
              rintro rfl
              rw [ends, List.getLast?_concat] at notSlashed
              exact notSlashed rfl

/-- A file is written at the target of its path, where no folder may stand. -/
theorem writeBytes_eq_ok_iff {tree changed : FileTree} {path : String} {content : List UInt8} :
    tree.writeBytes path content = .ok changed ↔
      ∃ folder entries name, tree.target path = .ok ⟨folder, entries, some name, false⟩ ∧
        ¬(Entries.get? name entries).any Item.isFolder = true ∧
        changed = tree.put (folder ++ [name]) (.file content) := by
  rw [writeBytes]
  constructor
  · intro written
    cases aimed : tree.target path with
    | error cause =>
        rw [aimed] at written
        cases written
    | ok found =>
        obtain ⟨folder, entries, name, slashed⟩ := found
        rw [aimed] at written
        cases name with
        | none => cases written
        | some name =>
            dsimp only at written
            by_cases taken : (slashed || (Entries.get? name entries).any Item.isFolder) = true
            · rw [if_pos taken] at written
              cases written
            · rw [if_neg taken] at written
              cases written
              rw [Bool.or_eq_true, not_or, Bool.not_eq_true] at taken
              exact ⟨folder, entries, name, by rw [taken.1], taken.2, rfl⟩
  · rintro ⟨folder, entries, name, aimed, free, rfl⟩
    rw [aimed]
    dsimp only
    rw [Bool.false_or, if_neg free]

/-- A file that was written holds what was written to it. -/
theorem readBytes_writeBytes {tree changed : FileTree} {path : String} {content : List UInt8}
    (written : tree.writeBytes path content = .ok changed) :
    changed.readBytes path = .ok content := by
  obtain ⟨folder, entries, name, aimed, free, rfl⟩ := writeBytes_eq_ok_iff.mp written
  obtain ⟨front, trail, checked, walked, isFolder, rfl, visible, noDots, short⟩ := target_eq_ok aimed
  have found : tree.root.below? trail.place = some (.folder entries) := by
    rw [(leads_of_walk walked).below?_place, isFolder]
  have put := Item.below?_put_self found name (.file content)
  have keeps := Item.foldersIn_put_file found free content
  change FileTree.readBytes
    ⟨Item.put (.file content) (trail.place ++ [name]) tree.root, tree.here⟩ path = _
  generalize Item.put (.file content) (trail.place ++ [name]) tree.root = changed at put keeps ⊢
  -- the names before the last one lead to the folder that was written to, which holds the file now
  have atRoot : Trail.Alongside tree.root changed [] [] := ⟨trivial, trivial, rfl⟩
  obtain ⟨copied, both, reached⟩ := walk_of_foldersIn keeps atRoot walked [name]
  obtain ⟨others, copyFolder, _⟩ := both.item_copy keeps isFolder
  have there : Entries.get? name others = some (.file content) := by
    rw [← both.samePlace, Item.below?_append, both.copyLeads.below?_place, copyFolder,
      Option.bind_some, Item.below?] at put
    obtain ⟨item, there, same⟩ := Option.bind_eq_some_iff.mp put
    rw [there, ← same]
    rfl
  have last : walk changed copied [name] = .ok ((name, .file content) :: copied) := by
    rw [walk, copyFolder]
    dsimp only
    rw [if_neg (by grind), if_neg (by grind), if_neg short, there]
    rfl
  have names : fromRoot ⟨changed, tree.here⟩ path (front ++ [name]) =
      tree.fromRoot path front ++ [name] := fromRoot_append tree path front [name]
  have resolved : resolve ⟨changed, tree.here⟩ path =
      .ok ⟨Trail.place ((name, .file content) :: copied), .file content⟩ := by
    rw [resolve, checked]
    change (walk changed [] (fromRoot ⟨changed, tree.here⟩ path (front ++ [name])) >>= _) = _
    rw [names, reached, last]
    rfl
  rw [readBytes, resolved]

/-- Whether a text can be written to a file does not depend on the text. -/
theorem exists_writeText {tree changed : FileTree} {path text : String}
    (written : tree.writeText path text = .ok changed) (other : String) :
    ∃ otherwise, tree.writeText path other = .ok otherwise := by
  obtain ⟨folder, entries, name, aimed, free, _⟩ := writeBytes_eq_ok_iff.mp written
  exact ⟨_, writeBytes_eq_ok_iff.mpr ⟨folder, entries, name, aimed, free, rfl⟩⟩

/-- A text is read back as it was written, unless it has carriage returns. -/
theorem readText_writeText {tree changed : FileTree} {path text : String}
    (written : tree.writeText path text = .ok changed) (noReturn : '\r' ∉ text.toList) :
    changed.readText path = .ok text := by
  rw [readText, readBytes_writeBytes written]
  change textOfBytes (Text.Utf8.encode text) = _
  rw [textOfBytes, Text.Utf8.decode_encode]
  dsimp only
  rw [Text.uniformLineEnds_of_not_mem noReturn, String.ofList_toList]

end FileTree

end IndentScript
