/-!
The limits of the host. It gives up where a source text, a run or a table nests too deep. A host may
well count one kind of level only; how much of a text, a run or a table goes into such a level differs,
so there are three numbers here.

The definitions take the limits as a parameter, and what is proved holds for every choice of them. The
exceptions are texts that must fit in: they are read and run within the standard limits.
-/

namespace IndentScript

/-- How deep things may nest, and how long a loop may go on. -/
class Limits where
  /-- How deep a source text may nest to be read. -/
  reading : Nat
  /-- How deep a run may nest. -/
  running : Nat
  /-- How deep tables may nest to be shown or compared. -/
  showing : Nat
  /-- How many rounds a loop with a condition may have. -/
  looping : Nat

/-- The standard limits, which are taken where no others are given. -/
instance : Limits := ⟨240, 600, 1000, Nat.pow 2 62⟩

end IndentScript
