/-!
Reading bytes as UTF-8. A sequence that is cut short, starts with a byte that starts nothing,
or goes on with a byte that cannot go on is refused, together with the bytes that were at
fault. Surrogates, overlong forms and code points beyond the last one are refused at the byte
that rules them out.
-/

namespace IndentScript.Text.Utf8

inductive Reason where
  | invalidStart
  | invalidContinuation
  | unexpectedEnd
  deriving DecidableEq, Repr

/-- The refused bytes: the place of the first, that byte, how many there are, and why. -/
structure Refusal where
  position : Nat
  byte : UInt8
  count : Nat
  reason : Reason
  deriving DecidableEq, Repr

def isContinuation (byte : UInt8) : Bool :=
  0x80 ≤ byte && byte ≤ 0xbf

/-- Whether `second` can follow the byte `first` that starts a longer sequence. -/
def goesOn (first second : UInt8) : Bool :=
  isContinuation second &&
    (if first = 0xe0 then 0xa0 ≤ second
     else if first = 0xed then second ≤ 0x9f
     else if first = 0xf0 then 0x90 ≤ second
     else if first = 0xf4 then second ≤ 0x8f
     else true)

def lowBits (byte : UInt8) : Nat :=
  byte.toNat % 0x40

/-- The character that starts with the byte `first`, with the number of bytes it takes from
`rest`; or the number of refused bytes and the reason. -/
def character (first : UInt8) (rest : List UInt8) : Except (Nat × Reason) (Char × Nat) :=
  if first < 0x80 then .ok (Char.ofNat first.toNat, 0)
  else if first < 0xc2 || 0xf4 < first then .error (1, .invalidStart)
  else if first < 0xe0 then
    match rest with
    | [] => .error (1, .unexpectedEnd)
    | second :: _ =>
      if isContinuation second then
        .ok (Char.ofNat (first.toNat % 0x20 * 0x40 + lowBits second), 1)
      else .error (1, .invalidContinuation)
  else if first < 0xf0 then
    match rest with
    | [] => .error (1, .unexpectedEnd)
    | [second] => if goesOn first second then .error (2, .unexpectedEnd)
        else .error (1, .invalidContinuation)
    | second :: third :: _ =>
      if !goesOn first second then .error (1, .invalidContinuation)
      else if !isContinuation third then .error (2, .invalidContinuation)
      else .ok (Char.ofNat
        ((first.toNat % 0x10 * 0x40 + lowBits second) * 0x40 + lowBits third), 2)
  else
    match rest with
    | [] => .error (1, .unexpectedEnd)
    | [second] => if goesOn first second then .error (2, .unexpectedEnd)
        else .error (1, .invalidContinuation)
    | [second, third] =>
      if !goesOn first second then .error (1, .invalidContinuation)
      else if !isContinuation third then .error (2, .invalidContinuation)
      else .error (3, .unexpectedEnd)
    | second :: third :: fourth :: _ =>
      if !goesOn first second then .error (1, .invalidContinuation)
      else if !isContinuation third then .error (2, .invalidContinuation)
      else if !isContinuation fourth then .error (3, .invalidContinuation)
      else .ok (Char.ofNat (((first.toNat % 0x08 * 0x40 + lowBits second) * 0x40
        + lowBits third) * 0x40 + lowBits fourth), 3)

def decodeFrom (position : Nat) (bytes : List UInt8) : Except Refusal (List Char) :=
  match bytes with
  | [] => .ok []
  | first :: rest =>
    match character first rest with
    | .error (count, reason) => .error ⟨position, first, count, reason⟩
    | .ok (c, used) =>
      match decodeFrom (position + 1 + used) (rest.drop used) with
      | .error refusal => .error refusal
      | .ok others => .ok (c :: others)
termination_by bytes.length
decreasing_by
  simp only [List.length_drop, List.length_cons]
  omega

def decode (bytes : List UInt8) : Except Refusal (List Char) :=
  decodeFrom 0 bytes

def encode (text : String) : List UInt8 :=
  text.toUTF8.toList

end IndentScript.Text.Utf8
