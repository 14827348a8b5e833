/-!
# Stencil — UTF-8

Text as bytes and bytes as text. Decoding refuses the first byte sequence that
no character is written as, and says where the sequence starts, how many bytes
of it were read, and what is wrong with it: a byte that starts nothing, a byte
that does not continue what was started, or the end of the data.
-/

namespace Stencil.Text.Utf8

/-- What is wrong with a byte sequence. -/
inductive Flaw where
  | start
  | continuation
  | truncated
  deriving DecidableEq, Repr

/-- Where decoding stopped: `bytes` are the bytes of the bad sequence that were
read, and `position` is where they start. -/
structure Fault where
  flaw : Flaw
  position : Nat
  bytes : List UInt8
  deriving DecidableEq, Repr

/-- The bytes of a text. -/
def encode (cs : List Char) : List UInt8 :=
  cs.flatMap String.utf8EncodeChar

/-- Whether the byte continues a character. -/
def isTail (b : UInt8) : Bool :=
  0x80 ≤ b && b ≤ 0xBF

/-- Whether `b` may follow the first byte `a` of a longer character: no
character is written longer than needed, is a surrogate, or lies beyond
U+10FFFF. -/
def isSecond (a b : UInt8) : Bool :=
  if a = 0xE0 then 0xA0 ≤ b && b ≤ 0xBF
  else if a = 0xED then 0x80 ≤ b && b ≤ 0x9F
  else if a = 0xF0 then 0x90 ≤ b && b ≤ 0xBF
  else if a = 0xF4 then 0x80 ≤ b && b ≤ 0x8F
  else isTail b

/-- The low six bits of a continuing byte. -/
def payload (b : UInt8) : Nat :=
  b.toNat % 64

/-- Reads one character that starts with `a`: the character and the number of
bytes after `a` that belong to it, or what is wrong and the number of bytes
that were good. -/
def readChar (a : UInt8) (rest : List UInt8) : Except (Flaw × Nat) (Char × Nat) :=
  if a < 0x80 then .ok (Char.ofNat a.toNat, 0)
  else if a < 0xC2 then .error (.start, 1)
  else if a < 0xE0 then
    match rest with
    | [] => .error (.truncated, 1)
    | b :: _ =>
      if isTail b then .ok (Char.ofNat (a.toNat % 32 * 64 + payload b), 1)
      else .error (.continuation, 1)
  else if a < 0xF0 then
    match rest with
    | [] => .error (.truncated, 1)
    | [b] => if isSecond a b then .error (.truncated, 2) else .error (.continuation, 1)
    | b :: c :: _ =>
      if !isSecond a b then .error (.continuation, 1)
      else if !isTail c then .error (.continuation, 2)
      else .ok (Char.ofNat ((a.toNat % 16 * 64 + payload b) * 64 + payload c), 2)
  else if a < 0xF5 then
    match rest with
    | [] => .error (.truncated, 1)
    | [b] => if isSecond a b then .error (.truncated, 2) else .error (.continuation, 1)
    | [b, c] =>
      if !isSecond a b then .error (.continuation, 1)
      else if !isTail c then .error (.continuation, 2)
      else .error (.truncated, 3)
    | b :: c :: d :: _ =>
      if !isSecond a b then .error (.continuation, 1)
      else if !isTail c then .error (.continuation, 2)
      else if !isTail d then .error (.continuation, 3)
      else
        .ok (Char.ofNat (((a.toNat % 8 * 64 + payload b) * 64 + payload c) * 64 + payload d), 3)
  else .error (.start, 1)

/-- Decodes the bytes that follow the first `position` bytes of the data. -/
def decodeFrom (position : Nat) (bytes : List UInt8) : Except Fault (List Char) :=
  match bytes with
  | [] => .ok []
  | a :: rest =>
    match readChar a rest with
    | .error (flaw, good) => .error ⟨flaw, position, (a :: rest).take good⟩
    | .ok (c, more) => (decodeFrom (position + 1 + more) (rest.drop more)).map (c :: ·)
termination_by bytes.length
decreasing_by
  simp only [List.length_drop, List.length_cons]
  omega

/-- The text that the bytes are the UTF-8 of. -/
def decode (bytes : List UInt8) : Except Fault (List Char) :=
  decodeFrom 0 bytes

end Stencil.Text.Utf8
