import Rfc6570.Text.Basic

/-!
# Rfc6570 — percent-encoding

RFC 3986 §2.1: a byte that may not stand in a URI is written as the escape triplet `%HH`, two
upper-case hexadecimal digits. Which bytes stand as they are is the caller's choice: always the
unreserved ASCII letters, digits and `-._~`, and besides them the ASCII characters of a `safe`
text. Characters of `safe` beyond ASCII keep nothing, since their UTF-8 bytes are never ASCII.

`hasEscape` tells whether a text already holds an escape triplet (hexadecimal digits of either
case): the reserved and fragment operators leave such a text as it is.

## Results

* `encode_keeps`   — a kept byte is written as itself.
* `encode_append`  — encoding works byte by byte.
-/

namespace Rfc6570.Percent

open Text

/-- A byte stands as itself when it is unreserved, or ASCII and listed in `safe`. -/
def keeps (safe : Text) (b : Nat) : Bool :=
  isUnreserved b || (b < 128 && safe.contains b)

/-- The escape triplet `%HH` of a byte, upper-case digits. -/
def triplet (b : Nat) : Text := [37, hexUpper (b / 16), hexUpper (b % 16)]

/-- The percent-encoding of one byte. -/
def encodeByte (safe : Text) (b : Nat) : Text :=
  if keeps safe b then [b] else triplet b

/-- The percent-encoding of a byte sequence under a `safe` text. -/
def encode (safe : Text) (bs : List UInt8) : Text :=
  bs.flatMap fun b => encodeByte safe b.toNat

@[simp] theorem encode_nil (safe : Text) : encode safe [] = [] := rfl

@[simp] theorem encode_cons (safe : Text) (b : UInt8) (bs : List UInt8) :
    encode safe (b :: bs) = encodeByte safe b.toNat ++ encode safe bs := by
  simp [encode]

theorem encode_append (safe : Text) (xs ys : List UInt8) :
    encode safe (xs ++ ys) = encode safe xs ++ encode safe ys := by
  simp [encode]

theorem encode_keeps {safe : Text} {b : Nat} (h : keeps safe b = true) :
    encodeByte safe b = [b] := by
  simp [encodeByte, h]

/-- The text starts with two hexadecimal digits. -/
def startsWithHexPair : Text → Bool
  | a :: b :: _ => isHexDigit a && isHexDigit b
  | _ => false

/-- The text holds an escape triplet: a `%` followed by two hexadecimal digits. -/
def hasEscape : Text → Bool
  | [] => false
  | c :: rest => (c == 37 && startsWithHexPair rest) || hasEscape rest

example : encode [] [0x61, 0x20, 0x2F, 0xC3, 0xA9] = ofString "a%20%2F%C3%A9" := by decide
example : encode (ofString "/") [0x2F, 0x7E] = ofString "/~" := by decide
example : hasEscape (ofString "100%") = false ∧ hasEscape (ofString "%%3a") = true := by decide

end Rfc6570.Percent
