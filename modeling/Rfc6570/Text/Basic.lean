/-!
# Rfc6570 — text as a sequence of code points

A `Text` is a list of Unicode code points. `String` cannot stand in for it: a value handed to
a template may hold surrogate code points (U+D800 to U+DFFF), which `Char` excludes, and the
library must carry them until the point where UTF-8 encoding refuses them.

The character classes here are those of RFC 3986 that template expansion needs: unreserved
characters, reserved characters, and hexadecimal digits.
-/

namespace Rfc6570

/-- A text: a sequence of Unicode code points, surrogate code points included. -/
abbrev Text := List Nat

namespace Text

/-- The code points of a string. -/
def ofString (s : String) : Text := s.toList.map Char.toNat

@[simp] theorem ofString_append (s t : String) : ofString (s ++ t) = ofString s ++ ofString t := by
  simp [ofString]

/-- An ASCII letter. -/
def isAsciiLetter (c : Nat) : Bool :=
  (65 ≤ c && c ≤ 90) || (97 ≤ c && c ≤ 122)

/-- An ASCII decimal digit. -/
def isAsciiDigit (c : Nat) : Bool := 48 ≤ c && c ≤ 57

/-- RFC 3986 unreserved characters: ASCII letters, digits and `-`, `.`, `_`, `~`. -/
def isUnreserved (c : Nat) : Bool :=
  isAsciiLetter c || isAsciiDigit c || c == 45 || c == 46 || c == 95 || c == 126

/-- RFC 3986 reserved characters: the general delimiters `:/?#[]@` and the sub-delimiters
`!$&'()*+,;=`, in that order. -/
def reserved : Text := ofString ":/?#[]@!$&'()*+,;="

/-- The value of a hexadecimal digit of either case. -/
def hexValue? (c : Nat) : Option Nat :=
  if 48 ≤ c ∧ c ≤ 57 then some (c - 48)
  else if 65 ≤ c ∧ c ≤ 70 then some (c - 55)
  else if 97 ≤ c ∧ c ≤ 102 then some (c - 87)
  else none

/-- A hexadecimal digit of either case. -/
def isHexDigit (c : Nat) : Bool := (hexValue? c).isSome

/-- The upper-case hexadecimal digit of a number below 16. -/
def hexUpper (n : Nat) : Nat := if n < 10 then 48 + n else 55 + n

/-- The lower-case hexadecimal digit of a number below 16. -/
def hexLower (n : Nat) : Nat := if n < 10 then 48 + n else 87 + n

/-- The lower-case hexadecimal digits of `n`, padded with zeros to at least `width` digits. -/
def hexPadded (width n : Nat) : Text :=
  let ds := (Nat.toDigits 16 n).map Char.toNat
  List.replicate (width - ds.length) 48 ++ ds

/-- The decimal digits of a natural number. -/
def ofNat (n : Nat) : Text := (Nat.toDigits 10 n).map Char.toNat

/-- The decimal text of an integer, with a leading `-` when negative. -/
def ofInt (n : Int) : Text :=
  match n with
  | .ofNat k => ofNat k
  | .negSucc k => 45 :: ofNat (k + 1)

/-- The pieces between the occurrences of `sep`: one more piece than there are separators. -/
def splitAt (sep : Nat) (t : Text) : List Text := t.splitOn sep

/-- The text before and after the first occurrence of `sep`, if there is one. -/
def splitFirst? (sep : Nat) : Text → Option (Text × Text)
  | [] => none
  | c :: rest =>
    if c = sep then some ([], rest)
    else (splitFirst? sep rest).map fun (a, b) => (c :: a, b)

/-- Joins texts, with `sep` between neighbours. -/
def join (sep : Text) : List Text → Text
  | [] => []
  | [t] => t
  | t :: ts => t ++ sep ++ join sep ts

@[simp] theorem join_nil (sep : Text) : join sep [] = [] := rfl

@[simp] theorem join_singleton (sep t : Text) : join sep [t] = t := rfl

theorem join_cons_cons (sep t u : Text) (ts : List Text) :
    join sep (t :: u :: ts) = t ++ sep ++ join sep (u :: ts) := rfl

example : splitAt 44 (ofString "a,,b") = [ofString "a", [], ofString "b"] := by decide

example : splitFirst? 61 (ofString "a=b=c") = some (ofString "a", ofString "b=c") := by decide

end Text

end Rfc6570
