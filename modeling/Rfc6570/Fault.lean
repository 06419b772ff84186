import Rfc6570.Value.Basic
import Rfc6570.Text.Utf8
import Rfc6570.Text.Quoted
import Rfc6570.Number.IntLiteral

/-!
# Rfc6570 — faults

Every way reading a template or expanding it can fail, as data. A fault has a class (a lookup,
a bad value, a value of the wrong kind, an index out of range, a text with no UTF-8 form,
bytes that are not UTF-8, a missing attribute) and a message; both are fixed by the fault.
-/

namespace Rfc6570

/-- Why an operation failed. -/
inductive Fault where
  /-- An expression with no text at all. -/
  | emptyExpression
  /-- A text, such as a prefix length, that is not a decimal integer literal. -/
  | badInteger (text : Text) (why : IntLiteral.Fault)
  /-- A text that is not a floating-point literal. -/
  | badFloat (text : Text)
  /-- An integer with too many digits to be written. -/
  | integerTooLong
  /-- A prefix length applied to a value that cannot be cut. -/
  | notSubscriptable (kind : Kind)
  /-- Two values that the operator `op` cannot order; the names of their kinds are given. -/
  | unordered (op : String) (left right : String)
  /-- A text with surrogate code points, which UTF-8 cannot hold. -/
  | unencodable (text : Text) (why : Utf8.EncodeFault)
  /-- Bytes that are not UTF-8. -/
  | undecodable (why : Utf8.DecodeFault)
  /-- A value whose items were asked for, but that has none. -/
  | notIterable (kind : Kind)
  /-- An entry of a sequence turned into a dictionary that is not a pair. -/
  | entryLength (index length : Nat)
  /-- An entry of a sequence turned into a dictionary that is not a sequence. -/
  | entryNotSequence (index : Nat)
  /-- A value that cannot be a key or a member of a set. -/
  | unhashable (kind : Kind)
  /-- A template that is not a text. -/
  | templateNotText (kind : Kind)
  /-- A key that is not there; its quoted form is given. -/
  | missingKey (shown : Text)
  /-- A value asked for an attribute that its kind does not have. -/
  | noAttribute (kind : Kind) (field : String)
  /-- An index past the end of a list. -/
  | indexOutOfRange
  /-- A sequence repeated a number of times that is not an integer. -/
  | repeatNotInteger (kind : Kind)
  /-- An operator applied to operands of kinds it does not take; the names of the kinds are
  given. -/
  | unsupportedOperands (op : String) (left right : String)
  /-- A list or tuple joined to a text. -/
  | joinedToSequence (kind : Kind)
  /-- A byte string joined to a text. -/
  | joinedToBytes
  /-- A keyword binding that names one of the called function's own parameters. -/
  | argumentTwice (function : String) (argument : Text)
  /-- Keyword bindings given as a value that is not a dictionary; the function's full name and
  the kind given are named. -/
  | bindingsNotMapping (function : String) (kind : Kind)
  /-- A count that is not an integer. -/
  | notAnInteger (kind : Kind)
  /-- A workload name that names no workload. -/
  | noWorkload (name : Text)
  /-- A workload given a parameter it does not have. -/
  | unexpectedParameter (workload : Text) (parameter : Text)
  /-- A slice bound that is not an integer. -/
  | sliceIndex
  /-- Keyword bindings of which some name is not a text. -/
  | parameterNotText
deriving Repr

namespace Fault

open Text

/-- The class of a fault, by its conventional name. -/
def className : Fault → String
  | .emptyExpression | .indexOutOfRange => "IndexError"
  | .badInteger .. | .badFloat _ | .integerTooLong | .entryLength .. => "ValueError"
  | .notSubscriptable _ | .unordered .. | .notIterable _ | .entryNotSequence _ | .unhashable _
  | .templateNotText _ | .repeatNotInteger _ | .unsupportedOperands .. | .notAnInteger _
  | .joinedToSequence _ | .joinedToBytes | .argumentTwice .. | .bindingsNotMapping ..
  | .unexpectedParameter .. | .sliceIndex | .parameterNotText =>
    "TypeError"
  | .unencodable .. => "UnicodeEncodeError"
  | .undecodable _ => "UnicodeDecodeError"
  | .missingKey _ => "KeyError"
  | .noAttribute .. | .noWorkload _ => "AttributeError"

/-- The name of a kind between single quotes. -/
def quotedName (s : String) : Text := ofString ("'" ++ s ++ "'")

/-- The message of the integer digit limit. -/
def digitLimitText (detail : Text) : Text :=
  ofString "Exceeds the limit (4300 digits) for integer string conversion" ++ detail ++
    ofString "; use sys.set_int_max_str_digits() to increase the limit"

/-- A position or an inclusive range of positions. -/
def positions (start stop : Nat) : Text :=
  if stop = start + 1 then ofString "in position " ++ ofNat start
  else ofString "in position " ++ ofNat start ++ [45] ++ ofNat (stop - 1)

/-- The words for why bytes are not UTF-8. -/
def decodeReason : Utf8.DecodeReason → Text
  | .invalidStart => ofString "invalid start byte"
  | .invalidContinuation => ofString "invalid continuation byte"
  | .unexpectedEnd => ofString "unexpected end of data"

/-- The message of a fault. -/
def message : Fault → Text
  | .emptyExpression => ofString "string index out of range"
  | .indexOutOfRange => ofString "list index out of range"
  | .badInteger t .invalid =>
    ofString "invalid literal for int() with base 10: " ++ (quoted t).take 200
  | .badInteger _ (.tooManyDigits n) => digitLimitText (ofString ": value has " ++ ofNat n ++ ofString " digits")
  | .badFloat t => ofString "could not convert string to float: " ++ quoted t
  | .integerTooLong => digitLimitText []
  | .notSubscriptable k => quotedName k.name ++ ofString " object is not subscriptable"
  | .unordered op a b =>
    quotedName op ++ ofString " not supported between instances of " ++ quotedName a ++
      ofString " and " ++ quotedName b
  | .unencodable _ f =>
    ofString "'utf-8' codec can't encode " ++
      (if f.stop = f.start + 1 then ofString "character '" ++ hexEscape f.first ++ ofString "' "
       else ofString "characters ") ++
      positions f.start f.stop ++ ofString ": surrogates not allowed"
  | .undecodable f =>
    ofString "'utf-8' codec can't decode " ++
      (if f.stop = f.start + 1 then ofString "byte 0x" ++ hexPadded 2 f.first.toNat ++ ofString " "
       else ofString "bytes ") ++
      positions f.start f.stop ++ ofString ": " ++ decodeReason f.reason
  | .notIterable k => quotedName k.name ++ ofString " object is not iterable"
  | .entryLength i n =>
    ofString "dictionary update sequence element #" ++ ofNat i ++ ofString " has length " ++
      ofNat n ++ ofString "; 2 is required"
  | .entryNotSequence i =>
    ofString "cannot convert dictionary update sequence element #" ++ ofNat i ++
      ofString " to a sequence"
  | .unhashable k => ofString "unhashable type: " ++ quotedName k.name
  | .templateNotText .bytes => ofString "cannot use a string pattern on a bytes-like object"
  | .templateNotText k => ofString "expected string or bytes-like object, got " ++ quotedName k.name
  | .missingKey shown => shown
  | .noAttribute k a => quotedName k.name ++ ofString " object has no attribute " ++ quotedName a
  | .repeatNotInteger k => ofString "can't multiply sequence by non-int of type " ++ quotedName k.name
  | .unsupportedOperands op a b =>
    ofString ("unsupported operand type(s) for " ++ op ++ ": ") ++ quotedName a ++ ofString " and " ++
      quotedName b
  | .joinedToSequence k =>
    ofString ("can only concatenate " ++ k.name ++ " (not \"str\") to " ++ k.name)
  | .joinedToBytes => ofString "can't concat str to bytes"
  | .argumentTwice f a => ofString (f ++ "() got multiple values for argument '") ++ a ++ [39]
  | .bindingsNotMapping f k =>
    ofString (f ++ "() argument after ** must be a mapping, not " ++ k.name)
  | .notAnInteger k => quotedName k.name ++ ofString " object cannot be interpreted as an integer"
  | .noWorkload n => ofString "module 'microbench' has no attribute 'bench_" ++ n ++ [39]
  | .unexpectedParameter w p =>
    ofString "bench_" ++ w ++ ofString "() got an unexpected keyword argument '" ++ p ++ [39]
  | .sliceIndex => ofString "slice indices must be integers or None or have an __index__ method"
  | .parameterNotText => ofString "keywords must be strings"

example : (Fault.badInteger (ofString "a:b") .invalid).message =
    ofString "invalid literal for int() with base 10: 'a:b'" := by decide
example : (Fault.undecodable ⟨0, 1, 0xFF, .invalidStart⟩).message =
    ofString "'utf-8' codec can't decode byte 0xff in position 0: invalid start byte" := by decide
example : (Fault.unencodable [0xD800] ⟨0, 1, 0xD800⟩).message =
    ofString "'utf-8' codec can't encode character '\\ud800' in position 0: surrogates not allowed" := by
  decide

end Fault

end Rfc6570
