import Rfc6570.Text.Basic

/-!
# Rfc6570 — UTF-8, strictly

`Utf8.encode` writes a text as UTF-8 and refuses surrogate code points; `Utf8.decode` reads
bytes back and refuses every ill-formed sequence. Both report the first fault as data: where
it starts, where it stops, and why, so that a caller can word the error.

The decoder takes the well-formed sequences of RFC 3629 §4 and, on a fault, reports the range
a strict decoder blames: a bad first byte alone; a sequence cut short by a bad continuation
byte up to that byte (that byte excluded); a sequence cut short by the end of the input up to
the end.
-/

namespace Rfc6570.Utf8

/-- The UTF-8 bytes of a code point that is not a surrogate. -/
def encodePoint (c : Nat) : List UInt8 :=
  if c < 0x80 then [c.toUInt8]
  else if c < 0x800 then [(0xC0 + c / 64).toUInt8, (0x80 + c % 64).toUInt8]
  else if c < 0x10000 then
    [(0xE0 + c / 4096).toUInt8, (0x80 + c / 64 % 64).toUInt8, (0x80 + c % 64).toUInt8]
  else
    [(0xF0 + c / 262144).toUInt8, (0x80 + c / 4096 % 64).toUInt8,
      (0x80 + c / 64 % 64).toUInt8, (0x80 + c % 64).toUInt8]

/-- A surrogate code point, which UTF-8 cannot hold. -/
def isSurrogate (c : Nat) : Bool := 0xD800 ≤ c && c ≤ 0xDFFF

/-- Why a text has no UTF-8 form: the run of surrogates from position `start` up to `stop`
(exclusive), whose first code point is `first`. -/
structure EncodeFault where
  /-- The position of the first surrogate of the run. -/
  start : Nat
  /-- The position just past the run. -/
  stop : Nat
  /-- The first surrogate of the run. -/
  first : Nat
deriving DecidableEq, Repr

/-- The number of leading surrogates of a text. -/
def surrogateRun (t : Text) : Nat := (t.takeWhile isSurrogate).length

/-- The UTF-8 bytes of a text, or the first run of surrogates, counted from position `pos`. -/
def encodeFrom (pos : Nat) : Text → Except EncodeFault (List UInt8)
  | [] => .ok []
  | c :: rest =>
    if isSurrogate c then .error ⟨pos, pos + surrogateRun (c :: rest), c⟩
    else (encodeFrom (pos + 1) rest).map (encodePoint c ++ ·)

/-- The UTF-8 bytes of a text, or the first run of surrogate code points in it. -/
def encode (t : Text) : Except EncodeFault (List UInt8) := encodeFrom 0 t

/-- Why a byte sequence is not UTF-8. -/
inductive DecodeReason where
  /-- A byte that cannot begin a sequence. -/
  | invalidStart
  /-- A byte that cannot continue the sequence begun before it. -/
  | invalidContinuation
  /-- The input ends inside a sequence. -/
  | unexpectedEnd
deriving DecidableEq, Repr

/-- Where and why decoding failed: the bytes from `start` up to `stop` (exclusive), the first
of which is `first`. -/
structure DecodeFault where
  /-- The position of the first byte blamed. -/
  start : Nat
  /-- The position just past the bytes blamed. -/
  stop : Nat
  /-- The first byte blamed. -/
  first : UInt8
  /-- Why the bytes are refused. -/
  reason : DecodeReason
deriving DecidableEq, Repr

/-- The least and greatest second byte allowed after a first byte of three or four bytes:
this excludes over-long forms, surrogates and code points above U+10FFFF. -/
def secondRange (b : Nat) : Nat × Nat :=
  if b = 0xE0 then (0xA0, 0xBF)
  else if b = 0xED then (0x80, 0x9F)
  else if b = 0xF0 then (0x90, 0xBF)
  else if b = 0xF4 then (0x80, 0x8F)
  else (0x80, 0xBF)

/-- A sequence begun but not finished: where it began, its first byte, the bits read so far,
how many bytes it still needs, and the range the next byte must lie in. -/
structure Pending where
  /-- The position of the first byte. -/
  start : Nat
  /-- The first byte. -/
  first : Nat
  /-- The bits of the code point read so far. -/
  bits : Nat
  /-- How many continuation bytes are still needed. -/
  need : Nat
  /-- The least byte allowed next. -/
  lo : Nat
  /-- The greatest byte allowed next. -/
  hi : Nat

/-- The sequence that a first byte `b` at position `pos` begins, if it needs continuation bytes;
`.ok none` for a byte that stands alone, an error for one that cannot begin a sequence. -/
def begin (pos b : Nat) : Except DecodeFault (Option Pending) :=
  let (lo, hi) := secondRange b
  if b < 0x80 then .ok none
  else if 0xC2 ≤ b ∧ b ≤ 0xDF then .ok (some ⟨pos, b, b - 0xC0, 1, lo, hi⟩)
  else if 0xE0 ≤ b ∧ b ≤ 0xEF then .ok (some ⟨pos, b, b - 0xE0, 2, lo, hi⟩)
  else if 0xF0 ≤ b ∧ b ≤ 0xF4 then .ok (some ⟨pos, b, b - 0xF0, 3, lo, hi⟩)
  else .error ⟨pos, pos + 1, b.toUInt8, .invalidStart⟩

/-- Decodes bytes given as numbers, from position `pos`, inside the sequence `open?` if any. -/
def decodeFrom (pos : Nat) : Option Pending → List Nat → Except DecodeFault Text
  | none, [] => .ok []
  | some p, [] => .error ⟨p.start, pos, p.first.toUInt8, .unexpectedEnd⟩
  | none, b :: rest =>
    match begin pos b with
    | .error e => .error e
    | .ok none => (decodeFrom (pos + 1) none rest).map (b :: ·)
    | .ok (some p) => decodeFrom (pos + 1) (some p) rest
  | some p, b :: rest =>
    if p.lo ≤ b ∧ b ≤ p.hi then
      let bits := p.bits * 64 + (b - 0x80)
      if p.need ≤ 1 then (decodeFrom (pos + 1) none rest).map (bits :: ·)
      else decodeFrom (pos + 1) (some { p with bits, need := p.need - 1, lo := 0x80, hi := 0xBF }) rest
    else .error ⟨p.start, pos, p.first.toUInt8, .invalidContinuation⟩

/-- The text that a byte sequence encodes in UTF-8, or the first fault in it. -/
def decode (bs : List UInt8) : Except DecodeFault Text := decodeFrom 0 none (bs.map UInt8.toNat)

example : encode [0x61, 0xE9] = .ok [0x61, 0xC3, 0xA9] := rfl
example : encode [0x61, 0xD800, 0xDC00, 0x62] = .error ⟨1, 3, 0xD800⟩ := rfl
example : decode [0x61, 0xC3, 0xA9] = .ok [0x61, 0xE9] := rfl
example : decode [0xFF] = .error ⟨0, 1, 0xFF, .invalidStart⟩ := rfl
example : decode [0xC3] = .error ⟨0, 1, 0xC3, .unexpectedEnd⟩ := rfl
example : decode [0xE2, 0x82, 0x41] = .error ⟨0, 2, 0xE2, .invalidContinuation⟩ := rfl
example : decode [0xED, 0xA0, 0x80] = .error ⟨0, 1, 0xED, .invalidContinuation⟩ := rfl

end Rfc6570.Utf8
