/-!
# Decoding UTF-8 with replacement

A text is cut out of a file at byte offsets, so the bytes at hand need not be
well-formed UTF-8: an offset may fall inside a character, and a file may hold any bytes
at all.  `Utf8.decode` reads them anyway: every maximal ill-formed part becomes one
U+FFFD.  A part is maximal when it is the longest start of a well-formed sequence that
stands there, or a single byte that starts none.

The decoder is a machine fed one byte at a time (`Utf8.State.feed`), so decoding is one
pass and recursion on the bytes.
-/

namespace ComponentScan.Utf8

/-- The character that stands for an ill-formed part. -/
def replacement : Char := Char.ofNat 0xFFFD

/-- Where the decoder stands between two bytes. -/
inductive State where
  /-- Between two characters. -/
  | start
  /-- Inside a character: `value` holds the bits read so far, `missing` more bytes have
  to follow, and the next one has to lie between `low` and `high`. -/
  | inside (value missing low high : Nat)

namespace State

/-- The state after the first byte `b` of a character, with the text that is known by
then.  The bounds on the second byte exclude overlong forms, surrogates and values above
U+10FFFF. -/
def lead (b : Nat) : List Char × State :=
  if b < 0x80 then ([Char.ofNat b], .start)
  else if b < 0xC2 then ([replacement], .start)
  else if b < 0xE0 then ([], .inside (b - 0xC0) 1 0x80 0xBF)
  else if b = 0xE0 then ([], .inside 0 2 0xA0 0xBF)
  else if b = 0xED then ([], .inside 0xD 2 0x80 0x9F)
  else if b < 0xF0 then ([], .inside (b - 0xE0) 2 0x80 0xBF)
  else if b = 0xF0 then ([], .inside 0 3 0x90 0xBF)
  else if b < 0xF4 then ([], .inside (b - 0xF0) 3 0x80 0xBF)
  else if b = 0xF4 then ([], .inside 4 3 0x80 0x8F)
  else ([replacement], .start)

/-- One more byte: the text it completes and the state after it.  A byte that cannot
continue the character at hand ends an ill-formed part and is read again as a first
byte. -/
def feed : State → Nat → List Char × State
  | .start, b => lead b
  | .inside value missing low high, b =>
    if low ≤ b ∧ b ≤ high then
      let value := value * 64 + (b - 0x80)
      if missing ≤ 1 then ([Char.ofNat value], .start)
      else ([], .inside value (missing - 1) 0x80 0xBF)
    else
      let (text, state) := lead b
      (replacement :: text, state)

/-- What the end of the bytes adds: an unfinished character is an ill-formed part. -/
def finish : State → List Char
  | .start => []
  | .inside .. => [replacement]

end State

/-- The characters of `bytes`, read from `state` on. -/
def decodeFrom : State → List UInt8 → List Char
  | state, [] => state.finish
  | state, b :: bytes =>
    let (text, state) := state.feed b.toNat
    text ++ decodeFrom state bytes

/-- The text that `bytes` encode, with U+FFFD for every maximal ill-formed part. -/
def decode (bytes : List UInt8) : String :=
  String.ofList (decodeFrom .start bytes)

/-- The bytes that encode `text`. -/
def encode (text : String) : Array UInt8 :=
  text.toUTF8.data

end ComponentScan.Utf8
