/-! # UTF-8

A text as its bytes, and bytes read back with a replacement character for whatever is not UTF-8.

* `Utf8.encode` writes every character in one to four bytes.
* `Utf8.decodeLossy` reads any bytes: each maximal part that starts a character and cannot be
  finished becomes one U+FFFD, and so does each byte that starts nothing.
-/

namespace ReplicaRouter.Utf8

/-- The bytes of a text. -/
def encode (s : String) : List UInt8 :=
  s.toList.flatMap String.utf8EncodeChar

/-- The character that stands for bytes that are not UTF-8. -/
def replacement : Char := '\uFFFD'

/-- A character begun and not finished: the bits read so far, the number of bytes still owed
(at least one), and the bounds of the next one. -/
structure Partial where
  bits : Nat
  owed : Nat
  low : UInt8 := 0x80
  high : UInt8 := 0xBF
deriving Repr, DecidableEq

/-- The reading of a byte between characters: what it writes and what it begins. Bytes `0x80` to
`0xC1` and those above `0xF4` begin nothing. The second byte is bounded more narrowly after
`0xE0` and `0xF0` (the short form must be used), `0xED` (no surrogates) and `0xF4` (nothing above
U+10FFFF). -/
def lead (b : UInt8) : List Char × Option Partial :=
  let n := b.toNat
  if n < 0x80 then ([Char.ofNat n], none)
  else if n < 0xC2 then ([replacement], none)
  else if n < 0xE0 then ([], some { bits := n - 0xC0, owed := 1 })
  else if n = 0xE0 then ([], some { bits := 0, owed := 2, low := 0xA0 })
  else if n = 0xED then ([], some { bits := 0xD, owed := 2, high := 0x9F })
  else if n < 0xF0 then ([], some { bits := n - 0xE0, owed := 2 })
  else if n = 0xF0 then ([], some { bits := 0, owed := 3, low := 0x90 })
  else if n < 0xF4 then ([], some { bits := n - 0xF0, owed := 3 })
  else if n = 0xF4 then ([], some { bits := 4, owed := 3, high := 0x8F })
  else ([replacement], none)

/-- The reading of one byte. A byte that does not continue the begun character closes that
character with one replacement and is then read as the first byte of the next. -/
def step : Option Partial → UInt8 → List Char × Option Partial
  | none, b => lead b
  | some p, b =>
    if p.low ≤ b ∧ b ≤ p.high then
      let bits := p.bits * 64 + (b.toNat - 0x80)
      if p.owed ≤ 1 then ([Char.ofNat bits], none)
      else ([], some { bits, owed := p.owed - 1 })
    else
      let (out, begun) := lead b
      (replacement :: out, begun)

/-- The characters read from a character begun and the bytes after it. -/
def decodeFrom : Option Partial → List UInt8 → List Char
  | none, [] => []
  | some _, [] => [replacement]
  | begun, b :: rest =>
    let (out, next) := step begun b
    out ++ decodeFrom next rest

/-- The text of any bytes. -/
def decodeLossy (bytes : List UInt8) : String :=
  String.ofList (decodeFrom none bytes)

@[simp] theorem encode_append (s t : String) : encode (s ++ t) = encode s ++ encode t := by
  simp [encode]

end ReplicaRouter.Utf8
