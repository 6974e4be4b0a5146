set_option autoImplicit false

/-! # Decoding bytes

A field's bytes become text all or nothing: one malformed sequence and there is no text. A byte
order mark at the start decides for UTF-8 or UTF-16 whatever the encoding is, and is not part of the
text.

`decodeUtf8?` admits exactly the well-formed sequences: shortest forms only, no surrogates, nothing
above U+10FFFF. An encoding comes with its decoder, which may be any (`Decoder`), so what is said of
encodings holds for those too whose tables are kept elsewhere. -/

namespace TabularView

/-- Bytes as they come from a file. -/
abbrev Bytes := List UInt8

namespace Encoding

/-! ## UTF-8 -/

/-- A byte that continues a sequence. -/
def isTail (b : UInt8) : Bool :=
  0x80 ≤ b && b ≤ 0xBF

/-- The six bits of a byte that continues a sequence. -/
def tailBits (b : UInt8) : Nat :=
  b.toNat % 64

/-- The least and the greatest second byte after the first byte of a three-byte sequence. -/
def secondOfThree (a : UInt8) : UInt8 × UInt8 :=
  if a = 0xE0 then (0xA0, 0xBF) else if a = 0xED then (0x80, 0x9F) else (0x80, 0xBF)

/-- The least and the greatest second byte after the first byte of a four-byte sequence. -/
def secondOfFour (a : UInt8) : UInt8 × UInt8 :=
  if a = 0xF0 then (0x90, 0xBF) else if a = 0xF4 then (0x80, 0x8F) else (0x80, 0xBF)

/-- The first character of a byte sequence and how many bytes it takes. -/
def firstUtf8? : Bytes → Option (Char × Nat)
  | [] => none
  | a :: rest =>
    if a < 0x80 then some (Char.ofNat a.toNat, 1)
    else if a < 0xC2 then none
    else if a < 0xE0 then
      match rest with
      | b :: _ =>
        if isTail b then some (Char.ofNat (a.toNat % 32 * 64 + tailBits b), 2) else none
      | _ => none
    else if a < 0xF0 then
      match rest with
      | b :: c :: _ =>
        let (least, greatest) := secondOfThree a
        if least ≤ b ∧ b ≤ greatest ∧ isTail c then
          some (Char.ofNat ((a.toNat % 16 * 64 + tailBits b) * 64 + tailBits c), 3)
        else none
      | _ => none
    else if a < 0xF5 then
      match rest with
      | b :: c :: d :: _ =>
        let (least, greatest) := secondOfFour a
        if least ≤ b ∧ b ≤ greatest ∧ isTail c ∧ isTail d then
          some (Char.ofNat
            (((a.toNat % 8 * 64 + tailBits b) * 64 + tailBits c) * 64 + tailBits d), 4)
        else none
      | _ => none
    else none

/-- The characters of a well-formed byte sequence, of which the first `skip` bytes have been read
already. -/
def decodeUtf8From : Nat → Bytes → Option (List Char)
  | _, [] => some []
  | skip + 1, _ :: rest => decodeUtf8From skip rest
  | 0, a :: rest =>
    match firstUtf8? (a :: rest) with
    | none => none
    | some (c, width) => (decodeUtf8From (width - 1) rest).map (c :: ·)

/-- The characters of a well-formed UTF-8 byte sequence. -/
def decodeUtf8? (bytes : Bytes) : Option (List Char) :=
  decodeUtf8From 0 bytes

/-! ## UTF-16 -/

/-- The code units of a byte sequence of even length. -/
def units? (bigEndian : Bool) : Bytes → Option (List Nat)
  | [] => some []
  | [_] => none
  | a :: b :: rest =>
    let unit := if bigEndian then a.toNat * 256 + b.toNat else b.toNat * 256 + a.toNat
    (units? bigEndian rest).map (unit :: ·)

/-- The first half of a pair of code units. -/
def isHighSurrogate (u : Nat) : Bool :=
  0xD800 ≤ u && u ≤ 0xDBFF

/-- The second half of a pair of code units. -/
def isLowSurrogate (u : Nat) : Bool :=
  0xDC00 ≤ u && u ≤ 0xDFFF

/-- The character of a pair of code units. -/
def ofSurrogates (high low : Nat) : Char :=
  Char.ofNat (0x10000 + (high - 0xD800) * 0x400 + (low - 0xDC00))

/-- The characters of a sequence of code units in which halves come in pairs. -/
def ofUnits? : List Nat → Option (List Char)
  | [] => some []
  | [u] => if isHighSurrogate u || isLowSurrogate u then none else some [Char.ofNat u]
  | u :: v :: rest =>
    if isLowSurrogate u then none
    else if isHighSurrogate u then
      if isLowSurrogate v then (ofUnits? rest).map (ofSurrogates u v :: ·) else none
    else (ofUnits? (v :: rest)).map (Char.ofNat u :: ·)

/-! ## One byte, one character -/

/-- The characters of the bytes 0x80 to 0x9F in windows-1252. -/
def windows1252Controls : List Nat :=
  [
    0x20AC, 0x0081, 0x201A, 0x0192, 0x201E, 0x2026, 0x2020, 0x2021, 0x02C6, 0x2030, 0x0160, 0x2039,
    0x0152, 0x008D, 0x017D, 0x008F, 0x0090, 0x2018, 0x2019, 0x201C, 0x201D, 0x2022, 0x2013, 0x2014,
    0x02DC, 0x2122, 0x0161, 0x203A, 0x0153, 0x009D, 0x017E, 0x0178]

/-- The character of a byte in windows-1252. -/
def ofWindows1252 (b : UInt8) : Char :=
  if 0x80 ≤ b ∧ b ≤ 0x9F then Char.ofNat ((windows1252Controls[b.toNat - 0x80]?).getD 0)
  else Char.ofNat b.toNat

/-- The character of a byte in x-user-defined: the upper half lies in the private use area. -/
def ofUserDefined (b : UInt8) : Char :=
  if b < 0x80 then Char.ofNat b.toNat else Char.ofNat (0xF780 + (b.toNat - 0x80))

/-- A byte that all encodings with tables of their own read as the same character: one below 128,
but none of the three that ISO-2022-JP keeps for shifts between tables. -/
def isShared (b : UInt8) : Bool :=
  b < 0x80 && b != 0x0E && b != 0x0F && b != 0x1B

/-- The characters of shared bytes. -/
def ofShared? (bytes : Bytes) : Option (List Char) :=
  if bytes.all isShared then some (bytes.map fun b => Char.ofNat b.toNat) else none

end Encoding

/-! ## Decoders -/

/-- A way to read bytes as characters, if all of them can be read. Without bytes there is nothing
that could not be. -/
structure Decoder where
  chars? : Bytes → Option (List Char)
  chars?_nil : chars? [] = some []

namespace Decoder

/-- Reads UTF-8. -/
def utf8 : Decoder where
  chars? := Encoding.decodeUtf8?
  chars?_nil := rfl

/-- Reads UTF-16. -/
def utf16 (bigEndian : Bool) : Decoder where
  chars? bytes := (Encoding.units? bigEndian bytes).bind Encoding.ofUnits?
  chars?_nil := rfl

/-- Reads windows-1252. -/
def windows1252 : Decoder where
  chars? bytes := some (bytes.map Encoding.ofWindows1252)
  chars?_nil := rfl

/-- Reads x-user-defined. -/
def userDefined : Decoder where
  chars? bytes := some (bytes.map Encoding.ofUserDefined)
  chars?_nil := rfl

/-- Stands for encodings that are not safe to read, and has no text but the empty one. -/
def replacement : Decoder where
  chars? bytes := if bytes = [] then some [] else none
  chars?_nil := rfl

/-- Reads what all encodings with tables of their own have in common, and refuses the rest. -/
def shared : Decoder where
  chars? := Encoding.ofShared?
  chars?_nil := rfl

end Decoder

/-! ## Encodings -/

/-- An encoding: its canonical name and how its bytes are read where no mark says otherwise. -/
structure Encoding where
  name : String
  decoder : Decoder

namespace Encoding

/-- The encoding of texts that say nothing else. -/
def utf8 : Encoding := ⟨"UTF-8", .utf8⟩

/-- The decoder that a byte order mark asks for, and the bytes after the mark. -/
def byteOrderMark? : Bytes → Option (Decoder × Bytes)
  | 0xEF :: 0xBB :: 0xBF :: rest => some (.utf8, rest)
  | 0xFF :: 0xFE :: rest => some (.utf16 false, rest)
  | 0xFE :: 0xFF :: rest => some (.utf16 true, rest)
  | _ => none

/-- The text of a byte sequence, if all of it can be decoded. -/
def decode? (e : Encoding) (bytes : Bytes) : Option String :=
  match byteOrderMark? bytes with
  | some (decoder, rest) => (decoder.chars? rest).map String.ofList
  | none => (e.decoder.chars? bytes).map String.ofList

end Encoding

end TabularView
