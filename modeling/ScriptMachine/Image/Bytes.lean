import ScriptMachine.Number.Reading
import ScriptMachine.Source.Basic
import ScriptMachine.Text.Quoted

/-!
# Bytes of an image

Numbers are written in groups of seven bits, the lowest first, with the top bit of a byte telling
that another follows. Numbers with a sign alternate between the signs, texts have their length in
front, and floating-point numbers take eight bytes, the lowest first. Bytes are shown as pairs of
hexadecimal digits, the high one first.

A reader holds the bytes that are left and the offset of the first of them. A failed operation
leaves it where the failure was noticed. Every element takes at least one byte, so a count that is
larger than the rest of the bytes ends in a failure.
-/

namespace ScriptMachine

/-- Why bytes are no image, or an image does not fit the host. -/
inductive ImageError where
  | invalidHeader
  | unsupportedVersion (version : Nat)
  | unexpectedEof (offset : Nat)
  | invalidUtf8 (offset : Nat)
  | invalidVarint (offset : Nat)
  | unknownDiscriminator (kind : String) (value offset : Nat)
  | malformedNamespaceTable (detail : String)
  | invalidJumpTarget (index target : Nat)
  | unresolvedType (name : String)
  | unresolvedFunction (signature : String)
  | trailingBytes (count : Nat)
deriving DecidableEq, Repr

/-- The name of the kind of an error. -/
def ImageError.kind : ImageError → String
  | .invalidHeader => "InvalidHeader"
  | .unsupportedVersion _ => "UnsupportedVersion"
  | .unexpectedEof _ => "UnexpectedEof"
  | .invalidUtf8 _ => "InvalidUtf8"
  | .invalidVarint _ => "InvalidVarint"
  | .unknownDiscriminator _ _ _ => "UnknownDiscriminator"
  | .malformedNamespaceTable _ => "MalformedNamespaceTable"
  | .invalidJumpTarget _ _ => "InvalidJumpTarget"
  | .unresolvedType _ => "UnresolvedType"
  | .unresolvedFunction _ => "UnresolvedFunction"
  | .trailingBytes _ => "TrailingBytes"

def ImageError.message : ImageError → String
  | .invalidHeader => "invalid image header"
  | .unsupportedVersion version => "unsupported image version " ++ toString version
  | .unexpectedEof offset => "unexpected end of image at byte " ++ toString offset
  | .invalidUtf8 offset => "invalid utf-8 sequence at byte " ++ toString offset
  | .invalidVarint offset => "invalid varint at byte " ++ toString offset
  | .unknownDiscriminator kind value offset =>
      "unknown " ++ kind ++ " discriminator " ++ toString value ++ " at byte " ++ toString offset
  | .malformedNamespaceTable detail => "malformed namespace table: " ++ detail
  | .invalidJumpTarget index target =>
      "instruction " ++ toString index ++ " jumps to " ++ toString target ++ " outside the program"
  | .unresolvedType name => "type '" ++ name ++ "' does not resolve against the host registry"
  | .unresolvedFunction signature =>
      "host function '" ++ signature ++ "' does not resolve against the host registry"
  | .trailingBytes count => toString count ++ " trailing bytes after image"

/-- A piece of an image. -/
abbrev Bytes := List UInt8

namespace Bytes

def byte (value : Nat) : Bytes := [UInt8.ofNat value]

/-- A natural number in groups of seven bits. -/
def varint (value : Nat) : Bytes :=
  if value < 128 then [UInt8.ofNat value]
  else UInt8.ofNat (value % 128 + 128) :: varint (value / 128)
termination_by value
decreasing_by omega

def flag (value : Bool) : Bytes := byte (if value then 1 else 0)

/-- The place of an integer in the sequence zero, minus one, one, minus two, and so on. -/
def alternate (value : Int) : Nat := if 0 ≤ value then 2 * value.toNat else 2 * (-value).toNat - 1

/-- The integer at a place of the same sequence. -/
def unalternate (place : Nat) : Int :=
  if place % 2 = 0 then ((place / 2 : Nat) : Int) else -((place / 2 : Nat) : Int) - 1

def zigzag (value : Int64) : Bytes := varint (alternate value.toInt)

/-- The bytes of a number, the lowest first. -/
def littleEndian : Nat → Nat → Bytes
  | 0, _ => []
  | count + 1, value => UInt8.ofNat (value % 256) :: littleEndian count (value / 256)

/-- The number that some bytes are, the lowest first. -/
def fromLittleEndian : Bytes → Nat
  | [] => 0
  | lowest :: rest => lowest.toNat + 256 * fromLittleEndian rest

def binary64 (value : Binary64) : Bytes := littleEndian 8 value.word

def text (value : String) : Bytes :=
  let encoded := value.toUTF8.toList
  varint encoded.length ++ encoded

def texts (values : List String) : Bytes := varint values.length ++ values.flatMap text

/-- Two digits for each byte. -/
def toHex (bytes : Bytes) : String :=
  .ofList (bytes.flatMap fun byte =>
    [Text.hexDigit (byte.toNat / 16), Text.hexDigit (byte.toNat % 16)])

/-- The bytes of pairs of digits; what is no digit counts as zero. -/
def ofDigits : List Char → Bytes
  | high :: low :: rest =>
      UInt8.ofNat ((Reading.hexDigit? high).getD 0 * 16 + (Reading.hexDigit? low).getD 0) ::
        ofDigits rest
  | _ => []

def ofHex (digits : String) : Bytes := ofDigits digits.toList

end Bytes

/-- A place in some bytes. -/
structure ByteReader where
  rest : Bytes
  offset : Nat

/-- An operation of a reader. -/
abbrev Read := ExceptT ImageError (StateM ByteReader)

namespace ByteReader

def ofBytes (bytes : Bytes) : ByteReader := ⟨bytes, 0⟩

def remaining (reader : ByteReader) : Nat := reader.rest.length

/-- How many bytes there are, those behind the reader included. -/
def total (reader : ByteReader) : Nat := reader.offset + reader.rest.length

end ByteReader

namespace Read

/-- The first so many bytes and the rest, if there are enough. -/
def split? : Nat → Bytes → Option (Bytes × Bytes)
  | 0, rest => some ([], rest)
  | _ + 1, [] => none
  | count + 1, first :: rest =>
      (split? count rest).map fun (taken, rest) => (first :: taken, rest)

/-- Takes so many bytes, or none if there are fewer. -/
def raw (count : Nat) : Read Bytes := ExceptT.mk fun reader =>
  match split? count reader.rest with
  | some (taken, rest) => (.ok taken, ⟨rest, reader.offset + count⟩)
  | none => (.error (.unexpectedEof reader.total), reader)

def offset : Read Nat := return (← get).offset

def remaining : Read Nat := return (← get).remaining

def byte : Read UInt8 := ExceptT.mk fun reader =>
  match reader.rest with
  | first :: rest => (.ok first, ⟨rest, reader.offset + 1⟩)
  | [] => (.error (.unexpectedEof reader.total), reader)

def flag : Read Bool := do
  let start ← offset
  let value ← byte
  if value = 0 then return false
  if value = 1 then return true
  throw (.unknownDiscriminator "flag" value.toNat start)

/-- Reads at most so many groups of seven bits on top of the bits below `shift`. Bits from the
sixty-fourth on have no place. -/
def groups (start : Nat) : Nat → Nat → Nat → Read Nat
  | 0, _, _ => throw (.invalidVarint start)
  | bound + 1, shift, low => do
      let group ← byte
      let value := (low + group.toNat % 128 * twoTo shift) % twoTo 64
      if group.toNat < 128 then return value
      groups start bound (shift + 7) value

/-- A natural number of at most ten groups. -/
def varint : Read Nat := do
  groups (← offset) 10 0 0

/-- A natural number of 32 bits. -/
def word32 : Read Nat := do
  let start ← offset
  let value ← varint
  if value < twoTo 32 then return value
  throw (.invalidVarint start)

def zigzag : Read Int64 := return Int64.ofInt (Bytes.unalternate (← varint))

def binary64 : Read Binary64 := return ⟨UInt64.ofNat (Bytes.fromLittleEndian (← raw 8))⟩

def text : Read String := do
  let length ← varint
  let start ← offset
  let bytes ← raw length
  match String.fromUTF8? (ByteArray.mk bytes.toArray) with
  | some value => return value
  | none => throw (.invalidUtf8 start)

/-- Reads so many elements. -/
def many {α : Type} (element : Read α) : Nat → Read (List α)
  | 0 => return []
  | count + 1 => do
      let first ← element
      let rest ← many element count
      return first :: rest

/-- Reads elements with their number in front. -/
def counted {α : Type} (element : Read α) : Read (List α) := do
  many element (← varint)

def texts : Read (List String) := counted text

end Read

end ScriptMachine
