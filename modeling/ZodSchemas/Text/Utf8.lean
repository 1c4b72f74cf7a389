import ZodSchemas.Text.CodePoint
import ZodSchemas.Text.Identifier

namespace ZodSchemas.Text

/-!
# UTF-8

A half of a surrogate pair is no character, but has bytes by the same rule.  A
text with halves is never written; the name of a file may have those that stand
for one byte each.  Decoding stops at the first byte sequence that is no
character and says which bytes it consists of and what is wrong with it.
-/

/-- The byte that continues a code point with the bits from a place on. -/
def continuation (code place : Nat) : UInt8 :=
  UInt8.ofNat (0x80 + code / place % 64)

/-- The bytes of a code point. -/
def encodeCode (code : Nat) : List UInt8 :=
  if code < 0x80 then [UInt8.ofNat code]
  else if code < 0x800 then [UInt8.ofNat (0xC0 + code / 64), continuation code 1]
  else if code < 0x10000 then
    [UInt8.ofNat (0xE0 + code / 4096), continuation code 64, continuation code 1]
  else
    [UInt8.ofNat (0xF0 + code / 262144), continuation code 4096, continuation code 64,
      continuation code 1]

def encodeUtf8 (text : String) : List UInt8 :=
  (codePoints text).flatMap encodeCode

/-- Whether a half stands for a byte that is no part of a character. -/
def isByteHalf (code : Nat) : Bool :=
  0xDC80 ≤ code && code ≤ 0xDCFF

/-- Whether a text can name a file. -/
def isNameable (text : String) : Bool :=
  (codePoints text).all fun code => !isHalf code || isByteHalf code

/-- The number of bytes of the name of a file. -/
def nameSize (name : String) : Nat :=
  (codePoints name).foldl
    (fun size code => size + (if isByteHalf code then 1 else (encodeCode code).length)) 0

/-- What is wrong with a byte sequence. -/
inductive Utf8Cause where
  | startByte
  | continuationByte
  | endOfData
deriving Repr, DecidableEq

/-- The bytes from `start` below `stop` are no character; `byte` is the first of them. -/
structure Utf8Fault where
  cause : Utf8Cause
  start : Nat
  stop : Nat
  byte : UInt8
deriving Repr, DecidableEq

/-- Whether a byte continues a character. -/
def isContinuation (byte : UInt8) : Bool :=
  0x80 ≤ byte && byte ≤ 0xBF

/-- How many bytes a character takes that starts with a byte. -/
def sequenceLength? (first : UInt8) : Option Nat :=
  if first < 0x80 then some 1
  else if first < 0xC2 then none
  else if first < 0xE0 then some 2
  else if first < 0xF0 then some 3
  else if first < 0xF5 then some 4
  else none

/-- Whether a byte may follow the first byte of a character. -/
def mayFollow (first second : UInt8) : Bool :=
  isContinuation second
    && !(first == 0xE0 && second < 0xA0)
    && !(first == 0xED && 0xA0 ≤ second)
    && !(first == 0xF0 && second < 0x90)
    && !(first == 0xF4 && 0x90 ≤ second)

/-- How many bytes behind the first one continue the character, up to `wanted`. -/
def continuedBy (first : UInt8) (wanted : Nat) (rest : List UInt8) : Nat :=
  match rest.take wanted with
  | [] => 0
  | second :: others =>
      if mayFollow first second then 1 + (others.takeWhile isContinuation).length else 0

/-- The bits a byte contributes to its character. -/
def payload (byte : UInt8) : Nat :=
  if byte < 0x80 then byte.toNat
  else if byte < 0xC0 then byte.toNat % 64
  else if byte < 0xE0 then byte.toNat % 32
  else if byte < 0xF0 then byte.toNat % 16
  else byte.toNat % 8

/-- The character of a complete byte sequence. -/
def charOfSequence (bytes : List UInt8) : Char :=
  Char.ofNat (bytes.foldl (fun value byte => value * 64 + payload byte) 0)

/-- The first character of a byte sequence and the number of its bytes. -/
def decodeChar (position : Nat) (first : UInt8) (rest : List UInt8) :
    Except Utf8Fault (Char × Nat) :=
  match sequenceLength? first with
  | none => .error ⟨.startByte, position, position + 1, first⟩
  | some width =>
      let continued := continuedBy first (width - 1) rest
      if continued = width - 1 then
        .ok (charOfSequence (first :: rest.take continued), width)
      else if continued = rest.length then
        .error ⟨.endOfData, position, position + 1 + continued, first⟩
      else
        .error ⟨.continuationByte, position, position + 1 + continued, first⟩

/-- Decode bytes that start at a position, on top of the reversed characters decoded so far. -/
def decodeUtf8From (position : Nat) (decoded : List Char) :
    List UInt8 → Except Utf8Fault (List Char)
  | [] => .ok decoded.reverse
  | first :: rest =>
      match decodeChar position first rest with
      | .error fault => .error fault
      | .ok (char, width) =>
          decodeUtf8From (position + width) (char :: decoded) (rest.drop (width - 1))
termination_by bytes => bytes.length
decreasing_by
  simp only [List.length_drop, List.length_cons]
  omega

/-- Decode a whole byte sequence. -/
def decodeUtf8 (bytes : List UInt8) : Except Utf8Fault (List Char) :=
  decodeUtf8From 0 [] bytes

def Utf8Cause.message : Utf8Cause → String
  | .startByte => "invalid start byte"
  | .continuationByte => "invalid continuation byte"
  | .endOfData => "unexpected end of data"

/-- The message about bytes that are no character. -/
def Utf8Fault.message (fault : Utf8Fault) : String :=
  let place :=
    if fault.stop = fault.start + 1 then
      "byte 0x" ++ String.ofList (hexDigits 2 fault.byte.toNat)
        ++ " in position " ++ toString fault.start
    else
      "bytes in position " ++ toString fault.start ++ "-" ++ toString (fault.stop - 1)
  "'utf-8' codec can't decode " ++ place ++ ": " ++ fault.cause.message

end ZodSchemas.Text
