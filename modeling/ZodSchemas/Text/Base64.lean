namespace ZodSchemas.Text

/-!
# Base 64

Four characters stand for three bytes.  The decoder passes over characters that
have no value; a group may end early only where padding completes it, and what
follows that padding is not read.
-/

def base64Value? (char : Char) : Option Nat :=
  if 'A' ≤ char ∧ char ≤ 'Z' then some (char.toNat - 65)
  else if 'a' ≤ char ∧ char ≤ 'z' then some (char.toNat - 71)
  else if '0' ≤ char ∧ char ≤ '9' then some (char.toNat + 4)
  else if char = '+' then some 62
  else if char = '/' then some 63
  else none

/-- A character of a group takes its place: the bits left over from the characters before it and
its own make a byte, from the second character on, and some of its bits are left over. -/
def base64Step (place left value : Nat) : List UInt8 × Nat :=
  match place with
  | 0 => ([], value)
  | 1 => ([UInt8.ofNat (left * 4 + value / 16)], value % 16)
  | 2 => ([UInt8.ofNat (left * 16 + value / 4)], value % 4)
  | _ => ([UInt8.ofNat (left * 64 + value)], 0)

/-- Decode from a place of a group on, with bits left over and a number of padding characters
directly before. -/
def decodeBase64From (place left pads : Nat) : List Char → Option (List UInt8)
  | [] => if place = 0 then some [] else none
  | char :: rest =>
      if char = '=' then
        if place < 2 then decodeBase64From place left pads rest
        else if place + pads < 3 then decodeBase64From place left (pads + 1) rest
        else some []
      else
        match base64Value? char with
        | none => decodeBase64From place left pads rest
        | some value =>
            let (bytes, left) := base64Step place left value
            (decodeBase64From ((place + 1) % 4) left 0 rest).map (bytes ++ ·)

def decodeBase64? (chars : List Char) : Option (List UInt8) :=
  decodeBase64From 0 0 0 chars

end ZodSchemas.Text
