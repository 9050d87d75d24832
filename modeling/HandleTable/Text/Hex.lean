/-!
# Hexadecimal text

Bytes are written as two lower case digits each, most significant first.
`ofNat` writes a number without leading zeros, and `padded` fills a number up
to a width.
-/

namespace HandleTable.Text.Hex

/-- The lower case digit of a number below sixteen. -/
def digit (value : Nat) : Char :=
  if value < 10 then Char.ofNat (48 + value) else Char.ofNat (87 + value)

/-- The value of a digit of either case. -/
def digitValue? (digit : Char) : Option Nat :=
  if '0' ≤ digit ∧ digit ≤ '9' then some (digit.toNat - 48)
  else if 'a' ≤ digit ∧ digit ≤ 'f' then some (digit.toNat - 87)
  else if 'A' ≤ digit ∧ digit ≤ 'F' then some (digit.toNat - 55)
  else none

/-- The two digits of a byte. -/
def ofByte (byte : UInt8) : List Char :=
  [digit (byte.toNat / 16), digit (byte.toNat % 16)]

/-- The digits of a sequence of bytes. -/
def ofBytes (bytes : List UInt8) : List Char :=
  bytes.flatMap ofByte

/-- The bytes that pairs of digits name. -/
def toBytes? : List Char → Option (List UInt8)
  | [] => some []
  | [_] => none
  | high :: low :: rest => do
      let high ← digitValue? high
      let low ← digitValue? low
      let bytes ← toBytes? rest
      return UInt8.ofNat (16 * high + low) :: bytes

/-- A number without leading zeros; zero is one digit. -/
def ofNat (value : Nat) : List Char :=
  Nat.toDigits 16 value

/-- A number filled up with leading zeros to at least `width` digits. -/
def padded (width value : Nat) : List Char :=
  List.replicate (width - (ofNat value).length) '0' ++ ofNat value

end HandleTable.Text.Hex
