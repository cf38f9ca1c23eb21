/-!
# Numerals and bracketed lists

Decimal and lowercase hexadecimal numerals, with an optional least number of digits, and the lists
`[a, b, c]` in which the machine's texts write their entries.
-/

namespace ChipEight.Text

def decimal (n : Nat) : String := String.ofList (Nat.toDigits 10 n)

/-- The hexadecimal digits of `n`, at least `width` of them. -/
def hexDigits (width n : Nat) : List Char :=
  let digits := Nat.toDigits 16 n
  List.replicate (width - digits.length) '0' ++ digits

def hex (width n : Nat) : String := String.ofList (hexDigits width n)

/-- A signed hexadecimal numeral with its `0x` mark: `0x2a`, `-0x5`. -/
def signedHex : Int → String
  | .ofNat n => "0x" ++ hex 1 n
  | .negSucc n => "-0x" ++ hex 1 (n + 1)

/-- The two hexadecimal digits of each byte in turn. -/
def hexBytes (bytes : List (BitVec 8)) : String :=
  String.ofList (bytes.flatMap fun b => hexDigits 2 b.toNat)

/-- The entries in square brackets, a comma and a space between two of them. -/
def bracketed (entries : List String) : String := "[" ++ String.intercalate ", " entries ++ "]"

end ChipEight.Text
