/-!
# Integer literals

Integers are written in decimal, with `-` before a negative one. The integers of
the language are those of the signed 64-bit range, the *fixnums*. Converting
between an integer and its decimal text is refused beyond `digitLimit` digits.
-/

namespace SmallScheme.Text

/-- The number denoted by a run of decimal digits, the most significant first. -/
def digitsValue (ds : List Char) : Nat := Nat.ofDigitChars 10 ds 0

@[simp]
theorem digitsValue_toDigits (n : Nat) : digitsValue (Nat.toDigits 10 n) = n :=
  Nat.ofDigitChars_toDigits (by decide) (by decide)

/-- The number denoted by a sign and a run of decimal digits. -/
def signedValue (negative : Bool) (ds : List Char) : Int :=
  if negative then -(digitsValue ds : Int) else digitsValue ds

/-- The decimal text of an integer. -/
def numeral (n : Int) : String := n.repr

/-- `n` is a fixnum: it lies in the signed 64-bit range. -/
def IsFixnum (n : Int) : Prop := -0x8000000000000000 ≤ n ∧ n < 0x8000000000000000

instance (n : Int) : Decidable (IsFixnum n) := inferInstanceAs (Decidable (_ ∧ _))

/-- The greatest number of digits that is converted between an integer and its text. -/
def digitLimit : Nat := 4300

/-- The number of digits in the decimal text of an integer, leading zeros and sign left out. -/
def digitCount (n : Int) : Nat := (Nat.toDigits 10 n.natAbs).length

/-- The sign and the digits of a text made of an optional `+` or `-` and at least one
decimal digit. -/
def splitNumeral? (cs : List Char) : Option (Bool × List Char) :=
  let (negative, ds) :=
    match cs with
    | '-' :: ds => (true, ds)
    | '+' :: ds => (false, ds)
    | ds => (false, ds)
  if !ds.isEmpty && ds.all Char.isDigit then some (negative, ds) else none

end SmallScheme.Text
