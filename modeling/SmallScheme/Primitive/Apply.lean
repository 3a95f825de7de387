import SmallScheme.Error

/-!
# Applying a primitive

A primitive takes the list of its arguments and gives a value or an error. It looks at
as many leading arguments as it needs and ignores the others; what follows the last
pair of the list does not matter. A primitive makes at most one object, whose mark is
passed to it.
-/

namespace SmallScheme.Primitive

/-- The argument numbered `index`, counted from zero. An index below zero stands for the
first argument. -/
def argument (who : String) (args : Value) (index : Int) : Except Error Value :=
  match args.elements[index.toNat]? with
  | some v => .ok v
  | none => .error (.missingArgument who (index + 1))

/-- The integer that an argument has to be. -/
def integerOf (who : Primitive) : Value → Except Error Int
  | .integer n => .ok n
  | v => .error (.wrongType who .integer v)

/-- The string that an argument has to be. -/
def stringOf (who : Primitive) : Value → Except Error String
  | .string _ text => .ok text
  | v => .error (.wrongType who .string v)

/-- The character with a given code point. -/
def characterOf (n : Int) : Except Error Value :=
  if 0 ≤ n ∧ n.toNat.isValidChar then .ok (.character (Char.ofNat n.toNat))
  else .error (.codePoint n)

/-- The integer that a string denotes. -/
def numberOf (text : String) : Except Error Value :=
  match Text.splitNumeral? text.toList with
  | none => .error (.notNumeral text)
  | some (negative, digits) =>
    if digits.length ≤ Text.digitLimit then
      let n := Text.signedValue negative digits
      if Text.IsFixnum n then .ok (.integer n) else .error (.numeralRange text)
    else .error .digitLimit

/-- The sum of all arguments. Only the whole sum has to be a fixnum. -/
def sumOf (args : Value) : Except Error Value := do
  let n := (← args.elements.mapM (integerOf sum)).foldr (· + ·) 0
  if Text.IsFixnum n then return .integer n else throw (.overflow n)

/-- All arguments are the same integer. Every argument is checked to be an integer. -/
def allSame (args : Value) : Except Error Value := do
  let n ← integerOf sameNumber (← argument sameNumber.name args 0)
  return .boolean ((← args.elements.mapM (integerOf sameNumber)).all (· == n))

/-- Applies a primitive to a list of arguments; an object it makes bears the given mark. -/
def apply (p : Primitive) (args : Value) (mark : Nat) : Except Error Value :=
  let first := argument p.name args 0
  let second := argument p.name args 1
  match p with
  | isNull => do return .boolean ((← first) matches .nil)
  | isBoolean => do return .boolean ((← first) matches .boolean _)
  | isSymbol => do return .boolean ((← first) matches .symbol _)
  | isInteger => do return .boolean ((← first) matches .integer _)
  | isCharacter => do return .boolean ((← first) matches .character _)
  | isString => do return .boolean ((← first) matches .string _ _)
  | isPair => do return .boolean ((← first) matches .pair _ _ _)
  | isProcedure => do return .boolean (← first).isProcedure
  | charToInteger => do
    match ← first with
    | .character c => return .integer c.toNat
    | v => throw (.wrongType p .character v)
  | integerToChar => do characterOf (← integerOf p (← first))
  | numberToString => do return .string mark (Text.numeral (← integerOf p (← first)))
  | stringToNumber => do numberOf (← stringOf p (← first))
  | symbolToString => do
    match ← first with
    | .symbol s => return .string mark s.name
    | v => throw (.wrongType p .symbol v)
  | stringToSymbol => do return .symbol ⟨← stringOf p (← first)⟩
  | sum => sumOf args
  | sameNumber => allSame args
  | cons => do return .pair mark (← first) (← second)
  | car => do
    match ← first with
    | .pair _ a _ => return a
    | v => throw (.wrongType p .pair v)
  | cdr => do
    match ← first with
    | .pair _ _ d => return d
    | v => throw (.wrongType p .pair v)
  | list => .ok args
  | isEq => do return .boolean (Value.same (← first) (← second))

end SmallScheme.Primitive
