/-!
# The primitives

The built-in procedures, in the order in which a global frame binds them.
-/

namespace SmallScheme

/-- A built-in procedure. -/
inductive Primitive where
  /-- `(null? x)`: `x` is the empty list. -/
  | isNull
  /-- `(boolean? x)` -/
  | isBoolean
  /-- `(symbol? x)` -/
  | isSymbol
  /-- `(integer? x)` -/
  | isInteger
  /-- `(character? x)` -/
  | isCharacter
  /-- `(string? x)` -/
  | isString
  /-- `(pair? x)` -/
  | isPair
  /-- `(procedure? x)` -/
  | isProcedure
  /-- `(char->integer c)`: the code point of a character. -/
  | charToInteger
  /-- `(integer->char n)`: the character of a code point. -/
  | integerToChar
  /-- `(number->string n)`: the decimal text of an integer. -/
  | numberToString
  /-- `(string->number s)`: the integer that a decimal text denotes. -/
  | stringToNumber
  /-- `(symbol->string s)`: the name of a symbol. -/
  | symbolToString
  /-- `(string->symbol s)`: the symbol of a name. -/
  | stringToSymbol
  /-- `(+ n ...)`: the sum of all arguments. -/
  | sum
  /-- `(= n m ...)`: every argument is the same integer. -/
  | sameNumber
  /-- `(cons a d)`: a new pair. -/
  | cons
  /-- `(car p)`: the first component of a pair. -/
  | car
  /-- `(cdr p)`: the second component of a pair. -/
  | cdr
  /-- `(list x ...)`: the list of all arguments. -/
  | list
  /-- `(eq? a b)`: both are the same object. -/
  | isEq
  deriving DecidableEq

namespace Primitive

/-- The name that a global frame binds a primitive to. -/
def name : Primitive → String
  | isNull => "null?"
  | isBoolean => "boolean?"
  | isSymbol => "symbol?"
  | isInteger => "integer?"
  | isCharacter => "character?"
  | isString => "string?"
  | isPair => "pair?"
  | isProcedure => "procedure?"
  | charToInteger => "char->integer"
  | integerToChar => "integer->char"
  | numberToString => "number->string"
  | stringToNumber => "string->number"
  | symbolToString => "symbol->string"
  | stringToSymbol => "string->symbol"
  | sum => "+"
  | sameNumber => "="
  | cons => "cons"
  | car => "car"
  | cdr => "cdr"
  | list => "list"
  | isEq => "eq?"

/-- Every primitive, in the order of registration. -/
def all : List Primitive :=
  [isNull, isBoolean, isSymbol, isInteger, isCharacter, isString, isPair, isProcedure,
   charToInteger, integerToChar, numberToString, stringToNumber, symbolToString, stringToSymbol,
   sum, sameNumber, cons, car, cdr, list, isEq]

/-- The primitive called `s`. -/
def ofName? (s : String) : Option Primitive := all.find? fun p => p.name == s

end Primitive

end SmallScheme
