import SmallScheme.CharStream
import SmallScheme.Object.Basic
import SmallScheme.Reader.Fault
import SmallScheme.Text.Letter

/-!
# Items and atoms

The part of the reader that does not nest: it takes items from a stream, tells the
classes of characters apart, and reads booleans, characters, integers, strings and
symbols. It looks at most one character ahead.

The reader is a state monad over the stream that may fail with a `ReadError`.
-/

namespace SmallScheme

/-- A computation that reads from a stream. -/
abbrev ReadM := EStateM ReadError CharStream

/-! ### Classes of characters -/

/-- An item ends a token: the end of input, a blank, a parenthesis, a double quote or the
start of a comment. -/
def isDelimiter : Option Char → Bool
  | none => true
  | some c => Text.isBlank c || c = '(' || c = ')' || c = '"' || c = ';'

/-- A character may start a symbol. -/
def isInitial (c : Char) : Bool :=
  Text.isLetter c || c = '*' || c = '/' || c = '<' || c = '>' || c = '=' || c = '?' || c = '!'

/-- A character may go on a symbol. -/
def isSubsequent (c : Char) : Bool := isInitial c || c.isDigit || c = '+' || c = '-'

namespace Reader

/-! ### Items -/

/-- The next item. -/
def next : ReadM (Option Char) := modifyGet CharStream.next

/-- The next item, left in the stream. -/
def peek : ReadM (Option Char) := modifyGet CharStream.peek

/-- The next item after blanks and comments. -/
def nextToken : ReadM (Option Char) := do
  modify CharStream.skipAtmosphere
  next

/-- The longest run of characters with property `p`. -/
def takeRun (p : Char → Bool) : ReadM (List Char) := modifyGet (CharStream.takeRun p)

/-- Fails with a fault at the present position. -/
def fail {α : Type} (fault : ReadFault) : ReadM α := do
  throw (.malformed fault (← get).position)

/-- Fails unless the next item is a delimiter. -/
def expectDelimiter (what : Delimited) : ReadM Unit := do
  if !isDelimiter (← peek) then fail (.undelimited what)

/-! ### Atoms -/

/-- Reads the letters of a named character. -/
def readName (name : String) : List Char → ReadM Unit
  | [] => pure ()
  | expected :: letters => do
    let item ← next
    if item = some expected then readName name letters else fail (.misspeltCharacter item name)

/-- Reads a character after `#\`. The names `space` and `newline` are known by their first
two letters. -/
def readCharacter : ReadM Datum := do
  match ← next with
  | none => fail .incompleteCharacter
  | some c =>
    let item ← peek
    if c = 's' ∧ item = some 'p' then
      readName "space" ['p', 'a', 'c', 'e']
      expectDelimiter .character
      return .character ' '
    else if c = 'n' ∧ item = some 'e' then
      readName "newline" ['e', 'w', 'l', 'i', 'n', 'e']
      expectDelimiter .character
      return .character '\n'
    else
      expectDelimiter .character
      return .character c

/-- Reads a boolean or a character after `#`. -/
def readHash : ReadM Datum := do
  let item ← next
  if item = some 't' then
    expectDelimiter .boolean
    return .boolean true
  else if item = some 'f' then
    expectDelimiter .boolean
    return .boolean false
  else if item = some '\\' then readCharacter
  else fail (.unknownLiteral item)

/-- Reads an integer whose sign and first digits have been read. -/
def readNumber (negative : Bool) (digits : List Char) : ReadM Datum := do
  let n := Text.signedValue negative (digits ++ (← takeRun Char.isDigit))
  expectDelimiter .number
  if Text.IsFixnum n then return .integer n
  else if Text.digitCount n ≤ Text.digitLimit then fail (.outOfRange n)
  else throw .digitLimit

/-- Reads a symbol that starts with `c`. -/
def readSymbol (c : Char) : ReadM Datum := do
  return .symbol ⟨String.ofList (c :: (← takeRun isSubsequent))⟩

/-- Reads what starts with a sign: a negative integer, or the sign as a symbol. -/
def readSigned (c : Char) : ReadM Datum := do
  let item ← peek
  if c = '-' ∧ item.any Char.isDigit then readNumber true []
  else if isDelimiter item then readSymbol c
  else fail (.unexpected c)

/-- The characters of a string up to its closing quote, and the stream after it; none if
the input ends before. -/
def stringBody (s : CharStream) : Option (List Char) × CharStream :=
  match _h : s.next with
  | (none, t) => (none, t)
  | (some c, t) =>
    if c = '"' then (some [], t)
    else if c = '\\' then
      match _h' : t.next with
      | (none, u) => (none, u)
      | (some e, u) =>
        let (body, v) := stringBody u
        (body.map ((if e = 'n' then '\n' else e) :: ·), v)
    else
      let (body, u) := stringBody t
      (body.map (c :: ·), u)
termination_by s.available
decreasing_by
  · exact Nat.lt_trans (CharStream.available_next _h') (CharStream.available_next _h)
  · exact CharStream.available_next _h

/-- Reads a string after its opening quote. -/
def readString : ReadM Datum := do
  match ← modifyGet stringBody with
  | none => fail .openString
  | some body => return .string () (String.ofList body)

end Reader

end SmallScheme
