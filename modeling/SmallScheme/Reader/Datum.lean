import SmallScheme.Reader.Atom

/-!
# The reader

Reads data from a stream of characters.

| text                           | datum                                                           |
|--------------------------------|-----------------------------------------------------------------|
| `#t`, `#f`                     | a boolean                                                       |
| `#\c`, `#\space`, `#\newline`  | a character                                                     |
| `12`, `-3`                     | an integer                                                      |
| `"a\n"`                        | a string; `\n` is a newline, any other escaped character itself |
| `set!`, `+`                    | a symbol                                                        |
| `(a b)`, `(a . b)`             | a proper or an improper list                                    |
| `'a`                           | `(quote a)`                                                     |

Blanks and comments may stand before any datum. Booleans, characters, integers and
the dot of an improper list have to be followed by a delimiter.

## The model

`readFrom` reads the datum that starts with a given character and leaves the data
inside it to a reader passed as an argument; `readDatum` ties the knot by recursion
on the number of levels that may still be nested. The elements of a list are read in
a loop bounded by a budget, one more than the number of items to come: every
element takes at least one.
-/

namespace SmallScheme.Reader

/-! ### Lists -/

/-- Reads the datum that has to follow, with `inner`. -/
def readRequired (inner : Char → ReadM Datum) (awaiting : Awaiting) : ReadM Datum := do
  match ← nextToken with
  | none => fail (.endOfInput awaiting)
  | some c => inner c

/-- Reads the tail of an improper list and its closing parenthesis. -/
def readTail (inner : Char → ReadM Datum) : ReadM Datum := do
  expectDelimiter .dot
  let tail ← readRequired inner .dottedTail
  if (← nextToken) = some ')' then return tail else fail .crowdedTail

/-- Reads the rest of a list: its elements are read with `inner` and added to those in
`items`, the latest first. -/
def readItems (inner : Char → ReadM Datum) : Nat → List Datum → ReadM Datum
  | 0, _ => fail .tooDeep
  | budget + 1, items => do
    match ← nextToken with
    | none => fail .openList
    | some c =>
      if c = ')' then return .ofList () items.reverse .nil
      else if c = '.' then
        if items.isEmpty then fail .leadingDot
        else return .ofList () items.reverse (← readTail inner)
      else readItems inner budget ((← inner c) :: items)

/-! ### Data -/

/-- Reads the datum that starts with `c`; the data inside it are read with `inner`. -/
def readFrom (inner : Char → ReadM Datum) (budget : Nat) (c : Char) : ReadM Datum :=
  if c = '#' then readHash
  else if c.isDigit then readNumber false [c]
  else if c = '+' ∨ c = '-' then readSigned c
  else if c = '"' then readString
  else if isInitial c then readSymbol c
  else if c = '(' then readItems inner budget []
  else if c = '\'' then do
    return .ofList () [.symbol .quote, ← readRequired inner .quotedDatum] .nil
  else fail (.unexpected c)

/-- Reads the datum that starts with `c` and nests less than `nesting` levels deep. -/
def readDatum (budget : Nat) : (nesting : Nat) → Char → ReadM Datum
  | 0, _ => fail .tooDeep
  | nesting + 1, c => readFrom (readDatum budget nesting) budget c

/-- Reads the next datum; none if only blanks and comments are left. -/
def read (nesting : Nat) : ReadM (Option Datum) := do
  match ← nextToken with
  | none => return none
  | some c => return some (← readDatum ((← get).available + 1) nesting c)

/-! ### Whole texts -/

/-- What reading a whole text gave. -/
structure Reading where
  /-- The data, each with the position after it. -/
  data : List (Datum × Int)
  /-- Why reading stopped before the end. -/
  failure : Option ReadError
  /-- The stream where reading stopped. -/
  stream : CharStream

namespace Reading

/-- A reading with one more datum in front. -/
def cons (d : Datum) (position : Int) (r : Reading) : Reading :=
  { r with data := (d, position) :: r.data }

end Reading

/-- Reads at most `count` data. -/
def readMany (nesting : Nat) : (count : Nat) → CharStream → Reading
  | 0, s => ⟨[], none, s⟩
  | count + 1, s =>
    match read nesting s with
    | .ok none t => ⟨[], none, t⟩
    | .ok (some d) t => (readMany nesting count t).cons d t.position
    | .error e t => ⟨[], some e, t⟩

/-- Reads all data of a stream. -/
def readAll (nesting : Nat) (s : CharStream) : Reading := readMany nesting (s.available + 1) s

/-- The first datum of a text, `absent` if it holds none. -/
def readFirst (nesting : Nat) (text : String) : Except ReadError Datum :=
  match read nesting (.ofString text) with
  | .ok d _ => .ok (d.getD .absent)
  | .error e _ => .error e

end SmallScheme.Reader
