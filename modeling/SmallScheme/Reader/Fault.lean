import SmallScheme.Text.Numeral
import SmallScheme.Text.Quoted

/-!
# What can be wrong with a text

The faults that the reader finds and their messages.
-/

namespace SmallScheme

/-- What has to be followed by a delimiter. -/
inductive Delimited where
  /-- `#t` or `#f`. -/
  | boolean
  /-- `#\c`, `#\space` or `#\newline`. -/
  | character
  /-- An integer. -/
  | number
  /-- The dot before the tail of an improper list. -/
  | dot
  deriving DecidableEq

/-- The words of a message for what has to be followed by a delimiter. -/
def Delimited.message : Delimited → String
  | boolean => "boolean literal"
  | character => "character literal"
  | number => "number"
  | dot => "dot"

/-- Where a datum has to follow. -/
inductive Awaiting where
  /-- After a quote mark. -/
  | quotedDatum
  /-- After the dot of an improper list. -/
  | dottedTail
  deriving DecidableEq

/-- The words of a message for where a datum has to follow. -/
def Awaiting.message : Awaiting → String
  | quotedDatum => "quoted datum"
  | dottedTail => "dotted pair"

/-- A fault of a text. An item of `none` is the end of input. -/
inductive ReadFault where
  /-- A character that starts no datum. -/
  | unexpected (c : Char)
  /-- The text ends where a datum has to follow. -/
  | endOfInput (awaiting : Awaiting)
  /-- Something is not followed by a delimiter. -/
  | undelimited (what : Delimited)
  /-- Neither `t`, `f` nor a backslash follows `#`. -/
  | unknownLiteral (item : Option Char)
  /-- The text ends after `#\`. -/
  | incompleteCharacter
  /-- A named character is misspelt. -/
  | misspeltCharacter (item : Option Char) (name : String)
  /-- An integer that is not a fixnum. -/
  | outOfRange (n : Int)
  /-- The text ends inside a string. -/
  | openString
  /-- The text ends inside a list. -/
  | openList
  /-- A dot stands first in a list. -/
  | leadingDot
  /-- More than one datum follows the dot. -/
  | crowdedTail
  /-- A datum nests deeper than allowed. -/
  | tooDeep
  deriving DecidableEq

/-- The characters of an item: none for the end of input. -/
def itemText (item : Option Char) : String := (item.map String.singleton).getD ""

namespace ReadFault

/-- The words of the message. -/
def message : ReadFault → String
  | unexpected c => "bad input. unexpected " ++ Text.quoted (String.singleton c)
  | endOfInput awaiting => "unexpected end of input in " ++ awaiting.message
  | undelimited what => what.message ++ " not followed by delimiter"
  | unknownLiteral item => "unknown boolean or character literal #" ++ itemText item
  | incompleteCharacter => "incomplete character literal"
  | misspeltCharacter item name =>
    "unexpected character " ++ Text.quoted (itemText item) ++ " in #\\" ++ name
  | outOfRange n => "integer literal " ++ Text.numeral n ++ " out of fixnum range"
  | openString => "non-terminated string literal"
  | openList => "missing closing parenthesis"
  | leadingDot => "dot without a preceding datum"
  | crowdedTail => "expected ')' after the tail of a dotted pair"
  | tooDeep => "datum nested too deeply"

end ReadFault

/-- Why reading a datum failed. -/
inductive ReadError where
  /-- The text has a fault, found at a position of the stream. -/
  | malformed (fault : ReadFault) (position : Int)
  /-- An integer out of range has too many digits to be shown. -/
  | digitLimit
  deriving DecidableEq

end SmallScheme
