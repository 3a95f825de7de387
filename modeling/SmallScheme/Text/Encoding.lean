/-!
# The text of a file

A file holds UTF-8. Its text is what the bytes encode, with every line ended by a
line feed: a carriage return, alone or before a line feed, is read as a line feed.
A byte order mark is kept as a character.

A file is read in blocks, and a block is decoded when its first character is asked
for. So the start of a file can be read even if bytes that encode nothing follow: the
text goes up to the block in which they show. Bytes that might yet become a character
do not show before the bytes that follow them, or the end of the file.
-/

namespace SmallScheme.Text

/-- The same lines, each ended by a line feed. -/
def lineFeeds : List Char → List Char
  | [] => []
  | '\r' :: '\n' :: cs => '\n' :: lineFeeds cs
  | '\r' :: cs => '\n' :: lineFeeds cs
  | c :: cs => c :: lineFeeds cs

/-! ### Bytes that are no UTF-8 -/

/-- The characters that bytes start with, and the bytes after them. -/
def decode : List UInt8 → List Char × List UInt8
  | [] => ([], [])
  | b :: bytes =>
    match (ByteArray.mk (b :: bytes.take 3).toArray).utf8DecodeChar? 0 with
    | some c =>
      let (cs, rest) := decode (bytes.drop (c.utf8Size - 1))
      (c :: cs, rest)
    | none => ([], b :: bytes)
termination_by bytes => bytes.length

/-- A byte that goes on a character. -/
def isContinuation (b : UInt8) : Bool := 0x80 ≤ b && b < 0xC0

/-- The byte `b` may be the second of a character of three or four bytes whose first is
`lead`. A surrogate does not show before its third byte. -/
def isSecond (lead b : UInt8) : Bool :=
  isContinuation b && !(lead == 0xE0 && b < 0xA0) && !(lead == 0xF0 && b < 0x90) &&
    !(lead == 0xF4 && 0x90 ≤ b)

/-- Bytes that begin a character and do not end it, or no bytes. -/
def isUnfinished : List UInt8 → Bool
  | [] => true
  | [a] => 0xC2 ≤ a && a < 0xF5
  | [a, b] => 0xE0 ≤ a && a < 0xF5 && isSecond a b
  | [a, b, c] => 0xF0 ≤ a && a < 0xF5 && isSecond a b && isContinuation c
  | _ => false

/-- The number of bytes in a block. -/
def blockSize : Nat := 8192

/-- The characters in the blocks before the first that cannot be decoded; `pending` are the
bytes of a character that began in the block before. -/
def decodeBlocks (pending bytes : List UInt8) : List Char :=
  match bytes with
  | [] => []
  | b :: bytes =>
    let (cs, rest) := decode (pending ++ b :: bytes.take (blockSize - 1))
    if isUnfinished rest then cs ++ decodeBlocks rest (bytes.drop (blockSize - 1)) else []
termination_by bytes.length

/-- Characters without a carriage return at their end. It is kept back until the character
after it is known. -/
def withoutReturn (cs : List Char) : List Char :=
  if cs.getLast? = some '\r' then cs.dropLast else cs

/-! ### Files -/

/-- What can be read of a file. -/
structure FileText where
  /-- The text. -/
  text : String
  /-- The file ends with the text; otherwise bytes follow that cannot be decoded. -/
  complete : Bool

/-- What can be read of the file with the given bytes. -/
def FileText.ofBytes (bytes : ByteArray) : FileText :=
  match String.fromUTF8? bytes with
  | some s => ⟨String.ofList (lineFeeds s.toList), true⟩
  | none => ⟨String.ofList (lineFeeds (withoutReturn (decodeBlocks [] bytes.toList))), false⟩

end SmallScheme.Text
