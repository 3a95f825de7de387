import SmallScheme.Text.Printable

/-!
# Quoted text

How a message shows a text exactly: between single quotes, or between double quotes
if it holds a single quote and no double one. A backslash and the quote in use are
written after a backslash, and so are the letters that stand for newline, carriage
return and tab. Any other character that is not printable is written by its code
point in hexadecimal, with two, four or eight digits.
-/

namespace SmallScheme.Text

/-- The hexadecimal digits of `n`, at least `width` of them. -/
def hexadecimal (width n : Nat) : String :=
  let ds := Nat.toDigits 16 n
  String.ofList (List.replicate (width - ds.length) '0' ++ ds)

/-- How a character is written between two marks `quote`. -/
def quotedChar (quote c : Char) : String :=
  if c = quote ∨ c = '\\' then String.ofList ['\\', c]
  else if c = '\n' then "\\n"
  else if c = '\r' then "\\r"
  else if c = '\t' then "\\t"
  else if isPrintable c then String.singleton c
  else if c.toNat < 0x100 then "\\x" ++ hexadecimal 2 c.toNat
  else if c.toNat < 0x10000 then "\\u" ++ hexadecimal 4 c.toNat
  else "\\U" ++ hexadecimal 8 c.toNat

/-- The mark that a text is quoted with. -/
def quoteMark (cs : List Char) : Char :=
  if cs.contains '\'' && !cs.contains '"' then '"' else '\''

/-- A text between quotes. -/
def quoted (s : String) : String :=
  let quote := quoteMark s.toList
  let body := s.toList.foldl (fun text c => text ++ quotedChar quote c) (String.singleton quote)
  body.push quote

end SmallScheme.Text
