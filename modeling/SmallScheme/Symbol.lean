/-!
# Symbols

A symbol is a name: two symbols are the same object exactly when their names are
equal. A `SymbolTable` remembers the names it has met in the order it met them, and
numbers each symbol by its place.
-/

namespace SmallScheme

/-- A symbol. -/
structure Symbol where
  /-- The spelling of the symbol. -/
  name : String
  deriving DecidableEq, Inhabited

namespace Symbol

/-- The symbol that heads a quotation. -/
def quote : Symbol := ⟨"quote"⟩

/-- The symbol that heads a procedure expression. -/
def lambda : Symbol := ⟨"lambda"⟩

/-- The symbol that a definition and an assignment answer with. -/
def ok : Symbol := ⟨"ok"⟩

end Symbol

/-- The symbols met so far. -/
structure SymbolTable where
  /-- The names, in the order they were first met. -/
  names : List String := []

namespace SymbolTable

/-- The place of the symbol called `name`, and the table that holds it. -/
def intern (t : SymbolTable) (name : String) : Nat × SymbolTable :=
  match t.names.idxOf? name with
  | some i => (i, t)
  | none => (t.names.length, ⟨t.names ++ [name]⟩)

/-- The table holds the symbol called `name`. -/
def contains (t : SymbolTable) (name : String) : Bool := t.names.contains name

/-- The number of symbols. -/
def size (t : SymbolTable) : Nat := t.names.length

end SymbolTable

end SmallScheme
