import SmallScheme.Interpreter

/-!
# Looking at a value

Everything that can be told of one value: its type and its forms, what its form reads
back as, what it is as a list and as a pair, and what it evaluates to.
-/

namespace SmallScheme

/-- What can be told of a value. -/
structure Inspection where
  /-- The name of its type. -/
  typeName : String
  /-- Its external form. -/
  text : Except Error String
  /-- The form that messages show. -/
  description : Except Error String
  /-- The external forms of the data that its external form reads back as. -/
  again : Except Error (List String)
  /-- It is neither `#f`, zero, empty nor absent. -/
  truthy : Bool
  /-- It can be applied. -/
  procedure : Bool
  /-- Its length, if it is a proper list. -/
  length : Option Nat
  /-- The external forms of its elements, if it is a proper list. -/
  items : Except Error (List String)
  /-- The external form of its first component, if it is a pair. -/
  first : Except Error String
  /-- The external form of its second component, if it is a pair. -/
  rest : Except Error String
  /-- The type and the external form of what it evaluates to. -/
  evaluated : Except Error (String × String)

namespace Value

/-- The external form of a value. -/
def text (limits : Limits) (v : Value) : Except Error String :=
  Except.mapError .write (v.write limits.nesting)

/-- The type and the external form of a value. -/
def shown (limits : Limits) (v : Value) : Except Error (String × String) := do
  return (v.typeName, ← text limits v)

/-- The external forms of the elements of a proper list. An element that cannot be written
is found before an improper end. -/
def items (limits : Limits) (v : Value) : Except Error (List String) := do
  let texts ← v.elements.mapM (text limits)
  match v.ending with
  | .nil => return texts
  | tail => throw (.improperList tail)

/-- Looks at a value. It is evaluated in a new frame of primitives. -/
def inspect (limits : Limits) (v : Value) (store : Store) : Inspection :=
  let (global, store) := store.addGlobal
  let arguments := list store.fresh [v] .nil
  { typeName := v.typeName
    text := text limits v
    description := Except.mapError .write (v.describe limits.nesting)
    again := do readForms limits (← text limits v)
    truthy := v.isTruthy
    procedure := v.isProcedure
    length := v.length?
    items := items limits v
    first := do text limits (← Primitive.car.apply arguments store.fresh)
    rest := do text limits (← Primitive.cdr.apply arguments store.fresh)
    evaluated :=
      match evaluate limits.rounds limits.nesting v global store with
      | .ok w _ => shown limits w
      | .error e _ => .error e }

end Value

end SmallScheme
