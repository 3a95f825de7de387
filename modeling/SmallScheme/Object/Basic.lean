import SmallScheme.Symbol
import SmallScheme.Primitive.Basic

/-!
# Objects

The objects of the language, read from text or made by evaluation.

## The model

Strings, pairs and procedures have an identity of their own: two strings with the
same characters may be different objects, and `eq?` tells them apart. `Object ι`
carries a mark of type `ι` in each such object. A `Value` is marked by numbers, and
its marks say which objects are the same; a `Datum` has only the trivial mark and is
content alone. The reader produces data; `place` makes a value of a datum by giving
every object in it a mark of its own, and `erase` forgets the marks again.

Pairs are never changed once made, so an object is a tree, and sharing shows in the
marks only.

Characters, also those in strings and in the names of symbols, are Unicode scalar values.
A surrogate is none, so there are no objects for what holds one.
-/

namespace SmallScheme

/-- The number of a frame in the store. -/
abbrev FrameId := Nat

/-- An object whose identity is given by marks of type `ι`. -/
inductive Object (ι : Type) where
  /-- `#t` or `#f`. -/
  | boolean (b : Bool)
  /-- An integer. -/
  | integer (n : Int)
  /-- A character, which is a Unicode scalar value. -/
  | character (c : Char)
  /-- A string. -/
  | string (mark : ι) (text : String)
  /-- The empty list. -/
  | nil
  /-- A symbol. -/
  | symbol (s : Symbol)
  /-- A pair. -/
  | pair (mark : ι) (first rest : Object ι)
  /-- A built-in procedure. -/
  | primitive (mark : ι) (p : Primitive)
  /-- A procedure made by `lambda`: parameters, body, and the frame it closes over. -/
  | closure (mark : ι) (parameters body : Object ι) (frame : FrameId)
  /-- What stands where a text holds no datum. It has no external form. -/
  | absent
  deriving DecidableEq, Inhabited

/-- An object as content alone. -/
abbrev Datum := Object Unit

/-- An object of a running program: equal marks mean the same object. -/
abbrev Value := Object Nat

namespace Object

variable {ι : Type}

/-- The name of an object's type. -/
def typeName : Object ι → String
  | boolean _ => "boolean"
  | integer _ => "integer"
  | character _ => "character"
  | string _ _ => "string"
  | nil => "nil"
  | symbol _ => "symbol"
  | pair _ _ _ => "pair"
  | primitive _ _ => "primitive"
  | closure _ _ _ _ => "lambda"
  | absent => "none"

/-- The object can be applied. -/
def isProcedure : Object ι → Bool
  | primitive _ _ => true
  | closure _ _ _ _ => true
  | _ => false

/-- The object counts as true outside the language: it is neither `#f`, zero, empty nor
absent. -/
def isTruthy : Object ι → Bool
  | boolean b => b
  | integer n => n ≠ 0
  | string _ text => !text.isEmpty
  | nil => false
  | absent => false
  | _ => true

/-! ### Lists -/

/-- The first components of the pairs along `rest`. -/
def elements : Object ι → List (Object ι)
  | pair _ first rest => first :: rest.elements
  | _ => []

/-- What follows the last pair along `rest`: `nil` for a proper list. -/
def ending : Object ι → Object ι
  | pair _ _ rest => rest.ending
  | o => o

/-- The number of pairs along `rest`. -/
def pairCount (o : Object ι) : Nat := o.elements.length

/-- The object is a proper list. -/
def isList (o : Object ι) : Bool :=
  match o.ending with
  | nil => true
  | _ => false

/-- The length of a proper list. -/
def length? (o : Object ι) : Option Nat := if o.isList then some o.pairCount else none

/-- The list of the given elements that ends in `tail`; its pairs are all marked alike. -/
def ofList (mark : ι) (items : List (Object ι)) (tail : Object ι) : Object ι :=
  items.foldr (pair mark) tail

@[simp]
theorem elements_ofList (mark : ι) (items : List (Object ι)) (tail : Object ι) :
    (ofList mark items tail).elements = items ++ tail.elements := by
  induction items with
  | nil => rfl
  | cons o items ih => simp_all [ofList, elements]

@[simp]
theorem ending_ofList (mark : ι) (items : List (Object ι)) (tail : Object ι) :
    (ofList mark items tail).ending = tail.ending := by
  induction items with
  | nil => rfl
  | cons o items ih => simp_all [ofList, ending]

/-! ### Marks -/

/-- The content of an object. -/
def erase : Object ι → Datum
  | boolean b => .boolean b
  | integer n => .integer n
  | character c => .character c
  | string _ text => .string () text
  | nil => .nil
  | symbol s => .symbol s
  | pair _ first rest => .pair () first.erase rest.erase
  | primitive _ p => .primitive () p
  | closure _ parameters body frame => .closure () parameters.erase body.erase frame
  | absent => .absent

end Object

/-- `place d m`: the value with content `d` whose objects have the marks from `m` on, one
each, and the first mark left over. -/
def Datum.place : Datum → Nat → Value × Nat
  | .boolean b, m => (.boolean b, m)
  | .integer n, m => (.integer n, m)
  | .character c, m => (.character c, m)
  | .string _ text, m => (.string m text, m + 1)
  | .nil, m => (.nil, m)
  | .symbol s, m => (.symbol s, m)
  | .pair _ first rest, m =>
    let (a, m₁) := place first (m + 1)
    let (d, m₂) := place rest m₁
    (.pair m a d, m₂)
  | .primitive _ p, m => (.primitive m p, m + 1)
  | .closure _ parameters body frame, m =>
    let (p, m₁) := place parameters (m + 1)
    let (b, m₂) := place body m₁
    (.closure m p b frame, m₂)
  | .absent, m => (.absent, m)

/-- Placing a datum keeps its content. -/
@[simp]
theorem Datum.erase_place (d : Datum) (m : Nat) : (d.place m).1.erase = d := by
  induction d generalizing m with
  | pair mark first rest ih₁ ih₂ => simp [place, Object.erase, ih₁, ih₂]
  | closure mark parameters body frame ih₁ ih₂ => simp [place, Object.erase, ih₁, ih₂]
  | _ => rfl

/-- Placing a datum gives no mark back. -/
theorem Datum.le_place (d : Datum) (m : Nat) : m ≤ (d.place m).2 := by
  induction d generalizing m with
  | pair mark first rest ih₁ ih₂ =>
    simp only [place]
    exact Nat.le_trans (Nat.le_of_succ_le (ih₁ (m + 1))) (ih₂ _)
  | closure mark parameters body frame ih₁ ih₂ =>
    simp only [place]
    exact Nat.le_trans (Nat.le_of_succ_le (ih₁ (m + 1))) (ih₂ _)
  | _ => simp [place]

namespace Value

/-- The list of the given values, its pairs marked from `m` on. -/
def list (m : Nat) : List Value → Value → Value
  | [], tail => tail
  | v :: vs, tail => .pair m v (list (m + 1) vs tail)

@[simp]
theorem elements_list (m : Nat) (vs : List Value) (tail : Value) :
    (list m vs tail).elements = vs ++ tail.elements := by
  induction vs generalizing m with
  | nil => rfl
  | cons v vs ih => simp [list, Object.elements, ih]

@[simp]
theorem ending_list (m : Nat) (vs : List Value) (tail : Value) :
    (list m vs tail).ending = tail.ending := by
  induction vs generalizing m with
  | nil => rfl
  | cons v vs ih => simp [list, Object.ending, ih]

/-- Two values are the same object. Integers and characters are the same when they are
equal; strings, pairs and procedures when they bear the same mark. -/
def same : Value → Value → Bool
  | .boolean a, .boolean b => a == b
  | .integer a, .integer b => a == b
  | .character a, .character b => a == b
  | .string m _, .string n _ => m == n
  | .nil, .nil => true
  | .symbol a, .symbol b => a == b
  | .pair m _ _, .pair n _ _ => m == n
  | .primitive m _, .primitive n _ => m == n
  | .closure m _ _ _, .closure n _ _ _ => m == n
  | .absent, .absent => true
  | _, _ => false

/-- Two values are equal: strings by their characters, all others as objects. -/
def equal : Value → Value → Bool
  | .string _ a, .string _ b => a == b
  | a, b => same a b

end Value

end SmallScheme
