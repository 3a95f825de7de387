import SmallScheme.Object.Writer

/-!
# The text that the writer writes

The writer adds to a text and counts levels down as it goes. What it adds does not depend on
either: an object built from the objects that texts can stand for (`IsPlain`) has one
external form (`form`), and the writer gives it whenever it may nest as many levels as the
object has (`writeOn_eq`).
-/

namespace SmallScheme.Object

variable {ι : Type}

/-- The object is made of booleans, fixnums, characters, strings, empty lists, symbols and
pairs. -/
def IsPlain : Object ι → Prop
  | integer n => Text.IsFixnum n
  | pair _ first rest => first.IsPlain ∧ rest.IsPlain
  | primitive _ _ => False
  | closure _ _ _ _ => False
  | absent => False
  | _ => True

/-- The symbols that occur in an object. -/
def symbols : Object ι → List Symbol
  | symbol s => [s]
  | pair _ first rest => first.symbols ++ rest.symbols
  | _ => []

mutual

/-- How many levels deep an object nests. -/
def levels : Object ι → Nat
  | pair _ first rest => max first.levels rest.restLevels + 1
  | _ => 1

/-- How many levels deep an object nests where it is the rest of a list. -/
def restLevels : Object ι → Nat
  | nil => 0
  | pair _ first rest => max first.levels rest.restLevels
  | _ => 1

end

/-- The external form of an object that is not a pair, empty if it has none. -/
def atomForm (o : Object ι) : List Char :=
  match o.writeAtom with
  | .ok text => text.toList
  | .error _ => []

mutual

/-- The external form of an object. -/
def form : Object ι → List Char
  | pair _ first rest => '(' :: (first.form ++ rest.restForm)
  | o => o.atomForm

/-- What is written of an object where it is the rest of a list. -/
def restForm : Object ι → List Char
  | nil => [')']
  | pair _ first rest => ' ' :: (first.form ++ rest.restForm)
  | o => ' ' :: '.' :: ' ' :: (o.atomForm ++ [')'])

end

theorem levels_pos (o : Object ι) : 0 < o.levels := by
  cases o <;> simp [levels]

theorem restLevels_le_levels (o : Object ι) : o.restLevels ≤ o.levels := by
  cases o <;> simp [levels, restLevels]

theorem levels_le_restLevels_succ (o : Object ι) : o.levels ≤ o.restLevels + 1 := by
  cases o <;> simp [levels, restLevels]

/-! ### Lists -/

theorem isPlain_ofList {m : ι} {vs : List (Object ι)} {tail : Object ι}
    (hvs : ∀ v ∈ vs, v.IsPlain) (ht : tail.IsPlain) : (ofList m vs tail).IsPlain := by
  induction vs with
  | nil => exact ht
  | cons v vs ih =>
    exact ⟨hvs v (List.mem_cons_self ..), ih fun w hw => hvs w (List.mem_cons_of_mem v hw)⟩

theorem symbols_ofList (m : ι) (vs : List (Object ι)) (tail : Object ι) :
    (ofList m vs tail).symbols = vs.flatMap symbols ++ tail.symbols := by
  induction vs with
  | nil => rfl
  | cons v vs ih =>
    rw [List.flatMap_cons, List.append_assoc, ← ih]
    rfl

theorem restLevels_ofList_le {m : ι} {vs : List (Object ι)} {tail : Object ι} {n : Nat}
    (hvs : ∀ v ∈ vs, v.levels ≤ n) (ht : tail.restLevels ≤ n) :
    (ofList m vs tail).restLevels ≤ n := by
  induction vs with
  | nil => exact ht
  | cons v vs ih =>
    exact Nat.max_le.2
      ⟨hvs v (List.mem_cons_self ..), ih fun w hw => hvs w (List.mem_cons_of_mem v hw)⟩

/-! ### Writing -/

theorem writeAtom_eq {o : Object ι} (h : o.IsPlain) :
    o.writeAtom = .ok (String.ofList o.atomForm) := by
  cases o with
  | primitive | closure | absent => exact h.elim
  | _ => simp [atomForm, writeAtom]

theorem push_append_ofList (text : String) (c : Char) (w : List Char) :
    text.push c ++ String.ofList w = text ++ String.ofList (c :: w) := by
  rw [← String.toList_inj]
  simp

theorem append_ofList_append (text : String) (w w' : List Char) :
    text ++ String.ofList w ++ String.ofList w' = text ++ String.ofList (w ++ w') := by
  rw [← String.toList_inj]
  simp

theorem push_dotted (text : String) (w : List Char) :
    (text ++ " . " ++ String.ofList w).push ')' =
      text ++ String.ofList (' ' :: '.' :: ' ' :: (w ++ [')'])) := by
  rw [← String.toList_inj]
  simp

/-- The writer adds the external form to the text, and so it does with the rest of a list. -/
theorem writeOn_eq {o : Object ι} (ho : o.IsPlain) :
    (∀ {n : Nat} (text : String), o.levels ≤ n →
      o.writeOn n text = .ok (text ++ String.ofList o.form)) ∧
    ∀ {n : Nat} (text : String), o.restLevels ≤ n →
      o.writeRestOn n text = .ok (text ++ String.ofList o.restForm) := by
  induction o with
  | pair m first rest ih₁ ih₂ =>
    obtain ⟨hfirst, -⟩ := ih₁ ho.1
    obtain ⟨-, hrest⟩ := ih₂ ho.2
    constructor
    · intro n text hn
      cases n with
      | zero => exact absurd hn (Nat.not_succ_le_zero _)
      | succ n =>
        obtain ⟨h₁, h₂⟩ := Nat.max_le.1 (Nat.le_of_succ_le_succ hn)
        rw [writeOn, hfirst _ h₁]
        show writeRestOn n rest _ = _
        rw [hrest _ h₂, push_append_ofList, append_ofList_append, form, List.cons_append]
    · intro n text hn
      obtain ⟨h₁, h₂⟩ := Nat.max_le.1 hn
      rw [writeRestOn, hfirst _ h₁]
      show writeRestOn n rest _ = _
      rw [hrest _ h₂, push_append_ofList, append_ofList_append, restForm, List.cons_append]
  | primitive | closure | absent => exact ho.elim
  | nil =>
    constructor
    · intro n text hn
      cases n with
      | zero => exact absurd hn (Nat.not_succ_le_zero _)
      | succ n => rfl
    · intro n text hn
      rw [writeRestOn, restForm, ← push_append_ofList, String.ofList_nil, String.append_empty]
  | _ =>
    constructor
    · intro n text hn
      cases n with
      | zero => exact absurd hn (Nat.not_succ_le_zero _)
      | succ n =>
        simp only [writeOn, writeAtom_eq ho]
        rfl
    · intro n text hn
      cases n with
      | zero => exact absurd hn (Nat.not_succ_le_zero _)
      | succ n =>
        simp only [writeRestOn, restForm, writeAtom_eq ho]
        exact congrArg Except.ok (push_dotted text _)

/-- An object is written whenever it may nest as many levels as it has. -/
theorem write_eq {o : Object ι} (ho : o.IsPlain) {n : Nat} (hn : o.levels ≤ n) :
    o.write n = .ok (String.ofList o.form) := by
  rw [write, (writeOn_eq ho).1 "" hn, String.empty_append]

end SmallScheme.Object
