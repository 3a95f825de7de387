import Mathlib.Data.List.Pairwise
import SmallScheme.Proofs.Evaluation.Syntax
import SmallScheme.Proofs.Object.Writer
import SmallScheme.Proofs.Sequencing

/-!
# The parts of an object

A pair and a procedure are made of other objects, their components; the parts of an object
are the object itself and the parts of its components. Strings, pairs and procedures bear a
mark. An object is *well made* if it is one that the language can make: an integer in the
range of fixnums, a procedure with a list of symbols for parameters and a list of at least
one form for a body.

New objects come in two ways, and both give every object a mark of its own: `Datum.place`
makes a whole datum (`marks_place`), `Value.list` makes the pairs of a list of values that are
there already (`marks_list`).

Apart from nesting too deeply, an object cannot be written only if one of its parts has no
external form (`absent_mem_parts_of_writeOn`).
-/

namespace SmallScheme.Object

variable {ι : Type}

/-- The mark of an object that has an identity of its own. -/
def mark? : Object ι → Option ι
  | string m _ | pair m _ _ | primitive m _ | closure m _ _ _ => some m
  | _ => none

/-- The objects that an object is made of. -/
def components : Object ι → List (Object ι)
  | pair _ first rest => [first, rest]
  | closure _ params forms _ => [params, forms]
  | _ => []

/-- An object, its components, their components, and so on. -/
def parts : Object ι → List (Object ι)
  | pair m first rest => pair m first rest :: (first.parts ++ rest.parts)
  | closure m params forms f => closure m params forms f :: (params.parts ++ forms.parts)
  | o => [o]

/-- The pairs along `rest`. -/
def cells : Object ι → List (Object ι)
  | pair m first rest => pair m first rest :: rest.cells
  | _ => []

/-- The object is a proper list of at least one form. -/
def IsBody (o : Object ι) : Prop := ∃ m e es, o = pair m e es ∧ es.isList = true

/-- The object itself, its components left aside, is one that the language makes when there
are `size` frames. -/
def IsWellMade (size : Nat) : Object ι → Prop
  | integer n => Text.IsFixnum n
  | character c => c.toNat.isValidChar
  | closure _ params forms f => params.IsSymbolList ∧ forms.IsBody ∧ f < size
  | absent => False
  | _ => True

/-- Every part of the object is well made. -/
def IsSound (size : Nat) (o : Object ι) : Prop := ∀ p ∈ o.parts, p.IsWellMade size

theorem self_mem_parts (o : Object ι) : o ∈ o.parts := by
  cases o <;> simp [parts]

theorem mem_parts_first {m : ι} {first rest p : Object ι} (h : p ∈ first.parts) :
    p ∈ (pair m first rest).parts :=
  List.mem_cons_of_mem _ (List.mem_append_left _ h)

theorem mem_parts_rest {m : ι} {first rest p : Object ι} (h : p ∈ rest.parts) :
    p ∈ (pair m first rest).parts :=
  List.mem_cons_of_mem _ (List.mem_append_right _ h)

/-- A set of objects that has the components of its objects has their parts. -/
theorem mem_of_mem_parts {S : Object ι → Prop} (hS : ∀ o, S o → ∀ c ∈ o.components, S c)
    {o p : Object ι} (ho : S o) (hp : p ∈ o.parts) : S p := by
  induction o with
  | pair m first rest ih₁ ih₂ =>
    simp only [parts, List.mem_cons, List.mem_append] at hp
    rcases hp with rfl | hp | hp
    · exact ho
    · exact ih₁ (hS _ ho _ (by simp [components])) hp
    · exact ih₂ (hS _ ho _ (by simp [components])) hp
  | closure m params forms f ih₁ ih₂ =>
    simp only [parts, List.mem_cons, List.mem_append] at hp
    rcases hp with rfl | hp | hp
    · exact ho
    · exact ih₁ (hS _ ho _ (by simp [components])) hp
    · exact ih₂ (hS _ ho _ (by simp [components])) hp
  | _ =>
    obtain rfl := List.mem_singleton.1 hp
    exact ho

/-- The parts of an object have their components among them. -/
theorem mem_parts_of_mem_components {o p c : Object ι} (hp : p ∈ o.parts)
    (hc : c ∈ p.components) : c ∈ o.parts := by
  induction o with
  | pair m first rest ih₁ ih₂ =>
    simp only [parts, List.mem_cons, List.mem_append] at hp ⊢
    rcases hp with rfl | hp | hp
    · simp only [components, List.mem_cons, List.not_mem_nil, or_false] at hc
      rcases hc with rfl | rfl
      · exact .inr (.inl (self_mem_parts _))
      · exact .inr (.inr (self_mem_parts _))
    · exact .inr (.inl (ih₁ hp))
    · exact .inr (.inr (ih₂ hp))
  | closure m params forms f ih₁ ih₂ =>
    simp only [parts, List.mem_cons, List.mem_append] at hp ⊢
    rcases hp with rfl | hp | hp
    · simp only [components, List.mem_cons, List.not_mem_nil, or_false] at hc
      rcases hc with rfl | rfl
      · exact .inr (.inl (self_mem_parts _))
      · exact .inr (.inr (self_mem_parts _))
    · exact .inr (.inl (ih₁ hp))
    · exact .inr (.inr (ih₂ hp))
  | _ =>
    obtain rfl := List.mem_singleton.1 hp
    simp [components] at hc

/-- If no mark is borne twice, an object is known by its mark. -/
theorem eq_of_nodup_marks {os : List (Object ι)} (h : (os.filterMap mark?).Nodup)
    {o p : Object ι} (ho : o ∈ os) (hp : p ∈ os) {k : ι} (hok : o.mark? = some k)
    (hpk : p.mark? = some k) : o = p := by
  by_contra hne
  have hpw := List.pairwise_filterMap.1 h
  have : Std.Symm fun a b : Object ι => ∀ k, a.mark? = some k → ∀ l, b.mark? = some l → k ≠ l :=
    ⟨fun a b hab k hk l hl heq => hab l hl k hk heq.symm⟩
  exact hpw.forall ho hp hne k hok k hpk rfl

theorem IsWellMade.mono {size size' : Nat} {o : Object ι} (h : o.IsWellMade size)
    (hs : size ≤ size') : o.IsWellMade size' := by
  cases o with
  | closure m params forms f => exact ⟨h.1, h.2.1, Nat.lt_of_lt_of_le h.2.2 hs⟩
  | _ => exact h

end SmallScheme.Object

namespace SmallScheme

open Object Sequencing

/-! ### A datum that is placed -/

namespace Datum

/-- A plain datum is placed as a value of well made parts. -/
theorem isSound_place {d : Datum} (hd : d.IsPlain) (m size : Nat) :
    (d.place m).1.IsSound size := by
  induction d generalizing m with
  | pair mark first rest ih₁ ih₂ =>
    intro p hp
    simp only [place, parts, List.mem_cons, List.mem_append] at hp
    rcases hp with rfl | hp | hp
    · trivial
    · exact ih₁ hd.1 _ p hp
    · exact ih₂ hd.2 _ p hp
  | integer n => exact List.forall_mem_singleton.2 hd
  | character c => exact List.forall_mem_singleton.2 c.valid
  | primitive | closure | absent => exact hd.elim
  | _ => exact List.forall_mem_singleton.2 trivial

/-- A number, the numbers that follow it up to `a`, and those that follow up to `b`. -/
theorem range'_cons_append {m a b : Nat} (h : m + 1 ≤ a) (h' : a ≤ b) :
    m :: (List.range' (m + 1) (a - (m + 1)) ++ List.range' a (b - a)) =
      List.range' m (b - m) := by
  obtain ⟨i, rfl⟩ := Nat.exists_eq_add_of_le h
  obtain ⟨j, rfl⟩ := Nat.exists_eq_add_of_le h'
  rw [Nat.add_sub_cancel_left, Nat.add_sub_cancel_left, List.range'_append_1,
    show m + 1 + i + j - m = i + j + 1 by omega, List.range'_succ]

/-- The objects of a datum that is placed bear the marks between the two given ones, one
each. -/
theorem marks_place (d : Datum) (m : Nat) :
    (d.place m).1.parts.filterMap mark? = List.range' m ((d.place m).2 - m) := by
  induction d generalizing m with
  | pair mark first rest ih₁ ih₂ =>
    simp only [place, parts, List.filterMap_cons_some (rfl : mark? (.pair m _ _) = some m),
      List.filterMap_append, ih₁, ih₂]
    exact range'_cons_append (le_place first _) (le_place rest _)
  | closure mark params forms f ih₁ ih₂ =>
    simp only [place, parts, List.filterMap_cons_some (rfl : mark? (.closure m _ _ f) = some m),
      List.filterMap_append, ih₁, ih₂]
    exact range'_cons_append (le_place params _) (le_place forms _)
  | _ => simp [place, parts, mark?]

theorem mark?_of_mem_parts_place {d : Datum} {m k : Nat} {v : Value}
    (hv : v ∈ (d.place m).1.parts) (hk : v.mark? = some k) : m ≤ k ∧ k < (d.place m).2 := by
  have h : k ∈ (d.place m).1.parts.filterMap mark? := List.mem_filterMap.2 ⟨v, hv, hk⟩
  rw [marks_place, List.mem_range'_1] at h
  omega

end Datum

/-! ### Identity -/

namespace Value

end Value

/-! ### A list of values -/

namespace Value

theorem mem_cells_list {m : Nat} {vs : List Value} {v : Value} (h : v ∈ (list m vs .nil).cells) :
    ∃ k a d, v = .pair k a d ∧ m ≤ k ∧ k < m + vs.length ∧ a ∈ vs ∧
      (d = .nil ∨ d ∈ (list m vs .nil).cells) := by
  induction vs generalizing m with
  | nil => simp [list, cells] at h
  | cons u vs ih =>
    simp only [list, cells, List.mem_cons, List.length_cons] at h ⊢
    rcases h with rfl | h
    · refine ⟨m, u, _, rfl, Nat.le_refl m, by omega, .inl rfl, ?_⟩
      cases vs with
      | nil => exact .inl rfl
      | cons w vs => exact .inr (.inr (by simp [list, cells]))
    · obtain ⟨k, a, d, rfl, h₁, h₂, ha, hd⟩ := ih h
      refine ⟨k, a, d, rfl, by omega, by omega, .inr ha, ?_⟩
      exact hd.imp_right .inr

/-- The pairs of a new list bear the marks from the given one on, one each. -/
theorem marks_list (m : Nat) (vs : List Value) :
    (list m vs .nil).cells.filterMap mark? = List.range' m vs.length := by
  induction vs generalizing m with
  | nil => rfl
  | cons v vs ih =>
    rw [list, cells, List.filterMap_cons_some (rfl : mark? (.pair m v _) = some m), ih,
      List.length_cons, List.range'_succ]

end Value

/-! ### What cannot be written -/

namespace Object

variable {ι : Type} {o : Object ι}

/-- Only what has no external form is an obstacle to writing, apart from the nesting. -/
theorem absent_mem_parts_of_writeOn (o : Object ι) :
    (∀ {n text}, o.writeOn n text = .error .noExternalForm → .absent ∈ o.parts) ∧
    ∀ {n text}, o.writeRestOn n text = .error .noExternalForm → .absent ∈ o.parts := by
  induction o with
  | pair m first rest ih₁ ih₂ =>
    constructor
    · intro n text h
      cases n with
      | zero => cases h
      | succ n =>
        rw [writeOn] at h
        rcases or_exists_of_bind_eq_error h with hfirst | ⟨_, -, hrest⟩
        · exact mem_parts_first (ih₁.1 hfirst)
        · exact mem_parts_rest (ih₂.2 hrest)
    · intro n text h
      rw [writeRestOn] at h
      rcases or_exists_of_bind_eq_error h with hfirst | ⟨_, -, hrest⟩
      · exact mem_parts_first (ih₁.1 hfirst)
      · exact mem_parts_rest (ih₂.2 hrest)
  | nil =>
    constructor
    · intro n text h
      cases n <;> cases h
    · intro n text h
      rw [writeRestOn] at h
      cases h
  | _ =>
    constructor
    all_goals
      intro n text h
      cases n <;> first | exact self_mem_parts _ | cases h

/-- The same holds of showing an object in a message. -/
theorem absent_mem_parts_of_describe {limit : Nat}
    (h : o.describe limit = .error .noExternalForm) : .absent ∈ o.parts := by
  cases o with
  | pair m first rest =>
    rcases or_exists_of_bind_eq_error h with hwrite | ⟨_, -, hdone⟩
    · exact (absent_mem_parts_of_writeOn _).1 hwrite
    · cases hdone
  | closure m params forms f =>
    rcases or_exists_of_bind_eq_error h with hwrite | ⟨_, -, hdone⟩
    · have hparams := (absent_mem_parts_of_writeOn params).1 hwrite
      exact List.mem_cons_of_mem _ (List.mem_append_left _ hparams)
    · cases hdone
  | boolean | integer | nil => exact (absent_mem_parts_of_writeOn _).1 h
  | _ => cases h

end Object

end SmallScheme
