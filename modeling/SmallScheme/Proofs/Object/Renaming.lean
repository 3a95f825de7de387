import Mathlib.Logic.Function.Basic
import SmallScheme.Proofs.Object.Parts

/-!
# Renaming frames and marks

The numbers of frames and the marks of objects say which frames and which objects are the
same, and nothing else. A `Renaming` gives every frame another number and every object
another mark, and keeps apart what is apart. Nothing that a program can find out, and nothing
that is ever shown, depends on the choice of the numbers: external forms, descriptions and the
reports of errors are the same after a renaming.
-/

namespace SmallScheme

/-- Other numbers for frames and other marks for objects. The empty frame stays. -/
structure Renaming where
  /-- The new number of a frame. -/
  frame : FrameId → FrameId
  /-- The new mark of an object. -/
  mark : Nat → Nat
  frame_injective : Function.Injective frame
  mark_injective : Function.Injective mark
  frame_zero : frame 0 = 0

theorem Renaming.mark_add (ρ : Renaming) {m m' : Nat} (h : ∀ k, ρ.mark (m + k) = m' + k)
    (j k : Nat) : ρ.mark (m + j + k) = m' + j + k := by
  rw [Nat.add_assoc, h, Nat.add_assoc]

namespace Object

variable (ρ : Renaming)

/-- The value with frames and marks renamed. -/
def rename : Value → Value
  | string m text => string (ρ.mark m) text
  | pair m first rest => pair (ρ.mark m) first.rename rest.rename
  | primitive m p => primitive (ρ.mark m) p
  | closure m params forms f => closure (ρ.mark m) params.rename forms.rename (ρ.frame f)
  | boolean b => boolean b
  | integer n => integer n
  | character c => character c
  | nil => nil
  | symbol s => symbol s
  | absent => absent

variable (v : Value)

@[simp]
theorem elements_rename : (v.rename ρ).elements = v.elements.map (rename ρ) := by
  induction v with
  | pair m first rest _ ih => simp [rename, elements, ih]
  | _ => rfl

@[simp]
theorem ending_rename : (v.rename ρ).ending = v.ending.rename ρ := by
  induction v with
  | pair m first rest _ ih => simpa [rename, ending] using ih
  | _ => rfl

@[simp]
theorem isList_rename : (v.rename ρ).isList = v.isList := by
  rw [isList, isList, ending_rename]
  cases v.ending <;> rfl

@[simp]
theorem pairCount_rename : (v.rename ρ).pairCount = v.pairCount := by
  simp [pairCount]

@[simp]
theorem typeName_rename : (v.rename ρ).typeName = v.typeName := by
  cases v <;> rfl

@[simp]
theorem isProcedure_rename : (v.rename ρ).isProcedure = v.isProcedure := by
  cases v <;> rfl

@[simp]
theorem keyword?_rename : (v.rename ρ).keyword? = v.keyword? := by
  cases v <;> rfl

theorem same_rename (u v : Value) : Value.same (u.rename ρ) (v.rename ρ) = Value.same u v := by
  cases u <;> cases v <;> simp [rename, Value.same.eq_def, ρ.mark_injective.eq_iff]

/-! ### External forms -/

@[simp]
theorem writeAtom_rename : (v.rename ρ).writeAtom = v.writeAtom := by
  cases v <;> rfl

mutual

theorem writeOn_rename : ∀ (n : Nat) (v : Value) (text : String),
    (v.rename ρ).writeOn n text = v.writeOn n text
  | 0, _, _ => by rw [writeOn, writeOn]
  | n + 1, pair m first rest, text => by
    rw [rename, writeOn, writeOn, writeOn_rename n first]
    congr 1
    funext text
    exact writeRestOn_rename n rest text
  | n + 1, string m s, text => by rw [rename]; simp only [writeOn, writeAtom]
  | n + 1, primitive m p, text => by rw [rename]; simp only [writeOn, writeAtom]
  | n + 1, closure m params forms f, text => by rw [rename]; simp only [writeOn, writeAtom]
  | n + 1, boolean _, text | n + 1, integer _, text | n + 1, character _, text | n + 1, nil, text
  | n + 1, symbol _, text | n + 1, absent, text => rfl

theorem writeRestOn_rename : ∀ (n : Nat) (v : Value) (text : String),
    (v.rename ρ).writeRestOn n text = v.writeRestOn n text
  | n, pair m first rest, text => by
    rw [rename, writeRestOn, writeRestOn, writeOn_rename n first]
    congr 1
    funext text
    exact writeRestOn_rename n rest text
  | n, string m s, text => by rw [rename]; cases n <;> simp only [writeRestOn, writeAtom]
  | n, primitive m p, text => by rw [rename]; cases n <;> simp only [writeRestOn, writeAtom]
  | n, closure m params forms f, text => by
    rw [rename]; cases n <;> simp only [writeRestOn, writeAtom]
  | n, boolean _, text | n, integer _, text | n, character _, text | n, nil, text
  | n, symbol _, text | n, absent, text => rfl

end

@[simp]
theorem write_rename (n : Nat) : (v.rename ρ).write n = v.write n := writeOn_rename ρ n v ""

@[simp]
theorem describe_rename (n : Nat) : (v.rename ρ).describe n = v.describe n := by
  cases v with
  | pair m first rest =>
    have h := write_rename ρ (.pair m first rest) n
    simp only [rename] at h
    simp only [rename, describe, h]
  | closure m params forms f => simp only [rename, describe, write_rename]
  | _ => rfl

@[simp]
theorem plain_rename (n : Nat) : (v.rename ρ).plain n = v.plain n := by
  cases v with
  | pair m first rest => exact describe_rename ρ (.pair m first rest) n
  | closure m params forms f => exact describe_rename ρ (.closure m params forms f) n
  | _ => rfl

end Object

open Object

/-! ### New objects -/

section New

variable {ρ : Renaming} {m m' : Nat}

/-- New objects with marks from `m` on become new objects with marks from `m'` on. -/
theorem rename_list (h : ∀ k, ρ.mark (m + k) = m' + k) (vs : List Value) :
    (Value.list m vs .nil).rename ρ = Value.list m' (vs.map (rename ρ)) .nil := by
  induction vs generalizing m m' with
  | nil => rfl
  | cons v vs ih =>
    rw [Value.list, rename, ih (ρ.mark_add h 1)]
    exact congrArg (pair · _ _) (h 0)

theorem rename_place {d : Datum} (hd : d.IsPlain) (h : ∀ k, ρ.mark (m + k) = m' + k) :
    (d.place m').1 = (d.place m).1.rename ρ ∧
      ∀ k, ρ.mark ((d.place m).2 + k) = (d.place m').2 + k := by
  induction d generalizing m m' with
  | pair mark first rest ih₁ ih₂ =>
    obtain ⟨hfirst, hfirst'⟩ := ih₁ hd.1 (ρ.mark_add h 1)
    obtain ⟨hrest, hrest'⟩ := ih₂ hd.2 hfirst'
    refine ⟨?_, hrest'⟩
    simp only [Datum.place, rename, hfirst, hrest]
    exact congrArg (pair · _ _) (h 0).symm
  | string mark text => exact ⟨congrArg (string · text) (h 0).symm, ρ.mark_add h 1⟩
  | primitive | closure | absent => exact hd.elim
  | _ => exact ⟨rfl, h⟩

end New

/-! ### Errors -/

namespace Error

/-- The error with the objects in it renamed. -/
def rename (ρ : Renaming) : Error → Error
  | unbound name => unbound (name.rename ρ)
  | definitionOf name => definitionOf (name.rename ρ)
  | notExpression e => notExpression (e.rename ρ)
  | assignmentTarget name => assignmentTarget (name.rename ρ)
  | definitionTarget target => definitionTarget (target.rename ρ)
  | parameter p => parameter (p.rename ρ)
  | parameterTail tail => parameterTail (tail.rename ρ)
  | notProcedure v => notProcedure (v.rename ρ)
  | wrongType who expected v => wrongType who expected (v.rename ρ)
  | improperList tail => improperList (tail.rename ρ)
  | e => e

variable (ρ : Renaming) (e : Error)

@[simp]
theorem kind_rename : (e.rename ρ).kind = e.kind := by
  cases e <;> rfl

@[simp]
theorem isOrdinary_rename : (e.rename ρ).isOrdinary = e.isOrdinary := by
  simp [isOrdinary]

@[simp]
theorem message_rename (n : Nat) : (e.rename ρ).message n = e.message n := by
  cases e <;> simp [rename, message]

/-- **Reports do not depend on the numbers** of frames and objects. -/
@[simp]
theorem report_rename (n : Nat) : (e.rename ρ).report n = e.report n := by
  simp [report]

end Error

namespace Renaming

variable (ρ : Renaming) {α β γ δ : Type}

/-- What a computation without a store gives, with the answer passed through `φ` and the
error renamed. -/
def result (φ : α → β) : Except Error α → Except Error β
  | .ok a => .ok (φ a)
  | .error e => .error (e.rename ρ)

theorem result_bind {φ : α → β} {ψ : γ → δ} {x : Except Error α} {k : α → Except Error γ}
    {l : β → Except Error δ} (h : ∀ a, l (φ a) = ρ.result ψ (k a)) :
    (ρ.result φ x >>= l) = ρ.result ψ (x >>= k) := by
  cases x with
  | ok a => exact h a
  | error e => rfl

end Renaming

end SmallScheme
