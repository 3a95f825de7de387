import SmallScheme.Proofs.Evaluation.BigStep
import SmallScheme.Proofs.Object.Parts
import SmallScheme.Proofs.Primitive.Arguments

/-!
# The errors of an evaluation

An evaluation can be stopped from outside, by one of its bounds or by the text it is read
from. All other errors are *intrinsic*: they say something about the expression. The
errors that the rules of evaluation derive are all of this kind.

An intrinsic error is *regular* if it is an error of the language. There is one that is not:
`string->number` fails outside the language when the numeral is too long
(`Primitive.error_of_apply`).

What does not spell a special form is refused with an error about a shape, and the message of
such an error shows nothing but a part of what was refused (`Form.isShapeFaultOf_of_parse`).
-/

namespace SmallScheme

open Object Sequencing

/-- The error comes from an expression, and not from a bound, from reading or from writing. -/
def Error.isIntrinsic : Error → Bool
  | .read _ | .write _ | .tooDeep | .depth | .decoding | .unfinished => false
  | _ => true

/-- The error comes from an expression and is one of the language. -/
def Error.isRegular (e : Error) : Bool := e.isIntrinsic && e.isOrdinary

theorem Error.isIntrinsic_of_isRegular {e : Error} (h : e.isRegular = true) :
    e.isIntrinsic = true := (Bool.and_eq_true_iff.1 h).1

/-- A computation without a store that fails with regular errors only. -/
def FailsRegularly {α : Type} (x : Except Error α) : Prop :=
  ∀ e, x = .error e → e.isRegular = true

namespace FailsRegularly

variable {α : Type}

theorem ok (a : α) : FailsRegularly (.ok a) := by
  intro e h
  cases h

theorem error {e : Error} (h : e.isRegular = true) :
    FailsRegularly (.error e : Except Error α) := by
  intro e' he
  cases he
  exact h

end FailsRegularly

/-! ### Errors about shapes -/

/-- An error about a shape or about a value says something about the expression. -/
theorem Error.isRegular_of_kind {err : Error} (h : err.kind = .shape ∨ err.kind = .value) :
    err.isRegular = true := by
  cases err with
  | read e => cases e <;> rcases h with h | h <;> cases h
  | write e => cases e <;> rcases h with h | h <;> cases h
  | tooDeep | depth | decoding | unfinished | digitLimit => rcases h with h | h <;> cases h
  | _ => rfl

/-- The object that an error about a shape shows in its message. -/
def Error.shown? : Error → Option Value
  | definitionOf d | notExpression d | assignmentTarget d | definitionTarget d | parameter d
  | parameterTail d => some d
  | _ => none

/-- The message of an error about a shape can be made if the object in it can be shown. -/
theorem Error.message_of_kind_shape {err : Error} (h : err.kind = .shape) (limit : Nat) :
    ∃ wording : String → String, err.message limit =
      match err.shown? with
      | some d => do return wording (← d.describe limit)
      | none => .ok (wording "") := by
  cases err with
  | read e => cases e <;> cases h
  | write e => cases e <;> cases h
  | improperOperands | quoteShape | assignmentShape | definitionShape | definitionValue
  | conditionalShape | lambdaShape | variadic => exact ⟨fun _ => _, rfl⟩
  | _ => first | exact ⟨_, rfl⟩ | cases h

/-- An error about a shape is shown as such, unless the object in its message cannot be. -/
theorem Error.report_of_kind_shape {err : Error} (h : err.kind = .shape) (limit : Nat) :
    (∃ text, err.report limit = ⟨.shape, some text⟩) ∨
      ∃ d w, err.shown? = some d ∧ d.describe limit = .error w ∧ err.report limit = w.report := by
  obtain ⟨wording, hmessage⟩ := message_of_kind_shape h limit
  have hordinary : err.isOrdinary = true := by simp [isOrdinary, h]
  cases hd : err.shown? with
  | none =>
    simp only [hd] at hmessage
    exact .inl ⟨wording "", by simp only [report, hmessage, h, hordinary]; rfl⟩
  | some d =>
    simp only [hd] at hmessage
    cases hdescribe : d.describe limit with
    | ok shown =>
      rw [hdescribe] at hmessage
      exact .inl ⟨wording shown, by simp only [report, hmessage, h, hordinary]; rfl⟩
    | error w =>
      rw [hdescribe] at hmessage
      exact .inr ⟨d, w, rfl, hdescribe, by simp only [report, hmessage]; rfl⟩

/-- The error says that something has a wrong shape, and shows nothing but a part of `o`. -/
def Error.IsShapeFaultOf (err : Error) (o : Value) : Prop :=
  err.kind = .shape ∧ ∀ d, err.shown? = some d → d ∈ o.parts

theorem Error.IsShapeFaultOf.of_shown?_eq_none {err : Error} {o : Value} (hkind : err.kind = .shape)
    (h : err.shown? = none) : err.IsShapeFaultOf o :=
  ⟨hkind, fun d hd => by rw [h] at hd; cases hd⟩

theorem isShapeFaultOf_of_checkParameters {params : Value} {err : Error}
    (h : checkParameters params = .error err) : err.IsShapeFaultOf params := by
  induction params with
  | pair m p rest _ ih =>
    cases p with
    | symbol n =>
      obtain ⟨hkind, hshown⟩ := ih h
      exact ⟨hkind, fun d hd => mem_parts_rest (hshown d hd)⟩
    | _ =>
      cases h
      refine ⟨rfl, fun d hd => ?_⟩
      cases hd
      exact mem_parts_first (self_mem_parts _)
  | nil => cases h
  | _ =>
    cases h
    exact .of_shown?_eq_none rfl rfl

/-- **What does not spell a form is refused for its shape.** -/
theorem Form.isShapeFaultOf_of_parse {k : Keyword} {tail : Value} {err : Error}
    (h : Form.parse k tail = .error err) : err.IsShapeFaultOf tail := by
  cases k with
  | quote =>
    simp only [Form.parse, Form.parseQuote] at h
    split at h <;> cases h
    exact .of_shown?_eq_none rfl rfl
  | assign =>
    simp only [Form.parse, Form.parseAssign] at h
    split at h <;> cases h
    · refine ⟨rfl, fun d hd => ?_⟩
      cases hd
      exact mem_parts_first (self_mem_parts _)
    · exact .of_shown?_eq_none rfl rfl
  | define =>
    simp only [Form.parse, Form.parseDefine] at h
    split at h
    · split at h
      · unfold Form.parseTarget at h
        split at h
        · cases h
        · cases h
          exact .of_shown?_eq_none rfl rfl
        · cases h
        · cases h
          refine ⟨rfl, fun d hd => ?_⟩
          cases hd
          exact mem_parts_first (self_mem_parts _)
      · cases h
        exact .of_shown?_eq_none rfl rfl
    · cases h
      exact .of_shown?_eq_none rfl rfl
  | conditional =>
    simp only [Form.parse, Form.parseConditional] at h
    split at h <;> cases h
    exact .of_shown?_eq_none rfl rfl
  | lambda =>
    simp only [Form.parse, Form.parseLambda] at h
    split at h
    · split at h
      · rcases or_exists_of_bind_eq_error h with hcheck | ⟨_, -, hdone⟩
        · obtain ⟨hkind, hshown⟩ := isShapeFaultOf_of_checkParameters hcheck
          exact ⟨hkind, fun d hd => mem_parts_first (hshown d hd)⟩
        · cases hdone
      · cases h
        exact .of_shown?_eq_none rfl rfl
    · cases h
      exact .of_shown?_eq_none rfl rfl

/-! ### Shapes, parameters and primitives -/

theorem Form.parse_failsRegularly (k : Keyword) (rest : Value) :
    FailsRegularly (Form.parse k rest) :=
  fun _ h => Error.isRegular_of_kind (.inl (Form.isShapeFaultOf_of_parse h).1)

theorem Store.extend_failsRegularly (s : Store) (params args : Value) (f : FrameId) :
    FailsRegularly (s.extend params args f) := by
  have h : ∀ expected got bs,
      FailsRegularly (Bindings.addParameters expected got params args bs) := by
    intro expected got bs
    fun_induction Bindings.addParameters expected got params args bs with
    | case1 bs m n params m' v args ih => exact ih
    | case4 => exact .ok _
    | _ => exact .error rfl
  intro e he
  unfold Store.extend at he
  split at he
  · cases he
  · next herr =>
    cases he
    exact h _ _ _ _ herr

namespace Primitive

/-- **A primitive fails with a regular error**, or it is `string->number` and its argument is a
numeral that is too long. -/
theorem error_of_apply {p : Primitive} {args : Value} {mark : Nat} {e : Error}
    (h : p.apply args mark = .error e) :
    e.isRegular = true ∨ e = .digitLimit ∧ p = stringToNumber ∧
      ∃ k j text rest, args = .pair k (.string j text) rest ∧ IsLongNumeral text := by
  cases fault_of_apply h with
  | missing | typing => exact .inl rfl
  | value _ he => exact .inl (Error.isRegular_of_kind (.inr he))
  | digitLimit hp hargs hlong => exact .inr ⟨rfl, hp, _, _, _, _, hargs, hlong⟩

theorem isIntrinsic_of_apply {p : Primitive} {args : Value} {mark : Nat} {e : Error}
    (h : p.apply args mark = .error e) : e.isIntrinsic = true := by
  rcases error_of_apply h with he | ⟨rfl, -⟩
  · exact Error.isIntrinsic_of_isRegular he
  · rfl

end Primitive

/-! ### Derivations -/

namespace BigStep

mutual

/-- **The errors that the rules derive are intrinsic.** -/
theorem Evaluates.isIntrinsic : ∀ {e : Value} {f : FrameId} {s t : Store} {err : Error},
    Evaluates e f s (.error err t) → err.isIntrinsic = true
  | _, _, _, _, _, .unbound _ | _, _, _, _, _, .notExpression _
  | _, _, _, _, _, .assignUnbound _ _ _ | _, _, _, _, _, .defineRefused _ _ _
  | _, _, _, _, _, .defineProcedureRefused _ _ _ => rfl
  | _, _, _, _, _, .malformed _ h =>
    Error.isIntrinsic_of_isRegular (Form.parse_failsRegularly _ _ _ h)
  | _, _, _, _, _, .assignFails _ d | _, _, _, _, _, .defineFails _ d
  | _, _, _, _, _, .defineProcedureFails _ d | _, _, _, _, _, .testFails _ d
  | _, _, _, _, _, .operatorFails _ d => d.isIntrinsic
  | _, _, _, _, _, .consequent _ _ b | _, _, _, _, _, .alternative _ _ _ b => b.isIntrinsic
  | _, _, _, _, _, .application _ _ _ a => a.isIntrinsic
  | _, _, _, _, _, .operandsFail _ _ ds => ds.isIntrinsic

theorem Operands.isIntrinsic : ∀ {es : Value} {f : FrameId} {s t : Store} {err : Error},
    Operands es f s (.error err t) → err.isIntrinsic = true
  | _, _, _, _, _, .improper _ _ => rfl
  | _, _, _, _, _, .fails d => d.isIntrinsic
  | _, _, _, _, _, .restFails _ ds => ds.isIntrinsic

theorem Applies.isIntrinsic : ∀ {p args : Value} {s t : Store} {err : Error},
    Applies p args s (.error err t) → err.isIntrinsic = true
  | _, _, _, _, _, .primitiveFails h => Primitive.isIntrinsic_of_apply h
  | _, _, _, _, _, .closure _ d => d.isIntrinsic
  | _, _, _, _, _, .closureFails h =>
    Error.isIntrinsic_of_isRegular (Store.extend_failsRegularly _ _ _ _ _ h)
  | _, _, _, _, _, .notProcedure _ => rfl

theorem Runs.isIntrinsic : ∀ {forms : Value} {f : FrameId} {s t : Store} {err : Error},
    Runs forms f s (.error err t) → err.isIntrinsic = true
  | _, _, _, _, _, .last d => d.isIntrinsic
  | _, _, _, _, _, .cons _ _ ds => ds.isIntrinsic
  | _, _, _, _, _, .fails _ d => d.isIntrinsic
  | _, _, _, _, _, .noForms _ => rfl

end

end BigStep

end SmallScheme
