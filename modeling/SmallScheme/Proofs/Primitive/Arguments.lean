import SmallScheme.Primitive.Apply
import SmallScheme.Proofs.Sequencing

/-!
# What a primitive makes of its arguments

A primitive may be given any value as the list of its arguments: a proper list, an improper one,
or no list. It looks at the elements alone, and most primitives look at no more of them than they
need (`Primitive.needed`). So it is refused too few arguments and nothing else of their number, and
what follows the arguments needed makes no difference.

## The model

`Primitive.Fault p args e` says why `p` may refuse the arguments `args` with the error `e`. There
are four reasons: too few arguments, an argument of a wrong type, one with a wrong value, and a
numeral that is too long to be converted. `Alike` compares the outcomes of two calls that may give
new objects different marks.
-/

namespace SmallScheme

open Object Sequencing

/-- How an argument of a wrong type is shown. -/
theorem Error.report_wrongType (who : Primitive) (expected : Expected) (v : Value) (limit : Nat) :
    (Error.wrongType who expected v).report limit =
      match v.describe limit with
      | .ok shown =>
        ⟨.typing, some (who.name ++ ": expected " ++ expected.message ++ ", got " ++ shown)⟩
      | .error w => w.report := by
  simp only [report, message]
  cases v.describe limit <;> rfl

/-- An argument of a wrong type is refused for its type, unless it is too deep to be shown. -/
theorem Error.report_wrongType_cases (who : Primitive) (expected : Expected) (v : Value)
    (limit : Nat) : ((Error.wrongType who expected v).report limit).kind = .typing ∨
      v.describe limit = .error .tooDeep ∧ (Error.wrongType who expected v).report limit =
        ⟨.write, some "value nested too deeply to write"⟩ := by
  rw [report_wrongType]
  cases v.describe limit with
  | ok shown => exact .inl rfl
  | error w => cases w with
    | tooDeep => exact .inr ⟨rfl, rfl⟩
    | noExternalForm => exact .inl rfl

/-- The message of an error about a value shows no object that nests. -/
theorem Error.report_of_kind_value {e : Error} (h : e.kind = .value) (limit : Nat) :
    ∃ text, e.report limit = ⟨.value, some text⟩ := by
  cases e with
  | read e => cases e <;> cases h
  | write e => cases e <;> cases h
  | codePoint | notNumeral | numeralRange | overflow => exact ⟨_, rfl⟩
  | _ => cases h

namespace Primitive

/-- The number of arguments that a primitive needs. -/
def needed : Primitive → Nat
  | cons | isEq => 2
  | sum | list => 0
  | _ => 1

/-- A primitive that looks at all its arguments. -/
def TakesAll (p : Primitive) : Prop := p ∈ [sum, sameNumber, list]

variable {p : Primitive} {args args' v : Value} {mark mark' : Nat} {e : Error}

/-! ### Single arguments -/

theorem argument_of_getElem? (who : String) {i : Int} (h : args.elements[i.toNat]? = some v) :
    argument who args i = .ok v := by
  simp only [argument, h]

theorem argument_of_pairCount_le (who : String) {i : Int} (h : args.pairCount ≤ i.toNat) :
    argument who args i = .error (.missingArgument who (i + 1)) := by
  simp only [argument, List.getElem?_eq_none h]

/-- An argument is the same if the arguments up to it are. -/
theorem argument_congr (who : String) {k : Nat} {i : Int} (hi : i.toNat < k)
    (h : args.elements.take k = args'.elements.take k) :
    argument who args i = argument who args' i := by
  have hget : args.elements[i.toNat]? = args'.elements[i.toNat]? := by
    rw [← List.getElem?_take_of_lt hi, h, List.getElem?_take_of_lt hi]
  simp only [argument, hget]

/-! ### All arguments -/

/-- All arguments are integers, or the first that is none is refused. -/
theorem mapM_integerOf (who : Primitive) (vs : List Value) :
    (∃ ns : List Int, vs = ns.map .integer ∧ vs.mapM (integerOf who) = .ok ns) ∨
    ∃ (ns : List Int) (v : Value) (rest : List Value), vs = ns.map .integer ++ v :: rest ∧
      (∀ n, v ≠ .integer n) ∧
      vs.mapM (integerOf who) = .error (.wrongType who .integer v) := by
  induction vs with
  | nil => exact .inl ⟨[], rfl, rfl⟩
  | cons v vs ih =>
    rw [List.mapM_cons]
    cases v with
    | integer n =>
      rcases ih with ⟨ns, rfl, h⟩ | ⟨ns, v, rest, rfl, hv, h⟩
      · exact .inl ⟨n :: ns, rfl, by rw [h]; rfl⟩
      · exact .inr ⟨n :: ns, v, rest, rfl, hv, by rw [h]; rfl⟩
    | _ => exact .inr ⟨[], _, vs, rfl, nofun, rfl⟩

/-! ### Refused arguments -/

/-- The text is a numeral with more digits than can be converted. -/
def IsLongNumeral (text : String) : Prop :=
  ∃ negative digits, Text.splitNumeral? text.toList = some (negative, digits) ∧
    Text.digitLimit < digits.length

/-- Why a primitive refuses its arguments. -/
inductive Fault (p : Primitive) (args : Value) : Error → Prop
  /-- There are too few. -/
  | missing (h : args.pairCount < p.needed) :
      Fault p args (.missingArgument p.name (args.pairCount + 1))
  /-- One has a wrong type. -/
  | typing {expected : Expected} {v : Value} (h : p.needed ≤ args.pairCount)
      (hv : v ∈ args.elements) : Fault p args (.wrongType p expected v)
  /-- One has the right type and a wrong value. -/
  | value {e : Error} (h : p.needed ≤ args.pairCount) (he : e.kind = .value) : Fault p args e
  /-- The first is a numeral that is too long. -/
  | digitLimit {k j : Nat} {text : String} {rest : Value} (hp : p = stringToNumber)
      (h : args = .pair k (.string j text) rest) (hlong : IsLongNumeral text) :
      Fault p args .digitLimit

theorem eq_pair_of_argument {who : String} (h : argument who args 0 = .ok v) :
    ∃ k rest, args = .pair k v rest := by
  unfold argument at h
  cases args with
  | pair k first rest =>
    cases h
    exact ⟨k, rest, rfl⟩
  | _ => cases h

/-- A string that cannot be converted has a wrong value, unless it is too long. -/
theorem error_of_numberOf {text : String} (h : numberOf text = .error e) :
    e.kind = .value ∨ e = .digitLimit ∧ IsLongNumeral text := by
  unfold numberOf at h
  split at h
  · cases h
    exact .inl rfl
  · next negative digits hsplit =>
    split at h
    · simp only at h
      split at h
      · cases h
      · cases h
        exact .inl rfl
    · next hlong =>
      cases h
      exact .inr ⟨rfl, negative, digits, hsplit, Nat.lt_of_not_le hlong⟩

/-- Too few arguments are refused. -/
theorem apply_of_pairCount_lt (h : args.pairCount < p.needed) (mark : Nat) :
    p.apply args mark = .error (.missingArgument p.name (args.pairCount + 1)) := by
  cases p with
  | sum | list => exact absurd h (Nat.not_lt_zero _)
  | cons | isEq =>
    obtain hnone | hone : args.pairCount = 0 ∨ args.pairCount = 1 := by
      simp only [needed] at h
      omega
    · have hfirst (who : String) := argument_of_pairCount_le who (i := 0) (Nat.le_of_eq hnone)
      simp only [apply, hfirst, hnone]
      rfl
    · have hlt : 0 < args.elements.length := Nat.lt_of_lt_of_eq Nat.zero_lt_one hone.symm
      have hfirst (who : String) := argument_of_getElem? who (i := 0)
        (List.getElem?_eq_getElem hlt)
      have hsecond (who : String) := argument_of_pairCount_le who (i := 1) (Nat.le_of_eq hone)
      simp only [apply, hfirst, hsecond, hone]
      rfl
  | _ =>
    have hnone : args.pairCount = 0 := Nat.lt_one_iff.1 h
    have hfirst (who : String) := argument_of_pairCount_le who (i := 0) (Nat.le_of_eq hnone)
    simp only [apply, allSame, hfirst, hnone]
    rfl

/-- **A primitive refuses its arguments for one of four reasons.** -/
theorem fault_of_apply (h : p.apply args mark = .error e) : Fault p args e := by
  by_cases hcount : args.pairCount < p.needed
  · rw [apply_of_pairCount_lt hcount] at h
    cases h
    exact .missing hcount
  rw [Nat.not_lt] at hcount
  -- the first argument, if one is needed
  have hfirst (hp : 0 < p.needed) : ∃ v ∈ args.elements, argument p.name args 0 = .ok v := by
    have hlt : 0 < args.elements.length := Nat.lt_of_lt_of_le hp hcount
    exact ⟨_, List.getElem_mem hlt, argument_of_getElem? _ (List.getElem?_eq_getElem hlt)⟩
  cases p with
  | isNull | isBoolean | isSymbol | isInteger | isCharacter | isString | isPair | isProcedure =>
    obtain ⟨v, -, hv⟩ := hfirst Nat.zero_lt_one
    simp only [apply, hv] at h
    cases h
  | charToInteger | symbolToString | car | cdr | numberToString | stringToSymbol =>
    obtain ⟨v, hmem, hv⟩ := hfirst Nat.zero_lt_one
    simp only [apply, hv] at h
    cases v <;> cases h <;> exact .typing hcount hmem
  | integerToChar =>
    obtain ⟨v, hmem, hv⟩ := hfirst Nat.zero_lt_one
    simp only [apply, hv] at h
    cases v with
    | integer n =>
      change characterOf n = .error e at h
      unfold characterOf at h
      split at h <;> cases h
      exact .value hcount rfl
    | _ =>
      cases h
      exact .typing hcount hmem
  | stringToNumber =>
    obtain ⟨v, hmem, hv⟩ := hfirst Nat.zero_lt_one
    simp only [apply, hv] at h
    cases v with
    | string j text =>
      obtain ⟨k, rest, hargs⟩ := eq_pair_of_argument hv
      rcases error_of_numberOf (show numberOf text = .error e from h) with he | ⟨rfl, hlong⟩
      · exact .value hcount he
      · exact .digitLimit rfl hargs hlong
    | _ =>
      cases h
      exact .typing hcount hmem
  | sum =>
    simp only [apply, sumOf] at h
    rcases mapM_integerOf sum args.elements with ⟨ns, -, hns⟩ | ⟨ns, v, rest, hargs, -, hv⟩
    · rw [hns] at h
      change (if Text.IsFixnum _ then _ else _) = _ at h
      split at h <;> cases h
      exact .value hcount rfl
    · rw [hv] at h
      cases h
      exact .typing hcount (by simp [hargs])
  | sameNumber =>
    obtain ⟨v, hmem, hv⟩ := hfirst Nat.zero_lt_one
    simp only [apply, allSame, hv] at h
    cases v with
    | integer n =>
      change (args.elements.mapM (integerOf sameNumber) >>= _) = _ at h
      rcases mapM_integerOf sameNumber args.elements with ⟨ns, -, hns⟩ | ⟨ns, v, rest, hargs, -, hv⟩
      · rw [hns] at h
        cases h
      · rw [hv] at h
        cases h
        exact .typing hcount (by simp [hargs])
    | _ =>
      cases h
      exact .typing hcount hmem
  | cons | isEq =>
    obtain ⟨v, -, hv⟩ := hfirst Nat.two_pos
    have hlt : 1 < args.elements.length := hcount
    simp only [apply, hv, argument_of_getElem? _ (i := 1) (List.getElem?_eq_getElem hlt)] at h
    cases h
  | list => cases h

/-! ### Arguments that do not matter -/

/-- Primitives that do not take all their arguments depend on those that they need. -/
theorem apply_congr (hp : ¬ p.TakesAll)
    (h : args.elements.take p.needed = args'.elements.take p.needed) (mark : Nat) :
    p.apply args mark = p.apply args' mark := by
  cases p with
  | sum | sameNumber | list => exact absurd (by simp [TakesAll]) hp
  | cons | isEq =>
    have hfirst (who : String) := argument_congr who (i := 0) Nat.two_pos h
    have hsecond (who : String) := argument_congr who (i := 1) Nat.one_lt_two h
    simp only [apply, hfirst, hsecond]
  | _ =>
    have hfirst (who : String) := argument_congr who (i := 0) Nat.one_pos h
    simp only [apply, hfirst]

/-- Two outcomes that differ in nothing but the mark of a new object. -/
inductive Alike (mark mark' : Nat) : Except Error Value → Except Error Value → Prop
  /-- They do not differ. -/
  | same {x : Except Error Value} : Alike mark mark' x x
  /-- A new string. -/
  | string {text : String} : Alike mark mark' (.ok (.string mark text)) (.ok (.string mark' text))
  /-- A new pair. -/
  | pair {a d : Value} : Alike mark mark' (.ok (.pair mark a d)) (.ok (.pair mark' a d))

theorem alike_apply (p : Primitive) (args : Value) (mark mark' : Nat) :
    Alike mark mark' (p.apply args mark) (p.apply args mark') := by
  cases p with
  | numberToString =>
    simp only [apply]
    cases argument numberToString.name args 0 with
    | error e => exact .same
    | ok v => cases v with
      | integer n => exact .string
      | _ => exact .same
  | symbolToString =>
    simp only [apply]
    cases argument symbolToString.name args 0 with
    | error e => exact .same
    | ok v => cases v with
      | symbol s => exact .string
      | _ => exact .same
  | cons =>
    simp only [apply]
    cases argument cons.name args 0 with
    | error e => exact .same
    | ok a => cases argument cons.name args 1 with
      | error e => exact .same
      | ok d => exact .pair
  | _ => exact .same

/-- **Primitives are safe on all arguments.** Whatever value is given as the list of arguments:

* A primitive gives a value, or an error about the number, the type or the value of an argument. An
  error about a type becomes a failure to write if the argument is too deep to be shown. The only
  other error is that of `string->number` on a numeral that is too long to be converted.
* It is an error about the number of arguments just if there are fewer than needed.
* Unless the primitive takes all its arguments, those that it needs decide the outcome, up to the
  mark of a new object. -/
theorem safe_on_arguments (limit : Nat) (p : Primitive) (args : Value) (mark : Nat) :
    ((∃ v, p.apply args mark = .ok v) ∨ ∃ e, p.apply args mark = .error e ∧
      ((e.report limit).kind ∈ [.arity, .typing, .value] ∨
        (∃ expected v, e = .wrongType p expected v ∧ v.describe limit = .error .tooDeep ∧
          e.report limit = ⟨.write, some "value nested too deeply to write"⟩) ∨
        e.report limit = ⟨.digits, none⟩ ∧ p = stringToNumber ∧
          ∃ k j text rest, args = .pair k (.string j text) rest ∧ IsLongNumeral text)) ∧
    ((∃ e, p.apply args mark = .error e ∧ (e.report limit).kind = .arity) ↔
      args.pairCount < p.needed) ∧
    (¬ p.TakesAll → ∀ args' mark', args.elements.take p.needed = args'.elements.take p.needed →
      Alike mark mark' (p.apply args mark) (p.apply args' mark')) := by
  refine ⟨?_, ⟨?_, fun h => ?_⟩, fun hp args' mark' h => ?_⟩
  · cases h : p.apply args mark with
    | ok v => exact .inl ⟨v, rfl⟩
    | error e =>
      refine .inr ⟨e, rfl, ?_⟩
      cases fault_of_apply h with
      | missing => exact .inl (by simp [Error.report, Error.message, Error.kind])
      | @typing expected v =>
        rcases Error.report_wrongType_cases p expected v limit with htyping | ⟨hdeep, hreport⟩
        · exact .inl (by simp [htyping])
        · exact .inr (.inl ⟨expected, v, rfl, hdeep, hreport⟩)
      | value _ he =>
        obtain ⟨text, hreport⟩ := Error.report_of_kind_value he limit
        exact .inl (by simp [hreport])
      | digitLimit hp hargs hlong => exact .inr (.inr ⟨rfl, hp, _, _, _, _, hargs, hlong⟩)
  · rintro ⟨e, h, harity⟩
    cases fault_of_apply h with
    | missing hlt => exact hlt
    | @typing expected v =>
      rcases Error.report_wrongType_cases p expected v limit with htyping | ⟨-, hreport⟩
      · cases htyping.symm.trans harity
      · rw [hreport] at harity
        cases harity
    | value _ he =>
      obtain ⟨text, hreport⟩ := Error.report_of_kind_value he limit
      rw [hreport] at harity
      cases harity
    | digitLimit => cases harity
  · exact ⟨_, apply_of_pairCount_lt h mark, rfl⟩
  · rw [← apply_congr hp h mark']
    exact alike_apply p args mark mark'

/-- An improper list and a proper one that start with the same two arguments. -/
theorem safe_on_arguments_cons :
    let args : Value := .pair 0 (.integer 1) (.pair 1 .nil (.pair 2 (.boolean true) (.integer 3)))
    let args' : Value := .pair 3 (.integer 1) (.pair 4 .nil .absent)
    ¬ cons.TakesAll ∧ args.elements.take cons.needed = args'.elements.take cons.needed ∧
      Alike 7 8 (cons.apply args 7) (cons.apply args' 8) := by
  intro args args'
  have hcons : ¬ cons.TakesAll := by simp [TakesAll]
  exact ⟨hcons, rfl, (safe_on_arguments 1 cons args 7).2.2 hcons args' 8 rfl⟩

end Primitive

end SmallScheme
