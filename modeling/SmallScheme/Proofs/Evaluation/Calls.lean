import SmallScheme.Proofs.Evaluation.History
import SmallScheme.Proofs.Evaluation.Trampoline

/-!
# The calls of an evaluation

An evaluation comes to evaluate other expressions, each in a frame and at a store of its own
(`Entry`), and to call procedures on lists of arguments (`Calls`). Both are said here without
regard to whether the evaluation as a whole comes to an end: only what comes before has to
be finished.

* Everything that an evaluation comes to has been made and is there (`Inner.exists_steps`,
  `Calls.exists_steps`).
* An evaluation that fails outside the language has come to a call of `string->number` on a
  numeral that is too long (`BigStep.Evaluates.convertsLongNumeral`).
-/

namespace SmallScheme

open Object Moment Evaluation BigStep Relation

/-- An expression that is about to be evaluated. -/
structure Entry where
  /-- The expression. -/
  expression : Value
  /-- The frame in which it is evaluated. -/
  frame : FrameId
  /-- The store at that time. -/
  store : Store

/-- The evaluation of a datum as a form: the datum has been made and is to be evaluated. -/
def Entry.ofForm (d : Datum) (f : FrameId) (s : Store) : Entry :=
  ⟨(d.place s.fresh).1, f, { s with fresh := (d.place s.fresh).2 }⟩

/-- `InTurn es f s x t`: when the elements of `es` are evaluated in turn, from the store `s`,
it is the turn of `x` at the store `t`. -/
inductive InTurn : Value → FrameId → Store → Value → Store → Prop where
  /-- The first element. -/
  | first {m : Nat} {e es : Value} {f : FrameId} {s : Store} : InTurn (.pair m e es) f s e s
  /-- An element after the first, which has a value. -/
  | later {m : Nat} {e es v x : Value} {f : FrameId} {s t u : Store}
      (d : Evaluates e f s (.ok v t)) (h : InTurn es f t x u) : InTurn (.pair m e es) f s x u

/-- `Calls entry p args u`: the entry is an application that comes to call `p` on the list of
arguments `args` at the store `u`. -/
inductive Calls : Entry → Value → Value → Store → Prop where
  /-- The operator and the operands have values. -/
  | mk {m : Nat} {first rest p : Value} {vs : List Value} {f : FrameId} {s t u : Store}
      (hk : first.keyword? = none) (d : Evaluates first f s (.ok p t))
      (ds : Operands rest f t (.ok vs u)) :
      Calls ⟨.pair m first rest, f, s⟩ p (Value.list u.fresh vs .nil)
        { u with fresh := u.fresh + vs.length }

/-- `Inner a b`: evaluating the entry `a` comes to evaluating the entry `b`, on its behalf and
one level below, or in tail position. -/
inductive Inner : Entry → Entry → Prop where
  /-- The value of an assignment. -/
  | assigned {e x : Value} {n : Symbol} {f : FrameId} {s : Store} (h : IsForm e (.assign n x)) :
      Inner ⟨e, f, s⟩ ⟨x, f, s⟩
  /-- The value of a definition. -/
  | value {e x : Value} {n : Symbol} {f : FrameId} {s : Store} (h : IsForm e (.define n x)) :
      Inner ⟨e, f, s⟩ ⟨x, f, s⟩
  /-- The new `lambda` expression of a procedure definition. -/
  | procedure {e params forms : Value} {n : Symbol} {f : FrameId} {s : Store}
      (h : IsForm e (.defineProcedure n params forms)) :
      Inner ⟨e, f, s⟩ ⟨lambdaExpression s.fresh params forms, f, { s with fresh := s.fresh + 2 }⟩
  /-- The test of a conditional. -/
  | test {e test x : Value} {y : Option Value} {f : FrameId} {s : Store}
      (h : IsForm e (.conditional test x y)) : Inner ⟨e, f, s⟩ ⟨test, f, s⟩
  /-- The consequent of a conditional. -/
  | consequent {e test x : Value} {y : Option Value} {f : FrameId} {s t : Store}
      (h : IsForm e (.conditional test x y)) (d : Evaluates test f s (.ok (.boolean true) t)) :
      Inner ⟨e, f, s⟩ ⟨x, f, t⟩
  /-- The alternative of a conditional. -/
  | alternative {e test x y v : Value} {f : FrameId} {s t : Store}
      (h : IsForm e (.conditional test x (some y))) (d : Evaluates test f s (.ok v t))
      (hv : v ≠ .boolean true) : Inner ⟨e, f, s⟩ ⟨y, f, t⟩
  /-- The operator of an application. -/
  | operator {m : Nat} {first rest : Value} {f : FrameId} {s : Store}
      (hk : first.keyword? = none) : Inner ⟨.pair m first rest, f, s⟩ ⟨first, f, s⟩
  /-- An operand of an application. -/
  | operand {m : Nat} {first rest p x : Value} {f : FrameId} {s t u : Store}
      (hk : first.keyword? = none) (d : Evaluates first f s (.ok p t))
      (h : InTurn rest f t x u) : Inner ⟨.pair m first rest, f, s⟩ ⟨x, f, u⟩
  /-- A form of the body of a procedure that is called. -/
  | form {a : Entry} {m : Nat} {params forms args x : Value} {f g : FrameId} {s t u : Store}
      (h : Calls a (.closure m params forms f) args s) (hx : s.extend params args f = .ok (g, t))
      (hf : InTurn forms g t x u) : Inner a ⟨x, g, u⟩

/-! ### What an evaluation comes to has been made -/

section Moments

variable {S : Set Value} {e : Value} {f : FrameId} {s : Store}

theorem BigStep.Evaluates.follows {r : Outcome Value} (d : Evaluates e f s r)
    (hw : (⟨S, s⟩ : Moment).IsComplete) (he : e ∈ S) (hf : f < s.frames.size) :
    Follows Anywhere ⟨S, s⟩ r fun v w => v ∈ w.objects := by
  obtain ⟨k, hk⟩ := (d.complete (Nat.le_refl _)).exists
  have h := historic_evaluate k d.nesting hw he hf
  rw [hk] at h
  exact h.mono (fun _ _ _ => trivial) fun _ _ hq => hq

theorem BigStep.Operands.follows {es : Value} {r : Outcome (List Value)} (ds : Operands es f s r)
    (hw : (⟨S, s⟩ : Moment).IsComplete) (hes : es ∈ S) (hf : f < s.frames.size) :
    Follows Anywhere ⟨S, s⟩ r fun vs w => ∀ v ∈ vs, v ∈ w.objects := by
  obtain ⟨k, hk⟩ := (ds.complete (Nat.le_refl _)).exists
  rw [← hk]
  exact follows_operands (historic_inner (historic_evaluate k) _) hw hes hf
    (fun _ _ _ => trivial) fun _ _ _ _ => trivial

theorem InTurn.exists_steps {es x : Value} {t : Store} (h : InTurn es f s x t)
    (hw : (⟨S, s⟩ : Moment).IsComplete) (hes : es ∈ S) (hf : f < s.frames.size) :
    ∃ S', Steps Anywhere ⟨S, s⟩ ⟨S', t⟩ ∧ x ∈ S' ∧ f < t.frames.size := by
  induction h generalizing S with
  | first => exact ⟨S, .refl, hw.first hes, hf⟩
  | later d _ ih =>
    obtain ⟨S₁, hs₁, -⟩ := d.follows hw (hw.first hes) hf
    obtain ⟨S₂, hs₂, hx, hlt⟩ := ih (hs₁.isComplete hw) (hs₁.objects_subset (hw.rest hes))
      (Nat.lt_of_lt_of_le hf hs₁.size_le)
    exact ⟨S₂, hs₁.trans hs₂, hx, hlt⟩

/-- The procedure and the arguments of a call have been made, and the arguments are a proper
list. -/
theorem Calls.exists_steps {a : Entry} {p args : Value} {t : Store} (h : Calls a p args t)
    (hw : (⟨S, a.store⟩ : Moment).IsComplete) (he : a.expression ∈ S)
    (hf : a.frame < a.store.frames.size) :
    ∃ S', Steps Anywhere ⟨S, a.store⟩ ⟨S', t⟩ ∧ p ∈ S' ∧ args ∈ S' ∧ args.isList = true := by
  obtain ⟨hk, d, ds⟩ := h
  rename_i vs f s t u
  obtain ⟨S₁, hs₁, hp⟩ := d.follows hw (hw.first he) hf
  have hw₁ := hs₁.isComplete hw
  obtain ⟨S₂, hs₂, hvs⟩ := ds.follows hw₁ (hs₁.objects_subset (hw.rest he))
    (Nat.lt_of_lt_of_le hf hs₁.size_le)
  have hlist : Follows Anywhere ⟨S₂, u⟩ (argumentList vs u) fun args w => args ∈ w.objects :=
    follows_argumentList (hs₂.isComplete hw₁) hvs
  obtain ⟨S₃, hs₃, hargs⟩ := hlist
  refine ⟨S₃, (hs₁.trans hs₂).trans hs₃, hs₃.objects_subset (hs₂.objects_subset hp), hargs, ?_⟩
  rw [isList, Value.ending_list]
  rfl

/-- **What an evaluation comes to has been made**, and its frame is there. -/
theorem Inner.exists_steps {a b : Entry} (h : Inner a b)
    (hw : (⟨S, a.store⟩ : Moment).IsComplete) (he : a.expression ∈ S)
    (hf : a.frame < a.store.frames.size) :
    ∃ S', Steps Anywhere ⟨S, a.store⟩ ⟨S', b.store⟩ ∧ b.expression ∈ S' ∧
      b.frame < b.store.frames.size := by
  cases h with
  | assigned h =>
    cases h with
    | assign => exact ⟨S, .refl, hw.first (hw.rest (hw.rest he)), hf⟩
  | value h =>
    cases h with
    | define => exact ⟨S, .refl, hw.first (hw.rest (hw.rest he)), hf⟩
  | procedure h =>
    cases h with
    | defineProcedure =>
      have hmake := canMake_lambdaExpression hw (hw.rest (hw.first (hw.rest he)))
        (hw.rest (hw.rest he))
      exact ⟨_, .single (.make hmake), .inr (.inl rfl), hf⟩
  | test h =>
    cases h with
    | conditional | alternative => exact ⟨S, .refl, hw.first (hw.rest he), hf⟩
  | consequent h d =>
    cases h with
    | conditional | alternative =>
      obtain ⟨S₁, hs, -⟩ := d.follows hw (hw.first (hw.rest he)) hf
      exact ⟨S₁, hs, hs.objects_subset (hw.first (hw.rest (hw.rest he))),
        Nat.lt_of_lt_of_le hf hs.size_le⟩
  | alternative h d hv =>
    cases h with
    | alternative =>
      obtain ⟨S₁, hs, -⟩ := d.follows hw (hw.first (hw.rest he)) hf
      exact ⟨S₁, hs, hs.objects_subset (hw.first (hw.rest (hw.rest (hw.rest he)))),
        Nat.lt_of_lt_of_le hf hs.size_le⟩
  | operator hk => exact ⟨S, .refl, hw.first he, hf⟩
  | operand hk d h =>
    obtain ⟨S₁, hs₁, -⟩ := d.follows hw (hw.first he) hf
    obtain ⟨S₂, hs₂, hx, hlt⟩ := h.exists_steps (hs₁.isComplete hw)
      (hs₁.objects_subset (hw.rest he)) (Nat.lt_of_lt_of_le hf hs₁.size_le)
    exact ⟨S₂, hs₁.trans hs₂, hx, hlt⟩
  | form h hx hturn =>
    obtain ⟨S₁, hs₁, hp, hargs, -⟩ := h.exists_steps hw he hf
    have hw₁ := hs₁.isComplete hw
    have hext : Follows Anywhere _ _ _ := follows_extend hw₁ hp hargs
    simp only [EvalM.extend, hx] at hext
    obtain ⟨S₂, hs₂, -, hg⟩ := hext
    have hforms := hs₂.objects_subset
      (hw₁.component hp (List.mem_cons_of_mem _ (List.mem_cons_self ..)))
    obtain ⟨S₃, hs₃, hmem, hlt⟩ := hturn.exists_steps (hs₂.isComplete hw₁) hforms hg
    exact ⟨S₃, (hs₁.trans hs₂).trans hs₃, hmem, hlt⟩

theorem exists_steps_of_inner {a b : Entry} (h : ReflTransGen Inner a b)
    (hw : (⟨S, a.store⟩ : Moment).IsComplete) (he : a.expression ∈ S)
    (hf : a.frame < a.store.frames.size) :
    ∃ S', Steps Anywhere ⟨S, a.store⟩ ⟨S', b.store⟩ ∧ b.expression ∈ S' ∧
      b.frame < b.store.frames.size := by
  induction h with
  | refl => exact ⟨S, .refl, he, hf⟩
  | tail _ step ih =>
    obtain ⟨S₁, hs₁, he₁, hf₁⟩ := ih
    obtain ⟨S₂, hs₂, he₂, hf₂⟩ := step.exists_steps (hs₁.isComplete hw) he₁ hf₁
    exact ⟨S₂, hs₁.trans hs₂, he₂, hf₂⟩

end Moments

/-! ### Running a body -/

/-- A body that is a list of at least one form never fails by itself: all forms but the last
are evaluated in turn, and the last is left to do. -/
theorem body_of_isBody {forms : Value} (h : forms.IsBody) (ev : Evaluator) (f : FrameId) :
    ∃ first last, forms.elements = first ++ [last] ∧
      body ev f forms = do
        forM first fun e => do let _ ← ev e f; return
        return .tail last f := by
  obtain ⟨m, e, es, rfl, hes⟩ := h
  induction es generalizing m e with
  | pair m' e' es _ ih =>
    obtain ⟨first, last, hel, hbody⟩ := ih m' e' hes
    refine ⟨e :: first, last, by rw [elements, hel]; rfl, ?_⟩
    rw [body_cons (by simp), hbody, List.forM_cons]
    simp
  | nil => exact ⟨[], e, rfl, rfl⟩
  | _ => cases hes

/-! ### The one error outside the language -/

/-- The entry comes to a call of `string->number` on a numeral that is too long. -/
def Entry.ConvertsLongNumeral (a : Entry) : Prop :=
  ∃ b m k j text rest s, ReflTransGen Inner a b ∧
    Calls b (.primitive m .stringToNumber) (.pair k (.string j text) rest) s ∧
      Primitive.IsLongNumeral text

theorem Inner.convertsLongNumeral {a b : Entry} (h : Inner a b) (hb : b.ConvertsLongNumeral) :
    a.ConvertsLongNumeral := by
  obtain ⟨c, m, k, j, text, rest, s, hc, hcall⟩ := hb
  exact ⟨c, m, k, j, text, rest, s, hc.head h, hcall⟩

theorem not_isRegular_digitLimit : Error.digitLimit.isRegular ≠ true := by decide

namespace BigStep

mutual

/-- **Only `string->number` fails outside the language.** -/
theorem Evaluates.convertsLongNumeral : ∀ {e : Value} {f : FrameId} {s t : Store},
    Evaluates e f s (.error .digitLimit t) → Entry.ConvertsLongNumeral ⟨e, f, s⟩
  | _, _, _, _, .malformed _ h =>
    absurd (Form.parse_failsRegularly _ _ _ h) not_isRegular_digitLimit
  | _, _, _, _, .assignFails h d => Inner.convertsLongNumeral (.assigned h) d.convertsLongNumeral
  | _, _, _, _, .defineFails h d => Inner.convertsLongNumeral (.value h) d.convertsLongNumeral
  | _, _, _, _, .defineProcedureFails h d =>
    Inner.convertsLongNumeral (.procedure h) d.convertsLongNumeral
  | _, _, _, _, .testFails h d => Inner.convertsLongNumeral (.test h) d.convertsLongNumeral
  | _, _, _, _, .operatorFails hk d =>
    Inner.convertsLongNumeral (.operator hk) d.convertsLongNumeral
  | _, _, _, _, .consequent h d b =>
    Inner.convertsLongNumeral (.consequent h d) b.convertsLongNumeral
  | _, _, _, _, .alternative h d hv b =>
    Inner.convertsLongNumeral (.alternative h d hv) b.convertsLongNumeral
  | _, _, _, _, .operandsFail hk d ds => by
    obtain ⟨x, u, hx, h⟩ := ds.convertsLongNumeral
    exact Inner.convertsLongNumeral (.operand hk d hx) h
  | _, _, _, _, .application hk d ds a => by
    rcases a.convertsLongNumeral with ⟨m, k, j, text, rest, rfl, hargs, hlong⟩ |
      ⟨m, params, forms, f, g, t, rfl, hx, x, u, hturn, h⟩
    · exact ⟨_, m, k, j, text, rest, _, .refl, hargs ▸ Calls.mk hk d ds, hlong⟩
    · exact Inner.convertsLongNumeral (.form (.mk hk d ds) hx hturn) h

theorem Operands.convertsLongNumeral : ∀ {es : Value} {f : FrameId} {s t : Store},
    Operands es f s (.error .digitLimit t) →
      ∃ x u, InTurn es f s x u ∧ Entry.ConvertsLongNumeral ⟨x, f, u⟩
  | _, _, _, _, .fails d => ⟨_, _, .first, d.convertsLongNumeral⟩
  | _, _, _, _, .restFails d ds => by
    obtain ⟨x, u, hx, h⟩ := ds.convertsLongNumeral
    exact ⟨x, u, .later d hx, h⟩

theorem Applies.convertsLongNumeral : ∀ {p args : Value} {s t : Store},
    Applies p args s (.error .digitLimit t) →
      (∃ m k j text rest, p = .primitive m .stringToNumber ∧
        args = .pair k (.string j text) rest ∧ Primitive.IsLongNumeral text) ∨
      ∃ m params forms f g t, p = .closure m params forms f ∧
        s.extend params args f = .ok (g, t) ∧
          ∃ x u, InTurn forms g t x u ∧ Entry.ConvertsLongNumeral ⟨x, g, u⟩
  | _, _, _, _, .primitiveFails h => by
    rcases Primitive.error_of_apply h with he | ⟨-, rfl, k, j, text, rest, hargs, hlong⟩
    · exact absurd he not_isRegular_digitLimit
    · exact .inl ⟨_, k, j, text, rest, rfl, hargs, hlong⟩
  | _, _, _, _, .closure hx d => .inr ⟨_, _, _, _, _, _, rfl, hx, d.convertsLongNumeral⟩
  | _, _, _, _, .closureFails h =>
    absurd (Store.extend_failsRegularly _ _ _ _ _ h) not_isRegular_digitLimit

theorem Runs.convertsLongNumeral : ∀ {forms : Value} {f : FrameId} {s t : Store},
    Runs forms f s (.error .digitLimit t) →
      ∃ x u, InTurn forms f s x u ∧ Entry.ConvertsLongNumeral ⟨x, f, u⟩
  | _, _, _, _, .last d => ⟨_, _, .first, d.convertsLongNumeral⟩
  | _, _, _, _, .cons _ d ds => by
    obtain ⟨x, u, hx, h⟩ := ds.convertsLongNumeral
    exact ⟨x, u, .later d hx, h⟩
  | _, _, _, _, .fails _ d => ⟨_, _, .first, d.convertsLongNumeral⟩

end

end BigStep

end SmallScheme
