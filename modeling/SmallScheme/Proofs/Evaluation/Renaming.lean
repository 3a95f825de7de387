import SmallScheme.Proofs.Evaluation.History
import SmallScheme.Proofs.Store.Renaming

/-!
# Evaluation does not depend on the numbers

An evaluation that runs on a store and the same evaluation on a larger store, in which the
first is found under other names, do the same: they end alike, with the same value or error
up to the renaming, the two stores are still matched, and the rest of the larger store has
been left alone.

`Simulates` says this of two computations. It passes from the parts of an evaluation to the
whole; the main statement is `equivariant_evaluate`.
-/

namespace SmallScheme

open Object Sequencing

variable {ρ : Renaming}

/-! ### Special forms -/

/-- The special form with its parts renamed. -/
def Form.rename (ρ : Renaming) : Form → Form
  | quote d => quote (d.rename ρ)
  | assign n e => assign n (e.rename ρ)
  | define n e => define n (e.rename ρ)
  | defineProcedure n params forms => defineProcedure n (params.rename ρ) (forms.rename ρ)
  | conditional test x y => conditional (test.rename ρ) (x.rename ρ) (y.map (Object.rename ρ))
  | lambda params forms => lambda (params.rename ρ) (forms.rename ρ)

theorem checkParameters_rename (params : Value) :
    checkParameters (params.rename ρ) = ρ.result id (checkParameters params) := by
  induction params with
  | pair m p params _ ih =>
    cases p with
    | symbol n => exact ih
    | _ => rfl
  | _ => rfl

theorem Form.parseTarget_rename (target : Value) (m : Nat) (e es : Value) :
    parseTarget (target.rename ρ) ((pair m e es).rename ρ) =
      ρ.result (rename ρ) (parseTarget target (.pair m e es)) := by
  cases target with
  | symbol n => cases es <;> rfl
  | pair m' first params =>
    cases first with
    | _ => rfl
  | _ => rfl

/-- The shape of a form does not depend on the numbers. -/
theorem Form.parse_rename (k : Keyword) (rest : Value) :
    parse k (rest.rename ρ) = ρ.result (rename ρ) (parse k rest) := by
  cases k with
  | quote =>
    cases rest with
    | pair m d tail => cases tail <;> rfl
    | _ => rfl
  | assign =>
    cases rest with
    | pair m name tail =>
      cases tail with
      | pair m' e tail => cases tail <;> cases name <;> rfl
      | _ => cases name <;> rfl
    | _ => rfl
  | define =>
    cases rest with
    | pair m target tail =>
      cases tail with
      | pair m' e es =>
        simp only [parse, Object.rename, parseDefine, isList_rename]
        split
        · exact parseTarget_rename target m' e es
        · rfl
      | _ => rfl
    | _ => rfl
  | conditional =>
    cases rest with
    | pair m test tail =>
      cases tail with
      | pair m' x tail =>
        cases tail with
        | pair m'' y tail => cases tail <;> rfl
        | _ => rfl
      | _ => rfl
    | _ => rfl
  | lambda =>
    cases rest with
    | pair m params tail =>
      cases tail with
      | pair m' e es =>
        simp only [parse, Object.rename, parseLambda, isList_rename]
        split
        · rw [checkParameters_rename]
          exact ρ.result_bind fun _ => rfl
        · rfl
      | _ => rfl
    | _ => rfl

/-! ### Primitives -/

namespace Primitive

theorem argument_rename (who : String) (args : Value) (index : Int) :
    argument who (args.rename ρ) index = ρ.result (Object.rename ρ) (argument who args index) := by
  rw [argument, argument, elements_rename, List.getElem?_map]
  cases args.elements[index.toNat]? <;> rfl

theorem integerOf_rename (who : Primitive) (v : Value) :
    integerOf who (v.rename ρ) = ρ.result id (integerOf who v) := by
  cases v <;> rfl

theorem stringOf_rename (who : Primitive) (v : Value) :
    stringOf who (v.rename ρ) = ρ.result id (stringOf who v) := by
  cases v <;> rfl

theorem characterOf_rename (n : Int) :
    characterOf n = ρ.result (Object.rename ρ) (characterOf n) := by
  unfold characterOf
  split <;> rfl

theorem numberOf_rename (text : String) :
    numberOf text = ρ.result (Object.rename ρ) (numberOf text) := by
  unfold numberOf
  split
  · rfl
  · split
    · simp only
      split <;> rfl
    · rfl

theorem mapM_integerOf_rename (who : Primitive) (vs : List Value) :
    (vs.map (Object.rename ρ)).mapM (integerOf who) = ρ.result id (vs.mapM (integerOf who)) := by
  induction vs with
  | nil => rfl
  | cons v vs ih =>
    rw [List.map_cons, List.mapM_cons, List.mapM_cons, integerOf_rename, ih]
    exact ρ.result_bind fun n => ρ.result_bind fun ns => rfl

/-- A primitive that is given renamed arguments and a renamed mark gives the renamed value. -/
theorem apply_rename (p : Primitive) (args : Value) (mark : Nat) :
    p.apply (args.rename ρ) (ρ.mark mark) = ρ.result (Object.rename ρ) (p.apply args mark) := by
  cases p with
  | isNull | isBoolean | isSymbol | isInteger | isCharacter | isString | isPair =>
    simp only [apply, argument_rename]
    refine ρ.result_bind fun v => ?_
    cases v <;> rfl
  | isProcedure =>
    simp only [apply, argument_rename]
    refine ρ.result_bind fun v => ?_
    rw [isProcedure_rename]
    rfl
  | charToInteger | symbolToString | car | cdr =>
    simp only [apply, argument_rename]
    refine ρ.result_bind fun v => ?_
    cases v <;> rfl
  | integerToChar =>
    simp only [apply, argument_rename]
    refine ρ.result_bind fun v => ?_
    rw [integerOf_rename]
    exact ρ.result_bind fun n => characterOf_rename n
  | numberToString =>
    simp only [apply, argument_rename]
    refine ρ.result_bind fun v => ?_
    rw [integerOf_rename]
    exact ρ.result_bind fun n => rfl
  | stringToNumber =>
    simp only [apply, argument_rename]
    refine ρ.result_bind fun v => ?_
    rw [stringOf_rename]
    exact ρ.result_bind fun text => numberOf_rename text
  | stringToSymbol =>
    simp only [apply, argument_rename]
    refine ρ.result_bind fun v => ?_
    rw [stringOf_rename]
    exact ρ.result_bind fun text => rfl
  | sum =>
    simp only [apply, sumOf, elements_rename, mapM_integerOf_rename]
    refine ρ.result_bind fun ns => ?_
    simp only [id_eq]
    split <;> rfl
  | sameNumber =>
    simp only [apply, allSame, argument_rename, elements_rename, mapM_integerOf_rename]
    refine ρ.result_bind fun v => ?_
    rw [integerOf_rename]
    exact ρ.result_bind fun n => ρ.result_bind fun ns => rfl
  | cons =>
    simp only [apply, argument_rename]
    exact ρ.result_bind fun a => ρ.result_bind fun d => rfl
  | list => rfl
  | isEq =>
    simp only [apply, argument_rename]
    refine ρ.result_bind fun u => ρ.result_bind fun v => ?_
    rw [same_rename]
    rfl

end Primitive

/-! ### Simulation -/

/-- The outcome of a computation, with the answer passed through `φ`, the error renamed, and
another store. -/
def Renaming.outcome {α β : Type} (ρ : Renaming) (φ : α → β) (r : Outcome α) (u : Store) :
    Outcome β :=
  match r with
  | .ok a _ => .ok (φ a) u
  | .error e _ => .error (e.rename ρ) u

/-- `Simulates ρ φ x y`: run on a store and on one that it matches, `x` and `y` end alike, and
the stores are matched again. -/
def Simulates {α β : Type} (ρ : Renaming) (φ : α → β) (x : EvalM α) (y : EvalM β) : Prop :=
  ∀ s t : Store, Matches ρ s t →
    ∃ u, y t = ρ.outcome φ (x s) u ∧ Matches ρ (Outcome.store (x s)) u ∧ Keeps ρ t u

namespace Simulates

variable {α β γ δ : Type} {φ : α → β} {ψ : γ → δ}

theorem pure (φ : α → β) (a : α) : Simulates ρ φ (pure a) (pure (φ a)) :=
  fun _ _ h => ⟨_, rfl, h, .refl ρ _⟩

theorem throw (φ : α → β) (e : Error) : Simulates ρ φ (throw e) (throw (e.rename ρ)) :=
  fun _ _ h => ⟨_, rfl, h, .refl ρ _⟩

theorem ofExcept (φ : α → β) (x : Except Error α) :
    Simulates ρ φ (EvalM.ofExcept x) (EvalM.ofExcept (ρ.result φ x)) := by
  cases x with
  | ok a => exact .pure φ a
  | error e => exact .throw φ e

/-- One computation after the other. -/
theorem bind {x : EvalM α} {y : EvalM β} {k : α → EvalM γ} {l : β → EvalM δ}
    (h : Simulates ρ φ x y) (hk : ∀ a, Simulates ρ ψ (k a) (l (φ a))) :
    Simulates ρ ψ (x >>= k) (y >>= l) := by
  intro s t hst
  obtain ⟨u, hy, hu, hkeep⟩ := h s t hst
  simp only [bind_apply]
  cases hx : x s with
  | error e s' =>
    rw [hx] at hy hu
    rw [hy]
    exact ⟨u, rfl, hu, hkeep⟩
  | ok a s' =>
    rw [hx] at hy hu
    obtain ⟨u', hl, hu', hkeep'⟩ := hk a s' u hu
    rw [hy]
    exact ⟨u', hl, hu', hkeep.trans hkeep'⟩

/-- The marks of new objects go in step. -/
theorem marks {k : Nat → EvalM γ} {l : Nat → EvalM δ} (count : Nat)
    (h : ∀ m m', (∀ i, ρ.mark (m + i) = m' + i) → Simulates ρ ψ (k m) (l m')) :
    Simulates ρ ψ (EvalM.marks count >>= k) (EvalM.marks count >>= l) := by
  intro s t hst
  obtain ⟨u, hl, hu, hkeep⟩ := h s.fresh t.fresh hst.fresh _ _ (hst.addFresh count)
  exact ⟨u, hl, hu, .trans (.withFresh (Nat.le_add_right _ _)) hkeep⟩

theorem place {d : Datum} (hd : d.IsPlain) :
    Simulates ρ (rename ρ) (EvalM.place d) (EvalM.place d) := by
  intro s t hst
  obtain ⟨hv, hm⟩ := rename_place hd hst.fresh
  refine ⟨{ t with fresh := (d.place t.fresh).2 }, ?_, hst.withFresh hm,
    .withFresh (Datum.le_place d t.fresh)⟩
  simp only [EvalM.place, modifyGet_apply, Renaming.outcome, hv]

theorem lookup (f : FrameId) (n : Symbol) :
    Simulates ρ (rename ρ) (EvalM.lookup f n) (EvalM.lookup (ρ.frame f) n) := by
  intro s t hst
  have heq : t.lookup (ρ.frame f) n = ρ.result (rename ρ) (s.lookup f n) := by
    rw [Store.lookup, hst.lookup?, Store.lookup]
    cases s.lookup? f n <;> rfl
  have h : Simulates ρ (rename ρ) _ _ := ofExcept (rename ρ) (s.lookup f n)
  specialize h s t hst
  rw [← heq] at h
  exact h

theorem define (f : FrameId) (n : Symbol) (v : Value) :
    Simulates ρ id (EvalM.define f n v) (EvalM.define (ρ.frame f) n (v.rename ρ)) := by
  intro s t hst
  have hempty : ρ.frame f = Store.empty ↔ f = Store.empty := by
    have h := ρ.frame_injective.eq_iff (a := f) (b := 0)
    rwa [ρ.frame_zero] at h
  simp only [EvalM.define, Store.define]
  by_cases hf : f = Store.empty
  · rw [if_pos hf, if_pos (hempty.2 hf)]
    exact ⟨t, rfl, hst, .refl ρ t⟩
  · rw [if_neg hf, if_neg (mt hempty.1 hf)]
    exact ⟨_, rfl, hst.put f n v, .put ρ t f n _⟩

theorem assign (f : FrameId) (n : Symbol) (v : Value) :
    Simulates ρ id (EvalM.assign f n v) (EvalM.assign (ρ.frame f) n (v.rename ρ)) := by
  intro s t hst
  simp only [EvalM.assign, Store.assign, hst.find?]
  cases s.find? f n with
  | none => exact ⟨t, rfl, hst, .refl ρ t⟩
  | some g => exact ⟨_, rfl, hst.put g n v, .put ρ t g n _⟩

theorem extend (params args : Value) (f : FrameId) :
    Simulates ρ ρ.frame (EvalM.extend params args f)
      (EvalM.extend (params.rename ρ) (args.rename ρ) (ρ.frame f)) := by
  intro s t hst
  simp only [EvalM.extend, Store.extend, Bindings.ofParameters_rename]
  cases Bindings.ofParameters params args with
  | error e => exact ⟨t, rfl, hst, .refl ρ t⟩
  | ok bs =>
    refine ⟨(t.push (ρ.frame f) (bs.rename ρ)).2, ?_, hst.push f bs, .push ρ t _ _⟩
    have hnew : ρ.frame s.frames.size = t.frames.size := hst.size 0
    simp only [Renaming.result, Renaming.outcome, Store.push, hnew]

end Simulates

namespace Evaluation

/-- What a round leaves to do, renamed. -/
def renameNext (ρ : Renaming) : Next → Next
  | .done v => .done (v.rename ρ)
  | .tail e f => .tail (e.rename ρ) (ρ.frame f)

/-- Evaluations by `ev` do not depend on the numbers. -/
def Equivariant (ρ : Renaming) (ev : Evaluator) : Prop :=
  ∀ e f, Simulates ρ (rename ρ) (ev e f) (ev (e.rename ρ) (ρ.frame f))

variable {ev : Evaluator}

theorem simulates_operands (hev : Equivariant ρ ev) (f : FrameId) (es : Value) :
    Simulates ρ (List.map (rename ρ)) (operands ev f es)
      (operands ev (ρ.frame f) (es.rename ρ)) := by
  induction es with
  | pair m e es _ ih =>
    simp only [operands, rename]
    exact (hev e f).bind fun v => ih.bind fun vs => .pure (List.map (rename ρ)) (v :: vs)
  | nil => exact .pure _ []
  | _ => exact .throw _ _

theorem simulates_argumentList (vs : List Value) :
    Simulates ρ (rename ρ) (argumentList vs) (argumentList (vs.map (rename ρ))) := by
  simp only [argumentList, List.length_map]
  refine .marks _ fun m m' h => ?_
  rw [← rename_list h]
  exact .pure (rename ρ) _

theorem simulates_body (hev : Equivariant ρ ev) (f : FrameId) (forms : Value) :
    Simulates ρ (renameNext ρ) (body ev f forms) (body ev (ρ.frame f) (forms.rename ρ)) := by
  induction forms with
  | pair m e es _ ih =>
    cases es with
    | nil => exact .pure (renameNext ρ) _
    | _ => exact (hev e f).bind fun _ => ih
  | _ => exact .throw _ _

theorem simulates_apply (hev : Equivariant ρ ev) (p args : Value) :
    Simulates ρ (renameNext ρ) (apply ev p args) (apply ev (p.rename ρ) (args.rename ρ)) := by
  cases p with
  | primitive m p =>
    simp only [apply, rename]
    refine .marks 1 fun k k' hk => ?_
    obtain rfl : ρ.mark k = k' := hk 0
    rw [Primitive.apply_rename]
    exact (Simulates.ofExcept _ _).bind fun v => .pure (renameNext ρ) _
  | closure m params forms f =>
    simp only [apply, rename]
    exact (Simulates.extend params args f).bind fun g => simulates_body hev g forms
  | _ => exact .throw _ _

theorem simulates_ok {x y : EvalM Unit} (h : Simulates ρ id x y) :
    Simulates ρ (renameNext ρ) (do x; return .done (.symbol .ok))
      (do y; return .done (.symbol .ok)) :=
  h.bind fun _ => .pure (renameNext ρ) _

theorem simulates_special (hev : Equivariant ρ ev) (f : FrameId) (form : Form) :
    Simulates ρ (renameNext ρ) (special ev f form) (special ev (ρ.frame f) (form.rename ρ)) := by
  cases form with
  | quote d => exact .pure (renameNext ρ) _
  | assign n e => exact (hev e f).bind fun v => simulates_ok (.assign f n v)
  | define n e => exact (hev e f).bind fun v => simulates_ok (.define f n v)
  | defineProcedure n params forms =>
    refine .marks 2 fun m m' h => ?_
    have he : lambdaExpression m' (params.rename ρ) (forms.rename ρ) =
        (lambdaExpression m params forms).rename ρ := by
      rw [lambdaExpression, lambdaExpression, rename, rename, rename, h 1,
        show ρ.mark m = m' from h 0]
    simp only [he]
    exact (hev _ f).bind fun v => simulates_ok (.define f n v)
  | conditional test x y =>
    refine (hev test f).bind fun v => ?_
    cases v with
    | boolean b => cases b <;> cases y <;> exact .pure (renameNext ρ) _
    | _ => cases y <;> exact .pure (renameNext ρ) _
  | lambda params forms =>
    refine .bind (φ := rename ρ) ?_ fun v => .pure (renameNext ρ) _
    refine .marks 1 fun m m' h => ?_
    obtain rfl : ρ.mark m = m' := h 0
    exact .pure (rename ρ) _

theorem simulates_application (hev : Equivariant ρ ev) (f : FrameId) (first rest : Value) :
    Simulates ρ (renameNext ρ) (application ev f first rest)
      (application ev (ρ.frame f) (first.rename ρ) (rest.rename ρ)) :=
  (hev first f).bind fun p => (simulates_operands hev f rest).bind fun vs =>
    (simulates_argumentList vs).bind fun args => simulates_apply hev p args

theorem simulates_round (hev : Equivariant ρ ev) (e : Value) (f : FrameId) :
    Simulates ρ (renameNext ρ) (round ev e f) (round ev (e.rename ρ) (ρ.frame f)) := by
  cases e with
  | boolean | integer | character | string => exact .pure (renameNext ρ) _
  | symbol n => exact (Simulates.lookup f n).bind fun v => .pure (renameNext ρ) _
  | pair m first rest =>
    simp only [round, rename, keyword?_rename]
    cases first.keyword? with
    | none => exact simulates_application hev f first rest
    | some k =>
      simp only [Form.parse_rename]
      exact (Simulates.ofExcept (Form.rename ρ) _).bind fun form => simulates_special hev f form
  | nil | primitive | closure | absent => exact .throw _ _

/-- **Evaluation does not depend on the numbers** of frames and objects, however many rounds
it may take and however deep it may nest. -/
theorem equivariant_evaluate (ρ : Renaming) (rounds nesting : Nat) :
    Equivariant ρ (evaluate rounds nesting) := by
  induction rounds generalizing nesting with
  | zero =>
    intro e f
    rw [evaluate_zero, evaluate_zero]
    exact .throw _ .unfinished
  | succ rounds ih =>
    intro e f
    have hinner : Equivariant ρ (inner rounds nesting) := by
      cases nesting with
      | zero => exact fun _ _ => .throw _ .depth
      | succ nesting => exact ih nesting
    rw [evaluate_succ, evaluate_succ]
    refine (simulates_round hinner e f).bind fun next => ?_
    cases next with
    | done v => exact .pure (rename ρ) v
    | tail e f => exact ih nesting e f

end Evaluation

end SmallScheme
