import SmallScheme.Proofs.Evaluation.Errors
import SmallScheme.Proofs.Evaluation.Limits
import SmallScheme.Proofs.Store.History

/-!
# What an evaluation does to the store

An evaluation is made of the four steps of a history: it makes objects, defines and assigns
variables, and adds frames. All values that it comes across have been made before, and the
definitions it makes are of two kinds only: those in the frame it runs in are of names that
the expression defines, as it is written (`Defines`), and all others are in frames that the
evaluation has added itself.

`Follows` says this of a computation and passes from each part of an evaluation to the
whole; the main statement is `historic_evaluate`.
-/

namespace SmallScheme

open Object Sequencing Moment

/-! ### The names that an expression defines -/

/-- `Defines n e`: the name `n` is defined by a definition that stands in the expression `e`,
outside quoted data and outside the bodies of procedures. -/
inductive Defines (n : Symbol) : Value → Prop where
  /-- `(define n x)` -/
  | define {e x : Value} (h : IsForm e (.define n x)) : Defines n e
  /-- `(define (n . params) . forms)` -/
  | defineProcedure {e params forms : Value} (h : IsForm e (.defineProcedure n params forms))
      (hp : params.IsSymbolList) : Defines n e
  /-- In the value of a definition. -/
  | value {e x : Value} {m : Symbol} (h : IsForm e (.define m x)) (hx : Defines n x) : Defines n e
  /-- In the value of an assignment. -/
  | assigned {e x : Value} {m : Symbol} (h : IsForm e (.assign m x)) (hx : Defines n x) :
      Defines n e
  /-- In the test of a conditional. -/
  | test {e t x : Value} {y : Option Value} (h : IsForm e (.conditional t x y))
      (ht : Defines n t) : Defines n e
  /-- In the consequent of a conditional. -/
  | consequent {e t x : Value} {y : Option Value} (h : IsForm e (.conditional t x y))
      (hx : Defines n x) : Defines n e
  /-- In the alternative of a conditional. -/
  | alternative {e t x y : Value} (h : IsForm e (.conditional t x (some y)))
      (hy : Defines n y) : Defines n e
  /-- In the operator of an application. -/
  | operator {m : Nat} {first rest : Value} (h : first.keyword? = none)
      (hx : Defines n first) : Defines n (.pair m first rest)
  /-- In an operand of an application. -/
  | operand {m : Nat} {first rest x : Value} (h : first.keyword? = none)
      (hm : x ∈ rest.elements) (hx : Defines n x) : Defines n (.pair m first rest)

/-- A `lambda` expression spells nothing but a procedure. -/
theorem IsForm.eq_lambda {m : Nat} {params forms : Value} {form : Form}
    (h : IsForm (Evaluation.lambdaExpression m params forms) form) :
    form = .lambda params forms ∧ params.IsSymbolList := by
  obtain ⟨k, hk, hp⟩ := isForm_pair_iff.1 h
  obtain rfl : Keyword.lambda = k := Option.some.inj (Keyword.lambda.keyword?_symbol.symm.trans hk)
  simp only [Form.parse, Form.parseLambda] at hp
  split at hp
  · next hrest =>
    cases hrest
    split at hp
    · obtain ⟨_, hcheck, hp⟩ := exists_of_bind_eq_ok hp
      cases hp
      exact ⟨rfl, checkParameters_eq_ok_iff.1 hcheck⟩
    · cases hp
  · cases hp

/-- A `lambda` expression defines nothing. -/
theorem not_defines_lambdaExpression {n : Symbol} {m : Nat} {params forms : Value} :
    ¬ Defines n (Evaluation.lambdaExpression m params forms) := by
  intro h
  unfold Evaluation.lambdaExpression at h
  cases h with
  | operator hk | operand hk => cases Keyword.lambda.keyword?_symbol.symm.trans hk
  | define h | defineProcedure h | value h | assigned h | test h | consequent h | alternative h =>
    cases h.eq_lambda.1

/-! ### Primitives -/

namespace Primitive

theorem mem_elements_of_argument {who : String} {args v : Value} {index : Int}
    (h : argument who args index = .ok v) : v ∈ args.elements := by
  unfold argument at h
  split at h
  · next hv =>
    cases h
    exact List.mem_of_getElem? hv
  · cases h

/-- The value that a primitive gives for objects that are there is there too, or it is a new
object made of them. -/
theorem mem_or_new_of_apply {w : Moment} (hw : w.IsComplete) {p : Primitive} {args v : Value}
    {mark : Nat} (ha : args ∈ w.objects) (h : p.apply args mark = .ok v) :
    v ∈ w.objects ∨ v.mark? = some mark ∧ (∀ c ∈ v.components, c ∈ w.objects) ∧
      v.IsWellMade 0 := by
  have harg {who : String} {index : Int} {u : Value} (hu : argument who args index = .ok u) :
      u ∈ w.objects := hw.element ha (mem_elements_of_argument hu)
  have boolean (b : Bool) : (.boolean b : Value) ∈ w.objects := hw.unmarked rfl trivial
  cases p with
  | isNull | isBoolean | isSymbol | isInteger | isCharacter | isString | isPair | isProcedure =>
    obtain ⟨u, -, h⟩ := exists_of_bind_eq_ok h
    cases h
    exact .inl (boolean _)
  | charToInteger =>
    obtain ⟨u, -, h⟩ := exists_of_bind_eq_ok h
    split at h
    · next c =>
      cases h
      have hc : c.toNat < 0x110000 := by
        have := c.valid
        simp only [UInt32.isValidChar, Nat.isValidChar] at this
        show c.val.toNat < 0x110000
        omega
      exact .inl (hw.unmarked rfl (show Text.IsFixnum c.toNat by unfold Text.IsFixnum; omega))
    · cases h
  | integerToChar =>
    obtain ⟨u, -, h⟩ := exists_of_bind_eq_ok h
    obtain ⟨n, -, h⟩ := exists_of_bind_eq_ok h
    unfold characterOf at h
    split at h
    · cases h
      exact .inl (hw.unmarked rfl (Char.valid _))
    · cases h
  | numberToString =>
    obtain ⟨u, -, h⟩ := exists_of_bind_eq_ok h
    obtain ⟨n, -, h⟩ := exists_of_bind_eq_ok h
    cases h
    exact .inr ⟨rfl, by simp [components], trivial⟩
  | stringToNumber =>
    obtain ⟨u, -, h⟩ := exists_of_bind_eq_ok h
    obtain ⟨text, -, h⟩ := exists_of_bind_eq_ok h
    unfold numberOf at h
    split at h
    · cases h
    · split at h
      · simp only at h
        split at h
        · next hn =>
          cases h
          exact .inl (hw.unmarked rfl hn)
        · cases h
      · cases h
  | symbolToString =>
    obtain ⟨u, -, h⟩ := exists_of_bind_eq_ok h
    split at h
    · cases h
      exact .inr ⟨rfl, by simp [components], trivial⟩
    · cases h
  | stringToSymbol =>
    obtain ⟨u, -, h⟩ := exists_of_bind_eq_ok h
    obtain ⟨text, -, h⟩ := exists_of_bind_eq_ok h
    cases h
    exact .inl (hw.unmarked rfl trivial)
  | sum =>
    obtain ⟨ns, -, h⟩ := exists_of_bind_eq_ok h
    simp only at h
    split at h
    · next hn =>
      cases h
      exact .inl (hw.unmarked rfl hn)
    · cases h
  | sameNumber =>
    obtain ⟨u, -, h⟩ := exists_of_bind_eq_ok h
    obtain ⟨n, -, h⟩ := exists_of_bind_eq_ok h
    obtain ⟨ns, -, h⟩ := exists_of_bind_eq_ok h
    cases h
    exact .inl (boolean _)
  | cons =>
    obtain ⟨a, hfirst, h⟩ := exists_of_bind_eq_ok h
    obtain ⟨d, hsecond, h⟩ := exists_of_bind_eq_ok h
    cases h
    refine .inr ⟨rfl, ?_, trivial⟩
    simp only [components, List.forall_mem_cons]
    exact ⟨harg hfirst, harg hsecond, by simp⟩
  | car =>
    obtain ⟨u, hfirst, h⟩ := exists_of_bind_eq_ok h
    split at h
    · cases h
      exact .inl (hw.first (harg hfirst))
    · cases h
  | cdr =>
    obtain ⟨u, hfirst, h⟩ := exists_of_bind_eq_ok h
    split at h
    · cases h
      exact .inl (hw.rest (harg hfirst))
    · cases h
  | list =>
    cases h
    exact .inl ha
  | isEq =>
    obtain ⟨u, -, h⟩ := exists_of_bind_eq_ok h
    obtain ⟨v, -, h⟩ := exists_of_bind_eq_ok h
    cases h
    exact .inl (boolean _)

end Primitive

/-! ### Parameters and forms -/

theorem mem_elements_of_addParameters {expected got : Nat} {params args : Value}
    {bs cs : Bindings} (h : Bindings.addParameters expected got params args bs = .ok cs)
    {b : Symbol × Value} (hb : b ∈ cs) : b ∈ bs ∨ b.2 ∈ args.elements := by
  fun_induction Bindings.addParameters expected got params args bs with
  | case1 bs m n params m' v args ih =>
    rcases ih h with hb | hb
    · rcases Store.mem_put hb with hv | hb
      · exact .inr (hv ▸ List.mem_cons_self ..)
      · exact .inl hb
    · exact .inr (List.mem_cons_of_mem _ hb)
  | case4 => cases h; exact .inl hb
  | _ => cases h

/-- The arguments are what a frame for parameters binds. -/
theorem mem_elements_of_ofParameters {params args : Value} {bs : Bindings}
    (h : Bindings.ofParameters params args = .ok bs) {b : Symbol × Value} (hb : b ∈ bs) :
    b.2 ∈ args.elements := by
  rcases mem_elements_of_addParameters h hb with hb | hb
  · cases hb
  · exact hb

/-! ### Following a history -/

/-- The store that a computation leaves. -/
def Outcome.store {α : Type} : Outcome α → Store
  | .ok _ t | .error _ t => t

/-- `Follows allowed w r Q`: a computation begun at the moment `w` comes to its outcome `r` by
steps; an answer and the moment at which it is given have the property `Q`. -/
def Follows {α : Type} (allowed : FrameId → Symbol → Prop) (w : Moment) (r : Outcome α)
    (Q : α → Moment → Prop) : Prop :=
  match r with
  | .ok a t => ∃ S, Steps allowed w ⟨S, t⟩ ∧ Q a ⟨S, t⟩
  | .error _ t => ∃ S, Steps allowed w ⟨S, t⟩

namespace Follows

variable {α β : Type} {allowed allowed' : FrameId → Symbol → Prop} {w w' : Moment}
  {Q Q' : α → Moment → Prop} {R : β → Moment → Prop}

theorem pure {a : α} (h : Q a w) : Follows allowed w (.ok a w.store) Q := ⟨w.objects, .refl, h⟩

theorem error (e : Error) : Follows allowed w (.error e w.store) Q := ⟨w.objects, .refl⟩

/-- An answer that is given after one step. -/
theorem step {a : α} (hs : Step allowed w w') (h : Q a w') :
    Follows allowed w (.ok a w'.store) Q := ⟨w'.objects, .single hs, h⟩

theorem after {r : Outcome α} (hs : Steps allowed w w') (h : Follows allowed w' r Q) :
    Follows allowed w r Q := by
  cases r with
  | ok a t =>
    obtain ⟨S, ht, hq⟩ := h
    exact ⟨S, hs.trans ht, hq⟩
  | error e t =>
    obtain ⟨S, ht⟩ := h
    exact ⟨S, hs.trans ht⟩

theorem mono {r : Outcome α} (h : Follows allowed w r Q)
    (ha : ∀ f n, allowed f n → allowed' f n) (hq : ∀ a w', Q a w' → Q' a w') :
    Follows allowed' w r Q' := by
  cases r with
  | ok a t =>
    obtain ⟨S, ht, h⟩ := h
    exact ⟨S, ht.mono ha, hq _ _ h⟩
  | error e t =>
    obtain ⟨S, ht⟩ := h
    exact ⟨S, ht.mono ha⟩

theorem exists_steps {r : Outcome α} (h : Follows allowed w r Q) :
    ∃ S, Steps allowed w ⟨S, Outcome.store r⟩ := by
  cases r with
  | ok a t =>
    obtain ⟨S, hs, -⟩ := h
    exact ⟨S, hs⟩
  | error e t => exact h

/-- An answer has also what any answer has. -/
theorem and_of_ok {r : Outcome α} {p : Prop} (h : Follows allowed w r Q)
    (hp : ∀ a t, r = .ok a t → p) : Follows allowed w r fun a w' => Q a w' ∧ p := by
  cases r with
  | ok a t =>
    obtain ⟨S, hs, hq⟩ := h
    exact ⟨S, hs, hq, hp a t rfl⟩
  | error e t => exact h

/-- One computation after the other. -/
theorem bind {x : EvalM α} {k : α → EvalM β} (h : Follows allowed w (x w.store) Q)
    (hk : ∀ a w', Steps allowed w w' → Q a w' → Follows allowed w' (k a w'.store) R) :
    Follows allowed w ((x >>= k) w.store) R := by
  rw [bind_apply]
  cases hx : x w.store with
  | ok a t =>
    rw [hx] at h
    obtain ⟨S, hs, hq⟩ := h
    exact (hk a ⟨S, t⟩ hs hq).after hs
  | error e t =>
    rw [hx] at h
    exact h

end Follows

namespace Evaluation

variable {allowed : FrameId → Symbol → Prop} {w : Moment} {ev : Evaluator} {f : FrameId}

/-- The definitions that an evaluation of `e` in `f` may make if there are `size` frames when
it begins. -/
def MayDefine (size : Nat) (e : Value) (f g : FrameId) (n : Symbol) : Prop :=
  g = f ∧ Defines n e ∨ size ≤ g

/-- Evaluations by `ev` are histories: they answer with objects that have been made and make
only the definitions that they may. -/
def Historic (ev : Evaluator) : Prop :=
  ∀ {w : Moment} {e : Value} {f : FrameId}, w.IsComplete → e ∈ w.objects →
    f < w.store.frames.size →
      Follows (MayDefine w.store.frames.size e f) w (ev e f w.store) fun v w' => v ∈ w'.objects

/-- Every definition in a frame that is not there yet is allowed. -/
def AllowsNew (allowed : FrameId → Symbol → Prop) (w : Moment) : Prop :=
  ∀ g n, w.store.frames.size ≤ g → allowed g n

theorem AllowsNew.after {w' : Moment} (h : AllowsNew allowed w) (hs : Steps allowed w w') :
    AllowsNew allowed w' := fun g n hg => h g n (Nat.le_trans hs.size_le hg)

theorem Historic.follows (hev : Historic ev) {e : Value} (hw : w.IsComplete)
    (he : e ∈ w.objects) (hf : f < w.store.frames.size) (hnew : AllowsNew allowed w)
    (hdef : ∀ n, Defines n e → allowed f n) :
    Follows allowed w (ev e f w.store) fun v w' => v ∈ w'.objects := by
  refine (hev hw he hf).mono (fun g n h => ?_) fun _ _ h => h
  rcases h with ⟨rfl, h⟩ | h
  · exact hdef n h
  · exact hnew g n h

/-- A `lambda` expression has a value only if its parameters are a list of symbols. -/
def ChecksParameters (ev : Evaluator) : Prop :=
  ∀ {m : Nat} {params forms v : Value} {f : FrameId} {s t : Store},
    ev (lambdaExpression m params forms) f s = .ok v t → params.IsSymbolList

/-- What a round leaves to do can go on from the moment `w`. -/
def CanContinue (allowed : FrameId → Symbol → Prop) : Next → Moment → Prop
  | .done v, w => v ∈ w.objects
  | .tail e f, w => e ∈ w.objects ∧ f < w.store.frames.size ∧ AllowsNew allowed w ∧
      ∀ n, Defines n e → allowed f n

/-! ### The parts of a round -/

theorem follows_operands (hev : Historic ev) {es : Value} (hw : w.IsComplete)
    (hes : es ∈ w.objects) (hf : f < w.store.frames.size) (hnew : AllowsNew allowed w)
    (hdef : ∀ e ∈ es.elements, ∀ n, Defines n e → allowed f n) :
    Follows allowed w (operands ev f es w.store) fun vs w' => ∀ v ∈ vs, v ∈ w'.objects := by
  induction es generalizing w with
  | pair m e es _ ih =>
    obtain ⟨hfirst, hrest⟩ := List.forall_mem_cons.1 hdef
    simp only [operands]
    refine (hev.follows hw (hw.first hes) hf hnew hfirst).bind fun v w₁ hs₁ hv => ?_
    have hes₁ := hs₁.objects_subset (hw.rest hes)
    refine (ih (hs₁.isComplete hw) hes₁ (Nat.lt_of_lt_of_le hf hs₁.size_le) (hnew.after hs₁)
      hrest).bind fun vs w₂ hs₂ hvs => ?_
    exact .pure (List.forall_mem_cons.2 ⟨hs₂.objects_subset hv, hvs⟩)
  | nil => exact .pure (by simp)
  | _ => exact .error _

theorem follows_argumentList (hw : w.IsComplete) {vs : List Value}
    (hvs : ∀ v ∈ vs, v ∈ w.objects) :
    Follows allowed w (argumentList vs w.store) fun args w' => args ∈ w'.objects := by
  refine .step (.make (.list hw hvs)) ?_
  cases vs with
  | nil => exact .inl (hw.unmarked rfl trivial)
  | cons v vs => exact .inr (List.mem_cons_self ..)

theorem follows_body (hev : Historic ev) {forms : Value} (hw : w.IsComplete)
    (hforms : forms ∈ w.objects) (hf : f < w.store.frames.size) (hnew : AllowsNew allowed w)
    (hall : ∀ n, allowed f n) :
    Follows allowed w (body ev f forms w.store) (CanContinue allowed) := by
  fun_induction body ev f forms generalizing w with
  | case1 m e => exact .pure ⟨hw.first hforms, hf, hnew, fun n _ => hall n⟩
  | case2 m e es _ ih =>
    refine (hev.follows hw (hw.first hforms) hf hnew fun n _ => hall n).bind fun v w' hs hv => ?_
    exact ih (hs.isComplete hw) (hs.objects_subset (hw.rest hforms))
      (Nat.lt_of_lt_of_le hf hs.size_le) (hnew.after hs)
  | case3 => exact .error _

theorem follows_primitive (hw : w.IsComplete) (m : Nat) {p : Primitive} {args : Value}
    (ha : args ∈ w.objects) :
    Follows allowed w (apply ev (.primitive m p) args w.store) (CanContinue allowed) := by
  simp only [apply, bind_apply, EvalM.marks, modifyGet_apply]
  cases hp : p.apply args w.store.fresh with
  | error e => exact ⟨_, .single (.make (.empty w 1))⟩
  | ok v =>
    rcases Primitive.mem_or_new_of_apply hw ha hp with hv | ⟨hm, hc, hv⟩
    · exact .step (.make (.empty w 1)) (.inl hv)
    · exact .step (.make (.singleton hm hc (hv.mono (Nat.zero_le _)))) (.inr rfl)

theorem follows_extend {m : Nat} {params forms args : Value} {f : FrameId} (hw : w.IsComplete)
    (hp : .closure m params forms f ∈ w.objects) (ha : args ∈ w.objects) :
    Follows allowed w (EvalM.extend params args f w.store) fun g w' =>
      w.store.frames.size ≤ g ∧ g < w'.store.frames.size := by
  simp only [EvalM.extend, Store.extend]
  cases hb : Bindings.ofParameters params args with
  | error e => exact .error e
  | ok bindings =>
    have hmem : ∀ b ∈ bindings, b.2 ∈ w.objects :=
      fun b h => hw.element ha (mem_elements_of_ofParameters hb h)
    refine .step (.push hmem (.inr ⟨m, params, forms, hp⟩)) ⟨Nat.le_refl _, ?_⟩
    exact Nat.lt_of_lt_of_eq (Nat.lt_succ_self _) (Store.size_push ..).symm

theorem follows_apply (hev : Historic ev) {p args : Value} (hw : w.IsComplete)
    (hp : p ∈ w.objects) (ha : args ∈ w.objects) (hnew : AllowsNew allowed w) :
    Follows allowed w (apply ev p args w.store) (CanContinue allowed) := by
  cases p with
  | primitive m p => exact follows_primitive hw m ha
  | closure m params forms f =>
    refine (follows_extend hw hp ha).bind fun g w' hs hg => ?_
    have hforms := hs.objects_subset (hw.component hp (c := forms) (by simp [components]))
    exact follows_body hev (hs.isComplete hw) hforms hg.2 (hnew.after hs) fun n => hnew g n hg.1
  | _ => exact .error _

theorem follows_application (hev : Historic ev) {m : Nat} {first rest : Value}
    (hk : first.keyword? = none) (hw : w.IsComplete) (he : .pair m first rest ∈ w.objects)
    (hf : f < w.store.frames.size) (hnew : AllowsNew allowed w)
    (hdef : ∀ n, Defines n (.pair m first rest) → allowed f n) :
    Follows allowed w (application ev f first rest w.store) (CanContinue allowed) := by
  have hfirst (n : Symbol) (h : Defines n first) : allowed f n := hdef n (.operator hk h)
  have hrest : ∀ e ∈ rest.elements, ∀ n, Defines n e → allowed f n :=
    fun e hm n h => hdef n (.operand hk hm h)
  refine (hev.follows hw (hw.first he) hf hnew hfirst).bind fun p w₁ hs₁ hp => ?_
  have hw₁ := hs₁.isComplete hw
  refine (follows_operands hev hw₁ (hs₁.objects_subset (hw.rest he))
    (Nat.lt_of_lt_of_le hf hs₁.size_le) (hnew.after hs₁) hrest).bind fun vs w₂ hs₂ hvs => ?_
  have hw₂ := hs₂.isComplete hw₁
  refine (follows_argumentList hw₂ hvs).bind fun args w₃ hs₃ ha => ?_
  exact follows_apply hev (hs₃.isComplete hw₂) (hs₃.objects_subset (hs₂.objects_subset hp)) ha
    (((hnew.after hs₁).after hs₂).after hs₃)

/-- The two pairs of a new `lambda` expression are new objects. -/
theorem canMake_lambdaExpression (hw : w.IsComplete) {params forms : Value}
    (hp : params ∈ w.objects) (hb : forms ∈ w.objects) :
    w.CanMake {lambdaExpression w.store.fresh params forms,
      .pair (w.store.fresh + 1) params forms} 2 where
  mark h := by
    rcases h with rfl | rfl
    · exact ⟨_, rfl, by omega, by omega⟩
    · exact ⟨_, rfl, by omega, by omega⟩
  unique hu hv h h' := by
    rcases hu with rfl | rfl <;> rcases hv with rfl | rfl
    · rfl
    · exact absurd (Option.some.inj (h.trans h'.symm)) (Nat.succ_ne_self _).symm
    · exact absurd (Option.some.inj (h.trans h'.symm)) (Nat.succ_ne_self _)
    · rfl
  component h hc := by
    rcases h with rfl | rfl
    · simp only [lambdaExpression, components, List.mem_cons, List.not_mem_nil, or_false] at hc
      rcases hc with rfl | rfl
      · exact .inl (hw.unmarked rfl trivial)
      · exact .inr (.inr rfl)
    · simp only [components, List.mem_cons, List.not_mem_nil, or_false] at hc
      rcases hc with rfl | rfl
      · exact .inl hp
      · exact .inl hb
  wellMade h := by
    rcases h with rfl | rfl <;> trivial

theorem follows_define {v : Value} {n : Symbol} (hv : v ∈ w.objects) (hn : allowed f n) :
    Follows allowed w (EvalM.define f n v w.store) fun _ _ => True := by
  simp only [EvalM.define, Store.define]
  by_cases hf : f = Store.empty
  · rw [if_pos hf]
    exact .error _
  · rw [if_neg hf]
    exact .step (.define hv hf hn) trivial

theorem follows_assign {v : Value} {n : Symbol} (hv : v ∈ w.objects) :
    Follows allowed w (EvalM.assign f n v w.store) fun _ _ => True := by
  simp only [EvalM.assign, Store.assign]
  cases hg : w.store.find? f n with
  | none => exact .error _
  | some g => exact .step (.assign hv hg) trivial

/-- A definition or an assignment answers with a symbol. -/
theorem follows_ok {x : EvalM Unit} (h : Follows allowed w (x w.store) fun _ _ => True)
    (hw : w.IsComplete) :
    Follows allowed w ((do x; return .done (.symbol .ok) : EvalM Next) w.store)
      (CanContinue allowed) :=
  h.bind fun _ _ hs _ => .pure ((hs.isComplete hw).unmarked rfl trivial)

theorem follows_conditional (hev : Historic ev) {e test x : Value} {y : Option Value}
    (h : IsForm e (.conditional test x y)) (hw : w.IsComplete) (ht : test ∈ w.objects)
    (hx : x ∈ w.objects) (hy : ∀ z, y = some z → z ∈ w.objects) (hf : f < w.store.frames.size)
    (hnew : AllowsNew allowed w) (hdef : ∀ n, Defines n e → allowed f n) :
    Follows allowed w (special ev f (.conditional test x y) w.store) (CanContinue allowed) := by
  refine (hev.follows hw ht hf hnew fun n hn => hdef n (.test h hn)).bind fun v w' hs hv => ?_
  have hf' := Nat.lt_of_lt_of_le hf hs.size_le
  split
  · exact .pure ⟨hs.objects_subset hx, hf', hnew.after hs, fun n hn => hdef n (.consequent h hn)⟩
  · cases y with
    | none => exact .pure ((hs.isComplete hw).unmarked rfl trivial)
    | some y =>
      exact .pure ⟨hs.objects_subset (hy y rfl), hf', hnew.after hs,
        fun n hn => hdef n (.alternative h hn)⟩

theorem follows_special (hev : Historic ev) (hcheck : ChecksParameters ev) {e : Value}
    {form : Form} (h : IsForm e form) (hw : w.IsComplete) (he : e ∈ w.objects)
    (hf : f < w.store.frames.size) (hnew : AllowsNew allowed w) (hdef : ∀ n, Defines n e → allowed f n) :
    Follows allowed w (special ev f form w.store) (CanContinue allowed) := by
  cases h with
  | quote => exact .pure (hw.first (hw.rest he))
  | assign =>
    refine (hev.follows hw (hw.first (hw.rest (hw.rest he))) hf hnew fun n hn =>
      hdef n (.assigned .assign hn)).bind fun v w' hs hv => ?_
    exact follows_ok (follows_assign hv) (hs.isComplete hw)
  | define =>
    refine (hev.follows hw (hw.first (hw.rest (hw.rest he))) hf hnew fun n hn =>
      hdef n (.value .define hn)).bind fun v w' hs hv => ?_
    exact follows_ok (follows_define hv (hdef _ (.define .define))) (hs.isComplete hw)
  | defineProcedure hb =>
    have hparams := hw.rest (hw.first (hw.rest he))
    have hforms := hw.rest (hw.rest he)
    -- first the `lambda` expression is made
    refine Follows.bind (Q := fun m w' => lambdaExpression m _ _ ∈ w'.objects)
      (.step (.make (canMake_lambdaExpression hw hparams hforms)) (.inr (.inl rfl)))
      fun m w₁ hs₁ he₁ => ?_
    have hw₁ := hs₁.isComplete hw
    have hvalue := hev.follows hw₁ he₁ (Nat.lt_of_lt_of_le hf hs₁.size_le) (hnew.after hs₁)
      fun n hn => absurd hn not_defines_lambdaExpression
    -- and then the name is defined, if the parameters are such that there is a value
    refine (hvalue.and_of_ok fun _ _ => hcheck).bind fun v w₂ hs₂ ⟨hv, hp⟩ => ?_
    exact follows_ok (follows_define hv (hdef _ (.defineProcedure (.defineProcedure hb) hp)))
      (hs₂.isComplete hw₁)
  | conditional =>
    exact follows_conditional hev .conditional hw (hw.first (hw.rest he))
      (hw.first (hw.rest (hw.rest he))) (by simp) hf hnew hdef
  | alternative =>
    have hy := hw.first (hw.rest (hw.rest (hw.rest he)))
    exact follows_conditional hev .alternative hw (hw.first (hw.rest he))
      (hw.first (hw.rest (hw.rest he))) (fun z hz => Option.some.inj hz ▸ hy) hf hnew hdef
  | @lambda a b m params x xs hp hb =>
    have hparams := hw.first (hw.rest he)
    have hforms := hw.rest (hw.rest he)
    refine .step (.make (.singleton (v := .closure w.store.fresh params (.pair m x xs) f) rfl ?_
      ⟨hp, ⟨m, x, xs, rfl, hb⟩, hf⟩)) (.inr rfl)
    simp only [components, List.forall_mem_cons]
    exact ⟨hparams, hforms, by simp⟩

/-! ### Rounds and the loop -/

theorem follows_round (hev : Historic ev) (hcheck : ChecksParameters ev) {e : Value}
    (hw : w.IsComplete) (he : e ∈ w.objects) (hf : f < w.store.frames.size)
    (hnew : AllowsNew allowed w) (hdef : ∀ n, Defines n e → allowed f n) :
    Follows allowed w (round ev e f w.store) (CanContinue allowed) := by
  cases e with
  | boolean _ | integer _ | character _ | string _ _ => exact .pure he
  | symbol n =>
    simp only [round, EvalM.lookup, Store.lookup, bind_apply, get_apply]
    cases hn : w.store.lookup? f n with
    | none => exact .error _
    | some v => exact .pure (hw.lookup hn)
  | pair m first rest =>
    cases hk : first.keyword? with
    | none =>
      simp only [round, hk]
      exact follows_application hev hk hw he hf hnew hdef
    | some k =>
      simp only [round, hk]
      cases hp : Form.parse k rest with
      | error err => exact .error err
      | ok form =>
        exact follows_special hev hcheck (isForm_pair_iff.2 ⟨k, hk, hp⟩) hw he hf hnew hdef
  | nil | primitive _ _ | closure _ _ _ _ | absent => exact .error _

theorem historic_inner {rounds : Nat} (h : ∀ nesting, Historic (evaluate rounds nesting))
    (nesting : Nat) : Historic (inner rounds nesting) := by
  cases nesting with
  | zero => exact fun _ _ _ => .error _
  | succ nesting => exact h nesting

/-- The round of a `lambda` expression does not fail only if the parameters are symbols. -/
theorem isSymbolList_of_round {m : Nat} {params forms : Value} {next : Next} {s t : Store}
    (h : round ev (lambdaExpression m params forms) f s = .ok next t) : params.IsSymbolList := by
  simp only [lambdaExpression, round, Object.keyword?] at h
  obtain ⟨form, _, hform, -⟩ := bind_eq_ok_iff.1 h
  cases hparse : Form.parse .lambda (.pair (m + 1) params forms) with
  | error err =>
    rw [hparse] at hform
    cases hform
  | ok form => exact (isForm_of_parse (m := m) hparse).eq_lambda.2

theorem checksParameters_inner (rounds nesting : Nat) :
    ChecksParameters (inner rounds nesting) := by
  intro m params forms v f s t h
  cases nesting with
  | zero => cases h
  | succ nesting =>
    cases rounds with
    | zero => cases h
    | succ rounds =>
      simp only [inner, evaluate_succ] at h
      obtain ⟨next, u, hround, -⟩ := bind_eq_ok_iff.1 h
      exact isSymbolList_of_round hround

/-- **Evaluations are histories**, however many rounds they may take and however deep they
may nest. -/
theorem historic_evaluate (rounds nesting : Nat) : Historic (evaluate rounds nesting) := by
  induction rounds generalizing nesting with
  | zero =>
    intro w e f hw he hf
    rw [evaluate_zero]
    exact .error _
  | succ rounds ih =>
    intro w e f hw he hf
    rw [evaluate_succ]
    have hnew : AllowsNew (MayDefine w.store.frames.size e f) w := fun g n hg => .inr hg
    refine (follows_round (historic_inner ih nesting) (checksParameters_inner rounds nesting) hw he
      hf hnew fun n hn => .inl ⟨rfl, hn⟩).bind fun next w' hs h => ?_
    cases next with
    | done v => exact .pure h
    | tail e' f' =>
      obtain ⟨he', hf', hnew', hdef'⟩ := h
      exact Historic.follows (ih nesting) (hs.isComplete hw) he' hf' hnew' hdef'

end Evaluation

end SmallScheme
