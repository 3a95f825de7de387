import SmallScheme.Proofs.Evaluation.Code
import SmallScheme.Proofs.Evaluation.History

/-!
# Two runs side by side

An expression is evaluated from two stores. When does the one run what the other does? That
depends on the code that comes to run, and this is known beforehand: it is the code of the
expression and that of the procedures that can be called, for code is never made of data.

## The model

A `Policy` says which code may run in which frame. A value is *trusted* if every procedure in
it has a body that may run inside the frame it closes over. A `Regime` adds how the two stores
stand to each other. Its laws (`Regime.IsKept`) speak of one look-up, one definition, one
assignment and one new frame each, and from them it follows that an evaluation of permitted
code in related stores ends alike in both (`Regime.IsKept.alike_evaluate`).

A regime whose stores are related only to themselves says what a single run leaves as it is.
-/

namespace SmallScheme

open Object Sequencing Moment Evaluation

/-! ### Stores that grow -/

/-- The frames of `s` are all in `t`, and inside the same frames. -/
structure Store.Grows (s t : Store) : Prop where
  size_le : s.frames.size ≤ t.frames.size
  chain {f : FrameId} : f < s.frames.size → t.chain f = s.chain f

namespace Store.Grows

variable {s t u : Store}

theorem refl (s : Store) : s.Grows s := ⟨Nat.le_refl _, fun _ => rfl⟩

theorem trans (h : s.Grows t) (h' : t.Grows u) : s.Grows u where
  size_le := Nat.le_trans h.size_le h'.size_le
  chain hf := (h'.chain (Nat.lt_of_lt_of_le hf h.size_le)).trans (h.chain hf)

theorem withFresh (s : Store) (k : Nat) : s.Grows { s with fresh := k } :=
  ⟨Nat.le_refl _, fun _ => rfl⟩

theorem put (s : Store) (f : FrameId) (n : Symbol) (v : Value) : s.Grows (s.put f n v) :=
  ⟨by simp, fun _ => Store.chain_put ..⟩

theorem push (s : Store) (f : FrameId) (bs : Bindings) : s.Grows (s.push f bs).2 where
  size_le := by simp
  chain hf := by rw [Store.chain, Store.frame_push, if_neg (Nat.ne_of_lt hf), Store.chain]

end Store.Grows

/-! ### Parts -/

theorem Object.mem_parts_trans {ι : Type} {o p q : Object ι} (hq : q ∈ p.parts)
    (hp : p ∈ o.parts) : q ∈ o.parts :=
  mem_of_mem_parts (S := (· ∈ o.parts)) (fun _ h _ hc => mem_parts_of_mem_components h hc) hp hq

theorem Object.mem_parts_of_mem_elements {ι : Type} {o e : Object ι} (h : e ∈ o.elements) :
    e ∈ o.parts := by
  induction o with
  | pair m first rest _ ih =>
    rcases List.mem_cons.1 h with rfl | h
    · exact mem_parts_first (self_mem_parts _)
    · exact mem_parts_rest (ih h)
  | _ => cases h

/-- The code in an expression is part of it. -/
theorem CodePart.mem_parts {x e : Value} (h : CodePart x e) : x ∈ e.parts := by
  cases h with
  | assigned h | value h | test h | consequent h | alternative h =>
    cases h <;> simp [parts, self_mem_parts]
  | procedure h _ hx | form h hx =>
    cases h
    refine mem_parts_trans (mem_parts_of_mem_elements hx) ?_
    simp [parts]
  | operator => simp [parts, self_mem_parts]
  | operand _ hx =>
    refine mem_parts_trans (mem_parts_of_mem_elements hx) ?_
    simp [parts, self_mem_parts]

/-! ### Policies -/

/-- Which code may run where. -/
structure Policy where
  /-- A frame that procedures may close over. -/
  knows : Store → FrameId → Prop
  /-- A frame that code may run in. -/
  runs : FrameId → Prop
  /-- An expression, its parts left aside, that may be evaluated in a frame or inside it. -/
  permits : Store → FrameId → Value → Prop

namespace Policy

/-- All code in the expression is permitted. -/
def Allows (P : Policy) (s : Store) (f : FrameId) (e : Value) : Prop :=
  ∀ x, InCode x e → P.permits s f x

/-- Every procedure in the value closes over a known frame and has a body that is allowed
there. -/
def Trusts (P : Policy) (s : Store) (v : Value) : Prop :=
  ∀ m params forms f, .closure m params forms f ∈ v.parts →
    P.knows s f ∧ ∀ e ∈ forms.elements, P.Allows s f e

/-- The expression may be evaluated in the frame. -/
structure Admits (P : Policy) (s : Store) (f : FrameId) (e : Value) : Prop where
  knows : P.knows s f
  runs : P.runs f
  trusts : P.Trusts s e
  allows : P.Allows s f e

/-- What is permitted stays permitted, and a `lambda` expression by itself always is. -/
structure IsStable (P : Policy) : Prop where
  knows {s t : Store} {f : FrameId} : s.Grows t → P.knows s f → P.knows t f
  permits {s t : Store} {f : FrameId} {x : Value} : s.Grows t → P.knows s f →
    P.permits s f x → P.permits t f x
  lambda {s : Store} {f : FrameId} {m : Nat} {params forms : Value} :
    P.permits s f (lambdaExpression m params forms)

variable {P : Policy} {s t : Store} {f : FrameId}

/-! ### Trusted values -/

namespace Trusts

theorem part {v p : Value} (h : P.Trusts s v) (hp : p ∈ v.parts) : P.Trusts s p :=
  fun m params forms f hc => h m params forms f (mem_parts_trans hc hp)

/-- What is no procedure is trusted if its components are. -/
theorem of_components {v : Value} (hv : ∀ m params forms f, v ≠ .closure m params forms f)
    (h : ∀ c ∈ v.components, P.Trusts s c) : P.Trusts s v := by
  intro m params forms f hc
  cases v with
  | pair k a d =>
    simp only [parts, List.mem_cons, List.mem_append, reduceCtorEq, false_or] at hc
    rcases hc with hc | hc
    · exact h a (by simp [components]) m params forms f hc
    · exact h d (by simp [components]) m params forms f hc
  | closure k ps fs g => exact absurd rfl (hv k ps fs g)
  | _ => cases List.mem_singleton.1 hc

theorem pair {m : Nat} {a d : Value} (ha : P.Trusts s a) (hd : P.Trusts s d) :
    P.Trusts s (.pair m a d) := by
  refine of_components (by simp) fun c hc => ?_
  simp only [components, List.mem_cons, List.not_mem_nil, or_false] at hc
  rcases hc with rfl | rfl
  · exact ha
  · exact hd

theorem list {m : Nat} {vs : List Value} (h : ∀ v ∈ vs, P.Trusts s v) :
    P.Trusts s (Value.list m vs .nil) := by
  induction vs generalizing m with
  | nil => exact of_components (by simp [Value.list]) (by simp [Value.list, components])
  | cons v vs ih =>
    obtain ⟨hv, hvs⟩ := List.forall_mem_cons.1 h
    exact hv.pair (ih hvs)

theorem element {v e : Value} (h : P.Trusts s v) (he : e ∈ v.elements) : P.Trusts s e :=
  h.part (mem_parts_of_mem_elements he)

theorem mono (hP : P.IsStable) (hs : s.Grows t) {v : Value} (h : P.Trusts s v) :
    P.Trusts t v := by
  intro m params forms f hc
  obtain ⟨hf, hforms⟩ := h m params forms f hc
  exact ⟨hP.knows hs hf, fun e he x hx => hP.permits hs hf (hforms e he x hx)⟩

/-- Plain data hold no procedure. -/
theorem place {d : Datum} (hd : d.IsPlain) (m : Nat) : P.Trusts s (d.place m).1 := by
  induction d generalizing m with
  | pair mark first rest ih₁ ih₂ => exact (ih₁ hd.1 _).pair (ih₂ hd.2 _)
  | primitive | closure | absent => exact hd.elim
  | _ => exact of_components (by simp [Datum.place]) (by simp [Datum.place, components])

/-- What a primitive makes of trusted arguments is trusted. -/
theorem of_apply {p : Primitive} {args v : Value} {mark : Nat} (ha : P.Trusts s args)
    (h : p.apply args mark = .ok v) : P.Trusts s v := by
  -- trusted values are complete in the sense of a moment at which nothing is bound
  have hw : (⟨{v | P.Trusts s v}, ⟨#[], 0⟩⟩ : Moment).IsComplete :=
    { unmarked := fun {v} hm _ => of_components
        (by rintro m params forms f rfl; cases hm)
        (by cases v <;> simp_all [components, mark?])
      component := fun hv hc => Trusts.part hv (mem_parts_of_mem_components (self_mem_parts _) hc)
      bound := fun hb => by simp [Store.frame] at hb }
  rcases Primitive.mem_or_new_of_apply hw ha h with hv | ⟨-, hc, hv⟩
  · exact hv
  · refine of_components ?_ hc
    rintro m params forms f rfl
    exact absurd hv.2.2 (Nat.not_lt_zero f)

end Trusts

namespace Admits

theorem mono (hP : P.IsStable) (hs : s.Grows t) {e : Value} (h : P.Admits s f e) :
    P.Admits t f e :=
  ⟨hP.knows hs h.knows, h.runs, h.trusts.mono hP hs,
    fun x hx => hP.permits hs h.knows (h.allows x hx)⟩

theorem part {e x : Value} (h : P.Admits s f e) (hx : CodePart x e) : P.Admits s f x :=
  ⟨h.knows, h.runs, h.trusts.part hx.mem_parts, fun y hy => h.allows y (hy.tail hx)⟩

/-- The `lambda` expression of a procedure definition has the code of the definition. Without a
list of symbols for parameters neither has any code. -/
theorem lambdaExpression (hP : P.IsStable) {e params forms : Value} {n : Symbol}
    (h : P.Admits s f e) (he : IsForm e (.defineProcedure n params forms)) (m : Nat) :
    P.Admits s f (Evaluation.lambdaExpression m params forms) := by
  refine ⟨h.knows, h.runs, ?_, fun x hx => ?_⟩
  · have hparts : params ∈ e.parts ∧ forms ∈ e.parts := by
      cases he
      simp [parts, self_mem_parts]
    refine .pair (.of_components (by simp) (by simp [components])) ?_
    exact (h.trusts.part hparts.1).pair (h.trusts.part hparts.2)
  · by_cases hne : x = Evaluation.lambdaExpression m params forms
    · rw [hne]
      exact hP.lambda
    · by_cases hp : params.IsSymbolList
      · obtain ⟨y, hy, hxy⟩ := (he.lambdaExpression hp m).exists_inCode_of_lambda hx hne
        exact h.allows x (hxy.tail (.procedure he hp hy))
      · refine absurd (hx.eq_of_not_isForm Keyword.lambda.keyword?_symbol fun form hform => ?_) hne
        exact hp hform.eq_lambda.2

end Admits

end Policy

/-! ### Regimes -/

/-- Which code may run where, and how the stores of two runs stand to each other. -/
structure Regime extends Policy where
  /-- How the two stores stand to each other. -/
  related : Store → Store → Prop

namespace Regime

/-- The laws of a regime. -/
structure IsKept (I : Regime) : Prop where
  stable : I.IsStable
  fresh {s t : Store} : I.related s t → t.fresh = s.fresh
  size {s t : Store} : I.related s t → t.frames.size = s.frames.size
  /-- New marks make no difference. -/
  withFresh {s t : Store} (k : Nat) :
    I.related s t → I.related { s with fresh := k } { t with fresh := k }
  lookup {s t : Store} {f : FrameId} {n : Symbol} : I.related s t → I.knows s f →
    I.permits s f (.symbol n) →
      t.lookup? f n = s.lookup? f n ∧ ∀ v, s.lookup? f n = some v → I.Trusts s v
  define {s t : Store} {f : FrameId} {n : Symbol} {v : Value} : I.related s t → I.knows s f →
    I.runs f → I.Trusts s v → I.related (s.put f n v) (t.put f n v)
  assign {s t : Store} {f : FrameId} {n : Symbol} {e x v : Value} : I.related s t →
    I.knows s f → IsForm e (.assign n x) → I.permits s f e → I.Trusts s v →
      t.find? f n = s.find? f n ∧
        ∀ g, s.find? f n = some g → I.related (s.put g n v) (t.put g n v)
  push {s t : Store} {f : FrameId} {bs : Bindings} : I.related s t → I.knows s f →
    (∀ b ∈ bs, I.Trusts s b.2) → I.related (s.push f bs).2 (t.push f bs).2
  /-- What is permitted inside a frame is permitted in a new frame there. -/
  enter {s t : Store} {f : FrameId} {bs : Bindings} : I.related s t → I.knows s f →
    I.knows (s.push f bs).2 s.frames.size ∧ I.runs s.frames.size ∧
      ∀ x, I.permits s f x → I.permits (s.push f bs).2 s.frames.size x

variable {I : Regime} {s t : Store} {f : FrameId}

/-! ### Computations that go alike -/

/-- `Alike I x Q s t`: from the stores `s` and `t` the computation `x` gives the same answer or
the same error and leaves related stores; an answer and the first of them have the property
`Q`. -/
def Alike {α : Type} (I : Regime) (x : EvalM α) (Q : α → Store → Prop) (s t : Store) : Prop :=
  match x s with
  | .ok a s' => ∃ t', x t = .ok a t' ∧ I.related s' t' ∧ s.Grows s' ∧ Q a s'
  | .error e s' => ∃ t', x t = .error e t' ∧ I.related s' t' ∧ s.Grows s'

namespace Alike

variable {α β : Type} {Q : α → Store → Prop} {R : β → Store → Prop}

theorem pure (h : I.related s t) {a : α} (ha : Q a s) : Alike I (pure a) Q s t :=
  ⟨t, rfl, h, .refl s, ha⟩

theorem throw (h : I.related s t) (e : Error) : Alike I (throw e) Q s t :=
  ⟨t, rfl, h, .refl s⟩

theorem ofExcept (h : I.related s t) {x : Except Error α} (ha : ∀ a, x = .ok a → Q a s) :
    Alike I (EvalM.ofExcept x) Q s t := by
  cases x with
  | ok a => exact .pure h (ha a rfl)
  | error e => exact .throw h e

/-- One computation after the other. -/
theorem bind {x : EvalM α} {k : α → EvalM β} (h : Alike I x Q s t)
    (hk : ∀ a s' t', s.Grows s' → I.related s' t' → Q a s' → Alike I (k a) R s' t') :
    Alike I (x >>= k) R s t := by
  unfold Alike at h ⊢
  rw [bind_apply, bind_apply]
  cases hx : x s with
  | error e s' =>
    rw [hx] at h
    obtain ⟨t', ht, hr, hs⟩ := h
    rw [ht]
    exact ⟨t', rfl, hr, hs⟩
  | ok a s' =>
    rw [hx] at h
    obtain ⟨t', ht, hr, hs, ha⟩ := h
    have hka := hk a s' t' hs hr ha
    unfold Alike at hka
    simp only [ht]
    cases hy : k a s' with
    | error e s'' =>
      rw [hy] at hka
      obtain ⟨t'', ht', hr', hs'⟩ := hka
      exact ⟨t'', ht', hr', hs.trans hs'⟩
    | ok b s'' =>
      rw [hy] at hka
      obtain ⟨t'', ht', hr', hs', hb⟩ := hka
      exact ⟨t'', ht', hr', hs.trans hs', hb⟩

theorem marks (hI : I.IsKept) (h : I.related s t) (count : Nat) :
    Alike I (EvalM.marks count) (fun _ _ => True) s t := by
  refine ⟨{ t with fresh := t.fresh + count }, ?_, ?_, .withFresh .., trivial⟩
  · rw [EvalM.marks, modifyGet_apply, hI.fresh h]
  · rw [hI.fresh h]
    exact hI.withFresh _ h

end Alike

/-! ### The parts of a round -/

/-- Evaluations by `ev` go alike. -/
def RunsAlike (I : Regime) (ev : Evaluator) : Prop :=
  ∀ {s t : Store} {e : Value} {f : FrameId}, I.related s t → I.Admits s f e →
    Alike I (ev e f) (fun v s' => I.Trusts s' v) s t

/-- What a round leaves to do may be done. -/
def CanContinue (I : Regime) : Next → Store → Prop
  | .done v, s => I.Trusts s v
  | .tail e f, s => I.Admits s f e

namespace IsKept

variable {ev : Evaluator}

theorem alike_operands (hI : I.IsKept) (hev : I.RunsAlike ev) {es : Value}
    (h : I.related s t) (hes : ∀ e ∈ es.elements, I.Admits s f e) :
    Alike I (operands ev f es) (fun vs s' => ∀ v ∈ vs, I.Trusts s' v) s t := by
  induction es generalizing s t with
  | pair m e es _ ih =>
    obtain ⟨he, hes⟩ := List.forall_mem_cons.1 hes
    simp only [operands]
    refine (hev h he).bind fun v s₁ t₁ hs₁ h₁ hv => ?_
    refine (ih h₁ fun e he => (hes e he).mono hI.stable hs₁).bind fun vs s₂ t₂ hs₂ h₂ hvs => ?_
    exact .pure h₂ (List.forall_mem_cons.2 ⟨hv.mono hI.stable hs₂, hvs⟩)
  | nil => exact .pure h (by simp)
  | _ => exact .throw h _

theorem alike_argumentList (hI : I.IsKept) {vs : List Value} (h : I.related s t)
    (hvs : ∀ v ∈ vs, I.Trusts s v) :
    Alike I (argumentList vs) (fun args s' => I.Trusts s' args) s t :=
  (Alike.marks hI h _).bind fun _ _ _ hs h' _ =>
    .pure h' (.list fun v hv => (hvs v hv).mono hI.stable hs)

theorem alike_body (hI : I.IsKept) (hev : I.RunsAlike ev) {forms : Value} (h : I.related s t)
    (hforms : ∀ e ∈ forms.elements, I.Admits s f e) :
    Alike I (body ev f forms) I.CanContinue s t := by
  fun_induction body ev f forms generalizing s t with
  | case1 m e => exact .pure h (hforms e (List.mem_cons_self ..))
  | case2 m e es _ ih =>
    obtain ⟨he, hes⟩ := List.forall_mem_cons.1 hforms
    refine (hev h he).bind fun v s₁ t₁ hs₁ h₁ _ => ?_
    exact ih h₁ fun e he => (hes e he).mono hI.stable hs₁
  | case3 => exact .throw h _

theorem alike_extend (hI : I.IsKept) {params args : Value} (h : I.related s t)
    (hf : I.knows s f) (ha : I.Trusts s args) :
    Alike I (EvalM.extend params args f) (fun g s' => I.knows s' g ∧ I.runs g ∧
      ∀ x, I.permits s f x → I.permits s' g x) s t := by
  unfold Alike
  simp only [EvalM.extend, Store.extend]
  cases hb : Bindings.ofParameters params args with
  | error e => exact ⟨t, rfl, h, .refl s⟩
  | ok bs =>
    have hbs : ∀ b ∈ bs, I.Trusts s b.2 :=
      fun b hm => ha.element (mem_elements_of_ofParameters hb hm)
    refine ⟨(t.push f bs).2, ?_, hI.push h hf hbs, .push s f bs, hI.enter h hf⟩
    simp only [Store.push, hI.size h]

theorem alike_apply (hI : I.IsKept) (hev : I.RunsAlike ev) {p args : Value} (h : I.related s t)
    (hp : I.Trusts s p) (ha : I.Trusts s args) :
    Alike I (apply ev p args) I.CanContinue s t := by
  cases p with
  | primitive m p =>
    refine (Alike.marks hI h 1).bind fun mark s₁ t₁ hs₁ h₁ _ => ?_
    refine (Alike.ofExcept (Q := fun v s' => I.Trusts s' v) h₁ fun v hv => ?_).bind
      fun v s₂ t₂ _ h₂ hv => .pure h₂ hv
    exact Policy.Trusts.of_apply (ha.mono hI.stable hs₁) hv
  | closure m params forms f =>
    obtain ⟨hf, hforms⟩ := hp m params forms f (self_mem_parts _)
    refine (hI.alike_extend h hf ha).bind fun g s₁ t₁ hs₁ h₁ hg => ?_
    obtain ⟨hknown, hruns, hpermits⟩ := hg
    refine hI.alike_body hev h₁ fun e he => ⟨hknown, hruns, ?_, fun x hx => ?_⟩
    · have hmem : forms ∈ (closure m params forms f).parts := by simp [parts, self_mem_parts]
      exact (hp.part (mem_parts_trans (mem_parts_of_mem_elements he) hmem)).mono hI.stable hs₁
    · exact hpermits x (hforms e he x hx)
  | _ => exact .throw h _

theorem alike_application (hI : I.IsKept) (hev : I.RunsAlike ev) {m : Nat} {first rest : Value}
    (hk : first.keyword? = none) (h : I.related s t) (he : I.Admits s f (.pair m first rest)) :
    Alike I (application ev f first rest) I.CanContinue s t := by
  refine (hev h (he.part (.operator hk))).bind fun p s₁ t₁ hs₁ h₁ hp => ?_
  refine (hI.alike_operands hev h₁ fun e hm => (he.part (.operand hk hm)).mono hI.stable hs₁).bind
    fun vs s₂ t₂ hs₂ h₂ hvs => ?_
  refine (hI.alike_argumentList h₂ hvs).bind fun args s₃ t₃ hs₃ h₃ ha => ?_
  exact hI.alike_apply hev h₃ (hp.mono hI.stable (hs₂.trans hs₃)) ha

/-- A definition or an assignment answers with a symbol. -/
theorem alike_ok {x : EvalM Unit} (h : Alike I x (fun _ _ => True) s t) :
    Alike I (do x; return .done (.symbol .ok)) I.CanContinue s t :=
  h.bind fun _ _ _ _ h' _ => .pure h' (Policy.Trusts.of_components (by simp) (by simp [components]))

theorem alike_define (hI : I.IsKept) {n : Symbol} {e v : Value} (h : I.related s t)
    (he : I.Admits s f e) (hv : I.Trusts s v) :
    Alike I (EvalM.define f n v) (fun _ _ => True) s t := by
  unfold Alike
  simp only [EvalM.define, Store.define]
  by_cases hf : f = Store.empty
  · simp only [if_pos hf]
    exact ⟨t, rfl, h, .refl s⟩
  · simp only [if_neg hf]
    exact ⟨_, rfl, hI.define h he.knows he.runs hv, .put .., trivial⟩

theorem alike_assign (hI : I.IsKept) {n : Symbol} {e x v : Value} (h : I.related s t)
    (he : I.Admits s f e) (hform : IsForm e (.assign n x)) (hv : I.Trusts s v) :
    Alike I (EvalM.assign f n v) (fun _ _ => True) s t := by
  obtain ⟨hfind, hput⟩ := hI.assign h he.knows hform (he.allows e .refl) hv
  unfold Alike
  simp only [EvalM.assign, Store.assign, hfind]
  cases hg : s.find? f n with
  | none => exact ⟨t, rfl, h, .refl s⟩
  | some g => exact ⟨_, rfl, hput g hg, .put .., trivial⟩

/-- A new procedure closes over the present frame, and its body is code of the expression. -/
theorem alike_close (hI : I.IsKept) {e params forms : Value}
    (hform : IsForm e (.lambda params forms)) (h : I.related s t) (he : I.Admits s f e) :
    Alike I (close params forms f) (fun v s' => I.Trusts s' v) s t := by
  refine (Alike.marks hI h 1).bind fun m s₁ t₁ hs₁ h₁ _ => .pure h₁ ?_
  have he₁ := he.mono hI.stable hs₁
  have hparts : params ∈ e.parts ∧ forms ∈ e.parts := by
    cases hform
    simp [parts, self_mem_parts]
  intro k ps fs g hc
  simp only [parts, List.mem_cons, closure.injEq, List.mem_append] at hc
  rcases hc with ⟨-, rfl, rfl, rfl⟩ | hc | hc
  · exact ⟨he₁.knows, fun x hx y hy => he₁.allows y (hy.tail (.form hform hx))⟩
  · exact he₁.trusts.part hparts.1 k ps fs g hc
  · exact he₁.trusts.part hparts.2 k ps fs g hc

theorem alike_special (hI : I.IsKept) (hev : I.RunsAlike ev) {e : Value} {form : Form}
    (hform : IsForm e form) (h : I.related s t) (he : I.Admits s f e) :
    Alike I (special ev f form) I.CanContinue s t := by
  cases form with
  | quote d =>
    refine .pure h (he.trusts.part ?_)
    cases hform
    simp [parts, self_mem_parts]
  | assign n x =>
    refine (hev h (he.part (.assigned hform))).bind fun v s₁ t₁ hs₁ h₁ hv => ?_
    exact alike_ok (hI.alike_assign h₁ (he.mono hI.stable hs₁) hform hv)
  | define n x =>
    refine (hev h (he.part (.value hform))).bind fun v s₁ t₁ hs₁ h₁ hv => ?_
    exact alike_ok (hI.alike_define h₁ (he.mono hI.stable hs₁) hv)
  | defineProcedure n params forms =>
    refine (Alike.marks hI h 2).bind fun m s₁ t₁ hs₁ h₁ _ => ?_
    have he₁ := he.mono hI.stable hs₁
    refine (hev h₁ (he₁.lambdaExpression hI.stable hform m)).bind fun v s₂ t₂ hs₂ h₂ hv => ?_
    exact alike_ok (hI.alike_define h₂ (he₁.mono hI.stable hs₂) hv)
  | conditional test x y =>
    refine (hev h (he.part (.test hform))).bind fun v s₁ t₁ hs₁ h₁ hv => ?_
    have he₁ := he.mono hI.stable hs₁
    split
    · exact .pure h₁ (he₁.part (.consequent hform))
    · cases y with
      | some y => exact .pure h₁ (he₁.part (.alternative hform))
      | none => exact .pure h₁ (Policy.Trusts.of_components (by simp) (by simp [components]))
  | lambda params forms =>
    exact (hI.alike_close hform h he).bind fun v s₁ t₁ _ h₁ hv => .pure h₁ hv

/-! ### Rounds and the loop -/

theorem alike_round (hI : I.IsKept) (hev : I.RunsAlike ev) {e : Value} (h : I.related s t)
    (he : I.Admits s f e) : Alike I (round ev e f) I.CanContinue s t := by
  cases e with
  | boolean _ | integer _ | character _ | string _ _ => exact .pure h he.trusts
  | symbol n =>
    obtain ⟨hlookup, hv⟩ := hI.lookup h he.knows (he.allows _ .refl)
    unfold Alike
    simp only [Evaluation.round, EvalM.lookup, Store.lookup, bind_apply, get_apply, hlookup]
    cases hn : s.lookup? f n with
    | none => exact ⟨t, rfl, h, .refl s⟩
    | some v => exact ⟨t, rfl, h, .refl s, hv v hn⟩
  | pair m first rest =>
    cases hk : first.keyword? with
    | none =>
      simp only [Evaluation.round, hk]
      exact hI.alike_application hev hk h he
    | some k =>
      simp only [Evaluation.round, hk]
      refine (Alike.ofExcept (Q := fun form s' => IsForm (.pair m first rest) form ∧ s' = s) h
        fun form hp => ⟨isForm_pair_iff.2 ⟨k, hk, hp⟩, rfl⟩).bind ?_
      rintro form _ t₁ - h₁ ⟨hform, rfl⟩
      exact hI.alike_special hev hform h₁ he
  | nil | primitive _ _ | closure _ _ _ _ | absent => exact .throw h _

/-- **Permitted code runs alike** from related stores, however many rounds it may take and
however deep it may nest. -/
theorem alike_evaluate (hI : I.IsKept) (rounds nesting : Nat) :
    I.RunsAlike (evaluate rounds nesting) := by
  induction rounds generalizing nesting with
  | zero =>
    intro s t e f h _
    rw [evaluate_zero]
    exact .throw h _
  | succ rounds ih =>
    intro s t e f h he
    have hinner : I.RunsAlike (inner rounds nesting) := by
      cases nesting with
      | zero => exact fun h _ => .throw h _
      | succ nesting => exact ih nesting
    rw [evaluate_succ]
    refine (hI.alike_round hinner h he).bind fun next s₁ t₁ _ h₁ hnext => ?_
    cases next with
    | done v => exact .pure h₁ hnext
    | tail e f => exact ih nesting h₁ hnext

end IsKept

end Regime

end SmallScheme
