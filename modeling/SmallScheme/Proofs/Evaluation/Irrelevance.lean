import SmallScheme.Proofs.Evaluation.BigStep
import SmallScheme.Proofs.Evaluation.Regime

/-!
# Bindings that nothing refers to

A binding in a frame makes no difference to an evaluation whose code does not refer to the
name. The code is that of the expression and of all procedures within its reach: those that
it can come across by way of the frame it is evaluated in, the frames around, their bindings,
pairs, and the frames that procedures close over (`WithinReach`). The binding itself need not
be looked at, for nobody gets to its value.

The keyword that heads a special form is no reference, whatever is bound to it. So a keyword
cannot be shadowed.
-/

namespace SmallScheme

open Object Sequencing Evaluation BigStep

/-! ### Stores that differ in one binding -/

namespace Bindings

/-- The bindings of all other names. -/
def without (n : Symbol) (bs : Bindings) : Bindings := bs.filter fun b => b.1 ≠ n

theorem lookup_without {n m : Symbol} (h : m ≠ n) (bs : Bindings) :
    List.lookup m (without n bs) = List.lookup m bs := by
  induction bs with
  | nil => rfl
  | cons b bs ih =>
    obtain ⟨k, w⟩ := b
    by_cases hk : k = n
    · have hm : (m == k) = false := beq_eq_false_iff_ne.2 (hk ▸ h)
      rw [without, List.filter_cons_of_neg (by simpa using hk), List.lookup_cons, hm]
      exact ih
    · rw [without, List.filter_cons_of_pos (by simpa using hk), List.lookup_cons, List.lookup_cons]
      split
      · rfl
      · exact ih

theorem without_put (n m : Symbol) (v : Value) (bs : Bindings) :
    without n (put m v bs) = if m = n then without n bs else put m v (without n bs) := by
  induction bs with
  | nil => by_cases h : m = n <;> simp [without, put, h]
  | cons b bs ih =>
    obtain ⟨k, w⟩ := b
    unfold without at ih ⊢
    by_cases hkm : k = m <;> by_cases hk : k = n <;> by_cases hm : m = n <;>
      simp_all [put]

end Bindings

/-- The stores `s` and `t` are the same but for the binding of `n` in the frame `g`, which one
of them may lack and which may stand in another place there. -/
structure Store.AgreesOutside (g : FrameId) (n : Symbol) (s t : Store) : Prop where
  size : t.frames.size = s.frames.size
  fresh : t.fresh = s.fresh
  frame {a : FrameId} : a ≠ g → t.frame a = s.frame a
  outer : (t.frame g).outer = (s.frame g).outer
  others : (t.frame g).bindings.without n = (s.frame g).bindings.without n

namespace Store.AgreesOutside

variable {g : FrameId} {n : Symbol} {s t : Store}

theorem chain (h : s.AgreesOutside g n t) (a : FrameId) : t.chain a = s.chain a := by
  rw [Store.chain, Store.chain]
  by_cases ha : a = g
  · rw [ha, h.outer]
  · rw [h.frame ha]

/-- All other variables have the same values. -/
theorem get? (h : s.AgreesOutside g n t) (a : FrameId) {m : Symbol} (hm : m ≠ n) :
    (t.frame a).get? m = (s.frame a).get? m := by
  by_cases ha : a = g
  · rw [ha, Frame.get?, Frame.get?, ← Bindings.lookup_without hm, h.others,
      Bindings.lookup_without hm]
  · rw [h.frame ha]

theorem find? (h : s.AgreesOutside g n t) (f : FrameId) {m : Symbol} (hm : m ≠ n) :
    t.find? f m = s.find? f m := by
  rw [Store.find?, Store.find?, h.chain]
  congr 1
  funext a
  rw [Frame.binds, Frame.binds, h.get? a hm]

theorem lookup? (h : s.AgreesOutside g n t) (f : FrameId) {m : Symbol} (hm : m ≠ n) :
    t.lookup? f m = s.lookup? f m := by
  rw [Store.lookup?, Store.lookup?, h.chain]
  congr 1
  funext a
  exact h.get? a hm

theorem withFresh (h : s.AgreesOutside g n t) (k : Nat) :
    AgreesOutside g n { s with fresh := k } { t with fresh := k } :=
  ⟨h.size, rfl, h.frame, h.outer, h.others⟩

theorem put (h : s.AgreesOutside g n t) (a : FrameId) (m : Symbol) (v : Value) :
    (s.put a m v).AgreesOutside g n (t.put a m v) where
  size := by simp [h.size]
  fresh := h.fresh
  frame {b} hb := by
    rw [frame_put, frame_put, h.size]
    split
    · next hba => rw [h.frame (hba.1 ▸ hb)]
    · exact h.frame hb
  outer := by
    rw [outer_put, outer_put]
    exact h.outer
  others := by
    rw [frame_put, frame_put, h.size]
    split
    · next hga =>
      rw [← hga.1, Frame.put, Frame.put, Bindings.without_put, Bindings.without_put, h.others]
    · exact h.others

theorem push (h : s.AgreesOutside g n t) (f : FrameId) (bs : Bindings) :
    (s.push f bs).2.AgreesOutside g n (t.push f bs).2 where
  size := by simp [h.size]
  fresh := h.fresh
  frame {a} ha := by
    rw [frame_push, frame_push, h.size, h.chain, h.frame ha]
  outer := by
    rw [frame_push, frame_push, h.size, h.chain]
    split
    · rfl
    · exact h.outer
  others := by
    rw [frame_push, frame_push, h.size, h.chain]
    split
    · rfl
    · exact h.others

/-- One more binding. -/
theorem of_put (s : Store) (g : FrameId) (n : Symbol) (v : Value) :
    s.AgreesOutside g n (s.put g n v) where
  size := by simp
  fresh := rfl
  frame ha := by rw [frame_put, if_neg fun h => ha h.1]
  outer := outer_put ..
  others := by
    rw [frame_put]
    split
    · rw [Frame.put, Bindings.without_put, if_pos rfl]
    · rfl

end Store.AgreesOutside

/-! ### What an evaluation can come across -/

/-- `WithinReach s g n e f`: the frames and the values that an evaluation of `e` in `f` can come
across in the store `s` without looking at the binding of `n` in the frame `g`. -/
inductive WithinReach (s : Store) (g : FrameId) (n : Symbol) (e : Value) (f : FrameId) :
    FrameId ⊕ Value → Prop where
  /-- The frame of the evaluation. -/
  | frame : WithinReach s g n e f (.inl f)
  /-- The expression. One that was read holds no procedures. -/
  | expression : WithinReach s g n e f (.inr e)
  /-- A frame around a frame. -/
  | outer {a b : FrameId} (h : WithinReach s g n e f (.inl a)) (hb : b ∈ (s.frame a).outer) :
      WithinReach s g n e f (.inl b)
  /-- What a frame binds. -/
  | bound {a : FrameId} {m : Symbol} {v : Value} (h : WithinReach s g n e f (.inl a))
      (hb : (m, v) ∈ (s.frame a).bindings) (hne : ¬ (a = g ∧ m = n)) :
      WithinReach s g n e f (.inr v)
  /-- A component of a value. -/
  | component {v c : Value} (h : WithinReach s g n e f (.inr v)) (hc : c ∈ v.components) :
      WithinReach s g n e f (.inr c)
  /-- The frame that a procedure closes over. -/
  | closedOver {m : Nat} {params forms : Value} {a : FrameId}
      (h : WithinReach s g n e f (.inr (.closure m params forms a))) :
      WithinReach s g n e f (.inl a)

/-- No procedure within reach refers to the name. -/
def IsUnreferenced (s : Store) (g : FrameId) (n : Symbol) (e : Value) (f : FrameId) : Prop :=
  ∀ m params forms a, WithinReach s g n e f (.inr (.closure m params forms a)) →
    ∀ x ∈ forms.elements, ¬ Refers n x

/-- Where there are no procedures, none refers to the name. -/
theorem isUnreferenced_of_no_procedures {s : Store} {g : FrameId} {n : Symbol} {e : Value}
    {f : FrameId} (he : ∀ m params forms a, .closure m params forms a ∉ e.parts)
    (hs : ∀ b, ∀ x ∈ (s.frame b).bindings, ∀ m params forms a,
      .closure m params forms a ∉ x.2.parts) : IsUnreferenced s g n e f := by
  have hreach : ∀ {r}, WithinReach s g n e f r →
      ∀ v, r = .inr v → ∀ m params forms a, .closure m params forms a ∉ v.parts := by
    intro r hr
    induction hr with
    | frame | outer _ _ _ | closedOver _ _ => exact nofun
    | expression =>
      rintro _ ⟨⟩
      exact he
    | bound _ hb _ _ =>
      rintro _ ⟨⟩
      exact hs _ _ hb
    | component _ hc ih =>
      rintro _ ⟨⟩ m params forms a hp
      exact ih _ rfl m params forms a
        (mem_parts_trans hp (mem_parts_of_mem_components (self_mem_parts _) hc))
  intro m params forms a ha
  exact absurd (self_mem_parts _) (hreach ha _ rfl m params forms a)

/-! ### The regime of an unreferenced binding -/

/-- Code may run in the frames of `R` and does not refer to `n`. -/
def avoiding (R : Set FrameId) (n : Symbol) : Policy where
  knows _ f := f ∈ R
  runs _ := True
  permits _ _ x := x ≠ .symbol n ∧ ∀ y, ¬ IsForm x (.assign n y)

/-- The stores differ only in the binding of `n` in `g`. The frames around those of `R` are in
`R`, as all new frames are, and what they bind otherwise is trusted. -/
structure DiffersUnseen (R : Set FrameId) (g : FrameId) (n : Symbol) (s t : Store) : Prop where
  agrees : s.AgreesOutside g n t
  outer {a b : FrameId} : a ∈ R → b ∈ (s.frame a).outer → b ∈ R
  new {a : FrameId} : s.frames.size ≤ a → a ∈ R
  bound {a : FrameId} {m : Symbol} {v : Value} : a ∈ R → (m, v) ∈ (s.frame a).bindings →
    ¬ (a = g ∧ m = n) → (avoiding R n).Trusts s v

/-- The regime under which code does not refer to `n` and the stores differ in its binding in
`g` only. -/
def unseen (R : Set FrameId) (g : FrameId) (n : Symbol) : Regime :=
  { avoiding R n with related := DiffersUnseen R g n }

section Laws

variable {R : Set FrameId} {g : FrameId} {n : Symbol} {s t : Store}

theorem not_refers_iff_allows {s : Store} {f : FrameId} {e : Value} :
    ¬ Refers n e ↔ (avoiding R n).Allows s f e := by
  constructor
  · intro h x hx
    refine ⟨?_, fun y hy => h (.inr ⟨x, y, hx, hy⟩)⟩
    rintro rfl
    exact h (.inl hx)
  · rintro h (hx | ⟨x, y, hx, hy⟩)
    · exact (h _ hx).1 rfl
    · exact (h x hx).2 y hy

theorem isStable_avoiding (R : Set FrameId) (n : Symbol) : (avoiding R n).IsStable where
  knows _ h := h
  permits _ _ h := h
  lambda := ⟨nofun, fun _ hy => by cases hy.eq_lambda.1⟩

namespace DiffersUnseen

theorem chain (h : DiffersUnseen R g n s t) {f a : FrameId} (hf : f ∈ R) (ha : a ∈ s.chain f) :
    a ∈ R := by
  rcases List.mem_cons.1 ha with rfl | ha
  · exact hf
  · exact h.outer hf ha

theorem put (h : DiffersUnseen R g n s t) {a : FrameId} {m : Symbol} {v : Value}
    (hv : (avoiding R n).Trusts s v) : DiffersUnseen R g n (s.put a m v) (t.put a m v) where
  agrees := h.agrees.put a m v
  outer hb hc := h.outer hb (by rwa [Store.outer_put] at hc)
  new hb := h.new (by rwa [Store.size_put] at hb)
  bound hb hw hne := by
    refine Policy.Trusts.mono (isStable_avoiding R n) (.put ..) ?_
    rcases Store.mem_bindings_put hw with rfl | hw
    · exact hv
    · exact h.bound hb hw hne

theorem push (h : DiffersUnseen R g n s t) {f : FrameId} (hf : f ∈ R) {bs : Bindings}
    (hbs : ∀ b ∈ bs, (avoiding R n).Trusts s b.2) :
    DiffersUnseen R g n (s.push f bs).2 (t.push f bs).2 where
  agrees := h.agrees.push f bs
  outer ha hb := by
    rw [Store.frame_push] at hb
    split at hb
    · exact h.chain hf hb
    · exact h.outer ha hb
  new ha := h.new (Nat.le_trans (Nat.le_succ _) (by rwa [Store.size_push] at ha))
  bound ha hv hne := by
    refine Policy.Trusts.mono (isStable_avoiding R n) (.push ..) ?_
    rw [Store.frame_push] at hv
    split at hv
    · exact hbs _ hv
    · exact h.bound ha hv hne

end DiffersUnseen

/-- A binding that is not referred to is not seen. -/
theorem isKept_unseen (R : Set FrameId) (g : FrameId) (n : Symbol) : (unseen R g n).IsKept where
  stable := isStable_avoiding R n
  fresh h := h.agrees.fresh
  size h := h.agrees.size
  withFresh k h := ⟨h.agrees.withFresh k, h.outer, h.new, h.bound⟩
  lookup {s t f m} h hf hm := by
    have hne : m ≠ n := fun heq => hm.1 (by rw [heq])
    refine ⟨h.agrees.lookup? f hne, fun v hv => ?_⟩
    obtain ⟨a, ha, hget⟩ := List.exists_of_findSome?_eq_some hv
    exact h.bound (h.chain hf ha) (Store.mem_of_lookup hget) fun hcon => hne hcon.2
  define h _ _ hv := h.put hv
  assign {s t f m e x v} h _ hform he hv := by
    have hne : m ≠ n := by
      rintro rfl
      exact he.2 x hform
    exact ⟨h.agrees.find? f hne, fun a _ => h.put hv⟩
  push h hf hbs := h.push hf hbs
  enter h _ := ⟨h.new (Nat.le_refl _), trivial, fun _ hx => hx⟩

end Laws

/-! ### The same outcome -/

/-- The answer or the error of a computation. -/
def Outcome.result {α : Type} : Outcome α → Except Error α
  | .ok a _ => .ok a
  | .error e _ => .error e

/-- Everything within reach is trusted. -/
theorem differsUnseen_of_isUnreferenced {s : Store} {f g : FrameId} {e : Value} {n : Symbol}
    (h : IsUnreferenced s g n e f) (v : Value) :
    let R := {a | WithinReach s g n e f (.inl a) ∨ s.frames.size ≤ a}
    DiffersUnseen R g n s (s.put g n v) ∧ (avoiding R n).Trusts s e := by
  intro R
  have htrusts {u : Value} (hu : WithinReach s g n e f (.inr u)) :
      (avoiding R n).Trusts s u := by
    intro m params forms a hp
    have ha := mem_of_mem_parts (S := fun u => WithinReach s g n e f (.inr u))
      (fun _ hu _ hc => .component hu hc) hu hp
    exact ⟨.inl (.closedOver ha), fun x hx => not_refers_iff_allows.1 (h m params forms a ha x hx)⟩
  refine ⟨⟨.of_put s g n v, ?_, fun ha => .inr ha, ?_⟩, htrusts .expression⟩
  · rintro a b (ha | ha) hb
    · exact .inl (.outer ha hb)
    · rw [Store.frame_of_size_le ha] at hb
      cases hb
  · rintro a m u (ha | ha) hu hne
    · exact htrusts (.bound ha hu hne)
    · rw [Store.frame_of_size_le ha] at hu
      cases hu

/-- Binding `n` to `v` in the frame `g` makes no difference to an evaluation: it has the same
answer or the same error, and leaves the store the same but for this binding. -/
def MakesNoDifference (rounds nesting : Nat) (e : Value) (f g : FrameId) (n : Symbol) (v : Value)
    (s : Store) : Prop :=
  let r := evaluate rounds nesting e f s
  let r' := evaluate rounds nesting e f (s.put g n v)
  Outcome.result r' = Outcome.result r ∧
    (Outcome.store r).AgreesOutside g n (Outcome.store r')

theorem makesNoDifference_of_isUnreferenced (rounds nesting : Nat) {s : Store} {f g : FrameId}
    {e : Value} {n : Symbol} (he : ¬ Refers n e) (h : IsUnreferenced s g n e f) (v : Value) :
    MakesNoDifference rounds nesting e f g n v s := by
  obtain ⟨hst, htrusts⟩ := differsUnseen_of_isUnreferenced h v
  have hrun : Regime.Alike (unseen _ g n) (evaluate rounds nesting e f) _ s (s.put g n v) :=
    (isKept_unseen _ g n).alike_evaluate rounds nesting hst
      ⟨.inl .frame, trivial, htrusts, not_refers_iff_allows.1 he⟩
  unfold Regime.Alike at hrun
  unfold MakesNoDifference
  cases hr : evaluate rounds nesting e f s with
  | ok a s' =>
    rw [hr] at hrun
    obtain ⟨t', ht, hst', -⟩ := hrun
    rw [ht]
    exact ⟨rfl, hst'.agrees⟩
  | error err s' =>
    rw [hr] at hrun
    obtain ⟨t', ht, hst', -⟩ := hrun
    rw [ht]
    exact ⟨rfl, hst'.agrees⟩

theorem not_refers_of_isLiteral {n : Symbol} {e : Value} (h : IsLiteral e) : ¬ Refers n e := by
  have he : ∀ m first rest, e ≠ .pair m first rest := by
    rintro m first rest rfl
    exact h
  rintro (hn | hn)
  · exact (InCode.eq_of_not_pair he hn ▸ h : IsLiteral (.symbol n)).elim
  · exact not_assigns_of_not_pair he hn

/-- A special form refers to its keyword only if its code does, or if it assigns it. -/
theorem not_refers_of_keyword {k : Keyword} {n : Symbol} {m : Nat} {rest : Value}
    (h : ∀ x, CodePart x (.pair m (.symbol k.symbol) rest) → ¬ Refers n x)
    (ha : ∀ x, ¬ IsForm (.pair m (.symbol k.symbol) rest) (.assign n x)) :
    ¬ Refers n (.pair m (.symbol k.symbol) rest) := by
  rintro (hn | ⟨x, y, hx, hy⟩)
  · obtain ⟨x, hx, hpart⟩ := (hn.cases_tail).resolve_left (by simp)
    exact h x hpart (.inl hx)
  · rcases hx.cases_tail with rfl | ⟨z, hz, hpart⟩
    · exact ha y hy
    · exact h z hpart (.inr ⟨x, y, hz, hy⟩)

/-- **Bindings that nothing refers to do not matter, and keywords cannot be shadowed.** If
neither an expression nor any procedure within its reach refers to a name, then a binding of
the name, to whatever value and in whatever frame, makes no difference to the evaluation. A
form with a keyword at its head is evaluated as a special form in every store; the head is no
reference, and so a binding of the keyword makes no difference as long as nothing inside the
form refers to it. -/
theorem unreferenced_bindings (rounds nesting : Nat) (s : Store) (f g : FrameId) (v : Value) :
    (∀ n e, ¬ Refers n e → IsUnreferenced s g n e f →
      MakesNoDifference rounds nesting e f g n v s) ∧
    ∀ (k : Keyword) (m : Nat) (rest : Value),
      let e := .pair m (.symbol k.symbol) rest
      evaluate (rounds + 1) nesting e f =
          (do special (inner rounds nesting) f (← EvalM.ofExcept (Form.parse k rest))) >>=
            proceed rounds nesting ∧
        ((∀ x, CodePart x e → ¬ Refers k.symbol x) → (∀ x, ¬ IsForm e (.assign k.symbol x)) →
          IsUnreferenced s g k.symbol e f →
            MakesNoDifference rounds nesting e f g k.symbol v s) := by
  refine ⟨fun n e he h => makesNoDifference_of_isUnreferenced rounds nesting he h v, ?_⟩
  intro k m rest e
  constructor
  · rw [evaluate_succ]
    simp only [e, Evaluation.round, Object.keyword?, Keyword.keyword?_symbol]
  · intro hparts ha h
    exact makesNoDifference_of_isUnreferenced rounds nesting (not_refers_of_keyword hparts ha) h v

/-- With `if` bound to `#f` in the global frame, `(if #t 5)` is still a conditional. -/
theorem unreferenced_if :
    let e : Value :=
      .pair 0 (.symbol ⟨"if"⟩) (.pair 1 (.boolean true) (.pair 2 (.integer 5) .nil))
    MakesNoDifference 2 1 e Store.global Store.global ⟨"if"⟩ (.boolean false) .initial := by
  intro e
  have hform : IsForm e (.conditional (.boolean true) (.integer 5) none) := .conditional
  have hliteral {x y : Value} (hy : IsForm y (.conditional (.boolean true) (.integer 5) none))
      (hx : CodePart x y) : IsLiteral x := by
    cases hx with
    | assigned h | value h | alternative h | procedure h | form h => cases hy.unique h
    | test h | consequent h =>
      cases hy.unique h
      trivial
    | operator hk | operand hk => exact absurd hk hy.keyword?_ne_none
  have hatoms : ∀ fr ∈ Store.initial.frames.toList, ∀ x ∈ fr.bindings,
      x.2.components.length = 0 := by decide
  obtain ⟨-, h⟩ :=
    unreferenced_bindings 2 1 .initial Store.global Store.global (.boolean false)
  refine (h .conditional 0 _).2 (fun x hx => not_refers_of_isLiteral (hliteral hform hx))
    (fun x hx => by cases hform.unique hx) (isUnreferenced_of_no_procedures (by simp [parts]) ?_)
  intro b x hx m params forms a hp
  have hatom := hatoms _ (Store.frame_mem_of_mem_bindings hx) x hx
  have heq : .closure m params forms a = x.2 := by
    refine mem_of_mem_parts (S := (· = x.2)) ?_ rfl hp
    rintro _ rfl c hc
    rw [List.length_eq_zero_iff.1 hatom] at hc
    cases hc
  rw [← heq] at hatom
  cases hatom

end SmallScheme
