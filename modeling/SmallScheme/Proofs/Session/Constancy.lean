import SmallScheme.Proofs.Evaluation.Regime
import SmallScheme.Proofs.Session.History

/-!
# Bindings that nobody assigns

A procedure sees the variables of the frames around it, and the code that sees a variable is
the only code that can change it. So a binding stays as it is as long as no procedure inside
its frame holds an assignment to the name, and nor does what is evaluated there. It does not
matter what happens to variables of the same name in other frames, be they outside, or made by
the same procedure in another call.

A definition changes a binding too, but only in the frame that it is evaluated in. This frame
is left out of what follows.
-/

namespace SmallScheme

open Object Relation Sequencing Evaluation

/-- No procedure in the store that is inside the frame `g` holds an assignment to `n`. -/
def Store.IsUnassigned (s : Store) (g : FrameId) (n : Symbol) : Prop :=
  ∀ h m v, (m, v) ∈ (s.frame h).bindings →
    ∀ k params forms a, .closure k params forms a ∈ v.parts → g ∈ s.chain a →
      ∀ e ∈ forms.elements, ¬ Assigns n e

/-! ### The regime of a constant -/

/-- Inside the frame `g` nothing is assigned to `n`, and no code runs in `g` itself. -/
def sparing (g : FrameId) (n : Symbol) : Policy where
  knows s f := f < s.frames.size
  runs f := f ≠ g
  permits s f x := g ∈ s.chain f → ∀ y, ¬ IsForm x (.assign n y)

/-- The frame `g` binds `n` to `v`, and no bound value may change this. -/
structure IsConstant (g : FrameId) (n : Symbol) (v : Value) (s : Store) : Prop where
  mem : g < s.frames.size
  get? : (s.frame g).get? n = some v
  bound {h : FrameId} {m : Symbol} {u : Value} :
    (m, u) ∈ (s.frame h).bindings → (sparing g n).Trusts s u

/-- The regime under which the store keeps a binding. There is but one store. -/
def keeping (g : FrameId) (n : Symbol) (v : Value) : Regime :=
  { sparing g n with related := fun s t => t = s ∧ IsConstant g n v s }

section Laws

variable {g : FrameId} {n : Symbol} {v : Value} {s : Store}

theorem not_assigns_iff_allows {f : FrameId} {e : Value} :
    (g ∈ s.chain f → ¬ Assigns n e) ↔ (sparing g n).Allows s f e := by
  constructor
  · intro h x hx hg y hy
    exact h hg ⟨x, y, hx, hy⟩
  · rintro h hg ⟨x, y, hx, hy⟩
    exact h x hx hg y hy

theorem isStable_sparing (g : FrameId) (n : Symbol) : (sparing g n).IsStable where
  knows hs hf := Nat.lt_of_lt_of_le hf hs.size_le
  permits hs hf h hg := h (hs.chain hf ▸ hg)
  lambda _ _ hy := by cases hy.eq_lambda.1

namespace IsConstant

theorem put (h : IsConstant g n v s) {f : FrameId} {m : Symbol} {u : Value}
    (hne : ¬ (f = g ∧ m = n)) (hu : (sparing g n).Trusts s u) :
    IsConstant g n v (s.put f m u) where
  mem := by simpa using h.mem
  get? := by
    rw [Store.frame_put]
    split
    · next hf =>
      rw [Frame.put, Frame.get?, Bindings.lookup_put, if_neg fun hn => hne ⟨hf.1.symm, hn.symm⟩,
        ← hf.1]
      exact h.get?
    · exact h.get?
  bound hw := by
    refine Policy.Trusts.mono (isStable_sparing g n) (.put ..) ?_
    rcases Store.mem_bindings_put hw with rfl | hw
    · exact hu
    · exact h.bound hw

theorem push (h : IsConstant g n v s) {f : FrameId} {bs : Bindings}
    (hbs : ∀ b ∈ bs, (sparing g n).Trusts s b.2) : IsConstant g n v (s.push f bs).2 where
  mem := by
    rw [Store.size_push]
    exact Nat.lt_succ_of_lt h.mem
  get? := by
    rw [Store.frame_push, if_neg (Nat.ne_of_lt h.mem)]
    exact h.get?
  bound hw := by
    refine Policy.Trusts.mono (isStable_sparing g n) (.push ..) ?_
    rw [Store.frame_push] at hw
    split at hw
    · exact hbs _ hw
    · exact h.bound hw

end IsConstant

/-- A binding is kept where nobody assigns it. -/
theorem isKept_keeping (g : FrameId) (n : Symbol) (v : Value) : (keeping g n v).IsKept where
  stable := isStable_sparing g n
  fresh h := by rw [h.1]
  size h := by rw [h.1]
  withFresh k h := ⟨by rw [h.1], h.2.mem, h.2.get?, h.2.bound⟩
  lookup {s t f m} h _ _ := by
    refine ⟨by rw [h.1], fun u hu => ?_⟩
    obtain ⟨a, -, hget⟩ := List.exists_of_findSome?_eq_some hu
    exact h.2.bound (Store.mem_of_lookup hget)
  define h _ hf hu := ⟨by rw [h.1], h.2.put (fun hcon => hf hcon.1) hu⟩
  assign {s t f m e x u} h _ hform he hu := by
    refine ⟨by rw [h.1], fun a ha => ⟨by rw [h.1], h.2.put ?_ hu⟩⟩
    -- an assignment reaches `g` only from inside, and there it is to another name
    rintro ⟨rfl, rfl⟩
    exact he (List.mem_of_find?_eq_some ha) x hform
  push h _ hbs := ⟨by rw [h.1], h.2.push hbs⟩
  enter {s t f bs} h hf := by
    have hne : s.frames.size ≠ g := Nat.ne_of_gt h.2.mem
    refine ⟨?_, hne, fun x hx hg => hx ?_⟩
    · show s.frames.size < _
      rw [Store.size_push]
      exact Nat.lt_succ_self _
    · rw [Store.chain, Store.frame_push, if_pos rfl] at hg
      exact (List.mem_cons.1 hg).resolve_left hne.symm

/-- A bound name is constant in a sound store if no procedure assigns it. -/
theorem isConstant_of_isUnassigned (hs : s.IsSound) (h : s.IsUnassigned g n)
    (hv : (s.frame g).get? n = some v) : IsConstant g n v s where
  mem := by
    by_contra hg
    rw [Store.frame_of_size_le (Nat.le_of_not_lt hg)] at hv
    cases hv
  get? := hv
  bound {a m u} hu k params forms b hp :=
    ⟨(hs.bound hu _ hp).2.2, fun e he =>
      not_assigns_iff_allows.1 fun hg => h a m u hu k params forms b hp hg e he⟩

theorem IsConstant.isUnassigned (h : IsConstant g n v s) : s.IsUnassigned g n :=
  fun _ _ _ hu k params forms a hp hg e he =>
    not_assigns_iff_allows.2 ((h.bound hu k params forms a hp).2 e he) hg

end Laws

/-! ### Forms -/

/-- A datum may be evaluated in `f` without touching the binding of `n` in `g`: the frame is
another one, and if it is inside `g`, the datum holds no assignment to `n`. -/
structure Spares (s : Store) (g : FrameId) (n : Symbol) (d : Datum) (f : FrameId) : Prop where
  plain : d.IsPlain
  mem : f < s.frames.size
  other : f ≠ g
  unassigned : g ∈ s.chain f → ¬ Assigns n (d.place s.fresh).1

/-- The store `t` is what the evaluation of a form leaves that spares the binding of `n` in
`g`, be there a value or an error. -/
def EvaluatedSparing (limits : Limits) (g : FrameId) (n : Symbol) (s t : Store) : Prop :=
  ∃ d f, Spares s g n d f ∧ t = Outcome.store (evalForm limits d f s)

theorem IsConstant.evalForm {limits : Limits} {g f : FrameId} {n : Symbol} {v : Value}
    {s : Store} {d : Datum} (h : IsConstant g n v s) (hd : Spares s g n d f) :
    IsConstant g n v (Outcome.store (evalForm limits d f s)) := by
  have hadmits : (sparing g n).Admits { s with fresh := (d.place s.fresh).2 } f
      (d.place s.fresh).1 :=
    ⟨hd.mem, hd.other, .place hd.plain _, not_assigns_iff_allows.1 hd.unassigned⟩
  have hrun : Regime.Alike (keeping g n v) (evaluate limits.rounds limits.nesting _ f) _ _ _ :=
    (isKept_keeping g n v).alike_evaluate limits.rounds limits.nesting
      ((isKept_keeping g n v).withFresh _ ⟨rfl, h⟩) hadmits
  unfold Regime.Alike at hrun
  show IsConstant g n v (Outcome.store (EStateM.adaptExcept Error.ofForm _ _))
  rw [EStateM.adaptExcept]
  cases hr : evaluate limits.rounds limits.nesting (d.place s.fresh).1 f
      { s with fresh := (d.place s.fresh).2 } with
  | ok u t =>
    rw [hr] at hrun
    obtain ⟨_, -, hst, -⟩ := hrun
    exact hst.2
  | error err t =>
    rw [hr] at hrun
    obtain ⟨_, -, hst, -⟩ := hrun
    exact hst.2

/-- **A captured variable is changed only from inside its scope.** Suppose that no procedure
inside the frame `g` holds an assignment to `n`. Then an evaluation, in another frame, of a
datum that holds none either if its frame is inside `g`, leaves the binding of `n` in `g` as
it is, however it ends, and again no procedure inside `g` holds an assignment to `n`. So it
goes on for any number of such evaluations. -/
theorem unassigned_binding_constant {limits : Limits} {s t : Store} {g : FrameId} {n : Symbol}
    {v : Value} (hs : Reachable limits s) (hv : (s.frame g).get? n = some v)
    (hn : s.IsUnassigned g n) (ht : ReflTransGen (EvaluatedSparing limits g n) s t) :
    (t.frame g).get? n = some v ∧ t.IsUnassigned g n := by
  have hc : IsConstant g n v t := by
    induction ht with
    | refl => exact isConstant_of_isUnassigned hs.isSound hn hv
    | tail _ hstep ih =>
      obtain ⟨d, f, hd, rfl⟩ := hstep
      exact ih.evalForm hd
  exact ⟨hc.get?, hc.isUnassigned⟩

/-- After `(define get ((lambda (n) (lambda () n)) 5))` the variable `n` that `get` sees stays
`5`, whatever becomes of a global variable of this name, here `(define n 6)`. -/
theorem unassigned_binding_captured :
    let get : Datum := .pair () (.symbol .lambda) (.pair () .nil (.pair () (.symbol ⟨"n"⟩) .nil))
    let maker : Datum := .pair () (.symbol .lambda)
      (.pair () (.pair () (.symbol ⟨"n"⟩) .nil) (.pair () get .nil))
    let definition (n : Symbol) (d : Datum) : Datum :=
      .pair () (.symbol ⟨"define"⟩) (.pair () (.symbol n) (.pair () d .nil))
    let s := Outcome.store (evalForm ⟨5, 5⟩
      (definition ⟨"get"⟩ (.pair () maker (.pair () (.integer 5) .nil))) Store.global .initial)
    let t := Outcome.store (evalForm ⟨5, 5⟩ (definition ⟨"n"⟩ (.integer 6)) Store.global s)
    (s.frame 2).get? ⟨"n"⟩ = some (.integer 5) ∧ (t.frame 2).get? ⟨"n"⟩ = some (.integer 5) := by
  intro get maker definition s t
  have hv : (s.frame 2).get? ⟨"n"⟩ = some (.integer 5) := rfl
  -- the bodies of all procedures in the store are made of variables
  have hbodies : ∀ fr ∈ s.frames.toList, ∀ b ∈ fr.bindings, ∀ p ∈ b.2.parts,
      ∀ c ∈ p.components, ∀ e ∈ c.elements, e.components.length = 0 := by decide
  have hn : s.IsUnassigned 2 ⟨"n"⟩ := by
    intro h m v hb k params forms a hp _ e he
    refine not_assigns_of_not_pair ?_
    rintro m first rest rfl
    cases hbodies _ (Store.frame_mem_of_mem_bindings hb) _ hb _ hp forms (by simp [components]) _ he
  have hd : Spares s 2 ⟨"n"⟩ (definition ⟨"n"⟩ (.integer 6)) Store.global :=
    ⟨by simp [definition, IsPlain, Text.IsFixnum], by decide, by decide,
      fun hg => absurd hg (by decide)⟩
  have hs : Reachable ⟨5, 5⟩ s :=
    .form (.addGlobal .bare) (by simp [definition, maker, get, IsPlain, Text.IsFixnum]) (by decide)
  exact ⟨hv, (unassigned_binding_constant hs hv hn (.single ⟨_, _, hd, rfl⟩)).1⟩

end SmallScheme
