import SmallScheme.Proofs.Evaluation.BigStep
import SmallScheme.Proofs.Evaluation.Limits
import SmallScheme.Proofs.Reader.Standing
import SmallScheme.Proofs.RoundTrip

/-!
# What the limit on nesting decides

One limit bounds how deep data nest that are read, how deep evaluations nest, and how deep
objects nest that are written. The reader, the evaluator and the writer count levels in their
own ways, and messages of errors are made with the writer. But in all of them the limit
decides one thing only: whether something is found to nest too deeply. Whatever does not is
the same under every greater limit.

The limit does not bound lengths. A list is written in a loop, so its elements need room and the
list one level more, however many they are.
-/

namespace SmallScheme

open CharStream Reader Sequencing

/-! ### Reading -/

namespace Reader

variable {cut : ReadError → Prop} {inner inner' : Char → ReadM Datum}

section Inner

variable (hin : ∀ c, Approximates cut (inner c) (inner' c))

include hin

theorem approximates_readRequired (awaiting : Awaiting) :
    Approximates cut (readRequired inner awaiting) (readRequired inner' awaiting) := by
  refine (Approximates.refl _).bind fun item => ?_
  cases item with
  | none => exact .refl _
  | some c => exact hin c

theorem approximates_readTail : Approximates cut (readTail inner) (readTail inner') :=
  (Approximates.refl _).bind fun _ => (approximates_readRequired hin _).bind fun _ => .refl _

theorem approximates_readItems (budget : Nat) (items : List Datum) :
    Approximates cut (readItems inner budget items) (readItems inner' budget items) := by
  induction budget generalizing items with
  | zero => exact .refl _
  | succ budget ih =>
    refine (Approximates.refl _).bind fun item => ?_
    cases item with
    | none => exact .refl _
    | some c =>
      refine .ite (.refl _) (.ite (.ite (.refl _) ?_) ?_)
      · exact (approximates_readTail hin).bind fun _ => .refl _
      · exact (hin c).bind fun d => ih (d :: items)

theorem approximates_readFrom (budget : Nat) (c : Char) :
    Approximates cut (readFrom inner budget c) (readFrom inner' budget c) :=
  .ite (.refl _) <| .ite (.refl _) <| .ite (.refl _) <| .ite (.refl _) <| .ite (.refl _) <|
    .ite (approximates_readItems hin budget []) <|
    .ite ((approximates_readRequired hin _).bind fun _ => .refl _) (.refl _)

end Inner

variable {n n' : Nat}

theorem approximates_readDatum (h : n ≤ n') (budget : Nat) (c : Char) :
    Approximates ReadError.IsDeep (readDatum budget n c) (readDatum budget n' c) := by
  induction n generalizing n' c with
  | zero => exact fun s => .inr ⟨.malformed .tooDeep s.position, s, rfl, rfl⟩
  | succ n ih =>
    obtain ⟨k, rfl⟩ : ∃ k, n' = k + 1 := ⟨n' - 1, by omega⟩
    exact approximates_readFrom (ih (Nat.le_of_succ_le_succ h)) budget c

theorem approximates_read (h : n ≤ n') : Approximates ReadError.IsDeep (read n) (read n') := by
  refine (Approximates.refl _).bind fun item => ?_
  cases item with
  | none => exact .refl _
  | some c =>
    exact (Approximates.refl _).bind fun s =>
      (approximates_readDatum h _ c).bind fun _ => .refl _

/-- A text is not too deep for a limit of as many levels as it has characters. What is read
from it can then be written. -/
theorem read_of_length_le {text cs : List Char} {s : CharStream} (hs : s.Stands text cs)
    (h : cs.length ≤ n) : (∀ e t, read n s = .error e t → ¬ e.IsDeep) ∧
      ∀ d t, read n s = .ok (some d) t → ∃ shown, d.write n = .ok shown := by
  refine ⟨fun e t ht hdeep => ?_, fun d t hread => ?_⟩
  · have hfails := (meets_read n ⟨cs, hs, Nat.le_refl _⟩).of_error ht
    exact absurd (hfails.isDeep hdeep) (Nat.not_lt.2 h)
  · have hd := isReadable_of_read hs.isAt.delivers hread
    exact ⟨_, Object.write_eq hd.plain hd.levels⟩

end Reader

/-! ### Writing -/

/-- `UnlessDeep x y`: `x` is `y`, unless something nests too deeply to be written. -/
def UnlessDeep {α : Type} (x y : Except WriteError α) : Prop := x = y ∨ x = .error .tooDeep

namespace UnlessDeep

variable {α β : Type} {x y : Except WriteError α} {k l : α → Except WriteError β}

theorem refl (x : Except WriteError α) : UnlessDeep x x := Or.inl rfl

theorem bind (h : UnlessDeep x y) (hk : ∀ a, UnlessDeep (k a) (l a)) :
    UnlessDeep (x >>= k) (y >>= l) := by
  rcases h with rfl | rfl
  · cases x with
    | ok a => exact hk a
    | error e => exact .inl rfl
  · exact .inr rfl

theorem eq_of_ne (h : UnlessDeep x y) (hne : x ≠ .error .tooDeep) : y = x :=
  (h.resolve_right hne).symm

end UnlessDeep

namespace Object

variable {ι : Type} {n n' : Nat}

theorem unlessDeep_writeOn (o : Object ι) :
    (∀ {n n'}, n ≤ n' → ∀ text, UnlessDeep (o.writeOn n text) (o.writeOn n' text)) ∧
    ∀ {n n'}, n ≤ n' → ∀ text, UnlessDeep (o.writeRestOn n text) (o.writeRestOn n' text) := by
  induction o with
  | pair m first rest ih₁ ih₂ =>
    constructor
    · intro n n' h text
      cases n with
      | zero => exact .inr rfl
      | succ n =>
        obtain ⟨k, rfl⟩ : ∃ k, n' = k + 1 := ⟨n' - 1, by omega⟩
        rw [writeOn, writeOn]
        exact (ih₁.1 (Nat.le_of_succ_le_succ h) _).bind (ih₂.2 (Nat.le_of_succ_le_succ h))
    · intro n n' h text
      rw [writeRestOn, writeRestOn]
      exact (ih₁.1 h _).bind (ih₂.2 h)
  | nil =>
    constructor
    · intro n n' h text
      cases n with
      | zero => exact .inr rfl
      | succ n =>
        obtain ⟨k, rfl⟩ : ∃ k, n' = k + 1 := ⟨n' - 1, by omega⟩
        exact .inl rfl
    · intro n n' h text
      rw [writeRestOn, writeRestOn]
      exact .refl _
  | _ =>
    constructor
    all_goals
      intro n n' h text
      cases n with
      | zero => exact .inr rfl
      | succ n =>
        obtain ⟨k, rfl⟩ : ∃ k, n' = k + 1 := ⟨n' - 1, by omega⟩
        exact .inl rfl

theorem unlessDeep_write (h : n ≤ n') (o : Object ι) : UnlessDeep (o.write n) (o.write n') :=
  (unlessDeep_writeOn o).1 h ""

theorem unlessDeep_describe (h : n ≤ n') (o : Object ι) :
    UnlessDeep (o.describe n) (o.describe n') := by
  cases o with
  | pair m first rest => exact (unlessDeep_write h _).bind fun _ => .refl _
  | closure m parameters body f => exact (unlessDeep_write h parameters).bind fun _ => .refl _
  | boolean | integer | nil => exact unlessDeep_write h _
  | _ => exact .refl _

theorem unlessDeep_plain (h : n ≤ n') (o : Object ι) : UnlessDeep (o.plain n) (o.plain n') := by
  cases o with
  | symbol | string => exact .refl _
  | _ =>
    simp only [plain]
    exact unlessDeep_describe h _

/-! ### Writing lists -/

/-- Whether an object can be written does not depend on the text before it. -/
theorem exists_writeOn (o : Object ι) :
    (∀ {n text r}, o.writeOn n text = .ok r → ∀ text', ∃ r', o.writeOn n text' = .ok r') ∧
    ∀ {n text r}, o.writeRestOn n text = .ok r → ∀ text', ∃ r', o.writeRestOn n text' = .ok r' := by
  induction o with
  | pair m first rest ih₁ ih₂ =>
    constructor
    · intro n text r h text'
      cases n with
      | zero => cases h
      | succ n =>
        rw [writeOn] at h ⊢
        obtain ⟨r₁, h₁, h₂⟩ := exists_of_bind_eq_ok h
        obtain ⟨r₁', h₁'⟩ := ih₁.1 h₁ (text'.push '(')
        rw [h₁']
        exact ih₂.2 h₂ r₁'
    · intro n text r h text'
      rw [writeRestOn] at h ⊢
      obtain ⟨r₁, h₁, h₂⟩ := exists_of_bind_eq_ok h
      obtain ⟨r₁', h₁'⟩ := ih₁.1 h₁ (text'.push ' ')
      rw [h₁']
      exact ih₂.2 h₂ r₁'
  | nil =>
    constructor
    · intro n text r h text'
      cases n with
      | zero => cases h
      | succ n => exact ⟨_, rfl⟩
    · intro n text r h text'
      rw [writeRestOn]
      exact ⟨_, rfl⟩
  | _ =>
    constructor
    all_goals
      intro n text r h text'
      cases n with
      | zero => cases h
      | succ n =>
        obtain ⟨_, hatom, -⟩ := exists_of_bind_eq_ok h
        exact ⟨_, by simp only [writeOn, writeRestOn, hatom]; rfl⟩

/-- The elements of a list are written in a loop, which does not nest. -/
theorem exists_writeRestOn {o : Object ι} (ho : o.isList = true)
    (h : ∀ v ∈ o.elements, ∃ shown, v.write n = .ok shown) (text : String) :
    ∃ shown, o.writeRestOn n text = .ok shown := by
  induction o generalizing text with
  | nil =>
    rw [writeRestOn]
    exact ⟨_, rfl⟩
  | pair m first rest ih₁ ih₂ =>
    obtain ⟨hfirst, hrest⟩ := List.forall_mem_cons.1 h
    obtain ⟨_, hfirst⟩ := hfirst
    obtain ⟨text', htext'⟩ := (exists_writeOn first).1 hfirst (text.push ' ')
    rw [writeRestOn, htext']
    exact ih₂ ho hrest text'
  | _ => cases ho

/-- **A list is written if its elements are**, with one level more for the list itself. -/
theorem exists_write_list {o : Object ι} (ho : o.isList = true)
    (h : ∀ v ∈ o.elements, ∃ shown, v.write n = .ok shown) :
    ∃ shown, o.write (n + 1) = .ok shown := by
  cases o with
  | nil => exact ⟨_, rfl⟩
  | pair m first rest =>
    obtain ⟨hfirst, hrest⟩ := List.forall_mem_cons.1 h
    obtain ⟨_, hfirst⟩ := hfirst
    obtain ⟨text', htext'⟩ := (exists_writeOn first).1 hfirst ("".push '(')
    rw [write, writeOn, htext']
    exact exists_writeRestOn (o := rest) ho hrest text'
  | _ => cases ho

end Object

/-! ### Errors -/

/-- How evaluations and values that nest too deeply are shown. The last is an evaluation that is
not the evaluation of a form. -/
def depthReports : List Report :=
  [⟨.evaluation, "maximum recursion depth exceeded"⟩,
    ⟨.write, "value nested too deeply to write"⟩, ⟨.depth, none⟩]

namespace Error

variable {n n' : Nat}

theorem unlessDeep_message (h : n ≤ n') (e : Error) :
    UnlessDeep (e.message n) (e.message n') := by
  cases e with
  | unbound name => exact (Object.unlessDeep_plain h name).bind fun _ => .refl _
  | definitionOf v | notExpression v | assignmentTarget v | definitionTarget v | parameter v
  | parameterTail v | wrongType _ _ v | improperList v =>
    exact (Object.unlessDeep_describe h v).bind fun _ => .refl _
  | notProcedure v => exact (Object.unlessDeep_write h v).bind fun _ => .refl _
  | _ => exact .refl _

/-- An error is shown alike under a greater limit, unless what is in it was too deep to be
shown. -/
theorem report_of_le (h : n ≤ n') {e : Error} (he : e.report n ∉ depthReports) :
    e.report n' = e.report n := by
  have hshown : e.message n ≠ .error .tooDeep := by
    intro hdeep
    rw [report, hdeep] at he
    exact he (by decide : WriteError.tooDeep.report ∈ depthReports)
  rw [report, report, (e.unlessDeep_message h).eq_of_ne hshown]

end Error

/-! ### Evaluating -/

/-- The outcome is an error that is shown as one of depth. -/
def Outcome.IsDeep {α : Type} (nesting : Nat) : Outcome α → Prop
  | .ok _ _ => False
  | .error e _ => e.report nesting ∈ depthReports

/-- Two evaluations, with the limits `n` and `n'`, come to the same: the same value, or the same
error, which is shown alike, and the same store. -/
def Outcome.Alike {α : Type} (n n' : Nat) (r r' : Outcome α) : Prop :=
  r' = r ∧ ∀ e t, r = .error e t → e.report n' = e.report n

namespace Evaluation

variable {n n' : Nat}

theorem alike_of_approximates {α : Type} {cut : Error → Prop} {x y : EvalM α} {s : Store}
    (h : n ≤ n') (hxy : Approximates cut x y) (hcut : ∀ e, cut e → e.report n ∈ depthReports)
    (hs : ¬ Outcome.IsDeep n (x s)) : Outcome.Alike n n' (x s) (y s) := by
  refine ⟨hxy.eq_of_ne fun e t ht he => hs ?_,
    fun e t he => Error.report_of_le h fun hdeep => hs ?_⟩
  · rw [ht]
    exact hcut e he
  · rw [he]
    exact hdeep

theorem approximates_evalForm {rounds : Nat} (h : n ≤ n') (d : Datum) (f : FrameId) :
    Approximates (· = .tooDeep) (evalForm ⟨n, rounds⟩ d f) (evalForm ⟨n', rounds⟩ d f) := by
  refine (Approximates.refl _).bind fun v s => ?_
  simp only [EStateM.adaptExcept]
  rcases approximates_nesting h v f s with heq | ⟨_, t, rfl, ht⟩
  · rw [heq]
    exact .inl rfl
  · rw [ht]
    exact .inr ⟨_, t, rfl, rfl⟩

end Evaluation

open Evaluation

/-- **The limit on nesting decides what is too deep, and nothing else.** What is not too deep to
be read, to be evaluated or to be written under the limit `n` comes to the same under every
greater limit: the same datum, value or text, or the same error, which is shown alike, and the
same stream or the same store after it.

A text is not too deep for a great enough limit, and what is then read from it can be written. And
a list can be written if each of its elements can be with one level less, however long it
is. -/
theorem limit_decides_depth :
    (∀ n n', n ≤ n' →
      (∀ s, (∀ e t, read n s = .error e t → ¬ e.IsDeep) → read n' s = read n s) ∧
      (∀ rounds d f s, ¬ Outcome.IsDeep n (evalForm ⟨n, rounds⟩ d f s) →
        Outcome.Alike n n' (evalForm ⟨n, rounds⟩ d f s) (evalForm ⟨n', rounds⟩ d f s)) ∧
      (∀ rounds e f s, ¬ Outcome.IsDeep n (evaluate rounds n e f s) →
        Outcome.Alike n n' (evaluate rounds n e f s) (evaluate rounds n' e f s)) ∧
      ∀ v : Value, v.write n ≠ .error .tooDeep → v.write n' = v.write n) ∧
    (∀ text cs s, s.Stands text cs → ∃ limit, ∀ n, limit ≤ n →
      (∀ e t, read n s = .error e t → ¬ e.IsDeep) ∧
      ∀ d t, read n s = .ok (some d) t → ∃ shown, d.write n = .ok shown) ∧
    ∀ (n : Nat) (v : Value), v.isList = true →
      (∀ w ∈ v.elements, ∃ shown, w.write n = .ok shown) →
        ∃ shown, v.write (n + 1) = .ok shown := by
  refine ⟨fun n n' h => ⟨fun s => ?_, fun rounds d f s => ?_, fun rounds e f s => ?_, fun v => ?_⟩,
    fun text cs s hs => ⟨cs.length, fun n hn => read_of_length_le hs hn⟩,
    fun n v => Object.exists_write_list⟩
  · exact (approximates_read h).eq_of_ne
  · refine alike_of_approximates h (approximates_evalForm h d f) ?_
    rintro _ rfl
    exact .head _
  · refine alike_of_approximates h (approximates_nesting h e f) ?_
    rintro _ rfl
    exact .tail _ (.tail _ (.head _))
  · exact (Object.unlessDeep_write h v).eq_of_ne

/-- The list `(#t)` is read with two levels, is no application that can be evaluated, and is
written with two levels. -/
theorem limit_decides_depth_list :
    let list : Datum := .pair () (.boolean true) .nil
    let v : Value := .pair 0 (.boolean true) .nil
    (∃ t, read 5 (.ofString "(#t)") = .ok (some list) t) ∧
    (∃ t, evalForm ⟨5, 2⟩ list Store.global .initial = .error (.notProcedure (.boolean true)) t) ∧
    v.write 5 = .ok "(#t)" ∧ ∃ shown, v.write 2 = .ok shown := by
  intro list v
  have hread : ∃ t, read 2 (.ofString "(#t)") = .ok (some list) t := ⟨_, by with_unfolding_all rfl⟩
  have heval : ∃ t, evalForm ⟨1, 2⟩ list Store.global .initial =
    .error (.notProcedure (.boolean true)) t := ⟨_, rfl⟩
  obtain ⟨t, hread⟩ := hread
  obtain ⟨u, heval⟩ := heval
  obtain ⟨hle, -, hlist⟩ := limit_decides_depth
  refine ⟨⟨t, ?_⟩, ⟨u, ?_⟩, ?_, hlist 1 v rfl ?_⟩
  · rw [(hle 2 5 (by decide)).1 _ (by rw [hread]; nofun), hread]
  · have h := (hle 1 5 (by decide)).2.1 2 list Store.global .initial
    rw [heval] at h
    have hshown : Error.report 1 (.notProcedure (.boolean true)) ∉ depthReports := by decide
    exact (h hshown).1
  · rw [(hle 2 5 (by decide)).2.2.2 v (by decide)]
    rfl
  · rintro w (_ | ⟨_, ⟨⟩⟩)
    exact ⟨_, rfl⟩

end SmallScheme
