import SmallScheme.Proofs.Evaluation.History

/-!
# Where an evaluation defines

A definition binds a name in the frame that the evaluation runs in, and in no other frame
that is there when the evaluation begins. Procedures that are called on the way define in
frames of their own, and assignments change values and never names.
-/

namespace SmallScheme

open Moment

namespace Evaluation

/-- An evaluation takes the store through steps that define only what they may. -/
theorem exists_steps_evaluate (rounds nesting : Nat) {e : Value} {f : FrameId} {s : Store}
    (hf : f < s.frames.size) :
    ∃ S, Steps (MayDefine s.frames.size e f) ⟨Set.univ, s⟩
      ⟨S, Outcome.store (evaluate rounds nesting e f s)⟩ :=
  (historic_evaluate rounds nesting (isComplete_univ s) (Set.mem_univ e) hf).exists_steps

/-- **Definitions stay in the frame of the evaluation.** However an evaluation ends, the other
frames that were there bind the same names in the same order; the frame it ran in has kept
its names and got only such as the expression defines, outside quoted data and the bodies
of procedures; and every frame is enclosed by the frames that enclosed it before. -/
theorem names_evaluate (rounds nesting : Nat) (e : Value) {f : FrameId} {s : Store}
    (hf : f < s.frames.size) :
    let t := Outcome.store (evaluate rounds nesting e f s)
    s.frames.size ≤ t.frames.size ∧
      (∀ g < s.frames.size, g ≠ f → (t.frame g).names = (s.frame g).names) ∧
      (∃ added, (t.frame f).names = (s.frame f).names ++ added ∧ ∀ n ∈ added, Defines n e) ∧
      ∀ g < s.frames.size, (t.frame g).outer = (s.frame g).outer := by
  obtain ⟨S, hs⟩ := exists_steps_evaluate rounds nesting (e := e) hf
  refine ⟨hs.size_le, fun g hg hgf => ?_, ?_, fun g hg => hs.outer_eq hg⟩
  · obtain ⟨added, hadded, ha⟩ := hs.exists_names hg
    -- a frame that was there and is not `f` may get no name
    have hnil : added = [] := by
      refine List.eq_nil_iff_forall_not_mem.2 fun n hn => ?_
      rcases ha n hn with ⟨h, -⟩ | h
      · exact hgf h
      · exact Nat.not_le_of_lt hg h
    rw [hadded, hnil, List.append_nil]
  · obtain ⟨added, hadded, ha⟩ := hs.exists_names hf
    refine ⟨added, hadded, fun n hn => ?_⟩
    rcases ha n hn with ⟨-, h⟩ | h
    · exact h
    · exact absurd h (Nat.not_le_of_lt hf)

/-- What an application defines, its operator or one of its operands defines. -/
theorem defines_application {n : Symbol} {m : Nat} {first rest : Value}
    (hk : first.keyword? = none) (h : Defines n (.pair m first rest)) :
    Defines n first ∨ ∃ x ∈ rest.elements, Defines n x := by
  cases h with
  | operator _ h => exact .inl h
  | operand _ hm h => exact .inr ⟨_, hm, h⟩
  | define h | defineProcedure h | value h | assigned h | test h | consequent h | alternative h =>
    exact absurd hk h.keyword?_ne_none

/-- `((lambda () (define z #t)))` defines `z` in the frame of the call only: it leaves the
names of the global frame as they were. -/
theorem names_call_of_definition :
    let definition : Value :=
      .pair 4 (.symbol ⟨"define"⟩) (.pair 5 (.symbol ⟨"z"⟩) (.pair 6 (.boolean true) .nil))
    let e : Value := .pair 0 (lambdaExpression 1 .nil (.pair 3 definition .nil)) .nil
    Store.global < Store.initial.frames.size ∧
      ((Outcome.store (evaluate 3 1 e Store.global .initial)).frame Store.global).names =
        (Store.initial.frame Store.global).names := by
  intro definition e
  have hf : Store.global < Store.initial.frames.size := by decide
  refine ⟨hf, ?_⟩
  obtain ⟨-, -, ⟨added, hadded, ha⟩, -⟩ := names_evaluate 3 1 e hf
  have hnil : added = [] := by
    refine List.eq_nil_iff_forall_not_mem.2 fun n hn => ?_
    rcases defines_application rfl (ha n hn) with h | ⟨_, hm, -⟩
    · exact not_defines_lambdaExpression h
    · cases hm
  rw [hadded, hnil, List.append_nil]

end Evaluation

end SmallScheme
