import Mathlib.Algebra.BigOperators.Group.List.Basic
import Mathlib.Algebra.Ring.Int.Defs
import SmallScheme.Proofs.Primitive.Arguments

/-!
# Arithmetic

The two primitives on integers take all their arguments. Each is checked to be an integer, in
order, whatever the others are. Integers are then added without a bound, and only the sum has to lie
in the range; and they are compared with each other. So the order of the arguments makes no
difference, but for which of several wrong arguments is named.

## The model

The arguments of a call are the elements of a list, and how the list ends does not matter. `Refuses`
says how a call that fails is shown, and `SameKind` that two calls end alike: with the same value or
with errors of the same kind. What both primitives do with arguments is said once, by
`ChecksIntegers`.
-/

namespace SmallScheme

open Object Sequencing

namespace Primitive

/-- The call fails, and its error is shown as `r`. -/
def Refuses (limit : Nat) (x : Except Error Value) (r : Report) : Prop :=
  ∃ e, x = .error e ∧ e.report limit = r

/-- The same value, or errors of the same kind. -/
def SameKind (limit : Nat) : Except Error Value → Except Error Value → Prop
  | .ok v, .ok w => v = w
  | .error e, .error e' => (e.report limit).kind = (e'.report limit).kind
  | _, _ => False

/-- The values are integers up to the first that is none, which is `v`. -/
def FirstOther (vs : List Value) (v : Value) : Prop :=
  ∃ (ns : List Int) (rest : List Value), vs = ns.map .integer ++ v :: rest ∧ ∀ n, v ≠ .integer n

/-- All values can be shown in messages. -/
def Shown (limit : Nat) (vs : List Value) : Prop :=
  ∀ v ∈ vs, ∃ shown, v.describe limit = .ok shown

/-- The outcome `x` is that of a primitive that checks all its arguments to be integers: it refuses
the first that is none, and otherwise `x` is as `P` says of the integers. -/
def ChecksIntegers (who : Primitive) (args : Value) (x : Except Error Value)
    (P : List Int → Prop) : Prop :=
  (∃ v, FirstOther args.elements v ∧ x = .error (.wrongType who .integer v)) ∨
    ∃ ns : List Int, args.elements = ns.map .integer ∧ P ns

variable {limit : Nat} {who : Primitive} {args args' v : Value} {vs : List Value} {ns : List Int}

theorem FirstOther.mem (h : FirstOther vs v) : v ∈ vs := by
  obtain ⟨ns, rest, rfl, -⟩ := h
  simp

/-- Among integers in any order there is none that is no integer. -/
theorem FirstOther.not_perm (h : FirstOther vs v) : ¬ vs.Perm (ns.map .integer) := by
  intro hperm
  obtain ⟨n, -, rfl⟩ := List.mem_map.1 (hperm.mem_iff.1 h.mem)
  obtain ⟨_, _, -, hv⟩ := h
  exact hv n rfl

theorem perm_of_map_perm_map {ns' : List Int}
    (h : (ns.map (.integer : Int → Value)).Perm (ns'.map .integer)) : ns.Perm ns' :=
  (List.map_perm_map_iff fun _ _ h => by cases h; rfl).1 h

/-- A value that is no integer is refused for its type. -/
theorem Shown.kind_report (hshown : Shown limit vs) (h : FirstOther vs v) (who : Primitive) :
    ((Error.wrongType who .integer v).report limit).kind = .typing := by
  obtain ⟨shown, hv⟩ := hshown v h.mem
  rw [Error.report_wrongType, hv]

namespace ChecksIntegers

variable {x x' : Except Error Value} {P P' : List Int → Prop}

/-- The message shows the argument that is refused. -/
theorem refuses_or (h : ChecksIntegers who args x P) (hshown : Shown limit args.elements) :
    (∃ v shown, FirstOther args.elements v ∧ v.describe limit = .ok shown ∧
      Refuses limit x ⟨.typing, some (who.name ++ ": expected an integer, got " ++ shown)⟩) ∨
    ∃ ns : List Int, args.elements = ns.map .integer ∧ P ns := by
  refine h.imp_left ?_
  rintro ⟨v, hv, rfl⟩
  obtain ⟨shown, hdescribe⟩ := hshown v hv.mem
  refine ⟨v, shown, hv, hdescribe, _, rfl, ?_⟩
  simp only [Error.report_wrongType, hdescribe, String.append_assoc]
  rfl

/-- Of arguments in another order one is refused as well, or they are the same integers. -/
theorem sameKind (h : ChecksIntegers who args x P) (h' : ChecksIntegers who args' x' P')
    (hshown : Shown limit args.elements) (hperm : args.elements.Perm args'.elements)
    (hP : ∀ ns ns' : List Int, ns.Perm ns' → P ns → P' ns' → SameKind limit x x') :
    SameKind limit x x' := by
  have hshown' : Shown limit args'.elements := fun v hv => hshown v (hperm.mem_iff.2 hv)
  rcases h with ⟨v, hv, rfl⟩ | ⟨ns, hns, hx⟩ <;>
    rcases h' with ⟨v', hv', rfl⟩ | ⟨ns', hns', hx'⟩
  · exact (hshown.kind_report hv who).trans (hshown'.kind_report hv' who).symm
  · exact absurd (hns' ▸ hperm) hv.not_perm
  · exact absurd (hns ▸ hperm.symm) hv'.not_perm
  · rw [hns, hns'] at hperm
    exact hP ns ns' (perm_of_map_perm_map hperm) hx hx'

end ChecksIntegers

/-! ### The two primitives -/

/-- What `+` gives. -/
theorem sum_checks (args : Value) (mark : Nat) :
    ChecksIntegers sum args (sum.apply args mark) fun ns => sum.apply args mark =
      if Text.IsFixnum ns.sum then .ok (.integer ns.sum) else .error (.overflow ns.sum) := by
  simp only [apply, sumOf]
  rcases mapM_integerOf sum args.elements with ⟨ns, hargs, h⟩ | ⟨ns, v, rest, hargs, hv, h⟩
  · exact .inr ⟨ns, hargs, by rw [h]; rfl⟩
  · exact .inl ⟨v, ⟨ns, rest, hargs, hv⟩, by rw [h]; rfl⟩

/-- What `=` gives for one argument or more. -/
theorem sameNumber_checks (hne : args.elements ≠ []) (mark : Nat) :
    ChecksIntegers sameNumber args (sameNumber.apply args mark) fun ns => ∃ b,
      sameNumber.apply args mark = .ok (.boolean b) ∧
        (b = true ↔ ∀ m ∈ ns, ∀ n ∈ ns, m = n) := by
  have hfirst {v : Value} {vs : List Value} (h : args.elements = v :: vs) :
      argument sameNumber.name args 0 = .ok v := argument_of_getElem? _ (by rw [h]; rfl)
  rcases mapM_integerOf sameNumber args.elements with ⟨ns, hargs, h⟩ | ⟨ns, v, rest, hargs, hv, h⟩
  · have hns : ns ≠ [] := by
      rintro rfl
      exact hne hargs
    obtain ⟨n, ns, rfl⟩ := List.exists_cons_of_ne_nil hns
    refine .inr ⟨n :: ns, hargs, (n :: ns).all (· == n), ?_, ?_⟩
    · simp only [apply, allSame, hfirst hargs, h]
      rfl
    · simp only [List.all_eq_true, beq_iff_eq]
      exact ⟨fun h m hm k hk => (h m hm).trans (h k hk).symm,
        fun h m hm => h m hm n List.mem_cons_self⟩
  · refine .inl ⟨v, ⟨ns, rest, hargs, hv⟩, ?_⟩
    cases ns with
    | nil =>
      -- the first argument is refused before the others are looked at
      simp only [apply, allSame, hfirst hargs]
      cases v with
      | integer n => exact absurd rfl (hv n)
      | _ => rfl
    | cons n ns =>
      simp only [apply, allSame, hfirst hargs, h]
      rfl

/-! ### The order of the arguments -/

/-- A sum does not depend on the order. -/
theorem sameKind_sum (hshown : Shown limit args.elements)
    (h : args.elements.Perm args'.elements) (mark mark' : Nat) :
    SameKind limit (sum.apply args mark) (sum.apply args' mark') := by
  refine (sum_checks args mark).sameKind (sum_checks args' mark') hshown h ?_
  intro ns ns' hperm hsum hsum'
  rw [hsum, hsum', hperm.sum_eq]
  split <;> rfl

/-- A comparison does not depend on the order. -/
theorem sameKind_sameNumber (hshown : Shown limit args.elements)
    (h : args.elements.Perm args'.elements) (mark mark' : Nat) :
    SameKind limit (sameNumber.apply args mark) (sameNumber.apply args' mark') := by
  by_cases hne : args.elements = []
  · have hne' : args'.elements = [] := List.nil_perm.1 (hne ▸ h)
    have hfew {args : Value} (hne : args.elements = []) : args.pairCount < sameNumber.needed := by
      simp [pairCount, hne, needed]
    rw [apply_of_pairCount_lt (hfew hne), apply_of_pairCount_lt (hfew hne')]
    rfl
  have hne' : args'.elements ≠ [] := fun h' => hne (List.perm_nil.1 (h' ▸ h))
  refine (sameNumber_checks hne mark).sameKind (sameNumber_checks hne' mark') hshown h ?_
  rintro ns ns' hperm ⟨b, hsame, hb⟩ ⟨b', hsame', hb'⟩
  have hmem := fun n => hperm.mem_iff (a := n)
  have heq : b = b' := Bool.eq_iff_iff.2 (by simp only [hb, hb', hmem])
  rw [hsame, hsame', heq]
  rfl

/-- **Arithmetic is exact, and the order of the arguments does not matter.** Provided that the
arguments can be shown in messages, be their list proper or not:

* `+` refuses the first argument that is no integer. If there is none, it gives the sum of all
  arguments if this lies in the range, and otherwise refuses it. Sums of only some of them may be
  anything.
* `=` refuses the first argument that is no integer, also if others before it differ. If there is
  none, it tells whether all are equal.
* Both give the same value for the arguments in another order, or an error of the same kind. -/
theorem exact_in_any_order {limit : Nat} {args : Value} (mark : Nat)
    (hshown : Shown limit args.elements) :
    ((∃ v shown, FirstOther args.elements v ∧ v.describe limit = .ok shown ∧
        Refuses limit (sum.apply args mark)
          ⟨.typing, some ("+: expected an integer, got " ++ shown)⟩) ∨
      ∃ ns : List Int, args.elements = ns.map .integer ∧
        (Text.IsFixnum ns.sum → sum.apply args mark = .ok (.integer ns.sum)) ∧
        (¬ Text.IsFixnum ns.sum → Refuses limit (sum.apply args mark)
          ⟨.value, some ("+: fixnum overflow (" ++ Text.numeral ns.sum ++ ")")⟩)) ∧
    (args.elements ≠ [] →
      (∃ v shown, FirstOther args.elements v ∧ v.describe limit = .ok shown ∧
        Refuses limit (sameNumber.apply args mark)
          ⟨.typing, some ("=: expected an integer, got " ++ shown)⟩) ∨
      ∃ ns : List Int, args.elements = ns.map .integer ∧ ∃ b,
        sameNumber.apply args mark = .ok (.boolean b) ∧
          (b = true ↔ ∀ m ∈ ns, ∀ n ∈ ns, m = n)) ∧
    ∀ args' mark', args.elements.Perm args'.elements →
      SameKind limit (sum.apply args mark) (sum.apply args' mark') ∧
      SameKind limit (sameNumber.apply args mark) (sameNumber.apply args' mark') := by
  refine ⟨?_, fun hne => ?_, fun args' mark' h =>
    ⟨sameKind_sum hshown h mark mark', sameKind_sameNumber hshown h mark mark'⟩⟩
  · refine ((sum_checks args mark).refuses_or hshown).imp_right ?_
    rintro ⟨ns, hns, hsum⟩
    refine ⟨ns, hns, fun hfix => hsum.trans (if_pos hfix), fun hfix => ?_⟩
    rw [hsum, if_neg hfix]
    exact ⟨_, rfl, rfl⟩
  · exact (sameNumber_checks hne mark).refuses_or hshown

/-- An improper list with the greatest integer of the range, another, and the least: the sum of the
first two is out of the range. And a list in which a wrong argument comes after a mismatch. -/
theorem exact_in_any_order_at_bounds :
    let args : Value := .pair 0 (.integer 9223372036854775807) (.pair 1 (.integer 1)
      (.pair 2 (.integer (-9223372036854775808)) (.boolean true)))
    let args' : Value := .pair 3 (.integer 1) (.pair 4 (.integer 2) (.pair 5 .nil .nil))
    Shown 1 args.elements ∧ sum.apply args 6 = .ok (.integer 0) ∧
      Shown 1 args'.elements ∧ Refuses 1 (sameNumber.apply args' 6)
        ⟨.typing, some "=: expected an integer, got ()"⟩ := by
  intro args args'
  have hshown : Shown 1 args.elements := by
    rintro v (_ | ⟨_, _ | ⟨_, _ | ⟨_, ⟨⟩⟩⟩⟩) <;> exact ⟨_, rfl⟩
  have hshown' : Shown 1 args'.elements := by
    rintro v (_ | ⟨_, _ | ⟨_, _ | ⟨_, ⟨⟩⟩⟩⟩) <;> exact ⟨_, rfl⟩
  refine ⟨hshown, ?_, hshown', ?_⟩
  · have hargs : args.elements =
        [9223372036854775807, 1, -9223372036854775808].map .integer := rfl
    rcases (exact_in_any_order 6 hshown).1 with ⟨v, -, hv, -⟩ | ⟨ns, hns, hsum, -⟩
    · exact absurd (.of_eq hargs) hv.not_perm
    · have hperm := perm_of_map_perm_map (.of_eq (hns.symm.trans hargs))
      rw [hperm.sum_eq] at hsum
      exact hsum (by decide)
  · rcases (exact_in_any_order 6 hshown').2.1 (by simp [args', elements]) with
      ⟨v, shown, hv, hdescribe, hrefuses⟩ | ⟨ns, hns, -⟩
    · obtain ⟨_, _, -, hne⟩ := id hv
      rcases hv.mem with _ | ⟨_, _ | ⟨_, _ | ⟨_, ⟨⟩⟩⟩⟩
      · exact absurd rfl (hne 1)
      · exact absurd rfl (hne 2)
      · cases hdescribe
        exact hrefuses
    · have hnil : (.nil : Value) ∈ ns.map .integer := hns ▸ by simp [args', elements]
      obtain ⟨_, -, h⟩ := List.mem_map.1 hnil
      cases h

end Primitive

end SmallScheme
