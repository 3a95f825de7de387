import Mathlib.Data.List.Induction
import SmallScheme.Evaluation.Basic
import SmallScheme.Proofs.Evaluation.Syntax

/-!
# Binding parameters to arguments

A call walks along its parameters and its arguments side by side, and what it meets first
decides how it ends. Here the end is read off the two lists as wholes: off the number of pairs
in each, what each ends in, and the first parameter that is not a symbol (`FirstStray`).

* If that parameter is met, it is the fault (`addParameters_of_firstStray`).
* If it is not, the two lengths decide, and then the ends of the lists
  (`addParameters_of_not_met`).
* If nothing is at fault, the new bindings are those of `putAll`: the names stand in the order
  of their first occurrence, and each has the argument at its last.
-/

namespace SmallScheme

/-! ### Strays among the parameters -/

namespace Object

variable {ι : Type} {m : ι} {n : Symbol} {o p q rest : Object ι} {i : Nat}

/-- The first element that is not a symbol is `p`, at index `i`. -/
def FirstStray (o : Object ι) (i : Nat) (p : Object ι) : Prop :=
  o.elements[i]? = some p ∧ (∀ n, p ≠ .symbol n) ∧
    ∀ j < i, ∃ n, o.elements[j]? = some (.symbol n)

/-- The names of the elements that are symbols. -/
def symbolNames (o : Object ι) : List Symbol :=
  o.elements.filterMap fun
    | symbol n => some n
    | _ => none

theorem pairCount_pair : (pair m p rest).pairCount = rest.pairCount + 1 := rfl

theorem firstStray_of_not_symbol (hp : ∀ n, p ≠ .symbol n) :
    (pair m p rest).FirstStray 0 p :=
  ⟨rfl, hp, fun _ hj => absurd hj (Nat.not_lt_zero _)⟩

theorem firstStray_pair_symbol :
    (pair m (.symbol n) rest).FirstStray i p ↔ ∃ j, i = j + 1 ∧ rest.FirstStray j p := by
  constructor
  · rintro ⟨hi, hp, hbefore⟩
    cases i with
    | zero => exact absurd (Option.some.inj hi).symm (hp n)
    | succ j =>
      exact ⟨j, rfl, hi, hp, fun k hk => hbefore (k + 1) (Nat.succ_lt_succ hk)⟩
  · rintro ⟨j, rfl, hi, hp, hbefore⟩
    refine ⟨hi, hp, fun k hk => ?_⟩
    cases k with
    | zero => exact ⟨n, rfl⟩
    | succ k => exact hbefore k (Nat.lt_of_succ_lt_succ hk)

/-- The elements of a list of symbols are the symbols that have its names. -/
theorem map_symbolNames (h : o.IsSymbolList) : o.symbolNames.map .symbol = o.elements := by
  have hall := h.2
  rw [symbolNames]
  generalize o.elements = ps at hall
  induction ps with
  | nil => rfl
  | cons p ps ih =>
    obtain ⟨⟨n, rfl⟩, hps⟩ := List.forall_mem_cons.1 hall
    exact congrArg (Object.symbol n :: ·) (ih hps)

theorem getElem?_symbolNames (h : o.IsSymbolList) :
    o.symbolNames[i]? = some n ↔ o.elements[i]? = some (.symbol n) := by
  rw [← map_symbolNames h, List.getElem?_map]
  cases o.symbolNames[i]? <;> simp

theorem length_symbolNames (h : o.IsSymbolList) : o.symbolNames.length = o.pairCount := by
  rw [pairCount, ← map_symbolNames h, List.length_map]

/-- A proper list is a list of symbols if none of its elements is a stray. -/
theorem isSymbolList_iff :
    o.IsSymbolList ↔ o.isList = true ∧ ∀ i p, ¬ o.FirstStray i p := by
  refine and_congr_right fun hlist => ?_
  constructor
  · rintro h i p ⟨hi, hp, -⟩
    obtain ⟨n, rfl⟩ := h p (List.mem_of_getElem? hi)
    exact hp n rfl
  · intro h
    clear hlist
    induction o with
    | pair m p rest _ ih =>
      cases p with
      | symbol n =>
        refine List.forall_mem_cons.2 ⟨⟨n, rfl⟩, ih fun i q hq => ?_⟩
        exact h (i + 1) q (firstStray_pair_symbol.2 ⟨i, rfl, hq⟩)
      | _ => exact absurd (firstStray_of_not_symbol (by simp)) (h 0 _)
    | _ => exact fun p hp => absurd hp List.not_mem_nil

end Object

namespace Bindings

open Object

/-- The bindings with others added one after the other. -/
def putAll (bs : Bindings) (entries : List (Symbol × Value)) : Bindings :=
  entries.foldl (fun bs entry => bs.put entry.1 entry.2) bs

section Walk

variable {expected got i : Nat} {params args p : Value} {bs : Bindings}

/-- A parameter that is not a symbol is met if no more arguments are there than stand before
it, or more. -/
theorem addParameters_of_firstStray (h : params.FirstStray i p) (hi : i ≤ args.pairCount) :
    addParameters expected got params args bs = .error (.parameter p) := by
  induction params generalizing i args bs with
  | pair m q rest _ ih =>
    cases q with
    | symbol n =>
      obtain ⟨j, rfl, hrest⟩ := firstStray_pair_symbol.1 h
      cases args with
      | pair m' v args => exact ih hrest (Nat.le_of_succ_le_succ hi)
      | _ => exact absurd hi (Nat.not_succ_le_zero j)
    | _ =>
      cases i with
      | zero =>
        obtain rfl := Option.some.inj h.1
        rfl
      | succ j =>
        obtain ⟨n, hn⟩ := h.2.2 0 (Nat.succ_pos j)
        cases hn
  | _ => cases h.1

/-- If the walk ends before a parameter that is not a symbol, the lengths of the two lists
decide, and then what they end in. -/
theorem addParameters_of_not_met (h : ∀ i p, params.FirstStray i p → args.pairCount < i) :
    addParameters expected got params args bs =
      if args.pairCount < params.pairCount then .error (.tooFew expected got)
      else if params.isList = false then .error (.parameterTail params.ending)
      else if args.isList = true ∧ params.pairCount = args.pairCount then
        .ok (bs.putAll (params.symbolNames.zip args.elements))
      else .error (.tooMany expected got) := by
  induction params generalizing args bs with
  | pair m q rest _ ih =>
    cases q with
    | symbol n =>
      cases args with
      | pair m' v args =>
        have hrest : ∀ i p, rest.FirstStray i p → args.pairCount < i := fun i p hp =>
          Nat.lt_of_succ_lt_succ (h (i + 1) p (firstStray_pair_symbol.2 ⟨i, rfl, hp⟩))
        simp only [addParameters, ih hrest, pairCount_pair, Nat.add_lt_add_iff_right,
          Nat.add_right_cancel_iff]
        rfl
      | _ => rfl
    | _ => exact absurd (h 0 _ (firstStray_of_not_symbol (by simp))) (Nat.not_lt_zero _)
  | nil => cases args <;> simp [addParameters, pairCount, elements, isList, ending, putAll]
  | _ => rfl

end Walk

/-! ### What is bound -/

theorem putAll_append (bs : Bindings) (es es' : List (Symbol × Value)) :
    bs.putAll (es ++ es') = (bs.putAll es).putAll es' :=
  List.foldl_append

/-- The names stand in the order of their first occurrence. -/
theorem map_fst_putAll (es : List (Symbol × Value)) :
    (putAll [] es).map (·.1) = (es.map (·.1)).eraseDups := by
  induction es using List.reverseRecOn with
  | nil => rfl
  | append_singleton es e ih =>
    have hput := map_fst_put e.1 e.2 (putAll [] es)
    simp only [ih, List.mem_eraseDups] at hput
    rw [putAll_append, List.map_append, List.eraseDups_append]
    refine hput.trans ?_
    by_cases he : e.1 ∈ es.map (·.1)
    · rw [if_pos he]
      simp_all [List.cons_removeAll]
    · rw [if_neg he]
      simp_all [List.cons_removeAll, List.eraseDups_cons]

/-- The binding added last wins. -/
theorem lookup_putAll (es : List (Symbol × Value)) (n : Symbol) :
    List.lookup n (putAll [] es) = List.lookup n es.reverse := by
  induction es using List.reverseRecOn with
  | nil => rfl
  | append_singleton es e ih =>
    have hput := lookup_put e.1 n e.2 (putAll [] es)
    rw [putAll_append, List.reverse_append, List.reverse_singleton, List.singleton_append,
      List.lookup_cons, ← ih]
    refine hput.trans ?_
    by_cases hn : n = e.1
    · simp [hn]
    · simp [hn, beq_eq_false_iff_ne.2 hn]

/-- A name has the value that stands where it occurs last. -/
theorem lookup_putAll_zip {ns : List Symbol} {vs : List Value} (h : ns.length = vs.length)
    {i : Nat} {n : Symbol} (hi : ns[i]? = some n) (hn : n ∉ ns.drop (i + 1)) :
    List.lookup n (putAll [] (ns.zip vs)) = vs[i]? := by
  rw [lookup_putAll]
  induction ns generalizing vs i with
  | nil => cases hi
  | cons k ns ih =>
    obtain ⟨v, vs, rfl⟩ := List.exists_cons_of_length_eq_add_one h.symm
    have hlen : ns.length = vs.length := Nat.succ.inj h
    rw [List.zip_cons_cons, List.reverse_cons, List.lookup_append]
    cases i with
    | zero =>
      obtain rfl := Option.some.inj hi
      have hnone : List.lookup k (ns.zip vs).reverse = none := by
        refine List.lookup_eq_none_iff.2 fun e he => ?_
        have hmem := (List.of_mem_zip (List.mem_reverse.1 he)).1
        refine bne_iff_ne.2 ?_
        rintro rfl
        exact hn hmem
      simp [hnone]
    | succ i =>
      have hlt : i < vs.length := hlen ▸ Nat.lt_of_succ_lt_succ (List.getElem?_eq_some_iff.1 hi).1
      rw [ih hlen hi hn]
      simp [hlt]

end Bindings

/-! ### The frame of a call -/

namespace EvalM

open Object Bindings

variable {params args p : Value} {i : Nat} {f g : FrameId} {s t : Store} {err : Error}

theorem extend_of_firstStray (h : params.FirstStray i p) (hi : i ≤ args.pairCount) :
    extend params args f s = .error (.parameter p) s := by
  simp only [extend, Store.extend, ofParameters, addParameters_of_firstStray h hi]

theorem extend_of_not_met (h : ∀ i p, params.FirstStray i p → args.pairCount < i) :
    extend params args f s =
      if args.pairCount < params.pairCount then
        .error (.tooFew params.pairCount args.pairCount) s
      else if params.isList = false then .error (.parameterTail params.ending) s
      else if args.isList = true ∧ params.pairCount = args.pairCount then
        .ok s.frames.size (s.push f (putAll [] (params.symbolNames.zip args.elements))).2
      else .error (.tooMany params.pairCount args.pairCount) s := by
  simp only [extend, Store.extend, ofParameters, addParameters_of_not_met h]
  split_ifs <;> rfl

/-- A frame is made just for a list of symbols and a proper list of as many arguments. -/
theorem extend_eq_ok_iff :
    extend params args f s = .ok g t ↔
      (params.IsSymbolList ∧ args.isList = true ∧ params.pairCount = args.pairCount) ∧
        g = s.frames.size ∧
          t = (s.push f (putAll [] (params.symbolNames.zip args.elements))).2 := by
  rw [isSymbolList_iff]
  by_cases hmet : ∃ i p, params.FirstStray i p ∧ i ≤ args.pairCount
  · obtain ⟨i, p, hp, hi⟩ := hmet
    rw [extend_of_firstStray hp hi]
    simp only [reduceCtorEq, false_iff]
    exact fun h => h.1.1.2 i p hp
  · have hlt : ∀ i p, params.FirstStray i p → args.pairCount < i :=
      fun i p hp => Nat.lt_of_not_le fun hi => hmet ⟨i, p, hp, hi⟩
    rw [extend_of_not_met hlt]
    constructor
    · intro h
      split_ifs at h with hfew hlist hargs
      cases h
      refine ⟨⟨⟨by simpa using hlist, fun i p hp => ?_⟩, hargs⟩, rfl, rfl⟩
      -- a stray that is not met stands behind the last argument, and so behind the parameters
      have hle : i < params.pairCount := (List.getElem?_eq_some_iff.1 hp.1).1
      have := hlt i p hp
      omega
    · rintro ⟨⟨⟨hlist, -⟩, hargs⟩, rfl, rfl⟩
      rw [if_neg (by omega), if_neg (by simp [hlist]), if_pos hargs]

end EvalM

open Object Bindings Store

/-- If the parameters are a list of symbols, nothing can be wrong but the number of
arguments. -/
theorem kind_of_extend {s : Store} {params args : Value} {f : FrameId} {err : Error}
    (hp : params.IsSymbolList) (h : s.extend params args f = .error err) : err.kind = .arity := by
  obtain ⟨hlist, hnone⟩ := isSymbolList_iff.1 hp
  simp only [Store.extend, ofParameters,
    addParameters_of_not_met fun i p hi => absurd hi (hnone i p), hlist,
    Bool.true_eq_false, if_false] at h
  split_ifs at h <;> cases h <;> rfl

/-- **What comes of binding parameters to arguments.** With any objects for `params` and `args`,
and as many pairs in them as `pairCount` says:

* A frame is made exactly if the parameters are a proper list of symbols and the arguments a
  proper list of the same length. It is the one new frame, stands inside `f`, has the names in
  the order of their first occurrence, and binds each to the argument at its last occurrence.
* Otherwise nothing is made. If the first parameter that is not a symbol has no more than all
  arguments before it, it is refused. Else the number of arguments is if it is too small, then
  the parameters are if they are no proper list, and then the arguments, as too many.
* The check of parameters accepts those for which there are arguments that can be bound, and
  what it accepts is refused only for the number of arguments. -/
theorem binding_of_parameters (params args : Value) (f : FrameId) (s : Store) :
    ((∃ g t, EvalM.extend params args f s = .ok g t) ↔
      params.IsSymbolList ∧ args.isList = true ∧ params.pairCount = args.pairCount) ∧
    (∀ g t, EvalM.extend params args f s = .ok g t →
      g = s.frames.size ∧ t.frames.size = g + 1 ∧ (∀ h ≠ g, t.frame h = s.frame h) ∧
      (t.frame g).outer = s.chain f ∧ (t.frame g).names = params.symbolNames.eraseDups ∧
      ∀ (i : Nat) (n : Symbol), params.elements[i]? = some (.symbol n) →
        (∀ j > i, params.elements[j]? ≠ some (.symbol n)) →
          (t.frame g).get? n = args.elements[i]?) ∧
    (∀ i p, params.FirstStray i p → i ≤ args.pairCount →
      EvalM.extend params args f s = .error (.parameter p) s ∧
        ∀ limit text, p.describe limit = .ok text →
          (Error.parameter p).report limit = ⟨.shape, some ("invalid parameter " ++ text)⟩) ∧
    ((∀ i p, params.FirstStray i p → args.pairCount < i) →
      (args.pairCount < params.pairCount → ∃ err, EvalM.extend params args f s = .error err s ∧
        ∀ limit, err.report limit = ⟨.arity, some ("too few arguments: expected " ++
          Text.numeral params.pairCount ++ ", got " ++ Text.numeral args.pairCount)⟩) ∧
      (params.pairCount ≤ args.pairCount → params.isList = false →
        EvalM.extend params args f s = .error (.parameterTail params.ending) s ∧
          ∀ limit text, params.ending.describe limit = .ok text →
            (Error.parameterTail params.ending).report limit =
              ⟨.shape, some ("invalid parameter list, improper tail " ++ text)⟩) ∧
      (params.pairCount ≤ args.pairCount → params.isList = true →
        ¬ (args.isList = true ∧ params.pairCount = args.pairCount) →
          ∃ err, EvalM.extend params args f s = .error err s ∧
            ∀ limit, err.report limit = ⟨.arity, some ("too many arguments: expected " ++
              Text.numeral params.pairCount ++ ", got " ++ Text.numeral args.pairCount)⟩)) ∧
    (checkParameters params = .ok () ↔
      ∃ args f s g t, EvalM.extend params args f s = .ok g t) ∧
    (checkParameters params = .ok () → ∀ args f s err t,
      EvalM.extend params args f s = .error err t → err.kind = .arity) := by
  simp only [EvalM.extend_eq_ok_iff, checkParameters_eq_ok_iff]
  refine ⟨⟨fun ⟨_, _, h, _⟩ => h, fun h => ⟨_, _, h, rfl, rfl⟩⟩, ?success, ?stray, ?unmet,
    ⟨fun hp => ?bindable, fun ⟨_, _, _, _, _, h, _⟩ => h.1⟩, ?accepted⟩
  case success =>
    rintro g t ⟨⟨hp, -, hlen⟩, rfl, rfl⟩
    have hnames : params.symbolNames.length = args.elements.length :=
      (length_symbolNames hp).trans hlen
    refine ⟨rfl, size_push .., fun h hh => by rw [frame_push, if_neg hh], ?_, ?_, ?_⟩
    · rw [frame_push, if_pos rfl]
    · rw [frame_push, if_pos rfl, Frame.names, map_fst_putAll,
        List.map_fst_zip (Nat.le_of_eq hnames)]
    · intro i n hi hlast
      rw [frame_push, if_pos rfl]
      refine lookup_putAll_zip hnames ((getElem?_symbolNames hp).2 hi) fun hmem => ?_
      obtain ⟨j, hj, hn⟩ := List.mem_drop_iff_getElem.1 hmem
      have hlater := (getElem?_symbolNames hp).1 (List.getElem?_eq_some_iff.2 ⟨_, hn⟩)
      exact hlast (i + 1 + j) (by omega) hlater
  case stray =>
    intro i p hp hi
    refine ⟨EvalM.extend_of_firstStray hp hi, fun limit text ht => ?_⟩
    simp only [Error.report, Error.message, ht]
    rfl
  case unmet =>
    intro hmet
    simp only [EvalM.extend_of_not_met hmet]
    refine ⟨fun hfew => ?_, fun hle himproper => ?_, fun hle hlist hargs => ?_⟩
    · exact ⟨_, if_pos hfew, fun _ => rfl⟩
    · rw [if_neg (Nat.not_lt.2 hle), if_pos himproper]
      refine ⟨rfl, fun limit text ht => ?_⟩
      simp only [Error.report, Error.message, ht]
      rfl
    · rw [if_neg (Nat.not_lt.2 hle), if_neg (by simp [hlist]), if_neg hargs]
      exact ⟨_, rfl, fun _ => rfl⟩
  case bindable => exact ⟨params, empty, .bare, _, _, ⟨hp, hp.1, rfl⟩, rfl, rfl⟩
  case accepted =>
    intro hp args f s err t h
    simp only [EvalM.extend] at h
    cases hx : s.extend params args f with
    | ok r => rw [hx] at h; cases h
    | error e =>
      rw [hx] at h
      cases h
      exact kind_of_extend hp hx

/-- Of two parameters of one name the second is bound, and a stray counts before an argument
that is missing. -/
theorem binding_of_repeated_parameter :
    (∃ g t,
      EvalM.extend (.pair 0 (.symbol ⟨"x"⟩) (.pair 1 (.symbol ⟨"x"⟩) .nil))
          (.pair 2 (.integer 1) (.pair 3 (.integer 2) .nil)) empty bare = .ok g t ∧
        (t.frame g).names = [⟨"x"⟩] ∧ (t.frame g).get? ⟨"x"⟩ = some (.integer 2)) ∧
    EvalM.extend (.pair 0 (.symbol ⟨"x"⟩) (.pair 1 (.integer 7) .nil))
        (.pair 2 (.integer 1) .nil) empty bare = .error (.parameter (.integer 7)) bare := by
  have hrepeated := binding_of_parameters (.pair 0 (.symbol ⟨"x"⟩) (.pair 1 (.symbol ⟨"x"⟩) .nil))
    (.pair 2 (.integer 1) (.pair 3 (.integer 2) .nil)) empty bare
  have hstray := binding_of_parameters (.pair 0 (.symbol ⟨"x"⟩) (.pair 1 (.integer 7) .nil))
    (.pair 2 (.integer 1) .nil) empty bare
  refine ⟨?_, (hstray.2.2.1 1 (.integer 7) ⟨rfl, nofun, ?_⟩ (Nat.le_refl 1)).1⟩
  · have hx : (Object.pair 0 (.symbol ⟨"x"⟩) (.pair 1 (.symbol ⟨"x"⟩) .nil)).IsSymbolList :=
      checkParameters_eq_ok_iff.1 rfl
    obtain ⟨g, t, h⟩ := hrepeated.1.2 ⟨hx, rfl, rfl⟩
    obtain ⟨-, -, -, -, hnames, hlast⟩ := hrepeated.2.1 g t h
    refine ⟨g, t, h, hnames.trans (by decide), hlast 1 ⟨"x"⟩ rfl fun j hj => ?_⟩
    obtain ⟨j, rfl⟩ := Nat.exists_eq_add_of_le hj
    rw [Nat.add_comm]
    nofun
  · intro j hj
    obtain rfl := Nat.lt_one_iff.1 hj
    exact ⟨_, rfl⟩

end SmallScheme
