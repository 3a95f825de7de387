import SmallScheme.Evaluation.Basic
import SmallScheme.Proofs.Sequencing
import SmallScheme.Proofs.Store.History

/-!
# Which variables a binding changes

Frames share the frames that enclose them, so what is bound in one frame shows in many
chains. A frame `g` *sees* what a frame `f` binds to `n` if no frame that lies before `f`,
from `g` outward, binds `n` (`Sees`). One lemma says what becomes of every variable when a
name is bound in a frame (`lookup?_put`). A definition does this in the frame itself; an
assignment does it in the nearest frame that binds the name already, and that frame is seen
just from where the name is found in it (`sees_iff_find?`).
-/

namespace SmallScheme

/-- Binding `n` in a frame changes the value of `n` and of no other name. -/
theorem Frame.get?_put (n : Symbol) (v : Value) (f : Frame) (m : Symbol) :
    (f.put n v).get? m = if m = n then some v else f.get? m :=
  Bindings.lookup_put n m v f.bindings

/-- Binding `n` in a frame adds it to the names, at their end, if it is not there yet. -/
theorem Frame.names_put (n : Symbol) (v : Value) (f : Frame) :
    (f.put n v).names = if n ∈ f.names then f.names else f.names ++ [n] :=
  Bindings.map_fst_put n v f.bindings

namespace Store

variable {s : Store} {f g : FrameId} {n m : Symbol} {v : Value}

/-- Going outward from `g` one comes to `f` before any other frame that binds `n`. -/
def Sees (s : Store) (g f : FrameId) (n : Symbol) : Prop :=
  ∃ inner outer, s.chain g = inner ++ f :: outer ∧
    ∀ h ∈ inner, h ≠ f ∧ (s.frame h).binds n = false

theorem sees_iff :
    s.Sees g f n ↔ (s.chain g).find? (fun h => h = f || (s.frame h).binds n) = some f := by
  simp [Sees, List.find?_eq_some_iff_append]

instance (s : Store) (g f : FrameId) (n : Symbol) : Decidable (s.Sees g f n) :=
  decidable_of_iff' _ sees_iff

/-- A frame that binds `n` is seen from where `n` is found in it. -/
theorem sees_iff_find? (hf : (s.frame f).binds n = true) :
    s.Sees g f n ↔ s.find? g n = some f := by
  have hsame : (fun h => decide (h = f) || (s.frame h).binds n) =
      fun h => (s.frame h).binds n := by
    funext h
    by_cases hh : h = f
    · simp [hh, hf]
    · simp [hh]
  rw [sees_iff, find?, hsame]

/-! ### A name bound in one frame -/

theorem get?_frame_put (hf : f < s.frames.size) (h : FrameId) :
    ((s.put f n v).frame h).get? m = if h = f ∧ m = n then some v else (s.frame h).get? m := by
  rw [frame_put]
  by_cases hh : h = f
  · subst hh
    simp [hf, Frame.get?_put]
  · simp [hh]

/-- The walk outward from a frame, after a name has been bound in one of the frames. -/
theorem findSome?_put (hf : f < s.frames.size) (chain : List FrameId) :
    chain.findSome? (fun h => ((s.put f n v).frame h).get? m) =
      if m = n ∧ chain.find? (fun h => h = f || (s.frame h).binds n) = some f then some v
      else chain.findSome? fun h => (s.frame h).get? m := by
  induction chain with
  | nil => simp
  | cons h chain ih =>
    rw [List.findSome?_cons, List.findSome?_cons, List.find?_cons, get?_frame_put hf, ih]
    by_cases hm : m = n
    · subst hm
      by_cases hh : h = f
      · simp [hh]
      · -- the walk ends here if the frame binds the name, and goes on otherwise
        cases hg : (s.frame h).get? m <;> simp [hh, hg, Frame.binds]
    · simp [hm]

/-- **A name bound in a frame gets its new value wherever the frame is seen**, and every other
variable keeps what it had. -/
theorem lookup?_put (hf : f < s.frames.size) :
    (s.put f n v).lookup? g m = if m = n ∧ s.Sees g f n then some v else s.lookup? g m := by
  simp only [lookup?, chain_put, findSome?_put hf, sees_iff]

theorem lookup_put (hf : f < s.frames.size) :
    (s.put f n v).lookup g m = if m = n ∧ s.Sees g f n then .ok v else s.lookup g m := by
  simp only [lookup, lookup?_put hf]
  by_cases h : m = n ∧ s.Sees g f n
  · simp [h]
  · simp only [if_neg h]

theorem names_put (hf : f < s.frames.size) :
    ((s.put f n v).frame g).names =
      if g = f ∧ n ∉ (s.frame f).names then (s.frame f).names ++ [n] else (s.frame g).names := by
  rw [frame_put]
  by_cases hg : g = f
  · subst hg
    simp only [hf, and_self, if_true, true_and, Frame.names_put]
    by_cases hn : n ∈ (s.frame g).names <;> simp [hn]
  · simp [hg]

/-! ### Finding a name -/

theorem find?_eq_none_iff : s.find? f n = none ↔ ∀ h ∈ s.chain f, n ∉ (s.frame h).names := by
  simp [find?, List.find?_eq_none, Frame.binds_eq_true_iff]

theorem lookup?_eq_none_iff : s.lookup? f n = none ↔ ∀ h ∈ s.chain f, n ∉ (s.frame h).names := by
  simp only [lookup?, List.findSome?_eq_none_iff, ← Frame.binds_eq_true_iff, Frame.binds,
    Option.isSome_iff_ne_none, not_not]

/-- Only a frame that is there can bind a name. -/
theorem lt_size_of_binds (h : (s.frame f).binds n = true) : f < s.frames.size := by
  by_contra hf
  rw [frame_of_size_le (Nat.le_of_not_lt hf)] at h
  cases h

end Store

/-! ### What the language does -/

namespace EvalM

variable {s t : Store} {f : FrameId} {n : Symbol} {v : Value} {err : Error}

theorem assign_eq_ok_iff :
    assign f n v s = .ok () t ↔ ∃ g, s.find? f n = some g ∧ t = s.put g n v := by
  cases hg : s.find? f n <;> simp [assign, Store.assign, hg, eq_comm]

theorem assign_eq_error_iff :
    assign f n v s = .error err t ↔
      s.find? f n = none ∧ err = .unbound (.symbol n) ∧ t = s := by
  cases hg : s.find? f n <;> simp [assign, Store.assign, hg, eq_comm]

theorem define_eq_ok_iff : define f n v s = .ok () t ↔ f ≠ Store.empty ∧ t = s.put f n v := by
  by_cases hf : f = Store.empty <;> simp [define, Store.define, hf, eq_comm]

theorem define_eq_error_iff :
    define f n v s = .error err t ↔ f = Store.empty ∧ err = .definitionInEmpty n ∧ t = s := by
  by_cases hf : f = Store.empty <;> simp [define, Store.define, hf, eq_comm]

theorem lookup_eq_error_iff :
    lookup f n s = .error err t ↔
      s.lookup? f n = none ∧ err = .unbound (.symbol n) ∧ t = s := by
  cases hv : s.lookup? f n <;>
    simp [lookup, Store.lookup, hv, ofExcept, Sequencing.bind_apply, eq_comm]

end EvalM

/-- **What assignments, definitions and references do to the variables.** Take any frame `f`.

* An assignment succeeds exactly if some frame from `f` outward binds the name. Then the name
  has the new value from wherever it is found in the same frame as from `f`, and all else is
  as it was, the names of the frames included.
* A definition succeeds exactly if `f` is not the empty frame. Then the name has the new value
  from wherever `f` is met before another frame that binds it, and all else is as it was; `f`
  keeps the order of its names, and a new one comes last.
* What fails leaves the store alone, and a reference fails exactly if no frame from `f` outward
  binds the name. -/
theorem effects_of_binding {s : Store} {f : FrameId} (hf : f < s.frames.size) (n : Symbol)
    (v : Value) :
    ((∃ t, EvalM.assign f n v s = .ok () t) ↔ ∃ h ∈ s.chain f, n ∈ (s.frame h).names) ∧
    (∀ t, EvalM.assign f n v s = .ok () t →
      (∀ g m, t.lookup g m =
        if m = n ∧ s.find? g n = s.find? f n then .ok v else s.lookup g m) ∧
      ∀ g, (t.frame g).names = (s.frame g).names ∧ t.chain g = s.chain g) ∧
    ((∃ t, EvalM.define f n v s = .ok () t) ↔ f ≠ Store.empty) ∧
    (∀ t, EvalM.define f n v s = .ok () t →
      (∀ g m, t.lookup g m = if m = n ∧ s.Sees g f n then .ok v else s.lookup g m) ∧
      (t.frame f).names =
        (if n ∈ (s.frame f).names then (s.frame f).names else (s.frame f).names ++ [n]) ∧
      ∀ g, (g ≠ f → t.frame g = s.frame g) ∧ t.chain g = s.chain g) ∧
    (∀ err t, EvalM.assign f n v s = .error err t → t = s) ∧
    (∀ err t, EvalM.define f n v s = .error err t → t = s) ∧
    (∀ err t, EvalM.lookup f n s = .error err t → t = s) ∧
    ((∃ err t, EvalM.lookup f n s = .error err t) ↔
      ∀ h ∈ s.chain f, n ∉ (s.frame h).names) := by
  refine ⟨?_, fun t ht => ?_, ?_, fun t ht => ?_, ?_, ?_, ?_, ?_⟩
  · -- the assignment finds a frame
    simp only [EvalM.assign_eq_ok_iff]
    rw [exists_comm]
    simp [← Option.isSome_iff_exists, Option.isSome_iff_ne_none, Store.find?_eq_none_iff]
  · obtain ⟨h, hfind, rfl⟩ := EvalM.assign_eq_ok_iff.1 ht
    have hb := Store.binds_of_find? hfind
    have hlt := Store.lt_size_of_binds hb
    refine ⟨fun g m => ?_, fun g => ⟨?_, Store.chain_put ..⟩⟩
    · rw [Store.lookup_put hlt, hfind]
      simp only [Store.sees_iff_find? hb]
    · rw [Store.names_put hlt, if_neg fun hn => hn.2 (Frame.binds_eq_true_iff.1 hb)]
  · simp [EvalM.define_eq_ok_iff]
  · obtain ⟨-, rfl⟩ := EvalM.define_eq_ok_iff.1 ht
    refine ⟨fun g m => Store.lookup_put hf, ?_, fun g => ⟨fun hg => ?_, Store.chain_put ..⟩⟩
    · rw [Store.names_put hf]
      by_cases hn : n ∈ (s.frame f).names <;> simp [hn]
    · rw [Store.frame_put, if_neg fun h => hg h.1]
  · exact fun err t h => (EvalM.assign_eq_error_iff.1 h).2.2
  · exact fun err t h => (EvalM.define_eq_error_iff.1 h).2.2
  · exact fun err t h => (EvalM.lookup_eq_error_iff.1 h).2.2
  · simp [EvalM.lookup_eq_error_iff, Store.lookup?_eq_none_iff]

/-- Two frames bind `x`, the one inside the other. Seen from a frame inside the inner one, an
assignment changes the inner binding; from a frame beside it `x` keeps the outer value. -/
theorem effects_of_binding_beside :
    let x : Symbol := ⟨"x"⟩
    let s : Store := ⟨#[{}, ⟨[(x, .integer 1)], [0]⟩, ⟨[(x, .integer 2)], [1, 0]⟩,
      ⟨[], [2, 1, 0]⟩, ⟨[], [1, 0]⟩], 0⟩
    3 < s.frames.size ∧ ∃ t, EvalM.assign 3 x (.integer 7) s = .ok () t ∧
      t.lookup 2 x = .ok (.integer 7) ∧ t.lookup 4 x = .ok (.integer 1) := by
  intro x s
  have hf : 3 < s.frames.size := by decide
  obtain ⟨hiff, heffect, -⟩ := effects_of_binding hf x (.integer 7)
  obtain ⟨t, ht⟩ := hiff.2 ⟨2, by decide, by decide⟩
  obtain ⟨hlookup, -⟩ := heffect t ht
  exact ⟨hf, t, ht, hlookup 2 x, hlookup 4 x⟩

end SmallScheme
