import SmallScheme.Proofs.Object.Renaming
import SmallScheme.Store

/-!
# A store inside another

A store can be found again inside a larger one, under other numbers for its frames and other
marks for its objects. `Matches ρ s t` says that the frames of `s` stand in `t` as `ρ` renames
them, and that what is made next in `s` and in `t` gets numbers that `ρ` carries into each
other; so the two stay matched whatever is done to both. The other frames of `t` are nobody's
business: `Keeps ρ t u` says that they have been left alone.
-/

namespace SmallScheme

open Object

/-! ### Bindings and frames -/

namespace Bindings

variable (ρ : Renaming) (bs : Bindings)

/-- The bindings with their values renamed. -/
def rename : Bindings := bs.map fun b => (b.1, b.2.rename ρ)

theorem lookup_rename (n : Symbol) :
    List.lookup n (rename ρ bs) = (List.lookup n bs).map (Object.rename ρ) := by
  induction bs with
  | nil => rfl
  | cons b bs ih =>
    obtain ⟨m, v⟩ := b
    simp only [rename, List.map_cons, List.lookup_cons] at ih ⊢
    split
    · rfl
    · exact ih

theorem put_rename (n : Symbol) (v : Value) :
    put n (v.rename ρ) (rename ρ bs) = rename ρ (put n v bs) := by
  induction bs with
  | nil => rfl
  | cons b bs ih =>
    obtain ⟨m, w⟩ := b
    simp only [rename, List.map_cons, put] at ih ⊢
    split
    · rfl
    · rw [List.map_cons, ih]

theorem addParameters_rename (expected got : Nat) (params args : Value) :
    addParameters expected got (params.rename ρ) (args.rename ρ) (rename ρ bs) =
      ρ.result (rename ρ) (addParameters expected got params args bs) := by
  induction params generalizing args bs with
  | pair m p params _ ih =>
    cases p with
    | symbol n =>
      cases args with
      | pair m' v args =>
        have hput := ih (put n v bs) args
        rw [← put_rename] at hput
        exact hput
      | _ => rfl
    | _ => rfl
  | nil => cases args <;> rfl
  | _ => rfl

theorem ofParameters_rename (params args : Value) :
    ofParameters (params.rename ρ) (args.rename ρ) =
      ρ.result (rename ρ) (ofParameters params args) := by
  rw [ofParameters, ofParameters, pairCount_rename, pairCount_rename]
  exact addParameters_rename ρ [] _ _ params args

theorem primitives_rename {ρ : Renaming} {m m' : Nat} (h : ∀ k, ρ.mark (m + k) = m' + k)
    (ps : List Primitive) : rename ρ (primitives m ps) = primitives m' ps := by
  induction ps generalizing m m' with
  | nil => rfl
  | cons p ps ih =>
    have hm : ρ.mark m = m' := h 0
    have hps := ih (ρ.mark_add h 1)
    simp only [rename, primitives, List.map_cons, Object.rename] at hps ⊢
    rw [hps, hm]

end Bindings

namespace Frame

variable (ρ : Renaming) (f : Frame)

/-- The frame with its values and the frames around it renamed. -/
def rename : Frame := ⟨f.bindings.rename ρ, f.outer.map ρ.frame⟩

theorem get?_rename (n : Symbol) : (f.rename ρ).get? n = (f.get? n).map (Object.rename ρ) :=
  Bindings.lookup_rename ρ f.bindings n

@[simp]
theorem binds_rename (n : Symbol) : (f.rename ρ).binds n = f.binds n := by
  rw [binds, get?_rename, Option.isSome_map, binds]

theorem put_rename (n : Symbol) (v : Value) :
    (f.rename ρ).put n (v.rename ρ) = (f.put n v).rename ρ := by
  simp only [put, rename, Bindings.put_rename]

end Frame

/-! ### Stores -/

/-- The store `s` is found in `t` under the names that `ρ` gives, and both go on in step. -/
structure Matches (ρ : Renaming) (s t : Store) : Prop where
  frame (g : FrameId) : t.frame (ρ.frame g) = (s.frame g).rename ρ
  size (k : Nat) : ρ.frame (s.frames.size + k) = t.frames.size + k
  fresh (k : Nat) : ρ.mark (s.fresh + k) = t.fresh + k

/-- From `s` to `t` only frames that `ρ` names have changed. -/
structure Keeps (ρ : Renaming) (s t : Store) : Prop where
  size_le : s.frames.size ≤ t.frames.size
  fresh_le : s.fresh ≤ t.fresh
  frame {g : FrameId} : g < s.frames.size → (∀ a, ρ.frame a ≠ g) → t.frame g = s.frame g

namespace Keeps

variable {ρ : Renaming} {s t u : Store}

theorem refl (ρ : Renaming) (s : Store) : Keeps ρ s s :=
  ⟨Nat.le_refl _, Nat.le_refl _, fun _ _ => rfl⟩

theorem trans (h : Keeps ρ s t) (h' : Keeps ρ t u) : Keeps ρ s u where
  size_le := Nat.le_trans h.size_le h'.size_le
  fresh_le := Nat.le_trans h.fresh_le h'.fresh_le
  frame hg ha := (h'.frame (Nat.lt_of_lt_of_le hg h.size_le) ha).trans (h.frame hg ha)

theorem withFresh {k : Nat} (h : s.fresh ≤ k) : Keeps ρ s { s with fresh := k } :=
  ⟨Nat.le_refl _, h, fun _ _ => rfl⟩

theorem put (ρ : Renaming) (s : Store) (f : FrameId) (n : Symbol) (v : Value) :
    Keeps ρ s (s.put (ρ.frame f) n v) where
  size_le := by simp
  fresh_le := Nat.le_refl _
  frame _ ha := by rw [Store.frame_put, if_neg fun h => ha f h.1.symm]

theorem push (ρ : Renaming) (s : Store) (f : FrameId) (bs : Bindings) :
    Keeps ρ s (s.push f bs).2 where
  size_le := by simp
  fresh_le := Nat.le_refl _
  frame hg _ := by rw [Store.frame_push, if_neg (Nat.ne_of_lt hg)]

end Keeps

namespace Matches

variable {ρ : Renaming} {s t : Store}

theorem chain (h : Matches ρ s t) (g : FrameId) :
    t.chain (ρ.frame g) = (s.chain g).map ρ.frame := by
  rw [Store.chain, h.frame, Frame.rename, Store.chain, List.map_cons]

/-- A frame is there exactly when its renamed frame is. -/
theorem lt_iff (h : Matches ρ s t) (g : FrameId) :
    ρ.frame g < t.frames.size ↔ g < s.frames.size := by
  rcases Nat.lt_or_ge g s.frames.size with hg | hg
  · refine iff_of_true ?_ hg
    by_contra hge
    obtain ⟨k, hk⟩ := Nat.exists_eq_add_of_le (Nat.le_of_not_lt hge)
    have heq : s.frames.size + k = g := ρ.frame_injective ((h.size k).trans hk.symm)
    exact Nat.not_le_of_lt hg (heq ▸ Nat.le_add_right _ k)
  · refine iff_of_false ?_ (Nat.not_lt_of_ge hg)
    obtain ⟨k, rfl⟩ := Nat.exists_eq_add_of_le hg
    rw [h.size k]
    exact Nat.not_lt_of_ge (Nat.le_add_right _ k)

theorem find? (h : Matches ρ s t) (f : FrameId) (n : Symbol) :
    t.find? (ρ.frame f) n = (s.find? f n).map ρ.frame := by
  have hbinds : ((fun g => (t.frame g).binds n) ∘ ρ.frame) = fun g => (s.frame g).binds n := by
    funext g
    rw [Function.comp_apply, h.frame, Frame.binds_rename]
  rw [Store.find?, h.chain, List.find?_map, hbinds, Store.find?]

theorem lookup? (h : Matches ρ s t) (f : FrameId) (n : Symbol) :
    t.lookup? (ρ.frame f) n = (s.lookup? f n).map (rename ρ) := by
  rw [Store.lookup?, h.chain, Store.lookup?]
  induction s.chain f with
  | nil => rfl
  | cons g gs ih =>
    rw [List.map_cons, List.findSome?_cons, List.findSome?_cons, h.frame, Frame.get?_rename]
    cases (s.frame g).get? n with
    | some v => rfl
    | none => exact ih

theorem withFresh (h : Matches ρ s t) {a b : Nat} (hk : ∀ k, ρ.mark (a + k) = b + k) :
    Matches ρ { s with fresh := a } { t with fresh := b } :=
  ⟨h.frame, h.size, hk⟩

theorem addFresh (h : Matches ρ s t) (count : Nat) :
    Matches ρ { s with fresh := s.fresh + count } { t with fresh := t.fresh + count } :=
  h.withFresh (ρ.mark_add h.fresh count)

theorem put (h : Matches ρ s t) (f : FrameId) (n : Symbol) (v : Value) :
    Matches ρ (s.put f n v) (t.put (ρ.frame f) n (v.rename ρ)) where
  frame g := by
    have hiff : ρ.frame g = ρ.frame f ∧ ρ.frame f < t.frames.size ↔
        g = f ∧ f < s.frames.size := by
      rw [ρ.frame_injective.eq_iff, h.lt_iff]
    rw [Store.frame_put, Store.frame_put]
    by_cases hg : g = f ∧ f < s.frames.size
    · rw [if_pos hg, if_pos (hiff.2 hg), h.frame, Frame.put_rename]
    · rw [if_neg hg, if_neg (mt hiff.1 hg)]
      exact h.frame g
  size k := by
    rw [Store.size_put, Store.size_put]
    exact h.size k
  fresh := h.fresh

theorem push (h : Matches ρ s t) (f : FrameId) (bs : Bindings) :
    Matches ρ (s.push f bs).2 (t.push (ρ.frame f) (bs.rename ρ)).2 where
  frame g := by
    have hlast : ρ.frame s.frames.size = t.frames.size := h.size 0
    have hsize : ρ.frame g = t.frames.size ↔ g = s.frames.size := by
      rw [← hlast, ρ.frame_injective.eq_iff]
    rw [Store.frame_push, Store.frame_push]
    by_cases hg : g = s.frames.size
    · rw [if_pos hg, if_pos (hsize.2 hg), h.chain]
      rfl
    · rw [if_neg hg, if_neg (mt hsize.1 hg)]
      exact h.frame g
  size k := by
    rw [Store.size_push, Store.size_push, Nat.add_assoc, h.size, Nat.add_assoc]
  fresh := h.fresh

/-! ### What is shown of a frame -/

theorem binds (h : Matches ρ s t) (f : FrameId) (n : Symbol) :
    (t.frame (ρ.frame f)).binds n = (s.frame f).binds n := by
  rw [h.frame, Frame.binds_rename]

theorem showFrame (h : Matches ρ s t) (nesting : Nat) (f : FrameId) :
    t.showFrame nesting (ρ.frame f) = s.showFrame nesting f := by
  simp only [Store.showFrame, h.frame, Frame.rename, Bindings.rename, List.isEmpty_map,
    List.mapM_map, Function.comp_def, describe_rename]

theorem summary (h : Matches ρ s t) (f : FrameId) : t.summary (ρ.frame f) = s.summary f := by
  unfold Store.summary
  simp only [h.frame, Frame.rename, Bindings.rename, List.length_map]

end Matches

end SmallScheme
