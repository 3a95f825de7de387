import Mathlib.Data.Set.Insert
import Mathlib.Logic.Relation
import SmallScheme.Proofs.Object.Parts
import SmallScheme.Store

/-!
# The history of a store

Whatever a program does, the store changes in four ways only: new objects are made, a
variable is defined in a frame, a variable that some frame binds is assigned, and a frame is
added. This module says once what each of them may do, so that a property of all runs has
to be looked at for these four steps and no more.

## The model

A `Moment` is a store together with all objects that have been made up to then, whether
or not something still refers to them. A `Step` leads from one moment to the next; `Steps`
is any number of them. Which names may be defined in which frames is left open: it is the
parameter `allowed` of a step.
-/

namespace SmallScheme

open Object

namespace Store

theorem mem_of_lookup {n : Symbol} {v : Value} {bs : Bindings} (h : List.lookup n bs = some v) :
    (n, v) ∈ bs := by
  induction bs with
  | nil => cases h
  | cons b bs ih =>
    obtain ⟨m, w⟩ := b
    rw [List.lookup_cons] at h
    split at h
    · next hn =>
      cases h
      rw [beq_iff_eq.1 hn]
      exact List.mem_cons_self ..
    · exact List.mem_cons_of_mem _ (ih h)

/-- A frame that is not there yet is empty. -/
theorem frame_of_size_le {s : Store} {f : FrameId} (h : s.frames.size ≤ f) : s.frame f = {} := by
  rw [frame, Array.getElem?_eq_none h, Option.getD_none]

/-- A frame that binds something is there. -/
theorem frame_mem_of_mem_bindings {s : Store} {f : FrameId} {b : Symbol × Value}
    (h : b ∈ (s.frame f).bindings) : s.frame f ∈ s.frames.toList := by
  rw [frame] at h ⊢
  cases hf : s.frames[f]? with
  | none => simp [hf] at h
  | some fr => exact Array.mem_toList_iff.2 (Array.mem_of_getElem? hf)

/-- The value of a variable is bound in some frame. -/
theorem exists_mem_of_lookup? {s : Store} {f : FrameId} {n : Symbol} {v : Value}
    (h : s.lookup? f n = some v) : ∃ g, (n, v) ∈ (s.frame g).bindings := by
  obtain ⟨g, -, hg⟩ := List.exists_of_findSome?_eq_some h
  exact ⟨g, mem_of_lookup hg⟩

/-- The nearest frame that binds a variable binds it. -/
theorem binds_of_find? {s : Store} {f g : FrameId} {n : Symbol} (h : s.find? f n = some g) :
    (s.frame g).binds n = true :=
  List.find?_some (p := fun g => (s.frame g).binds n) h

theorem mem_put {n m : Symbol} {v w : Value} {bs : Bindings} (h : (m, w) ∈ bs.put n v) :
    w = v ∨ (m, w) ∈ bs := by
  induction bs with
  | nil =>
    cases List.mem_singleton.1 h
    exact .inl rfl
  | cons b bs ih =>
    obtain ⟨k, u⟩ := b
    rw [Bindings.put] at h
    split at h
    · rcases List.mem_cons.1 h with heq | h
      · cases heq
        exact .inl rfl
      · exact .inr (List.mem_cons_of_mem _ h)
    · rcases List.mem_cons.1 h with heq | h
      · exact .inr (heq ▸ List.mem_cons_self ..)
      · exact (ih h).imp_right (List.mem_cons_of_mem _)

theorem mem_bindings_put {s : Store} {f g : FrameId} {n m : Symbol} {v w : Value}
    (h : (m, w) ∈ ((s.put f n v).frame g).bindings) :
    w = v ∨ (m, w) ∈ (s.frame g).bindings := by
  rw [frame_put] at h
  split at h
  · next hg =>
    rw [hg.1]
    exact mem_put h
  · exact .inr h

end Store

/-! ### Moments -/

/-- A moment of a run. -/
structure Moment where
  /-- The objects that have been made. -/
  objects : Set Value
  /-- The store. -/
  store : Store

namespace Moment

/-- Nothing is missing among the objects of a moment: they have all objects without a mark,
which are never made, the components of their objects, and everything that is bound. -/
structure IsComplete (w : Moment) : Prop where
  unmarked {v : Value} : v.mark? = none → v.IsWellMade 0 → v ∈ w.objects
  component {v c : Value} : v ∈ w.objects → c ∈ v.components → c ∈ w.objects
  bound {f : FrameId} {n : Symbol} {v : Value} :
    (n, v) ∈ (w.store.frame f).bindings → v ∈ w.objects

/-- All values count as made: nothing is missing, whatever the store is. -/
theorem isComplete_univ (s : Store) : (⟨Set.univ, s⟩ : Moment).IsComplete where
  unmarked _ _ := Set.mem_univ _
  component _ _ := Set.mem_univ _
  bound _ := Set.mem_univ _

namespace IsComplete

variable {w : Moment}

theorem part (h : w.IsComplete) {v p : Value} (hv : v ∈ w.objects) (hp : p ∈ v.parts) :
    p ∈ w.objects :=
  mem_of_mem_parts (S := (· ∈ w.objects)) (fun _ ho _ hc => h.component ho hc) hv hp

theorem first (h : w.IsComplete) {m : Nat} {a d : Value} (hv : .pair m a d ∈ w.objects) :
    a ∈ w.objects := h.component hv (by simp [components])

theorem rest (h : w.IsComplete) {m : Nat} {a d : Value} (hv : .pair m a d ∈ w.objects) :
    d ∈ w.objects := h.component hv (by simp [components])

theorem element (h : w.IsComplete) {v e : Value} (hv : v ∈ w.objects) (he : e ∈ v.elements) :
    e ∈ w.objects := by
  induction v with
  | pair m a d _ ih =>
    rcases List.mem_cons.1 he with rfl | he
    · exact h.first hv
    · exact ih (h.rest hv) he
  | _ => cases he

theorem put (h : w.IsComplete) {f : FrameId} {n : Symbol} {v : Value} (hv : v ∈ w.objects) :
    (⟨w.objects, w.store.put f n v⟩ : Moment).IsComplete := by
  refine ⟨h.unmarked, h.component, fun hm => ?_⟩
  rcases Store.mem_bindings_put hm with rfl | hm
  · exact hv
  · exact h.bound hm

theorem lookup (h : w.IsComplete) {f : FrameId} {n : Symbol} {v : Value}
    (hv : w.store.lookup? f n = some v) : v ∈ w.objects := by
  obtain ⟨g, hg⟩ := Store.exists_mem_of_lookup? hv
  exact h.bound hg

end IsComplete

/-- The objects `new` can be made at the moment `w`, with the next `count` marks: each has a
mark of its own, and is well made of objects that are there or are made along with it. -/
structure CanMake (w : Moment) (new : Set Value) (count : Nat) : Prop where
  mark {v : Value} : v ∈ new → ∃ m, v.mark? = some m ∧ w.store.fresh ≤ m ∧
    m < w.store.fresh + count
  unique {u v : Value} {m : Nat} : u ∈ new → v ∈ new → u.mark? = some m → v.mark? = some m → u = v
  component {v c : Value} : v ∈ new → c ∈ v.components → c ∈ w.objects ∨ c ∈ new
  wellMade {v : Value} : v ∈ new → v.IsWellMade w.store.frames.size

namespace CanMake

variable {w : Moment}

/-- Marks may be left unused. -/
theorem empty (w : Moment) (count : Nat) : w.CanMake ∅ count where
  mark h := h.elim
  unique h := h.elim
  component h := h.elim
  wellMade h := h.elim

/-- An object that is made by itself. -/
theorem singleton {v : Value} (hm : v.mark? = some w.store.fresh)
    (hc : ∀ c ∈ v.components, c ∈ w.objects) (hv : v.IsWellMade w.store.frames.size) :
    w.CanMake {v} 1 where
  mark h := by
    obtain rfl := Set.mem_singleton_iff.1 h
    exact ⟨_, hm, Nat.le_refl _, Nat.lt_succ_self _⟩
  unique hu hv _ _ := (Set.mem_singleton_iff.1 hu).trans (Set.mem_singleton_iff.1 hv).symm
  component h hc' := by
    obtain rfl := Set.mem_singleton_iff.1 h
    exact .inl (hc _ hc')
  wellMade h := by
    obtain rfl := Set.mem_singleton_iff.1 h
    exact hv

/-- The pairs of a list of values. -/
theorem list (hw : w.IsComplete) {vs : List Value} (hvs : ∀ v ∈ vs, v ∈ w.objects) :
    w.CanMake {v | v ∈ (Value.list w.store.fresh vs .nil).cells} vs.length where
  mark hv := by
    obtain ⟨k, a, d, rfl, h₁, h₂, -⟩ := Value.mem_cells_list hv
    exact ⟨k, rfl, h₁, h₂⟩
  unique hu hv := by
    refine eq_of_nodup_marks ?_ hu hv
    rw [Value.marks_list]
    exact List.nodup_range'
  component hv hc := by
    obtain ⟨k, a, d, rfl, -, -, ha, hd⟩ := Value.mem_cells_list hv
    simp only [components, List.mem_cons, List.not_mem_nil, or_false] at hc
    rcases hc with rfl | rfl
    · exact .inl (hvs _ ha)
    · rcases hd with rfl | hd
      · exact .inl (hw.unmarked rfl trivial)
      · exact .inr hd
  wellMade hv := by
    obtain ⟨k, a, d, rfl, -⟩ := Value.mem_cells_list hv
    trivial

/-- The marked objects of a datum that is placed. -/
theorem place (hw : w.IsComplete) {d : Datum} (hd : d.IsPlain) :
    w.CanMake {v | v ∈ (Datum.place d w.store.fresh).1.parts ∧ v.mark? ≠ none}
      ((Datum.place d w.store.fresh).2 - w.store.fresh) where
  mark := by
    rintro v ⟨hv, hm⟩
    obtain ⟨m, hm⟩ := Option.ne_none_iff_exists'.1 hm
    have := Datum.mark?_of_mem_parts_place hv hm
    exact ⟨m, hm, by omega, by omega⟩
  unique hu hv := by
    refine eq_of_nodup_marks ?_ hu.1 hv.1
    rw [Datum.marks_place]
    exact List.nodup_range'
  component := by
    rintro v c ⟨hv, -⟩ hc
    have hpart := mem_parts_of_mem_components hv hc
    by_cases hm : c.mark? = none
    · exact .inl (hw.unmarked hm (Datum.isSound_place hd _ 0 c hpart))
    · exact .inr ⟨hpart, hm⟩
  wellMade hv := Datum.isSound_place hd _ _ _ hv.1

end CanMake

/-- The moment after the objects `new` have been made. -/
def make (w : Moment) (new : Set Value) (count : Nat) : Moment :=
  ⟨w.objects ∪ new, { w.store with fresh := w.store.fresh + count }⟩

/-- What can happen to a store, if definitions are made where they are allowed. -/
inductive Step (allowed : FrameId → Symbol → Prop) : Moment → Moment → Prop where
  /-- New objects are made. -/
  | make {w : Moment} {new : Set Value} {count : Nat} (h : w.CanMake new count) :
      Step allowed w (w.make new count)
  /-- A variable is defined. -/
  | define {w : Moment} {f : FrameId} {n : Symbol} {v : Value} (hv : v ∈ w.objects)
      (hf : f ≠ Store.empty) (hn : allowed f n) :
      Step allowed w ⟨w.objects, w.store.put f n v⟩
  /-- The nearest binding of a variable is changed. -/
  | assign {w : Moment} {f g : FrameId} {n : Symbol} {v : Value} (hv : v ∈ w.objects)
      (hg : w.store.find? f n = some g) :
      Step allowed w ⟨w.objects, w.store.put g n v⟩
  /-- A frame is added inside the empty frame, or inside one that a procedure closes over. -/
  | push {w : Moment} {f : FrameId} {bindings : Bindings}
      (hb : ∀ b ∈ bindings, b.2 ∈ w.objects)
      (hf : f = Store.empty ∨ ∃ m params forms, .closure m params forms f ∈ w.objects) :
      Step allowed w ⟨w.objects, (w.store.push f bindings).2⟩

/-- Definitions may be made anywhere. -/
abbrev Anywhere : FrameId → Symbol → Prop := fun _ _ => True

/-- Any number of steps. -/
abbrev Steps (allowed : FrameId → Symbol → Prop) : Moment → Moment → Prop :=
  Relation.ReflTransGen (Step allowed)

variable {allowed allowed' : FrameId → Symbol → Prop} {w w' : Moment}

/-! ### What a step keeps -/

theorem Step.mono (h : Step allowed w w') (ha : ∀ f n, allowed f n → allowed' f n) :
    Step allowed' w w' := by
  cases h with
  | make h => exact .make h
  | define hv hf hn => exact .define hv hf (ha _ _ hn)
  | assign hv hg => exact .assign hv hg
  | push hb hf => exact .push hb hf

theorem Step.objects_subset (h : Step allowed w w') : w.objects ⊆ w'.objects := by
  cases h with
  | make h => exact Set.subset_union_left
  | _ => exact subset_rfl

theorem Step.fresh_le (h : Step allowed w w') : w.store.fresh ≤ w'.store.fresh := by
  cases h with
  | make h => exact Nat.le_add_right _ _
  | _ => exact Nat.le_refl _

theorem Step.size_le (h : Step allowed w w') :
    w.store.frames.size ≤ w'.store.frames.size := by
  cases h with
  | make h => exact Nat.le_refl _
  | define hv hf hn => simp
  | assign hv hg => simp
  | push hb hf => simp

/-- A frame stays inside the frames it was made in. -/
theorem Step.outer_eq (h : Step allowed w w') {g : FrameId} (hg : g < w.store.frames.size) :
    (w'.store.frame g).outer = (w.store.frame g).outer := by
  cases h with
  | make h => rfl
  | define hv hf hn => exact Store.outer_put ..
  | assign hv hf => exact Store.outer_put ..
  | push hb hf => rw [Store.frame_push, if_neg (Nat.ne_of_lt hg)]

/-- A frame keeps its names in their order, and gets none that it is not allowed. -/
theorem Step.exists_names (h : Step allowed w w') {g : FrameId} (hg : g < w.store.frames.size) :
    ∃ added, (w'.store.frame g).names = (w.store.frame g).names ++ added ∧
      ∀ n ∈ added, allowed g n := by
  have same (h : (w'.store.frame g).names = (w.store.frame g).names) :
      ∃ added, (w'.store.frame g).names = (w.store.frame g).names ++ added ∧
        ∀ n ∈ added, allowed g n := ⟨[], by simpa using h, by simp⟩
  cases h with
  | make h => exact same rfl
  | @define f n v hv hf hn =>
    by_cases hgf : g = f
    · subst hgf
      have hp := Bindings.map_fst_put n v (w.store.frame g).bindings
      by_cases hmem : n ∈ (w.store.frame g).names
      · refine same ?_
        rw [Store.frame_put, if_pos ⟨rfl, hg⟩]
        exact hp.trans (if_pos hmem)
      · refine ⟨[n], ?_, List.forall_mem_singleton.2 hn⟩
        rw [Store.frame_put, if_pos ⟨rfl, hg⟩]
        exact hp.trans (if_neg hmem)
    · refine same ?_
      rw [Store.frame_put, if_neg fun h => hgf h.1]
  | @assign f g' n v hv hf =>
    refine same ?_
    rw [Store.frame_put]
    split
    · next h =>
      -- the frame binds the name already
      obtain ⟨rfl, -⟩ := h
      exact (Bindings.map_fst_put n v _).trans
        (if_pos (Frame.binds_eq_true_iff.1 (Store.binds_of_find? hf)))
    · rfl
  | push hb hf =>
    refine same ?_
    rw [Store.frame_push, if_neg (Nat.ne_of_lt hg)]

theorem Step.isComplete (h : Step allowed w w') (hw : w.IsComplete) : w'.IsComplete := by
  cases h with
  | make h =>
    refine ⟨fun hm hv => .inl (hw.unmarked hm hv), ?_, fun hv => .inl (hw.bound hv)⟩
    rintro v c (hv | hv) hc
    · exact .inl (hw.component hv hc)
    · exact h.component hv hc
  | define hv hf hn => exact hw.put hv
  | assign hv hg => exact hw.put hv
  | push hb hf =>
    refine ⟨hw.unmarked, hw.component, fun hm => ?_⟩
    rw [Store.frame_push] at hm
    split at hm
    · exact hb _ hm
    · exact hw.bound hm

/-! ### What any number of steps keeps -/

namespace Steps

theorem mono (h : Steps allowed w w') (ha : ∀ f n, allowed f n → allowed' f n) :
    Steps allowed' w w' := by
  induction h with
  | refl => exact .refl
  | tail _ step ih => exact ih.tail (step.mono ha)

theorem objects_subset (h : Steps allowed w w') : w.objects ⊆ w'.objects := by
  induction h with
  | refl => exact subset_rfl
  | tail _ step ih => exact ih.trans step.objects_subset

theorem fresh_le (h : Steps allowed w w') : w.store.fresh ≤ w'.store.fresh := by
  induction h with
  | refl => exact Nat.le_refl _
  | tail _ step ih => exact Nat.le_trans ih step.fresh_le

theorem size_le (h : Steps allowed w w') : w.store.frames.size ≤ w'.store.frames.size := by
  induction h with
  | refl => exact Nat.le_refl _
  | tail _ step ih => exact Nat.le_trans ih step.size_le

theorem isComplete (h : Steps allowed w w') (hw : w.IsComplete) : w'.IsComplete := by
  induction h with
  | refl => exact hw
  | tail _ step ih => exact step.isComplete ih

/-- The frames that enclose a frame never change. -/
theorem outer_eq (h : Steps allowed w w') {g : FrameId} (hg : g < w.store.frames.size) :
    (w'.store.frame g).outer = (w.store.frame g).outer := by
  induction h with
  | refl => rfl
  | tail h step ih => exact (step.outer_eq (Nat.lt_of_lt_of_le hg (size_le h))).trans ih

/-- The names of a frame stay in their order, and those that come are allowed. -/
theorem exists_names (h : Steps allowed w w') {g : FrameId} (hg : g < w.store.frames.size) :
    ∃ added, (w'.store.frame g).names = (w.store.frame g).names ++ added ∧
      ∀ n ∈ added, allowed g n := by
  induction h with
  | refl => exact ⟨[], by simp, by simp⟩
  | tail h step ih =>
    obtain ⟨first, hfirst, ha⟩ := ih
    obtain ⟨last, hlast, hb⟩ := step.exists_names (Nat.lt_of_lt_of_le hg (size_le h))
    refine ⟨first ++ last, by rw [hlast, hfirst, List.append_assoc], ?_⟩
    exact List.forall_mem_append.2 ⟨ha, hb⟩

end Steps

end Moment

end SmallScheme
