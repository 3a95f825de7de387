import SmallScheme.Proofs.Session.Quarters

/-!
# Objects made early

When a datum is read, objects are made for it. It makes no difference whether that happens
just before the datum is evaluated, or all data are made before the first of them is evaluated
(`Ahead.evalData`). Only the marks of the objects differ. So the store in which all data have
been made is compared with the other by a renaming of marks, which is chosen anew for each
datum: the marks of the new object become those of the one made early.
-/

namespace SmallScheme

open Object Sequencing Evaluation

/-! ### Data to evaluate -/

/-- Evaluates data in order as forms; `last` is the value before the first. -/
def evalData (limits : Limits) (f : FrameId) : List Datum → (last : Value) → EvalM Value
  | [], last => return last
  | d :: ds, _ => do evalData limits f ds (← evalForm limits d f)

/-- Makes the objects of all data. -/
def placeAll : List Datum → EvalM (List Value)
  | [] => return []
  | d :: ds => do
    let v ← EvalM.place d
    return v :: (← placeAll ds)

/-- Evaluates forms that have been made in order; `last` is the value before the first. -/
def evalValues (limits : Limits) (f : FrameId) : List Value → (last : Value) → EvalM Value
  | [], last => return last
  | v :: vs, _ => do
    evalValues limits f vs (← EStateM.adaptExcept Error.ofForm
      (evaluate limits.rounds limits.nesting v f))

variable {limits : Limits} {f : FrameId}

/-! ### Marks -/

/-- The values with the content of the data whose objects have the marks from `m` on, and the
mark after the last of them. -/
def placeList : List Datum → Nat → List Value × Nat
  | [], m => ([], m)
  | d :: ds, m =>
    ((d.place m).1 :: (placeList ds (d.place m).2).1, (placeList ds (d.place m).2).2)

theorem placeAll_apply (ds : List Datum) (s : Store) :
    placeAll ds s = .ok (placeList ds s.fresh).1 { s with fresh := (placeList ds s.fresh).2 } := by
  induction ds generalizing s with
  | nil => rfl
  | cons d ds ih =>
    rw [placeAll, bind_apply]
    simp only [EvalM.place, modifyGet_apply, bind_apply, ih, pure_apply, placeList]

theorem le_placeList (ds : List Datum) (m : Nat) : m ≤ (placeList ds m).2 := by
  induction ds generalizing m with
  | nil => exact Nat.le_refl m
  | cons d ds ih => exact Nat.le_trans (d.le_place m) (ih _)

/-- A datum takes as many marks from wherever it starts. -/
theorem place_add (d : Datum) (m m' : Nat) : (d.place m').2 + m = (d.place m).2 + m' := by
  induction d generalizing m m' with
  | pair mark first rest ih₁ ih₂ | closure mark first rest f ih₁ ih₂ =>
    simp only [Datum.place]
    have h₁ := ih₁ (m + 1) (m' + 1)
    have h₂ := ih₂ (Datum.place first (m + 1)).2 (Datum.place first (m' + 1)).2
    omega
  | _ =>
    simp only [Datum.place]
    omega

/-- Two objects with the same content differ in their marks only. -/
theorem rename_place_of_lt {ρ : Renaming} {d : Datum} (hd : d.IsPlain) {m m' : Nat}
    (h : ∀ k, m + k < (d.place m).2 → ρ.mark (m + k) = m' + k) :
    (d.place m').1 = (d.place m).1.rename ρ := by
  induction d generalizing m m' with
  | pair mark first rest ih₁ ih₂ =>
    simp only [Datum.place] at h ⊢
    have hle := Datum.le_place first (m + 1)
    have hle' := Datum.le_place rest (Datum.place first (m + 1)).2
    have hadd := place_add first (m + 1) (m' + 1)
    have hfirst : (Datum.place first (m' + 1)).1 = (Datum.place first (m + 1)).1.rename ρ :=
      ih₁ hd.1 fun k hk => by rw [Nat.add_assoc, h (1 + k) (by omega), Nat.add_assoc]
    have hrest : (Datum.place rest (Datum.place first (m' + 1)).2).1 =
        (Datum.place rest (Datum.place first (m + 1)).2).1.rename ρ := by
      refine ih₂ hd.2 fun k hk => ?_
      obtain ⟨j, hj⟩ := Nat.exists_eq_add_of_le (Nat.le_of_succ_le hle)
      rw [hj, Nat.add_assoc, h (j + k) (by omega)]
      omega
    rw [rename, hfirst, hrest, show ρ.mark m = m' from h 0 (by omega)]
  | string mark text => exact congrArg (string · text) (h 0 (Nat.lt_succ_self m)).symm
  | primitive | closure | absent => exact hd.elim
  | _ => rfl

/-- The renaming that renames nothing. -/
def Renaming.refl : Renaming where
  frame := id
  mark := id
  frame_injective := Function.injective_id
  mark_injective := Function.injective_id
  frame_zero := rfl

/-- A store that has the data of `ds` still to make and one in which they have been made,
with marks from `p` on, and which is the same but for marks. -/
structure Ahead (ds : List Datum) (p : Nat) (ρ : Renaming) (s t : Store) : Prop where
  frame : ρ.frame = id
  matched : Matches ρ s t
  below : (placeList ds p).2 ≤ t.fresh
  apart {m : Nat} : m < s.fresh → ρ.mark m < p ∨ (placeList ds p).2 ≤ ρ.mark m

theorem Matches.mark_lt {ρ : Renaming} {s t : Store} (h : Matches ρ s t) {m : Nat}
    (hm : m < s.fresh) : ρ.mark m < t.fresh := by
  by_contra hge
  obtain ⟨k, hk⟩ := Nat.exists_eq_add_of_le (Nat.le_of_not_lt hge)
  have heq := ρ.mark_injective ((h.fresh k).trans hk.symm)
  omega

/-- The marks of objects that are still to be made may be chosen anew. -/
theorem Matches.remark {ρ ρ' : Renaming} {s t : Store} (h : Matches ρ s t)
    (hs : Reachable limits s) (hframe : ρ'.frame = ρ.frame)
    (hmark : ∀ m < s.fresh, ρ'.mark m = ρ.mark m) {a b : Nat}
    (hk : ∀ k, ρ'.mark (a + k) = b + k) :
    Matches ρ' { s with fresh := a } { t with fresh := b } where
  frame c := by
    show t.frame (ρ'.frame c) = (s.frame c).rename ρ'
    rw [hframe, h.frame]
    rcases Nat.lt_or_ge c s.frames.size with hc | hc
    · exact (frame_rename_congr hs (fun b _ => by rw [hframe]) hmark hc).symm
    · rw [Store.frame_of_size_le hc]
      rfl
  size k := by
    rw [hframe]
    exact h.size k
  fresh := hk

theorem graft_injective_of_injOn {g : Nat → Nat} {a b : Nat}
    (hg : ∀ x < a, ∀ y < a, g x = g y → x = y) (hb : ∀ x < a, g x < b) :
    Function.Injective (graft g a b) := by
  intro x y hxy
  unfold graft at hxy
  split at hxy <;> split at hxy
  · next hx hy => exact hg x hx y hy hxy
  · next hx _ =>
    have := hb x hx
    omega
  · next _ hy =>
    have := hb y hy
    omega
  · omega

/-- Making the first datum late is finding it where it was made early. -/
theorem Ahead.place {d : Datum} {ds : List Datum} {p : Nat} {ρ : Renaming} {s t : Store}
    (h : Ahead (d :: ds) p ρ s t) (hs : Reachable limits s) (hd : d.IsPlain) :
    ∃ ρ', Ahead ds (d.place p).2 ρ' { s with fresh := (d.place s.fresh).2 } t ∧
      (d.place p).1 = (d.place s.fresh).1.rename ρ' := by
  have hbelow : (placeList ds (d.place p).2).2 ≤ t.fresh := h.below
  have hle := le_placeList ds (d.place p).2
  have hadd := place_add d p s.fresh
  have hold := Datum.le_place d s.fresh
  -- the marks of the new object go to those of the old one, and all later ones to the end
  let g := graft ρ.mark s.fresh p
  have hnew {k : Nat} : g (s.fresh + k) = p + k := graft_add _ _ _ k
  have hcases {x : Nat} (hx : x < (d.place s.fresh).2) :
      (x < s.fresh ∧ g x = ρ.mark x) ∨ ∃ k, x = s.fresh + k ∧ g x = p + k := by
    rcases Nat.lt_or_ge x s.fresh with hlt | hge
    · exact .inl ⟨hlt, graft_of_lt hlt⟩
    · obtain ⟨k, rfl⟩ := Nat.exists_eq_add_of_le hge
      exact .inr ⟨k, rfl, hnew⟩
  have hapart {x : Nat} (hx : x < s.fresh) :
      ρ.mark x < p ∨ (placeList ds (d.place p).2).2 ≤ ρ.mark x := h.apart hx
  let ρ' : Renaming :=
    { frame := id
      mark := graft g (d.place s.fresh).2 t.fresh
      frame_injective := Function.injective_id
      mark_injective := by
        refine graft_injective_of_injOn (fun x hx y hy hxy => ?_) fun x hx => ?_
        · rcases hcases hx with ⟨hx', hgx⟩ | ⟨k, rfl, hgx⟩ <;>
            rcases hcases hy with ⟨hy', hgy⟩ | ⟨j, rfl, hgy⟩ <;> rw [hgx, hgy] at hxy
          · exact ρ.mark_injective hxy
          · rcases hapart hx' with hlt | hge <;> omega
          · rcases hapart hy' with hlt | hge <;> omega
          · omega
        · rcases hcases hx with ⟨hx', hgx⟩ | ⟨k, rfl, hgx⟩
          · rw [hgx]
            exact h.matched.mark_lt hx'
          · rw [hgx]
            omega
      frame_zero := rfl }
  have hmark {x : Nat} (hx : x < (d.place s.fresh).2) : ρ'.mark x = g x := graft_of_lt hx
  have hlast (k : Nat) : ρ'.mark ((d.place s.fresh).2 + k) = t.fresh + k := graft_add _ _ _ k
  refine ⟨ρ', ⟨rfl, h.matched.remark hs h.frame.symm (fun m hm => ?_) hlast, hbelow,
    fun {x} hx => ?_⟩, ?_⟩
  · rw [hmark (Nat.lt_of_lt_of_le hm hold)]
    exact graft_of_lt hm
  · rw [hmark hx]
    rcases hcases hx with ⟨hx', hgx⟩ | ⟨k, rfl, hgx⟩
    · rw [hgx]
      rcases hapart hx' with hlt | hge <;> omega
    · have hk : s.fresh + k < (d.place s.fresh).2 := hx
      rw [hgx]
      omega
  · refine rename_place_of_lt hd fun k hk => ?_
    rw [hmark hk, hnew]

/-- **It makes no difference to evaluate data that have been made before**, but for marks. -/
theorem Ahead.evalData {ds : List Datum} {p : Nat} {ρ : Renaming} {s t : Store}
    (h : Ahead ds p ρ s t) (hs : Reachable limits s) (hf : f < s.frames.size)
    (hds : ∀ d ∈ ds, d.IsPlain) (last : Value) :
    ∃ ρ' u, ρ'.frame = id ∧
      evalValues limits f (placeList ds p).1 (last.rename ρ) t =
        ρ'.outcome (Object.rename ρ') (evalData limits f ds last s) u ∧
      Matches ρ' (Outcome.store (evalData limits f ds last s)) u := by
  induction ds generalizing p ρ s t last with
  | nil => exact ⟨ρ, t, h.frame, rfl, h.matched⟩
  | cons d ds ih =>
    obtain ⟨hd, hds⟩ := List.forall_mem_cons.1 hds
    obtain ⟨ρ', h', hv⟩ := h.place hs hd
    have hrun := (equivariant_evaluate ρ' limits.rounds limits.nesting (d.place s.fresh).1 f).asForm
    obtain ⟨u, hy, hu, hkeep⟩ := hrun _ _ h'.matched
    rw [← hv, h'.frame, id_eq] at hy
    have hnext : Reachable limits (Outcome.store (evalForm limits d f s)) := .form hs hd hf
    have hsize := (LeadsTo.form limits hd hf).size_le
    have hform : EStateM.adaptExcept Error.ofForm (evaluate limits.rounds limits.nesting
        (d.place s.fresh).1 f) { s with fresh := (d.place s.fresh).2 } = evalForm limits d f s :=
      rfl
    rw [hform] at hy hu
    simp only [placeList, evalValues, SmallScheme.evalData, bind_apply, hy]
    cases hx : evalForm limits d f s with
    | error e s' =>
      rw [hx] at hu
      exact ⟨ρ', u, h'.frame, rfl, hu⟩
    | ok v s' =>
      rw [hx] at hu hnext hsize
      refine ih ⟨h'.frame, hu, Nat.le_trans h'.below hkeep.fresh_le, fun {m} hm => ?_⟩ hnext
        (Nat.lt_of_lt_of_le hf hsize) hds v
      -- a mark is as old as the datum, or it comes after all data
      rcases Nat.lt_or_ge m (d.place s.fresh).2 with hlt | hge
      · exact h'.apart hlt
      · obtain ⟨k, rfl⟩ := Nat.exists_eq_add_of_le hge
        have hlast := h'.matched.fresh k
        have hbelow := h'.below
        simp only at hlast
        omega

theorem rename_refl (v : Value) : v.rename .refl = v := by
  induction v with
  | pair m first rest ih₁ ih₂ | closure m first rest f ih₁ ih₂ =>
    rw [rename, ih₁, ih₂]
    rfl
  | _ => rfl

/-- A store is found in itself. -/
theorem Matches.refl (s : Store) : Matches .refl s s where
  frame a := by
    have hb : Bindings.rename .refl (s.frame a).bindings = (s.frame a).bindings := by
      simp [Bindings.rename, rename_refl]
    have ho : (s.frame a).outer.map Renaming.refl.frame = (s.frame a).outer := List.map_id _
    rw [Frame.rename, hb, ho]
    rfl
  size _ := rfl
  fresh _ := rfl

/-- Before the first datum is evaluated, only the marks for the data are gone. -/
theorem exists_ahead {s : Store} (hs : Reachable limits s) (ds : List Datum) :
    ∃ ρ, Ahead ds s.fresh ρ s { s with fresh := (placeList ds s.fresh).2 } := by
  have hle := le_placeList ds s.fresh
  let ρ : Renaming :=
    { Renaming.refl with
      mark := graft id s.fresh (placeList ds s.fresh).2
      mark_injective :=
        graft_injective Function.injective_id fun x hx => Nat.lt_of_lt_of_le hx hle }
  have hmark {m : Nat} (hm : m < s.fresh) : ρ.mark m = m := graft_of_lt hm
  have hmatched : Matches ρ s { s with fresh := (placeList ds s.fresh).2 } :=
    (Matches.refl s).remark hs (show ρ.frame = _ from rfl) (fun _ hm => hmark hm) (graft_add _ _ _)
  refine ⟨ρ, rfl, hmatched, Nat.le_refl _, fun hm => .inl ?_⟩
  rwa [hmark hm]

end SmallScheme
