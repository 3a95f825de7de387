import Mathlib.Logic.Function.Basic
import SmallScheme.Proofs.Session.Renaming

/-!
# Stores side by side

All interpreters of a session work on one store, and their frames and objects are numbered in
the order in which they happen to be made. A `Home` is what an interpreter lives in: its own,
or the common one. Beside the store of the session there is, for each home, the store that its
actions alone would have led to. Each of these is found in the store of the session
(`Matches`), in frames that no two of them share but the empty one (`Quarters`).

What happens in one home changes only frames of that home, so all the others are still found
where they were; only what they make next gets other numbers (`Matches.realign`). So the
homes stay side by side when one of them advances or is newly made (`Quarters.advance`).
-/

namespace SmallScheme

open Object Moment

/-! ### Numbers for what is made next -/

/-- The numbers below `a` as `g` gives them, and those from `a` on counted from `b` on. -/
def graft (g : Nat → Nat) (a b x : Nat) : Nat := if x < a then g x else b + (x - a)

theorem graft_of_lt {g : Nat → Nat} {a b x : Nat} (h : x < a) : graft g a b x = g x := if_pos h

theorem graft_add (g : Nat → Nat) (a b k : Nat) : graft g a b (a + k) = b + k := by
  rw [graft, if_neg (Nat.not_lt.2 (Nat.le_add_right a k)), Nat.add_sub_cancel_left]

theorem graft_injective {g : Nat → Nat} {a b : Nat} (hg : Function.Injective g)
    (hb : ∀ x < a, g x < b) : Function.Injective (graft g a b) := by
  intro x y hxy
  unfold graft at hxy
  split at hxy <;> split at hxy
  · exact hg hxy
  · next hx _ =>
    have := hb x hx
    omega
  · next _ hy =>
    have := hb y hy
    omega
  · omega

/-! ### A store found in another that has grown -/

/-- A value is renamed as its parts are. -/
theorem rename_congr {ρ ρ' : Renaming} {v : Value}
    (hm : ∀ p ∈ v.parts, ∀ m, p.mark? = some m → ρ'.mark m = ρ.mark m)
    (hf : ∀ m params forms f, .closure m params forms f ∈ v.parts → ρ'.frame f = ρ.frame f) :
    v.rename ρ' = v.rename ρ := by
  induction v with
  | pair m first rest ih₁ ih₂ =>
    rw [rename, rename, hm _ (self_mem_parts _) m rfl]
    simp only [parts, List.mem_cons, List.mem_append] at hm hf
    rw [ih₁ (fun p hp => hm p (.inr (.inl hp))) fun m ps fs f hp => hf m ps fs f (.inr (.inl hp)),
      ih₂ (fun p hp => hm p (.inr (.inr hp))) fun m ps fs f hp => hf m ps fs f (.inr (.inr hp))]
  | closure m params forms f ih₁ ih₂ =>
    rw [rename, rename, hm _ (self_mem_parts _) m rfl, hf _ _ _ _ (self_mem_parts _)]
    simp only [parts, List.mem_cons, List.mem_append] at hm hf
    rw [ih₁ (fun p hp => hm p (.inr (.inl hp))) fun m ps fs f hp => hf m ps fs f (.inr (.inl hp)),
      ih₂ (fun p hp => hm p (.inr (.inr hp))) fun m ps fs f hp => hf m ps fs f (.inr (.inr hp))]
  | string m text => rw [rename, rename, hm _ (self_mem_parts _) m rfl]
  | primitive m p => rw [rename, rename, hm _ (self_mem_parts _) m rfl]
  | _ => rfl

/-- A frame between two forms mentions only frames and marks that are there. -/
theorem frame_rename_congr {limits : Limits} {s : Store} (h : Reachable limits s) {ρ ρ' : Renaming}
    (hf : ∀ a < s.frames.size, ρ'.frame a = ρ.frame a) (hm : ∀ m < s.fresh, ρ'.mark m = ρ.mark m)
    {g : FrameId} (hg : g < s.frames.size) : (s.frame g).rename ρ' = (s.frame g).rename ρ := by
  obtain ⟨S, hs⟩ := h.exists_steps
  have hsound := hs.isSound isSound_start
  have hcoherent := hs.isCoherent isCoherent_start
  have hvalue {n : Symbol} {v : Value} (hv : (n, v) ∈ (s.frame g).bindings) :
      v.rename ρ' = v.rename ρ := by
    have hpart {p : Value} (hp : p ∈ v.parts) : p ∈ S :=
      hsound.complete.part (hsound.complete.bound hv) hp
    refine rename_congr (fun p hp m hpm => hm m (hcoherent.mark_lt (hpart hp) hpm)) ?_
    intro m params forms f hp
    exact hf f (hsound.wellMade (hpart hp)).2.2
  have houter {f : FrameId} (hmem : f ∈ (s.frame g).outer) : f < s.frames.size := by
    have hchain := (hsound.forest.chain hg).1
    exact Nat.lt_trans ((List.pairwise_cons.1 hchain).1 f hmem) hg
  simp only [Frame.rename, Bindings.rename]
  rw [List.map_congr_left fun f hmem => hf f (houter hmem),
    List.map_congr_left fun b hb => congrArg (Prod.mk b.1) (hvalue hb)]

/-- A store that is found in another is found there still when the other has grown, as long as
its frames have been left alone. -/
theorem Matches.realign {limits : Limits} {ρ : Renaming} {s t u : Store} (hs : Reachable limits s)
    (h : Matches ρ s t) (hsize : t.frames.size ≤ u.frames.size) (hfresh : t.fresh ≤ u.fresh)
    (hframe : ∀ a < s.frames.size, u.frame (ρ.frame a) = t.frame (ρ.frame a)) :
    ∃ ρ' : Renaming, Matches ρ' s u ∧ ∀ a < s.frames.size, ρ'.frame a = ρ.frame a := by
  have hlt : ∀ a < s.frames.size, ρ.frame a < u.frames.size :=
    fun a ha => Nat.lt_of_lt_of_le ((h.lt_iff a).2 ha) hsize
  have hmark : ∀ m < s.fresh, ρ.mark m < u.fresh := by
    intro m hm
    refine Nat.lt_of_lt_of_le ?_ hfresh
    by_contra hge
    obtain ⟨k, hk⟩ := Nat.exists_eq_add_of_le (Nat.le_of_not_lt hge)
    have heq := ρ.mark_injective ((h.fresh k).trans hk.symm)
    omega
  have hzero : 0 < s.frames.size := hs.isSound.exists_empty
  let ρ' : Renaming :=
    { frame := graft ρ.frame s.frames.size u.frames.size
      mark := graft ρ.mark s.fresh u.fresh
      frame_injective := graft_injective ρ.frame_injective hlt
      mark_injective := graft_injective ρ.mark_injective hmark
      frame_zero := (graft_of_lt hzero).trans ρ.frame_zero }
  have hold : ∀ a < s.frames.size, ρ'.frame a = ρ.frame a := fun a ha => graft_of_lt ha
  refine ⟨ρ', ⟨fun g => ?_, fun k => graft_add _ _ _ k, fun k => graft_add _ _ _ k⟩, hold⟩
  rcases Nat.lt_or_ge g s.frames.size with hg | hg
  · rw [hold g hg, hframe g hg, h.frame,
      frame_rename_congr hs hold (fun m hm => graft_of_lt hm) hg]
  · obtain ⟨k, rfl⟩ := Nat.exists_eq_add_of_le hg
    rw [show ρ'.frame (s.frames.size + k) = u.frames.size + k from graft_add _ _ _ k]
    simp [Store.frame, Frame.rename, Bindings.rename]

/-! ### Homes -/

/-- What an interpreter lives in. -/
inductive Home where
  /-- The home of all interpreters that are not isolated. -/
  | common
  /-- The home of the isolated interpreter with the given number. -/
  | own (i : Nat)
  deriving DecidableEq

/-- The home that a new interpreter gets; those of the others are given. -/
def Home.ofNew (homes : List Home) (isolated : Bool) : Home :=
  if isolated then own homes.length else common

/-- The stores that the homes would have if each were alone are found in the store `t`, in
frames that no two of them share but the empty one. -/
structure Quarters (limits : Limits) (solo : Home → Option Store) (ρ : Home → Renaming)
    (t : Store) : Prop where
  reachable {h : Home} {s : Store} : solo h = some s → Reachable limits s
  global {h : Home} {s : Store} : solo h = some s → Store.global < s.frames.size
  matched {h : Home} {s : Store} : solo h = some s → Matches (ρ h) s t
  apart {h h' : Home} {s s' : Store} {a b : FrameId} : h ≠ h' → solo h = some s →
    solo h' = some s' → a < s.frames.size → b < s'.frames.size →
      (ρ h).frame a = (ρ h').frame b → a = Store.empty

/-- The frames of the home `h` are apart from those of `ρ` below `size`. -/
def Apart (solo : Home → Option Store) (ρ : Home → Renaming) (h₀ : Home) (ρ₀ : Renaming)
    (size : Nat) : Prop :=
  ∀ h s a b, h ≠ h₀ → solo h = some s → a < s.frames.size → b < size →
    (ρ h).frame a = ρ₀.frame b → a = Store.empty

section Advance

variable {limits : Limits} {solo : Home → Option Store} {ρ : Home → Renaming} {t u s₀ s₁ : Store}
  {h₀ : Home} {ρ₀ : Renaming}

/-- What happens in one home leaves the frames of the others alone. -/
theorem Quarters.frame_eq (q : Quarters limits solo ρ t) (hr₀ : Reachable limits s₀)
    (hr₁ : Reachable limits s₁) (hm₀ : Matches ρ₀ s₀ t) (hm₁ : Matches ρ₀ s₁ u)
    (hk : Keeps ρ₀ t u) (ha : Apart solo ρ h₀ ρ₀ s₀.frames.size) {h : Home} {s : Store}
    (hne : h ≠ h₀) (hs : solo h = some s) {a : FrameId} (hlt : a < s.frames.size) :
    u.frame ((ρ h).frame a) = t.frame ((ρ h).frame a) := by
  have hsize : (ρ h).frame a < t.frames.size := ((q.matched hs).lt_iff a).2 hlt
  by_cases hmeet : ∃ b, ρ₀.frame b = (ρ h).frame a
  · -- only the empty frame belongs to both, and it is empty all the time
    obtain ⟨b, hb⟩ := hmeet
    have hb₀ : b < s₀.frames.size := (hm₀.lt_iff b).1 (hb ▸ hsize)
    obtain rfl := ha h s a b hne hs hlt hb₀ hb.symm
    have hzero : (ρ h).frame Store.empty = ρ₀.frame Store.empty :=
      (ρ h).frame_zero.trans ρ₀.frame_zero.symm
    rw [hzero, hm₁.frame, hm₀.frame, hr₀.isSound.frame_empty, hr₁.isSound.frame_empty]
  · exact hk.frame hsize fun b hb => hmeet ⟨b, hb⟩

theorem eq_or_of_update {h : Home} {s : Store}
    (hs : Function.update solo h₀ (some s₁) h = some s) :
    h = h₀ ∧ s = s₁ ∨ h ≠ h₀ ∧ solo h = some s := by
  by_cases hh : h = h₀
  · subst hh
    rw [Function.update_self] at hs
    exact .inl ⟨rfl, (Option.some.inj hs).symm⟩
  · rw [Function.update_of_ne hh] at hs
    exact .inr ⟨hh, hs⟩

/-- **One home advances**, or is newly made: the other homes stay where they are. -/
theorem Quarters.advance (q : Quarters limits solo ρ t) (h₀ : Home) (hr₀ : Reachable limits s₀)
    (hr₁ : Reachable limits s₁) (hg : Store.global < s₁.frames.size) (hm₀ : Matches ρ₀ s₀ t)
    (hm₁ : Matches ρ₀ s₁ u) (hk : Keeps ρ₀ t u) (ha : Apart solo ρ h₀ ρ₀ s₀.frames.size) :
    ∃ ρ', Quarters limits (Function.update solo h₀ (some s₁)) ρ' u ∧ ρ' h₀ = ρ₀ ∧
      ∀ h s, h ≠ h₀ → solo h = some s → ∀ a < s.frames.size, (ρ' h).frame a = (ρ h).frame a := by
  have hexists (h : Home) : ∃ r : Renaming, (h = h₀ → r = ρ₀) ∧ (h ≠ h₀ → ∀ s, solo h = some s →
      Matches r s u ∧ ∀ a < s.frames.size, r.frame a = (ρ h).frame a) := by
    by_cases hh : h = h₀
    · exact ⟨ρ₀, fun _ => rfl, fun hne => absurd hh hne⟩
    · cases hs : solo h with
      | none => exact ⟨ρ₀, fun _ => rfl, fun _ s hs => nomatch hs⟩
      | some s =>
        obtain ⟨r, hr, hold⟩ := (q.matched hs).realign (q.reachable hs) hk.size_le hk.fresh_le
          fun a hlt => q.frame_eq hr₀ hr₁ hm₀ hm₁ hk ha hh hs hlt
        exact ⟨r, fun heq => absurd heq hh, fun _ s' hs' => Option.some.inj hs' ▸ ⟨hr, hold⟩⟩
  choose ρ' hρ₀ hρ' using hexists
  -- a frame of another home is an old one, and a frame of `h₀` is old or was not there before
  have hcross {h : Home} {s : Store} {a b : FrameId} (hne : h ≠ h₀) (hs : solo h = some s)
      (hlt : a < s.frames.size) (heq : (ρ' h).frame a = ρ₀.frame b) : a = Store.empty := by
    rw [(hρ' h hne s hs).2 a hlt] at heq
    have hb : b < s₀.frames.size :=
      (hm₀.lt_iff b).1 (heq ▸ ((q.matched hs).lt_iff a).2 hlt)
    exact ha h s a b hne hs hlt hb heq
  refine ⟨ρ', ⟨?_, ?_, ?_, ?_⟩, hρ₀ h₀ rfl, fun h s hne hs => (hρ' h hne s hs).2⟩
  · intro h s hs
    rcases eq_or_of_update hs with ⟨rfl, rfl⟩ | ⟨-, hs⟩
    · exact hr₁
    · exact q.reachable hs
  · intro h s hs
    rcases eq_or_of_update hs with ⟨rfl, rfl⟩ | ⟨-, hs⟩
    · exact hg
    · exact q.global hs
  · intro h s hs
    rcases eq_or_of_update hs with ⟨rfl, rfl⟩ | ⟨hh, hs⟩
    · rw [hρ₀ h rfl]
      exact hm₁
    · exact (hρ' h hh s hs).1
  · intro h h' s s' a b hne hs hs' hlt hlt' heq
    rcases eq_or_of_update hs with ⟨rfl, rfl⟩ | ⟨hh, hold⟩ <;>
      rcases eq_or_of_update hs' with ⟨rfl, rfl⟩ | ⟨hh', hold'⟩
    · exact absurd rfl hne
    · -- the frame of the other home is the empty one, so this one is too
      rw [hρ₀ h rfl] at heq
      obtain rfl := hcross hne.symm hold' hlt' heq.symm
      exact ρ₀.frame_injective (heq.trans ((ρ' h').frame_zero.trans ρ₀.frame_zero.symm))
    · rw [hρ₀ h' rfl] at heq
      exact hcross hh hold hlt heq
    · rw [(hρ' h hh s hold).2 a hlt, (hρ' h' hh' s' hold').2 b hlt'] at heq
      exact q.apart hne hold hold' hlt hlt' heq

end Advance

/-! ### A new home -/

/-- A store in which nothing has been made is found in every other. -/
theorem exists_matches_bare {t : Store} (h : t.IsForest) : ∃ ρ : Renaming, Matches ρ .bare t := by
  let ρ : Renaming :=
    { frame := graft id 1 t.frames.size
      mark := graft id 0 t.fresh
      frame_injective := graft_injective Function.injective_id fun x hx =>
        Nat.lt_one_iff.1 hx ▸ h.exists_empty
      mark_injective := graft_injective Function.injective_id fun x hx =>
        absurd hx (Nat.not_lt_zero x)
      frame_zero := graft_of_lt Nat.zero_lt_one }
  refine ⟨ρ, fun g => ?_, graft_add id 1 t.frames.size, graft_add id 0 t.fresh⟩
  rw [frame_bare]
  rcases Nat.lt_or_ge g 1 with hg | hg
  · rw [Nat.lt_one_iff.1 hg, ρ.frame_zero]
    exact h.frame_empty
  · obtain ⟨k, rfl⟩ := Nat.exists_eq_add_of_le hg
    rw [show ρ.frame (1 + k) = t.frames.size + k from graft_add _ _ _ k]
    simp [Store.frame, Frame.rename, Bindings.rename]

theorem Matches.addGlobal {ρ : Renaming} {s t : Store} (h : Matches ρ s t) :
    Matches ρ s.addGlobal.2 t.addGlobal.2 := by
  have hpush := (h.addFresh Primitive.all.length).push Store.empty
    (.primitives s.fresh Primitive.all)
  rw [Bindings.primitives_rename h.fresh, show ρ.frame Store.empty = Store.empty from ρ.frame_zero]
    at hpush
  exact hpush

theorem Keeps.addGlobal (ρ : Renaming) (t : Store) : Keeps ρ t t.addGlobal.2 :=
  .trans (.withFresh (Nat.le_add_right _ _)) (.push ρ _ _ _)

end SmallScheme
