import SmallScheme.Proofs.Session.Quarters

/-!
# Isolated interpreters

An isolated interpreter gets the answers that it would get in a session of its own, and the
interpreters that are not isolated get those of a single one.

The session goes along with one store for each home, that of a session in which the home is
alone (`Houses`). A new interpreter gets a home without any other hearing of it
(`Houses.enrol`), and an action is answered as if its home were alone (`Houses.act`). So all
that is ever said in a home is what is said there when it is alone
(`Houses.talk_eq_converse`).
-/

namespace SmallScheme

/-! ### Conversations -/

/-- What is said in a home that is alone: the actions, each with its answer. -/
def converse (limits : Limits) : List Action → Store → List (Action × Answer)
  | [], _ => []
  | action :: actions, s =>
    let (answer, t) := action.perform limits s
    (action, answer) :: converse limits actions t

/-- The actions among some requests that are addressed to a home. The homes of the interpreters
there are already are given. -/
def actionsTo (h : Home) : List Home → List Request → List Action
  | _, [] => []
  | homes, .new isolated :: rs => actionsTo h (homes ++ [.ofNew homes isolated]) rs
  | homes, .act i action :: rs =>
    if homes[i]? = some h then action :: actionsTo h homes rs else actionsTo h homes rs
  | homes, .same _ _ :: rs => actionsTo h homes rs

/-- What is said in a home in the course of a session: the actions that are addressed to it,
each with its answer. -/
def talk (h : Home) : List Home → List (Request × Answer) → List (Action × Answer)
  | _, [] => []
  | homes, (.new isolated, _) :: rest => talk h (homes ++ [.ofNew homes isolated]) rest
  | homes, (.act i action, answer) :: rest =>
    if homes[i]? = some h then (action, answer) :: talk h homes rest else talk h homes rest
  | homes, (.same _ _, _) :: rest => talk h homes rest

/-- The requests of a session with their answers. -/
def Session.dialogue (limits : Limits) (σ : Session) (rs : List Request) :
    List (Request × Answer) :=
  rs.zip (σ.run limits rs).1

/-- The interpreters of a session live in the given homes, and each home has the store that it
would have alone. -/
structure Houses (limits : Limits) (homes : List Home) (solo : Home → Option Store)
    (ρ : Home → Renaming) (σ : Session) : Prop where
  quarters : Quarters limits solo ρ σ.store
  store : Reachable limits σ.store
  seats : σ.seats = homes.map fun h => (ρ h).frame Store.global
  common : σ.common = (solo .common).map fun _ => (ρ .common).frame Store.global
  living {h : Home} : h ∈ homes → solo h ≠ none
  owned {i : Nat} : solo (.own i) ≠ none → i < homes.length

namespace Houses

variable {limits : Limits} {homes : List Home} {solo : Home → Option Store} {ρ ρ' : Home → Renaming}
  {σ : Session} {h₀ : Home}

/-- The frames of the interpreters stay the same when one home advances. -/
theorem global_eq (H : Houses limits homes solo ρ σ)
    (hold : ∀ h s, h ≠ h₀ → solo h = some s →
      ∀ a < s.frames.size, (ρ' h).frame a = (ρ h).frame a) {h : Home} (hne : h ≠ h₀)
    (hsome : solo h ≠ none) : (ρ' h).frame Store.global = (ρ h).frame Store.global := by
  obtain ⟨s, hs⟩ := Option.ne_none_iff_exists'.1 hsome
  exact hold h s hne hs _ (H.quarters.global hs)

/-- An action is answered as if its home were alone. -/
theorem act (H : Houses limits homes solo ρ σ) {s : Store} (hs : solo h₀ = some s)
    (action : Action) :
    (action.perform limits σ.store ((ρ h₀).frame Store.global)).1 = (action.perform limits s).1 ∧
      ∃ ρ', Houses limits homes (Function.update solo h₀ (some (action.perform limits s).2)) ρ'
        { σ with store := (action.perform limits σ.store ((ρ h₀).frame Store.global)).2 } := by
  have q := H.quarters
  have htracks := tracks_perform limits action (q.matched hs) Store.global
  have hsolo := leadsTo_perform limits action (q.global hs)
  have hshared := leadsTo_perform limits action (((q.matched hs).lt_iff _).2 (q.global hs))
  refine ⟨htracks.answer, ?_⟩
  obtain ⟨ρ', q', hρ₀, hold⟩ := q.advance h₀ (q.reachable hs)
    (hsolo.reachable (q.reachable hs)) (Nat.lt_of_lt_of_le (q.global hs) hsolo.size_le)
    (q.matched hs) htracks.store htracks.keeps
    fun h s' a b hne hs' ha hb heq => q.apart hne hs' hs ha hb heq
  have hglobal {h : Home} (hsome : solo h ≠ none) :
      (ρ' h).frame Store.global = (ρ h).frame Store.global := by
    by_cases hh : h = h₀
    · rw [hh, hρ₀]
    · exact H.global_eq hold hh hsome
  have hlives {h : Home} :
      Function.update solo h₀ (some (action.perform limits s).2) h ≠ none ↔ solo h ≠ none := by
    by_cases hh : h = h₀
    · subst hh
      simp [hs]
    · rw [Function.update_of_ne hh]
  refine ⟨ρ', q', hshared.reachable H.store, ?_, ?_, fun hh => hlives.2 (H.living hh),
    fun hi => H.owned (hlives.1 hi)⟩
  · rw [H.seats]
    exact List.map_congr_left fun h hh => (hglobal (H.living hh)).symm
  · rw [H.common]
    cases hc : solo .common with
    | none =>
      have hne : Home.common ≠ h₀ := by
        rintro rfl
        cases hs.symm.trans hc
      rw [Function.update_of_ne hne, hc]
      rfl
    | some s' =>
      have hsome : solo .common ≠ none := by simp [hc]
      obtain ⟨s'', hs''⟩ := Option.ne_none_iff_exists'.1 (hlives.2 hsome)
      rw [hs'', hglobal hsome]
      rfl

/-- A home that is not there yet is made for a new interpreter. -/
theorem settle (H : Houses limits homes solo ρ σ) (hnone : solo h₀ = none)
    (hown : ∀ i, h₀ = .own i → i = homes.length) :
    ∃ ρ', Houses limits (homes ++ [h₀]) (Function.update solo h₀ (some .initial)) ρ'
      { store := σ.store.addGlobal.2
        common := if h₀ = .common then some σ.store.frames.size else σ.common
        seats := σ.seats ++ [σ.store.frames.size] } := by
  obtain ⟨ρ₀, hm₀⟩ := exists_matches_bare H.store.isSound.toIsForest
  have hseat : ρ₀.frame Store.global = σ.store.frames.size := hm₀.size 0
  obtain ⟨ρ', q', hρ₀, hold⟩ := H.quarters.advance h₀ .bare (.addGlobal .bare)
    (show Store.global < Store.initial.frames.size by decide) hm₀ hm₀.addGlobal
    (.addGlobal ρ₀ σ.store) (by
      -- the new home has only the empty frame yet
      intro h s a b _ _ _ hb heq
      rw [Nat.lt_one_iff.1 hb, ρ₀.frame_zero, ← (ρ h).frame_zero] at heq
      exact (ρ h).frame_injective heq)
  have hne {h : Home} (hsome : solo h ≠ none) : h ≠ h₀ := by
    rintro rfl
    exact hsome hnone
  refine ⟨ρ', q', .addGlobal H.store, ?_, ?_, ?_, ?_⟩
  · have hseats : σ.seats = homes.map fun h => (ρ' h).frame Store.global :=
      H.seats.trans (List.map_congr_left fun h hh =>
        (H.global_eq hold (hne (H.living hh)) (H.living hh)).symm)
    rw [List.map_append, List.map_singleton, hρ₀, hseat, ← hseats]
  · by_cases hc : h₀ = .common
    · subst hc
      simp only [if_true, Function.update_self, Option.map_some, hρ₀, hseat]
    · rw [if_neg hc, Function.update_of_ne (Ne.symm hc), H.common]
      cases hs : solo .common with
      | none => rfl
      | some s =>
        rw [Option.map_some, Option.map_some, H.global_eq hold (Ne.symm hc) (by simp [hs])]
  · intro h hh
    rcases List.mem_append.1 hh with hh | hh
    · rw [Function.update_of_ne (hne (H.living hh))]
      exact H.living hh
    · rw [List.mem_singleton.1 hh, Function.update_self]
      exact Option.some_ne_none _
  · intro i hi
    rw [List.length_append]
    by_cases hh : Home.own i = h₀
    · rw [hown i hh.symm]
      exact Nat.lt_succ_self _
    · rw [Function.update_of_ne hh] at hi
      exact Nat.lt_succ_of_lt (H.owned hi)

/-- A new interpreter gets a home, and no home hears of it. -/
theorem enrol (H : Houses limits homes solo ρ σ) (isolated : Bool) :
    ∃ solo' ρ', Houses limits (homes ++ [.ofNew homes isolated]) solo' ρ' (σ.enrol isolated) ∧
      ∀ h, (solo' h).getD .initial = (solo h).getD .initial := by
  have hkept {h₀ : Home} (hnone : solo h₀ = none) (h : Home) :
      (Function.update solo h₀ (some .initial) h).getD .initial = (solo h).getD .initial := by
    by_cases hh : h = h₀
    · rw [hh, Function.update_self, hnone]
      rfl
    · rw [Function.update_of_ne hh]
  cases isolated with
  | true =>
    have hnone : solo (.own homes.length) = none := by
      by_contra hsome
      exact Nat.lt_irrefl _ (H.owned hsome)
    obtain ⟨ρ', H'⟩ := H.settle hnone fun i hi => (Home.own.inj hi).symm
    exact ⟨_, ρ', H', hkept hnone⟩
  | false =>
    cases hs : solo .common with
    | none =>
      obtain ⟨ρ', H'⟩ := H.settle hs nofun
      have hcommon : σ.common = none := by rw [H.common, hs, Option.map_none]
      refine ⟨_, ρ', ?_, hkept hs⟩
      unfold Session.enrol
      rw [hcommon]
      exact H'
    | some s =>
      have hcommon : σ.common = some ((ρ .common).frame Store.global) := by
        rw [H.common, hs, Option.map_some]
      refine ⟨solo, ρ, ?_, fun _ => rfl⟩
      unfold Session.enrol
      rw [hcommon]
      refine ⟨H.quarters, H.store, ?_, hcommon.symm.trans H.common, ?_, ?_⟩
      · rw [List.map_append, ← H.seats]
        rfl
      · intro h hh
        rcases List.mem_append.1 hh with hh | hh
        · exact H.living hh
        · rw [List.mem_singleton.1 hh]
          exact fun hnone => nomatch hs.symm.trans hnone
      · intro i hi
        rw [List.length_append]
        exact Nat.lt_succ_of_lt (H.owned hi)

/-- **What is said in a home** is what is said there when the home is alone. -/
theorem talk_eq_converse (H : Houses limits homes solo ρ σ) (h : Home) (rs : List Request) :
    talk h homes (σ.dialogue limits rs) =
      converse limits (actionsTo h homes rs) ((solo h).getD .initial) := by
  induction rs generalizing homes solo ρ σ with
  | nil => rfl
  | cons r rs ih =>
    cases r with
    | new isolated =>
      obtain ⟨solo', ρ', H', hkept⟩ := H.enrol isolated
      exact (ih H').trans (by rw [hkept h]; rfl)
    | same i j =>
      have hstep : (σ.step limits (.same i j)).2 = σ := by
        rw [Session.step]
        split <;> rfl
      simp only [Session.dialogue, Session.run, hstep, List.zip_cons_cons, talk, actionsTo]
      exact ih H
    | act i action =>
      cases hi : homes[i]? with
      | none =>
        have hstep : (σ.step limits (.act i action)).2 = σ := by
          rw [Session.step, H.seats, List.getElem?_map, hi]
          rfl
        simp only [Session.dialogue, Session.run, hstep, List.zip_cons_cons, talk, actionsTo, hi]
        exact ih H
      | some h₀ =>
        obtain ⟨s, hs⟩ := Option.ne_none_iff_exists'.1 (H.living (List.mem_of_getElem? hi))
        obtain ⟨hanswer, ρ', H'⟩ := H.act hs action
        have hstep : σ.step limits (.act i action) = ((action.perform limits s).1,
            { σ with store := (action.perform limits σ.store ((ρ h₀).frame Store.global)).2 }) := by
          rw [← hanswer, Session.step, H.seats, List.getElem?_map, hi]
          rfl
        simp only [Session.dialogue, Session.run, hstep, List.zip_cons_cons, talk, actionsTo, hi]
        have hrest := ih H'
        by_cases hh : h₀ = h
        · subst hh
          rw [Function.update_self] at hrest
          simp only [if_true, hs, Option.getD_some, converse]
          exact congrArg _ hrest
        · rw [Function.update_of_ne (Ne.symm hh)] at hrest
          simp only [Option.some.injEq, hh, if_false]
          exact hrest

/-- At the start there are no homes. -/
theorem start (limits : Limits) : ∃ ρ, Houses limits [] (fun _ => none) ρ {} := by
  have hbare : Reachable limits .bare := .bare
  obtain ⟨ρ, -⟩ := exists_matches_bare hbare.isSound.toIsForest
  exact ⟨fun _ => ρ, ⟨nofun, nofun, nofun, nofun⟩, hbare, rfl, rfl, nofun, fun h => absurd rfl h⟩

end Houses

/-- What is said in a home depends on nothing but the actions that are addressed to it. -/
theorem talk_dialogue (limits : Limits) (h : Home) (rs : List Request) :
    talk h [] (Session.dialogue limits {} rs) = converse limits (actionsTo h [] rs) .initial := by
  obtain ⟨ρ, H⟩ := Houses.start limits
  exact H.talk_eq_converse h rs

/-! ### Sessions with fewer interpreters -/

/-- A request creates an interpreter or is addressed to the one with the number `i`. -/
def Request.concerns (i : Nat) : Request → Bool
  | .new _ => true
  | .act j _ => j == i
  | .same _ _ => false

/-- The number of an isolated interpreter is that of its home. -/
def Numbered (homes : List Home) : Prop :=
  ∀ i j : Nat, homes[j]? = some (Home.own i) → j = i

theorem Numbered.append_ofNew {homes : List Home} (hn : Numbered homes) (isolated : Bool) :
    Numbered (homes ++ [.ofNew homes isolated]) := by
  intro i j hj
  rcases Nat.lt_or_ge j homes.length with hlt | hge
  · rw [List.getElem?_append_left hlt] at hj
    exact hn i j hj
  · rw [List.getElem?_append_right hge, List.getElem?_singleton] at hj
    split at hj
    · next hzero =>
      cases isolated with
      | false => cases hj
      | true =>
        cases hj
        omega
    · cases hj

/-- Requests to others address no action to the home of an isolated interpreter. -/
theorem actionsTo_filter_concerns (i : Nat) {homes : List Home} (hn : Numbered homes)
    (rs : List Request) :
    actionsTo (.own i) homes (rs.filter (Request.concerns i)) = actionsTo (.own i) homes rs := by
  induction rs generalizing homes with
  | nil => rfl
  | cons r rs ih =>
    cases r with
    | new isolated => exact ih (hn.append_ofNew isolated)
    | same j k => exact ih hn
    | act j action =>
      by_cases hj : j = i
      · subst hj
        rw [List.filter_cons_of_pos (by simp [Request.concerns]), actionsTo, actionsTo, ih hn]
      · have helse : homes[j]? ≠ some (.own i) := fun h => hj (hn i j h)
        rw [List.filter_cons_of_neg (by simp [Request.concerns, hj]), actionsTo, if_neg helse,
          ih hn]

/-- All actions go to the home of a single interpreter. -/
theorem actionsTo_single (h : Home) (actions : List Action) :
    actionsTo h [h] (actions.map (.act 0)) = actions := by
  induction actions with
  | nil => rfl
  | cons action actions ih =>
    rw [List.map_cons, actionsTo, if_pos (by rfl), ih]

/-- **Isolated interpreters do not interfere, and the others are one.** In every session an
isolated interpreter is told the same as when all actions of the other interpreters are left
out, and the same as when there are no other interpreters at all. The interpreters that are not
isolated are together told the same as a single one that gets the actions of all of them. -/
theorem isolation_of_sessions (limits : Limits) (rs : List Request) :
    (∀ i, talk (.own i) [] (Session.dialogue limits {} rs) =
        talk (.own i) [] (Session.dialogue limits {} (rs.filter (Request.concerns i))) ∧
      talk (.own i) [] (Session.dialogue limits {} rs) =
        talk (.own 0) [] (Session.dialogue limits {}
          (.new true :: (actionsTo (.own i) [] rs).map (.act 0)))) ∧
    talk .common [] (Session.dialogue limits {} rs) =
      talk .common [] (Session.dialogue limits {}
        (.new false :: (actionsTo .common [] rs).map (.act 0))) := by
  simp only [talk_dialogue, actionsTo, List.nil_append, Home.ofNew, List.length_nil, if_true]
  refine ⟨fun i => ⟨?_, ?_⟩, ?_⟩
  · rw [actionsTo_filter_concerns i (by nofun)]
  · rw [actionsTo_single]
  · exact congrArg (converse limits · _) (actionsTo_single .common _).symm

end SmallScheme
