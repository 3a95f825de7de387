import SmallScheme.Proofs.Evaluation.Calls
import SmallScheme.Proofs.Reader.Yield
import SmallScheme.Proofs.Store.Invariants
import SmallScheme.Session

/-!
# The history of a session

Between two forms a session holds a store that has come about in two ways only: frames of
primitives have been made, and data from the reader have been evaluated as forms
(`Reachable`). Texts, files and the interactive loop are sequences of forms, so every request
leads from such a store to such a store (`Session.isReachable_run`).

All of this is history in the sense of `Moment.Steps`, and begins at a moment when there are
no objects but those that are never made (`Reachable.exists_steps`).
-/

namespace SmallScheme

open Object Sequencing Moment Evaluation Relation

/-! ### The start -/

namespace Moment

/-- The moment before anything is made. -/
def start : Moment := ⟨{v | v.mark? = none ∧ v.IsWellMade 0}, .bare⟩

theorem frame_bare (f : FrameId) : Store.bare.frame f = {} := by
  cases f <;> rfl

theorem isComplete_start : start.IsComplete where
  unmarked hm hv := ⟨hm, hv⟩
  component {v c} hv hc := by
    obtain ⟨hm, -⟩ := hv
    cases v <;> simp_all [mark?, components]
  bound {f n v} hv := by
    rw [start, frame_bare] at hv
    cases hv

theorem isSound_start : start.IsSound where
  complete := isComplete_start
  wellMade hv := hv.2.mono (Nat.zero_le _)
  forest :=
    { exists_empty := Nat.zero_lt_one
      frame_empty := rfl
      outer := fun hf he => absurd (Nat.lt_one_iff.1 hf) he }

theorem isCoherent_start : start.IsCoherent where
  mark_lt hv hm := by
    cases hv.1.symm.trans hm
  unique hu _ hm _ := by
    cases hu.1.symm.trans hm

end Moment

/-! ### A frame of primitives -/

theorem mem_primitives {m : Nat} {ps : List Primitive} {b : Symbol × Value}
    (h : b ∈ Bindings.primitives m ps) :
    ∃ i p, ps[i]? = some p ∧ b.2 = .primitive (m + i) p := by
  induction ps generalizing m with
  | nil => cases h
  | cons q ps ih =>
    rcases List.mem_cons.1 h with rfl | h
    · exact ⟨0, q, rfl, rfl⟩
    · obtain ⟨i, p, hp, hb⟩ := ih h
      exact ⟨i + 1, p, hp, by rw [hb, Nat.add_assoc, Nat.add_comm 1]⟩

theorem canMake_primitives (w : Moment) (ps : List Primitive) :
    w.CanMake {v | ∃ b ∈ Bindings.primitives w.store.fresh ps, v = b.2} ps.length where
  mark := by
    rintro v ⟨b, hb, rfl⟩
    obtain ⟨i, p, hp, hv⟩ := mem_primitives hb
    have hi : i < ps.length := (List.getElem?_eq_some_iff.1 hp).1
    exact ⟨_, by rw [hv]; rfl, by omega, by omega⟩
  unique := by
    rintro u v m ⟨b, hb, rfl⟩ ⟨c, hc, rfl⟩ hu hv
    obtain ⟨i, p, hp, hbv⟩ := mem_primitives hb
    obtain ⟨j, q, hq, hcv⟩ := mem_primitives hc
    rw [hbv, mark?, Option.some.injEq] at hu
    rw [hcv, mark?, Option.some.injEq] at hv
    obtain rfl : i = j := by omega
    rw [hbv, hcv, Option.some.inj (hp.symm.trans hq)]
  component := by
    rintro v c ⟨b, hb, rfl⟩ hc
    obtain ⟨i, p, -, hv⟩ := mem_primitives hb
    rw [hv] at hc
    cases hc
  wellMade := by
    rintro v ⟨b, hb, rfl⟩
    obtain ⟨i, p, -, hv⟩ := mem_primitives hb
    rw [hv]
    trivial

/-- A new frame of primitives: the primitives are made, and then the frame. -/
theorem steps_addGlobal (allowed : FrameId → Symbol → Prop) (w : Moment) :
    ∃ S, Steps allowed w ⟨S, w.store.addGlobal.2⟩ := by
  refine ⟨_, .tail (.single (.make (canMake_primitives w Primitive.all)))
    (.push (f := Store.empty) (fun b hb => ?_) (.inl rfl))⟩
  exact .inr ⟨b, hb, rfl⟩

/-! ### A form -/

theorem follows_place (allowed : FrameId → Symbol → Prop) {w : Moment} (hw : w.IsComplete)
    {d : Datum} (hd : d.IsPlain) :
    Follows allowed w (EvalM.place d w.store) fun v w' => v ∈ w'.objects := by
  have hs : Step allowed w (w.make _ _) := .make (CanMake.place hw hd)
  rw [Moment.make, Nat.add_sub_cancel' (Datum.le_place d w.store.fresh)] at hs
  refine .step hs ?_
  by_cases hm : (Datum.place d w.store.fresh).1.mark? = none
  · exact .inl (hw.unmarked hm (Datum.isSound_place hd _ 0 _ (self_mem_parts _)))
  · exact .inr ⟨self_mem_parts _, hm⟩

/-- **Forms are histories**: a datum from the reader is made and then evaluated. -/
theorem follows_evalForm (limits : Limits) {w : Moment} (hw : w.IsComplete) {d : Datum}
    (hd : d.IsPlain) {f : FrameId} (hf : f < w.store.frames.size) :
    Follows Anywhere w (evalForm limits d f w.store) fun v w' => v ∈ w'.objects := by
  refine (follows_place Anywhere hw hd).bind fun v w₁ hs hv => ?_
  have h := historic_evaluate limits.rounds limits.nesting (hs.isComplete hw) hv
    (Nat.lt_of_lt_of_le hf hs.size_le)
  have h' : Follows Anywhere _ _ _ := h.mono (fun _ _ _ => trivial) fun _ _ hq => hq
  show Follows _ _ (EStateM.adaptExcept Error.ofForm _ _) _
  rw [EStateM.adaptExcept]
  cases hr : evaluate limits.rounds limits.nesting v f w₁.store with
  | ok a t => rwa [hr] at h'
  | error e t => rwa [hr] at h'

/-- What the evaluation of a form comes to has been made, and its frame is there. -/
theorem exists_steps_of_form {w : Moment} (hw : w.IsComplete) {d : Datum} (hd : d.IsPlain)
    {f : FrameId} (hf : f < w.store.frames.size) {b : Entry}
    (hb : ReflTransGen Inner (Entry.ofForm d f w.store) b) :
    ∃ S, Steps Anywhere w ⟨S, b.store⟩ ∧ b.expression ∈ S ∧ b.frame < b.store.frames.size := by
  obtain ⟨S₁, hs₁, hmem⟩ := follows_place Anywhere hw hd
  obtain ⟨S₂, hs₂, h⟩ := exists_steps_of_inner hb (hs₁.isComplete hw) hmem
    (Nat.lt_of_lt_of_le hf hs₁.size_le)
  exact ⟨S₂, hs₁.trans hs₂, h⟩

/-- What is no datum is no form either. -/
theorem evalForm_absent (limits : Limits) (f : FrameId) (s : Store) :
    Outcome.store (evalForm limits .absent f s) = s := by
  show Outcome.store (EStateM.adaptExcept Error.ofForm (evaluate _ _ .absent f) s) = s
  rw [EStateM.adaptExcept]
  cases limits.rounds <;> rfl

/-- A form fails because it nests too deeply or takes too long, or by the rules. -/
theorem evaluates_of_evalForm {limits : Limits} {d : Datum} {f : FrameId} {s t : Store} {e : Error}
    (h : evalForm limits d f s = .error e t) :
    e = .tooDeep ∨ e = .unfinished ∨ Nonempty (BigStep.Evaluates (d.place s.fresh).1 f
      { s with fresh := (d.place s.fresh).2 } (.error e t)) := by
  change EStateM.adaptExcept Error.ofForm (evaluate limits.rounds limits.nesting
    (d.place s.fresh).1 f) { s with fresh := (d.place s.fresh).2 } = .error e t at h
  rw [EStateM.adaptExcept] at h
  cases hr : evaluate limits.rounds limits.nesting (d.place s.fresh).1 f
      { s with fresh := (d.place s.fresh).2 } with
  | ok v u =>
    rw [hr] at h
    cases h
  | error e' u =>
    rw [hr] at h
    cases h
    by_cases hdepth : e' = .depth
    · subst hdepth
      exact .inl rfl
    · by_cases hun : e' = .unfinished
      · subst hun
        exact .inr (.inl rfl)
      · have heq : e'.ofForm = e' := by
          cases e' with
          | depth => exact absurd rfl hdepth
          | _ => rfl
        obtain ⟨der, -⟩ := BigStep.exists_evaluates hr ⟨hdepth, hun⟩
        rw [heq]
        exact .inr (.inr ⟨der⟩)

/-! ### Stores between two forms -/

/-- The stores that come about by making frames of primitives and by evaluating data from
the reader as forms. -/
inductive Reachable (limits : Limits) : Store → Prop where
  /-- At the start there is only the empty frame. -/
  | bare : Reachable limits .bare
  /-- A frame of primitives is made. -/
  | addGlobal {s : Store} (h : Reachable limits s) : Reachable limits s.addGlobal.2
  /-- A form is evaluated in any frame that is there, with whatever outcome. -/
  | form {s : Store} {d : Datum} {f : FrameId} (h : Reachable limits s) (hd : d.IsPlain)
      (hf : f < s.frames.size) : Reachable limits (Outcome.store (evalForm limits d f s))

/-- A store between two forms has a history. -/
theorem Reachable.exists_steps {limits : Limits} {s : Store} (h : Reachable limits s) :
    ∃ S, Steps Anywhere start ⟨S, s⟩ := by
  induction h with
  | bare => exact ⟨_, .refl⟩
  | addGlobal h ih =>
    obtain ⟨S, hs⟩ := ih
    obtain ⟨S', hs'⟩ := steps_addGlobal Anywhere ⟨S, _⟩
    exact ⟨S', hs.trans hs'⟩
  | form h hd hf ih =>
    obtain ⟨S, hs⟩ := ih
    have hform := follows_evalForm limits (hs.isComplete isComplete_start) hd hf
    obtain ⟨S', hs'⟩ := hform.exists_steps
    exact ⟨S', hs.trans hs'⟩

theorem Reachable.isSound {limits : Limits} {s : Store} (h : Reachable limits s) : s.IsSound := by
  obtain ⟨S, hs⟩ := h.exists_steps
  exact (hs.isSound isSound_start).isSound_store

/-- `LeadsTo limits s t`: the store `t` follows the store `s`; the frames of `s` stay as they
were made. -/
structure LeadsTo (limits : Limits) (s t : Store) : Prop where
  reachable : Reachable limits s → Reachable limits t
  size_le : s.frames.size ≤ t.frames.size
  outer {g : FrameId} : g < s.frames.size → (t.frame g).outer = (s.frame g).outer

namespace LeadsTo

variable {limits : Limits} {s t u : Store}

theorem refl : LeadsTo limits s s := ⟨id, Nat.le_refl _, fun _ => rfl⟩

theorem trans (h : LeadsTo limits s t) (h' : LeadsTo limits t u) : LeadsTo limits s u where
  reachable hs := h'.reachable (h.reachable hs)
  size_le := Nat.le_trans h.size_le h'.size_le
  outer hg := (h'.outer (Nat.lt_of_lt_of_le hg h.size_le)).trans (h.outer hg)

theorem addGlobal : LeadsTo limits s s.addGlobal.2 := by
  obtain ⟨S, hs⟩ := steps_addGlobal Anywhere ⟨Set.univ, s⟩
  exact ⟨.addGlobal, hs.size_le, hs.outer_eq⟩

theorem form (limits : Limits) {d : Datum} (hd : d.IsPlain) {f : FrameId}
    (hf : f < s.frames.size) : LeadsTo limits s (Outcome.store (evalForm limits d f s)) := by
  obtain ⟨S, hs⟩ := (follows_evalForm limits (isComplete_univ s) hd hf).exists_steps
  exact ⟨fun h => .form h hd hf, hs.size_le, hs.outer_eq⟩

end LeadsTo

/-! ### Texts, files and the interactive loop -/

theorem isPlain_of_readForm {limits : Limits} {complete : Bool} {s t : CharStream} {d : Datum}
    (h : readForm limits complete s = .ok (some (d, t))) : d.IsPlain := by
  unfold readForm at h
  cases hread : Reader.read limits.nesting s with
  | error e u => rw [hread] at h; cases h
  | ok o u =>
    rw [hread] at h
    simp only at h
    split at h
    · rcases o with _ | d'
      · cases h
      · cases h
        exact Reader.isPlain_of_read hread
    · cases h

/-- Writing a value leaves the store alone. -/
theorem store_evalPrint (limits : Limits) (d : Datum) (f : FrameId) (s : Store) :
    Outcome.store (evalPrint limits d f s) = Outcome.store (evalForm limits d f s) := by
  rw [evalPrint, bind_apply]
  cases evalForm limits d f s with
  | error e t => rfl
  | ok v t =>
    simp only
    cases v.write limits.nesting <;> rfl

section Texts

variable (limits : Limits) {f : FrameId}

theorem leadsTo_runStream (complete : Bool) (count : Nat) (stream : CharStream) (last : Value)
    {s : Store} (hf : f < s.frames.size) :
    LeadsTo limits s (runStream limits f complete count stream last s).2 := by
  induction count generalizing stream last s with
  | zero => exact .refl
  | succ count ih =>
    rw [runStream]
    cases hread : readForm limits complete stream with
    | error e => exact .refl
    | ok o =>
      rcases o with _ | ⟨d, t⟩
      · exact .refl
      · have hd := isPlain_of_readForm hread
        have h := LeadsTo.form limits hd hf
        simp only
        cases hr : evalForm limits d f s with
        | error e s₁ => rwa [hr] at h
        | ok v s₁ =>
          rw [hr] at h
          exact h.trans (ih t v (Nat.lt_of_lt_of_le hf h.size_le))

theorem leadsTo_replTurns (count : Nat) (stream : CharStream) {s : Store}
    (hf : f < s.frames.size) : LeadsTo limits s (replTurns limits f count stream s).2 := by
  induction count generalizing stream s with
  | zero => exact .refl
  | succ count ih =>
    rw [replTurns]
    cases hread : Reader.read limits.nesting stream with
    | error e t =>
      cases e with
      | digitLimit => exact .refl
      | _ => exact ih _ hf
    | ok o t =>
      rcases o with _ | d
      · exact .refl
      · have h := LeadsTo.form limits (Reader.isPlain_of_read hread) hf
        have hp := store_evalPrint limits d f s
        simp only
        cases hr : evalPrint limits d f s with
        | ok text s₁ =>
          rw [← hp, hr] at h
          exact h.trans (ih t (Nat.lt_of_lt_of_le hf h.size_le))
        | error e s₁ =>
          rw [← hp, hr] at h
          simp only
          split
          · exact h.trans (ih t (Nat.lt_of_lt_of_le hf h.size_le))
          · exact h

theorem leadsTo_evalText (text : String) {s : Store} (hf : f < s.frames.size) :
    LeadsTo limits s (Outcome.store (evalText limits text f s)) := by
  have h : LeadsTo limits s (runText limits text f s).2 :=
    leadsTo_runStream limits true _ (.ofString text) .absent hf
  unfold evalText
  split
  · next hr => rwa [hr] at h
  · next hr => rwa [hr] at h

theorem leadsTo_evalFirst (text : String) {s : Store} (hf : f < s.frames.size) :
    LeadsTo limits s (Outcome.store (Action.evalFirst limits text f s)) := by
  unfold Action.evalFirst Reader.readFirst
  cases hread : Reader.read limits.nesting (.ofString text) with
  | error e t => exact .refl
  | ok o t =>
    rcases o with _ | d
    · show LeadsTo limits s (Outcome.store (evalForm limits .absent f s))
      rw [evalForm_absent]
      exact .refl
    · exact .form limits (Reader.isPlain_of_read hread) hf

/-- The answer to an action is made of what a computation gave, and the store is the one it
left. -/
theorem store_answerOf {α : Type} (x : EvalM α) (answer : α → Except WriteError Answer)
    (s : Store) : (Action.answerOf limits x answer s).2 = Outcome.store (x s) := by
  unfold Action.answerOf
  cases x s with
  | error e t => rfl
  | ok a t =>
    simp only
    cases answer a <;> rfl

/-- **Actions are histories**, whatever they answer. -/
theorem leadsTo_perform (action : Action) {s : Store} (hf : f < s.frames.size) :
    LeadsTo limits s (action.perform limits s f).2 := by
  cases action with
  | eval text =>
    simp only [Action.perform, store_answerOf]
    exact leadsTo_evalText limits text hf
  | read text =>
    simp only [Action.perform, store_answerOf]
    cases readForms limits text <;> exact .refl
  | form text =>
    simp only [Action.perform, store_answerOf]
    exact leadsTo_evalFirst limits text hf
  | load bytes =>
    have h : LeadsTo limits s (runFile limits bytes f s).2 :=
      leadsTo_runStream limits _ _ (.ofString (Text.FileText.ofBytes bytes).text) .absent hf
    simp only [Action.perform]
    split
    · next hr => rwa [hr] at h
    · next hr => rwa [hr] at h
  | repl input prompt =>
    exact leadsTo_replTurns limits ((CharStream.ofString input).available + 1) (.ofString input) hf
  | bound name => exact .refl
  | environment =>
    simp only [Action.perform]
    cases s.showFrame limits.nesting f <;> exact .refl

end Texts

/-! ### Sessions -/

namespace Session

/-- The store has come about between two forms, and the frames of the interpreters are in
it. -/
structure IsReachable (limits : Limits) (s : Session) : Prop where
  store : Reachable limits s.store
  seat {f : FrameId} : f ∈ s.seats → f ≠ Store.empty ∧ f < s.store.frames.size
  common {f : FrameId} : s.common = some f → f ≠ Store.empty ∧ f < s.store.frames.size

variable {limits : Limits} {s : Session}

theorem leadsTo_enrol (isolated : Bool) : LeadsTo limits s.store (s.enrol isolated).store := by
  unfold enrol
  split
  · exact .refl
  · exact .addGlobal

theorem leadsTo_step (h : s.IsReachable limits) (r : Request) :
    LeadsTo limits s.store (s.step limits r).2.store := by
  cases r with
  | new isolated => exact leadsTo_enrol isolated
  | act i action =>
    rw [step]
    cases hi : s.seats[i]? with
    | none => exact .refl
    | some f => exact leadsTo_perform limits action (h.seat (List.mem_of_getElem? hi)).2
  | same i j =>
    rw [step]
    cases s.sameFrame i j <;> exact .refl

theorem IsReachable.enrol (h : s.IsReachable limits) (isolated : Bool) :
    (s.enrol isolated).IsReachable limits := by
  have hne : s.store.frames.size ≠ Store.empty := Nat.ne_of_gt h.store.isSound.exists_empty
  have hnew : s.store.frames.size < s.store.addGlobal.2.frames.size := by
    rw [Store.addGlobal, Store.size_push]
    exact Nat.lt_succ_self _
  have hlt {f : FrameId} (hf : f ≠ Store.empty ∧ f < s.store.frames.size) :
      f ≠ Store.empty ∧ f < s.store.addGlobal.2.frames.size :=
    ⟨hf.1, Nat.lt_trans hf.2 hnew⟩
  unfold Session.enrol
  split
  · next f hf =>
    refine ⟨h.store, fun hg => ?_, h.common⟩
    rcases List.mem_append.1 hg with hg | hg
    · exact h.seat hg
    · obtain rfl := List.mem_singleton.1 hg
      exact h.common hf
  · refine ⟨.addGlobal h.store, fun hg => ?_, fun hg => ?_⟩
    · rcases List.mem_append.1 hg with hg | hg
      · exact hlt (h.seat hg)
      · obtain rfl := List.mem_singleton.1 hg
        exact ⟨hne, hnew⟩
    · simp only at hg
      split at hg
      · exact hlt (h.common hg)
      · cases hg
        exact ⟨hne, hnew⟩

theorem IsReachable.step (h : s.IsReachable limits) (r : Request) :
    (s.step limits r).2.IsReachable limits := by
  cases r with
  | new isolated => exact h.enrol isolated
  | act i action =>
    rw [Session.step]
    cases hi : s.seats[i]? with
    | none => exact h
    | some f =>
      have hl := leadsTo_perform limits action (h.seat (List.mem_of_getElem? hi)).2
      have hlt {g : FrameId} (hg : g ≠ Store.empty ∧ g < s.store.frames.size) :=
        And.intro hg.1 (Nat.lt_of_lt_of_le hg.2 hl.size_le)
      exact ⟨hl.reachable h.store, fun hg => hlt (h.seat hg), fun hg => hlt (h.common hg)⟩
  | same i j =>
    rw [Session.step]
    cases s.sameFrame i j <;> exact h

theorem isReachable_run (h : s.IsReachable limits) (rs : List Request) :
    (s.run limits rs).2.IsReachable limits := by
  induction rs generalizing s with
  | nil => exact h
  | cons r rs ih => exact ih (h.step r)

theorem leadsTo_run (h : s.IsReachable limits) (rs : List Request) :
    LeadsTo limits s.store (s.run limits rs).2.store := by
  induction rs generalizing s with
  | nil => exact .refl
  | cons r rs ih => exact (leadsTo_step h r).trans (ih (h.step r))

theorem isReachable_new (limits : Limits) : ({} : Session).IsReachable limits where
  store := .bare
  seat hf := by cases hf
  common hf := by cases hf

end Session

end SmallScheme
