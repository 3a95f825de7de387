import SmallScheme.Proofs.Evaluation.Renaming
import SmallScheme.Proofs.Reader.Yield
import SmallScheme.Proofs.Session.History

/-!
# Answers do not depend on the numbers

An action that is performed on a store, and the same action on a larger store in which the
first is found under other names, give the same answer. Only texts come out of an action, and
no text tells a number of a frame or a mark.
-/

namespace SmallScheme

open Object Sequencing Evaluation

variable {ρ : Renaming} (limits : Limits)

/-! ### Forms -/

theorem Error.ofForm_rename (e : Error) : (e.rename ρ).ofForm = e.ofForm.rename ρ := by
  cases e <;> rfl

theorem Simulates.asForm {x y : EvalM Value} (h : Simulates ρ (rename ρ) x y) :
    Simulates ρ (rename ρ) (EStateM.adaptExcept Error.ofForm x)
      (EStateM.adaptExcept Error.ofForm y) := by
  intro s t hst
  obtain ⟨u, hy, hu, hkeep⟩ := h s t hst
  refine ⟨u, ?_, ?_, hkeep⟩
  · rw [EStateM.adaptExcept, EStateM.adaptExcept, hy]
    cases x s with
    | ok a s' => rfl
    | error e s' => simp only [Renaming.outcome, Error.ofForm_rename]
  · rw [EStateM.adaptExcept]
    cases hx : x s with
    | ok a s' => rwa [hx] at hu
    | error e s' => rwa [hx] at hu

theorem simulates_evalForm {d : Datum} (hd : d.IsPlain) (f : FrameId) :
    Simulates ρ (rename ρ) (evalForm limits d f) (evalForm limits d (ρ.frame f)) :=
  (Simulates.place hd).bind fun v => (equivariant_evaluate ρ _ _ v f).asForm

theorem simulates_evalForm_absent (f : FrameId) :
    Simulates ρ (rename ρ) (evalForm limits .absent f) (evalForm limits .absent (ρ.frame f)) :=
  (equivariant_evaluate ρ limits.rounds limits.nesting .absent f).asForm

/-! ### Texts -/

/-- `Tracks ρ φ t x y`: what came of a run on a large store `t` is `y`; on the store inside it
the answer is the same up to `φ`, and the stores are matched again. -/
structure Tracks {α β : Type} (ρ : Renaming) (φ : α → β) (t : Store) (x : α × Store)
    (y : β × Store) : Prop where
  answer : y.1 = φ x.1
  store : Matches ρ x.2 y.2
  keeps : Keeps ρ t y.2

namespace Tracks

theorem refl {α β : Type} {s t : Store} (h : Matches ρ s t) (φ : α → β) (a : α) :
    Tracks ρ φ t (a, s) (φ a, t) :=
  ⟨rfl, h, .refl ρ t⟩

theorem exists_eq {α β : Type} {φ : α → β} {t : Store} {x : α × Store} {y : β × Store}
    (h : Tracks ρ φ t x y) :
    ∃ a s u, x = (a, s) ∧ y = (φ a, u) ∧ Matches ρ s u ∧ Keeps ρ t u :=
  ⟨x.1, x.2, y.2, rfl, Prod.ext h.answer rfl, h.store, h.keeps⟩

end Tracks

/-- What evaluating a text gave, renamed. -/
def Run.rename (ρ : Renaming) (r : Run) : Run :=
  ⟨r.forms, ρ.result (Object.rename ρ) r.outcome⟩

/-- An error of reading holds no object. -/
theorem rename_of_readForm {complete : Bool} {stream : CharStream} {e : Error}
    (h : readForm limits complete stream = .error e) : e.rename ρ = e := by
  unfold readForm at h
  split at h
  · split at h <;> cases h
    rfl
  · cases h
    split <;> rfl

theorem tracks_runStream {s t : Store} (hst : Matches ρ s t) (f : FrameId) (complete : Bool)
    (count : Nat) (stream : CharStream) (last : Value) :
    Tracks ρ (Run.rename ρ) t (runStream limits f complete count stream last s)
      (runStream limits (ρ.frame f) complete count stream (last.rename ρ) t) := by
  induction count generalizing stream last s t with
  | zero => exact .refl hst (Run.rename ρ) ⟨[], .ok last⟩
  | succ count ih =>
    simp only [runStream]
    cases hread : readForm limits complete stream with
    | error e =>
      have h : Tracks ρ (Run.rename ρ) t _ _ := .refl hst (Run.rename ρ) ⟨[], .error e⟩
      rwa [Run.rename, Renaming.result, rename_of_readForm limits hread] at h
    | ok o =>
      rcases o with _ | ⟨d, rest⟩
      · exact .refl hst (Run.rename ρ) ⟨[], .ok last⟩
      · obtain ⟨u, hy, hu, hkeep⟩ :=
          simulates_evalForm limits (isPlain_of_readForm hread) f s t hst
        simp only [hy]
        cases hx : evalForm limits d f s with
        | error e s' =>
          rw [hx] at hu
          exact ⟨rfl, hu, hkeep⟩
        | ok v s' =>
          rw [hx] at hu
          have h := ih hu rest v
          exact ⟨congrArg (Run.begin d) h.answer, h.store, hkeep.trans h.keeps⟩

theorem tracks_runText {s t : Store} (hst : Matches ρ s t) (text : String) (f : FrameId) :
    Tracks ρ (Run.rename ρ) t (runText limits text f s) (runText limits text (ρ.frame f) t) :=
  tracks_runStream limits hst f true _ (.ofString text) .absent

theorem tracks_runFile {s t : Store} (hst : Matches ρ s t) (bytes : ByteArray) (f : FrameId) :
    Tracks ρ (Run.rename ρ) t (runFile limits bytes f s) (runFile limits bytes (ρ.frame f) t) :=
  tracks_runStream limits hst f (Text.FileText.ofBytes bytes).complete _
    (.ofString (Text.FileText.ofBytes bytes).text) .absent

theorem simulates_evalText (text : String) (f : FrameId) :
    Simulates ρ (rename ρ) (evalText limits text f) (evalText limits text (ρ.frame f)) := by
  intro s t hst
  obtain ⟨⟨forms, outcome⟩, s', u, hx, hy, hu, hkeep⟩ :=
    (tracks_runText limits hst text f).exists_eq
  simp only [evalText, hx, hy]
  cases outcome <;> exact ⟨u, rfl, hu, hkeep⟩

/-! ### The interactive loop -/

theorem simulates_evalPrint {d : Datum} (hd : d.IsPlain) (f : FrameId) :
    Simulates ρ id (evalPrint limits d f) (evalPrint limits d (ρ.frame f)) := by
  refine (simulates_evalForm limits hd f).bind fun v => ?_
  rw [write_rename]
  cases v.write limits.nesting with
  | ok text => exact .pure id text
  | error e => exact .throw id (.write e)

namespace Turn

/-- A turn of the interactive loop, renamed. -/
def rename (ρ : Renaming) : Turn → Turn
  | failed d e => failed d (e.rename ρ)
  | aborted d e => aborted d (e.rename ρ)
  | turn => turn

theorem answer_rename (n : Nat) (turn : Turn) : (turn.rename ρ).answer n = turn.answer n := by
  cases turn <;> simp [rename, answer, Error.text]

end Turn

theorem transcript_rename (n : Nat) (prompt : String) (turns : List Turn) :
    transcript n prompt (turns.map (Turn.rename ρ)) = transcript n prompt turns := by
  simp only [transcript, List.foldl_map, Turn.answer_rename]

theorem abortion?_rename (n : Nat) (turns : List Turn) :
    ((turns.map (Turn.rename ρ)).findSome? Turn.abortion?).map (Error.report n) =
      (turns.findSome? Turn.abortion?).map (Error.report n) := by
  induction turns with
  | nil => rfl
  | cons turn turns ih =>
    cases turn with
    | aborted d e => exact congrArg some (e.report_rename ρ n)
    | _ => exact ih

theorem tracks_replTurns {s t : Store} (hst : Matches ρ s t) (f : FrameId) (count : Nat)
    (stream : CharStream) :
    Tracks ρ (List.map (Turn.rename ρ)) t (replTurns limits f count stream s)
      (replTurns limits (ρ.frame f) count stream t) := by
  induction count generalizing stream s t with
  | zero => exact .refl hst (List.map (Turn.rename ρ)) []
  | succ count ih =>
    simp only [replTurns]
    cases hread : Reader.read limits.nesting stream with
    | error e rest =>
      cases e with
      | digitLimit => exact .refl hst (List.map (Turn.rename ρ)) [.aborted none (.read .digitLimit)]
      | malformed fault position =>
        have h := ih hst rest.skipLine
        exact ⟨congrArg (List.cons _) h.answer, h.store, h.keeps⟩
    | ok o rest =>
      rcases o with _ | d
      · exact .refl hst (List.map (Turn.rename ρ)) [.ended]
      · obtain ⟨u, hy, hu, hkeep⟩ :=
          simulates_evalPrint limits (Reader.isPlain_of_read hread) f s t hst
        simp only [hy]
        cases hx : evalPrint limits d f s with
        | ok text s' =>
          rw [hx] at hu
          have h := ih hu rest
          exact ⟨congrArg (List.cons (Turn.printed d text)) h.answer, h.store, hkeep.trans h.keeps⟩
        | error e s' =>
          rw [hx] at hu
          simp only [Renaming.outcome, Error.isOrdinary_rename]
          split
          · have h := ih hu rest
            exact ⟨congrArg (List.cons (Turn.failed d (e.rename ρ))) h.answer, h.store,
              hkeep.trans h.keeps⟩
          · exact ⟨rfl, hu, hkeep⟩

/-! ### Actions -/

theorem tracks_answerOf {α β : Type} {φ : α → β} {x : EvalM α} {y : EvalM β}
    {answer : α → Except WriteError Answer} {answer' : β → Except WriteError Answer} {s t : Store}
    (h : Simulates ρ φ x y) (ha : ∀ a, answer' (φ a) = answer a) (hst : Matches ρ s t) :
    Tracks ρ id t (Action.answerOf limits x answer s) (Action.answerOf limits y answer' t) := by
  obtain ⟨u, hy, hu, hkeep⟩ := h s t hst
  simp only [Action.answerOf, hy]
  cases hx : x s with
  | error e s' =>
    rw [hx] at hu
    exact ⟨by simp [Renaming.outcome], hu, hkeep⟩
  | ok a s' =>
    rw [hx] at hu
    simp only [Renaming.outcome, ha]
    cases answer a <;> exact ⟨rfl, hu, hkeep⟩

theorem rename_of_readForms {text : String} {e : Error} (h : readForms limits text = .error e) :
    e.rename ρ = e := by
  unfold readForms at h
  simp only at h
  split at h
  · cases h
    rfl
  · next hfailure =>
    cases hmap : (Reader.readAll limits.nesting (.ofString text)).data.mapM fun entry =>
        entry.1.write limits.nesting with
    | ok texts => rw [hmap] at h; cases h
    | error w => rw [hmap] at h; cases h; rfl

theorem simulates_evalFirst (text : String) (f : FrameId) :
    Simulates ρ (rename ρ) (Action.evalFirst limits text f)
      (Action.evalFirst limits text (ρ.frame f)) := by
  simp only [Action.evalFirst, Reader.readFirst]
  cases hread : Reader.read limits.nesting (.ofString text) with
  | error e rest => exact .throw _ (.read e)
  | ok o rest =>
    rcases o with _ | d
    · exact simulates_evalForm_absent limits f
    · exact simulates_evalForm limits (Reader.isPlain_of_read hread) f

/-- **Answers do not depend on the numbers**: the same action gets the same answer. -/
theorem tracks_perform (action : Action) {s t : Store} (hst : Matches ρ s t) (f : FrameId) :
    Tracks ρ id t (action.perform limits s f) (action.perform limits t (ρ.frame f)) := by
  cases action with
  | eval text =>
    refine tracks_answerOf limits (simulates_evalText limits text f) (fun v => ?_) hst
    have h := write_rename ρ v limits.nesting
    cases v <;> first | rfl | exact congrArg (Except.map Answer.text) h
  | read text =>
    simp only [Action.perform]
    cases hr : readForms limits text with
    | ok texts => exact tracks_answerOf limits (.pure id texts) (fun _ => rfl) hst
    | error e =>
      have h : Simulates ρ (id : List String → List String) (throw e) (throw (e.rename ρ)) :=
        .throw id e
      rw [rename_of_readForms limits hr] at h
      exact tracks_answerOf limits h (fun _ => rfl) hst
  | form text =>
    refine tracks_answerOf limits (simulates_evalFirst limits text f) (fun v => ?_) hst
    simp only [typeName_rename, write_rename]
  | load bytes =>
    obtain ⟨⟨forms, outcome⟩, s', u, hx, hy, hu, hkeep⟩ :=
      (tracks_runFile limits hst bytes f).exists_eq
    simp only [Action.perform, hx, hy]
    cases outcome with
    | ok v => exact ⟨rfl, hu, hkeep⟩
    | error e => exact ⟨congrArg Answer.failed (e.report_rename ρ _), hu, hkeep⟩
  | repl input prompt =>
    have h := tracks_replTurns limits hst f ((CharStream.ofString input).available + 1)
      (.ofString input)
    refine ⟨?_, h.store, h.keeps⟩
    simp only [Action.perform, SmallScheme.repl, h.answer, transcript_rename]
    exact congrArg (Answer.transcript _) (abortion?_rename limits.nesting _)
  | bound name => exact ⟨by simp only [Action.perform, hst.binds]; rfl, hst, .refl ρ t⟩
  | environment =>
    simp only [Action.perform, hst.showFrame, hst.summary]
    cases s.showFrame limits.nesting f <;> exact .refl hst id _

end SmallScheme
