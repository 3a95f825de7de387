import SmallScheme.Proofs.Session.History
import SmallScheme.Proofs.Store.Parameters

/-!
# The invariant of sessions

Whatever a session is asked to do, and however that ends, its store stays sound: the empty
frame binds nothing, the frames around any other frame are older and end in the empty frame,
and every value is one that the language makes. Evaluation relies on this without checking
it. A body is a list of at least one form, the parameters of a procedure are symbols, and so
a form can only end in a value or in an error of the language, with the one exception of a
numeral that is too long to be converted.
-/

namespace SmallScheme

open Object Moment Evaluation BigStep Relation

/-! ### Forms -/

/-- A call at a sound store. If a procedure made by `lambda` is called, nothing can be wrong
with its parameters but the number of arguments, and its body is evaluated form by form up to
the last. -/
structure CallIsSound (p args : Value) (s : Store) : Prop where
  store : s.IsSound
  procedure : p.IsSound s.frames.size
  arguments : args.IsSound s.frames.size ∧ args.isList = true
  extend {m : Nat} {params forms : Value} {f : FrameId} {err : Error} :
    p = .closure m params forms f → s.extend params args f = .error err → err.kind = .arity
  body {m : Nat} {params forms : Value} {f : FrameId} :
    p = .closure m params forms f → ∀ ev g, ∃ first last, forms.elements = first ++ [last] ∧
      body ev g forms = do
        forM first fun e => do let _ ← ev e g; return
        return .tail last g

/-- A form at a sound store. It ends in a value or in an error of the language, unless it takes
too many rounds or comes to convert a numeral that is too long; and everything that it comes
to on the way is sound. -/
structure FormIsSound (limits : Limits) (d : Datum) (f : FrameId) (s : Store) : Prop where
  value {v : Value} {t : Store} :
    evalForm limits d f s = .ok v t → t.IsSound ∧ v.IsSound t.frames.size
  error {e : Error} {t : Store} :
    evalForm limits d f s = .error e t → t.IsSound ∧
      (e.isOrdinary = true ∨ e = .unfinished ∨
        e = .digitLimit ∧ (Entry.ofForm d f s).ConvertsLongNumeral)
  outer {g : FrameId} : g < s.frames.size →
    ((Outcome.store (evalForm limits d f s)).frame g).outer = (s.frame g).outer
  entry {b : Entry} : ReflTransGen Inner (Entry.ofForm d f s) b →
    b.store.IsSound ∧ b.expression.IsSound b.store.frames.size ∧ b.frame < b.store.frames.size
  call {b : Entry} {p args : Value} {t : Store} : ReflTransGen Inner (Entry.ofForm d f s) b →
    Calls b p args t → CallIsSound p args t

theorem callIsSound_of_mem {w : Moment} (hw : w.IsSound) {p args : Value} (hp : p ∈ w.objects)
    (ha : args ∈ w.objects) (hlist : args.isList = true) : CallIsSound p args w.store where
  store := hw.isSound_store
  procedure := hw.isSound_object hp
  arguments := ⟨hw.isSound_object ha, hlist⟩
  extend := by
    rintro m params forms f err rfl herr
    exact kind_of_extend (hw.wellMade hp).1 herr
  body := by
    rintro m params forms f rfl ev g
    exact body_of_isBody (hw.wellMade hp).2.1 ev g

/-- An error that comes from an expression is one of the language or that of a long
numeral. -/
theorem isOrdinary_of_isIntrinsic {e : Error} (h : e.isIntrinsic = true) (hd : e ≠ .digitLimit) :
    e.isOrdinary = true := by
  cases e with
  | digitLimit => exact absurd rfl hd
  | read | write | tooDeep | depth | decoding | unfinished => cases h
  | _ => rfl

theorem error_of_evalForm {limits : Limits} {d : Datum} {f : FrameId} {s t : Store} {e : Error}
    (h : evalForm limits d f s = .error e t) :
    e.isOrdinary = true ∨ e = .unfinished ∨
      e = .digitLimit ∧ (Entry.ofForm d f s).ConvertsLongNumeral := by
  rcases evaluates_of_evalForm h with rfl | rfl | ⟨⟨der⟩⟩
  · exact .inl rfl
  · exact .inr (.inl rfl)
  · by_cases hd : e = .digitLimit
    · subst hd
      exact .inr (.inr ⟨rfl, der.convertsLongNumeral⟩)
    · exact .inl (isOrdinary_of_isIntrinsic der.isIntrinsic hd)

theorem formIsSound (limits : Limits) {w : Moment} (hw : w.IsSound) {d : Datum} (hd : d.IsPlain)
    {f : FrameId} (hf : f < w.store.frames.size) : FormIsSound limits d f w.store := by
  have hform := follows_evalForm limits hw.complete hd hf
  constructor
  · intro v t hr
    rw [hr] at hform
    obtain ⟨S', hs', hv⟩ := hform
    have hw' := hs'.isSound hw
    exact ⟨hw'.isSound_store, hw'.isSound_object hv⟩
  · intro e t hr
    rw [hr] at hform
    obtain ⟨S', hs'⟩ := hform
    exact ⟨(hs'.isSound hw).isSound_store, error_of_evalForm hr⟩
  · intro g hg
    obtain ⟨S', hs'⟩ := hform.exists_steps
    exact hs'.outer_eq hg
  · intro b hb
    obtain ⟨S', hs', he, hlt⟩ := exists_steps_of_form hw.complete hd hf hb
    have hw' := hs'.isSound hw
    exact ⟨hw'.isSound_store, hw'.isSound_object he, hlt⟩
  · intro b p args t hb hcall
    obtain ⟨S₁, hs₁, he, hlt⟩ := exists_steps_of_form hw.complete hd hf hb
    have hw₁ := hs₁.isSound hw
    obtain ⟨S₂, hs₂, hp, ha, hlist⟩ := hcall.exists_steps hw₁.complete he hlt
    exact callIsSound_of_mem (hs₂.isSound hw₁) hp ha hlist

/-! ### Sessions -/

theorem Session.run_append (limits : Limits) (s : Session) (rs rs' : List Request) :
    (s.run limits (rs ++ rs')).2 = ((s.run limits rs).2.run limits rs').2 := by
  induction rs generalizing s with
  | nil => rfl
  | cons r rs ih => exact ih _

/-- **Sessions keep their stores sound.** After any requests the store is one that comes about
by making frames of primitives and evaluating forms, the frames of the interpreters are in
it, and the frames that enclose a frame stay the same in all that follows. Every such store,
also between two forms of one request, is sound; the chain of each frame descends to the empty
frame; and every form that is evaluated there ends as it should.

The texts of requests and the characters in them are Unicode scalar values by their types. Of
texts that hold surrogates, and of the characters that would be read from them, nothing is
said. -/
theorem sound_sessions (limits : Limits) :
    (∀ rs : List Request,
      let s := (Session.run limits {} rs).2
      Reachable limits s.store ∧
        (∀ f ∈ s.seats, f ≠ Store.empty ∧ f < s.store.frames.size) ∧
        ∀ rs' : List Request, ∀ f < s.store.frames.size,
          ((Session.run limits {} (rs ++ rs')).2.store.frame f).outer =
            (s.store.frame f).outer) ∧
      ∀ s : Store, Reachable limits s →
        s.IsSound ∧
        (∀ f < s.frames.size,
          (s.chain f).Pairwise (· > ·) ∧ (s.chain f).getLast? = some Store.empty) ∧
        ∀ (d : Datum) (f : FrameId), d.IsPlain → f < s.frames.size →
          FormIsSound limits d f s := by
  refine ⟨fun rs => ?_, fun s hs => ?_⟩
  · have h := Session.isReachable_run (Session.isReachable_new limits) rs
    refine ⟨h.store, fun f hf => h.seat hf, fun rs' f hf => ?_⟩
    rw [Session.run_append]
    exact (Session.leadsTo_run h rs').outer hf
  · refine ⟨hs.isSound, fun f hf => hs.isSound.chain hf, fun d f hd hf => ?_⟩
    obtain ⟨S, hsteps⟩ := hs.exists_steps
    exact formIsSound limits (hsteps.isSound isSound_start) hd hf

/-- `((lambda (x) x))`, a call that lacks its argument, in the frame of the first interpreter. -/
theorem sound_sessions_missing_argument :
    let s := (Session.run .standard {} [.new true]).2.store
    let x : Datum := .pair () (.symbol ⟨"x"⟩) .nil
    let d : Datum := .pair () (.pair () (.symbol ⟨"lambda"⟩) (.pair () x x)) .nil
    Reachable .standard s ∧ d.IsPlain ∧ Store.global < s.frames.size ∧
      FormIsSound .standard d Store.global s := by
  intro s x d
  obtain ⟨hrun, hsound⟩ := sound_sessions .standard
  have hs : Reachable .standard s := (hrun [.new true]).1
  have hd : d.IsPlain := by simp [d, x, IsPlain]
  have hf : Store.global < s.frames.size := by decide
  exact ⟨hs, hd, hf, (hsound s hs).2.2 d Store.global hd hf⟩

end SmallScheme
