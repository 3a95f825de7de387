import SmallScheme.Proofs.Reader.Stream
import SmallScheme.Proofs.Sequencing
import SmallScheme.Reader.Datum

/-!
# What a computation on a stream recognizes

`Recognizes b x L` says of a computation on a stream which texts it accepts: it succeeds
with the answer `a` and leaves the text `r` to come exactly when `L a cs r`, where `cs` is
the text that was to come before. The statement is about texts of less than `b` characters,
for the reader has a budget.

A sequence recognizes the composition of what its steps recognize, so the relation of a
reader follows from the relations of its parts. This module has the parts that read
items and atoms.
-/

namespace SmallScheme.Reader

open CharStream Grammar Sequencing

/-! ### Strings -/

theorem stringBody_eq (s : CharStream) : stringBody s =
    match s.next with
    | (none, t) => (none, t)
    | (some c, t) =>
      if c = '"' then (some [], t)
      else if c = '\\' then
        match t.next with
        | (none, u) => (none, u)
        | (some e, u) =>
          ((stringBody u).1.map ((if e = 'n' then '\n' else e) :: ·), (stringBody u).2)
      else ((stringBody t).1.map (c :: ·), (stringBody t).2) := by
  rw [stringBody]
  split
  · next h => simp only [h]
  · next c t h =>
    simp only [h]
    split
    · rfl
    · split
      · split
        · next h' => simp only [h']
        · next h' => simp only [h']
      · rfl

/-- A string ends at the first quote that is not escaped. -/
theorem exists_stringItems {s : CharStream} {q : Int} {cs body : List Char} (hs : s.At q cs)
    (h : (stringBody s).1 = some body) :
    ∃ r, StringItems body cs ('"' :: r) ∧ (stringBody s).2.At q r := by
  fun_induction stringBody s generalizing cs body with
  | case1 s t hn => cases h
  | case2 s t hn =>
    obtain ⟨cs, rfl, ht⟩ := hs.eq_cons_of_next hn
    cases h
    exact ⟨cs, .nil, ht⟩
  | case3 s t u hu hn _ => cases h
  | case4 s t e u hu body' v hb hn _ ih =>
    obtain ⟨cs, rfl, ht⟩ := hs.eq_cons_of_next hn
    obtain ⟨cs, rfl, hu⟩ := ht.eq_cons_of_next hu
    obtain ⟨items, rfl, rfl⟩ := Option.map_eq_some_iff.1 h
    rw [hb] at ih
    obtain ⟨r, hr, hv⟩ := ih hu rfl
    refine ⟨r, ?_, hv⟩
    split
    · next he =>
      subst he
      exact .newline hr
    · next he => exact .escaped he hr
  | case5 s c t hn hq hbs body' v hb ih =>
    obtain ⟨cs, rfl, ht⟩ := hs.eq_cons_of_next hn
    obtain ⟨items, rfl, rfl⟩ := Option.map_eq_some_iff.1 h
    rw [hb] at ih
    obtain ⟨r, hr, hv⟩ := ih ht rfl
    exact ⟨r, .plain hq hbs hr, hv⟩

theorem stringBody_of_stringItems {s : CharStream} {q : Int} {cs body r : List Char}
    (hs : s.At q cs) (h : StringItems body cs ('"' :: r)) :
    (stringBody s).1 = some body ∧ (stringBody s).2.At q r := by
  generalize hr : '"' :: r = r' at h
  induction h generalizing s with
  | nil =>
    subst hr
    obtain ⟨t, hn, ht⟩ := hs.next_cons
    rw [stringBody_eq, hn]
    exact ⟨rfl, ht⟩
  | plain hq hb h ih =>
    obtain ⟨t, hn, ht⟩ := hs.next_cons
    obtain ⟨hbody, hu⟩ := ih ht hr
    rw [stringBody_eq, hn]
    simp only [hq, hb, if_false, hbody]
    exact ⟨rfl, hu⟩
  | newline h ih =>
    obtain ⟨t, hn, ht⟩ := hs.next_cons
    obtain ⟨u, hn', hu⟩ := ht.next_cons
    obtain ⟨hbody, hv⟩ := ih hu hr
    rw [stringBody_eq, hn]
    simp only [hn', hbody]
    exact ⟨rfl, hv⟩
  | escaped hc h ih =>
    obtain ⟨t, hn, ht⟩ := hs.next_cons
    obtain ⟨u, hn', hu⟩ := ht.next_cons
    obtain ⟨hbody, hv⟩ := ih hu hr
    rw [stringBody_eq, hn]
    simp only [hn', hbody, hc, if_false]
    exact ⟨rfl, hv⟩

/-! ### Recognition -/

/-- `x` succeeds just on the texts that `L` describes. -/
structure Recognizes {α : Type} (b : Nat) (x : ReadM α) (L : α → List Char → List Char → Prop) :
    Prop where
  /-- What was accepted is described. -/
  sound {q : Int} {s t : CharStream} {cs : List Char} {a : α} :
    s.At q cs → cs.length < b → x s = .ok a t → ∃ r, L a cs r ∧ t.At q r
  /-- What is described is accepted. -/
  complete {q : Int} {s : CharStream} {cs r : List Char} {a : α} :
    s.At q cs → cs.length < b → L a cs r → ∃ t, x s = .ok a t ∧ t.At q r
  /-- What is left was there before. -/
  length_le {cs r : List Char} {a : α} : L a cs r → r.length ≤ cs.length

namespace Recognizes

variable {α β : Type} {b : Nat} {x y : ReadM α} {k : α → ReadM β}
  {L L' : α → List Char → List Char → Prop} {M : α → β → List Char → List Char → Prop}

/-- Two descriptions that say the same serve alike. -/
theorem of_iff (h : Recognizes b x L) (hL : ∀ {a cs r}, L' a cs r ↔ L a cs r) :
    Recognizes b x L' where
  sound hs hb hx := by
    obtain ⟨r, hr, ht⟩ := h.sound hs hb hx
    exact ⟨r, hL.2 hr, ht⟩
  complete hs hb hr := h.complete hs hb (hL.1 hr)
  length_le hr := h.length_le (hL.1 hr)

theorem mono {b' : Nat} (h : Recognizes b x L) (hb : b' ≤ b) : Recognizes b' x L where
  sound hs hb' hx := h.sound hs (by omega) hx
  complete hs hb' hr := h.complete hs (by omega) hr
  length_le := h.length_le

/-- A sequence recognizes a phrase of its first step with a phrase of its second after it. -/
theorem bind (hx : Recognizes b x L) (hk : ∀ a, Recognizes b (k a) (M a)) :
    Recognizes b (x >>= k) fun c cs r => ∃ a cs₁, L a cs cs₁ ∧ M a c cs₁ r where
  sound hs hb h := by
    obtain ⟨a, t, ha, hc⟩ := bind_eq_ok_iff.1 h
    obtain ⟨cs₁, hL, ht⟩ := hx.sound hs hb ha
    have hle := hx.length_le hL
    obtain ⟨r, hM, hu⟩ := (hk a).sound ht (by omega) hc
    exact ⟨r, ⟨a, cs₁, hL, hM⟩, hu⟩
  complete hs hb h := by
    obtain ⟨a, cs₁, hL, hM⟩ := h
    obtain ⟨t, ha, ht⟩ := hx.complete hs hb hL
    have hle := hx.length_le hL
    obtain ⟨u, hc, hu⟩ := (hk a).complete ht (by omega) hM
    exact ⟨u, bind_eq_ok_iff.2 ⟨a, t, ha, hc⟩, hu⟩
  length_le h := by
    obtain ⟨a, cs₁, hL, hM⟩ := h
    exact Nat.le_trans ((hk a).length_le hM) (hx.length_le hL)

/-- The same where the answer and what is left of the text are functions of the text. -/
theorem bind_eq {answer : List Char → α} {rest : List Char → List Char}
    (hx : Recognizes b x fun a cs r => a = answer cs ∧ r = rest cs)
    (hk : ∀ a, Recognizes b (k a) (M a)) :
    Recognizes b (x >>= k) fun c cs r => M (answer cs) c (rest cs) r := by
  refine (hx.bind hk).of_iff ?_
  intro c cs r
  constructor
  · intro h
    exact ⟨_, _, ⟨rfl, rfl⟩, h⟩
  · rintro ⟨_, _, ⟨rfl, rfl⟩, h⟩
    exact h

/-- A test that does not look at the text chooses between two readers. -/
theorem ite {p : Prop} [Decidable p] (hx : p → Recognizes b x L) (hy : ¬ p → Recognizes b y L') :
    Recognizes b (if p then x else y) fun a cs r => p ∧ L a cs r ∨ ¬ p ∧ L' a cs r := by
  by_cases hp : p
  · rw [if_pos hp]
    exact (hx hp).of_iff (by simp [hp])
  · rw [if_neg hp]
    exact (hy hp).of_iff (by simp [hp])

theorem pure (a : α) : Recognizes b (pure a) fun a' cs r => a' = a ∧ r = cs where
  sound hs _ h := by
    cases h
    exact ⟨_, ⟨rfl, rfl⟩, hs⟩
  complete hs _ h := by
    obtain ⟨rfl, rfl⟩ := h
    exact ⟨_, rfl, hs⟩
  length_le h := by rw [h.2]

theorem throw (e : ReadError) : Recognizes b (throw e : ReadM α) fun _ _ _ => False where
  sound _ _ h := by cases h
  complete _ _ h := h.elim
  length_le h := h.elim

theorem fail (fault : ReadFault) : Recognizes b (fail fault : ReadM α) fun _ _ _ => False where
  sound _ _ h := by cases h
  complete _ _ h := h.elim
  length_le h := h.elim

/-! ### Items -/

/-- An operation on the stream that follows an operation on the text. -/
theorem of_modifyGet {g : CharStream → α × CharStream} {answer : List Char → α}
    {rest : List Char → List Char}
    (hg : ∀ {q s cs}, s.At q cs → (g s).1 = answer cs ∧ (g s).2.At q (rest cs))
    (hle : ∀ cs, (rest cs).length ≤ cs.length) :
    Recognizes b (modifyGet g) fun a cs r => a = answer cs ∧ r = rest cs where
  sound hs _ h := by
    obtain ⟨hc, ht⟩ := hg hs
    cases h
    exact ⟨_, ⟨hc, rfl⟩, ht⟩
  complete hs _ h := by
    obtain ⟨rfl, rfl⟩ := h
    obtain ⟨hc, ht⟩ := hg hs
    exact ⟨_, by rw [← hc]; rfl, ht⟩
  length_le h := by
    rw [h.2]
    exact hle _

theorem next : Recognizes b next fun item cs r => item = cs.head? ∧ r = cs.tail :=
  of_modifyGet At.next fun cs => by
    rw [List.length_tail]
    omega

theorem peek : Recognizes b peek fun item cs r => item = cs.head? ∧ r = cs :=
  of_modifyGet At.peek fun cs => Nat.le_refl cs.length

theorem takeRun (p : Char → Bool) : Recognizes b (takeRun p) (Run p) :=
  (of_modifyGet (At.takeRun p) (List.length_dropWhile_le p)).of_iff run_iff

theorem skipAtmosphere : Recognizes b (modify CharStream.skipAtmosphere) fun _ cs r =>
    Atmosphere cs r ∧ IsTrimmed r where
  sound hs _ h := by
    obtain ⟨r, ha, hr, ht⟩ := hs.exists_skipAtmosphere
    cases h
    exact ⟨r, ⟨ha, hr⟩, ht⟩
  complete hs _ h := ⟨_, rfl, hs.skipAtmosphere h.1 h.2⟩
  length_le h := h.1.isSuffix.length_le

theorem expectDelimiter (what : Delimited) : Recognizes b (expectDelimiter what) fun _ cs r =>
    AtDelimiter cs ∧ r = cs := by
  refine of_iff (peek.bind_eq fun item => ite (fun _ => fail _) fun _ => pure ()) ?_
  simp [AtDelimiter]

/-- A character taken leaves a text that is shorter. -/
theorem bind_next {k : Option Char → ReadM β} {M : Char → β → List Char → List Char → Prop}
    (hnone : Recognizes b (k none) fun _ _ _ => False)
    (hsome : ∀ c, Recognizes (b - 1) (k (some c)) (M c)) :
    Recognizes b (Reader.next >>= k) fun a cs r => ∃ c cs₁, cs = c :: cs₁ ∧ M c a cs₁ r where
  sound {q s t cs a} hs hb h := by
    obtain ⟨item, u, hi, hk⟩ := bind_eq_ok_iff.1 h
    obtain ⟨_, ⟨rfl, rfl⟩, hu⟩ := next.sound hs hb hi
    cases cs with
    | nil =>
      obtain ⟨_, hf, _⟩ := hnone.sound hu hb hk
      exact hf.elim
    | cons c cs₁ =>
      rw [List.length_cons] at hb
      obtain ⟨r, hM, ht⟩ := (hsome c).sound hu (by simp only [List.tail_cons]; omega) hk
      exact ⟨r, ⟨c, cs₁, rfl, hM⟩, ht⟩
  complete hs hb h := by
    obtain ⟨c, cs₁, rfl, hM⟩ := h
    obtain ⟨u, hi, hu⟩ := next.complete hs hb ⟨rfl, rfl⟩
    rw [List.length_cons] at hb
    obtain ⟨t, hk, ht⟩ := (hsome c).complete hu (by simp only [List.tail_cons]; omega) hM
    exact ⟨t, bind_eq_ok_iff.2 ⟨_, _, hi, hk⟩, ht⟩
  length_le h := by
    obtain ⟨c, cs₁, rfl, hM⟩ := h
    have hle := (hsome c).length_le hM
    rw [List.length_cons]
    omega

/-- The next token starts after blanks and comments. -/
theorem nextToken : Recognizes b nextToken fun item cs r =>
    ∃ cs₁, Atmosphere cs cs₁ ∧ IsTrimmed cs₁ ∧ item = cs₁.head? ∧ r = cs₁.tail := by
  refine of_iff (skipAtmosphere.bind fun _ => next) ?_
  intro item cs r
  constructor
  · rintro ⟨cs₁, ha, ht, hi, hr⟩
    exact ⟨(), cs₁, ⟨ha, ht⟩, hi, hr⟩
  · rintro ⟨_, cs₁, ⟨ha, ht⟩, hi, hr⟩
    exact ⟨cs₁, ha, ht, hi, hr⟩

theorem bind_nextToken {k : Option Char → ReadM β} {M : Char → β → List Char → List Char → Prop}
    (hnone : Recognizes b (k none) fun _ _ _ => False)
    (hsome : ∀ c, Recognizes (b - 1) (k (some c)) (M c)) :
    Recognizes b (Reader.nextToken >>= k) fun a cs r =>
      ∃ c cs₁, Atmosphere cs (c :: cs₁) ∧ IsTrimmed (c :: cs₁) ∧ M c a cs₁ r := by
  have h := skipAtmosphere.bind fun _ => bind_next hnone hsome
  rw [show Reader.nextToken >>= k = modify CharStream.skipAtmosphere >>= fun _ => Reader.next >>= k
    from rfl]
  refine h.of_iff ?_
  intro a cs r
  constructor
  · rintro ⟨c, cs₁, ha, ht, hM⟩
    exact ⟨(), _, ⟨ha, ht⟩, c, cs₁, rfl, hM⟩
  · rintro ⟨_, _, ⟨ha, ht⟩, c, cs₁, rfl, hM⟩
    exact ⟨c, cs₁, ha, ht, hM⟩

/-! ### Atoms -/

theorem readName (name : String) (letters : List Char) :
    Recognizes b (readName name letters) fun _ cs r => cs = letters ++ r := by
  induction letters with
  | nil => exact (pure ()).of_iff (by simp [eq_comm])
  | cons c letters ih =>
    refine of_iff (next.bind_eq fun item => ite (fun _ => ih) fun _ => fail _) ?_
    intro _ cs r
    cases cs <;> simp

/-- A literal that is over has to be followed by a delimiter. -/
theorem delimited (what : Delimited) (v : Datum) :
    Recognizes b (do Reader.expectDelimiter what; return v) fun v' cs r =>
      AtDelimiter r ∧ cs = r ∧ v' = v := by
  refine of_iff ((expectDelimiter what).bind fun _ => pure v) ?_
  intro v' cs r
  constructor
  · rintro ⟨hr, rfl, rfl⟩
    exact ⟨(), _, ⟨hr, rfl⟩, rfl, rfl⟩
  · rintro ⟨_, _, ⟨hr, rfl⟩, rfl, rfl⟩
    exact ⟨hr, rfl, rfl⟩

/-- A character after `#\`. A named character is not taken for its first letter, which no
delimiter follows. -/
theorem readCharacter : Recognizes b readCharacter fun v cs r =>
    AtDelimiter r ∧ ∃ c w, CharacterName c w ∧ cs = w ++ r ∧ v = .character c := by
  refine of_iff (bind_next (fail _) fun c => peek.bind_eq fun item =>
    ite (fun _ => (readName _ _).bind fun _ => delimited _ _)
      fun _ => ite (fun _ => (readName _ _).bind fun _ => delimited _ _)
        fun _ => delimited _ _) ?_
  intro v cs r
  constructor
  · rintro ⟨hr, c, w, hw, rfl, rfl⟩
    cases hw with
    | itself =>
      -- a delimiter follows, so neither name has begun
      have hne : ∀ d, isDelimiter (some d) = false → r.head? ≠ some d := by
        intro d hd h
        rw [AtDelimiter, h, hd] at hr
        cases hr
      refine ⟨c, r, rfl, .inr ⟨?_, .inr ⟨?_, hr, rfl, rfl⟩⟩⟩
      · exact fun h => hne 'p' (by decide) h.2
      · exact fun h => hne 'e' (by decide) h.2
    | space => exact ⟨'s', _, rfl, .inl ⟨⟨rfl, rfl⟩, (), r, rfl, hr, rfl, rfl⟩⟩
    | newline => exact ⟨'n', _, rfl, .inr ⟨by simp, .inl ⟨⟨rfl, rfl⟩, (), r, rfl, hr, rfl, rfl⟩⟩⟩
  · rintro ⟨c, cs₁, rfl, ⟨⟨rfl, -⟩, _, _, rfl, hr, rfl, rfl⟩ |
      ⟨-, ⟨⟨rfl, -⟩, _, _, rfl, hr, rfl, rfl⟩ | ⟨-, hr, rfl, rfl⟩⟩⟩
    · exact ⟨hr, _, _, .space, rfl, rfl⟩
    · exact ⟨hr, _, _, .newline, rfl, rfl⟩
    · exact ⟨hr, _, _, .itself c, rfl, rfl⟩

/-- What follows `#`. -/
theorem readHash : Recognizes b readHash fun v cs r => AtDelimiter r ∧
    ((∃ a : Bool, cs = (if a then 't' else 'f') :: r ∧ v = .boolean a) ∨
      ∃ c w, CharacterName c w ∧ cs = '\\' :: (w ++ r) ∧ v = .character c) := by
  refine of_iff (next.bind_eq fun item => ite (fun _ => delimited _ _) fun _ =>
    ite (fun _ => delimited _ _) fun _ => ite (fun _ => readCharacter) fun _ => fail _) ?_
  intro v cs r
  constructor
  · rintro ⟨hr, ⟨_ | _, rfl, rfl⟩ | ⟨c, w, hw, rfl, rfl⟩⟩
    · exact .inr ⟨by simp, .inl ⟨rfl, hr, rfl, rfl⟩⟩
    · exact .inl ⟨rfl, hr, rfl, rfl⟩
    · exact .inr ⟨by simp, .inr ⟨by simp, .inl ⟨rfl, hr, c, w, hw, rfl, rfl⟩⟩⟩
  · rintro (⟨hc, hr, rfl, rfl⟩ | ⟨-, ⟨hc, hr, rfl, rfl⟩ |
      ⟨-, ⟨hc, hr, c, w, hw, hcs, rfl⟩ | ⟨-, hf⟩⟩⟩)
    · obtain ⟨cs₁, rfl⟩ := List.head?_eq_some_iff.1 hc
      exact ⟨hr, .inl ⟨true, rfl, rfl⟩⟩
    · obtain ⟨cs₁, rfl⟩ := List.head?_eq_some_iff.1 hc
      exact ⟨hr, .inl ⟨false, rfl, rfl⟩⟩
    · obtain ⟨cs₁, rfl⟩ := List.head?_eq_some_iff.1 hc
      exact ⟨hr, .inr ⟨c, w, hw, by rw [← hcs]; rfl, rfl⟩⟩
    · exact hf.elim

/-- The digits of an integer from some point on. -/
theorem readNumber (negative : Bool) (ds : List Char) :
    Recognizes b (readNumber negative ds) fun v cs r => AtDelimiter r ∧
      ∃ ds', (∀ d ∈ ds', d.isDigit = true) ∧ cs = ds' ++ r ∧
        Text.IsFixnum (Text.signedValue negative (ds ++ ds')) ∧
          v = .integer (Text.signedValue negative (ds ++ ds')) := by
  refine of_iff ((takeRun _).bind fun ds' => (expectDelimiter _).bind fun _ =>
    ite (fun _ => pure _) fun _ => ite (fun _ => fail _) fun _ => throw _) ?_
  intro v cs r
  constructor
  · rintro ⟨hr, ds', hds, rfl, hv, rfl⟩
    have hrun := Run.of_atDelimiter (fun _ => isDigit_eq_false_of_isDelimiter) hds hr
    exact ⟨ds', r, hrun, (), r, ⟨hr, rfl⟩, .inl ⟨hv, rfl, rfl⟩⟩
  · rintro ⟨ds', _, ⟨rfl, hds, -⟩, _, _, ⟨hr, rfl⟩, ⟨hv, rfl, rfl⟩ | ⟨-, ⟨-, hf⟩ | ⟨-, hf⟩⟩⟩
    · exact ⟨hr, ds', hds, rfl, hv, rfl⟩
    · exact hf.elim
    · exact hf.elim

theorem readSymbol (c : Char) : Recognizes b (readSymbol c) fun v cs r =>
    ∃ ds, Run isSubsequent ds cs r ∧ v = .symbol ⟨String.ofList (c :: ds)⟩ := by
  refine of_iff ((takeRun _).bind fun ds => pure _) ?_
  intro v cs r
  constructor
  · rintro ⟨ds, h, rfl⟩
    exact ⟨ds, r, h, rfl, rfl⟩
  · rintro ⟨ds, _, h, rfl, rfl⟩
    exact ⟨ds, h, rfl⟩

/-- What follows a sign: digits, or nothing before the next delimiter. -/
theorem readSigned (c : Char) : Recognizes b (readSigned c) fun v cs r => AtDelimiter r ∧
    ((c = '-' ∧ ∃ ds, ds ≠ [] ∧ (∀ d ∈ ds, d.isDigit = true) ∧ cs = ds ++ r ∧
        Text.IsFixnum (Text.signedValue true ds) ∧ v = .integer (Text.signedValue true ds)) ∨
      (cs = r ∧ v = .symbol ⟨String.ofList [c]⟩)) := by
  refine of_iff (peek.bind_eq fun item => ite (fun _ => readNumber true []) fun _ =>
    ite (fun _ => readSymbol c) fun _ => fail _) ?_
  intro v cs r
  have hdigit : AtDelimiter cs → ¬ cs.head?.any Char.isDigit = true := by
    intro hcs hany
    cases cs with
    | nil => cases hany
    | cons d cs =>
      rw [List.head?_cons, Option.any_some, isDigit_eq_false_of_isDelimiter hcs] at hany
      cases hany
  constructor
  · rintro ⟨hr, ⟨rfl, ds, hne, hds, rfl, hv, rfl⟩ | ⟨rfl, rfl⟩⟩
    · obtain ⟨d, ds, rfl⟩ := List.exists_cons_of_ne_nil hne
      have hd : d.isDigit = true := hds d (List.mem_cons_self ..)
      exact .inl ⟨⟨rfl, hd⟩, hr, d :: ds, hds, rfl, hv, rfl⟩
    · have hrun : Run isSubsequent [] cs cs :=
        Run.of_atDelimiter (fun _ => isSubsequent_eq_false_of_isDelimiter) (by simp) hr
      exact .inr ⟨fun h => hdigit hr h.2, .inl ⟨hr, [], hrun, rfl⟩⟩
  · rintro (⟨⟨rfl, hd⟩, hr, ds, hds, rfl, hv, rfl⟩ | ⟨-, ⟨hcs, ds, hrun, rfl⟩ | ⟨-, hf⟩⟩)
    · refine ⟨hr, .inl ⟨rfl, ds, ?_, hds, rfl, hv, rfl⟩⟩
      rintro rfl
      exact hdigit hr hd
    · obtain ⟨rfl, rfl⟩ := hrun.eq_nil (fun _ => isSubsequent_eq_false_of_isDelimiter) hcs
      exact ⟨hcs, .inr ⟨rfl, rfl⟩⟩
    · exact hf.elim

theorem readString : Recognizes b readString fun v cs r =>
    ∃ body, StringItems body cs ('"' :: r) ∧ v = .string () (String.ofList body) where
  sound {q s t cs v} hs _ h := by
    obtain ⟨body, u, hu, h⟩ := bind_eq_ok_iff.1 h
    rw [modifyGet_apply] at hu
    cases hbody : (stringBody s).1 with
    | none =>
      rw [hbody] at hu
      cases hu
      cases h
    | some items =>
      rw [hbody] at hu
      cases hu
      cases h
      obtain ⟨r, hr, ht⟩ := exists_stringItems hs hbody
      exact ⟨r, ⟨items, hr, rfl⟩, ht⟩
  complete {q s cs r v} hs _ h := by
    obtain ⟨body, hb, rfl⟩ := h
    obtain ⟨hbody, ht⟩ := stringBody_of_stringItems hs hb
    refine ⟨_, ?_, ht⟩
    rw [Reader.readString, bind_apply, modifyGet_apply, hbody]
    rfl
  length_le h := by
    obtain ⟨body, hb, -⟩ := h
    exact Nat.le_of_succ_le hb.isSuffix.length_le

end Recognizes

end SmallScheme.Reader
