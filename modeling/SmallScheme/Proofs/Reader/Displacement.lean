import SmallScheme.Proofs.Reader.Recognition

/-!
# The same text in another place

What the reader does depends on the text to come and on nothing else of the stream, except
that it tells positions. Of the text it depends on what the reader takes and on the character
that comes next. So when two streams have texts to come that agree so far, at positions that
differ by `δ`, it finds the same data in both, or the same fault, `δ` further on.

`Displaced δ b b' x y` says this of two computations, on texts of less than `b` and `b'`
characters. Two and not one, for the reader has budgets that depend on the stream: they may
differ, if only each is great enough for its text.
-/

namespace SmallScheme

/-- The error as it is found `δ` further on. The refusal of a number for its many digits tells
no position. -/
def ReadError.shift (δ : Int) : ReadError → ReadError
  | malformed fault position => malformed fault (position + δ)
  | digitLimit => digitLimit

/-- Streams with the same text to come stand as far apart as the ends of the text. -/
theorem CharStream.At.position_eq {s t : CharStream} {q δ : Int} {cs : List Char}
    (hs : s.At q cs) (ht : t.At (q + δ) cs) : t.position = s.position + δ := by
  have h₁ := hs.position_add
  have h₂ := ht.position_add
  omega

namespace Grammar

/-! ### What follows a phrase

A phrase ends in the same way before another text that starts alike. -/

theorem Atmosphere.of_head? {w r r' : List Char} (h : Atmosphere (w ++ r) r)
    (hr : r'.head? = r.head?) : Atmosphere (w ++ r') r' := by
  generalize hcs : w ++ r = cs at h
  induction h generalizing w with
  | nil =>
    obtain rfl : w = [] := by simpa using hcs
    exact .nil
  | @blank c cs r hc h ih =>
    obtain ⟨w', rfl⟩ := h.isSuffix
    obtain rfl : w = c :: w' := List.append_cancel_right hcs
    exact .blank hc (ih hr rfl)
  | @comment v cs r hv h ih =>
    obtain ⟨w', rfl⟩ := h.isSuffix
    obtain rfl : w = ';' :: (v ++ '\n' :: w') := List.append_cancel_right (by simpa using hcs)
    simp only [List.cons_append, List.append_assoc]
    exact .comment hv (ih hr rfl)
  | lastComment hv =>
    obtain rfl := List.head?_eq_none_iff.1 hr
    rw [List.append_nil] at hcs ⊢
    rw [hcs]
    exact .lastComment hv

theorem StringItems.of_append {body w r : List Char} (h : StringItems body (w ++ r) r)
    (r' : List Char) : StringItems body (w ++ r') r' := by
  generalize hcs : w ++ r = cs at h
  induction h generalizing w with
  | nil =>
    obtain rfl : w = [] := by simpa using hcs
    exact .nil
  | @plain c body cs r hq hb h ih =>
    obtain ⟨w', rfl⟩ := h.isSuffix
    obtain rfl : w = c :: w' := List.append_cancel_right hcs
    exact .plain hq hb (ih rfl)
  | @newline body cs r h ih =>
    obtain ⟨w', rfl⟩ := h.isSuffix
    obtain rfl : w = '\\' :: 'n' :: w' := List.append_cancel_right hcs
    exact .newline (ih rfl)
  | @escaped c body cs r hc h ih =>
    obtain ⟨w', rfl⟩ := h.isSuffix
    obtain rfl : w = '\\' :: c :: w' := List.append_cancel_right hcs
    exact .escaped hc (ih rfl)

end Grammar

namespace Reader

open CharStream Grammar Sequencing

/-- A string that does not end takes all that is left. -/
theorem at_of_stringBody_eq_none {s : CharStream} {q : Int} {cs : List Char} (hs : s.At q cs)
    (h : (stringBody s).1 = none) : (stringBody s).2.At q [] := by
  fun_induction stringBody s generalizing cs with
  | case1 s t hn => exact (hs.eq_nil_of_next hn).2
  | case2 s t hn => cases h
  | case3 s t u hu hn _ =>
    obtain ⟨cs, rfl, ht⟩ := hs.eq_cons_of_next hn
    exact (ht.eq_nil_of_next hu).2
  | case4 s t e u hu body' v hb hn _ ih =>
    obtain ⟨cs, rfl, ht⟩ := hs.eq_cons_of_next hn
    obtain ⟨cs, rfl, hu⟩ := ht.eq_cons_of_next hu
    rw [hb] at ih
    exact ih hu (Option.map_eq_none_iff.1 h)
  | case5 s c t hn hq hbs body' v hb ih =>
    obtain ⟨cs, rfl, ht⟩ := hs.eq_cons_of_next hn
    rw [hb] at ih
    exact ih ht (Option.map_eq_none_iff.1 h)

/-- What a computation comes to: an answer or an error, and the stream after it. -/
def EndsWith {α : Type} (x : ReadM α) (s : CharStream) (o : Except ReadError α)
    (t : CharStream) : Prop :=
  x s = match o with
    | .ok a => .ok a t
    | .error e => .error e t

theorem EndsWith.unique {α : Type} {x : ReadM α} {s t t' : CharStream}
    {o o' : Except ReadError α} (h : EndsWith x s o t) (h' : EndsWith x s o' t') :
    o = o' ∧ t = t' := by
  have heq := Eq.trans (Eq.symm h) h'
  cases o <;> cases o' <;> cases heq <;> exact ⟨rfl, rfl⟩

theorem endsWith_modifyGet {α : Type} {g : CharStream → α × CharStream} {s : CharStream} {a : α}
    (h : (g s).1 = a) : EndsWith (modifyGet g) s (.ok a) (g s).2 := by
  subst h
  rfl

theorem EndsWith.bind {α β : Type} {x : ReadM α} {k : α → ReadM β} {s t u : CharStream} {a : α}
    {o : Except ReadError β} (hx : EndsWith x s (.ok a) t) (hk : EndsWith (k a) t o u) :
    EndsWith (x >>= k) s o u :=
  (bind_of_ok hx k).trans hk

/-- On a stream with the text `cs` to come `x` takes `w` and leaves `r`. Wherever `w` is to come,
and after it what starts as `r` does, `y` takes `w` as well and gives the same answer or the same
error, which tells a place `δ` further on if the stream is `δ` further on. -/
structure Displaced {α : Type} (δ : Int) (b b' : Nat) (x y : ReadM α) : Prop where
  alike {q : Int} {s : CharStream} {cs : List Char} :
    s.At q cs → cs.length < b →
      ∃ o s' w r, EndsWith x s o s' ∧ cs = w ++ r ∧ s'.At q r ∧
        ∀ {q' : Int} {t : CharStream} {r' : List Char},
          t.At q' (w ++ r') → (w ++ r').length < b' → t.position = s.position + δ →
            r'.head? = r.head? →
              ∃ t', EndsWith y t (o.mapError (ReadError.shift δ)) t' ∧ t'.At q' r'

/-- Two streams that have taken the same stand as far apart as before. -/
theorem position_eq_of_taken {s s' t t' : CharStream} {q q' δ : Int} {w r r' : List Char}
    (hs : s.At q (w ++ r)) (hs' : s'.At q r) (ht : t.At q' (w ++ r')) (ht' : t'.At q' r')
    (h : t.position = s.position + δ) : t'.position = s'.position + δ := by
  have h₁ := hs.position_add
  have h₂ := hs'.position_add
  have h₃ := ht.position_add
  have h₄ := ht'.position_add
  simp only [List.length_append] at h₁ h₃
  omega

namespace Displaced

variable {α β : Type} {δ : Int} {b b' c c' : Nat} {x y x' y' : ReadM α} {k l : α → ReadM β}

theorem mono (h : Displaced δ b b' x y) (hb : c ≤ b) (hb' : c' ≤ b') :
    Displaced δ c c' x y := by
  refine ⟨fun hs hcs => ?_⟩
  obtain ⟨o, s', w, r, hx, hw, hs', hy⟩ := h.alike hs (by omega)
  exact ⟨o, s', w, r, hx, hw, hs', fun ht hb => hy ht (by omega)⟩

/-- Nothing is said of the second computation if no text is short enough for it. -/
theorem of_zero (h : Displaced δ b b' x y) (y' : ReadM α) : Displaced δ b 0 x y' := by
  refine ⟨fun hs hcs => ?_⟩
  obtain ⟨o, s', w, r, hx, hw, hs', -⟩ := h.alike hs hcs
  exact ⟨o, s', w, r, hx, hw, hs', fun _ hb => absurd hb (Nat.not_lt_zero _)⟩

theorem pure (a : α) : Displaced δ b b' (pure a) (pure a) :=
  ⟨fun {_ s cs} hs _ => ⟨.ok a, s, [], cs, rfl, rfl, hs, fun {_ t _} ht _ _ _ => ⟨t, rfl, ht⟩⟩⟩

theorem throw {e : ReadError} (he : e.shift δ = e) :
    Displaced δ b b' (throw e : ReadM α) (throw e) := by
  refine ⟨fun {_ s cs} hs _ => ⟨.error e, s, [], cs, rfl, rfl, hs, fun {_ t _} ht _ _ _ => ?_⟩⟩
  exact ⟨t, by rw [Except.mapError, he]; rfl, ht⟩

/-- A fault is told with its position. -/
theorem fail (fault : ReadFault) : Displaced δ b b' (fail fault : ReadM α) (fail fault) := by
  refine ⟨fun {_ s cs} hs _ => ⟨.error (.malformed fault s.position), s, [], cs, rfl, rfl, hs, ?_⟩⟩
  intro q' t r' ht _ hpos _
  exact ⟨t, by rw [Except.mapError, ReadError.shift, ← hpos]; rfl, ht⟩

/-- One computation after the other. If the first answers `a`, it has taken at least `m a`
characters. -/
theorem bind_of_length {m : α → Nat} (hx : Displaced δ b b' x y)
    (hm : ∀ {q s w r a s'}, s.At q (w ++ r) → EndsWith x s (.ok a) s' → s'.At q r →
      m a ≤ w.length)
    (hk : ∀ a, Displaced δ (b - m a) (b' - m a) (k a) (l a)) :
    Displaced δ b b' (x >>= k) (y >>= l) := by
  refine ⟨fun {q s cs} hs hb => ?_⟩
  obtain ⟨o, s', w, r, hx, rfl, hs', hy⟩ := hx.alike hs hb
  cases o with
  | error e =>
    refine ⟨.error e, s', w, r, bind_of_error hx k, rfl, hs', fun ht hb hpos hr => ?_⟩
    obtain ⟨t', hy, ht'⟩ := hy ht hb hpos hr
    exact ⟨t', bind_of_error hy l, ht'⟩
  | ok a =>
    have hlen := hm hs hx hs'
    rw [List.length_append] at hb
    obtain ⟨o, s'', w', r', hk, rfl, hs'', hl⟩ := (hk a).alike hs' (by omega)
    refine ⟨o, s'', w ++ w', r', hx.bind hk, (List.append_assoc ..).symm, hs'', ?_⟩
    intro q' t r'' ht hb' hpos hr
    rw [List.append_assoc] at ht hb'
    -- what follows `w` starts as before: with `w'`, or with what follows that
    have hhead : (w' ++ r'').head? = (w' ++ r').head? := by
      cases w' with
      | nil => exact hr
      | cons => rfl
    obtain ⟨t', hy, ht'⟩ := hy ht hb' hpos hhead
    rw [List.length_append] at hb'
    obtain ⟨t'', hl, ht''⟩ := hl ht' (by omega) (position_eq_of_taken hs hs' ht ht' hpos) hr
    exact ⟨t'', EndsWith.bind (a := a) hy hl, ht''⟩

theorem bind (hx : Displaced δ b b' x y) (hk : ∀ a, Displaced δ b b' (k a) (l a)) :
    Displaced δ b b' (x >>= k) (y >>= l) :=
  hx.bind_of_length (m := fun _ => 0) (fun _ _ _ => Nat.zero_le _) hk

theorem ite {p : Prop} [Decidable p] (hx : p → Displaced δ b b' x y)
    (hy : ¬ p → Displaced δ b b' x' y') :
    Displaced δ b b' (if p then x else x') (if p then y else y') := by
  by_cases hp : p
  · rw [if_pos hp, if_pos hp]
    exact hx hp
  · rw [if_neg hp, if_neg hp]
    exact hy hp

/-! ### Items -/

/-- An operation on the stream that follows an operation on the text, and looks at no more of
the text than it takes and one character. -/
theorem of_modifyGet {g : CharStream → α × CharStream} {answer : List Char → α}
    {taken rest : List Char → List Char}
    (hg : ∀ {q s cs}, s.At q cs → (g s).1 = answer cs ∧ (g s).2.At q (rest cs))
    (happend : ∀ cs, cs = taken cs ++ rest cs)
    (hlocal : ∀ cs r, r.head? = (rest cs).head? →
      answer (taken cs ++ r) = answer cs ∧ rest (taken cs ++ r) = r) :
    Displaced δ b b' (modifyGet g : ReadM α) (modifyGet g) := by
  refine ⟨fun {q s cs} hs _ => ?_⟩
  obtain ⟨ha, hs'⟩ := hg hs
  refine ⟨.ok (answer cs), _, taken cs, rest cs, endsWith_modifyGet ha, happend cs, hs', ?_⟩
  intro q' t r ht _ _ hr
  obtain ⟨ha', ht'⟩ := hg ht
  obtain ⟨hanswer, hrest⟩ := hlocal cs r hr
  rw [hanswer] at ha'
  rw [hrest] at ht'
  exact ⟨_, endsWith_modifyGet ha', ht'⟩

theorem next : Displaced δ b b' next next := by
  refine of_modifyGet At.next (fun cs => show cs = cs.take 1 ++ cs.tail from ?_) fun cs r hr => ?_
  · cases cs <;> rfl
  · cases cs with
    | nil =>
      obtain rfl := List.head?_eq_none_iff.1 hr
      exact ⟨rfl, rfl⟩
    | cons c cs => exact ⟨rfl, rfl⟩

theorem peek : Displaced δ b b' peek peek :=
  of_modifyGet At.peek (fun cs => show cs = [] ++ cs from rfl) fun _ _ hr => ⟨hr, rfl⟩

theorem takeRun (p : Char → Bool) : Displaced δ b b' (takeRun p) (takeRun p) := by
  refine of_modifyGet (At.takeRun p) (fun cs => List.takeWhile_append_dropWhile.symm) ?_
  intro cs r hr
  have hrun : Run p (cs.takeWhile p) (cs.takeWhile p ++ r) r := by
    refine ⟨rfl, fun d hd => List.mem_takeWhile_imp hd, fun d hd => ?_⟩
    rw [hr] at hd
    exact (run_iff.2 ⟨rfl, rfl⟩ : Run p _ cs _).maximal d hd
  obtain ⟨htake, hdrop⟩ := run_iff.1 hrun
  exact ⟨htake.symm, hdrop.symm⟩

theorem expectDelimiter (what : Delimited) :
    Displaced δ b b' (expectDelimiter what) (expectDelimiter what) :=
  peek.bind fun _ => ite (fun _ => fail _) fun _ => pure ()

/-- A character taken leaves a text that is shorter. -/
theorem bind_next {k l : Option Char → ReadM β} (hnone : Displaced δ b b' (k none) (l none))
    (hsome : ∀ c, Displaced δ (b - 1) (b' - 1) (k (some c)) (l (some c))) :
    Displaced δ b b' (Reader.next >>= k) (Reader.next >>= l) := by
  refine next.bind_of_length (m := fun item => item.toList.length) ?_ fun item => ?_
  · intro q s w r item s' hs hx hs'
    obtain ⟨rfl, rfl⟩ := EStateM.Result.ok.inj
      (show EStateM.Result.ok s.next.1 s.next.2 = .ok item s' from hx)
    have hr := hs'.delivers.unique hs.next.2.delivers
    rw [hs.next.1]
    cases w with
    | nil =>
      -- no character was taken, so there was none
      cases r with
      | nil => rfl
      | cons c r => simp at hr
    | cons c w => simp
  · cases item with
    | none => exact hnone
    | some c => exact hsome c

theorem skipAtmosphere : Displaced δ b b' (modify CharStream.skipAtmosphere)
    (modify CharStream.skipAtmosphere) := by
  refine ⟨fun {q s cs} hs _ => ?_⟩
  obtain ⟨r, ha, hr, hs'⟩ := hs.exists_skipAtmosphere
  obtain ⟨w, rfl⟩ := ha.isSuffix
  refine ⟨.ok (), _, w, r, rfl, rfl, hs', fun {q' t r'} ht _ _ hhead => ⟨_, rfl, ?_⟩⟩
  refine ht.skipAtmosphere (ha.of_head? hhead) ?_
  rwa [IsTrimmed, hhead]

theorem bind_nextToken {k l : Option Char → ReadM β} (hnone : Displaced δ b b' (k none) (l none))
    (hsome : ∀ c, Displaced δ (b - 1) (b' - 1) (k (some c)) (l (some c))) :
    Displaced δ b b' (Reader.nextToken >>= k) (Reader.nextToken >>= l) :=
  skipAtmosphere.bind fun _ => bind_next hnone hsome

/-! ### Atoms -/

theorem readName (name : String) (letters : List Char) :
    Displaced δ b b' (readName name letters) (readName name letters) := by
  induction letters with
  | nil => exact pure ()
  | cons c letters ih => exact next.bind fun _ => ite (fun _ => ih) fun _ => fail _

theorem delimited (what : Delimited) (v : Datum) :
    Displaced δ b b' (do Reader.expectDelimiter what; return v)
      (do Reader.expectDelimiter what; return v) :=
  (expectDelimiter what).bind fun _ => pure v

theorem readCharacter : Displaced δ b b' readCharacter readCharacter := by
  refine next.bind fun item => ?_
  cases item with
  | none => exact fail _
  | some c =>
    exact peek.bind fun _ => ite (fun _ => (readName _ _).bind fun _ => delimited _ _)
      fun _ => ite (fun _ => (readName _ _).bind fun _ => delimited _ _) fun _ => delimited _ _

theorem readHash : Displaced δ b b' readHash readHash :=
  next.bind fun _ => ite (fun _ => delimited _ _) fun _ => ite (fun _ => delimited _ _) fun _ =>
    ite (fun _ => readCharacter) fun _ => fail _

theorem readNumber (negative : Bool) (ds : List Char) :
    Displaced δ b b' (readNumber negative ds) (readNumber negative ds) :=
  (takeRun _).bind fun _ => (expectDelimiter _).bind fun _ =>
    ite (fun _ => pure _) fun _ => ite (fun _ => fail _) fun _ => throw rfl

theorem readSymbol (c : Char) : Displaced δ b b' (readSymbol c) (readSymbol c) :=
  (takeRun _).bind fun _ => pure _

theorem readSigned (c : Char) : Displaced δ b b' (readSigned c) (readSigned c) :=
  peek.bind fun _ => ite (fun _ => readNumber true []) fun _ =>
    ite (fun _ => readSymbol c) fun _ => fail _

theorem readString : Displaced δ b b' readString readString := by
  refine bind (x := modifyGet stringBody) ⟨fun {q s cs} hs _ => ?_⟩ fun body => ?_
  · cases hbody : (stringBody s).1 with
    | some body =>
      obtain ⟨r, hr, hs'⟩ := exists_stringItems hs hbody
      obtain ⟨w, rfl⟩ := hr.isSuffix
      refine ⟨.ok (some body), _, w ++ ['"'], r, ?_, by simp, hs', fun {q' t r'} ht _ _ _ => ?_⟩
      · exact endsWith_modifyGet hbody
      · rw [List.append_assoc] at ht
        obtain ⟨hbody', ht'⟩ := stringBody_of_stringItems ht (hr.of_append ('"' :: r'))
        exact ⟨_, endsWith_modifyGet hbody', ht'⟩
    | none =>
      refine ⟨.ok none, _, cs, [], ?_, by simp, at_of_stringBody_eq_none hs hbody, ?_⟩
      · exact endsWith_modifyGet hbody
      · intro q' t r' ht _ _ hhead
        obtain rfl := List.head?_eq_none_iff.1 hhead
        rw [List.append_nil] at ht
        have hnone : (stringBody t).1 = none := by
          by_contra hsome
          obtain ⟨body, hbody'⟩ := Option.ne_none_iff_exists'.1 hsome
          obtain ⟨r, hr, -⟩ := exists_stringItems ht hbody'
          rw [(stringBody_of_stringItems hs hr).1] at hbody
          cases hbody
        exact ⟨_, endsWith_modifyGet hnone, at_of_stringBody_eq_none ht hnone⟩
  · cases body with
    | none => exact fail _
    | some body => exact pure _

/-! ### Lists and data -/

section Inner

variable {inner inner' : Char → ReadM Datum} (hin : ∀ c, Displaced δ b b' (inner c) (inner' c))
include hin

theorem readRequired (awaiting : Awaiting) :
    Displaced δ b b' (readRequired inner awaiting) (readRequired inner' awaiting) :=
  bind_nextToken (fail _) fun c => (hin c).mono (Nat.sub_le b 1) (Nat.sub_le b' 1)

theorem readTail : Displaced δ b b' (readTail inner) (readTail inner') :=
  (expectDelimiter _).bind fun _ => (readRequired hin _).bind fun tail =>
    (skipAtmosphere.bind fun _ => next).bind fun _ => ite (fun _ => pure tail) fun _ => fail _

/-- The loop over the elements of a list, under budgets that are great enough for the texts. -/
theorem readItems {m m' budget budget' : Nat} (hm : m ≤ b) (hm' : m' ≤ b') (hb : m ≤ budget)
    (hb' : m' ≤ budget') (items : List Datum) :
    Displaced δ m m' (readItems inner budget items) (readItems inner' budget' items) := by
  induction m generalizing m' budget budget' items with
  | zero => exact ⟨fun _ h => absurd h (Nat.not_lt_zero _)⟩
  | succ m ih =>
    obtain ⟨k, rfl⟩ := Nat.exists_eq_add_one_of_ne_zero (Nat.ne_zero_of_lt hb)
    have hround {j i : Nat} (hj : j ≤ b') (hi : j ≤ i) : Displaced δ (m + 1) (j + 1)
        (Reader.readItems inner (k + 1) items) (Reader.readItems inner' (i + 1) items) := by
      have hin' : ∀ c, Displaced δ m j (inner c) (inner' c) := fun c => (hin c).mono (by omega) hj
      exact bind_nextToken (fail _) fun c => ite (fun _ => pure _) fun _ =>
        ite (fun _ => ite (fun _ => fail _) fun _ => (readTail hin').bind fun _ => pure _)
          fun _ => (hin' c).bind fun v => ih (by omega) hj (by omega) hi (v :: items)
    cases m' with
    | zero => exact (hround (Nat.zero_le b') (Nat.zero_le 0)).of_zero _
    | succ m' =>
      obtain ⟨k', rfl⟩ := Nat.exists_eq_add_one_of_ne_zero (Nat.ne_zero_of_lt hb')
      exact hround (by omega) (by omega)

theorem readFrom {budget budget' : Nat} (hb : b ≤ budget) (hb' : b' ≤ budget') (c : Char) :
    Displaced δ b b' (readFrom inner budget c) (readFrom inner' budget' c) :=
  ite (fun _ => readHash) fun _ => ite (fun _ => readNumber _ _) fun _ =>
    ite (fun _ => readSigned c) fun _ => ite (fun _ => readString) fun _ =>
    ite (fun _ => readSymbol c) fun _ =>
    ite (fun _ => readItems hin (Nat.le_refl b) (Nat.le_refl b') hb hb' []) fun _ =>
    ite (fun _ => (readRequired hin _).bind fun _ => pure _) fun _ => fail _

end Inner

/-- A datum is read alike under any two budgets that are great enough for the texts. -/
theorem readDatum {budget budget' : Nat} (hb : b ≤ budget) (hb' : b' ≤ budget') (nesting : Nat)
    (c : Char) : Displaced δ b b' (readDatum budget nesting c) (readDatum budget' nesting c) := by
  induction nesting generalizing c with
  | zero => exact fail _
  | succ nesting ih => exact readFrom ih hb hb' c

/-- **What is read depends on what is taken and on the character that comes next.** -/
theorem read (nesting : Nat) : Displaced δ b b' (read nesting) (read nesting) := by
  refine bind_nextToken (pure none) fun c => ⟨fun {q s cs} hs hb => ?_⟩
  have hdatum (m : Nat) : Displaced δ (cs.length + 1) m
      (Reader.readDatum (s.available + 1) nesting c >>= fun d => Pure.pure (some d))
      (Reader.readDatum m nesting c >>= fun d => Pure.pure (some d)) :=
    (readDatum (Nat.succ_le_succ hs.delivers.length_le_available) (Nat.le_refl m) nesting c).bind
      fun d => pure _
  obtain ⟨o, s', w, r, hx, hcs, hs', -⟩ := (hdatum 0).alike hs (Nat.lt_succ_self _)
  refine ⟨o, s', w, r, hx, hcs, hs', fun {q' t r'} ht _ hpos hr => ?_⟩
  -- the second budget is that of the other stream; what is taken does not depend on it
  obtain ⟨o₁, s₁, w₁, r₁, hx₁, hcs₁, hs₁, hy⟩ :=
    (hdatum (t.available + 1)).alike hs (Nat.lt_succ_self _)
  obtain ⟨rfl, rfl⟩ := hx.unique hx₁
  obtain rfl := hs'.delivers.unique hs₁.delivers
  obtain rfl := List.append_cancel_right (hcs.symm.trans hcs₁)
  exact hy ht (Nat.lt_succ_of_le ht.delivers.length_le_available) hpos hr

end Displaced

/-- **What is read depends on the text to come**, and not on where it stands. Moreover the two
texts may differ in the blanks and comments they start with. -/
theorem read_alike {nesting : Nat} {q δ : Int} {s t : CharStream} {cs cs' : List Char}
    (hs : s.At q cs) (ht : t.At (q + δ) cs') (h : ∀ r, Atmosphere cs r → Atmosphere cs' r) :
    (∃ s' t', read nesting s = .ok none s' ∧ read nesting t = .ok none t' ∧
      t'.position = s'.position + δ) ∨
    (∃ d s' t' r, read nesting s = .ok (some d) s' ∧ read nesting t = .ok (some d) t' ∧
      s'.At q r ∧ t'.At (q + δ) r) ∨
    ∃ e s' t', read nesting s = .error e s' ∧ read nesting t = .error (e.shift δ) t' ∧
      t'.position = s'.position + δ := by
  obtain ⟨r, ha, hr, hs'⟩ := hs.exists_skipAtmosphere
  have ht' := ht.skipAtmosphere (h r ha) hr
  obtain ⟨hitem, hs''⟩ := hs'.next
  obtain ⟨hitem', ht''⟩ := ht'.next
  have hx : nextToken s = .ok r.head? s.skipAtmosphere.next.2 := by
    rw [← hitem]
    rfl
  have hy : nextToken t = .ok r.head? t.skipAtmosphere.next.2 := by
    rw [← hitem']
    rfl
  rw [read, bind_of_ok hx, bind_of_ok hy]
  cases r with
  | nil => exact .inl ⟨_, _, rfl, rfl, hs''.position_eq ht''⟩
  | cons c r =>
    have hd := Displaced.readDatum (δ := δ)
      (Nat.succ_le_succ hs''.delivers.length_le_available)
      (Nat.succ_le_succ ht''.delivers.length_le_available) nesting c
    obtain ⟨o, s₁, w, r', hd, hw, hs₁, hd'⟩ := hd.alike hs'' (Nat.lt_succ_self _)
    rw [List.tail_cons] at hw ht''
    subst hw
    obtain ⟨t₁, hd', ht₁⟩ := hd' ht'' (Nat.lt_succ_self _) (hs''.position_eq ht'') rfl
    cases o with
    | ok d =>
      exact .inr (.inl ⟨d, s₁, t₁, r', bind_eq_ok_iff.2 ⟨_, _, rfl, bind_of_ok hd _⟩,
        bind_eq_ok_iff.2 ⟨_, _, rfl, bind_of_ok hd' _⟩, hs₁, ht₁⟩)
    | error e =>
      exact .inr (.inr ⟨e, s₁, t₁, bind_of_error hd _, bind_of_error hd' _, hs₁.position_eq ht₁⟩)

end Reader

end SmallScheme
