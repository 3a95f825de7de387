import SmallScheme.Proofs.Reader.Displacement

/-!
# Where a stream stands in its text

A stream that reads a text and nothing else stands somewhere in it: what it has still to
deliver is an end of the text, and its position is what comes before (`Stands`). The reader
takes items one at a time and pushes back at most the last of them, so wherever it stops it
leaves a stream that stands in the text, with at most one item pushed back.

Where it stops with an error, more can be said. The error tells the position of the stream.
The item that showed what is wrong is the last one taken: a character, which was pushed back
or not, or the end of the text (`FoundAt`). Data nested too deeply need as many characters as
they nest levels.

## The model

`Meets text deep x s Q` says how the computation `x` ends when it starts at the stream `s`: with
an answer and a stream that have the property `Q`, or with an error that is told as described.
The number `n` in `Within`, `Took` and `Saw` bounds the characters that are still to come.
-/

namespace SmallScheme

namespace CharStream

open Grammar

/-- At most one item is pushed back, and a stream whose source has been asked at its end has no
more characters to deliver. -/
structure Tidy (s : CharStream) : Prop where
  length_pushback : s.pushback.length ≤ 1
  delivers_nil : s.exhausted = true → s.Delivers []

variable {s : CharStream}

namespace Tidy

/-- A tidy stream has nothing pushed back once an item was taken. -/
theorem pushback_next (h : s.Tidy) : s.next.2.pushback = [] := by
  obtain ⟨pushback, source, p, x⟩ := s
  have hlen : pushback.length ≤ 1 := h.length_pushback
  rcases pushback with _ | ⟨_ | c, items⟩
  · cases source <;> rfl
  all_goals
    obtain rfl : items = [] := List.eq_nil_of_length_eq_zero (by simpa using hlen)
    rfl

/-- The source is asked at its end when there is no character left. -/
theorem next_eq_none (h : s.Tidy) (hx : s.next.2.exhausted = true) :
    s.next.1 = none ∧ s.next.2.Delivers [] := by
  by_cases hs : s.exhausted = true
  · obtain ⟨hnone, hd, -⟩ := (h.delivers_nil hs).next_nil
    exact ⟨hnone, hd⟩
  · obtain ⟨pushback, source, p, x⟩ := s
    rcases pushback with _ | ⟨_ | c, items⟩
    · cases source with
      | nil => exact ⟨rfl, rfl, by simp [CharStream.next]⟩
      | cons c source => exact absurd hx hs
    · exact absurd hx hs
    · exact absurd hx hs

theorem next (h : s.Tidy) : s.next.2.Tidy :=
  ⟨by rw [h.pushback_next]; exact Nat.zero_le _, fun hx => (h.next_eq_none hx).2⟩

/-- Pushing back the item that was just taken keeps a stream tidy. -/
theorem unread_next (h : s.Tidy) : (s.next.2.unread s.next.1).Tidy := by
  refine ⟨?_, fun hx => ?_⟩
  · cases hitem : s.next.1 <;> simp [unread, h.pushback_next]
  · have hx' : s.next.2.exhausted = true := by
      cases hitem : s.next.1 <;> simpa [unread, hitem] using hx
    obtain ⟨hnone, hsource, hpushback⟩ := h.next_eq_none hx'
    rw [hnone]
    exact ⟨hsource, by simpa [unread] using hpushback⟩

theorem unread_of_next {t : CharStream} {item : Option Char} (h : s.Tidy)
    (hn : s.next = (item, t)) : (t.unread item).Tidy := by
  have h' := h.unread_next
  rwa [hn] at h'

theorem of_next {t : CharStream} {item : Option Char} (h : s.Tidy) (hn : s.next = (item, t)) :
    t.Tidy ∧ t.pushback = [] := by
  have h₁ := h.next
  have h₂ := h.pushback_next
  rw [hn] at h₁ h₂
  exact ⟨h₁, h₂⟩

theorem takeRun (p : Char → Bool) (h : s.Tidy) : (s.takeRun p).2.Tidy := by
  fun_induction CharStream.takeRun p s with
  | case1 s c t hn hp cs u hrun ih =>
    rw [hrun] at ih
    exact ih (h.of_next hn).1
  | case2 s c t hn hp => exact h.unread_of_next hn
  | case3 s t hn => exact h.unread_of_next hn

theorem skipLine (h : s.Tidy) : s.skipLine.Tidy := by
  fun_induction CharStream.skipLine s with
  | case1 s t hn => exact (h.of_next hn).1
  | case2 s c t hn hc ih => exact ih (h.of_next hn).1
  | case3 s t hn => exact (h.of_next hn).1

theorem skipAtmosphere (h : s.Tidy) : s.skipAtmosphere.Tidy := by
  fun_induction CharStream.skipAtmosphere s with
  | case1 s c t hn hb ih => exact ih (h.of_next hn).1
  | case2 s t hn hb ih => exact ih (h.of_next hn).1.skipLine
  | case3 s c t hn hb hs => exact h.unread_of_next hn
  | case4 s t hn => exact h.unread_of_next hn

/-- A string ends with an item that was taken. -/
theorem stringBody (h : s.Tidy) :
    (Reader.stringBody s).2.Tidy ∧ (Reader.stringBody s).2.pushback = [] := by
  fun_induction Reader.stringBody s with
  | case1 s t hn => exact h.of_next hn
  | case2 s t hn => exact h.of_next hn
  | case3 s t u hu hn _ => exact (h.of_next hn).1.of_next hu
  | case4 s t e u hu body v hb hn _ ih =>
    rw [hb] at ih
    exact ih ((h.of_next hn).1.of_next hu).1
  | case5 s c t hn hq hbs body v hb ih =>
    rw [hb] at ih
    exact ih (h.of_next hn).1

end Tidy

/-! ### Standing in a text -/

/-- The stream stands in `text` where `cs` is to come. -/
structure Stands (text cs : List Char) (s : CharStream) : Prop where
  isAt : s.At text.length cs
  isSuffix : cs <:+ text
  tidy : s.Tidy

variable {text cs : List Char} {n : Nat} {item : Option Char}

theorem stands_ofString (text : String) : (ofString text).Stands text.toList text.toList where
  isAt := at_ofString text
  isSuffix := List.suffix_refl _
  tidy := ⟨Nat.zero_le _, nofun⟩

/-- The position is that of what is to come. -/
theorem Stands.position_eq (h : s.Stands text cs) :
    s.position = (text.length - cs.length : Nat) := by
  have hq := h.isAt.position_add
  have hle := h.isSuffix.length_le
  omega

/-- What is to come is what follows the position. -/
theorem Stands.drop_position (h : s.Stands text cs) : text.drop s.position.toNat = cs := by
  rw [h.position_eq, Int.toNat_natCast]
  exact List.suffix_iff_eq_drop.1 h.isSuffix |>.symm

/-- The stream stands in `text`, and at most `n` characters are to come. -/
def Within (text : List Char) (n : Nat) (s : CharStream) : Prop :=
  ∃ cs, s.Stands text cs ∧ cs.length ≤ n

theorem Stands.within (h : s.Stands text cs) : s.Within text text.length :=
  ⟨cs, h, h.isSuffix.length_le⟩

/-- The stream stands in `text` right after `item`; before it was taken, at most `n` characters
were to come. -/
def Took (text : List Char) (n : Nat) (item : Option Char) (s : CharStream) : Prop :=
  ∃ cs, s.Stands text cs ∧ s.pushback = [] ∧ item.toList ++ cs <:+ text ∧
    (item.toList ++ cs).length ≤ n ∧ (item = none → cs = [])

/-- The stream stands in `text` right before `item`, which is pushed back, and at most `n`
characters are to come. -/
def Saw (text : List Char) (n : Nat) (item : Option Char) (s : CharStream) : Prop :=
  ∃ cs, s.Stands text cs ∧ s.pushback = [item] ∧ item = cs.head? ∧ cs.length ≤ n

theorem Within.mono {m : Nat} (h : s.Within text n) (hle : n ≤ m) : s.Within text m := by
  obtain ⟨cs, hs, hlen⟩ := h
  exact ⟨cs, hs, Nat.le_trans hlen hle⟩

theorem Within.exists_stands (h : s.Within text n) : ∃ cs, s.Stands text cs := by
  obtain ⟨cs, hs, -⟩ := h
  exact ⟨cs, hs⟩

theorem Took.within (h : s.Took text n item) : s.Within text n := by
  obtain ⟨cs, hs, -, -, hlen, -⟩ := h
  refine ⟨cs, hs, ?_⟩
  rw [List.length_append] at hlen
  omega

/-- One character fewer is to come after one was taken. -/
theorem Took.within_succ {c : Char} (h : s.Took text (n + 1) (some c)) : s.Within text n := by
  obtain ⟨cs, hs, -, -, hlen, -⟩ := h
  exact ⟨cs, hs, by simpa using hlen⟩

theorem Took.exists_succ {c : Char} (h : s.Took text n (some c)) :
    ∃ k, n = k + 1 := by
  obtain ⟨cs, -, -, -, hlen, -⟩ := h
  exact ⟨n - 1, by simp at hlen; omega⟩

theorem Saw.within (h : s.Saw text n item) : s.Within text n := by
  obtain ⟨cs, hs, -, -, hlen⟩ := h
  exact ⟨cs, hs, hlen⟩

theorem Within.next (h : s.Within text n) : s.next.2.Took text n s.next.1 := by
  obtain ⟨cs, hs, hlen⟩ := h
  obtain ⟨hitem, hat⟩ := hs.isAt.next
  have htail := (List.tail_suffix cs).trans hs.isSuffix
  refine ⟨cs.tail, ⟨hat, htail, hs.tidy.next⟩, hs.tidy.pushback_next, ?_⟩
  rw [hitem]
  cases cs with
  | nil => exact ⟨hs.isSuffix, hlen, fun _ => rfl⟩
  | cons c cs => exact ⟨hs.isSuffix, hlen, nofun⟩

theorem Within.peek (h : s.Within text n) : s.peek.2.Saw text n s.peek.1 := by
  obtain ⟨cs, hs, hlen⟩ := h
  obtain ⟨hitem, hat⟩ := hs.isAt.peek
  refine ⟨cs, ⟨hat, hs.isSuffix, hs.tidy.unread_next⟩, ?_, hitem, hlen⟩
  rw [CharStream.peek]
  cases hnext : s.next.1 <;> simp [unread, hs.tidy.pushback_next]

theorem Within.takeRun (p : Char → Bool) (h : s.Within text n) :
    (s.takeRun p).2.Within text n := by
  obtain ⟨cs, hs, hlen⟩ := h
  have hsuffix := List.dropWhile_suffix (l := cs) p
  exact ⟨_, ⟨(hs.isAt.takeRun p).2, hsuffix.trans hs.isSuffix, hs.tidy.takeRun p⟩,
    Nat.le_trans hsuffix.length_le hlen⟩

/-- A token is no newline. -/
theorem Within.next_skipAtmosphere (h : s.Within text n) :
    s.skipAtmosphere.next.2.Took text n s.skipAtmosphere.next.1 ∧
      s.skipAtmosphere.next.1 ≠ some '\n' := by
  obtain ⟨cs, hs, hlen⟩ := h
  obtain ⟨r, ha, hr, hat⟩ := hs.isAt.exists_skipAtmosphere
  have hle := ha.isSuffix.length_le
  have hw : s.skipAtmosphere.Within text n :=
    ⟨r, ⟨hat, ha.isSuffix.trans hs.isSuffix, hs.tidy.skipAtmosphere⟩, by omega⟩
  refine ⟨hw.next, ?_⟩
  rw [hat.next.1]
  intro hnewline
  exact absurd (hr '\n' hnewline).1 (by decide)

/-- A string that ends leaves less to come; one that does not takes all that is left. -/
theorem Within.stringBody (h : s.Within text n) :
    (Reader.stringBody s).2.Within text n ∧
      ((Reader.stringBody s).1 = none → (Reader.stringBody s).2.Took text n none) := by
  obtain ⟨cs, hs, hlen⟩ := h
  obtain ⟨htidy, hpushback⟩ := hs.tidy.stringBody
  have hnone (hbody : (Reader.stringBody s).1 = none) :
      (Reader.stringBody s).2.Took text n none := by
    have hat := Reader.at_of_stringBody_eq_none hs.isAt hbody
    exact ⟨[], ⟨hat, List.nil_suffix, htidy⟩, hpushback, List.nil_suffix, Nat.zero_le _,
      fun _ => rfl⟩
  refine ⟨?_, hnone⟩
  cases hbody : (Reader.stringBody s).1 with
  | none => exact (hnone hbody).within
  | some body =>
    obtain ⟨r, hr, hat⟩ := Reader.exists_stringItems hs.isAt hbody
    have hsuffix := (List.suffix_cons _ _).trans hr.isSuffix
    exact ⟨r, ⟨hat, hsuffix.trans hs.isSuffix, htidy⟩, Nat.le_trans hsuffix.length_le hlen⟩

end CharStream

/-! ### Where an error is found -/

/-- The fault lies in a newline that has been taken. -/
def ReadFault.AtNewline : ReadFault → Prop
  | unknownLiteral item => item = some '\n'
  | misspeltCharacter item _ => item = some '\n'
  | _ => False

/-- The error is a fault in a newline that has been taken. -/
def ReadError.AtNewline : ReadError → Prop
  | malformed fault _ => fault.AtNewline
  | digitLimit => False

/-- The error is that data nest deeper than allowed. -/
def ReadError.IsDeep : ReadError → Prop
  | malformed fault _ => fault = .tooDeep
  | digitLimit => False

namespace Reader

open CharStream Grammar Sequencing

/-- Which item has shown the error. -/
inductive FoundAt (text : List Char) (e : ReadError) (s : CharStream) : Prop
  /-- The next character, which has been pushed back. -/
  | ahead {c : Char} (h : s.pushback = [some c]) (he : ¬ e.AtNewline)
  /-- The end of the text. -/
  | atEnd (h : s.Delivers []) (he : ¬ e.AtNewline)
  /-- The last character that has been taken. -/
  | last {c : Char} (h : s.pushback = []) (hs : c :: s.source <:+ text)
      (he : e.AtNewline ↔ c = '\n')

/-- How the reader of a text leaves the stream when it fails. Only under the condition `deep` may
it do so because something nests too deeply. -/
structure Fails (text : List Char) (deep : Prop) (e : ReadError) (s : CharStream) : Prop where
  stands : ∃ cs, s.Stands text cs
  position_eq : ∀ fault p, e = .malformed fault p → p = s.position
  foundAt : FoundAt text e s
  isDeep : e.IsDeep → deep

/-- The computation ends with an answer and a stream that have the property `Q`, or fails as the
reader of a text does. -/
def Meets {α : Type} (text : List Char) (deep : Prop) (x : ReadM α) (s : CharStream)
    (Q : α → CharStream → Prop) : Prop :=
  match x s with
  | .ok a t => Q a t
  | .error e t => Fails text deep e t

variable {text : List Char} {deep : Prop} {s : CharStream} {n : Nat}

namespace Meets

variable {α β : Type} {x y : ReadM α} {k : α → ReadM β} {Q R : α → CharStream → Prop}
  {T : β → CharStream → Prop}

theorem of_ok {a : α} {t : CharStream} (h : Meets text deep x s Q) (hx : x s = .ok a t) :
    Q a t := by
  rwa [Meets, hx] at h

theorem of_error {e : ReadError} {t : CharStream} (h : Meets text deep x s Q)
    (hx : x s = .error e t) : Fails text deep e t := by
  rwa [Meets, hx] at h

theorem mono (h : Meets text deep x s Q) (hQ : ∀ a t, Q a t → R a t) : Meets text deep x s R := by
  unfold Meets at h ⊢
  split
  · next a t hx =>
    rw [hx] at h
    exact hQ a t h
  · next e t hx => rwa [hx] at h

theorem pure {a : α} (h : Q a s) : Meets text deep (pure a) s Q := h

theorem bind (hx : Meets text deep x s Q) (hk : ∀ a t, Q a t → Meets text deep (k a) t T) :
    Meets text deep (x >>= k) s T := by
  rw [Meets, bind_apply]
  cases hs : x s with
  | ok a t => exact hk a t (hx.of_ok hs)
  | error e t => exact hx.of_error hs

theorem ite {p : Prop} [Decidable p] (hx : p → Meets text deep x s Q)
    (hy : ¬ p → Meets text deep y s Q) : Meets text deep (if p then x else y) s Q := by
  by_cases hp : p
  · rw [if_pos hp]
    exact hx hp
  · rw [if_neg hp]
    exact hy hp

end Meets

section Failing

variable {α : Type} {Q : α → CharStream → Prop} {item : Option Char} {fault : ReadFault}

theorem foundAt_of_took {e : ReadError} (h : s.Took text n item)
    (he : e.AtNewline ↔ item = some '\n') : FoundAt text e s := by
  obtain ⟨cs, hs, hpushback, hsuffix, -, hnone⟩ := h
  cases item with
  | none =>
    obtain rfl := hnone rfl
    exact .atEnd hs.isAt.delivers (by simp [he])
  | some c =>
    refine .last (c := c) hpushback ?_ (by simp [he])
    have hsource : s.source = cs := by
      obtain ⟨pushback, source, p, x⟩ := s
      obtain rfl : pushback = [] := hpushback
      exact (delivers_source source p x).unique hs.isAt.delivers
    rwa [hsource]

/-- A fault shown by the item that was just taken. -/
theorem meets_fail_of_took (h : s.Took text n item) (hf : fault.AtNewline ↔ item = some '\n')
    (hd : fault = .tooDeep → deep) : Meets text deep (fail fault : ReadM α) s Q where
  stands := h.within.exists_stands
  position_eq := by
    rintro fault p ⟨⟩
    rfl
  foundAt := foundAt_of_took h hf
  isDeep := hd

theorem foundAt_of_saw {e : ReadError} (h : s.Saw text n item) (he : ¬ e.AtNewline) :
    FoundAt text e s := by
  obtain ⟨cs, hs, hpushback, rfl, -⟩ := h
  cases cs with
  | nil => exact .atEnd hs.isAt.delivers he
  | cons c cs => exact .ahead hpushback he

/-- A fault shown by the item that comes next. -/
theorem meets_fail_of_saw (h : s.Saw text n item) (hf : ¬ fault.AtNewline)
    (hd : fault ≠ .tooDeep) : Meets text deep (fail fault : ReadM α) s Q where
  stands := h.within.exists_stands
  position_eq := by
    rintro fault p ⟨⟩
    rfl
  foundAt := foundAt_of_saw h hf
  isDeep := fun h => absurd h hd

end Failing

/-! ### Items -/

theorem meets_next (h : s.Within text n) :
    Meets text deep next s fun item t => t.Took text n item := h.next

theorem meets_peek (h : s.Within text n) :
    Meets text deep peek s fun item t => t.Saw text n item := h.peek

theorem meets_nextToken (h : s.Within text n) : Meets text deep nextToken s fun item t =>
    t.Took text n item ∧ item ≠ some '\n' := h.next_skipAtmosphere

theorem meets_takeRun (p : Char → Bool) (h : s.Within text n) :
    Meets text deep (takeRun p) s fun _ t => t.Within text n := h.takeRun p

theorem meets_expectDelimiter (what : Delimited) (h : s.Within text n) :
    Meets text deep (expectDelimiter what) s fun _ t => ∃ item, t.Saw text n item :=
  (meets_peek h).bind fun item _ ht =>
    .ite (fun _ => meets_fail_of_saw ht id nofun) fun _ => .pure ⟨item, ht⟩

/-! ### Atoms -/

/-- A literal that is over has to be followed by a delimiter. -/
theorem meets_delimited (what : Delimited) (v : Datum) (h : s.Within text n) :
    Meets text deep (do expectDelimiter what; return v) s fun _ t => t.Within text n :=
  (meets_expectDelimiter what h).bind fun _ _ ⟨_, ht⟩ => .pure ht.within

theorem meets_readName (name : String) (letters : List Char) (h : s.Within text n) :
    Meets text deep (readName name letters) s fun _ t => t.Within text n := by
  induction letters generalizing s with
  | nil => exact .pure h
  | cons c letters ih =>
    exact (meets_next h).bind fun item t ht =>
      .ite (fun _ => ih ht.within) fun _ => meets_fail_of_took ht Iff.rfl nofun

theorem meets_named (name : String) (letters : List Char) (v : Datum) (h : s.Within text n) :
    Meets text deep (do readName name letters; expectDelimiter .character; return v) s
      fun _ t => t.Within text n :=
  (meets_readName name letters h).bind fun _ _ ht => meets_delimited _ v ht

theorem meets_readCharacter (h : s.Within text n) :
    Meets text deep readCharacter s fun _ t => t.Within text n := by
  refine (meets_next h).bind fun item t ht => ?_
  cases item with
  | none => exact meets_fail_of_took ht ⟨False.elim, nofun⟩ nofun
  | some c =>
    refine (meets_peek ht.within).bind fun item u hu => ?_
    exact .ite (fun _ => meets_named _ _ _ hu.within) fun _ =>
      .ite (fun _ => meets_named _ _ _ hu.within) fun _ => meets_delimited _ _ hu.within

theorem meets_readHash (h : s.Within text n) :
    Meets text deep readHash s fun _ t => t.Within text n :=
  (meets_next h).bind fun _ _ ht =>
    .ite (fun _ => meets_delimited _ _ ht.within) fun _ =>
    .ite (fun _ => meets_delimited _ _ ht.within) fun _ =>
    .ite (fun _ => meets_readCharacter ht.within) fun _ => meets_fail_of_took ht Iff.rfl nofun

theorem meets_readNumber (negative : Bool) (ds : List Char) (h : s.Within text n) :
    Meets text deep (readNumber negative ds) s fun _ t => t.Within text n :=
  (meets_takeRun _ h).bind fun _ _ ht => (meets_expectDelimiter _ ht).bind fun _ _ ⟨_, hu⟩ =>
    .ite (fun _ => .pure hu.within) fun _ => .ite (fun _ => meets_fail_of_saw hu id nofun) fun _ =>
      { stands := hu.within.exists_stands
        position_eq := nofun
        foundAt := foundAt_of_saw hu id
        isDeep := nofun }

theorem meets_readSymbol (c : Char) (h : s.Within text n) :
    Meets text deep (readSymbol c) s fun _ t => t.Within text n :=
  (meets_takeRun _ h).bind fun _ _ ht => .pure ht

theorem meets_readSigned (c : Char) (h : s.Within text n) :
    Meets text deep (readSigned c) s fun _ t => t.Within text n :=
  (meets_peek h).bind fun _ _ ht =>
    .ite (fun _ => meets_readNumber _ _ ht.within) fun _ =>
    .ite (fun _ => meets_readSymbol c ht.within) fun _ => meets_fail_of_saw ht id nofun

theorem meets_readString (h : s.Within text n) :
    Meets text deep readString s fun _ t => t.Within text n := by
  have hbody : Meets text deep (modifyGet stringBody) s fun body t =>
      t.Within text n ∧ (body = none → t.Took text n none) := h.stringBody
  refine hbody.bind fun body t ht => ?_
  cases body with
  | none => exact meets_fail_of_took (ht.2 rfl) ⟨False.elim, nofun⟩ nofun
  | some body => exact .pure ht.1

/-! ### Lists and data -/

section Inner

variable {b : Nat} {inner : Char → ReadM Datum}
  (hin : ∀ {c k t}, k < b → c ≠ '\n' → CharStream.Took text (k + 1) (some c) t →
    Meets text deep (inner c) t fun _ u => u.Within text k)

include hin

theorem meets_readRequired (awaiting : Awaiting) (hn : n ≤ b) (h : s.Within text n) :
    Meets text deep (readRequired inner awaiting) s fun _ t => t.Within text n := by
  refine (meets_nextToken h).bind fun item t ⟨ht, hc⟩ => ?_
  cases item with
  | none => exact meets_fail_of_took ht ⟨False.elim, nofun⟩ nofun
  | some c =>
    obtain ⟨k, rfl⟩ := ht.exists_succ
    exact (hin hn (by simpa using hc) ht).mono fun _ _ hu => hu.mono (Nat.le_succ k)

theorem meets_readTail (hn : n ≤ b) (h : s.Within text n) :
    Meets text deep (readTail inner) s fun _ t => t.Within text n :=
  (meets_expectDelimiter _ h).bind fun _ _ ⟨_, ht⟩ =>
    (meets_readRequired hin _ hn ht.within).bind fun _ _ hu =>
      (meets_nextToken hu).bind fun _ _ ⟨hv, hc⟩ => .ite (fun _ => .pure hv.within) fun _ =>
        meets_fail_of_took hv ⟨False.elim, hc⟩ nofun

/-- The loop over the elements of a list. Its budget is not used up, since every element takes
a character. -/
theorem meets_readItems {budget : Nat} (hb : n < budget) (hn : n ≤ b) (items : List Datum)
    (h : s.Within text n) :
    Meets text deep (readItems inner budget items) s fun _ t => t.Within text n := by
  induction budget generalizing n s items with
  | zero => exact absurd hb (Nat.not_lt_zero n)
  | succ budget ih =>
    refine (meets_nextToken h).bind fun item t ⟨ht, hc⟩ => ?_
    cases item with
    | none => exact meets_fail_of_took ht ⟨False.elim, nofun⟩ nofun
    | some c =>
      obtain ⟨k, rfl⟩ := ht.exists_succ
      refine .ite (fun _ => .pure ht.within) fun _ => .ite (fun _ => .ite (fun _ => ?_) fun _ => ?_)
        fun _ => ?_
      · exact meets_fail_of_took ht ⟨False.elim, hc⟩ nofun
      · exact (meets_readTail hin hn ht.within).bind fun _ _ hu => .pure hu
      · refine (hin hn (by simpa using hc) ht).bind fun v u hu => ?_
        exact (ih (by omega) (by omega) (v :: items) hu).mono fun _ _ hw => hw.mono (Nat.le_succ k)

theorem meets_readFrom {budget : Nat} {c : Char} (hb : n < budget) (hn : n ≤ b) (hc : c ≠ '\n')
    (h : s.Took text (n + 1) (some c)) :
    Meets text deep (readFrom inner budget c) s fun _ t => t.Within text n :=
  .ite (fun _ => meets_readHash h.within_succ) fun _ =>
  .ite (fun _ => meets_readNumber _ _ h.within_succ) fun _ =>
  .ite (fun _ => meets_readSigned c h.within_succ) fun _ =>
  .ite (fun _ => meets_readString h.within_succ) fun _ =>
  .ite (fun _ => meets_readSymbol c h.within_succ) fun _ =>
  .ite (fun _ => meets_readItems hin hb hn [] h.within_succ) fun _ =>
  .ite (fun _ => (meets_readRequired hin _ hn h.within_succ).bind fun _ _ ht => .pure ht) fun _ =>
    meets_fail_of_took h ⟨False.elim, fun h => hc (Option.some.inj h)⟩ nofun

end Inner

/-- Reading a datum. It nests too deeply only if the text has as many characters. -/
theorem meets_readDatum {b budget nesting : Nat} (hb : b ≤ budget) (hdeep : b ≤ nesting ∨ deep)
    {c : Char} (hn : n < b) (hc : c ≠ '\n') (h : s.Took text (n + 1) (some c)) :
    Meets text deep (readDatum budget nesting c) s fun _ t => t.Within text n := by
  induction nesting generalizing b n c s with
  | zero =>
    exact meets_fail_of_took h ⟨False.elim, fun h => hc (Option.some.inj h)⟩ fun _ =>
      hdeep.resolve_left (by omega)
  | succ nesting ih =>
    exact meets_readFrom (b := b - 1)
      (fun hk hc ht => ih (b := b - 1) (by omega) (hdeep.imp_left (by omega)) hk hc ht)
      (by omega) (by omega) hc h

/-- **The reader leaves a stream that stands in the text**, and fails as described. -/
theorem meets_read (nesting : Nat) (h : s.Within text n) :
    Meets text (nesting < n) (read nesting) s fun _ t => t.Within text n := by
  refine (meets_nextToken h).bind fun item t ⟨ht, hc⟩ => ?_
  cases item with
  | none => exact .pure ht.within
  | some c =>
    obtain ⟨cs, hs, hpushback, hsuffix, hlen, -⟩ := ht
    have hlen' : cs.length + 1 ≤ n := by simpa using hlen
    have htook : t.Took text (cs.length + 1) (some c) :=
      ⟨cs, hs, hpushback, hsuffix, by simp, nofun⟩
    refine Meets.bind (Q := fun a u => a = t ∧ u = t) ⟨rfl, rfl⟩ ?_
    rintro _ _ ⟨rfl, rfl⟩
    have hdeep : cs.length + 1 ≤ nesting ∨ nesting < n := by omega
    have hdatum := meets_readDatum (Nat.succ_le_succ hs.isAt.delivers.length_le_available) hdeep
      (Nat.lt_succ_self _) (by simpa using hc) htook
    exact hdatum.bind fun d u hu => .pure (hu.mono (by omega))

end Reader

end SmallScheme
