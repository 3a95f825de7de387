import SmallScheme.Proofs.Reader.Standing

/-!
# Reading over and over

A reader may be asked again whatever it answered, also after a fault. However often it is asked,
the stream stands in its text: nothing of it is lost and nothing is delivered twice. And what has
been answered depends on the text up to one character past the position of the stream, so on a
stream that is still being written the reader never waits for more than that character.

`calls` collects what a number of calls come to.
-/

namespace SmallScheme

/-- What lies no distance further on is in the same place. -/
theorem ReadError.shift_zero (e : ReadError) : e.shift 0 = e := by
  cases e <;> simp [shift]

namespace Reader

open CharStream Sequencing

/-- Runs a computation and answers with what it came to and with the position after it. -/
def attempt {α : Type} (x : ReadM α) : ReadM (Except ReadError α × Int) := fun s =>
  match x s with
  | .ok a t => .ok (.ok a, t.position) t
  | .error e t => .ok (.error e, t.position) t

/-- What `count` calls of the reader in a row come to, each with the position after it. -/
def calls (nesting : Nat) : (count : Nat) → ReadM (List (Except ReadError (Option Datum) × Int))
  | 0 => return []
  | count + 1 => do
    let outcome ← attempt (read nesting)
    return outcome :: (← calls nesting count)

variable {α : Type} {x y : ReadM α} {s t : CharStream} {o : Except ReadError α}
  {text : List Char}

theorem EndsWith.attempt (h : EndsWith x s o t) :
    EndsWith (attempt x) s (.ok (o, t.position)) t := by
  cases o <;> simp only [EndsWith, Reader.attempt, show x s = _ from h]

/-! ### The stream after the calls -/

/-- Every outcome that is a fault, also one of depth, tells the position after it. The only errors
that tell none are those of numbers with too many digits. -/
def TellPosition (outcomes : List (Except ReadError α × Int)) : Prop :=
  ∀ fault q p, (.error (.malformed fault q), p) ∈ outcomes → q = p

theorem TellPosition.cons {outcomes : List (Except ReadError α × Int)} {p : Int}
    (ho : ∀ fault q, o = .error (.malformed fault q) → q = p) (h : TellPosition outcomes) :
    TellPosition ((o, p) :: outcomes) := by
  intro fault q p' hmem
  rcases List.mem_cons.1 hmem with heq | hmem
  · cases heq
    exact ho fault q rfl
  · exact h fault q p' hmem

/-- A call leaves the stream in the text, whatever it comes to. -/
theorem exists_attempt_read (nesting : Nat) {cs : List Char} (h : s.Stands text cs) :
    ∃ o t r, attempt (read nesting) s = .ok (o, t.position) t ∧ t.Stands text r ∧
      ∀ fault q, o = .error (.malformed fault q) → q = t.position := by
  have hread := meets_read nesting h.within
  cases hs : read nesting s with
  | ok d t =>
    obtain ⟨r, ht⟩ := (hread.of_ok hs).exists_stands
    exact ⟨.ok d, t, r, EndsWith.attempt hs, ht, nofun⟩
  | error e t =>
    have hfails := hread.of_error hs
    obtain ⟨r, ht⟩ := hfails.stands
    refine ⟨.error e, t, r, EndsWith.attempt hs, ht, ?_⟩
    rintro fault q ⟨⟩
    exact hfails.position_eq fault q rfl

theorem exists_calls (nesting count : Nat) {cs : List Char} (h : s.Stands text cs) :
    ∃ outcomes t r, calls nesting count s = .ok outcomes t ∧ t.Stands text r ∧
      TellPosition outcomes := by
  induction count generalizing s cs with
  | zero => exact ⟨[], s, cs, rfl, h, nofun⟩
  | succ count ih =>
    obtain ⟨o, t, r, hcall, ht, ho⟩ := exists_attempt_read nesting h
    obtain ⟨outcomes, u, r', hcalls, hu, hos⟩ := ih ht
    refine ⟨(o, t.position) :: outcomes, u, r', ?_, hu, hos.cons ho⟩
    rw [calls, bind_of_ok hcall, bind_of_ok hcalls]
    rfl

/-! ### What the calls depend on -/

theorem Displaced.attempt {b b' : Nat} (h : Displaced 0 b b' x y) :
    Displaced 0 b b' (attempt x) (attempt y) := by
  refine ⟨fun {q s cs} hs hb => ?_⟩
  obtain ⟨o, s', w, r, hx, rfl, hs', hy⟩ := h.alike hs hb
  refine ⟨_, s', w, r, hx.attempt, rfl, hs', fun {q' t r'} ht hb' hpos hr => ?_⟩
  obtain ⟨t', hy, ht'⟩ := hy ht hb' hpos hr
  have hshift : o.mapError (ReadError.shift 0) = o := by
    cases o with
    | ok a => rfl
    | error e => rw [Except.mapError, ReadError.shift_zero]
  have hpos' := position_eq_of_taken hs hs' ht ht' hpos
  rw [hshift] at hy
  rw [Int.add_zero] at hpos'
  exact ⟨t', by rw [← hpos']; exact hy.attempt, ht'⟩

theorem Displaced.calls {b b' : Nat} (nesting count : Nat) :
    Displaced 0 b b' (calls nesting count) (calls nesting count) := by
  induction count with
  | zero => exact .pure []
  | succ count ih => exact (Displaced.read nesting).attempt.bind fun _ => ih.bind fun _ => .pure _

/-- Texts that have their first `k + 1` characters in common go on alike after `k` of them. -/
theorem drop_of_take_eq {text text' : List Char} {k : Nat}
    (h : text'.take (k + 1) = text.take (k + 1)) :
    text' = text.take k ++ text'.drop k ∧ (text'.drop k).head? = (text.drop k).head? := by
  constructor
  · have htake : text'.take k = text.take k := by
      simpa [List.take_take] using congrArg (List.take k) h
    rw [← htake, List.take_append_drop]
  · have hget : text'[k]? = text[k]? := by
      simpa [List.getElem?_take] using congrArg (·[k]?) h
    simpa [List.head?_drop] using hget

/-- **The reader keeps to its text and looks one character ahead.** After any number of calls at
most one item is pushed back, the position lies in the text, and what is still to be delivered is
what follows it. A fault tells the position after its call. If the text goes on after the
position, then every text with the same characters up to there and one more has led to the same
answers, the same errors and the same positions. -/
theorem calls_keep_text (nesting count : Nat) (text : String) :
    ∃ outcomes s, calls nesting count (.ofString text) = .ok outcomes s ∧
      s.pushback.length ≤ 1 ∧ 0 ≤ s.position ∧ s.position ≤ text.length ∧
      s.Delivers (text.toList.drop s.position.toNat) ∧
      TellPosition outcomes ∧
      (s.position < text.length → ∀ text' : String,
        text'.toList.take (s.position.toNat + 1) = text.toList.take (s.position.toNat + 1) →
          ∃ s', calls nesting count (.ofString text') = .ok outcomes s' ∧
            s'.position = s.position) := by
  have hstart := stands_ofString text
  obtain ⟨outcomes, s, cs, hcalls, hs, htell⟩ := exists_calls nesting count hstart
  have hpos := hs.position_eq
  have hlen : text.toList.length = text.length := String.length_toList
  refine ⟨outcomes, s, hcalls, hs.tidy.length_pushback, ?_, ?_, ?_, htell, ?_⟩
  · omega
  · omega
  · rw [hs.drop_position]
    exact hs.isAt.delivers
  · intro hlt text' htext
    obtain ⟨happend, hhead⟩ := drop_of_take_eq htext
    obtain ⟨o, s₁, w, r, hend, hw, hs₁, halike⟩ := (Displaced.calls nesting count).alike
      hstart.isAt (Nat.lt_succ_self _)
    obtain ⟨rfl, rfl⟩ := EndsWith.unique (o := .ok outcomes) hcalls hend
    -- what was taken is what comes before the position
    obtain rfl : text.toList.drop s.position.toNat = r :=
      hs.drop_position.trans (hs.isAt.delivers.unique hs₁.delivers)
    obtain rfl : text.toList.take s.position.toNat = w :=
      List.append_cancel_right ((List.take_append_drop ..).trans hw)
    have hat := (stands_ofString text').isAt
    rw [happend] at hat
    obtain ⟨s', hcalls', hs'⟩ := halike hat (Nat.lt_succ_self _) rfl hhead
    refine ⟨s', hcalls', ?_⟩
    have hat₀ : (ofString text).At text.toList.length
        (text.toList.take s.position.toNat ++ text.toList.drop s.position.toNat) := by
      rw [List.take_append_drop]
      exact hstart.isAt
    have h := position_eq_of_taken (δ := 0) hat₀ hs₁ hat hs' rfl
    rwa [Int.add_zero] at h

end Reader

end SmallScheme
