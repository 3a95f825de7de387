import SmallScheme.Proofs.Reader.Grammar

/-!
# The text that a stream has still to deliver

A stream holds characters pushed back, marks for an end of input pushed back, and a
source. What matters to a reader is the text that is still to come (`Delivers`) and where
that text ends: reading moves the position on, pushing back moves it back, and the end
stays where it is. `At` records both, and every operation is described by what it
does to the text to come.
-/

namespace SmallScheme.CharStream

open Grammar

/-- The stream delivers the characters `cs`, and after them no more. -/
def Delivers : List Char → CharStream → Prop
  | [], s => s.source = [] ∧ ∀ item ∈ s.pushback, item = none
  | c :: cs, s => s.next.1 = some c ∧ Delivers cs s.next.2

/-- The characters `cs` are to come, and the position after the last of them is `q`. -/
structure At (q : Int) (cs : List Char) (s : CharStream) : Prop where
  delivers : s.Delivers cs
  position_add : s.position + cs.length = q

variable {s : CharStream} {q : Int} {cs : List Char}

theorem delivers_source (cs : List Char) (p : Int) (x : Bool) :
    Delivers cs ⟨[], cs, p, x⟩ := by
  induction cs generalizing p with
  | nil => simp [Delivers]
  | cons c cs ih => exact ⟨rfl, ih (p + 1)⟩

/-- A stream at the start of a text delivers the text. -/
theorem delivers_ofString (text : String) : (ofString text).Delivers text.toList :=
  delivers_source _ _ _

theorem at_ofString (text : String) : (ofString text).At text.toList.length text.toList :=
  ⟨delivers_ofString text, by simp [ofString]⟩

/-! ### Single items -/

theorem position_next_of_some {c : Char} (h : s.next.1 = some c) :
    s.next.2.position = s.position + 1 := by
  obtain ⟨pushback, source, p, x⟩ := s
  rcases pushback with _ | ⟨_ | a, items⟩
  · cases source with
    | nil => simp [next] at h
    | cons a source => rfl
  · simp [next] at h
  · rfl

theorem Delivers.next_nil (h : s.Delivers []) :
    s.next.1 = none ∧ s.next.2.Delivers [] ∧ s.next.2.position = s.position := by
  obtain ⟨pushback, source, p, x⟩ := s
  obtain ⟨rfl, hp⟩ : source = [] ∧ ∀ item ∈ pushback, item = none := h
  rcases pushback with _ | ⟨item, items⟩
  · exact ⟨rfl, ⟨rfl, hp⟩, rfl⟩
  · obtain rfl : item = none := hp item (by simp)
    exact ⟨rfl, ⟨rfl, fun i hi => hp i (List.mem_cons_of_mem _ hi)⟩, rfl⟩

/-- A stream has one text to deliver. -/
theorem Delivers.unique {cs' : List Char} (h : s.Delivers cs) (h' : s.Delivers cs') :
    cs = cs' := by
  induction cs generalizing s cs' with
  | nil =>
    cases cs' with
    | nil => rfl
    | cons c cs' =>
      rw [Delivers, h.next_nil.1] at h'
      cases h'.1
  | cons c cs ih =>
    cases cs' with
    | nil =>
      rw [Delivers, h'.next_nil.1] at h
      cases h.1
    | cons c' cs' =>
      have hc : some c = some c' := h.1.symm.trans h'.1
      rw [Option.some.inj hc, ih h.2 h'.2]

/-- The next item is the first character to come, if there is one. -/
theorem At.next (h : s.At q cs) : s.next.1 = cs.head? ∧ s.next.2.At q cs.tail := by
  obtain ⟨hd, hq⟩ := h
  cases cs with
  | nil =>
    obtain ⟨hnone, hd', hp⟩ := hd.next_nil
    exact ⟨hnone, hd', by rw [hp]; exact hq⟩
  | cons c cs =>
    obtain ⟨hc, hd'⟩ := hd
    refine ⟨hc, hd', ?_⟩
    rw [position_next_of_some hc]
    simp only [List.length_cons, List.tail_cons] at hq ⊢
    omega

theorem At.next_cons {c : Char} (h : s.At q (c :: cs)) :
    ∃ t, s.next = (some c, t) ∧ t.At q cs :=
  ⟨_, Prod.ext h.next.1 rfl, h.next.2⟩

theorem At.next_nil (h : s.At q []) : ∃ t, s.next = (none, t) ∧ t.At q [] :=
  ⟨_, Prod.ext h.next.1 rfl, h.next.2⟩

theorem At.eq_cons_of_next {t : CharStream} {c : Char} (h : s.At q cs)
    (hn : s.next = (some c, t)) : ∃ cs₁, cs = c :: cs₁ ∧ t.At q cs₁ := by
  obtain ⟨hc, ht⟩ := h.next
  rw [hn] at hc ht
  obtain ⟨cs₁, rfl⟩ := List.head?_eq_some_iff.1 hc.symm
  exact ⟨cs₁, rfl, ht⟩

theorem At.eq_nil_of_next {t : CharStream} (h : s.At q cs) (hn : s.next = (none, t)) :
    cs = [] ∧ t.At q [] := by
  obtain ⟨hc, ht⟩ := h.next
  rw [hn] at hc ht
  obtain rfl := List.head?_eq_none_iff.1 hc.symm
  exact ⟨rfl, ht⟩

/-- A character pushed back is the first to come. -/
theorem At.unread (h : s.At q cs) (c : Char) : (s.unread (some c)).At q (c :: cs) := by
  refine ⟨?_, ?_⟩
  · rw [Delivers, next_unread]
    exact ⟨rfl, h.delivers⟩
  · have hq := h.position_add
    simp only [CharStream.unread, List.length_cons]
    omega

theorem At.unread_none (h : s.At q []) : (s.unread none).At q [] := by
  obtain ⟨⟨hs, hp⟩, hq⟩ := h
  exact ⟨⟨hs, by simpa [CharStream.unread] using hp⟩, hq⟩

/-- An item pushed back right after it was taken undoes the taking. -/
theorem At.unread_head? {t : CharStream} (h : t.At q cs.tail) : (t.unread cs.head?).At q cs := by
  cases cs with
  | nil => exact h.unread_none
  | cons c cs => exact h.unread c

theorem At.peek (h : s.At q cs) : s.peek.1 = cs.head? ∧ s.peek.2.At q cs := by
  obtain ⟨hc, ht⟩ := h.next
  refine ⟨hc, ?_⟩
  rw [CharStream.peek, hc]
  exact ht.unread_head?

/-- What a stream has to deliver takes no more items than it has available. -/
theorem Delivers.length_le_available (h : s.Delivers cs) : cs.length ≤ s.available := by
  induction cs generalizing s with
  | nil => exact Nat.zero_le _
  | cons c cs ih =>
    obtain ⟨hc, hd⟩ := h
    have hlt := available_next (s := s) (t := s.next.2) (Prod.ext hc rfl)
    have hle := ih hd
    rw [List.length_cons]
    omega

/-! ### Runs of characters -/

/-- A run is taken as long as it is. -/
theorem At.takeRun (p : Char → Bool) (h : s.At q cs) :
    (s.takeRun p).1 = cs.takeWhile p ∧ (s.takeRun p).2.At q (cs.dropWhile p) := by
  induction cs generalizing s with
  | nil =>
    obtain ⟨t, hn, ht⟩ := h.next_nil
    rw [takeRun_eq, hn]
    exact ⟨rfl, ht.unread_none⟩
  | cons c cs ih =>
    obtain ⟨t, hn, ht⟩ := h.next_cons
    rw [takeRun_eq, hn]
    by_cases hp : p c = true
    · obtain ⟨hcs, hu⟩ := ih ht
      simp only [hp, if_true, List.takeWhile_cons, List.dropWhile_cons, hcs]
      exact ⟨trivial, hu⟩
    · simp only [hp, List.takeWhile_cons, List.dropWhile_cons]
      exact ⟨rfl, ht.unread c⟩

/-- A skipped line goes up to its newline, and the newline with it. -/
theorem At.skipLine (h : s.At q cs) : s.skipLine.At q (cs.dropWhile (· ≠ '\n')).tail := by
  induction cs generalizing s with
  | nil =>
    obtain ⟨t, hn, ht⟩ := h.next_nil
    rw [skipLine_eq, hn]
    exact ht
  | cons c cs ih =>
    obtain ⟨t, hn, ht⟩ := h.next_cons
    rw [skipLine_eq, hn]
    by_cases hc : c = '\n'
    · subst hc
      exact ht
    · simp only [hc, if_false]
      rw [List.dropWhile_cons_of_pos (by simpa using hc)]
      exact ih ht

/-! ### Blanks and comments -/

/-- A text that starts with neither a blank nor a comment. -/
def IsTrimmed (cs : List Char) : Prop := ∀ c ∈ cs.head?, Text.isBlank c = false ∧ c ≠ ';'

theorem isTrimmed_cons_iff {c : Char} :
    IsTrimmed (c :: cs) ↔ Text.isBlank c = false ∧ c ≠ ';' := by
  simp [IsTrimmed]

theorem isTrimmed_of_opensDatum {c : Char} (h : OpensDatum c) : IsTrimmed (c :: cs) := by
  refine isTrimmed_cons_iff.2 ⟨h.1, ?_⟩
  rintro rfl
  exact h.2 (by simp)

/-- Skipping ends where the text is trimmed. -/
theorem At.exists_skipAtmosphere (h : s.At q cs) :
    ∃ r, Atmosphere cs r ∧ IsTrimmed r ∧ s.skipAtmosphere.At q r := by
  fun_induction skipAtmosphere s generalizing cs with
  | case1 s c t hn hb ih =>
    obtain ⟨cs, rfl, ht⟩ := h.eq_cons_of_next hn
    obtain ⟨r, ha, hr, hu⟩ := ih ht
    exact ⟨r, .blank hb ha, hr, hu⟩
  | case2 s t hn hb ih =>
    obtain ⟨cs, rfl, ht⟩ := h.eq_cons_of_next hn
    obtain ⟨r, ha, hr, hu⟩ := ih ht.skipLine
    exact ⟨r, .of_line ha, hr, hu⟩
  | case3 s c t hn hb hs =>
    obtain ⟨cs, rfl, ht⟩ := h.eq_cons_of_next hn
    exact ⟨c :: cs, .nil, isTrimmed_cons_iff.2 ⟨by simpa using hb, hs⟩, ht.unread c⟩
  | case4 s t hn =>
    obtain ⟨rfl, ht⟩ := h.eq_nil_of_next hn
    exact ⟨[], .nil, by simp [IsTrimmed], ht.unread_none⟩

/-- What is trimmed stays where it is. -/
theorem At.skipAtmosphere_of_isTrimmed (h : s.At q cs) (hcs : IsTrimmed cs) :
    s.skipAtmosphere.At q cs := by
  cases cs with
  | nil =>
    obtain ⟨t, hn, ht⟩ := h.next_nil
    rw [skipAtmosphere_eq, hn]
    exact ht.unread_none
  | cons c cs =>
    obtain ⟨t, hn, ht⟩ := h.next_cons
    obtain ⟨hb, hs⟩ := isTrimmed_cons_iff.1 hcs
    rw [skipAtmosphere_eq, hn]
    simp only [hb, hs, if_false, Bool.false_eq_true]
    exact ht.unread c

/-- Whatever blanks and comments a text starts with are skipped. -/
theorem At.skipAtmosphere {r : List Char} (h : s.At q cs) (ha : Atmosphere cs r)
    (hr : IsTrimmed r) : s.skipAtmosphere.At q r := by
  induction ha generalizing s with
  | nil => exact h.skipAtmosphere_of_isTrimmed hr
  | blank hb ha ih =>
    obtain ⟨t, hn, ht⟩ := h.next_cons
    rw [skipAtmosphere_eq, hn]
    simp only [hb, if_true]
    exact ih ht hr
  | comment hw ha ih =>
    obtain ⟨t, hn, ht⟩ := h.next_cons
    have hl := ht.skipLine
    rw [dropWhile_newline hw, List.tail_cons] at hl
    rw [skipAtmosphere_eq, hn]
    exact ih hl hr
  | lastComment hw =>
    obtain ⟨t, hn, ht⟩ := h.next_cons
    have hl := ht.skipLine
    rw [dropWhile_newline_eq_nil hw] at hl
    rw [skipAtmosphere_eq, hn]
    exact hl.skipAtmosphere_of_isTrimmed hr

end SmallScheme.CharStream
