import SmallScheme.Primitive.Apply
import SmallScheme.Proofs.RoundTrip

/-!
# Integers and their texts

An integer is written in two ways, by the writer and by `number->string`, and read in two ways,
by the reader and by `string->number`. Both ways of writing give the same text. Both ways of
reading go by the same literals, which are an optional sign and decimal digits
(`Text.Denotes`), and by the same range. But the reader takes no `+`, and `string->number` takes
no text that has too many digits.

The reader meets a literal character by character, `string->number` as a whole. What either
does is first said in terms of literals alone (`Primitive.numberOf_of_denotes`,
`Reader.readsAs_integer_iff`), and the two are then compared.
-/

namespace SmallScheme

open CharStream Grammar Reader Sequencing

/-! ### Literals -/

namespace Text

/-- `Denotes cs n`: the text `cs` is an optional `+` or `-` and one or more decimal digits, and
denotes `n`. -/
inductive Denotes : List Char → Int → Prop where
  /-- Digits alone. -/
  | digits {ds : List Char} (hne : ds ≠ []) (hds : ∀ d ∈ ds, d.isDigit = true) :
      Denotes ds (signedValue false ds)
  /-- Digits after `+`. -/
  | plus {ds : List Char} (hne : ds ≠ []) (hds : ∀ d ∈ ds, d.isDigit = true) :
      Denotes ('+' :: ds) (signedValue false ds)
  /-- Digits after `-`. -/
  | minus {ds : List Char} (hne : ds ≠ []) (hds : ∀ d ∈ ds, d.isDigit = true) :
      Denotes ('-' :: ds) (signedValue true ds)

variable {cs ds : List Char} {n : Int} {negative : Bool}

/-- The reader knows the same literals without `+`. -/
theorem numeral_iff_denotes : Numeral n cs ↔ Denotes cs n ∧ cs.head? ≠ some '+' := by
  constructor
  · intro h
    cases h with
    | digits hne hds =>
      refine ⟨.digits hne hds, fun hplus => ?_⟩
      cases hds '+' (List.mem_of_mem_head? hplus)
    | negative hne hds => exact ⟨.minus hne hds, nofun⟩
  · rintro ⟨h, hplus⟩
    cases h with
    | digits hne hds => exact .digits hne hds
    | plus => exact absurd rfl hplus
    | minus hne hds => exact .negative hne hds

theorem denotes_of_splitNumeral? (h : splitNumeral? cs = some (negative, ds)) :
    Denotes cs (signedValue negative ds) := by
  unfold splitNumeral? at h
  split at h
  next b es heq =>
  split at h
  · next hdigits =>
    cases h
    obtain ⟨hne, hds⟩ : ds ≠ [] ∧ ∀ d ∈ ds, d.isDigit = true := by simpa using hdigits
    split at heq <;> cases heq
    · exact .minus hne hds
    · exact .plus hne hds
    · exact .digits hne hds
  · cases h

theorem splitNumeral?_of_denotes (h : Denotes cs n) :
    ∃ negative ds, splitNumeral? cs = some (negative, ds) ∧ signedValue negative ds = n ∧
      ds.length ≤ cs.countP Char.isDigit := by
  have hdigits : ∀ {ds : List Char}, ds ≠ [] → (∀ d ∈ ds, d.isDigit = true) →
      (!ds.isEmpty && ds.all Char.isDigit) = true := fun hne hds => by
    simp only [Bool.and_eq_true, List.all_eq_true]
    exact ⟨by simpa using hne, hds⟩
  cases h with
  | @digits ds hne hds =>
    refine ⟨false, cs, ?_, rfl, Nat.le_of_eq (List.countP_eq_length.2 hds).symm⟩
    unfold splitNumeral?
    split
    next b es heq =>
    split at heq
    · -- a sign is no digit
      cases hds '-' List.mem_cons_self
    · cases hds '+' List.mem_cons_self
    · cases heq
      exact if_pos (hdigits hne hds)
  | @plus ds hne hds =>
    refine ⟨false, ds, if_pos (hdigits hne hds), rfl, ?_⟩
    rw [List.countP_cons_of_neg (by decide), List.countP_eq_length.2 hds]
  | @minus ds hne hds =>
    refine ⟨true, ds, if_pos (hdigits hne hds), rfl, ?_⟩
    rw [List.countP_cons_of_neg (by decide), List.countP_eq_length.2 hds]

/-- Leading zeros do not matter. -/
theorem digitsValue_replicate_zero_append (zeros : Nat) (ds : List Char) :
    digitsValue (List.replicate zeros '0' ++ ds) = digitsValue ds := by
  have hzeros : digitsValue (List.replicate zeros '0') = 0 := by
    induction zeros with
    | zero => rfl
    | succ zeros ih => exact ih
  rw [digitsValue, Nat.ofDigitChars_append]
  exact congrArg (Nat.ofDigitChars 10 ds) hzeros

/-! ### The bound of the range -/

/-- The digits of the first integer above the range, which are those of the least one in it,
after the given number of zeros. -/
def boundDigits (zeros : Nat) : List Char :=
  List.replicate zeros '0' ++ "9223372036854775808".toList

theorem boundDigits_ne_nil (zeros : Nat) : boundDigits zeros ≠ [] := by simp [boundDigits]

theorem isDigit_of_mem_boundDigits {zeros : Nat} : ∀ d ∈ boundDigits zeros, d.isDigit = true := by
  refine List.forall_mem_append.2 ⟨fun d hd => ?_, List.all_eq_true.1 (by decide)⟩
  obtain rfl := List.eq_of_mem_replicate hd
  decide

theorem digitsValue_boundDigits (zeros : Nat) :
    digitsValue (boundDigits zeros) = 9223372036854775808 :=
  (digitsValue_replicate_zero_append zeros _).trans (by decide)

theorem countP_boundDigits (zeros : Nat) :
    (boundDigits zeros).countP Char.isDigit = zeros + 19 := by
  rw [List.countP_eq_length.2 isDigit_of_mem_boundDigits, boundDigits, List.length_append,
    List.length_replicate]
  rfl

theorem denotes_boundDigits (zeros : Nat) :
    Denotes (boundDigits zeros) 9223372036854775808 := by
  have h := Denotes.digits (boundDigits_ne_nil zeros) isDigit_of_mem_boundDigits
  rwa [signedValue, digitsValue_boundDigits] at h

theorem denotes_minus_boundDigits (zeros : Nat) :
    Denotes ('-' :: boundDigits zeros) (-9223372036854775808) := by
  have h := Denotes.minus (boundDigits_ne_nil zeros) isDigit_of_mem_boundDigits
  rwa [signedValue, digitsValue_boundDigits] at h

/-! ### The text of a fixnum -/

/-- The text of an integer has no digits but those of its value. -/
theorem countP_numeral (n : Int) : (numeral n).toList.countP Char.isDigit = digitCount n := by
  have hall : ∀ m, (Nat.toDigits 10 m).countP Char.isDigit = (Nat.toDigits 10 m).length :=
    fun m => List.countP_eq_length.2 fun d hd =>
      Nat.isDigit_of_mem_toDigits (by decide) (by decide) hd
  cases n with
  | ofNat m =>
    rw [show numeral (.ofNat m) = m.repr from rfl, Nat.toList_repr]
    exact hall m
  | negSucc m =>
    rw [show numeral (.negSucc m) = "-" ++ (m + 1).repr from rfl, String.toList_append,
      Nat.toList_repr, List.countP_append, hall]
    exact Nat.zero_add _

/-- No fixnum has too many digits. -/
theorem digitCount_le_of_isFixnum (h : IsFixnum n) : digitCount n ≤ digitLimit := by
  obtain ⟨hmin, hmax⟩ := h
  refine (Nat.length_toDigits_le_iff (by decide) (by decide)).2 ?_
  calc n.natAbs ≤ 2 ^ 63 := by omega
    _ < 10 ^ 19 := by decide
    _ ≤ 10 ^ digitLimit := Nat.pow_le_pow_right (by decide) (by decide)

end Text

open Text

/-! ### Converting a string -/

namespace Primitive

variable {text : String} {n : Int} {v : Value}

/-- A literal that has not too many digits is converted, unless it is out of range. -/
theorem numberOf_of_denotes (h : Denotes text.toList n)
    (hlimit : text.toList.countP Char.isDigit ≤ digitLimit) :
    numberOf text = if IsFixnum n then .ok (.integer n) else .error (.numeralRange text) := by
  obtain ⟨negative, ds, hsplit, rfl, hlength⟩ := splitNumeral?_of_denotes h
  simp only [numberOf, hsplit, if_pos (Nat.le_trans hlength hlimit)]

theorem numberOf_of_not_denotes (h : ∀ n, ¬ Denotes text.toList n) :
    numberOf text = .error (.notNumeral text) := by
  cases hsplit : splitNumeral? text.toList with
  | none => simp only [numberOf, hsplit]
  | some parts => exact absurd (denotes_of_splitNumeral? hsplit) (h _)

theorem numberOf_eq_ok_iff (hlimit : text.toList.countP Char.isDigit ≤ digitLimit) :
    numberOf text = .ok (.integer n) ↔ Denotes text.toList n ∧ IsFixnum n := by
  constructor
  · intro h
    by_cases hnumeral : ∃ k, Denotes text.toList k
    · obtain ⟨k, hk⟩ := hnumeral
      rw [numberOf_of_denotes hk hlimit] at h
      split at h
      · next hfix =>
        cases h
        exact ⟨hk, hfix⟩
      · cases h
    · rw [numberOf_of_not_denotes (not_exists.1 hnumeral)] at h
      cases h
  · rintro ⟨hn, hfix⟩
    rw [numberOf_of_denotes hn hlimit, if_pos hfix]

/-- A string that is not converted is refused for its value. -/
theorem exists_of_numberOf_ne_ok (hlimit : text.toList.countP Char.isDigit ≤ digitLimit)
    (h : ∀ n, numberOf text ≠ .ok (.integer n)) :
    ∃ err, numberOf text = .error err ∧
      ∀ limit, ∃ message, err.report limit = ⟨.value, some message⟩ := by
  by_cases hnumeral : ∃ k, Denotes text.toList k
  · obtain ⟨k, hk⟩ := hnumeral
    have hfix : ¬ IsFixnum k := fun hfix => h k ((numberOf_eq_ok_iff hlimit).2 ⟨hk, hfix⟩)
    exact ⟨_, (numberOf_of_denotes hk hlimit).trans (if_neg hfix), fun _ => ⟨_, rfl⟩⟩
  · exact ⟨_, numberOf_of_not_denotes (not_exists.1 hnumeral), fun _ => ⟨_, rfl⟩⟩

end Primitive

/-! ### Reading a whole text -/

/-- No blanks and comments stand before the first character of a datum. -/
theorem Grammar.Atmosphere.eq_of_opensDatum {c : Char} {cs r : List Char}
    (h : Atmosphere (c :: cs) r) (hc : OpensDatum c) : r = c :: cs := by
  cases h with
  | nil => rfl
  | blank hblank => cases hblank.symm.trans hc.1
  | comment | lastComment => exact absurd (List.mem_cons_self ..) hc.2

namespace Reader

variable {text : String} {nesting : Nat} {n : Int}

/-- The reader answers with `d`, and nothing of the text is left. -/
def ReadsAs (nesting : Nat) (text : String) (d : Datum) : Prop :=
  ∃ t, read nesting (.ofString text) = .ok (some d) t ∧ t.Delivers []

/-- Of all spellings only literals stand for integers. -/
theorem numeral_of_spells {cs r : List Char} (h : Spells nesting (.integer n) cs r) :
    ∃ w, cs = w ++ r ∧ Numeral n w ∧ IsFixnum n := by
  generalize hd : (Object.integer n : Datum) = d at h
  cases h with
  | atom h =>
    cases h with
    | integer hw hk =>
      cases hd
      exact ⟨_, rfl, hw, hk⟩
    | _ => cases hd
  | @list _ vs => cases vs <;> cases hd
  | @improper _ vs _ _ _ _ _ _ _ hne =>
    cases vs with
    | nil => exact absurd rfl hne
    | cons => cases hd
  | quote => cases hd

/-- A text that starts with a datum is read as an integer just if it is a literal in range. -/
theorem readsAs_integer_iff {c : Char} (h : text.toList.head? = some c) (hc : OpensDatum c) :
    ReadsAs (nesting + 1) text (.integer n) ↔ Numeral n text.toList ∧ IsFixnum n := by
  constructor
  · rintro ⟨t, hread, ht⟩
    obtain ⟨cs₁, r, hatmosphere, hspells, hr⟩ := exists_spells_of_read (at_ofString text) hread
    obtain rfl := hr.delivers.unique ht
    obtain ⟨w, rfl, hw, hfix⟩ := numeral_of_spells hspells
    obtain ⟨cs, hcs⟩ := List.head?_eq_some_iff.1 h
    rw [List.append_nil, hcs] at hatmosphere
    obtain rfl := hatmosphere.eq_of_opensDatum hc
    exact ⟨hcs ▸ hw, hfix⟩
  · rintro ⟨hw, hfix⟩
    have hspells : Spells (nesting + 1) (.integer n) (text.toList ++ []) [] :=
      .atom (.integer hw hfix rfl)
    rw [List.append_nil] at hspells
    obtain ⟨t, hread, ht⟩ := read_of_spells (at_ofString text) .nil hspells
    exact ⟨t, hread, ht.delivers⟩

/-- Digits whose value is out of range are refused where they end, with the value. -/
theorem readNumber_of_not_isFixnum {q : Int} {s : CharStream} {negative : Bool}
    (before : List Char) {ds : List Char} (hs : s.At q ds) (hds : ∀ d ∈ ds, d.isDigit = true)
    (hfix : ¬ IsFixnum (signedValue negative (before ++ ds)))
    (hcount : digitCount (signedValue negative (before ++ ds)) ≤ digitLimit) :
    ∃ t, readNumber negative before s =
      .error (.malformed (.outOfRange (signedValue negative (before ++ ds))) q) t := by
  have hrun : Grammar.Run Char.isDigit ds ds [] := ⟨(List.append_nil ds).symm, hds, nofun⟩
  obtain ⟨t, ht, hat⟩ := (Recognizes.takeRun _).complete hs (Nat.lt_succ_self _) hrun
  obtain ⟨u, hu, hat⟩ := (Recognizes.expectDelimiter .number).complete hat (Nat.lt_succ_self _)
    (a := ()) (r := []) ⟨rfl, rfl⟩
  refine ⟨u, ?_⟩
  rw [readNumber, bind_of_ok ht, bind_of_ok hu, if_neg hfix, if_pos hcount]
  have hq : u.position = q := by simpa using hat.position_add
  rw [← hq]
  rfl

/-- A text of digits whose value is out of range is refused. -/
theorem read_of_not_isFixnum (nesting : Nat) {text : String} (hne : text.toList ≠ [])
    (hds : ∀ d ∈ text.toList, d.isDigit = true)
    (hfix : ¬ IsFixnum (signedValue false text.toList))
    (hcount : digitCount (signedValue false text.toList) ≤ digitLimit) :
    ∃ t, read (nesting + 1) (.ofString text) = .error
      (.malformed (.outOfRange (signedValue false text.toList)) text.toList.length) t := by
  have hat := at_ofString text
  obtain ⟨c, cs, hcs⟩ := List.exists_cons_of_ne_nil hne
  rw [hcs] at hat hds hfix hcount ⊢
  have hc : c.isDigit = true := hds c List.mem_cons_self
  have hopens := opensDatum_of_isSubsequent (isSubsequent_of_isDigit hc)
  obtain ⟨u, hu, hat⟩ := Recognizes.nextToken.complete hat (Nat.lt_succ_self _)
    ⟨_, .nil, isTrimmed_of_opensDatum hopens, rfl, rfl⟩
  obtain ⟨t, ht⟩ := readNumber_of_not_isFixnum [c] hat
    (fun d hd => hds d (List.mem_cons_of_mem c hd)) hfix hcount
  refine ⟨t, ?_⟩
  rw [read, bind_of_ok hu]
  refine (bind_of_ok (get_apply u) _).trans ?_
  refine bind_of_error ?_ _
  rw [readDatum, readFrom_of_isDigit hc]
  exact ht

/-- The first integer above the range is refused, with any number of leading zeros. -/
theorem read_boundDigits (zeros : Nat) :
    ∃ t, read (nesting + 1) (.ofString (String.ofList (boundDigits zeros))) = .error
      (.malformed (.outOfRange 9223372036854775808) (boundDigits zeros).length) t := by
  have hvalue : signedValue false (String.ofList (boundDigits zeros)).toList =
      9223372036854775808 := by
    rw [String.toList_ofList, signedValue, digitsValue_boundDigits]
    rfl
  have hne : (String.ofList (boundDigits zeros)).toList ≠ [] := by
    rw [String.toList_ofList]
    exact boundDigits_ne_nil zeros
  have hds : ∀ d ∈ (String.ofList (boundDigits zeros)).toList, d.isDigit = true := by
    rw [String.toList_ofList]
    exact isDigit_of_mem_boundDigits
  have h := read_of_not_isFixnum nesting hne hds (by rw [hvalue]; decide)
    (by rw [hvalue]; decide +kernel)
  rwa [hvalue, String.toList_ofList] at h

end Reader

/-! ### The four ways compared -/

/-- **Integers and their texts.** Wherever the arguments of a primitive lie, whatever follows the
first of them, and however deep data may nest:

* Every fixnum is written as `number->string` writes it, and both the reader and
  `string->number` turn this text back into it.
* A string that has not too many digits is converted by `string->number` just if it is an
  optional sign and decimal digits that denote a fixnum, and is otherwise refused for its
  value. If it starts with a digit or with `-`, the reader takes the whole of it for an integer
  just if `string->number` converts it to this integer.
* With any number of leading zeros the least fixnum is read in both ways, and the negative of it
  is refused in both. -/
theorem integer_texts_agree (nesting mark i j : Nat) (rest : Value) :
    (∀ n, IsFixnum n →
      (Object.integer n : Value).write (nesting + 1) = .ok (numeral n) ∧
      Primitive.numberToString.apply (.pair i (.integer n) rest) mark =
        .ok (.string mark (numeral n)) ∧
      ReadsAs (nesting + 1) (numeral n) (.integer n) ∧
      Primitive.stringToNumber.apply (.pair i (.string j (numeral n)) rest) mark =
        .ok (.integer n)) ∧
    (∀ text : String, text.toList.countP Char.isDigit ≤ digitLimit →
      (∀ n, Primitive.stringToNumber.apply (.pair i (.string j text) rest) mark =
          .ok (.integer n) ↔ Denotes text.toList n ∧ IsFixnum n) ∧
      ((¬ ∃ n, Denotes text.toList n ∧ IsFixnum n) → ∃ err,
        Primitive.stringToNumber.apply (.pair i (.string j text) rest) mark = .error err ∧
          ∀ limit, ∃ message, err.report limit = ⟨.value, some message⟩) ∧
      ∀ c, text.toList.head? = some c → (c.isDigit = true ∨ c = '-') → ∀ n,
        ReadsAs (nesting + 1) text (.integer n) ↔
          Primitive.stringToNumber.apply (.pair i (.string j text) rest) mark =
            .ok (.integer n)) ∧
    ∀ zeros, zeros + 19 ≤ digitLimit →
      (ReadsAs (nesting + 1) (String.ofList ('-' :: boundDigits zeros))
          (.integer (-9223372036854775808)) ∧
        Primitive.stringToNumber.apply
            (.pair i (.string j (String.ofList ('-' :: boundDigits zeros))) rest) mark =
          .ok (.integer (-9223372036854775808))) ∧
      (∃ t, read (nesting + 1) (.ofString (String.ofList (boundDigits zeros))) = .error
        (.malformed (.outOfRange 9223372036854775808) (boundDigits zeros).length) t) ∧
      Primitive.stringToNumber.apply
          (.pair i (.string j (String.ofList (boundDigits zeros))) rest) mark =
        .error (.numeralRange (String.ofList (boundDigits zeros))) := by
  have happly (text : String) :
      Primitive.stringToNumber.apply (.pair i (.string j text) rest) mark =
        Primitive.numberOf text := rfl
  simp only [happly]
  have hread : ∀ text : String, text.toList.countP Char.isDigit ≤ digitLimit →
      ∀ c, text.toList.head? = some c → (c.isDigit = true ∨ c = '-') → ∀ n,
        ReadsAs (nesting + 1) text (.integer n) ↔ Primitive.numberOf text = .ok (.integer n) := by
    intro text hlimit c hhead hc n
    have hopens : OpensDatum c := by
      rcases hc with hc | rfl
      · exact opensDatum_of_isSubsequent (isSubsequent_of_isDigit hc)
      · decide
    have hplus : text.toList.head? ≠ some '+' := by
      rw [hhead]
      rintro ⟨⟩
      rcases hc with hc | hc <;> cases hc
    rw [readsAs_integer_iff hhead hopens, Primitive.numberOf_eq_ok_iff hlimit,
      numeral_iff_denotes, and_iff_left hplus]
  refine ⟨fun n hn => ?written, fun text hlimit => ⟨?accepted, ?refused, hread text hlimit⟩,
    fun zeros hzeros => ?extremes⟩
  case written =>
    have hnumeral := Object.numeral_numeral n
    have hlimit : (numeral n).toList.countP Char.isDigit ≤ digitLimit :=
      countP_numeral n ▸ digitCount_le_of_isFixnum hn
    obtain ⟨c, w, hcons, hc⟩ := hnumeral.exists_opensDatum
    have hwrite : (Object.integer n : Value).write (nesting + 1) = .ok ("" ++ numeral n) := rfl
    rw [String.empty_append] at hwrite
    exact ⟨hwrite, rfl, (readsAs_integer_iff (hcons ▸ rfl) hc).2 ⟨hnumeral, hn⟩,
      (Primitive.numberOf_eq_ok_iff hlimit).2 ⟨(numeral_iff_denotes.1 hnumeral).1, hn⟩⟩
  case accepted => exact fun n => Primitive.numberOf_eq_ok_iff hlimit
  case refused =>
    intro hnone
    refine Primitive.exists_of_numberOf_ne_ok hlimit fun n hn => ?_
    exact hnone ⟨n, (Primitive.numberOf_eq_ok_iff hlimit).1 hn⟩
  case extremes =>
    have hlimit : (String.ofList (boundDigits zeros)).toList.countP Char.isDigit ≤ digitLimit := by
      rw [String.toList_ofList, countP_boundDigits]
      exact hzeros
    have hlimit' : (String.ofList ('-' :: boundDigits zeros)).toList.countP Char.isDigit ≤
        digitLimit := by
      rw [String.toList_ofList, List.countP_cons_of_neg (by decide), countP_boundDigits]
      exact hzeros
    have hminus : Primitive.numberOf (String.ofList ('-' :: boundDigits zeros)) =
        .ok (.integer (-9223372036854775808)) := by
      refine (Primitive.numberOf_eq_ok_iff hlimit').2 ⟨?_, by decide⟩
      rw [String.toList_ofList]
      exact denotes_minus_boundDigits zeros
    have hhead : (String.ofList ('-' :: boundDigits zeros)).toList.head? = some '-' := by
      rw [String.toList_ofList]
      rfl
    refine ⟨⟨(hread _ hlimit' '-' hhead (.inr rfl) _).2 hminus, hminus⟩,
      read_boundDigits zeros, ?_⟩
    refine (Primitive.numberOf_of_denotes (n := 9223372036854775808) ?_ hlimit).trans
      (if_neg (by decide))
    rw [String.toList_ofList]
    exact denotes_boundDigits zeros

/-- An integer that is written, one with leading zeros that is read, and the least fixnum with
as many leading zeros as there may be. -/
theorem integer_texts_agree_with_zeros :
    (Object.integer (-42) : Value).write 1 = .ok "-42" ∧
    Primitive.stringToNumber.apply (.pair 0 (.string 1 "-007") .nil) 2 = .ok (.integer (-7)) ∧
    ReadsAs 1 "-007" (.integer (-7)) ∧
    Primitive.stringToNumber.apply
        (.pair 0 (.string 1 (String.ofList ('-' :: boundDigits 4281))) .nil) 2 =
      .ok (.integer (-9223372036854775808)) := by
  obtain ⟨hwritten, hread, hbound⟩ := integer_texts_agree 0 2 0 1 .nil
  obtain ⟨hconverted, -, htaken⟩ := hread "-007" (by decide)
  have hdenotes : Denotes ['-', '0', '0', '7'] (-7) :=
    .minus (by decide) (List.all_eq_true.1 (by decide))
  have hseven : Primitive.stringToNumber.apply (.pair 0 (.string 1 "-007") .nil) 2 =
      .ok (.integer (-7)) :=
    (hconverted (-7)).2 ⟨hdenotes, by decide⟩
  have hnumeral : numeral (-42) = "-42" := by decide +kernel
  exact ⟨hnumeral ▸ (hwritten (-42) (by decide)).1, hseven,
    (htaken '-' rfl (.inr rfl) (-7)).2 hseven, (hbound 4281 (by decide)).1.2⟩

end SmallScheme
