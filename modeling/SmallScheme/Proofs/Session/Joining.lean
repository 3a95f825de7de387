import SmallScheme.Proofs.Reader.Joining
import SmallScheme.Proofs.Session.Texts

/-!
# Texts one after the other

Two texts may be evaluated one after the other, or be joined by a newline and evaluated at
once. Since the joined text is read as the one text and then the other, both come to the same
store and meet the same first error. Where this is an error of reading the second text, also one
of depth, its position is shifted. A file is evaluated as its text is, and so two files can be
loaded in order instead.
-/

namespace SmallScheme

open Sequencing Evaluation BigStep CharStream Reader Text

variable {limits : Limits} {f : FrameId} {s t : Store} {e : Error}

/-! ### Errors in another place -/

/-- The error as it is found `δ` further on. The errors of reading tell a position, those of
evaluating and of writing do not. -/
def Error.shift (δ : Int) : Error → Error
  | read e => read (e.shift δ)
  | e => e

theorem Error.shift_of_isIntrinsic (h : e.isIntrinsic = true) (δ : Int) : e.shift δ = e := by
  cases e with
  | read => cases h
  | _ => rfl

/-- An error of an evaluation has no position in a text. -/
theorem shift_of_evalForm {d : Datum} (h : evalForm limits d f s = .error e t) (δ : Int) :
    e.shift δ = e := by
  rcases evaluates_of_evalForm h with rfl | rfl | ⟨⟨der⟩⟩
  · rfl
  · rfl
  · exact Error.shift_of_isIntrinsic der.isIntrinsic δ

theorem shift_of_evalData {ds : List Datum} {last : Value}
    (h : evalData limits f ds last s = .error e t) (δ : Int) : e.shift δ = e := by
  induction ds generalizing s last with
  | nil => cases h
  | cons d ds ih =>
    rw [evalData, bind_apply] at h
    cases hd : evalForm limits d f s with
    | ok v s' =>
      rw [hd] at h
      exact ih h
    | error e' s' =>
      rw [hd] at h
      cases h
      exact shift_of_evalForm hd δ

/-! ### Data one after the other -/

theorem evalData_append (limits : Limits) (f : FrameId) (ds ds' : List Datum) (last : Value) :
    evalData limits f (ds ++ ds') last = evalData limits f ds last >>= evalData limits f ds' := by
  induction ds generalizing last with
  | nil => rfl
  | cons d ds ih =>
    funext s
    rw [List.cons_append, evalData, evalData, bind_apply, bind_apply, bind_apply]
    cases evalForm limits d f s with
    | error e s' => rfl
    | ok v s' => exact congrFun (ih v) s'

/-- The value before the first form matters only if there is none. -/
theorem evalData_congr {ds : List Datum} (hne : ds ≠ []) (last last' : Value) :
    evalData limits f ds last = evalData limits f ds last' := by
  cases ds with
  | nil => exact absurd rfl hne
  | cons d ds => rfl

/-! ### Texts and files -/

theorem lineFeeds_eq_self {cs : List Char} (h : '\r' ∉ cs) : lineFeeds cs = cs := by
  fun_induction lineFeeds cs with
  | case1 => rfl
  | case2 cs ih => simp at h
  | case3 cs hne ih => simp at h
  | case4 c cs h₁ h₂ ih => rw [ih fun hm => h (List.mem_cons_of_mem _ hm)]

/-- A file that holds a text is read as that text, with its lines ended by line feeds. -/
theorem ofBytes_toUTF8_eq (text : String) :
    FileText.ofBytes text.toUTF8 = ⟨String.ofList (lineFeeds text.toList), true⟩ := by
  have hbytes : String.fromUTF8? text.toUTF8 = some text := dif_pos text.isValidUTF8
  rw [FileText.ofBytes, hbytes]

/-- A file that holds a text without carriage returns is read as that text. -/
theorem ofBytes_toUTF8 {text : String} (h : '\r' ∉ text.toList) :
    FileText.ofBytes text.toUTF8 = ⟨text, true⟩ := by
  rw [ofBytes_toUTF8_eq, lineFeeds_eq_self h, String.ofList_toList]

/-- What a text is evaluated from. -/
inductive Source where
  /-- The text itself. -/
  | text
  /-- A file that holds it. -/
  | file

namespace Source

/-- The text can be had from the source as it is. -/
def Holds : Source → String → Prop
  | text, _ => True
  | file, content => '\r' ∉ content.toList

/-- Evaluates the forms of a text or a file. -/
def eval (limits : Limits) (content : String) (f : FrameId) : Source → EvalM Value
  | text => evalText limits content f
  | file => fun s => Run.result (runFile limits content.toUTF8 f s)

theorem eval_eq {source : Source} {content : String} (h : source.Holds content) :
    source.eval limits content f = evalText limits content f := by
  cases source with
  | text => rfl
  | file =>
    funext s
    simp only [eval, runFile, ofBytes_toUTF8 h]
    rfl

end Source

/-! ### Joined texts -/

theorem evalReading_of_failure_eq_none {r : Reading} (h : r.failure = none) :
    evalReading limits f r = evalData limits f r.content .absent := by
  funext s
  rw [evalReading, bind_apply]
  cases evalData limits f r.content .absent s with
  | error e t => rfl
  | ok v t =>
    show concludeReading r v t = .ok v t
    rw [concludeReading, h]
    rfl

/-- Evaluating the data of a reading after others, and failing as it does further on. -/
theorem evalData_concludeReading {r r' : Reading} {δ : Int}
    (h : r'.failure = r.failure.map (ReadError.shift δ)) (v : Value) (t : Store) :
    (evalData limits f r.content v >>= concludeReading r') t =
      match evalReading limits f r t with
      | .error e u => .error (e.shift δ) u
      | .ok w u => .ok (if r.data.isEmpty then v else w) u := by
  have hlast : evalData limits f r.content v t =
      match evalData limits f r.content .absent t with
      | .error e u => .error e u
      | .ok w u => .ok (if r.data.isEmpty then v else w) u := by
    obtain ⟨data, failure, stream⟩ := r
    cases data with
    | nil => rfl
    | cons entry data =>
      rw [evalData_congr (by simp [Reading.content]) v .absent]
      cases evalData limits f (Reading.content ⟨entry :: data, failure, stream⟩) .absent t <;> rfl
  rw [evalReading, bind_apply, bind_apply, hlast]
  cases hx : evalData limits f r.content .absent t with
  | error e u => simp only [shift_of_evalData hx]
  | ok w u =>
    simp only [concludeReading, h]
    cases r.failure <;> rfl

/-- Evaluating the joined text is evaluating the first and then the second. -/
theorem evalText_joined {a : String} (b : String)
    (ha : (readAll limits.nesting (.ofString a)).failure = none) (s : Store) :
    evalText limits (a ++ "\n" ++ b) f s =
      match evalText limits a f s with
      | .error e t => .error e t
      | .ok v t =>
        match evalText limits b f t with
        | .error e u => .error (e.shift (a.length + 1)) u
        | .ok w u =>
          .ok (if (readAll limits.nesting (.ofString b)).data.isEmpty then v else w) u := by
  obtain ⟨hdata, hfailure, -⟩ := readAll_joined b ha
  have hcontent : (readAll limits.nesting (.ofString (a ++ "\n" ++ b))).content =
      (readAll limits.nesting (.ofString a)).content ++
        (readAll limits.nesting (.ofString b)).content := by
    rw [Reading.content, hdata, Reading.dataAt, List.map_append, List.map_map]
    rfl
  rw [evalText_eq, evalText_eq, evalText_eq, evalReading_of_failure_eq_none ha, evalReading,
    hcontent, evalData_append, bind_assoc, bind_apply]
  cases evalData limits f (readAll limits.nesting (.ofString a)).content .absent s with
  | error e t => rfl
  | ok v t => exact evalData_concludeReading hfailure v t

/-- **Texts joined by a newline.** Let the first text be readable to its end.

Then the joined text has the data of the first, and behind them the data of the second. It
cannot be read to its end if the second cannot, for the same reason. All that is found in the
second text is found `δ` further on.

Evaluating the first text, or a file that holds it, and then the second if the first has not
failed, comes to the same as evaluating the joined text: it leaves the same store and has the
same error, which tells a place `δ` further on if the second cannot be read. If nothing fails
the value is that of the second text, or that of the first if the second has no forms. -/
theorem joined_texts (limits : Limits) {a : String} (b : String)
    (ha : (readAll limits.nesting (.ofString a)).failure = none) :
    let δ : Int := a.length + 1
    let first := readAll limits.nesting (.ofString a)
    let second := readAll limits.nesting (.ofString b)
    let joined := readAll limits.nesting (.ofString (a ++ "\n" ++ b))
    (joined.data = first.data ++ second.dataAt δ ∧
      joined.failure = second.failure.map (ReadError.shift δ) ∧
      joined.stream.position = second.stream.position + δ) ∧
    ∀ source : Source, source.Holds a → source.Holds b → ∀ f s,
      evalText limits (a ++ "\n" ++ b) f s =
        match source.eval limits a f s with
        | .error e t => .error e t
        | .ok v t =>
          match source.eval limits b f t with
          | .error e u => .error (e.shift δ) u
          | .ok w u => .ok (if second.data.isEmpty then v else w) u := by
  intro δ first second joined
  refine ⟨readAll_joined b ha, fun source hsa hsb f s => ?_⟩
  rw [Source.eval_eq hsa, Source.eval_eq hsb]
  exact evalText_joined b ha s

/-- A text that ends in a comment, and one whose second datum nests too deeply. -/
theorem joined_texts_after_comment :
    let limits : Limits := ⟨2, 2⟩
    let fault : ReadFault := .tooDeep
    let joined := readAll limits.nesting (.ofString ("#t ;" ++ "\n" ++ "#f ''#t"))
    (joined.data = [(.boolean true, 2), (.boolean false, 7)] ∧
      joined.failure = some (.malformed fault 11)) ∧
    Source.file.eval limits "#t ;" Store.global .initial = .ok (.boolean true) .initial ∧
      Source.file.eval limits "#f ''#t" Store.global .initial =
        .error (.read (.malformed fault 6)) .initial ∧
      evalText limits ("#t ;" ++ "\n" ++ "#f ''#t") Store.global .initial =
        .error (.read (.malformed fault 11)) .initial := by
  intro limits fault joined
  have ha : readAll limits.nesting (.ofString "#t ;") = ⟨[(.boolean true, 2)], none, _⟩ :=
    Reading.eq_mk (by decide +kernel) (by decide +kernel)
  have hb : readAll limits.nesting (.ofString "#f ''#t") =
      ⟨[(.boolean false, 2)], some (.malformed fault 6), _⟩ :=
    Reading.eq_mk (by decide +kernel) (by decide +kernel)
  have hholds : Source.file.Holds "#t ;" ∧ Source.file.Holds "#f ''#t" := by simp [Source.Holds]
  have hfirst : Source.file.eval limits "#t ;" Store.global .initial =
      .ok (.boolean true) .initial := by
    rw [Source.eval_eq hholds.1, evalText_eq, ha]
    rfl
  have hsecond : Source.file.eval limits "#f ''#t" Store.global .initial =
      .error (.read (.malformed fault 6)) .initial := by
    rw [Source.eval_eq hholds.2, evalText_eq, hb]
    rfl
  obtain ⟨⟨hdata, hfailure, -⟩, heval⟩ := joined_texts limits "#f ''#t" (by rw [ha])
  refine ⟨⟨?_, ?_⟩, hfirst, hsecond, ?_⟩
  · rw [hdata, ha, hb]
    rfl
  · rw [hfailure, hb]
    rfl
  · rw [heval .file hholds.1 hholds.2, hfirst]
    simp only [hsecond]
    rfl

end SmallScheme
