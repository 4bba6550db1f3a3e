import Coach.Program.Input
import Coach.Proofs.Text.Lines
import Coach.Proofs.Text.Parts

/-!
# Input as a text

Standard input is a queue of lines and a line that has been begun.  It is read as a text in which a newline
follows every value, by a reader that takes the white space behind a token along with the token.  That is
noticed where a line is asked for right behind a token, and nowhere else.

## Main definitions

* `inputText`: the text that some values make
* `Request`: what is asked of the input, a token or a line
* `Request.ofText`: what a cursor in a text answers, and what is left behind the cursor
* `Request.tidied`: the same, when a token takes along the white space behind it on its line
* `LeavesNoBlanks`: no line is asked for in front of white space that follows a token

## Main statements

* `Input.tidied_rest`: one request to an input is one to what is left of it
* `Input.answers_of_values`: what standard input answers, and when that is what a cursor answers

## Design notes

What is left of the input is a text, `Input.rest`, and one request to the input is one to that text.  That
needs the lines to be lines, which they are from the beginning and stay.
-/

namespace Coach.Program

open Coach.Text

/-! ### Cursors -/

/-- The text that some values make: each of them, and a newline. -/
def inputText (values : List String) : List Char := values.flatMap fun v => v.toList ++ ['\n']

/-- What can be asked of an input. -/
inductive Request where
  | token
  | line
  deriving DecidableEq, Repr

/-- White space within a line. -/
def isBlank (c : Char) : Bool := isSpace c && c != '\n'

namespace Request

/-- What is answered at the beginning of a text, and the text behind it.  A token is the first run of
characters that are no white space, and a line goes up to the next newline. -/
def ofText : Request → List Char → Option (List Char) × List Char
  | .token, text =>
    let text := stripLeft text
    (if text.isEmpty then none else some (text.takeWhile (!isSpace ·)), text.dropWhile (!isSpace ·))
  | .line, text =>
    (if text.isEmpty then none else some (text.takeWhile (· != '\n')), (text.dropWhile (· != '\n')).drop 1)

/-- The same, when a token takes along the white space behind it on its line. -/
def tidied (request : Request) (text : List Char) : Option (List Char) × List Char :=
  let (answer, rest) := request.ofText text
  (answer, if request = .token then rest.dropWhile isBlank else rest)

/-- What standard input answers, and the input behind it. -/
def ofInput : Request → Input → Option (List Char) × Input
  | .token, i => i.token?
  | .line, i => i.line?

/-- The answers to requests one after another. -/
def answers {σ : Type} (answer : Request → σ → Option (List Char) × σ) :
    List Request → σ → List (Option (List Char))
  | [], _ => []
  | request :: more, s => (answer request s).1 :: answers answer more (answer request s).2

end Request

/-- No line is asked for in front of white space that follows a token on its line. -/
def LeavesNoBlanks : List Request → List Char → Prop
  | [], _ => True
  | request :: more, text =>
    let rest := (request.ofText text).2
    (request = .token → more.head? = some .line → ∀ c ∈ rest.head?, isBlank c = false) ∧
      LeavesNoBlanks more rest

/-! ### What is left of an input -/

namespace Input

/-- Lines as a text. -/
def ofLines (lines : List (List Char)) : List Char := lines.flatMap (· ++ ['\n'])

/-- What is left of an input, as a text. -/
def rest (i : Input) : List Char :=
  match i.current with
  | none => ofLines i.lines
  | some current => current ++ '\n' :: ofLines i.lines

/-- The lines of an input are lines. -/
structure IsLines (i : Input) : Prop where
  lines : ∀ line ∈ i.lines, '\n' ∉ line
  current : ∀ line ∈ i.current, '\n' ∉ line

theorem isLines_ofValues (values : List String) : (ofValues values).IsLines where
  lines line h := by
    obtain ⟨v, -, hline⟩ := List.mem_flatMap.mp h
    exact notMem_of_mem_splitOn hline
  current := nofun

theorem ofLines_eq_joinWith {lines : List (List Char)} (h : lines ≠ []) :
    ofLines lines = joinWith ['\n'] lines ++ ['\n'] := by
  induction lines with
  | nil => exact absurd rfl h
  | cons line lines ih =>
    cases lines with
    | nil => simp [ofLines, joinWith]
    | cons next lines =>
      have hline : ofLines (line :: next :: lines) = line ++ ['\n'] ++ ofLines (next :: lines) := rfl
      have hnext := List.cons_ne_nil next lines
      rw [hline, ih hnext, joinWith_cons hnext]
      simp only [List.append_assoc, List.cons_append, List.nil_append]

/-- What the input of some values has left is their text. -/
theorem rest_ofValues (values : List String) : (ofValues values).rest = inputText values := by
  induction values with
  | nil => rfl
  | cons v values ih =>
    have hfirst : ofLines (splitOn '\n' v.toList) = v.toList ++ ['\n'] := by
      rw [ofLines_eq_joinWith (splitOn_ne_nil '\n' v.toList), joinWith_splitOn]
    have hrest : (ofValues (v :: values)).rest =
        ofLines (splitOn '\n' v.toList) ++ (ofValues values).rest := List.flatMap_append
    rw [hrest, hfirst, ih]
    rfl

end Input

/-! ### Words -/

/-- A word in a line, with the white space before it and behind it. -/
structure WordIn (line word after : List Char) (blanks gap : List Char) : Prop where
  line_eq : line = blanks ++ (word ++ (gap ++ after))
  blanks : ∀ c ∈ blanks, isSpace c = true
  nonempty : word ≠ []
  word : ∀ c ∈ word, (!isSpace c) = true
  ends : ∀ c ∈ (gap ++ after).head?, (!isSpace c) = false
  gap : ∀ c ∈ gap, isSpace c = true
  after : ∀ c ∈ after.head?, isSpace c = false

theorem exists_wordIn {line word after : List Char} (h : nextWord? line = some (word, after)) :
    ∃ blanks gap, WordIn line word after blanks gap := by
  unfold nextWord? at h
  split at h
  · cases h
  · next c rest hstrip =>
    obtain ⟨rfl, rfl⟩ := Prod.mk.inj (Option.some.inj h)
    have hgap : (rest.dropWhile (!isSpace ·)).takeWhile isSpace ++
        stripLeft (rest.dropWhile (!isSpace ·)) = rest.dropWhile (!isSpace ·) :=
      List.takeWhile_append_dropWhile
    refine ⟨line.takeWhile isSpace, (rest.dropWhile (!isSpace ·)).takeWhile isSpace, ?_,
      of_mem_takeWhile, List.cons_ne_nil _ _, ?_, ?_, of_mem_takeWhile, of_mem_head_dropWhile⟩
    · have hline : line.takeWhile isSpace ++ stripLeft line = line := List.takeWhile_append_dropWhile
      rw [hgap, List.cons_append, List.takeWhile_append_dropWhile, ← hstrip, hline]
    · refine List.forall_mem_cons.mpr ⟨?_, of_mem_takeWhile⟩
      have hc : isSpace c = false := of_mem_head_dropWhile c (by rw [← stripLeft, hstrip]; rfl)
      rw [hc]
      rfl
    · rw [hgap]
      exact of_mem_head_dropWhile

/-- The first word of a line is the token of a text that begins with the line and a newline. -/
theorem tidied_token_of_nextWord? {line word after : List Char} (hline : '\n' ∉ line)
    (h : nextWord? line = some (word, after)) (more : List Char) :
    Request.token.tidied (line ++ '\n' :: more) = (some word, after ++ '\n' :: more) ∧ '\n' ∉ after := by
  obtain ⟨blanks, gap, hword⟩ := exists_wordIn h
  have hmem : ∀ c, c = '\n' → c ∉ gap ++ after := by
    rintro c rfl hc
    exact hline (hword.line_eq ▸ List.mem_append_right _ (List.mem_append_right _ hc))
  have htext : line ++ '\n' :: more = blanks ++ (word ++ (gap ++ (after ++ '\n' :: more))) := by
    simp only [hword.line_eq, List.append_assoc]
  have hstart : ∀ c ∈ (word ++ (gap ++ (after ++ '\n' :: more))).head?, isSpace c = false := by
    obtain ⟨w, ws, rfl⟩ := List.exists_cons_of_ne_nil hword.nonempty
    rintro c ⟨⟩
    simpa using hword.word w List.mem_cons_self
  have hend : ∀ c ∈ (gap ++ (after ++ '\n' :: more)).head?, (!isSpace c) = false := by
    rw [← List.append_assoc]
    cases hbehind : gap ++ after with
    | nil => rintro c ⟨⟩; decide
    | cons x xs => exact fun c hc => hword.ends c (hbehind ▸ hc)
  have hgap : ∀ c ∈ gap, isBlank c = true := fun c hc => by
    simp only [isBlank, hword.gap c hc, Bool.true_and, bne_iff_ne]
    exact fun heq => hmem c heq (List.mem_append_left _ hc)
  have hafter : ∀ c ∈ (after ++ '\n' :: more).head?, isBlank c = false := by
    cases after with
    | nil => rintro c ⟨⟩; decide
    | cons x xs => rintro c ⟨⟩; simp only [isBlank, hword.after x rfl, Bool.false_and]
  obtain ⟨-, hstrip⟩ := takeWhile_run hword.blanks hstart
  obtain ⟨htake, hdrop⟩ := takeWhile_run hword.word hend
  obtain ⟨-, htidy⟩ := takeWhile_run hgap hafter
  have hsome : (word ++ (gap ++ (after ++ '\n' :: more))).isEmpty = false := by
    simp [hword.nonempty]
  refine ⟨?_, fun hafter => hmem _ rfl (List.mem_append_right _ hafter)⟩
  simp only [Request.tidied, Request.ofText, htext, stripLeft, hstrip, hsome, htake, hdrop, htidy,
    Bool.false_eq_true, if_false, if_true]

/-- A line is what stands before the newline. -/
theorem tidied_line {line : List Char} (hline : '\n' ∉ line) (more : List Char) :
    Request.line.tidied (line ++ '\n' :: more) = (some line, more) := by
  have hrun : ∀ c ∈ line, (c != '\n') = true := fun c hc => by
    simp only [bne_iff_ne]
    rintro rfl
    exact hline hc
  have hend : ∀ c ∈ ('\n' :: more).head?, (c != '\n') = false := by
    rintro c ⟨⟩
    decide
  obtain ⟨htake, hdrop⟩ := takeWhile_run hrun hend
  have hsome : (line ++ '\n' :: more).isEmpty = false := by simp
  simp only [Request.tidied, Request.ofText, htake, hdrop, hsome, Bool.false_eq_true, if_false,
    reduceCtorEq, List.drop_one, List.tail_cons]

/-- A line without a word in it is passed over. -/
theorem tidied_token_of_blank {line : List Char} (h : nextWord? line = none) (more : List Char) :
    Request.token.tidied (line ++ '\n' :: more) = Request.token.tidied more := by
  have hblank : stripLeft line = [] := by
    unfold nextWord? at h
    split at h
    · next hstrip => exact hstrip
    · cases h
  have hstrip : stripLeft (line ++ '\n' :: more) = stripLeft more := by
    have hspace : isSpace '\n' = true := by decide
    rw [stripLeft, List.dropWhile_append, ← stripLeft, hblank]
    exact List.dropWhile_cons_of_pos hspace
  simp only [Request.tidied, Request.ofText, hstrip]

namespace Input

theorem ofLines_cons (line : List Char) (lines : List (List Char)) :
    ofLines (line :: lines) = line ++ '\n' :: ofLines lines := by
  simp only [ofLines, List.flatMap_cons, List.append_assoc, List.singleton_append]

theorem rest_none (lines : List (List Char)) : rest { lines } = ofLines lines := rfl

theorem rest_some (lines : List (List Char)) (current : List Char) :
    rest { lines, current := some current } = current ++ '\n' :: ofLines lines := rfl

/-- The first token of some lines is that of their text. -/
theorem tidied_firstToken? {lines : List (List Char)} (h : ∀ line ∈ lines, '\n' ∉ line) :
    Request.token.tidied (ofLines lines) = ((firstToken? lines).1, (firstToken? lines).2.rest) ∧
      (firstToken? lines).2.IsLines := by
  induction lines with
  | nil => exact ⟨rfl, nofun, nofun⟩
  | cons line lines ih =>
    obtain ⟨hline, hlines⟩ := List.forall_mem_cons.mp h
    rw [ofLines_cons, firstToken?]
    cases hword : nextWord? line with
    | none =>
      rw [tidied_token_of_blank hword]
      exact ih hlines
    | some found =>
      obtain ⟨word, after⟩ := found
      obtain ⟨htoken, hafter⟩ := tidied_token_of_nextWord? hline hword (ofLines lines)
      refine ⟨htoken, hlines, ?_⟩
      rintro line ⟨⟩
      exact hafter

/-- A request to an input is one to what is left of it. -/
theorem tidied_rest {i : Input} (h : i.IsLines) (request : Request) :
    request.tidied i.rest = ((request.ofInput i).1, (request.ofInput i).2.rest) ∧
      (request.ofInput i).2.IsLines := by
  obtain ⟨lines, current⟩ := i
  cases request with
  | token =>
    cases current with
    | none => exact tidied_firstToken? h.lines
    | some current =>
      have hcurrent : '\n' ∉ current := h.current current rfl
      simp only [Request.ofInput, token?, rest_some]
      cases hword : nextWord? current with
      | none =>
        rw [tidied_token_of_blank hword]
        exact tidied_firstToken? h.lines
      | some found =>
        obtain ⟨word, after⟩ := found
        obtain ⟨htoken, hafter⟩ := tidied_token_of_nextWord? hcurrent hword (ofLines lines)
        refine ⟨htoken, h.lines, ?_⟩
        rintro line ⟨⟩
        exact hafter
  | line =>
    cases current with
    | some current =>
      rw [rest_some, tidied_line (h.current current rfl)]
      exact ⟨rfl, h.lines, nofun⟩
    | none => cases lines with
      | nil => exact ⟨rfl, nofun, nofun⟩
      | cons line lines =>
        obtain ⟨hline, hlines⟩ := List.forall_mem_cons.mp h.lines
        rw [rest_none, ofLines_cons, tidied_line hline]
        exact ⟨rfl, hlines, nofun⟩

theorem answers_rest {i : Input} (h : i.IsLines) (requests : List Request) :
    Request.answers Request.ofInput requests i = Request.answers Request.tidied requests i.rest := by
  induction requests generalizing i with
  | nil => rfl
  | cons request more ih =>
    obtain ⟨hanswer, hlines⟩ := tidied_rest h request
    simp only [Request.answers, hanswer, ih hlines]

end Input

/-! ### Cursors side by side -/

/-- White space within a line is white space. -/
theorem stripLeft_dropWhile_isBlank (text : List Char) :
    stripLeft (text.dropWhile isBlank) = stripLeft text := by
  induction text with
  | nil => rfl
  | cons c text ih =>
    cases hc : isBlank c with
    | false => rw [List.dropWhile_cons_of_neg (by rw [hc]; decide)]
    | true =>
      have hspace : isSpace c = true := (Bool.and_eq_true_iff.mp hc).1
      rw [List.dropWhile_cons_of_pos hc, ih, stripLeft, stripLeft, List.dropWhile_cons_of_pos hspace]

/-- Behind white space within a line, a token is the one that it would have been before it. -/
theorem answers_token_dropWhile (more : List Request) (text : List Char) :
    Request.answers Request.tidied (.token :: more) (text.dropWhile isBlank) =
      Request.answers Request.tidied (.token :: more) text := by
  simp only [Request.answers, Request.tidied, Request.ofText, stripLeft_dropWhile_isBlank]

/-- White space within a line stands in front of the next newline. -/
theorem takeWhile_cons_of_isBlank {c : Char} (hc : isBlank c = true) (text : List Char) :
    (c :: text).takeWhile (· != '\n') = c :: text.takeWhile (· != '\n') := by
  have hline : (c != '\n') = true := (Bool.and_eq_true_iff.mp hc).2
  simp only [List.takeWhile_cons, hline, if_true]

/-- Less stands in front of the next newline when white space is left out. -/
theorem length_takeWhile_dropWhile_le (text : List Char) :
    ((text.dropWhile isBlank).takeWhile (· != '\n')).length ≤ (text.takeWhile (· != '\n')).length := by
  induction text with
  | nil => exact Nat.le_refl _
  | cons c text ih =>
    cases hc : isBlank c with
    | false =>
      have hstay : (c :: text).dropWhile isBlank = c :: text :=
        List.dropWhile_cons_of_neg (by rw [hc]; decide)
      exact Nat.le_of_eq (congrArg (fun t => (t.takeWhile (· != '\n')).length) hstay)
    | true =>
      rw [List.dropWhile_cons_of_pos hc, takeWhile_cons_of_isBlank hc, List.length_cons]
      exact Nat.le_succ_of_le ih

/-- White space that is left out of a line is missed. -/
theorem ofText_line_dropWhile_ne {c : Char} (hc : isBlank c = true) (text : List Char) :
    (Request.line.ofText ((c :: text).dropWhile isBlank)).1 ≠ (Request.line.ofText (c :: text)).1 := by
  have hless := length_takeWhile_dropWhile_le text
  rw [List.dropWhile_cons_of_pos hc]
  simp only [Request.ofText, takeWhile_cons_of_isBlank hc, List.isEmpty_cons, Bool.false_eq_true, if_false]
  split
  · nofun
  · intro heq
    rw [Option.some.inj heq, List.length_cons] at hless
    exact absurd hless (Nat.not_succ_le_self _)

/-- A tidy cursor answers as any cursor where it leaves no white space out. -/
theorem answers_tidied_iff (requests : List Request) (text : List Char) :
    Request.answers Request.tidied requests text = Request.answers Request.ofText requests text ↔
      LeavesNoBlanks requests text := by
  induction requests generalizing text with
  | nil => exact iff_of_true rfl trivial
  | cons request more ih =>
    cases request with
    | line =>
      simp only [Request.answers, LeavesNoBlanks, List.cons.injEq, Request.tidied, true_and, reduceCtorEq,
        if_false, ih, false_implies]
    | token =>
      have hstep : Request.answers Request.tidied (.token :: more) text =
            Request.answers Request.ofText (.token :: more) text ↔
          Request.answers Request.tidied more ((Request.token.ofText text).2.dropWhile isBlank) =
            Request.answers Request.ofText more (Request.token.ofText text).2 := by
        simp only [Request.answers, Request.tidied, List.cons.injEq, true_and, if_true]
      rw [hstep, LeavesNoBlanks, ← ih]
      generalize (Request.token.ofText text).2 = behind
      cases more with
      | nil => exact iff_of_true rfl ⟨nofun, rfl⟩
      | cons next more => cases next with
        | token =>
          rw [answers_token_dropWhile]
          exact ⟨fun h => ⟨nofun, h⟩, fun h => h.2⟩
        | line => cases behind with
          | nil => exact ⟨fun h => ⟨fun _ _ => nofun, h⟩, fun h => h.2⟩
          | cons c text =>
            cases hc : isBlank c with
            | false =>
              have hhead : ∀ x ∈ (c :: text).head?, isBlank x = false := fun x hx =>
                Option.some.inj hx ▸ hc
              rw [List.dropWhile_cons_of_neg (by rw [hc]; decide)]
              exact ⟨fun h => ⟨fun _ _ => hhead, h⟩, fun h => h.2⟩
            | true =>
              refine iff_of_false (fun h => ofText_line_dropWhile_ne hc text (List.cons.inj h).1) fun h => ?_
              have hnot := h.1 rfl rfl c rfl
              rw [hc] at hnot
              cases hnot

namespace Input

/-- **Standard input is read as a text, and white space behind a token is left out.**  Requests are answered
as by a cursor in the text in which a newline follows every value, when the cursor takes the white space
behind a token on its line along with the token.  They are answered as by any cursor in that text exactly
when no line is asked for in front of white space that follows a token on its line. -/
theorem answers_of_values (values : List String) (requests : List Request) :
    Request.answers Request.ofInput requests (ofValues values) =
        Request.answers Request.tidied requests (inputText values) ∧
      (Request.answers Request.ofInput requests (ofValues values) =
          Request.answers Request.ofText requests (inputText values) ↔
        LeavesNoBlanks requests (inputText values)) := by
  have htidied := answers_rest (isLines_ofValues values) requests
  rw [rest_ofValues] at htidied
  exact ⟨htidied, by rw [htidied, answers_tidied_iff]⟩

/-- The rest of the line behind `5` in `5  apples`. -/
theorem not_forall_answers_eq_ofText : ¬ ∀ (values : List String) (requests : List Request),
    Request.answers Request.ofInput requests (ofValues values) =
      Request.answers Request.ofText requests (inputText values) := by
  intro h
  have hline : Request.answers Request.ofInput [.token, .line] (ofValues ["5  apples"]) ≠
      Request.answers Request.ofText [.token, .line] (inputText ["5  apples"]) := by decide
  exact hline (h _ _)

end Input

end Coach.Program
