import Coach.Proofs.Source.Comments
import Coach.Proofs.Text.Parts
import Coach.Source.Block

/-!
# The statements of a body

A body is cut at the semicolons that stand in no parentheses and behind the blocks that belong to no value.
Statements that are written one after another are cut apart again.

A text that is read within parentheses is told by how many of them are open before it, and what is read of
it only lengthens the statement.  So the cut is decided by the one character behind such a text, and each
statement leaves the reader as it found it: with nothing read and no parenthesis open.

## Main definitions

* `ClosedBody`: what stands behind the opening quote of a closed literal
* `Inline`: a text without braces that closes its parentheses and has semicolons only in them
* `IsBlock`: a text that its closing brace ends
* `Piece.IsStatement`, `Piece.written`: a statement and how it stands in a body

## Main statements

* `takeBlock_append_of_left`: a block ends where it ended, whatever follows
* `piecesFrom_inline`: what is read of an inline text lengthens the statement
* `piecesFrom_written`: a statement is cut off what follows it
* `pieces_joined`: the statements of a body are those it was written with
-/

namespace Coach.Source

open Coach.Text

/-! ### Texts within a statement -/

/-- What stands behind the opening quote of a literal that is closed. -/
inductive ClosedBody (quote : Char) : List Char → Prop
  | quote : ClosedBody quote [quote]
  | escape (c : Char) {body : List Char} (h : ClosedBody quote body) : ClosedBody quote ('\\' :: c :: body)
  | char {c : Char} {body : List Char} (hquote : c ≠ quote) (hline : c ≠ '\n') (hescape : c ≠ '\\')
    (h : ClosedBody quote body) : ClosedBody quote (c :: body)

/-- A character that neither opens nor closes anything and ends no statement. -/
def IsInert (c : Char) : Prop := isQuote c = false ∧ c ∉ ['(', ')', ';', '\x7b', '\x7d']

instance : DecidablePred IsInert := fun c =>
  inferInstanceAs (Decidable (isQuote c = false ∧ c ∉ ['(', ')', ';', '\x7b', '\x7d']))

/-- A text before which `depth` parentheses are open and behind which none is.  It closes no parenthesis that
is not open, its literals are closed, and outside of them it has no braces, and semicolons only where a
parenthesis is open. -/
inductive Inline : Nat → List Char → Prop
  | nil : Inline 0 []
  | opening {depth : Nat} {text : List Char} (h : Inline (depth + 1) text) : Inline depth ('(' :: text)
  | closing {depth : Nat} {text : List Char} (h : Inline depth text) : Inline (depth + 1) (')' :: text)
  | semicolon {depth : Nat} {text : List Char} (h : Inline (depth + 1) text) :
    Inline (depth + 1) (';' :: text)
  | literal {depth : Nat} {quote : Char} {body text : List Char} (hquote : isQuote quote = true)
    (hbody : ClosedBody quote body) (h : Inline depth text) : Inline depth (quote :: (body ++ text))
  | inert {depth : Nat} {c : Char} {text : List Char} (hc : IsInert c) (h : Inline depth text) :
    Inline depth (c :: text)

/-- A text that the brace closing its first one ends.  A newline stands for what follows: a block that is
not closed would take it along. -/
structure IsBlock (block : List Char) : Prop where
  opens : block.head? = some '\x7b'
  closes : takeBlock 0 (block ++ ['\n']) = (block, ['\n'])

/-- A closed literal ends with its quote, whatever follows. -/
theorem ClosedBody.takeLiteral_append {quote : Char} {body : List Char} (hquote : isQuote quote = true)
    (h : ClosedBody quote body) (rest : List Char) : takeLiteral quote (body ++ rest) = (body, rest) := by
  have hne : '\\' ≠ quote := by
    rintro rfl
    cases hquote
  induction h with
  | quote => exact takeLiteral_quote_cons hquote rest
  | escape c _ ih => simp [takeLiteral, hne, ih]
  | char hc hline hescape _ ih => rw [List.cons_append, takeLiteral_cons_of_ne hc hline hescape, ih]

theorem isInert_of_isSpace {c : Char} (h : isSpace c = true) : IsInert c :=
  of_isSpace (P := IsInert) (by decide) h

theorem Inline.of_inert {depth : Nat} {front text : List Char} (hfront : ∀ c ∈ front, IsInert c)
    (h : Inline depth text) : Inline depth (front ++ text) := by
  induction front with
  | nil => exact h
  | cons c front ih =>
    exact .inert (hfront c List.mem_cons_self) (ih fun d hd => hfront d (List.mem_cons_of_mem _ hd))

/-! ### Blocks -/

/-- Something is taken of a text unless it is empty. -/
theorem takeBlock_ne_nil (depth : Nat) {text : List Char} (h : text ≠ []) : (takeBlock depth text).1 ≠ [] := by
  obtain ⟨c, rest, rfl⟩ := List.exists_cons_of_ne_nil h
  intro hnil
  have hwhole := takeBlock_append depth (c :: rest)
  have hlength := length_takeBlock_cons_lt depth c rest
  rw [hnil, List.nil_append] at hwhole
  rw [hwhole] at hlength
  exact Nat.lt_irrefl _ hlength

/-- A literal in a block behind which something is left ends in the same place before anything else: it
stops before the rest of the block, of which the first character stays. -/
theorem takeLiteral_append_block {depth : Nat} {quote : Char} {text block after : List Char}
    (hquote : isQuote quote = true) (hblock : takeBlock depth (takeLiteral quote text).2 = (block, after))
    (hafter : after ≠ []) (rest : List Char) :
    takeLiteral quote ((takeLiteral quote text).1 ++ (block ++ rest)) =
      ((takeLiteral quote text).1, block ++ rest) := by
  have hwhole : block ++ after = (takeLiteral quote text).2 := by
    have happend := takeBlock_append depth (takeLiteral quote text).2
    rwa [hblock] at happend
  refine takeLiteral_append_of_goesOnLike hquote ⟨fun hnil => ?_, fun hhead => ?_⟩
  · rw [← hwhole] at hnil
    exact absurd (List.append_eq_nil_iff.mp hnil).2 hafter
  · have hmore : (takeLiteral quote text).2 ≠ [] := by
      intro hnil
      rw [hnil] at hhead
      cases hhead
    have htaken : block ≠ [] := by
      have htaken := takeBlock_ne_nil depth hmore
      rwa [hblock] at htaken
    obtain ⟨d, more, rfl⟩ := List.exists_cons_of_ne_nil htaken
    rw [← hwhole] at hhead
    exact hhead

/-- A block behind which something is left ends in the same place before anything else. -/
theorem takeBlock_append_of_left {depth : Nat} {text : List Char} (h : (takeBlock depth text).2 ≠ [])
    (rest : List Char) :
    takeBlock depth ((takeBlock depth text).1 ++ rest) = ((takeBlock depth text).1, rest) := by
  fun_induction takeBlock depth text with
  | case1 => exact absurd rfl h
  | case2 depth c text hquote block after heq ih =>
    have hblock : takeBlock depth (block ++ rest) = (block, rest) := by
      rw [heq] at ih
      exact ih h
    rw [List.cons_append, List.cons_append, List.append_assoc, takeBlock, if_pos hquote,
      takeLiteral_append_block hquote heq h, hblock]
    rfl
  | case3 depth c text hquote hclose => rw [List.singleton_append, takeBlock, if_neg hquote, if_pos hclose]
  | case4 depth c text hquote hclose next block after heq ih =>
    have hblock : takeBlock next (block ++ rest) = (block, rest) := by
      rw [heq] at ih
      exact ih h
    rw [List.cons_append, takeBlock, if_neg hquote, if_neg hclose]
    exact congrArg (fun taken => (c :: taken.1, taken.2)) hblock

/-- A block ends with its closing brace, whatever follows. -/
theorem IsBlock.takeBlock_append {block : List Char} (h : IsBlock block) (rest : List Char) :
    takeBlock 0 (block ++ rest) = (block, rest) := by
  have hrest : (takeBlock 0 (block ++ ['\n'])).2 ≠ [] := by simp [h.closes]
  have hleft := takeBlock_append_of_left hrest rest
  rwa [h.closes] at hleft

/-! ### Cutting a body -/

section PiecesFrom

variable (buffer : List Char) {parens : Int}

theorem piecesFrom_literal {quote : Char} {body : List Char} (hquote : isQuote quote = true)
    (hbody : ClosedBody quote body) (rest : List Char) :
    piecesFrom buffer parens (quote :: (body ++ rest)) =
      piecesFrom (buffer ++ quote :: body) parens rest := by
  rw [piecesFrom, if_pos hquote, hbody.takeLiteral_append hquote]

theorem piecesFrom_inert {c : Char} (hc : IsInert c) (rest : List Char) :
    piecesFrom buffer parens (c :: rest) = piecesFrom (buffer ++ [c]) parens rest := by
  obtain ⟨hquote, hmem⟩ := hc
  simp only [List.mem_cons, List.not_mem_nil, or_false, not_or] at hmem
  obtain ⟨hopening, hclosing, hsemicolon, hopen, hclose⟩ := hmem
  rw [piecesFrom, if_neg (Bool.eq_false_iff.mp hquote), if_neg hopening, if_neg hclosing,
    if_neg fun h => hsemicolon h.1, if_neg fun h => hopen h.1, if_neg hclose]

/-- Within parentheses a semicolon belongs to the statement. -/
theorem piecesFrom_semicolon_of_pos (h : 0 < parens) (rest : List Char) :
    piecesFrom buffer parens (';' :: rest) = piecesFrom (buffer ++ [';']) parens rest := by
  rw [piecesFrom, if_neg (by decide), if_neg (by decide), if_neg (by decide), if_neg (by omega),
    if_neg fun hopen => absurd hopen.1 (by decide), if_neg (by decide)]

/-- Outside parentheses a semicolon ends the statement. -/
theorem piecesFrom_semicolon (hne : strip buffer ≠ []) (rest : List Char) :
    piecesFrom buffer 0 (';' :: rest) = .plain (strip buffer) :: piecesFrom [] 0 rest := by
  rw [piecesFrom, if_neg (by decide), if_neg (by decide), if_neg (by decide), if_pos ⟨rfl, Int.le_refl 0⟩]
  exact if_neg (by rwa [List.isEmpty_iff])

/-- A block ends the statement unless it is a value. -/
theorem piecesFrom_block {block : List Char} (hblock : IsBlock block)
    (hvalue : opensValue (strip buffer) = false) (rest : List Char) :
    piecesFrom buffer 0 (block ++ rest) = .compound (strip buffer ++ block) :: piecesFrom [] 0 rest := by
  obtain ⟨inner, rfl⟩ := List.head?_eq_some_iff.mp hblock.opens
  have htake := hblock.takeBlock_append rest
  rw [List.cons_append] at htake ⊢
  rw [piecesFrom, if_neg (by decide), if_neg (by decide), if_neg (by decide),
    if_neg fun h => absurd h.1 (by decide), if_pos ⟨rfl, Int.le_refl 0⟩, htake]
  exact if_neg (Bool.eq_false_iff.mp hvalue)

/-- What is read of an inline text lengthens the statement and closes the open parentheses. -/
theorem piecesFrom_inline {depth : Nat} {text : List Char} (h : Inline depth text) (rest : List Char) :
    piecesFrom buffer depth (text ++ rest) = piecesFrom (buffer ++ text) 0 rest := by
  induction h generalizing buffer with
  | nil => rw [List.append_nil]; rfl
  | @opening depth text _ ih =>
    rw [List.cons_append, piecesFrom, if_neg (by decide), if_pos rfl]
    exact (ih (buffer ++ ['('])).trans (by rw [List.append_assoc]; rfl)
  | @closing depth text _ ih =>
    rw [List.cons_append, piecesFrom, if_neg (by decide), if_neg (by decide), if_pos rfl,
      show ((depth + 1 : Nat) : Int) - 1 = depth by omega]
    exact (ih (buffer ++ [')'])).trans (by rw [List.append_assoc]; rfl)
  | @semicolon depth text _ ih =>
    rw [List.cons_append, piecesFrom_semicolon_of_pos buffer (by omega), ih, List.append_assoc]
    rfl
  | literal hquote hbody _ ih =>
    rw [List.cons_append, List.append_assoc, piecesFrom_literal buffer hquote hbody, ih, List.append_assoc]
    rfl
  | inert hc _ ih =>
    rw [List.cons_append, piecesFrom_inert buffer hc, ih, List.append_assoc]
    rfl

end PiecesFrom

/-! ### Statements written one after another -/

namespace Piece

/-- A piece that a body can be written with: a plain statement, or a compound one with its block. -/
inductive IsStatement : Piece → Prop
  | plain {text : List Char} (hinline : Inline 0 text) (hne : text ≠ []) (htrim : strip text = text) :
    IsStatement (.plain text)
  | compound {head block : List Char} (hinline : Inline 0 head) (htrim : strip head = head)
    (hvalue : ∀ ending ∈ [['='], [']'], ['-', '>']], ¬ ending <:+ head) (hblock : IsBlock block) :
    IsStatement (.compound (head ++ block))

/-- A piece as it stands in a body. -/
def written : Piece → List Char
  | .plain text => text ++ [';']
  | .compound text => text

end Piece

theorem opensValue_eq_false {head : List Char}
    (h : ∀ ending ∈ [['='], [']'], ['-', '>']], ¬ ending <:+ head) : opensValue head = false := by
  simpa [opensValue, Bool.eq_false_iff, endsWith_iff, and_assoc] using h

/-- White space lengthens what has been read by inert characters. -/
theorem piecesFrom_blanks {blanks : List Char} (h : ∀ c ∈ blanks, isSpace c = true) (rest : List Char) :
    piecesFrom [] 0 (blanks ++ rest) = piecesFrom blanks 0 rest := by
  have hinline := Inline.of_inert (fun c hc => isInert_of_isSpace (h c hc)) .nil
  rw [List.append_nil] at hinline
  exact piecesFrom_inline [] hinline rest

/-- A statement is cut off what follows it, and leaves nothing read. -/
theorem piecesFrom_written {blanks : List Char} {piece : Piece} (hblanks : ∀ c ∈ blanks, isSpace c = true)
    (hpiece : piece.IsStatement) (rest : List Char) :
    piecesFrom [] 0 (blanks ++ (piece.written ++ rest)) = piece :: piecesFrom [] 0 rest := by
  have htrimmed : ∀ {text : List Char}, strip text = text → strip (blanks ++ text) = text := fun htrim =>
    (strip_blanks_append hblanks _).trans htrim
  rw [piecesFrom_blanks hblanks]
  cases hpiece with
  | @plain text hinline hne htrim =>
    rw [Piece.written, List.append_assoc, List.singleton_append]
    refine (piecesFrom_inline blanks hinline _).trans ?_
    rw [piecesFrom_semicolon _ (by rwa [htrimmed htrim]), htrimmed htrim]
  | @compound head block hinline htrim hvalue hblock =>
    rw [Piece.written, List.append_assoc]
    refine (piecesFrom_inline blanks hinline _).trans ?_
    rw [piecesFrom_block _ hblock (by rw [htrimmed htrim, opensValue_eq_false hvalue]), htrimmed htrim]

/-- Statements in a body, each behind white space of its own, and white space behind the last. -/
def joined (spaced : List (List Char × Piece)) (last : List Char) : List Char :=
  spaced.flatMap (fun p => p.1 ++ p.2.written) ++ last

/-- **Cutting a body into statements undoes writing them.**  Plain statements with their semicolons and
compound ones with their blocks, with any white space between them, are found again in their order, and
each as what it was. -/
theorem pieces_joined {spaced : List (List Char × Piece)} {last : List Char}
    (hspaced : ∀ p ∈ spaced, (∀ c ∈ p.1, isSpace c = true) ∧ p.2.IsStatement)
    (hlast : ∀ c ∈ last, isSpace c = true) :
    pieces (joined spaced last) = spaced.map Prod.snd := by
  unfold pieces joined
  induction spaced with
  | nil =>
    have hend := piecesFrom_blanks hlast []
    rw [List.append_nil, piecesFrom, strip_blanks hlast] at hend
    exact hend
  | cons p spaced ih =>
    obtain ⟨⟨hblanks, hpiece⟩, hspaced⟩ := List.forall_mem_cons.mp hspaced
    rw [List.flatMap_cons, List.append_assoc, List.append_assoc, piecesFrom_written hblanks hpiece,
      ih hspaced, List.map_cons]

/-- A loop with semicolons in its header and a brace in a literal, and a call with a quote in one. -/
theorem pieces_joined_loop :
    let loop : Piece := .compound "for(;i < 2;i++)\x7b s = '\x7d'; \x7d".toList
    let call : Piece := .plain "puts(\";\\\"\")".toList
    loop.IsStatement ∧ call.IsStatement ∧
      pieces "\n for(;i < 2;i++)\x7b s = '\x7d'; \x7d\n puts(\";\\\"\"); ".toList = [loop, call] := by
  intro loop call
  have hheader : Inline 0 ("for".toList ++ '(' :: ';' :: ("i < 2".toList ++ ';' :: ("i++".toList ++ [')']))) :=
    .of_inert (by decide) <| .opening <| .semicolon <| .of_inert (by decide) <| .semicolon <|
      .of_inert (by decide) <| .closing .nil
  have hbody : ClosedBody '"' [';', '\\', '"', '"'] :=
    .char (by decide) (by decide) (by decide) (.escape '"' .quote)
  have hcall : Inline 0 ("puts".toList ++ '(' :: '"' :: ([';', '\\', '"', '"'] ++ [')'])) :=
    .of_inert (by decide) <| .opening <| .literal rfl hbody <| .closing .nil
  have hblock : IsBlock "\x7b s = '\x7d'; \x7d".toList := { opens := rfl, closes := by decide +kernel }
  have hloop : loop.IsStatement := .compound hheader (by decide) (by decide) hblock
  have hcall : call.IsStatement := .plain hcall (by decide) (by decide)
  have hblanks : ∀ c ∈ ['\n', ' '], isSpace c = true := by decide
  have hspaced : ∀ p ∈ [(['\n', ' '], loop), (['\n', ' '], call)],
      (∀ c ∈ p.1, isSpace c = true) ∧ p.2.IsStatement :=
    List.forall_mem_cons.mpr ⟨⟨hblanks, hloop⟩, List.forall_mem_singleton.mpr ⟨hblanks, hcall⟩⟩
  have hlast : ∀ c ∈ [' '], isSpace c = true := by decide
  exact ⟨hloop, hcall, pieces_joined hspaced hlast⟩

end Coach.Source
