import Coach.Model.Reply
import Coach.Proofs.Text.Lines
import Coach.Proofs.Text.Parts

/-!
# Code fences around a text

A text stands between two lines of three backquotes, of which the first may go on with a language tag, and
prose may follow the second.  Fences are taken off from the outside: the first line goes, and so does
everything from the last closing fence on.  So a body may hold fences of its own, and it comes back but for
the white space at its ends.

Trimming comes first, and it may reach into the prose, which is why the prose is told apart from what is
left of it.

## Main definitions

* `below`: what follows the closing fence
* `fenced`: a body between fences

## Main statements

* `beforeLastFence_append`: the last closing fence is found from the end
* `exists_below_of_stripRight`: trimming leaves of prose without fences prose without fences
* `stripFences_undoes_fenced`: fences that were put around a text are taken off
-/

namespace Coach.Model

open Coach.Text

/-- What follows the closing fence: nothing, or prose from the next line on. -/
def below : Option (List Char) → List Char
  | none => []
  | some prose => '\n' :: prose

/-- A body between fences, with a language tag and what follows the closing fence. -/
def fenced (tag body after : List Char) : List Char :=
  fence ++ (tag ++ '\n' :: (body ++ '\n' :: (fence ++ after)))

theorem isFence_iff {line : List Char} : isFence line = true ↔ strip line = fence := beq_iff_eq

/-- The last closing fence is the one behind which no line is a fence. -/
theorem beforeLastFence_append (lines : List (List Char)) {after : List (List Char)}
    (h : ∀ line ∈ after, strip line ≠ fence) : beforeLastFence (lines ++ fence :: after) = lines := by
  have hafter : ∀ line ∈ after.reverse, (!isFence line) = true := by
    intro line hline
    rw [Bool.not_eq_true', Bool.eq_false_iff, Ne, isFence_iff]
    exact h line (List.mem_reverse.mp hline)
  have hdrop : (lines ++ fence :: after).reverse.dropWhile (!isFence ·) = fence :: lines.reverse := by
    rw [List.reverse_append, List.reverse_cons, List.append_assoc, List.dropWhile_append_of_pos hafter]
    rfl
  rw [beforeLastFence, hdrop]
  exact List.reverse_reverse lines

/-- The lines of a fenced text: the opening fence, the body, and the closing fence with what follows. -/
theorem splitOn_fenced {tag after : List Char} (htag : '\n' ∉ tag) (hafter : LineEnd after)
    (body : List Char) :
    splitOn '\n' (fenced tag body after) =
      (fence ++ tag) :: (splitOn '\n' body ++ fence :: linesBehind after) := by
  have hfence : '\n' ∉ fence := by decide
  have hopening : '\n' ∉ fence ++ tag := by simp [hfence, htag]
  have hclosing : splitOn '\n' (fence ++ after) = fence :: linesBehind after := by
    rw [splitOn_append_lineEnd fence hafter, splitOn_of_notMem hfence, List.singleton_append]
  rw [fenced, ← List.append_assoc, splitOn_append_separator, splitOn_of_notMem hopening,
    splitOn_append_separator, hclosing, List.singleton_append]

/-- What is left of prose when white space is trimmed off its end: it follows the fence as prose does, and
no line of it is a fence if no line of the prose was. -/
theorem exists_below_of_stripRight {prose : Option (List Char)}
    (h : ∀ text ∈ prose, ∀ line ∈ splitOn '\n' text, strip line ≠ fence) :
    LineEnd (stripRight (below prose)) ∧
      ∀ line ∈ linesBehind (stripRight (below prose)), strip line ≠ fence := by
  obtain ⟨blanks, hblanks, hspace⟩ := exists_stripRight (below prose)
  generalize stripRight (below prose) = left at hblanks ⊢
  cases left with
  | nil => exact ⟨lineEnd_nil, nofun⟩
  | cons c left =>
    cases prose with
    | none => cases hblanks
    | some prose =>
      obtain ⟨rfl, rfl⟩ := List.cons.inj hblanks
      refine ⟨lineEnd_newline left, fun line hline => ?_⟩
      obtain ⟨longer, hlonger, hstrip⟩ := exists_line_of_append_blanks hspace hline
      exact hstrip ▸ h _ rfl longer hlonger

/-- White space around a fenced text is trimmed, and none inside it but that at the end of the prose. -/
theorem strip_fenced {before after : List Char} (hbefore : ∀ c ∈ before, isSpace c = true)
    (hafter : ∀ c ∈ after, isSpace c = true) (tag body tail : List Char) :
    strip (before ++ (fenced tag body tail ++ after)) = fenced tag body (stripRight tail) := by
  have hquote : isSpace '\x60' = false := by decide
  have hleft : stripLeft (fenced tag body tail) = fenced tag body tail := rfl
  -- the closing fence ends with a backquote, up to which nothing is trimmed
  have hcut : ∀ rest, fenced tag body rest =
      (fence ++ (tag ++ '\n' :: (body ++ ['\n', '\x60', '\x60']))) ++ '\x60' :: rest := fun rest => by
    simp [fenced, fence]
  rw [strip_blanks_append hbefore, strip_append_blanks hafter, strip, hleft, hcut, hcut,
    stripRight_append_cons _ hquote]

/-- A fenced text gives its body back. -/
theorem stripFences_fenced {before tag after : List Char} {prose : Option (List Char)}
    (hbefore : ∀ c ∈ before, isSpace c = true) (htag : '\n' ∉ tag)
    (hprose : ∀ text ∈ prose, ∀ line ∈ splitOn '\n' text, strip line ≠ fence)
    (hafter : ∀ c ∈ after, isSpace c = true) (body : List Char) :
    stripFences (before ++ (fenced tag body (below prose) ++ after)) = strip body := by
  obtain ⟨hend, hlines⟩ := exists_below_of_stripRight hprose
  have hstarts : startsWith (fenced tag body (stripRight (below prose))) fence = true :=
    startsWith_iff.mpr (List.prefix_append _ _)
  rw [stripFences, strip_fenced hbefore hafter, if_pos hstarts, splitOn_fenced htag hend, List.tail_cons,
    beforeLastFence_append _ hlines, joinWith_splitOn]

/-- A text that does not begin with a fence is only trimmed. -/
theorem stripFences_of_not_prefix {text : List Char} (h : ¬ fence <+: strip text) :
    stripFences text = strip text := by
  rw [stripFences, if_neg (mt startsWith_iff.mp h)]

/-- **Taking fences off undoes putting them on.**  A body between fences comes back trimmed, whatever it
holds, whatever tag the opening fence goes on with on its line, with white space around the whole and with
prose behind the closing fence of which no line is a fence.  A text that begins with no fence is trimmed. -/
theorem stripFences_undoes_fenced :
    (∀ (before tag body after : List Char) (prose : Option (List Char)),
      (∀ c ∈ before, isSpace c = true) → '\n' ∉ tag →
      (∀ text ∈ prose, ∀ line ∈ splitOn '\n' text, strip line ≠ fence) →
      (∀ c ∈ after, isSpace c = true) →
      stripFences (before ++ (fenced tag body (below prose) ++ after)) = strip body) ∧
    ∀ text, ¬ fence <+: strip text → stripFences text = strip text :=
  ⟨fun _ _ body _ _ hbefore htag hprose hafter => stripFences_fenced hbefore htag hprose hafter body,
    fun _ => stripFences_of_not_prefix⟩

/-- A body that holds fences of its own, between blank lines and before prose; and a text that begins with
one backquote. -/
theorem stripFences_undoes_fenced_nested :
    let prose := "It prints `a`.\n``` is a fence. ".toList
    ((∀ c ∈ ['\n', ' '], isSpace c = true) ∧ '\n' ∉ "json".toList ∧
      (∀ line ∈ splitOn '\n' prose, strip line ≠ fence)) ∧
    stripFences "\n ```json\na\n```\nb\n```\n\n```\nIt prints `a`.\n``` is a fence. \n ".toList =
      "a\n```\nb\n```".toList ∧
    ¬ fence <+: strip " `a` ".toList ∧ stripFences " `a` ".toList = "`a`".toList := by
  intro prose
  have hspace : ∀ c ∈ ['\n', ' '], isSpace c = true := by decide
  have htag : '\n' ∉ "json".toList := by decide
  have hprose : ∀ line ∈ splitOn '\n' prose, strip line ≠ fence := by decide +kernel
  have hplain : ¬ fence <+: strip " `a` ".toList := by decide
  refine ⟨⟨hspace, htag, hprose⟩, ?_, hplain, stripFences_undoes_fenced.2 _ hplain⟩
  exact stripFences_undoes_fenced.1 ['\n', ' '] "json".toList "a\n```\nb\n```\n".toList ['\n', ' ']
    (some prose) hspace htag (fun text htext => Option.mem_some_iff.mp htext ▸ hprose) hspace

end Coach.Model
