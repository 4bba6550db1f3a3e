import Coach.Proofs.Metrics.Exposition
import Coach.Proofs.Metrics.Totals

/-!
# A counter exported and read back

The lines of a counter are meant to be read as the text exposition format.  What comes back from them is
every series with its total in six digits, as long as its labels need no escapes.  So the samples
themselves come back exactly if all labels are legible and no total has more than six digits.

## Main definitions

* `Counter.counted`: a counter after some calls
* `Counter.exported`: the lines of a counter as one text

## Main statements

* `readText?_exported`: what is read back
* `readText?_exported_iff`: when the samples themselves are
* `readText?_exported_counted`: both, in terms of the calls
-/

namespace Coach.Metrics

open Coach.Service Coach.Text

namespace Counter

/-- A counter after calls with whole amounts, in whatever way they ended. -/
def counted (c : Counter) (calls : List (Nat × Labels)) : Counter :=
  calls.foldl (fun c call => (c.inc (.int call.1) call.2).1) c

/-- The lines as one text. -/
def exported (c : Counter) : List Char := joinWith ['\n'] (c.lines.map String.toList)

end Counter

/-- A sample of a series. -/
def seriesSample (name : String) (series : Labels × Float) : Sample :=
  { name, labels := series.1, value := series.2 }

/-- A sample of a series in six digits. -/
def briefSample (name : String) (series : Labels × Float) : Sample :=
  seriesSample name (series.1, sixDigits series.2)

/-- A heading that fits on its lines: a metric name, and a help without line feeds. -/
structure Heading.Plain (h : Heading) : Prop where
  name : isName isMetricChar h.name.toList = true
  help : '\n' ∉ h.help.toList

/-- The line of a series. -/
def seriesLine (name : String) (series : Labels × Float) : List Char :=
  name.toList ++ (series.1.text.toList ++ ' ' :: (briefFloat series.2).toList)

section Series

variable {name : String} {series : Labels × Float} {line : List Char}

theorem newline_notMem_of_isName {p : Char → Bool} {text : List Char} (hp : p '\n' = false)
    (h : isName p text = true) : '\n' ∉ text := by
  have hnot : ∀ c, p c = true → c ≠ '\n' := by
    rintro c hc rfl
    rw [hp] at hc
    cases hc
  cases text with
  | nil => exact List.not_mem_nil
  | cons c text =>
    simp only [isName, Bool.and_eq_true, List.all_eq_true] at h
    rw [List.mem_cons, not_or]
    exact ⟨(hnot c h.1.1).symm, fun hmem => hnot _ (h.2 _ hmem) rfl⟩

theorem newline_notMem_briefFloat (x : Float) : '\n' ∉ (briefFloat x).toList := fun h =>
  absurd (mem_briefFloat x '\n' h) (by decide)

/-- Legible labels are on one line. -/
theorem newline_notMem_text {labels : Labels} (h : Legible labels) : '\n' ∉ labels.text.toList := by
  have hpair : ∀ p, LegiblePair p → '\n' ∉ (Labels.pairText p).toList := by
    intro p hp
    have hname := newline_notMem_of_isName (by decide) hp.name
    have hvalue : '\n' ∉ p.2.toList := fun hmem => (hp.value _ hmem).2.2 rfl
    rw [toList_pairText]
    simp [hname, hvalue]
  have hclosed : '\n' ∉ closedText labels := by
    induction labels with
    | nil => decide
    | cons p labels ih =>
      obtain ⟨hp, hlabels⟩ := List.forall_mem_cons.mp h
      cases labels with
      | nil => simp [closedText, hpair p hp]
      | cons next labels => simp [closedText, hpair p hp, ih hlabels]
  by_cases hne : labels = []
  · rw [hne]
    exact List.not_mem_nil
  · rw [toList_text hne]
    simp [hclosed]

/-- The series with legible labels are on a line each. -/
theorem splitOn_seriesLine (hname : isName isMetricChar name.toList = true) (h : Legible series.1) :
    splitOn '\n' (seriesLine name series) = [seriesLine name series] := by
  refine splitOn_of_notMem ?_
  simp only [seriesLine, List.mem_append, List.mem_cons, not_or]
  exact ⟨newline_notMem_of_isName (by decide) hname, newline_notMem_text h, by decide,
    newline_notMem_briefFloat _⟩

/-- The lines of series that are read: those that are not passed over. -/
def readLines (name : String) (all : List (Labels × Float)) : List (List Char) :=
  (all.flatMap fun series => splitOn '\n' (seriesLine name series)).filter fun line => !isPassed line

theorem readLines_cons (hname : isName isMetricChar name.toList = true) (series : Labels × Float)
    (all : List (Labels × Float)) :
    ∃ first more, '\n' ∉ first ∧ first <+: seriesLine name series ∧
      readLines name (series :: all) = first :: more ∧
      (Legible series.1 → first = seriesLine name series ∧ more = readLines name all) := by
  obtain ⟨part, parts, hparts⟩ := List.exists_cons_of_ne_nil
    (splitOn_ne_nil '\n' (series.1.text.toList ++ ' ' :: (briefFloat series.2).toList))
  have hpieces : splitOn '\n' (seriesLine name series) = (name.toList ++ part) :: parts :=
    splitOn_append_of_notMem (newline_notMem_of_isName (by decide) hname) hparts
  have hpassed : isPassed (name.toList ++ part) = false := isPassed_of_isName hname part
  refine ⟨name.toList ++ part,
    (parts ++ all.flatMap fun series => splitOn '\n' (seriesLine name series)).filter fun line =>
      !isPassed line, ?_, ?_, ?_, fun h => ?_⟩
  · exact notMem_of_mem_splitOn (hpieces ▸ List.mem_cons_self)
  · rw [← joinWith_splitOn '\n' (seriesLine name series), hpieces]
    cases parts with
    | nil => exact List.prefix_rfl
    | cons next parts =>
      rw [joinWith_cons (List.cons_ne_nil _ _)]
      exact List.prefix_append _ _
  · rw [readLines, List.flatMap_cons, hpieces, List.cons_append,
      List.filter_cons_of_pos (by simp [hpassed])]
  · rw [splitOn_seriesLine hname h] at hpieces
    obtain ⟨hfirst, rfl⟩ := List.cons.inj hpieces
    exact ⟨hfirst.symm, rfl⟩

/-- Series with legible labels are read back, with their totals in six digits. -/
theorem mapM_readSample? (hname : isName isMetricChar name.toList = true) {all : List (Labels × Float)}
    (h : ∀ series ∈ all, Legible series.1) :
    (readLines name all).mapM readSample? = some (all.map (briefSample name)) := by
  induction all with
  | nil => rfl
  | cons series all ih =>
    obtain ⟨hseries, hall⟩ := List.forall_mem_cons.mp h
    obtain ⟨first, more, -, -, hlines, hlegible⟩ := readLines_cons hname series all
    obtain ⟨rfl, rfl⟩ := hlegible hseries
    have hread : readSample? (seriesLine name series) = some (briefSample name series) :=
      readSample?_line hname hseries series.2
    rw [hlines, List.mapM_cons, hread, ih hall]
    rfl

/-- The series themselves are only read back from legible labels. -/
theorem legible_of_mapM_readSample? (hname : isName isMetricChar name.toList = true)
    {all : List (Labels × Float)}
    (h : (readLines name all).mapM readSample? = some (all.map (seriesSample name))) :
    ∀ series ∈ all, Legible series.1 := by
  induction all with
  | nil => exact nofun
  | cons series all ih =>
    obtain ⟨first, more, hnewline, hpre, hlines, hlegible⟩ := readLines_cons hname series all
    rw [hlines, List.mapM_cons, List.map_cons] at h
    obtain ⟨sample, hsample, h⟩ := Option.bind_eq_some_iff.mp h
    obtain ⟨samples, hsamples, h⟩ := Option.bind_eq_some_iff.mp h
    obtain ⟨rfl, rfl⟩ := List.cons.inj (Option.some.inj h)
    have hseries := legible_of_readSample? hname hsample hnewline hpre
    obtain ⟨-, rfl⟩ := hlegible hseries
    exact List.forall_mem_cons.mpr ⟨hseries, ih hsamples⟩

end Series

namespace Counter

variable {c : Counter}

theorem lines_heading (h : Heading) (kind : String) :
    h.lines kind = (if h.help.isEmpty then [] else ["# HELP " ++ h.name ++ " " ++ h.help]) ++
      ["# TYPE " ++ h.name ++ " " ++ kind] := rfl

/-- The comment lines of a plain heading are passed over. -/
theorem comments_of_heading {heading : Heading} (h : heading.Plain) :
    ∀ line ∈ heading.lines "counter", '\n' ∉ line.toList ∧ isPassed line.toList = true := by
  have hname := newline_notMem_of_isName (by decide) h.name
  have hhelp := h.help
  have hcomment : ∀ rest, isPassed ('#' :: rest) = true := fun rest => by
    rw [isPassed, skipGap_cons (by decide)]
    rfl
  rw [lines_heading, List.forall_mem_append, List.forall_mem_singleton]
  refine ⟨fun line hline => ?_, by simp [hname], by simp [hcomment]⟩
  split at hline
  · cases hline
  · rw [List.mem_singleton.mp hline]
    exact ⟨by simp [hname, hhelp], by simp [hcomment]⟩

/-- The lines of series. -/
theorem toList_lines (c : Counter) :
    c.lines.map String.toList = (c.heading.lines "counter").map String.toList ++
      c.values.map (seriesLine c.heading.name) := by
  have hline : ∀ series : Labels × Float,
      (c.heading.name ++ series.1.text ++ " " ++ briefFloat series.2).toList =
        seriesLine c.heading.name series := fun series => by simp [seriesLine]
  rw [lines, List.map_append, List.map_map]
  congr 1
  exact List.map_congr_left fun series _ => hline series

/-- The lines that are read in the text of a counter are those of its series. -/
theorem readText?_exported_eq (h : c.heading.Plain) :
    readText? c.exported = (readLines c.heading.name c.values).mapM readSample? := by
  have hcomments := comments_of_heading h
  have hne : c.lines.map String.toList ≠ [] := by simp [toList_lines, lines_heading]
  rw [readText?, exported, splitOn_joinWith_flatMap hne, toList_lines, List.flatMap_append,
    List.filter_append, List.flatMap_map, List.flatMap_map, List.filter_eq_nil_iff.mpr]
  · rfl
  · intro piece hpiece
    obtain ⟨line, hline, hpiece⟩ := List.mem_flatMap.mp hpiece
    obtain ⟨hnewline, hpassed⟩ := hcomments line hline
    rw [splitOn_of_notMem hnewline, List.mem_singleton] at hpiece
    rw [hpiece, hpassed]
    decide

/-- What is read back from a counter with legible labels. -/
theorem readText?_exported (h : c.heading.Plain) (hlegible : ∀ series ∈ c.samples, Legible series.1) :
    readText? c.exported = some (c.samples.map (briefSample c.heading.name)) := by
  rw [readText?_exported_eq h]
  exact mapM_readSample? h.name hlegible

/-- The samples themselves are read back from legible labels with totals of six digits, and from no
others. -/
theorem readText?_exported_iff (h : c.heading.Plain) :
    readText? c.exported = some (c.samples.map (seriesSample c.heading.name)) ↔
      ∀ series ∈ c.samples, Legible series.1 ∧ sixDigits series.2 = series.2 := by
  have hbrief : (∀ series ∈ c.samples, Legible series.1) →
      (readText? c.exported = some (c.samples.map (seriesSample c.heading.name)) ↔
        ∀ series ∈ c.samples, sixDigits series.2 = series.2) := by
    intro hlegible
    rw [readText?_exported h hlegible, Option.some_inj, List.map_inj_left]
    refine forall₂_congr fun series _ => ?_
    simp [briefSample, seriesSample]
  constructor
  · intro hread
    have hlegible := legible_of_mapM_readSample? h.name ((readText?_exported_eq h).symm.trans hread)
    exact fun series hseries => ⟨hlegible series hseries, (hbrief hlegible).mp hread series hseries⟩
  · exact fun hall => (hbrief fun series hseries => (hall series hseries).1).mpr
      fun series hseries => (hall series hseries).2

/-! ### Calls -/

/-- A call with a whole amount counts under its labels, whether the amount is a double or past them. -/
theorem mem_keys_inc (c : Counter) (amount : Nat) (labels other : Labels) :
    other ∈ (c.inc (.int amount) labels).1.samples.map (·.1) ↔
      other = labels ∨ other ∈ c.samples.map (·.1) := by
  unfold inc
  rw [not_less_zero]
  cases (Number.int amount).toFloat? with
  | some x => exact mem_keys_adjust ..
  | none => exact mem_keys_adjust ..

theorem heading_inc (c : Counter) (amount : Number) (labels : Labels) :
    (c.inc amount labels).1.heading = c.heading := by
  unfold inc
  split
  · rfl
  · split <;> rfl

theorem heading_counted (c : Counter) (calls : List (Nat × Labels)) :
    (c.counted calls).heading = c.heading := by
  induction calls generalizing c with
  | nil => rfl
  | cons call calls ih => exact (ih _).trans (heading_inc c _ _)

/-- The series after calls are those that were there and those that were counted under. -/
theorem mem_keys_counted (c : Counter) (calls : List (Nat × Labels)) (labels : Labels) :
    labels ∈ (c.counted calls).samples.map (·.1) ↔
      labels ∈ calls.map (·.2) ∨ labels ∈ c.samples.map (·.1) := by
  induction calls generalizing c with
  | nil => simp [counted]
  | cons call calls ih =>
    refine (ih _).trans ?_
    rw [mem_keys_inc, List.map_cons, List.mem_cons, or_left_comm, or_assoc]

/-- The series of a counter that began empty are legible when the labels of all calls are. -/
theorem forall_legible_counted (heading : Heading) (calls : List (Nat × Labels)) :
    (∀ series ∈ (({ heading } : Counter).counted calls).samples, Legible series.1) ↔
      ∀ call ∈ calls, Legible call.2 := by
  have hkeys := mem_keys_counted { heading } calls
  have hempty : ∀ labels, labels ∉ ({ heading } : Counter).samples.map (·.1) := fun _ => List.not_mem_nil
  simp only [hempty, or_false] at hkeys
  constructor
  · intro hlegible call hcall
    obtain ⟨series, hseries, heq⟩ := List.mem_map.mp ((hkeys call.2).mpr (List.mem_map_of_mem hcall))
    exact heq ▸ hlegible series hseries
  · intro hlegible series hseries
    obtain ⟨call, hcall, heq⟩ := List.mem_map.mp ((hkeys series.1).mp (List.mem_map_of_mem hseries))
    exact heq ▸ hlegible call hcall

/-- **What an exported counter says.**  After calls with whole amounts and legible labels, every series is
read back, with its total in six digits.  The samples themselves are read back exactly if the labels of all
calls are legible, and every total is one of six digits. -/
theorem readText?_exported_counted (heading : Heading) (h : heading.Plain) (calls : List (Nat × Labels)) :
    let c := ({ heading } : Counter).counted calls
    ((∀ call ∈ calls, Legible call.2) →
      readText? c.exported = some (c.samples.map (briefSample heading.name))) ∧
    (readText? c.exported = some (c.samples.map (seriesSample heading.name)) ↔
      (∀ call ∈ calls, Legible call.2) ∧ ∀ series ∈ c.samples, sixDigits series.2 = series.2) := by
  intro c
  have hheading : c.heading = heading := heading_counted _ calls
  have hplain : c.heading.Plain := hheading ▸ h
  have hread := readText?_exported hplain
  have hexact := readText?_exported_iff hplain
  rw [hheading] at hread hexact
  refine ⟨fun hlegible => hread ((forall_legible_counted heading calls).mpr hlegible), hexact.trans ?_⟩
  rw [← forall_legible_counted heading calls]
  simp only [forall_and]
  rfl

/-- Two calls under one label. -/
theorem readText?_exported_counted_two :
    let heading : Heading := { name := "tier_attempts", help := "Attempts by tier" }
    let labels := [("tier", "remote-sandbox")]
    heading.Plain ∧ Legible labels ∧
      readText? (({ heading } : Counter).counted [(1, labels), (2, labels)]).exported =
        some [{ name := "tier_attempts", labels, value := 3 }] := by
  intro heading labels
  have hplain : heading.Plain := { name := by decide, help := by decide }
  have hlegible : Legible labels :=
    List.forall_mem_singleton.mpr { name := by decide, value := by simp }
  obtain ⟨hread, -⟩ := readText?_exported_counted heading hplain [(1, labels), (2, labels)]
  refine ⟨hplain, hlegible, (hread (by simp [hlegible])).trans ?_⟩
  decide +kernel

/-- The last digit of a total is lost, and a value with a quote and a line feed is read as two samples. -/
theorem exported_counted_ne :
    let heading : Heading := { name := "runs" }
    let many := ({ heading } : Counter).counted [(1234567, [])]
    let split := ({ heading } : Counter).counted [(1, [("tier", "a\"\x7d 7\nruns\x7btier=\"b")])]
    heading.Plain ∧
      many.samples = [([], 1234567)] ∧
      readText? many.exported = some [{ name := "runs", labels := [], value := 1234570 }] ∧
      split.samples = [([("tier", "a\"\x7d 7\nruns\x7btier=\"b")], 1)] ∧
      readText? split.exported = some
        [{ name := "runs", labels := [("tier", "a")], value := 7 },
         { name := "runs", labels := [("tier", "b")], value := 1 }] := by
  intro heading many split
  refine ⟨{ name := by decide, help := by decide }, ?_⟩
  decide +kernel

end Counter

end Coach.Metrics
