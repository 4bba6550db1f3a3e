import Coach.Program.Format
import Coach.Proofs.Text.Parts

/-!
# Formatting part by part

A format string consists of texts without percent signs and of conversions.  It is cut where they meet,
because a conversion ends with its letter, which no text behind it can extend, and nothing else has a
percent sign to begin one with.  So formatting it is formatting its parts, each with the arguments that it
takes, and putting the results together.

The flags of a conversion and its width may both have zeros, and the cut between them is the reader's: the
zeros that a width begins with are flags.

## Main definitions

* `Specifier`: a complete conversion as it is written
* `FormatPart`: a text without percent signs, or a conversion
* `FormatPart.result`: what a part comes to with arguments of its own
* `FormatPart.shares`: the parts of a format string with the arguments that each of them takes

## Main statements

* `takeConversion?_eq_some_iff`: a conversion is read up to its letter, whatever follows, and nothing else is
* `formatSegments_part`: a part in front of others takes its arguments and leaves the rest
* `format_parts`: formatting a format string is formatting its parts
-/

namespace Coach.Program

open Coach.Text

/-! ### Conversions as they are written -/

/-- The letters that end a conversion. -/
def conversionLetters : List Char := "%ndiuoxXfFeEgGcsSbB".toList

/-- The length modifiers; there may be none. -/
def lengthModifiers : List Str := [[], [104], [104, 104], [108], [108, 108], [76]]

/-- A complete conversion as it is written: behind the percent sign any flags, the digits of a width, a
point with the digits of the places, a length modifier, and a letter. -/
structure Specifier where
  flags : Str
  width : Str
  places : Option Str
  modifier : Str
  letter : Nat
  kind : ConversionKind
  isFlag_flags : ∀ code ∈ flags, isFlag code = true
  isDigit_width : ∀ code ∈ width, isCodeDigit code = true
  isDigit_places : ∀ digits ∈ places, digits ≠ [] ∧ ∀ code ∈ digits, isCodeDigit code = true
  modifier_mem : modifier ∈ lengthModifiers
  kind_letter : conversionKind? letter = some kind

/-- The places with their point. -/
def placesText : Option Str → Str
  | none => []
  | some digits => 46 :: digits

namespace Specifier

/-- What stands behind the percent sign. -/
def body (s : Specifier) : Str :=
  s.flags ++ (s.width ++ (placesText s.places ++ (s.modifier ++ [s.letter])))

/-- The text of a conversion. -/
def text (s : Specifier) : Str := 37 :: s.body

/-- What a conversion asks for. The zeros that its width begins with are flags. -/
def conversion (s : Specifier) : Conversion where
  flags := s.flags ++ s.width.takeWhile isFlag
  width := (s.width.dropWhile isFlag).filterMap codeDigit?
  places := s.places.map (·.filterMap codeDigit?)
  kind := s.kind
  source := s.text

/-- What a conversion comes to with arguments of its own. One that is short of its argument names itself. -/
def result (s : Specifier) (own : List Value) : Except Fault Str :=
  match s.kind, own with
  | .percent, _ => .ok [37]
  | .newline, _ => .ok [10]
  | _, [] => throws (.missingFormatArgument s.text)
  | _, v :: _ => s.conversion.apply v

end Specifier

/-- How many arguments a conversion takes. -/
def ConversionKind.arity : ConversionKind → Nat
  | .percent => 0
  | .newline => 0
  | _ => 1

/-- A part of a format string: a text without percent signs, or a conversion. -/
inductive FormatPart where
  | literal (text : Str) (h : 37 ∉ text)
  | specifier (s : Specifier)

namespace FormatPart

/-- The text of a part. -/
def text : FormatPart → Str
  | .literal text _ => text
  | .specifier s => s.text

/-- How many arguments a part takes. -/
def arity : FormatPart → Nat
  | .literal .. => 0
  | .specifier s => s.kind.arity

/-- What a part comes to with arguments of its own. -/
def result : FormatPart → List Value → Except Fault Str
  | .literal text _, _ => .ok text
  | .specifier s, own => s.result own

/-- The parts, each with the arguments that it takes from left to right. -/
def shares : List FormatPart → List Value → List (FormatPart × List Value)
  | [], _ => []
  | part :: parts, args => (part, args.take part.arity) :: shares parts (args.drop part.arity)

end FormatPart

/-! ### Reading a conversion -/

/-- What holds of all letters holds of the letter of a conversion. -/
theorem of_conversionKind {P : Char → Prop} (hletters : ∀ c ∈ conversionLetters, P c) {code : Nat}
    {kind : ConversionKind} (h : conversionKind? code = some kind) : P (Char.ofNat code) := by
  refine hletters _ ?_
  unfold conversionKind? at h
  split at h
  all_goals first | (next heq => rw [heq]; decide) | cases h

section Reading

variable (s : Specifier) (rest : Str)

/-- What follows the places is no flag, no digit and no point. -/
theorem head_modifier : ∀ code ∈ (s.modifier ++ s.letter :: rest).head?,
    isFlag code = false ∧ isCodeDigit code = false ∧ code ≠ 46 := by
  have hletter : isFlag s.letter = false ∧ isCodeDigit s.letter = false ∧ s.letter ≠ 46 := by
    obtain ⟨hflag, hdigit, hpoint⟩ :=
      of_conversionKind (P := fun c => "-#+ 0,(".toList.contains c = false ∧
        (digitValue? c).isSome = false ∧ c ≠ '.') (by decide +kernel) s.kind_letter
    exact ⟨hflag, hdigit, fun heq => hpoint (by rw [heq])⟩
  have hmodifier := s.modifier_mem
  intro code hcode
  cases hmod : s.modifier with
  | nil =>
    rw [hmod] at hcode
    rwa [← Option.some.inj hcode]
  | cons first more =>
    rw [hmod] at hcode hmodifier
    obtain rfl : first = code := Option.some.inj hcode
    simp only [lengthModifiers, List.mem_cons, List.not_mem_nil, or_false, reduceCtorEq, false_or,
      List.cons.injEq] at hmodifier
    rcases hmodifier with ⟨rfl, -⟩ | ⟨rfl, -⟩ | ⟨rfl, -⟩ | ⟨rfl, -⟩ | ⟨rfl, -⟩ <;> decide +kernel

/-- A length modifier is skipped up to the letter. -/
theorem dropLengthModifier_modifier :
    dropLengthModifier (s.modifier ++ s.letter :: rest) = s.letter :: rest := by
  have hletter : s.letter ≠ 104 ∧ s.letter ≠ 108 ∧ s.letter ≠ 76 := by
    obtain ⟨hh, hl, hL⟩ := of_conversionKind (P := fun c => c ≠ 'h' ∧ c ≠ 'l' ∧ c ≠ 'L') (by decide)
      s.kind_letter
    exact ⟨fun heq => hh (by rw [heq]), fun heq => hl (by rw [heq]), fun heq => hL (by rw [heq])⟩
  have hmodifier := s.modifier_mem
  simp only [lengthModifiers, List.mem_cons, List.not_mem_nil, or_false] at hmodifier
  rcases hmodifier with heq | heq | heq | heq | heq | heq <;>
    simp [heq, dropLengthModifier, hletter]

/-- The digits behind a point are taken up to what follows them. -/
theorem takePlaces_places : takePlaces (placesText s.places ++ (s.modifier ++ s.letter :: rest)) =
    (s.places.map (·.filterMap codeDigit?), s.modifier ++ s.letter :: rest) := by
  have hhead := head_modifier s rest
  have hplaces := s.isDigit_places
  generalize s.modifier ++ s.letter :: rest = tail at hhead
  cases heq : s.places with
  | none =>
    rw [placesText, List.nil_append, takePlaces]
    · rfl
    · rintro more rfl
      exact (hhead 46 rfl).2.2 rfl
  | some digits =>
    obtain ⟨hne, hdigits⟩ := hplaces digits heq
    obtain ⟨htake, hdrop⟩ := takeWhile_run hdigits fun code hcode => (hhead code hcode).2.1
    rw [placesText, List.cons_append, takePlaces, htake, hdrop, if_neg (by rwa [List.isEmpty_iff])]
    rfl

/-- What follows the width is no flag and no digit. -/
theorem head_places : ∀ code ∈ (placesText s.places ++ (s.modifier ++ s.letter :: rest)).head?,
    isFlag code = false ∧ isCodeDigit code = false := by
  have hhead := head_modifier s rest
  intro code hcode
  cases hplaces : s.places with
  | none =>
    rw [hplaces] at hcode
    obtain ⟨hflag, hdigit, -⟩ := hhead code hcode
    exact ⟨hflag, hdigit⟩
  | some digits =>
    rw [hplaces] at hcode
    obtain rfl : 46 = code := Option.some.inj hcode
    exact ⟨by decide, by decide +kernel⟩

/-- The flags and the width in front of what neither continues: the flags go on with the zeros that the
width begins with, and the width with its first other digit. -/
theorem takeWhile_flags {tail : Str}
    (htail : ∀ code ∈ tail.head?, isFlag code = false ∧ isCodeDigit code = false) :
    (s.flags ++ (s.width ++ tail)).takeWhile isFlag = s.flags ++ s.width.takeWhile isFlag ∧
      (s.flags ++ (s.width ++ tail)).dropWhile isFlag = s.width.dropWhile isFlag ++ tail := by
  have hcut : s.flags ++ (s.width ++ tail) =
      (s.flags ++ s.width.takeWhile isFlag) ++ (s.width.dropWhile isFlag ++ tail) := by
    rw [List.append_assoc, ← List.append_assoc (s.width.takeWhile isFlag), List.takeWhile_append_dropWhile]
  have hflags : ∀ code ∈ s.flags ++ s.width.takeWhile isFlag, isFlag code = true := fun code hcode =>
    (List.mem_append.mp hcode).elim (s.isFlag_flags code) (of_mem_takeWhile code)
  rw [hcut]
  refine takeWhile_run hflags fun code hcode => ?_
  rw [List.head?_append] at hcode
  cases hdrop : (s.width.dropWhile isFlag).head? with
  | none =>
    rw [hdrop] at hcode
    exact (htail code hcode).1
  | some first =>
    rw [hdrop] at hcode
    exact of_mem_head_dropWhile code (hdrop.trans hcode)

/-- A conversion is read up to its letter, whatever follows. -/
theorem takeConversion?_specifier :
    takeConversion? (s.body ++ rest) = some (s.conversion, rest) := by
  have hbehind := head_places s rest
  have hplaces := takePlaces_places s rest
  have hbody : s.body ++ rest =
      s.flags ++ (s.width ++ (placesText s.places ++ (s.modifier ++ s.letter :: rest))) := by
    simp [Specifier.body]
  generalize placesText s.places ++ (s.modifier ++ s.letter :: rest) = tail at hbehind hplaces hbody
  obtain ⟨htakeFlags, hdropFlags⟩ := takeWhile_flags s hbehind
  rw [← hbody] at htakeFlags hdropFlags
  have hwidth : ∀ code ∈ s.width.dropWhile isFlag, isCodeDigit code = true := fun code hcode =>
    s.isDigit_width code ((List.dropWhile_suffix isFlag).subset hcode)
  obtain ⟨htakeWidth, hdropWidth⟩ := takeWhile_run hwidth fun code hcode => (hbehind code hcode).2
  have hsource : (s.body ++ rest).take ((s.body ++ rest).length - rest.length) = s.body := by simp
  simp only [takeConversion?, htakeFlags, hdropFlags, htakeWidth, hdropWidth, hplaces,
    dropLengthModifier_modifier, s.kind_letter, hsource]
  rfl

end Reading

theorem exists_places (text : Str) : ∃ places : Option Str,
    (∀ digits ∈ places, digits ≠ [] ∧ ∀ code ∈ digits, isCodeDigit code = true) ∧
      text = placesText places ++ (takePlaces text).2 := by
  unfold takePlaces
  split
  · next rest =>
    split
    · exact ⟨none, nofun, rfl⟩
    · next hne =>
      rw [List.isEmpty_iff] at hne
      refine ⟨some (rest.takeWhile isCodeDigit), ?_, ?_⟩
      · rintro _ ⟨⟩
        exact ⟨hne, of_mem_takeWhile⟩
      · exact congrArg (46 :: ·) List.takeWhile_append_dropWhile.symm
  · exact ⟨none, nofun, rfl⟩

theorem exists_modifier (text : Str) :
    ∃ modifier ∈ lengthModifiers, text = modifier ++ dropLengthModifier text := by
  unfold dropLengthModifier
  split
  · exact ⟨[104, 104], by decide, rfl⟩
  · exact ⟨[104], by decide, rfl⟩
  · exact ⟨[108, 108], by decide, rfl⟩
  · exact ⟨[108], by decide, rfl⟩
  · exact ⟨[76], by decide, rfl⟩
  · exact ⟨[], by decide, rfl⟩

/-- What is read behind a percent sign is a complete conversion. -/
theorem exists_body_of_takeConversion? {text rest : Str} {c : Conversion}
    (h : takeConversion? text = some (c, rest)) : ∃ s : Specifier, text = s.body ++ rest := by
  have hcut := List.takeWhile_append_dropWhile (p := isFlag) (l := text)
  have hwidth := List.takeWhile_append_dropWhile (p := isCodeDigit) (l := text.dropWhile isFlag)
  obtain ⟨places, hplaces, hbehind⟩ := exists_places ((text.dropWhile isFlag).dropWhile isCodeDigit)
  obtain ⟨modifier, hmodifier, hletter⟩ :=
    exists_modifier (takePlaces ((text.dropWhile isFlag).dropWhile isCodeDigit)).2
  unfold takeConversion? at h
  dsimp only at h
  split at h
  · cases h
  · next letter after hdrop =>
    split at h
    · cases h
    · next kind hkind =>
      obtain ⟨-, rfl⟩ := Prod.mk.inj (Option.some.inj h)
      refine ⟨{ flags := text.takeWhile isFlag
                width := (text.dropWhile isFlag).takeWhile isCodeDigit
                places, modifier, letter, kind
                isFlag_flags := of_mem_takeWhile
                isDigit_width := of_mem_takeWhile
                isDigit_places := hplaces
                modifier_mem := hmodifier
                kind_letter := hkind }, ?_⟩
      rw [hdrop] at hletter
      rw [hletter] at hbehind
      rw [hbehind] at hwidth
      rw [← hwidth] at hcut
      simpa [Specifier.body] using hcut.symm

/-- What is read behind a percent sign is a complete conversion, and it is read as what it asks for. -/
theorem takeConversion?_eq_some_iff {text rest : Str} {c : Conversion} :
    takeConversion? text = some (c, rest) ↔ ∃ s : Specifier, text = s.body ++ rest ∧ c = s.conversion := by
  constructor
  · intro h
    obtain ⟨s, rfl⟩ := exists_body_of_takeConversion? h
    rw [takeConversion?_specifier] at h
    exact ⟨s, rfl, (Prod.mk.inj (Option.some.inj h)).1.symm⟩
  · rintro ⟨s, rfl, rfl⟩
    exact takeConversion?_specifier s rest

/-! ### Formatting the parts -/

namespace FormatPart

/-- What a part is cut into. -/
def cut : FormatPart → List Segment
  | .literal text _ => text.map .literal
  | .specifier s => [.conversion s.conversion]

/-- A part is cut off what follows it. -/
theorem segments_text_append (part : FormatPart) (rest : Str) :
    segments (part.text ++ rest) = part.cut ++ segments rest := by
  cases part with
  | specifier s =>
    rw [text, Specifier.text, List.cons_append, segments, if_pos rfl]
    split
    · next c after hread =>
      rw [takeConversion?_specifier] at hread
      obtain ⟨rfl, rfl⟩ := Prod.mk.inj (Option.some.inj hread)
      rfl
    · next hread =>
      rw [takeConversion?_specifier] at hread
      cases hread
  | literal text h =>
    rw [FormatPart.text, cut]
    induction text with
    | nil => rfl
    | cons code text ih =>
      rw [List.mem_cons, not_or] at h
      rw [List.cons_append, segments, if_neg (Ne.symm h.1), ih h.2]
      rfl

/-- The segments of parts one after another. -/
theorem segments_flatMap_text (parts : List FormatPart) :
    segments (parts.flatMap text) = parts.flatMap cut := by
  induction parts with
  | nil => rw [List.flatMap_nil, segments]; rfl
  | cons part parts ih => rw [List.flatMap_cons, segments_text_append, ih, List.flatMap_cons]

/-- Only the argument that a part takes counts for its result. -/
theorem result_take (part : FormatPart) (args : List Value) :
    part.result (args.take part.arity) = part.result args := by
  cases part with
  | literal => rfl
  | specifier s =>
    change s.result (args.take s.kind.arity) = s.result args
    unfold Specifier.result
    cases s.kind <;> cases args <;> rfl

end FormatPart

/-- A text without conversions takes no arguments. -/
theorem formatSegments_literal (text : Str) (rest : List Segment) (args : List Value) :
    formatSegments (text.map .literal ++ rest) args = (text ++ ·) <$> formatSegments rest args := by
  induction text with
  | nil => exact (id_map _).symm
  | cons code text ih =>
    rw [List.map_cons, List.cons_append, formatSegments, ih]
    cases formatSegments rest args <;> rfl

/-- A part in front of others takes its arguments and leaves the rest; what fails first fails the whole. -/
theorem formatSegments_part (part : FormatPart) (rest : List Segment) (args : List Value) :
    formatSegments (part.cut ++ rest) args = (do
      let own ← part.result (args.take part.arity)
      let more ← formatSegments rest (args.drop part.arity)
      return own ++ more) := by
  rw [FormatPart.result_take]
  cases part with
  | literal text h =>
    rw [FormatPart.cut, formatSegments_literal, FormatPart.arity, List.drop_zero]
    cases formatSegments rest args <;> rfl
  | specifier s =>
    have hkind : s.conversion.kind = s.kind := rfl
    rw [FormatPart.cut, List.singleton_append, FormatPart.arity, FormatPart.result,
      Specifier.result.eq_def, formatSegments.eq_def]
    simp only [hkind]
    cases s.kind with
    | percent => rfl
    | newline => rfl
    | _ => cases args <;> rfl

/-- Parts after one another, each with the arguments that it takes. -/
theorem formatSegments_flatMap_cut (parts : List FormatPart) (args : List Value) :
    formatSegments (parts.flatMap FormatPart.cut) args =
      List.flatten <$> (FormatPart.shares parts args).mapM fun p => p.1.result p.2 := by
  induction parts generalizing args with
  | nil => rfl
  | cons part parts ih =>
    rw [List.flatMap_cons, formatSegments_part, ih, FormatPart.shares, List.mapM_cons]
    cases part.result (args.take part.arity) with
    | error fault => rfl
    | ok own =>
      cases (FormatPart.shares parts (args.drop part.arity)).mapM fun p => p.1.result p.2 <;> rfl

/-- A part by itself comes to its result. -/
theorem format_text (part : FormatPart) (args : List Value) :
    format part.text args = part.result args := by
  have hcut := FormatPart.segments_flatMap_text [part]
  have hparts := formatSegments_flatMap_cut [part] args
  rw [List.flatMap_singleton] at hcut
  rw [format, hcut, hparts, FormatPart.shares, FormatPart.shares, List.mapM_cons, List.mapM_nil,
    FormatPart.result_take]
  cases part.result args with
  | error fault => rfl
  | ok own => exact congrArg Except.ok (List.append_nil own)

/-- **Formatting is formatting part by part.**  A format string of texts without percent signs and complete
conversions comes to the results of its parts one after another, each with the arguments that it takes from
left to right; and if a part fails, to the failure of the first that does.  A text comes to itself, `%%` to
a percent sign and `%n` to a newline without an argument, and every other conversion to the field of its
one argument, or without one to a failure that names it. -/
theorem format_parts (parts : List FormatPart) (args : List Value) :
    (format (parts.flatMap FormatPart.text) args =
      List.flatten <$> (FormatPart.shares parts args).mapM fun p => format p.1.text p.2) ∧
    ∀ (part : FormatPart) (own : List Value), format part.text own = part.result own := by
  refine ⟨?_, format_text⟩
  rw [format, FormatPart.segments_flatMap_text, formatSegments_flatMap_cut]
  simp only [format_text]

example : (format (.ofString "[%4d]%%|%-3s|") [.int 42, .str (.ofString "a"), .int 7]).toOption =
    some (.ofString "[  42]%|a  |") := by decide +kernel

end Coach.Program
