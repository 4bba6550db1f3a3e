import Coach.Proofs.Json.Fuel
import Mathlib.Data.List.TakeWhile

/-!
# Where the reader comes to its limits

The reader refuses a text for its form, or because it comes to an integer of too many digits or to an array
or object too deep inside others.  The second kind of refusal depends on what stands at one place, to which
everything before it lets the reader come; what stands behind that place does not count.

## Main definitions

* `Reaches`: the values to which the reader comes
* `AtLimit`: a value that is past a limit
* `Exceeds`, `PastLimits`: a text in which the reader comes to such a value

## Main statements

* `readScalar_eq_error_iff`: integers of too many digits
* `valueAt_eq_error_iff`: values inside a text
* `read_tooManyDigits_iff`, `read_tooDeep_iff`: whole texts
-/

namespace Coach.Json

open Coach.Text

/-! ### Places in a text -/

/-- What the reader goes on with. -/
inductive Stage where
  | value
  | items
  | members

/-- With so many levels left, the reader comes from a stage at a text to the value at a place, with so many
levels left there. -/
inductive Reaches : Stage → Nat → List Char → Nat → List Char → Prop
  | here {depth : Nat} {text : List Char} : Reaches .value depth text depth text
  | array {depth left : Nat} {inside place : List Char} (hopen : (skipBlanks inside).head? ≠ some ']')
    (h : Reaches .items depth (skipBlanks inside) left place) :
    Reaches .value (depth + 1) ('[' :: inside) left place
  | object {depth left : Nat} {inside place : List Char} (hopen : (skipBlanks inside).head? ≠ some '\x7d')
    (h : Reaches .members depth (skipBlanks inside) left place) :
    Reaches .value (depth + 1) ('\x7b' :: inside) left place
  | item {depth left : Nat} {text place : List Char} (h : Reaches .value depth text left place) :
    Reaches .items depth text left place
  | nextItem {depth left : Nat} {text rest tail place : List Char} {item : Json}
    (hitem : valueAt depth text = .ok (item, rest)) (hcomma : skipBlanks rest = ',' :: tail)
    (h : Reaches .items depth (skipBlanks tail) left place) : Reaches .items depth text left place
  | member {depth left : Nat} {text inside place : List Char} {name : String}
    (hname : nameAt text = .ok (name, inside)) (h : Reaches .value depth inside left place) :
    Reaches .members depth text left place
  | nextMember {depth left : Nat} {text inside rest tail place : List Char} {name : String} {value : Json}
    (hname : nameAt text = .ok (name, inside)) (hvalue : valueAt depth inside = .ok (value, rest))
    (hcomma : skipBlanks rest = ',' :: tail) (h : Reaches .members depth (skipBlanks tail) left place) :
    Reaches .members depth text left place

/-- Nothing goes on an integer: no digit, no places and no exponent. -/
structure EndsInteger (rest : List Char) : Prop where
  no_digit : ∀ c ∈ rest.head?, c.isDigit = false
  no_places : (fractionPart rest).1 = []
  no_exponent : (exponentPart rest).1 = []

/-- The value at a place is past a limit, which a fault names. -/
inductive AtLimit : ReadFault → Nat → List Char → Prop
  | tooDeep {c : Char} {inside : List Char} (hc : c = '[' ∨ c = '\x7b') : AtLimit .tooDeep 0 (c :: inside)
  | tooManyDigits {depth : Nat} {sign digits rest : List Char} (hsign : sign = [] ∨ sign = ['-'])
    (hdigits : ∀ c ∈ digits, c.isDigit = true) (hzero : digits.head? ≠ some '0') (hend : EndsInteger rest)
    (hlimit : digitLimit < digits.length) :
    AtLimit (.tooManyDigits digits.length) depth (sign ++ (digits ++ rest))

/-- The reader comes from a stage to a value that is past a limit. -/
def Meets (fault : ReadFault) (stage : Stage) (depth : Nat) (text : List Char) : Prop :=
  ∃ left place, Reaches stage depth text left place ∧ AtLimit fault left place

/-- The reader comes to a value that is past a limit. -/
def Exceeds (text : List Char) (fault : ReadFault) : Prop :=
  Meets fault .value nestingLimit (skipBlanks text)

/-- The reader comes to an integer of too many digits or to a value nested too deep. -/
def PastLimits (text : List Char) : Prop := ∃ fault, Exceeds text fault

/-! ### Faults of form -/

/-- The fault is one of form, and not one of a limit. -/
def ReadFault.IsOfForm (fault : ReadFault) : Prop := ∃ cause left, fault = .syntaxError cause left

section Form

variable {fault : ReadFault} {text : List Char}

theorem isOfForm_of_readString {start fuel : Nat} {done : List Char}
    (h : readString start fuel done text = .error fault) : fault.IsOfForm := by
  fun_induction readString start fuel done text with
  | case3 => cases h
  | case5 _ _ _ _ _ _ _ ih => exact ih h
  | case9 _ _ _ _ _ _ _ _ _ _ _ _ _ _ _ _ ih => exact ih h
  | case10 _ _ _ _ _ _ _ _ _ _ _ _ _ ih => exact ih h
  | case11 _ _ _ _ _ _ _ _ _ _ _ _ _ ih => exact ih h
  | case12 _ _ _ _ _ _ _ _ _ _ _ _ _ ih => exact ih h
  | case13 _ _ _ _ _ _ _ _ _ _ _ ih => exact ih h
  | _ => exact ⟨_, _, (Except.error.inj h).symm⟩

theorem isOfForm_of_nameAt (h : nameAt text = .error fault) : fault.IsOfForm := by
  unfold nameAt at h
  split at h
  · rcases bind_eq_error_iff.mp h with hstring | ⟨p, -, h⟩
    · exact isOfForm_of_readString hstring
    · split at h
      · cases h
      · exact ⟨_, _, (Except.error.inj h).symm⟩
  · exact ⟨_, _, (Except.error.inj h).symm⟩

end Form

/-! ### Integers -/

section Integers

variable {sign more : List Char} {first : Char} {fault : ReadFault}

theorem fractionPart_snd (h : (fractionPart more).1 = []) : (fractionPart more).2 = more := by
  unfold fractionPart at h ⊢
  split at h
  · dsimp only at h ⊢
    split at h
    · next hempty => rw [if_pos hempty]
    · cases h
  · rfl

/-- A run of digits ends an integer if it has no places and no exponent. -/
theorem endsInteger_iff : EndsInteger (more.dropWhile Char.isDigit) ↔
    (fractionPart (more.dropWhile Char.isDigit)).1 = [] ∧
      (exponentPart (fractionPart (more.dropWhile Char.isDigit)).2).1 = [] := by
  constructor
  · intro h
    rw [fractionPart_snd h.no_places]
    exact ⟨h.no_places, h.no_exponent⟩
  · rintro ⟨hplaces, hexponent⟩
    rw [fractionPart_snd hplaces] at hexponent
    refine ⟨fun c hc => ?_, hplaces, hexponent⟩
    have hnot := List.head?_dropWhile_not Char.isDigit more
    rwa [hc] at hnot

/-- An integer of too many digits, where its first digit stands. -/
theorem readNumber_eq_error_iff (hsign : sign = [] ∨ sign = ['-']) (hfirst : first.isDigit = true) :
    readNumber (sign ++ first :: more) = .error fault ↔
      fault = .tooManyDigits (first :: more.takeWhile Char.isDigit).length ∧ first ≠ '0' ∧
        EndsInteger (more.dropWhile Char.isDigit) ∧
        digitLimit < (first :: more.takeWhile Char.isDigit).length := by
  rw [readNumber_digit hsign hfirst, endsInteger_iff]
  by_cases hzero : first = '0'
  · refine iff_of_false (fun h => ?_) fun h => h.2.1 hzero
    simp only [if_pos hzero] at h
    split at h
    · split at h
      · next hlong => exact absurd hlong (by decide)
      · cases h
    · cases h
  · simp only [if_neg hzero, Bool.and_eq_true, List.isEmpty_iff]
    constructor
    · intro h
      split at h
      · next hends =>
        split at h
        · next hlong => exact ⟨(Except.error.inj h).symm, hzero, hends, hlong⟩
        · cases h
      · cases h
    · rintro ⟨rfl, -, hends, hlong⟩
      rw [if_pos hends, if_pos hlong]

/-- A name or a number is refused for a limit exactly if it is an integer of too many digits. -/
theorem readScalar_eq_error_iff {depth : Nat} {c : Char} {inside : List Char}
    (hc : c ≠ '"' ∧ c ≠ '[' ∧ c ≠ '\x7b') (hfault : ¬ fault.IsOfForm) :
    readScalar (c :: inside) = .error fault ↔ AtLimit fault depth (c :: inside) := by
  constructor
  · intro h
    rcases readScalar_ok_or_eq (c :: inside) with ⟨j, rest, heq, -⟩ | heq
    · rw [heq] at h
      cases h
    rw [heq] at h
    rcases exists_digit_or_readNumber_eq (c :: inside) with ⟨sign, first, more, hsign, hfirst, htext⟩ | hstop
    · rw [htext] at h ⊢
      obtain ⟨rfl, hzero, hend, hlimit⟩ := (readNumber_eq_error_iff hsign hfirst).mp h
      have hmore : first :: more =
          (first :: more.takeWhile Char.isDigit) ++ more.dropWhile Char.isDigit := by
        rw [List.cons_append, List.takeWhile_append_dropWhile]
      rw [hmore]
      refine .tooManyDigits hsign (List.forall_mem_cons.mpr ⟨hfirst, fun d hd => ?_⟩)
        (fun hhead => hzero (Option.some.inj hhead)) hend hlimit
      exact List.mem_takeWhile_imp hd
    · rw [hstop] at h
      exact absurd ⟨_, _, (Except.error.inj h).symm⟩ hfault
  · intro h
    generalize htext : c :: inside = text at h ⊢
    cases h with
    | tooDeep hbracket =>
      obtain ⟨rfl, -⟩ := List.cons.inj htext
      exact absurd hbracket (not_or.mpr hc.2)
    | @tooManyDigits _ sign digits rest hsign hdigits hzero hend hlimit =>
      cases digits with
      | nil => exact absurd hlimit (Nat.not_lt_zero _)
      | cons first digits =>
        obtain ⟨hfirst, hdigits⟩ := List.forall_mem_cons.mp hdigits
        have hstops := takeWhile_run hdigits hend.no_digit
        rw [List.cons_append, readScalar_digit hsign hfirst, readNumber_eq_error_iff hsign hfirst, hstops.1,
          hstops.2]
        exact ⟨rfl, fun heq => hzero (congrArg some heq), hend, hlimit⟩

end Integers

/-! ### Values -/

/-- How a value past a limit begins. -/
theorem AtLimit.exists_cons {fault : ReadFault} {depth : Nat} {text : List Char}
    (h : AtLimit fault depth text) : ∃ c inside, text = c :: inside ∧
      (((c = '[' ∨ c = '\x7b') ∧ fault = .tooDeep ∧ depth = 0) ∨
        (¬ (c = '[' ∨ c = '\x7b') ∧ c ≠ '"' ∧ c ≠ '\ufeff')) := by
  cases h with
  | tooDeep hc => exact ⟨_, _, rfl, Or.inl ⟨hc, rfl, rfl⟩⟩
  | @tooManyDigits _ sign digits rest hsign hdigits hzero hend hlimit =>
    cases digits with
    | nil => exact absurd hlimit (Nat.not_lt_zero _)
    | cons first digits =>
      have hfirst := hdigits first List.mem_cons_self
      rcases hsign with rfl | rfl
      · refine ⟨first, digits ++ rest, rfl, Or.inr ⟨?_, ?_, ?_⟩⟩
        · rintro (rfl | rfl) <;> cases hfirst
        · rintro rfl
          cases hfirst
        · rintro rfl
          cases hfirst
      · exact ⟨'-', first :: digits ++ rest, rfl, Or.inr (by decide)⟩

section Values

variable {fault : ReadFault} {depth : Nat} {c : Char} {inside text : List Char}

theorem not_meets_nil : ¬ Meets fault .value depth [] := by
  rintro ⟨left, place, ⟨⟩, hlimit⟩
  obtain ⟨c, inside, ⟨⟩, -⟩ := hlimit.exists_cons

theorem not_meets_mark : ¬ Meets fault .value depth ('"' :: inside) := by
  rintro ⟨left, place, ⟨⟩, hlimit⟩
  obtain ⟨_, _, ⟨⟩, (⟨(⟨⟨⟩⟩ | ⟨⟨⟩⟩), -⟩ | hne)⟩ := hlimit.exists_cons
  exact hne.2.1 rfl

/-- No level is left for an array or an object. -/
theorem meets_deep_iff (hc : c = '[' ∨ c = '\x7b') : Meets fault .value 0 (c :: inside) ↔ fault = .tooDeep := by
  constructor
  · rintro ⟨left, place, ⟨⟩, hlimit⟩
    obtain ⟨_, _, ⟨⟩, (⟨-, rfl, -⟩ | hne)⟩ := hlimit.exists_cons
    · rfl
    · exact absurd hc hne.1
  · rintro rfl
    exact ⟨0, _, .here, .tooDeep hc⟩

/-- With a level left, an array or an object is past no limit itself. -/
theorem not_atLimit_succ (hc : c = '[' ∨ c = '\x7b') : ¬ AtLimit fault (depth + 1) (c :: inside) := by
  intro hlimit
  obtain ⟨_, _, ⟨⟩, (⟨-, -, ⟨⟩⟩ | hne)⟩ := hlimit.exists_cons
  exact absurd hc hne.1

theorem meets_array_iff : Meets fault .value (depth + 1) ('[' :: inside) ↔
    (skipBlanks inside).head? ≠ some ']' ∧ Meets fault .items depth (skipBlanks inside) := by
  constructor
  · rintro ⟨left, place, hreach, hlimit⟩
    cases hreach with
    | here => exact absurd hlimit (not_atLimit_succ (.inl rfl))
    | array hopen hreach => exact ⟨hopen, left, place, hreach, hlimit⟩
  · rintro ⟨hopen, left, place, hreach, hlimit⟩
    exact ⟨left, place, .array hopen hreach, hlimit⟩

theorem meets_object_iff : Meets fault .value (depth + 1) ('\x7b' :: inside) ↔
    (skipBlanks inside).head? ≠ some '\x7d' ∧ Meets fault .members depth (skipBlanks inside) := by
  constructor
  · rintro ⟨left, place, hreach, hlimit⟩
    cases hreach with
    | here => exact absurd hlimit (not_atLimit_succ (.inr rfl))
    | object hopen hreach => exact ⟨hopen, left, place, hreach, hlimit⟩
  · rintro ⟨hopen, left, place, hreach, hlimit⟩
    exact ⟨left, place, .object hopen hreach, hlimit⟩

theorem meets_scalar_iff (hc : c ≠ '"' ∧ c ≠ '[' ∧ c ≠ '\x7b') :
    Meets fault .value depth (c :: inside) ↔ AtLimit fault depth (c :: inside) := by
  constructor
  · rintro ⟨left, place, hreach, hlimit⟩
    cases hreach with
    | here => exact hlimit
    | array => exact absurd rfl hc.2.1
    | object => exact absurd rfl hc.2.2
  · exact fun hlimit => ⟨depth, _, .here, hlimit⟩

theorem meets_items_iff : Meets fault .items depth text ↔ Meets fault .value depth text ∨
    ∃ p, valueAt depth text = .ok p ∧
      ∃ tail, skipBlanks p.2 = ',' :: tail ∧ Meets fault .items depth (skipBlanks tail) := by
  constructor
  · rintro ⟨left, place, hreach, hlimit⟩
    cases hreach with
    | item hreach => exact Or.inl ⟨left, place, hreach, hlimit⟩
    | nextItem hitem hcomma hreach => exact Or.inr ⟨_, hitem, _, hcomma, left, place, hreach, hlimit⟩
  · rintro (⟨left, place, hreach, hlimit⟩ | ⟨p, hitem, tail, hcomma, left, place, hreach, hlimit⟩)
    · exact ⟨left, place, .item hreach, hlimit⟩
    · exact ⟨left, place, .nextItem hitem hcomma hreach, hlimit⟩

theorem meets_members_iff : Meets fault .members depth text ↔
    ∃ n, nameAt text = .ok n ∧ (Meets fault .value depth n.2 ∨ ∃ p, valueAt depth n.2 = .ok p ∧
      ∃ tail, skipBlanks p.2 = ',' :: tail ∧ Meets fault .members depth (skipBlanks tail)) := by
  constructor
  · rintro ⟨left, place, hreach, hlimit⟩
    cases hreach with
    | member hname hreach => exact ⟨_, hname, Or.inl ⟨left, place, hreach, hlimit⟩⟩
    | nextMember hname hvalue hcomma hreach =>
      exact ⟨_, hname, Or.inr ⟨_, hvalue, _, hcomma, left, place, hreach, hlimit⟩⟩
  · rintro ⟨n, hname, ⟨left, place, hreach, hlimit⟩ | ⟨p, hvalue, tail, hcomma, left, place, hreach, hlimit⟩⟩
    · exact ⟨left, place, .member hname hreach, hlimit⟩
    · exact ⟨left, place, .nextMember hname hvalue hcomma hreach, hlimit⟩

end Values

/-! ### Refused values -/

section Refused

variable {fault : ReadFault} {close : Char} {j : Json} {text : List Char}
  {next : List Char → Except ReadFault (Json × List Char)}

theorem afterOpening_eq_error_iff : afterOpening close j next text = .error fault ↔
    (skipBlanks text).head? ≠ some close ∧ next (skipBlanks text) = .error fault := by
  unfold afterOpening
  split
  · next hclose => exact iff_of_false nofun fun h => h.1 hclose
  · next hopen => exact (and_iff_right hopen).symm

theorem afterItem_eq_error_iff (hclose : close ≠ ',') (hfault : ¬ fault.IsOfForm) :
    afterItem close j next text = .error fault ↔
      ∃ tail, skipBlanks text = ',' :: tail ∧ next (skipBlanks tail) = .error fault := by
  unfold afterItem
  split
  · next hhead =>
    refine iff_of_false nofun ?_
    rintro ⟨tail, heq, -⟩
    rw [heq] at hhead
    exact hclose (Option.some.inj hhead).symm
  · split
    · next hhead =>
      obtain ⟨tail, heq⟩ := List.head?_eq_some_iff.mp hhead
      rw [heq]
      constructor
      · exact fun h => ⟨tail, rfl, h⟩
      · rintro ⟨_, ⟨⟩, h⟩
        exact h
    · next hhead =>
      refine iff_of_false (fun h => hfault ⟨_, _, (Except.error.inj h).symm⟩) ?_
      rintro ⟨tail, heq, -⟩
      exact hhead (heq ▸ rfl)

/-- Behind a value and its comma, less is left than before it. -/
theorem length_lt_of_comma {depth : Nat} {text tail : List Char} {p : Json × List Char}
    (hread : valueAt depth text = .ok p) (hcomma : skipBlanks p.2 = ',' :: tail) :
    (skipBlanks tail).length < text.length := by
  have hrest := length_le_of_read hread
  have hblanks := (suffix_skipBlanks p.2).length_le
  have htail := (suffix_skipBlanks tail).length_le
  rw [hcomma, List.length_cons] at hblanks
  omega

/-- A value is refused for a limit exactly if the reader comes to a value past it. -/
theorem readAt_eq_error_iff (hfault : ¬ fault.IsOfForm) (n : Nat) :
    (∀ depth text, 2 * text.length + 1 ≤ n →
      (valueAt depth text = .error fault ↔ Meets fault .value depth text)) ∧
    (∀ depth done text, 2 * text.length + 2 ≤ n →
      (itemsAt depth done text = .error fault ↔ Meets fault .items depth text)) ∧
    (∀ depth done text, 2 * text.length + 2 ≤ n →
      (membersAt depth done text = .error fault ↔ Meets fault .members depth text)) := by
  induction n with
  | zero => exact ⟨fun _ _ h => by omega, fun _ _ _ h => by omega, fun _ _ _ h => by omega⟩
  | succ n ih =>
    obtain ⟨ihValue, ihItems, ihMembers⟩ := ih
    refine ⟨?value, ?items, ?members⟩
    case value =>
      intro depth text h
      cases text with
      | nil => exact iff_of_false (fun herror => hfault ⟨_, _, (Except.error.inj herror).symm⟩) not_meets_nil
      | cons c inside =>
        rw [List.length_cons] at h
        have hblanks := (suffix_skipBlanks inside).length_le
        rcases first_cases c with rfl | hc | hc
        · refine iff_of_false (fun herror => ?_) not_meets_mark
          rw [valueAt, readValue_mark] at herror
          rcases bind_eq_error_iff.mp herror with hstring | ⟨_, -, ⟨⟩⟩
          exact hfault (isOfForm_of_readString hstring)
        · cases depth with
          | zero =>
            rw [valueAt, readValue_deep _ inside hc, meets_deep_iff hc, Except.error.injEq]
            exact eq_comm
          | succ depth =>
            rcases hc with rfl | rfl
            · rw [valueAt_array, afterOpening_eq_error_iff, ihItems depth [] _ (by omega), meets_array_iff]
            · rw [valueAt_object, afterOpening_eq_error_iff, ihMembers depth [] _ (by omega),
                meets_object_iff]
        · rw [valueAt, readValue_scalar hc.1 hc.2.1 hc.2.2, meets_scalar_iff hc,
            readScalar_eq_error_iff hc hfault]
    case items =>
      intro depth done text h
      rw [itemsAt_eq, bind_eq_error_iff, ihValue depth text (by omega), meets_items_iff]
      refine or_congr_right (exists_congr fun p => and_congr_right fun hitem => ?_)
      rw [afterItem_eq_error_iff (by decide) hfault]
      refine exists_congr fun tail => and_congr_right fun hcomma => ?_
      have hlength := length_lt_of_comma hitem hcomma
      exact ihItems depth _ _ (by omega)
    case members =>
      intro depth done text h
      have hform : ¬ nameAt text = .error fault := fun hname => hfault (isOfForm_of_nameAt hname)
      rw [membersAt_eq, bind_eq_error_iff, or_iff_right hform, meets_members_iff]
      refine exists_congr fun n => and_congr_right fun hname => ?_
      have hinside := length_le_of_nameAt hname
      rw [bind_eq_error_iff, ihValue depth n.2 (by omega)]
      refine or_congr_right (exists_congr fun p => and_congr_right fun hvalue => ?_)
      rw [afterItem_eq_error_iff (by decide) hfault]
      refine exists_congr fun tail => and_congr_right fun hcomma => ?_
      have hlength := length_lt_of_comma hvalue hcomma
      exact ihMembers depth _ _ (by omega)

theorem valueAt_eq_error_iff {depth : Nat} (hfault : ¬ fault.IsOfForm) :
    valueAt depth text = .error fault ↔ Meets fault .value depth text :=
  (readAt_eq_error_iff hfault (2 * text.length + 1)).1 depth text (Nat.le_refl _)

end Refused

/-! ### Whole texts -/

section Whole

variable {text : List Char}

/-- What begins with a byte order mark is refused for it. -/
theorem not_exceeds_of_mark {fault : ReadFault} (rest : List Char) : ¬ Exceeds ('\ufeff' :: rest) fault := by
  rintro ⟨left, place, hreach, hlimit⟩
  have hblanks : skipBlanks ('\ufeff' :: rest) = '\ufeff' :: rest := rfl
  rw [hblanks] at hreach
  cases hreach
  obtain ⟨_, _, ⟨⟩, (⟨(⟨⟨⟩⟩ | ⟨⟨⟩⟩), -⟩ | hne)⟩ := hlimit.exists_cons
  exact hne.2.2 rfl

/-- A whole text is refused for a limit exactly if the reader comes to a value past it. -/
theorem readStart_eq_error_iff {fault : ReadFault} (hfault : ¬ fault.IsOfForm) :
    readStart text = .error fault ↔ Exceeds text fault := by
  by_cases hmark : text.head? = some '\ufeff'
  · obtain ⟨rest, rfl⟩ := List.head?_eq_some_iff.mp hmark
    exact iff_of_false (fun herror => hfault ⟨_, _, (Except.error.inj herror).symm⟩) (not_exceeds_of_mark rest)
  · rw [readStart_eq text hmark, valueAt_eq_error_iff hfault]
    rfl

/-- The fault says where the form of the text is broken. -/
def Fault.IsOfForm (fault : Fault) : Prop :=
  ∃ cause line column offset, fault = .syntaxError cause line column offset

/-- What is refused, but not for its form, is refused before a whole value is read. -/
theorem exists_readStart_of_read {fault : Fault} (h : Json.read text = .error fault)
    (hform : ¬ fault.IsOfForm) :
    ∃ f, readStart text = .error f ∧ f.locate text = fault ∧ ¬ f.IsOfForm := by
  unfold Json.read at h
  split at h
  · next f hstart =>
    refine ⟨f, hstart, Except.error.inj h, ?_⟩
    rintro ⟨cause, left, rfl⟩
    exact hform ⟨_, _, _, _, (Except.error.inj h).symm⟩
  · split at h
    · cases h
    · exact absurd ⟨_, _, _, _, (Except.error.inj h).symm⟩ hform

theorem read_of_readStart {f : ReadFault} (h : readStart text = .error f) :
    Json.read text = .error (f.locate text) := by
  rw [Json.read, h]

/-- **A text is refused for an integer exactly if the reader comes to one of so many digits.** -/
theorem read_tooManyDigits_iff {count : Nat} :
    Json.read text = .error (.tooManyDigits count) ↔ Exceeds text (.tooManyDigits count) := by
  rw [← readStart_eq_error_iff (by rintro ⟨_, _, ⟨⟩⟩)]
  constructor
  · intro h
    obtain ⟨f, hstart, hlocate, -⟩ := exists_readStart_of_read h (by rintro ⟨_, _, _, _, ⟨⟩⟩)
    cases f with
    | tooManyDigits => exact hstart.trans (congrArg _ (by cases hlocate; rfl))
    | _ => cases hlocate
  · exact read_of_readStart

/-- **A text is refused for its depth exactly if the reader comes to a value nested too deep.** -/
theorem read_tooDeep_iff : Json.read text = .error .tooDeep ↔ Exceeds text .tooDeep := by
  rw [← readStart_eq_error_iff (by rintro ⟨_, _, ⟨⟩⟩)]
  constructor
  · intro h
    obtain ⟨f, hstart, hlocate, -⟩ := exists_readStart_of_read h (by rintro ⟨_, _, _, _, ⟨⟩⟩)
    cases f with
    | tooDeep => exact hstart
    | _ => cases hlocate
  · exact read_of_readStart

/-- A text within the limits is read, or refused for its form. -/
theorem read_of_not_pastLimits (h : ¬ PastLimits text) :
    (∃ j, Json.read text = .ok j) ∨ ∃ fault : Fault, fault.IsOfForm ∧ Json.read text = .error fault := by
  cases hread : Json.read text with
  | ok j => exact Or.inl ⟨j, rfl⟩
  | error fault =>
    refine Or.inr ⟨fault, ?_, rfl⟩
    cases fault with
    | syntaxError => exact ⟨_, _, _, _, rfl⟩
    | tooManyDigits => exact absurd ⟨_, read_tooManyDigits_iff.mp hread⟩ h
    | tooDeep => exact absurd ⟨_, read_tooDeep_iff.mp hread⟩ h

/-- A text past the limits is refused, and not for its form. -/
theorem read_of_pastLimits (h : PastLimits text) :
    (∃ count, Json.read text = .error (.tooManyDigits count)) ∨ Json.read text = .error .tooDeep := by
  obtain ⟨fault, hexceeds⟩ := h
  cases fault with
  | syntaxError cause left =>
    obtain ⟨_, _, -, hlimit⟩ := hexceeds
    cases hlimit
  | tooManyDigits count => exact Or.inl ⟨count, read_tooManyDigits_iff.mpr hexceeds⟩
  | tooDeep => exact Or.inr (read_tooDeep_iff.mpr hexceeds)

/-- An integer of too many digits by itself. -/
theorem exceeds_ones {count : Nat} (h : digitLimit < count) :
    Exceeds (List.replicate count '1') (.tooManyDigits count) := by
  obtain ⟨n, rfl⟩ : ∃ n, count = n + 1 := ⟨count - 1, by omega⟩
  have hlimit : AtLimit (.tooManyDigits (List.replicate (n + 1) '1').length) nestingLimit
      ([] ++ (List.replicate (n + 1) '1' ++ [])) :=
    .tooManyDigits (.inl rfl) (fun c hc => List.eq_of_mem_replicate hc ▸ rfl)
      (by rw [List.replicate_succ, List.head?_cons]; decide) ⟨nofun, rfl, rfl⟩ (by rwa [List.length_replicate])
  have hblanks : skipBlanks (List.replicate (n + 1) '1') = List.replicate (n + 1) '1' := rfl
  rw [List.length_replicate, List.nil_append, List.append_nil] at hlimit
  exact ⟨nestingLimit, _, hblanks ▸ .here, hlimit⟩

end Whole

end Coach.Json
