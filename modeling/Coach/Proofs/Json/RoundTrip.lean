import Coach.Proofs.Json.Fuel
import Coach.Proofs.Json.Strings

/-!
# What is written as JSON is read back

Values without doubles are read back from their text in every layout, as long as no integer has more
digits than the reader takes, no object has a name twice, and nothing is nested deeper than the reader
goes.

## Main definitions

* `Plain`: a value with these properties, for some depth of nesting
* `Style.Blank`: a layout that puts only white space between the tokens

## Main statements

* `readNumber_intText`: integers
* `Plain.reads`: a value inside a longer text
* `read_write`: a value by itself

## Design notes

The reader has fuel.  What it needs for a value is bounded by the length of that value's own text, so
that the bounds of nested values add up as their texts do (`Reads`).
-/

namespace Coach.Json

open Coach.Text

/-! ### Layouts -/

/-- A layout that puts only white space between the tokens. -/
structure Style.Blank (s : Style) : Prop where
  afterComma : ∀ c ∈ s.afterComma, isBlank c = true
  afterColon : ∀ c ∈ s.afterColon, isBlank c = true

theorem blank_lineStyle : lineStyle.Blank := ⟨by decide, by decide⟩

theorem blank_compactStyle : compactStyle.Blank := ⟨by decide, by decide⟩

theorem blank_indentedStyle : indentedStyle.Blank := ⟨by decide, by decide⟩

theorem isBlank_of_mem_breakLine {s : Style} {level : Nat} {c : Char} (h : c ∈ s.breakLine level) :
    isBlank c = true := by
  unfold Style.breakLine at h
  split at h
  · cases h
  · rcases List.mem_cons.mp h with rfl | h
    · rfl
    · rw [List.eq_of_mem_replicate h]
      rfl

theorem skipBlanks_append {gap : List Char} (h : ∀ c ∈ gap, isBlank c = true) {c : Char}
    (hc : isBlank c = false) (rest : List Char) : skipBlanks (gap ++ c :: rest) = c :: rest := by
  rw [skipBlanks, List.dropWhile_append_of_pos h, List.dropWhile_cons_of_neg (by rw [hc]; nofun)]

theorem skipBlanks_cons {c : Char} (hc : isBlank c = false) (rest : List Char) :
    skipBlanks (c :: rest) = c :: rest :=
  @skipBlanks_append [] nofun c hc rest

/-! ### Values inside a text -/

/-- What may stand behind a value: white space, a comma, a closing bracket, or nothing. -/
def Stops (rest : List Char) : Prop :=
  ∀ c, rest.head? = some c → isBlank c = true ∨ c = ',' ∨ c = ']' ∨ c = '\x7d'

theorem stops_nil : Stops [] := nofun

theorem stops_cons {c : Char} (h : isBlank c = true ∨ c = ',' ∨ c = ']' ∨ c = '\x7d')
    (rest : List Char) : Stops (c :: rest) := fun _ hhead => Option.some.inj hhead ▸ h

theorem stops_append {gap rest : List Char} (hgap : ∀ c ∈ gap, isBlank c = true) (h : Stops rest) :
    Stops (gap ++ rest) := by
  cases gap with
  | nil => exact h
  | cons c gap => exact stops_cons (.inl (hgap c List.mem_cons_self)) _

/-- Nothing behind a value goes on a number. -/
theorem Stops.head {c : Char} {rest : List Char} (h : Stops (c :: rest)) :
    c.isDigit = false ∧ c ≠ '.' ∧ c ≠ 'e' ∧ c ≠ 'E' := by
  rcases h c rfl with hblank | rfl | rfl | rfl
  · simp only [isBlank, Bool.or_eq_true, beq_iff_eq] at hblank
    rcases hblank with ((rfl | rfl) | rfl) | rfl <;> decide
  all_goals decide

/-- How the text of a value begins. -/
structure Opens (c : Char) : Prop where
  isBlank_eq : isBlank c = false
  ne_bracket : c ≠ ']'
  ne_brace : c ≠ '\x7d'
  ne_mark : c ≠ '\ufeff'

/-- A value is read back from its text, wherever that stands, with fuel for the length of the text. -/
def Reads (s : Style) (depth : Nat) (j : Json) : Prop :=
  ∀ level fuel rest, 2 * (writeAt s level j).length ≤ fuel → Stops rest →
    readValue fuel depth (writeAt s level j ++ rest) = .ok (j, rest)

/-- The values that are read back from their texts. -/
inductive Plain : Nat → Json → Prop
  | null (depth : Nat) : Plain depth .null
  | bool (depth : Nat) (b : Bool) : Plain depth (.bool b)
  | int (depth : Nat) (n : Int) (h : (natDigits n.natAbs).length ≤ digitLimit) :
    Plain depth (.number (.int n))
  | string (depth : Nat) (text : String) : Plain depth (.string text)
  | array (depth : Nat) (items : List Json) (h : ∀ j ∈ items, Plain depth j) :
    Plain (depth + 1) (.array items)
  | object (depth : Nat) (members : List (String × Json)) (hnames : (members.map (·.1)).Nodup)
    (h : ∀ m ∈ members, Plain depth m.2) : Plain (depth + 1) (.object members)

/-! ### Numbers -/

section Numbers

variable {rest : List Char}

theorem Stops.not_isDigit {rest : List Char} (h : Stops rest) : ∀ c ∈ rest.head?, c.isDigit = false := by
  intro c hc
  obtain ⟨tail, rfl⟩ := List.head?_eq_some_iff.mp hc
  exact h.head.1

theorem fractionPart_of_stops (h : Stops rest) : fractionPart rest = ([], rest) := by
  cases rest with
  | nil => rfl
  | cons c rest =>
    have hc := h.head.2.1
    unfold fractionPart
    split
    · next heq => exact absurd (List.cons.inj heq).1 hc
    · rfl

theorem exponentPart_of_stops (h : Stops rest) : exponentPart rest = ([], rest) := by
  cases rest with
  | nil => rfl
  | cons c rest =>
    obtain ⟨-, -, hc, hC⟩ := h.head
    simp only [exponentPart, hc, hC, decide_false, Bool.or_self, Bool.false_eq_true, if_false]

/-- The digits of an integer behind its sign. -/
theorem readNumber_signed {n : Nat} (sign : List Char) (hsign : sign = [] ∨ sign = ['-'])
    (hlimit : (natDigits n).length ≤ digitLimit) (h : Stops rest) :
    readNumber (sign ++ (natDigits n ++ rest)) =
      .ok (.int (if sign.isEmpty then (n : Int) else -n), rest) := by
  obtain ⟨first, more, hdigits⟩ := List.exists_cons_of_ne_nil (natDigits_ne_nil n)
  have hall : ∀ c ∈ first :: more, c.isDigit = true := fun c hc =>
    isDigit_of_mem_natDigits (hdigits ▸ hc)
  have hfirst := hall first List.mem_cons_self
  obtain ⟨htake, hdrop⟩ :=
    takeWhile_run (fun c hc => hall c (List.mem_cons_of_mem first hc)) h.not_isDigit
  -- only zero itself begins with a zero
  have hwhole : (if first = '0' then (['0'], more ++ rest) else
      (first :: (more ++ rest).takeWhile Char.isDigit, (more ++ rest).dropWhile Char.isDigit)) =
        (first :: more, rest) := by
    split
    · next hzero =>
      have hmore : more = [] := eq_nil_of_natDigits_zero (hzero ▸ hdigits)
      rw [hzero, hmore, List.nil_append]
    · rw [htake, hdrop]
  have hvalue : ofNatDigits (first :: more) = n := by rw [← hdigits, ofNatDigits_natDigits]
  have hshort : ¬ digitLimit < (first :: more).length := by
    rw [← hdigits]
    exact Nat.not_lt.mpr hlimit
  rw [hdigits, List.cons_append]
  -- the sign is not taken from the digits
  have hplain : ∀ body, first :: (more ++ rest) = '-' :: body → False := fun body heq => by
    rw [(List.cons.inj heq).1] at hfirst
    cases hfirst
  rcases hsign with rfl | rfl <;>
    simp only [readNumber, List.nil_append, List.cons_append, hfirst, Bool.not_true,
      Bool.false_eq_true, if_false, hwhole, fractionPart_of_stops h, exponentPart_of_stops h,
      List.isEmpty_nil, List.isEmpty_cons, Bool.and_self, if_true, hshort, hvalue]

/-- An integer that has not too many digits. -/
theorem readNumber_intText {n : Int} (hlimit : (natDigits n.natAbs).length ≤ digitLimit)
    (h : Stops rest) : readNumber (intText n ++ rest) = .ok (.int n, rest) := by
  unfold intText
  split
  · next hneg =>
    have hvalue : -(n.natAbs : Int) = n := by omega
    have := readNumber_signed ['-'] (.inr rfl) hlimit h
    rw [List.isEmpty_cons, if_neg Bool.false_ne_true, hvalue] at this
    exact this
  · next hpos =>
    have hvalue : (n.natAbs : Int) = n := by omega
    have := readNumber_signed [] (.inl rfl) hlimit h
    rw [List.isEmpty_nil, if_pos rfl, hvalue] at this
    exact this

/-- How the text of an integer begins: with a digit, or with a minus sign and a digit. -/
theorem exists_intText (n : Int) :
    ∃ d tail, d.isDigit = true ∧ (intText n = d :: tail ∨ intText n = '-' :: d :: tail) := by
  obtain ⟨d, tail, hdigits⟩ := List.exists_cons_of_ne_nil (natDigits_ne_nil n.natAbs)
  have hd : d.isDigit = true := isDigit_of_mem_natDigits (hdigits ▸ List.mem_cons_self)
  refine ⟨d, tail, hd, ?_⟩
  unfold intText
  split
  · exact .inr (by rw [hdigits])
  · exact .inl hdigits

/-- An integer is none of the names. -/
theorem readScalar_intText (n : Int) (rest : List Char) :
    readScalar (intText n ++ rest) = readNumber (intText n ++ rest) := by
  obtain ⟨d, tail, hd, htext | htext⟩ := exists_intText n
  · rw [htext]
    exact readScalar_digit (.inl rfl) hd _
  · rw [htext]
    exact readScalar_digit (.inr rfl) hd _

end Numbers

/-! ### Values -/

section Values

variable {s : Style} {depth : Nat}

theorem opens_of_isDigit {c : Char} (h : c.isDigit = true) : Opens c where
  isBlank_eq := by
    simp only [isBlank, Bool.or_eq_false_iff, beq_eq_false_iff_ne]
    refine ⟨⟨⟨?_, ?_⟩, ?_⟩, ?_⟩ <;> (rintro rfl; cases h)
  ne_bracket := by rintro rfl; cases h
  ne_brace := by rintro rfl; cases h
  ne_mark := by rintro rfl; cases h

/-- The text of a value begins with a token. -/
theorem Plain.exists_opens {j : Json} (h : Plain depth j) (level : Nat) :
    ∃ c tail, writeAt s level j = c :: tail ∧ Opens c := by
  cases h with
  | null => exact ⟨'n', _, rfl, by decide, by decide, by decide, by decide⟩
  | bool _ b =>
    cases b
    · exact ⟨'f', _, rfl, by decide, by decide, by decide, by decide⟩
    · exact ⟨'t', _, rfl, by decide, by decide, by decide, by decide⟩
  | int _ n =>
    obtain ⟨d, tail, hd, htext⟩ := exists_intText n
    have hwrite : writeAt s level (.number (.int n)) = intText n := rfl
    rcases htext with htext | htext
    · exact ⟨d, tail, hwrite.trans htext, opens_of_isDigit hd⟩
    · exact ⟨'-', _, hwrite.trans htext, by decide, by decide, by decide, by decide⟩
  | string _ text => exact ⟨'"', _, rfl, by decide, by decide, by decide, by decide⟩
  | array _ items =>
    cases items <;> exact ⟨'[', _, rfl, by decide, by decide, by decide, by decide⟩
  | object _ members =>
    cases members <;> exact ⟨'\x7b', _, rfl, by decide, by decide, by decide, by decide⟩

theorem readValue_quote (ascii : Bool) (text : String) (fuel : Nat) (rest : List Char) :
    readValue (fuel + 1) depth (quote ascii text ++ rest) = .ok (.string text, rest) := by
  rw [quote_eq, List.cons_append, readValue.eq_def]
  dsimp only
  rw [if_pos rfl, readString_inQuotes]
  rfl

/-- Behind an opening bracket that is not closed at once. -/
theorem readValue_bracket {c : Char} (hc : Opens c) {gap : List Char}
    (hgap : ∀ x ∈ gap, isBlank x = true) (fuel : Nat) (rest : List Char) :
    readValue (fuel + 1) (depth + 1) ('[' :: (gap ++ c :: rest)) =
      readItems fuel depth [] (c :: rest) := by
  rw [readValue, if_neg (by decide), if_pos (by decide), skipBlanks_append hgap hc.isBlank_eq,
    if_pos rfl]
  split
  · next heq => exact absurd (List.cons.inj heq).1 hc.ne_bracket
  · rfl

/-- Behind an opening brace that is not closed at once. -/
theorem readValue_brace {c : Char} (hc : Opens c) {gap : List Char}
    (hgap : ∀ x ∈ gap, isBlank x = true) (fuel : Nat) (rest : List Char) :
    readValue (fuel + 1) (depth + 1) ('\x7b' :: (gap ++ c :: rest)) =
      readMembers fuel depth [] (c :: rest) := by
  rw [readValue, if_neg (by decide), if_pos (by decide), skipBlanks_append hgap hc.isBlank_eq,
    if_neg (by decide)]
  split
  · next heq => exact absurd (List.cons.inj heq).1 hc.ne_brace
  · rfl

/-- The items of an array, from one on to the closing bracket. -/
theorem readItems_written (hs : s.Blank) {item : Json} {items : List Json}
    (hplain : ∀ j ∈ item :: items, Plain depth j) (hreads : ∀ j ∈ item :: items, Reads s depth j)
    (level : Nat) {gap : List Char} (hgap : ∀ c ∈ gap, isBlank c = true) (rest : List Char)
    {fuel : Nat} (done : List Json)
    (hfuel : 2 * ((writeAt s level item).length + (writeItems s level items).length) + 1 ≤ fuel) :
    readItems fuel depth done
        (writeAt s level item ++ (writeItems s level items ++ (gap ++ ']' :: rest))) =
      .ok (.array (done.reverse ++ item :: items), rest) := by
  induction items generalizing item fuel done with
  | nil =>
    obtain ⟨fuel, rfl⟩ : ∃ k, fuel = k + 1 := ⟨fuel - 1, by omega⟩
    have hitem := hreads item List.mem_cons_self level fuel (gap ++ ']' :: rest) (by omega)
      (stops_append hgap (stops_cons (by decide) rest))
    rw [writeItems, List.nil_append, readItems, hitem]
    dsimp only [bind, Except.bind]
    rw [skipBlanks_append hgap (by decide), List.reverse_cons]
    rfl
  | cons next items ih =>
    obtain ⟨fuel, rfl⟩ : ∃ k, fuel = k + 1 := ⟨fuel - 1, by omega⟩
    have hlength : (writeItems s level (next :: items)).length =
        1 + s.afterComma.length + (s.breakLine level).length + (writeAt s level next).length +
          (writeItems s level items).length := by
      simp only [writeItems, List.length_append, List.length_cons]
      omega
    have hitem := hreads item List.mem_cons_self level fuel
      (writeItems s level (next :: items) ++ (gap ++ ']' :: rest)) (by omega)
      (by rw [writeItems]; exact stops_cons (by decide) _)
    obtain ⟨c, tail, hopen, hc⟩ :=
      (hplain next (List.mem_cons_of_mem _ List.mem_cons_self)).exists_opens level
    have hskip : skipBlanks (s.afterComma ++ (s.breakLine level ++ (writeAt s level next ++
        (writeItems s level items ++ (gap ++ ']' :: rest))))) =
        writeAt s level next ++ (writeItems s level items ++ (gap ++ ']' :: rest)) := by
      rw [hopen, ← List.append_assoc]
      refine skipBlanks_append (fun x hx => ?_) hc.isBlank_eq _
      exact (List.mem_append.mp hx).elim (hs.afterComma x) isBlank_of_mem_breakLine
    have hrest := ih (fun j hj => hplain j (List.mem_cons_of_mem _ hj))
      (fun j hj => hreads j (List.mem_cons_of_mem _ hj)) (item :: done) (by omega : _ ≤ fuel)
    rw [readItems, hitem]
    dsimp only [bind, Except.bind]
    rw [writeItems]
    simp only [List.append_assoc, List.cons_append]
    rw [skipBlanks_cons (by decide)]
    change readItems fuel depth (item :: done) (skipBlanks _) = _
    rw [hskip, hrest, List.reverse_cons, List.append_assoc, List.singleton_append]

/-- The text of a member of an object. -/
def memberText (s : Style) (level : Nat) (m : String × Json) : List Char :=
  quote s.ascii m.1 ++ (':' :: (s.afterColon ++ writeAt s level m.2))

theorem writeMembers_cons (level : Nat) (m : String × Json) (members : List (String × Json)) :
    writeMembers s level (m :: members) =
      ',' :: (s.afterComma ++ (s.breakLine level ++ (memberText s level m ++
        writeMembers s level members))) := by
  simp only [writeMembers, memberText, List.append_assoc, List.cons_append]

/-- A member of an object, up to what follows its value. -/
theorem readMembers_member (hs : s.Blank) {m : String × Json} (hplain : Plain depth m.2)
    (hreads : Reads s depth m.2) (level : Nat) {rest : List Char} (hrest : Stops rest)
    {fuel : Nat} (done : List (String × Json)) (hfuel : 2 * (writeAt s level m.2).length ≤ fuel) :
    readMembers (fuel + 1) depth done (memberText s level m ++ rest) =
      match skipBlanks rest with
      | '\x7d' :: rest => .ok (.object (putPair done m.1 m.2), rest)
      | ',' :: rest => readMembers fuel depth (putPair done m.1 m.2) (skipBlanks rest)
      | rest => stop .expectedComma rest := by
  obtain ⟨c, tail, hopen, hc⟩ := hplain.exists_opens level
  have hskip : skipBlanks (s.afterColon ++ (writeAt s level m.2 ++ rest)) =
      writeAt s level m.2 ++ rest := by
    rw [hopen]
    exact skipBlanks_append hs.afterColon hc.isBlank_eq _
  simp only [memberText, quote_eq, List.cons_append, List.append_assoc, readMembers,
    readString_inQuotes, bind, Except.bind, skipBlanks_cons (c := ':') (by decide), hskip,
    hreads level fuel rest hfuel hrest]
  rfl

theorem length_value_lt (level : Nat) (m : String × Json) :
    (writeAt s level m.2).length < (memberText s level m).length := by
  simp only [memberText, quote_eq, List.length_append, List.length_cons]
  omega

/-- A name that no member before it has is put at the end. -/
theorem putPair_of_nodup {done members : List (String × Json)} {m : String × Json}
    (h : ((done ++ m :: members).map (·.1)).Nodup) : putPair done m.1 m.2 = done ++ [m] := by
  refine putPair_of_notMem m.2 fun hmem => ?_
  rw [List.map_append] at h
  exact (List.nodup_append.mp h).2.2 m.1 hmem m.1 (by simp) rfl

/-- The members of an object, from one on to the closing brace. -/
theorem readMembers_written (hs : s.Blank) {m : String × Json} {members : List (String × Json)}
    (hplain : ∀ m' ∈ m :: members, Plain depth m'.2)
    (hreads : ∀ m' ∈ m :: members, Reads s depth m'.2) (level : Nat) {gap : List Char}
    (hgap : ∀ c ∈ gap, isBlank c = true) (rest : List Char) {fuel : Nat} (done : List (String × Json))
    (hnames : ((done ++ m :: members).map (·.1)).Nodup)
    (hfuel : 2 * ((memberText s level m).length + (writeMembers s level members).length) ≤ fuel) :
    readMembers fuel depth done
        (memberText s level m ++ (writeMembers s level members ++ (gap ++ '\x7d' :: rest))) =
      .ok (.object (done ++ m :: members), rest) := by
  induction members generalizing m fuel done with
  | nil =>
    have hvalue := length_value_lt (s := s) level m
    obtain ⟨fuel, rfl⟩ : ∃ k, fuel = k + 1 := ⟨fuel - 1, by omega⟩
    have hend : Stops (gap ++ '\x7d' :: rest) := stops_append hgap (stops_cons (by decide) rest)
    rw [writeMembers, List.nil_append, readMembers_member hs (hplain m List.mem_cons_self)
      (hreads m List.mem_cons_self) level hend done (by omega), skipBlanks_append hgap (by decide),
      putPair_of_nodup hnames]
    rfl
  | cons next members ih =>
    have hvalue := length_value_lt (s := s) level m
    obtain ⟨fuel, rfl⟩ : ∃ k, fuel = k + 1 := ⟨fuel - 1, by omega⟩
    have hlength : (memberText s level next).length + (writeMembers s level members).length <
        (writeMembers s level (next :: members)).length := by
      rw [writeMembers_cons]
      simp only [List.length_append, List.length_cons]
      omega
    have hcomma : Stops (writeMembers s level (next :: members) ++ (gap ++ '\x7d' :: rest)) := by
      rw [writeMembers_cons]
      exact stops_cons (by decide) _
    have hskip : skipBlanks (s.afterComma ++ (s.breakLine level ++ (memberText s level next ++
        (writeMembers s level members ++ (gap ++ '\x7d' :: rest))))) =
        memberText s level next ++ (writeMembers s level members ++ (gap ++ '\x7d' :: rest)) := by
      rw [memberText, quote_eq, List.cons_append, ← List.append_assoc]
      refine skipBlanks_append (fun x hx => ?_) (by decide) _
      exact (List.mem_append.mp hx).elim (hs.afterComma x) isBlank_of_mem_breakLine
    have hnames' : (((done ++ [m]) ++ next :: members).map (·.1)).Nodup := by
      rwa [List.append_assoc, List.singleton_append]
    have hrest := ih (fun m' hm => hplain m' (List.mem_cons_of_mem _ hm))
      (fun m' hm => hreads m' (List.mem_cons_of_mem _ hm)) (done ++ [m]) hnames'
      (by omega : _ ≤ fuel)
    rw [readMembers_member hs (hplain m List.mem_cons_self) (hreads m List.mem_cons_self) level
      hcomma done (by omega), writeMembers_cons]
    simp only [List.append_assoc, List.cons_append]
    rw [skipBlanks_cons (by decide), putPair_of_nodup hnames]
    change readMembers fuel depth (done ++ [m]) (skipBlanks _) = _
    rw [hskip, hrest, List.append_assoc, List.singleton_append]

theorem Plain.exists_fuel {j : Json} (h : Plain depth j) {level fuel : Nat}
    (hfuel : 2 * (writeAt s level j).length ≤ fuel) : ∃ k, fuel = k + 1 := by
  obtain ⟨c, tail, htext, -⟩ := h.exists_opens (s := s) level
  rw [htext, List.length_cons] at hfuel
  exact ⟨fuel - 1, by omega⟩

theorem reads_int {n : Int} (hlimit : (natDigits n.natAbs).length ≤ digitLimit) :
    Reads s depth (.number (.int n)) := by
  intro level fuel rest hfuel hrest
  obtain ⟨fuel, rfl⟩ := (Plain.int depth n hlimit).exists_fuel hfuel
  have hscalar : readValue (fuel + 1) depth (intText n ++ rest) = readScalar (intText n ++ rest) := by
    obtain ⟨d, tail, hd, htext | htext⟩ := exists_intText n
    · rw [htext, List.cons_append]
      refine readValue_scalar ?_ ?_ ?_ fuel _ <;> (rintro rfl; cases hd)
    · rw [htext]
      exact readValue_scalar (by decide) (by decide) (by decide) fuel _
  exact hscalar.trans ((readScalar_intText n rest).trans (readNumber_intText hlimit hrest))

theorem reads_array (hs : s.Blank) {items : List Json} (hplain : ∀ j ∈ items, Plain depth j)
    (hreads : ∀ j ∈ items, Reads s depth j) : Reads s (depth + 1) (.array items) := by
  intro level fuel rest hfuel _
  obtain ⟨fuel, rfl⟩ := (Plain.array depth items hplain).exists_fuel hfuel
  cases items with
  | nil => rfl
  | cons item items =>
    obtain ⟨c, tail, hopen, hc⟩ := (hplain item List.mem_cons_self).exists_opens (s := s) (level + 1)
    simp only [writeAt, List.length_append, List.length_cons] at hfuel
    have hgap : ∀ c ∈ s.breakLine level, isBlank c = true := fun _ => isBlank_of_mem_breakLine
    have hitems := readItems_written hs hplain hreads (level + 1) hgap rest [] (by omega : _ ≤ fuel)
    have htext : writeAt s level (.array (item :: items)) ++ rest =
        '[' :: (s.breakLine (level + 1) ++ (writeAt s (level + 1) item ++
          (writeItems s (level + 1) items ++ (s.breakLine level ++ ']' :: rest)))) := by
      simp only [writeAt, List.append_assoc, List.cons_append, List.nil_append]
    rw [htext, hopen, List.cons_append, readValue_bracket hc fun _ => isBlank_of_mem_breakLine,
      ← List.cons_append, ← hopen, hitems]
    rfl

theorem reads_object (hs : s.Blank) {members : List (String × Json)}
    (hnames : (members.map (·.1)).Nodup) (hplain : ∀ m ∈ members, Plain depth m.2)
    (hreads : ∀ m ∈ members, Reads s depth m.2) : Reads s (depth + 1) (.object members) := by
  intro level fuel rest hfuel _
  obtain ⟨fuel, rfl⟩ := (Plain.object depth members hnames hplain).exists_fuel hfuel
  cases members with
  | nil => rfl
  | cons m members =>
    have htext : writeAt s level (.object (m :: members)) ++ rest =
        '\x7b' :: (s.breakLine (level + 1) ++ (memberText s (level + 1) m ++
          (writeMembers s (level + 1) members ++ (s.breakLine level ++ '\x7d' :: rest)))) := by
      simp only [writeAt, memberText, List.append_assoc, List.cons_append, List.nil_append]
    have hlength : (memberText s (level + 1) m).length + (writeMembers s (level + 1) members).length <
        (writeAt s level (.object (m :: members))).length := by
      have := congrArg List.length htext
      simp only [List.length_append, List.length_cons] at this
      omega
    have hgap : ∀ c ∈ s.breakLine level, isBlank c = true := fun _ => isBlank_of_mem_breakLine
    have hmembers := readMembers_written hs hplain hreads (level + 1) hgap rest [] hnames
      (by omega : _ ≤ fuel)
    have hopen : ∀ tail, memberText s (level + 1) m ++ tail =
        '"' :: (inQuotes s.ascii m.1 ++ (':' :: (s.afterColon ++ writeAt s (level + 1) m.2)) ++ tail) :=
      fun tail => rfl
    rw [htext, hopen, readValue_brace (by exact ⟨by decide, by decide, by decide, by decide⟩)
      fun _ => isBlank_of_mem_breakLine, ← hopen, hmembers]
    rfl

/-- A value is read back, wherever its text stands. -/
theorem Plain.reads (hs : s.Blank) {j : Json} (h : Plain depth j) : Reads s depth j := by
  induction h with
  | null depth =>
    intro level fuel rest hfuel _
    obtain ⟨fuel, rfl⟩ := (Plain.null depth).exists_fuel hfuel
    exact readValue_scalar (by decide) (by decide) (by decide) fuel _
  | bool depth b =>
    intro level fuel rest hfuel _
    obtain ⟨fuel, rfl⟩ := (Plain.bool depth b).exists_fuel hfuel
    cases b <;> exact readValue_scalar (by decide) (by decide) (by decide) fuel _
  | int depth n hlimit => exact reads_int hlimit
  | string depth text =>
    intro level fuel rest hfuel _
    obtain ⟨fuel, rfl⟩ := (Plain.string depth text).exists_fuel hfuel
    exact readValue_quote s.ascii text fuel rest
  | array depth items hitems ih => exact reads_array hs hitems ih
  | object depth members hnames hmembers ih => exact reads_object hs hnames hmembers ih

/-- A value by itself is read back from its text. -/
theorem read_write (hs : s.Blank) {j : Json} (h : Plain nestingLimit j) :
    Json.read (j.write s).toList = .ok j := by
  obtain ⟨c, tail, htext, hc⟩ := h.exists_opens (s := s) 0
  have hvalue : readValue (2 * (writeAt s 0 j).length + 2) nestingLimit (writeAt s 0 j) = .ok (j, []) := by
    have := h.reads hs 0 (2 * (writeAt s 0 j).length + 2) [] (by omega) stops_nil
    rwa [List.append_nil] at this
  have hstart : readStart (writeAt s 0 j) = .ok (j, []) := by
    rw [← hvalue, htext]
    unfold readStart
    split
    · next heq => exact absurd (List.cons.inj heq).1 hc.ne_mark
    · rw [skipBlanks_cons hc.isBlank_eq]
  rw [write, String.toList_ofList, read, hstart]
  rfl

end Values

end Coach.Json
