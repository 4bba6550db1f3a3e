import Coach.Proofs.Number.Rounding
import Coach.Service.Retry

/-!
# A double written with six digits and read back

The brief text of a double has at most six digits, positional or with an exponent, without zeros at the
end.  What is read back from it is the double that is nearest to these digits.

## Main definitions

* `sixDigits`: a double with all but six of its digits dropped
* `Writes`: digits around a point, and an exponent, that a decimal of six digits is written with

## Main statements

* `readFloat?_parts`: digits, places and an exponent are read as the decimal that they stand for
* `readFloat?_briefFloat`: what is read back
-/

namespace Coach

open Coach.Service Coach.Text

/-- A double with all but six of its significant digits dropped: the one nearest to its decimal of six
digits. -/
def sixDigits (x : Float) : Float :=
  match Binary64.ofFloat x with
  | .nan => notANumber
  | .infinite negative => if negative then -infinity else infinity
  | .finite negative mantissa exponent =>
    let d := Decimal.roundedTo 6 mantissa exponent
    nearestDecimal negative (ofNatDigits d.digits) (d.exponent - 5)

/-! ### Reading digits in front of something else -/

section Reading

variable {digits whole places rest : List Char}

theorem digitValue?_eq_none {c : Char} (h : isDecimal c = false) : digitValue? c = none := by
  simpa [isDecimal] using h

/-- A run of digits ends where neither a digit nor an underscore follows. -/
theorem digitRun_append (hdigits : ∀ c ∈ digits, isDecimal c = true)
    (hrest : ∀ c ∈ rest.head?, isDecimal c = false ∧ c ≠ '_') :
    digitRun (digits ++ rest) = (digits.map digitValue, rest) := by
  induction digits with
  | nil =>
    cases rest with
    | nil => rfl
    | cons c rest =>
      have hc := digitValue?_eq_none (hrest c rfl).1
      cases rest <;> simp [digitRun, hc]
  | cons c digits ih =>
    have hc := digitValue?_of_isDecimal (hdigits c List.mem_cons_self)
    have hmore := ih fun x hx => hdigits x (List.mem_cons_of_mem c hx)
    cases hnext : digits ++ rest with
    | nil =>
      obtain ⟨rfl, rfl⟩ := List.append_eq_nil_iff.mp hnext
      simp [digitRun, hc]
    | cons next more =>
      have hunder : next ≠ '_' := by
        cases digits with
        | nil => exact (hrest next (by rw [show rest = next :: more from hnext]; rfl)).2
        | cons d digits =>
          obtain ⟨rfl, -⟩ := List.cons.inj hnext
          rintro rfl
          exact absurd (hdigits '_' (by simp)) (by decide)
      rw [hnext] at hmore
      simp [digitRun, hc, hnext, hunder, hmore]

theorem ofDigits_eq_ofNatDigits (h : ∀ c ∈ digits, c.isDigit = true) :
    ofDigits (digits.map digitValue) = ofNatDigits digits := by
  have hvalue : digits.map digitValue = digits.map fun c => c.toNat - 0x30 := by
    refine List.map_congr_left fun c hc => ?_
    rw [digitValue, digitValue?_of_isDigit (h c hc)]
    rfl
  rw [ofDigits, hvalue, List.foldl_map]
  rfl

/-- What stands behind the digits of a number: nothing, or an exponent. -/
def exponentPart : Option Int → List Char
  | none => []
  | some e => 'e' :: exponentText e

/-- The digits of an exponent. -/
theorem exists_exponentText (e : Int) :
    ∃ digits, exponentText e = (if e < 0 then '-' else '+') :: digits ∧ digits ≠ [] ∧
      (∀ c ∈ digits, c.isDigit = true) ∧ ofNatDigits digits = e.natAbs ∧
      digits.length ≤ max 2 (natDigits e.natAbs).length := by
  have hne := natDigits_ne_nil e.natAbs
  have hdigits : ∀ c ∈ natDigits e.natAbs, c.isDigit = true := fun _ => isDigit_of_mem_natDigits
  have hpos := List.length_pos_iff.mpr hne
  refine ⟨_, rfl, ?_⟩
  split
  · refine ⟨List.cons_ne_nil _ _, List.forall_mem_cons.mpr ⟨rfl, hdigits⟩, ?_, ?_⟩
    · exact ofNatDigits_natDigits e.natAbs
    · rw [List.length_cons]
      omega
  · exact ⟨hne, hdigits, ofNatDigits_natDigits e.natAbs, Nat.le_max_right _ _⟩

theorem readExponent?_exponentPart {e : Option Int} (he : ∀ i ∈ e, i.natAbs < tenTo 9) :
    readExponent? (exponentPart e) = some (e.getD 0) := by
  cases e with
  | none => rfl
  | some e =>
    obtain ⟨digits, htext, hne, hdigits, hvalue, hlength⟩ := exists_exponentText e
    have hnine : (natDigits e.natAbs).length ≤ 9 :=
      (Nat.length_toDigits_le_iff (by decide) (by decide)).mpr (he e rfl)
    have hsign : splitSign (exponentText e) = (decide (e < 0), digits) := by
      rw [htext]
      by_cases h : e < 0 <;> simp [h, splitSign]
    have hrun := digitRun_of_decimal fun c hc => isDecimal_of_isDigit (hdigits c hc)
    obtain ⟨d, ds, hds⟩ := List.exists_cons_of_ne_nil (mt List.map_eq_nil_iff.mp hne :
      digits.map digitValue ≠ [])
    have hshort : ¬ ((d :: ds).dropWhile (· == 0)).length > 9 := by
      have hdrop := (List.dropWhile_sublist (l := d :: ds) (· == 0)).length_le
      rw [← hds, List.length_map] at hdrop
      rw [← hds]
      omega
    have hread : ofDigits (d :: ds) = e.natAbs := by
      rw [← hds, ofDigits_eq_ofNatDigits hdigits, hvalue]
    rw [hds] at hrun
    simp only [exponentPart, readExponent?, hsign, hrun, hshort, hread, if_false, decide_true,
      Bool.true_or, if_true, Option.getD_some, decide_eq_true_eq]
    congr 1
    split <;> omega

/-- No exponent goes on with digits. -/
theorem head?_exponentPart (e : Option Int) :
    ∀ c ∈ (exponentPart e).head?, isDecimal c = false ∧ c ≠ '_' := by
  cases e with
  | none => exact nofun
  | some e =>
    rintro c ⟨⟩
    decide

/-- The characters of a number without its sign. -/
theorem mem_parts {e : Option Int} (hdigits : ∀ c ∈ whole ++ places, c.isDigit = true) :
    ∀ c ∈ whole ++ (Layout.pointed places ++ exponentPart e),
      c.isDigit = true ∨ c ∈ ['.', 'e', '-', '+'] := by
  rw [List.forall_mem_append] at hdigits
  rw [List.forall_mem_append, List.forall_mem_append]
  refine ⟨fun c hc => Or.inl (hdigits.1 c hc), fun c hc => ?_, fun c hc => ?_⟩
  · unfold Layout.pointed at hc
    split at hc
    · cases hc
    · rcases List.mem_cons.mp hc with rfl | hc
      · simp
      · exact Or.inl (hdigits.2 c hc)
  · cases e with
    | none => cases hc
    | some e =>
      obtain ⟨digits, htext, -, hmore, -⟩ := exists_exponentText e
      rw [exponentPart, htext] at hc
      rcases List.mem_cons.mp hc with rfl | hc
      · simp
      · rcases List.mem_cons.mp hc with rfl | hc
        · split <;> simp
        · exact Or.inl (hmore c hc)

/-- The digits in front of the point, and what is left. -/
theorem digitRun_whole {e : Option Int} (hwhole : ∀ c ∈ whole, c.isDigit = true) (places : List Char) :
    digitRun (whole ++ (Layout.pointed places ++ exponentPart e)) =
      (whole.map digitValue, Layout.pointed places ++ exponentPart e) := by
  refine digitRun_append (fun c hc => isDecimal_of_isDigit (hwhole c hc)) ?_
  unfold Layout.pointed
  split
  · exact head?_exponentPart e
  · rintro c ⟨⟩
    decide

theorem splitSign_of_isDigit {negative : Bool} {c : Char} (hc : c.isDigit = true) (rest : List Char) :
    splitSign ((if negative then ['-'] else []) ++ c :: rest) = (negative, c :: rest) := by
  cases negative with
  | true => rfl
  | false =>
    have hminus : c ≠ '-' := by rintro rfl; exact absurd hc (by decide)
    have hplus : c ≠ '+' := by rintro rfl; exact absurd hc (by decide)
    simp [splitSign, hminus, hplus]

/-- No word begins with a digit. -/
theorem map_toLower_ne {c d : Char} (hc : c.isDigit = true) (hd : d.isDigit = false)
    (rest word : List Char) : (c :: rest).map Char.toLower ≠ d :: word := by
  intro h
  rw [List.map_cons, toLower_of_isDecimal (isDecimal_of_isDigit hc)] at h
  obtain ⟨rfl, -⟩ := List.cons.inj h
  rw [hc] at hd
  cases hd

/-- The digits behind a point, and what is left. -/
def placesRun : List Char → List Nat × List Char
  | '.' :: tail => digitRun tail
  | rest => ([], rest)

/-- What is read from a text that is no word, from the parts that are found in it one after another. -/
theorem readFloat?_of_runs {text body rest rest' : List Char} {negative : Bool} {c : Char} {e : Int}
    {ws ps : List Nat} (hblank : ∀ c ∈ text, isNumberBlank c = false)
    (hsign : splitSign text = (negative, c :: body)) (hc : c.isDigit = true)
    (hrun : digitRun (c :: body) = (ws, rest)) (hws : ws ≠ []) (hplaces : placesRun rest = (ps, rest'))
    (hexponent : readExponent? rest' = some e) :
    readFloat? text = some (nearestDecimal negative (ofDigits (ws ++ ps)) (e - ps.length)) := by
  have hinf : (c :: body).map Char.toLower ≠ "inf".toList := map_toLower_ne hc (by decide) body _
  have hinfinity : (c :: body).map Char.toLower ≠ "infinity".toList :=
    map_toLower_ne hc (by decide) body _
  have hnan : (c :: body).map Char.toLower ≠ "nan".toList := map_toLower_ne hc (by decide) body _
  have hnone : (ws.isEmpty && ps.isEmpty) = false := by
    rw [List.isEmpty_eq_false_iff.mpr hws, Bool.false_and]
  have hread : readFloat? text =
      if ws.isEmpty && (placesRun rest).1.isEmpty then none
      else (readExponent? (placesRun rest).2).map fun e =>
        nearestDecimal negative (ofDigits (ws ++ (placesRun rest).1)) (e - (placesRun rest).1.length) := by
    simp only [readFloat?, stripBy_eq_self hblank, hsign, hinf, hinfinity, hnan, decide_false,
      Bool.or_false, Bool.false_eq_true, if_false, hrun]
    cases rest with
    | nil => rfl
    | cons d tail =>
      by_cases hd : d = '.'
      · rw [hd]
        rfl
      · have hnext : placesRun (d :: tail) = ([], d :: tail) := by simp [placesRun, hd]
        simp [hnext, hd]
  rw [hread, hplaces, if_neg (by rw [hnone]; decide), hexponent]
  rfl

/-- What is read from digits, places and an exponent. -/
theorem readFloat?_parts {negative : Bool} {e : Option Int} (hne : whole ≠ [])
    (hdigits : ∀ c ∈ whole ++ places, c.isDigit = true) (he : ∀ i ∈ e, i.natAbs < tenTo 9) :
    readFloat? ((if negative then ['-'] else []) ++ (whole ++ (Layout.pointed places ++ exponentPart e))) =
      some (nearestDecimal negative (ofNatDigits (whole ++ places)) (e.getD 0 - places.length)) := by
  have hrun := digitRun_whole (e := e) (fun c hc => hdigits c (List.mem_append_left _ hc)) places
  have hplaces : placesRun (Layout.pointed places ++ exponentPart e) =
      (places.map digitValue, exponentPart e) := by
    cases places with
    | nil => cases e <;> rfl
    | cons c places =>
      exact digitRun_append (fun d hd => isDecimal_of_isDigit (hdigits d (List.mem_append_right _ hd)))
        (head?_exponentPart e)
  have hblank : ∀ c ∈ (if negative then ['-'] else []) ++
      (whole ++ (Layout.pointed places ++ exponentPart e)), isNumberBlank c = false := by
    have hmark : ∀ c ∈ ['.', 'e', '-', '+'], isNumberBlank c = false := by decide
    rw [List.forall_mem_append]
    refine ⟨fun c hc => ?_, fun c hc => ?_⟩
    · split at hc
      · exact hmark c (by rw [List.mem_singleton.mp hc]; simp)
      · cases hc
    · rcases mem_parts hdigits c hc with hc | hc
      · rw [isNumberBlank, not_isSpace_of_isDecimal (isDecimal_of_isDigit hc), Bool.false_and]
      · exact hmark c hc
  obtain ⟨first, more, rfl⟩ := List.exists_cons_of_ne_nil hne
  have hfirst : first.isDigit = true := hdigits first (by simp)
  rw [readFloat?_of_runs hblank (splitSign_of_isDigit hfirst _) hfirst hrun (List.cons_ne_nil _ _) hplaces
    (readExponent?_exponentPart he), ← List.map_append, ofDigits_eq_ofNatDigits hdigits, List.length_map]

end Reading

/-! ### The digits of a double -/

theorem ofNatDigits_append_zeros (digits : List Char) (z : Nat) :
    ofNatDigits (digits ++ List.replicate z '0') = ofNatDigits digits * tenTo z := by
  induction z with
  | zero => rw [List.replicate_zero, List.append_nil, show tenTo 0 = 1 from rfl, Nat.mul_one]
  | succ z ih =>
    have hlast : ∀ n, 10 * n + ('0'.toNat - 0x30) = n * 10 := fun n => Nat.mul_comm 10 n
    rw [List.replicate_succ', ← List.append_assoc, ofNatDigits, List.foldl_append, ← ofNatDigits, ih,
      show tenTo (z + 1) = tenTo z * 10 from rfl, ← Nat.mul_assoc]
    exact hlast _

theorem ofNatDigits_zeros_append (z : Nat) (digits : List Char) :
    ofNatDigits (List.replicate z '0' ++ digits) = ofNatDigits digits := by
  induction z with
  | zero => rfl
  | succ z ih => exact ih

theorem exists_dropZeros (digits : List Char) :
    ∃ z, digits = Layout.dropZeros digits ++ List.replicate z '0' := by
  obtain ⟨z, hz⟩ : ∃ z, digits.reverse.takeWhile (· == '0') = List.replicate z '0' :=
    ⟨_, List.eq_replicate_iff.mpr
      ⟨rfl, fun c hc => eq_of_beq (List.all_eq_true.mp List.all_takeWhile c hc)⟩⟩
  refine ⟨z, ?_⟩
  calc digits = digits.reverse.reverse := (List.reverse_reverse digits).symm
    _ = (List.replicate z '0' ++ digits.reverse.dropWhile (· == '0')).reverse := by
      rw [← hz, List.takeWhile_append_dropWhile]
    _ = Layout.dropZeros digits ++ List.replicate z '0' := by
      rw [List.reverse_append, List.reverse_replicate, Layout.dropZeros]

namespace Decimal

theorem isDigit_of_mem_roundedTo {count mantissa : Nat} {exponent : Int} :
    ∀ c ∈ (roundedTo count mantissa exponent).digits, c.isDigit = true := by
  intro c hc
  unfold roundedTo at hc
  dsimp only at hc
  repeat' split at hc
  · rw [List.eq_of_mem_replicate hc]
    rfl
  · exact isDigit_of_mem_natDigits hc
  · exact isDigit_of_mem_natDigits hc

theorem quotient_bounds {mantissa a b : Nat} {exponent : Int} (hmantissa : mantissa < twoTo 53)
    (hlow : -(b : Int) ≤ exponent) (hhigh : exponent ≤ a) :
    (quotient mantissa exponent).1 < tenTo (53 + a) ∧ (quotient mantissa exponent).2 ≤ tenTo b := by
  have hten : ∀ k, twoTo k ≤ tenTo k := fun k => Nat.pow_le_pow_left (by decide) k
  unfold quotient
  split
  · refine ⟨Nat.lt_of_lt_of_le ?_ (hten _), Nat.pow_pos (by decide)⟩
    rw [show twoTo (53 + a) = twoTo 53 * twoTo a from Nat.pow_add 2 53 a]
    exact Nat.mul_lt_mul_of_lt_of_le hmantissa (Nat.pow_le_pow_right (by decide) (by omega))
      (Nat.pow_pos (by decide))
  · refine ⟨Nat.lt_of_lt_of_le hmantissa (Nat.le_trans ?_ (hten _)), Nat.le_trans ?_ (hten b)⟩
    · exact Nat.pow_le_pow_right (by decide) (Nat.le_add_right 53 a)
    · exact Nat.pow_le_pow_right (by decide) (by omega)

/-- The exponent of a double's decimal has few digits. -/
theorem natAbs_exponent_roundedTo_lt {mantissa : Nat} {exponent : Int} (count : Nat)
    (hmantissa : mantissa < twoTo 53) (hlow : -1074 ≤ exponent) (hhigh : exponent ≤ 971) :
    (roundedTo count mantissa exponent).exponent.natAbs < tenTo 9 := by
  have hnine : (2000 : Nat) < tenTo 9 := by decide
  unfold roundedTo
  dsimp only
  split
  · exact Nat.lt_trans (Nat.succ_pos 1999) hnine
  · next hzero =>
    have hzero : mantissa ≠ 0 := by simpa using hzero
    obtain ⟨hnum, hden⟩ := quotient_ne_zero hzero exponent
    have hbounds := quotient_bounds (a := 971) (b := 1074) hmantissa hlow hhigh
    have htop := log10Quotient_bounds hnum hden hbounds.1 hbounds.2
    split <;> dsimp only <;> omega

end Decimal

theorem mem_of_mem_dropZeros {digits : List Char} {c : Char} (h : c ∈ Layout.dropZeros digits) :
    c ∈ digits :=
  List.mem_reverse.mp ((List.dropWhile_sublist _).mem (List.mem_reverse.mp h))

/-- The digits of a decimal, cut at a place and without the zeros at their end. -/
theorem exists_cut {digits : List Char} {n : Nat} (hn : n ≤ digits.length) :
    ∃ z, ofNatDigits digits =
        ofNatDigits (digits.take n ++ Layout.dropZeros (digits.drop n)) * tenTo z ∧
      digits.length = n + (Layout.dropZeros (digits.drop n)).length + z := by
  obtain ⟨z, hz⟩ := exists_dropZeros (digits.drop n)
  have hlength := congrArg List.length hz
  rw [List.length_drop, List.length_append, List.length_replicate] at hlength
  refine ⟨z, ?_, by omega⟩
  rw [← ofNatDigits_append_zeros, List.append_assoc, ← hz, List.take_append_drop]

/-- A decimal of six digits is written with digits in front of the point and behind it and with an exponent,
up to zeros at its end. -/
structure Writes (d : Decimal) (whole places : List Char) (part : Option Int) : Prop where
  whole_ne_nil : whole ≠ []
  isDigit : ∀ c ∈ whole ++ places, c.isDigit = true
  natAbs_lt : ∀ i ∈ part, i.natAbs < tenTo 9
  exists_zeros : ∃ z : Nat, ofNatDigits d.digits = ofNatDigits (whole ++ places) * tenTo z ∧
    d.exponent - 5 = part.getD 0 - places.length - z

section Writing

variable {d : Decimal}

/-- The point stands among the digits. -/
theorem writes_among {part : Option Int} {n : Nat} (hlength : d.digits.length = 6)
    (hdigits : ∀ c ∈ d.digits, c.isDigit = true) (hpos : 0 < n) (hn : n ≤ 6)
    (hpart : ∀ i ∈ part, i.natAbs < tenTo 9) (hexponent : d.exponent = part.getD 0 + n - 1) :
    Writes d (d.digits.take n) (Layout.dropZeros (d.digits.drop n)) part := by
  obtain ⟨z, hz, hsix⟩ := exists_cut (hlength ▸ hn)
  refine ⟨fun h => ?_, ?_, hpart, z, hz, by omega⟩
  · rw [List.take_eq_nil_iff, ← List.length_eq_zero_iff, hlength] at h
    omega
  · rw [List.forall_mem_append]
    exact ⟨fun c hc => hdigits c (List.mem_of_mem_take hc),
      fun c hc => hdigits c (List.mem_of_mem_drop (mem_of_mem_dropZeros hc))⟩

/-- Zeros stand between the point and the digits. -/
theorem writes_behind (hlength : d.digits.length = 6) (hdigits : ∀ c ∈ d.digits, c.isDigit = true)
    (hexponent : d.exponent < 0) :
    Writes d ['0'] (List.replicate (-d.exponent - 1).toNat '0' ++ Layout.dropZeros d.digits) none := by
  obtain ⟨z, hz, hsix⟩ := exists_cut (Nat.zero_le d.digits.length)
  rw [List.take_zero, List.drop_zero, List.nil_append] at hz
  rw [List.drop_zero] at hsix
  refine ⟨List.cons_ne_nil _ _, ?_, nofun, z, ?_, ?_⟩
  · rw [List.forall_mem_append, List.forall_mem_append]
    refine ⟨by decide, fun c hc => ?_, fun c hc => hdigits c (mem_of_mem_dropZeros hc)⟩
    rw [List.eq_of_mem_replicate hc]
    rfl
  · rw [hz]
    congr 1
    exact (ofNatDigits_zeros_append (-d.exponent - 1).toNat _).symm
  · rw [Option.getD_none, List.length_append, List.length_replicate]
    omega

end Writing

/-- The general notation writes the rounded decimal. -/
theorem exists_writes_general {mantissa : Nat} {exponent : Int} {d : Decimal}
    (hd : Decimal.roundedTo 6 mantissa exponent = d) (hlimit : d.exponent.natAbs < tenTo 9) :
    ∃ whole places part,
      Layout.notated .general 6 mantissa exponent = (whole, Layout.pointed places ++ exponentPart part) ∧
      Writes d whole places part := by
  have hlength : d.digits.length = 6 := hd ▸ Decimal.length_digits_roundedTo 6 mantissa exponent
  have hdigits : ∀ c ∈ d.digits, c.isDigit = true := hd ▸ Decimal.isDigit_of_mem_roundedTo
  unfold Layout.notated
  dsimp only
  rw [show max 6 1 = 6 from rfl, hd]
  split
  · next hpositional =>
    simp only [Bool.and_eq_true, decide_eq_true_eq] at hpositional
    split
    · refine ⟨_, _, none, by rw [exponentPart, List.append_nil],
        writes_among hlength hdigits (Nat.succ_pos _) (by omega) nofun ?_⟩
      rw [Option.getD_none]
      omega
    · exact ⟨_, _, none, by rw [exponentPart, List.append_nil], writes_behind hlength hdigits (by omega)⟩
  · refine ⟨_, _, some d.exponent, rfl, writes_among hlength hdigits (by decide) (by decide) ?_ ?_⟩
    · rintro i ⟨⟩
      exact hlimit
    · rw [Option.getD_some]
      omega

/-- A field that asks for nothing. -/
theorem number_plain (negative : Bool) (whole tail : List Char) :
    ({} : Layout).number negative whole tail = (if negative then ['-'] else []) ++ (whole ++ tail) := by
  cases negative <;> simp [Layout.number, Layout.signText, Layout.pad]

/-- **What is read back from the brief text of a double** is the double in six digits. -/
theorem readFloat?_briefFloat (x : Float) : readFloat? (briefFloat x).toList = some (sixDigits x) := by
  rw [briefFloat, String.toList_ofList, sixDigits, Layout.double]
  cases hx : Binary64.ofFloat x with
  | nan => rfl
  | infinite negative => cases negative <;> rfl
  | finite negative mantissa exponent =>
    obtain ⟨hmantissa, hlow, hhigh⟩ := Binary64.range_of_ofBits hx
    obtain ⟨whole, places, part, htext, hwrites⟩ :=
      exists_writes_general rfl (Decimal.natAbs_exponent_roundedTo_lt 6 hmantissa hlow hhigh)
    obtain ⟨z, hvalue, hexponent⟩ := hwrites.exists_zeros
    dsimp only
    rw [htext, hvalue, hexponent, nearestDecimal_mul_tenTo, number_plain]
    exact readFloat?_parts hwrites.whole_ne_nil hwrites.isDigit hwrites.natAbs_lt

/-- The characters of the brief text of a double. -/
theorem mem_briefFloat (x : Float) :
    ∀ c ∈ (briefFloat x).toList, c.isAlphanum = true ∨ c ∈ ['.', '-', '+'] := by
  rw [briefFloat, String.toList_ofList, Layout.double]
  cases hx : Binary64.ofFloat x with
  | nan => decide
  | infinite negative => cases negative <;> decide
  | finite negative mantissa exponent =>
    obtain ⟨hmantissa, hlow, hhigh⟩ := Binary64.range_of_ofBits hx
    obtain ⟨whole, places, part, htext, hwrites⟩ :=
      exists_writes_general rfl (Decimal.natAbs_exponent_roundedTo_lt 6 hmantissa hlow hhigh)
    dsimp only
    rw [htext, number_plain, List.forall_mem_append]
    refine ⟨by cases negative <;> decide, fun c hc => ?_⟩
    rcases mem_parts hwrites.isDigit c hc with hc | hc
    · exact Or.inl (by rw [Char.isAlphanum, hc, Bool.or_true])
    · exact (by decide : ∀ c ∈ ['.', 'e', '-', '+'], c.isAlphanum = true ∨ c ∈ ['.', '-', '+']) c hc

theorem readFloat?_blank_cons (text : List Char) : readFloat? (' ' :: text) = readFloat? text := by
  have hblank : isNumberBlank ' ' = true := by decide
  rw [readFloat?, readFloat?, stripBy, stripBy, List.dropWhile_cons_of_pos hblank]

end Coach
