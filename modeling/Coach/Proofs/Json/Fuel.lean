import Coach.Json.Reader
import Coach.Proofs.Text.Parts

/-!
# Reading a value, whatever the fuel

What the reader leaves is an end of the text that it was given, and shorter by what it read.  So fuel of
twice the length is enough at every level: two readings with enough fuel agree, and the reader can be
described by equations in which no fuel occurs.

## Main definitions

* `valueAt`, `itemsAt`, `membersAt`: the readers with just enough fuel

## Main statements

* `suffix_of_read`: what is left is an end of the text
* `read_congr`: fuel that is enough does not count
* `valueAt_array`, `valueAt_object`, `itemsAt_eq`, `membersAt_eq`: the equations of the readers
-/

namespace Coach.Json

open Coach.Text

/-! ### What is left -/

section Left

variable {text rest : List Char}

theorem suffix_skipBlanks (text : List Char) : skipBlanks text <:+ text := List.dropWhile_suffix _

theorem suffix_of_hex4? {n : Nat} (h : hex4? text = some (n, rest)) : rest <:+ text := by
  unfold hex4? at h
  split at h
  · next a b c d rest =>
    split at h
    · obtain ⟨-, rfl⟩ := Prod.mk.inj (Option.some.inj h)
      exact List.suffix_append [a, b, c, d] _
    · cases h
  · cases h

theorem suffix_of_lowSurrogate? {n : Nat} (h : lowSurrogate? text = some (n, rest)) : rest <:+ text := by
  unfold lowSurrogate? at h
  split at h
  · next rest =>
    split at h
    · next n tail hhex =>
      split at h
      · obtain ⟨-, rfl⟩ := Prod.mk.inj (Option.some.inj h)
        exact (suffix_of_hex4? hhex).trans (List.suffix_append ['\\', 'u'] _)
      · cases h
    · cases h
  · cases h

theorem suffix_of_readString {start fuel : Nat} {done : List Char} {s : String}
    (h : readString start fuel done text = .ok (s, rest)) : rest <:+ text := by
  fun_induction readString start fuel done text with
  | case3 fuel done inside =>
    obtain ⟨-, rfl⟩ := Prod.mk.inj (Except.ok.inj h)
    exact List.suffix_cons _ _
  | case5 fuel done c inside _ _ _ ih => exact (ih h).trans (List.suffix_cons _ _)
  | case9 fuel done c _ _ _ tail _ n after hhex _ low after' hlow _ ih =>
    exact (((ih h).trans (suffix_of_lowSurrogate? hlow)).trans (suffix_of_hex4? hhex)).trans
      (List.suffix_append [c, 'u'] tail)
  | case10 fuel done c _ _ _ tail _ n after hhex _ _ ih =>
    exact ((ih h).trans (suffix_of_hex4? hhex)).trans (List.suffix_append [c, 'u'] tail)
  | case11 fuel done c _ _ _ tail _ n after hhex _ _ ih =>
    exact ((ih h).trans (suffix_of_hex4? hhex)).trans (List.suffix_append [c, 'u'] tail)
  | case12 fuel done c _ _ _ tail _ n after hhex _ _ ih =>
    exact ((ih h).trans (suffix_of_hex4? hhex)).trans (List.suffix_append [c, 'u'] tail)
  | case13 fuel done c _ _ _ e tail _ x _ ih => exact (ih h).trans (List.suffix_append [c, e] tail)
  | _ => cases h

theorem suffix_fractionPart (text : List Char) : (fractionPart text).2 <:+ text := by
  unfold fractionPart
  split
  · next rest =>
    dsimp only
    split
    · exact List.suffix_refl _
    · exact (List.dropWhile_suffix _).trans (List.suffix_cons _ _)
  · exact List.suffix_refl _

theorem suffix_exponentPart (text : List Char) : (exponentPart text).2 <:+ text := by
  unfold exponentPart
  split
  · exact List.suffix_refl _
  · next mark rest =>
    split
    · split
      next sign body hsign =>
      have hbody : body <:+ rest := by
        split at hsign <;> obtain ⟨-, rfl⟩ := Prod.mk.inj hsign
        · exact List.suffix_cons _ _
        · exact List.suffix_cons _ _
        · exact List.suffix_refl _
      dsimp only
      split
      · exact List.suffix_refl _
      · exact ((List.dropWhile_suffix _).trans hbody).trans (List.suffix_cons _ _)
    · exact List.suffix_refl _

/-- A number begins with a digit, or with a minus sign and a digit. -/
theorem exists_digit_or_readNumber_eq (text : List Char) :
    (∃ sign first more, (sign = [] ∨ sign = ['-']) ∧ first.isDigit = true ∧ text = sign ++ first :: more) ∨
      readNumber text = stop .expectedValue text := by
  unfold readNumber
  split
  next sign body hsplit =>
  have hsign : (sign = [] ∨ sign = ['-']) ∧ text = sign ++ body := by
    split at hsplit <;> obtain ⟨rfl, rfl⟩ := Prod.mk.inj hsplit
    · exact ⟨Or.inr rfl, rfl⟩
    · exact ⟨Or.inl rfl, rfl⟩
  cases body with
  | nil => exact Or.inr rfl
  | cons first more =>
    by_cases hfirst : first.isDigit = true
    · exact Or.inl ⟨sign, first, more, hsign.1, hfirst, hsign.2⟩
    · exact Or.inr (if_pos (by simp [hfirst]))

/-- The integer of a number, its places and its exponent. -/
theorem readNumber_digit {sign : List Char} (hsign : sign = [] ∨ sign = ['-']) {first : Char}
    (hfirst : first.isDigit = true) (more : List Char) :
    readNumber (sign ++ first :: more) =
      let (whole, rest) :=
        if first = '0' then (['0'], more)
        else (first :: more.takeWhile Char.isDigit, more.dropWhile Char.isDigit)
      let (places, rest) := fractionPart rest
      let (power, rest) := exponentPart rest
      if places.isEmpty && power.isEmpty then
        if digitLimit < whole.length then .error (.tooManyDigits whole.length)
        else
          let n : Int := ofNatDigits whole
          .ok (.int (if sign.isEmpty then n else -n), rest)
      else .ok (.float ((readFloat? (sign ++ whole ++ places ++ power)).getD 0), rest) := by
  have hne : ∀ body, first :: more = '-' :: body → False := fun body heq => by
    rw [(List.cons.inj heq).1] at hfirst
    cases hfirst
  rcases hsign with rfl | rfl
  · simp only [readNumber, List.nil_append, hfirst, Bool.not_true, Bool.false_eq_true, if_false]
  · simp only [readNumber, List.singleton_append, hfirst, Bool.not_true, Bool.false_eq_true, if_false]

theorem suffix_of_readNumber {j : Json} (h : readNumber text = .ok (j, rest)) : rest <:+ text := by
  rcases exists_digit_or_readNumber_eq text with ⟨sign, first, more, hsign, hfirst, rfl⟩ | hstop
  · rw [readNumber_digit hsign hfirst] at h
    have hmore : more <:+ sign ++ first :: more := (List.suffix_cons _ _).trans (List.suffix_append _ _)
    refine List.IsSuffix.trans ?_ hmore
    split at h
    next whole tail hwhole =>
    have htail : tail <:+ more := by
      split at hwhole <;> obtain ⟨-, rfl⟩ := Prod.mk.inj hwhole
      · exact List.suffix_refl _
      · exact List.dropWhile_suffix _
    have hleft : (exponentPart (fractionPart tail).2).2 <:+ more :=
      ((suffix_exponentPart _).trans (suffix_fractionPart tail)).trans htail
    dsimp only at h
    split at h
    · split at h
      · cases h
      · obtain ⟨-, rfl⟩ := Prod.mk.inj (Except.ok.inj h)
        exact hleft
    · obtain ⟨-, rfl⟩ := Prod.mk.inj (Except.ok.inj h)
      exact hleft
  · rw [hstop] at h
    cases h

/-- A number is none of the names. -/
theorem readScalar_digit {sign : List Char} (hsign : sign = [] ∨ sign = ['-']) {first : Char}
    (hfirst : first.isDigit = true) (more : List Char) :
    readScalar (sign ++ first :: more) = readNumber (sign ++ first :: more) := by
  have hnull : "null".toList = ['n', 'u', 'l', 'l'] := rfl
  have htrue : "true".toList = ['t', 'r', 'u', 'e'] := rfl
  have hfalse : "false".toList = ['f', 'a', 'l', 's', 'e'] := rfl
  have hnan : "NaN".toList = ['N', 'a', 'N'] := rfl
  have hinfinity : "Infinity".toList = ['I', 'n', 'f', 'i', 'n', 'i', 't', 'y'] := rfl
  have hminus : "-Infinity".toList = ['-', 'I', 'n', 'f', 'i', 'n', 'i', 't', 'y'] := rfl
  have hne : ∀ c : Char, c.isDigit = false → c ≠ first := by
    rintro c hc rfl
    rw [hc] at hfirst
    cases hfirst
  rcases hsign with rfl | rfl
  · simp only [readScalar, List.nil_append, hnull, htrue, hfalse, hnan, hinfinity, hminus, dropStart?,
      hne 'n' rfl, hne 't' rfl, hne 'f' rfl, hne 'N' rfl, hne 'I' rfl, hne '-' rfl, if_false]
  · simp only [readScalar, List.cons_append, List.nil_append, hnull, htrue, hfalse, hnan, hinfinity, hminus,
      dropStart?, Char.reduceEq, hne 'I' rfl, if_false, if_true]

theorem suffix_of_dropStart? {start : List Char} (h : dropStart? start text = some rest) : rest <:+ text :=
  ⟨start, (eq_append_of_dropStart? h).symm⟩

/-- What is neither a string, an array nor an object is a name or a number. -/
theorem readScalar_ok_or_eq (text : List Char) :
    (∃ j rest, readScalar text = .ok (j, rest) ∧ rest <:+ text) ∨ readScalar text = readNumber text := by
  unfold readScalar
  repeat' split
  all_goals first
    | exact Or.inr rfl
    | exact Or.inl ⟨_, _, rfl, suffix_of_dropStart? ‹_›⟩

theorem suffix_of_readScalar {j : Json} (h : readScalar text = .ok (j, rest)) : rest <:+ text := by
  rcases readScalar_ok_or_eq text with ⟨j', rest', heq, hrest⟩ | heq
  · obtain ⟨-, rfl⟩ := Prod.mk.inj (Except.ok.inj (heq.symm.trans h))
    exact hrest
  · exact suffix_of_readNumber (heq.symm.trans h)

end Left

/-! ### Steps that may fail -/

section Steps

variable {α β : Type} {x : Except ReadFault α} {f : α → Except ReadFault β}

theorem bind_eq_ok_iff {b : β} : x.bind f = .ok b ↔ ∃ a, x = .ok a ∧ f a = .ok b := by
  cases x with
  | error => exact ⟨nofun, by rintro ⟨a, ⟨⟩, -⟩⟩
  | ok a => exact ⟨fun h => ⟨a, rfl, h⟩, by rintro ⟨_, ⟨⟩, h⟩; exact h⟩

theorem bind_eq_error_iff {fault : ReadFault} :
    x.bind f = .error fault ↔ x = .error fault ∨ ∃ a, x = .ok a ∧ f a = .error fault := by
  cases x with
  | error =>
    refine ⟨fun h => Or.inl (congrArg Except.error (Except.error.inj h)), ?_⟩
    rintro (h | ⟨a, ⟨⟩, -⟩)
    exact congrArg Except.error (Except.error.inj h)
  | ok a =>
    refine ⟨fun h => Or.inr ⟨a, rfl, h⟩, ?_⟩
    rintro (⟨⟨⟩⟩ | ⟨_, ⟨⟩, h⟩)
    exact h

end Steps

/-! ### One level -/

/-- What comes behind an opening bracket: the closing one, or the first item. -/
def afterOpening (close : Char) (empty : Json) (next : List Char → Except ReadFault (Json × List Char))
    (text : List Char) : Except ReadFault (Json × List Char) :=
  if (skipBlanks text).head? = some close then .ok (empty, (skipBlanks text).tail)
  else next (skipBlanks text)

/-- What comes behind an item: the closing bracket, or a comma and the next item. -/
def afterItem (close : Char) (done : Json) (next : List Char → Except ReadFault (Json × List Char))
    (text : List Char) : Except ReadFault (Json × List Char) :=
  if (skipBlanks text).head? = some close then .ok (done, (skipBlanks text).tail)
  else if (skipBlanks text).head? = some ',' then next (skipBlanks (skipBlanks text).tail)
  else stop .expectedComma (skipBlanks text)

/-- Reads the name of a member, up to its value. -/
def nameAt (text : List Char) : Except ReadFault (String × List Char) :=
  if text.head? = some '"' then
    (readString text.length text.length [] text.tail).bind fun p =>
      if (skipBlanks p.2).head? = some ':' then .ok (p.1, skipBlanks (skipBlanks p.2).tail)
      else stop .expectedColon (skipBlanks p.2)
  else stop .expectedName text

section Follow

variable {close : Char} {j done : Json} {text rest : List Char}
  {next next' : List Char → Except ReadFault (Json × List Char)}

theorem suffix_of_afterOpening (hnext : ∀ {tail}, next tail = .ok (j, rest) → rest <:+ tail)
    (h : afterOpening close done next text = .ok (j, rest)) : rest <:+ text := by
  have hblanks := suffix_skipBlanks text
  unfold afterOpening at h
  split at h
  · obtain ⟨-, rfl⟩ := Prod.mk.inj (Except.ok.inj h)
    exact (List.tail_suffix _).trans hblanks
  · exact (hnext h).trans hblanks

theorem suffix_of_afterItem (hnext : ∀ {tail}, next tail = .ok (j, rest) → rest <:+ tail)
    (h : afterItem close done next text = .ok (j, rest)) : rest <:+ text := by
  have htail : (skipBlanks text).tail <:+ text := (List.tail_suffix _).trans (suffix_skipBlanks text)
  unfold afterItem at h
  split at h
  · obtain ⟨-, rfl⟩ := Prod.mk.inj (Except.ok.inj h)
    exact htail
  · split at h
    · exact ((hnext h).trans (suffix_skipBlanks _)).trans htail
    · cases h

/-- The next item is read from a shorter text. -/
theorem afterItem_congr (hnext : ∀ tail : List Char, tail.length < text.length → next tail = next' tail) :
    afterItem close done next text = afterItem close done next' text := by
  have hblanks := (suffix_skipBlanks text).length_le
  unfold afterItem
  split
  · rfl
  · split
    · next hcomma =>
      refine hnext _ ?_
      have hshort := (suffix_skipBlanks (skipBlanks text).tail).length_le
      obtain ⟨tail, heq⟩ := List.head?_eq_some_iff.mp hcomma
      rw [heq, List.length_cons] at hblanks
      rw [heq, List.tail_cons] at hshort ⊢
      omega
    · rfl

end Follow

theorem suffix_of_nameAt {text rest : List Char} {name : String} (h : nameAt text = .ok (name, rest)) :
    rest <:+ text.tail := by
  unfold nameAt at h
  split at h
  · obtain ⟨⟨s, after⟩, hstring, h⟩ := bind_eq_ok_iff.mp h
    split at h
    · obtain ⟨-, rfl⟩ := Prod.mk.inj (Except.ok.inj h)
      exact (((suffix_skipBlanks _).trans (List.tail_suffix _)).trans (suffix_skipBlanks _)).trans
        (suffix_of_readString hstring)
    · cases h
  · cases h

theorem head?_ne_of_forall {c : Char} {text : List Char} (h : ∀ tail, text = c :: tail → False) :
    ¬ text.head? = some c := fun hhead => by
  obtain ⟨tail, heq⟩ := List.head?_eq_some_iff.mp hhead
  exact h tail heq

section Equations

variable (fuel depth : Nat) (rest text : List Char)

theorem readValue_mark : readValue (fuel + 1) depth ('"' :: rest) =
    (readString (rest.length + 1) (rest.length + 1) [] rest).bind fun p => .ok (.string p.1, p.2) := by
  rw [readValue.eq_def]
  dsimp only
  rw [if_pos rfl]
  cases readString (rest.length + 1) (rest.length + 1) [] rest <;> rfl

theorem readValue_deep {c : Char} (hc : c = '[' ∨ c = '\x7b') :
    readValue (fuel + 1) 0 (c :: rest) = .error .tooDeep := by
  rcases hc with rfl | rfl <;> rfl

theorem readValue_array : readValue (fuel + 1) (depth + 1) ('[' :: rest) =
    afterOpening ']' (.array []) (readItems fuel depth []) rest := by
  rw [readValue, if_neg (by decide), if_pos (by decide), if_pos rfl, afterOpening]
  split
  · next heq => rw [heq, List.head?_cons, if_pos rfl, List.tail_cons]
  · next hne => exact (if_neg (head?_ne_of_forall hne)).symm

theorem readValue_object : readValue (fuel + 1) (depth + 1) ('\x7b' :: rest) =
    afterOpening '\x7d' (.object []) (readMembers fuel depth []) rest := by
  rw [readValue, if_neg (by decide), if_pos (by decide), if_neg (by decide), afterOpening]
  split
  · next heq => rw [heq, List.head?_cons, if_pos rfl, List.tail_cons]
  · next hne => exact (if_neg (head?_ne_of_forall hne)).symm

theorem readItems_succ (done : List Json) : readItems (fuel + 1) depth done text =
    (readValue fuel depth text).bind fun p =>
      afterItem ']' (.array (p.1 :: done).reverse) (readItems fuel depth (p.1 :: done)) p.2 := by
  rw [readItems]
  cases readValue fuel depth text with
  | error => rfl
  | ok p =>
    simp only [bind, Except.bind]
    rw [afterItem]
    split
    · next heq => rw [heq, List.head?_cons, if_pos rfl, List.tail_cons]; rfl
    · next heq => rw [heq, List.head?_cons, if_neg (by decide), if_pos rfl, List.tail_cons]
    · next hclose hcomma =>
      rw [if_neg (head?_ne_of_forall hclose), if_neg (head?_ne_of_forall hcomma)]

theorem readMembers_succ (done : List (String × Json)) : readMembers (fuel + 1) depth done text =
    (nameAt text).bind fun n => (readValue fuel depth n.2).bind fun v =>
      afterItem '\x7d' (.object (putPair done n.1 v.1)) (readMembers fuel depth (putPair done n.1 v.1))
        v.2 := by
  rw [readMembers.eq_def]
  dsimp only
  split
  · next inside =>
    rw [nameAt, List.head?_cons, if_pos rfl, List.tail_cons, List.length_cons]
    cases readString (inside.length + 1) (inside.length + 1) [] inside with
    | error => rfl
    | ok p =>
      simp only [bind, Except.bind]
      split
      · next after heq =>
        rw [heq, List.head?_cons, if_pos rfl, List.tail_cons]
        change _ = (readValue fuel depth (skipBlanks after)).bind _
        cases readValue fuel depth (skipBlanks after) with
        | error => rfl
        | ok v =>
          simp only [Except.bind]
          rw [afterItem]
          split
          · next heq => rw [heq, List.head?_cons, if_pos rfl, List.tail_cons]; rfl
          · next heq => rw [heq, List.head?_cons, if_neg (by decide), if_pos rfl, List.tail_cons]
          · next hclose hcomma =>
            rw [if_neg (head?_ne_of_forall hclose), if_neg (head?_ne_of_forall hcomma)]
      · next hne =>
        rw [if_neg (head?_ne_of_forall hne)]
        rfl
  · next hne =>
    rw [nameAt, if_neg (head?_ne_of_forall hne)]
    rfl

end Equations

/-! ### Enough fuel -/

/-- How a value may begin. -/
theorem first_cases (c : Char) : c = '"' ∨ (c = '[' ∨ c = '\x7b') ∨ (c ≠ '"' ∧ c ≠ '[' ∧ c ≠ '\x7b') := by
  grind

/-- What is neither a string, an array nor an object. -/
theorem readValue_scalar {depth : Nat} {c : Char} (hquote : c ≠ '"') (hbracket : c ≠ '[')
    (hbrace : c ≠ '\x7b') (fuel : Nat) (rest : List Char) :
    readValue (fuel + 1) depth (c :: rest) = readScalar (c :: rest) := by
  rw [readValue.eq_def]
  dsimp only
  rw [if_neg hquote, if_neg (by simp [hbracket, hbrace])]

/-- What is left of a value is an end of the text. -/
theorem suffix_of_read (fuel : Nat) :
    (∀ {depth text j rest}, readValue fuel depth text = .ok (j, rest) → rest <:+ text) ∧
    (∀ {depth done text j rest}, readItems fuel depth done text = .ok (j, rest) → rest <:+ text) ∧
    (∀ {depth done text j rest}, readMembers fuel depth done text = .ok (j, rest) → rest <:+ text) := by
  induction fuel with
  | zero => exact ⟨nofun, nofun, nofun⟩
  | succ fuel ih =>
    obtain ⟨ihValue, ihItems, ihMembers⟩ := ih
    refine ⟨?value, ?items, ?members⟩
    case value =>
      intro depth text j rest h
      cases text with
      | nil => cases h
      | cons c inside =>
        rcases first_cases c with rfl | hc | hc
        · rw [readValue_mark] at h
          obtain ⟨⟨s, after⟩, hstring, heq⟩ := bind_eq_ok_iff.mp h
          obtain ⟨-, rfl⟩ := Prod.mk.inj (Except.ok.inj heq)
          exact (suffix_of_readString hstring).trans (List.suffix_cons _ _)
        · cases depth with
          | zero =>
            rw [readValue_deep fuel inside hc] at h
            cases h
          | succ depth =>
            rcases hc with rfl | rfl
            · rw [readValue_array] at h
              exact (suffix_of_afterOpening ihItems h).trans (List.suffix_cons _ _)
            · rw [readValue_object] at h
              exact (suffix_of_afterOpening ihMembers h).trans (List.suffix_cons _ _)
        · rw [readValue_scalar hc.1 hc.2.1 hc.2.2] at h
          exact suffix_of_readScalar h
    case items =>
      intro depth done text j rest h
      rw [readItems_succ] at h
      obtain ⟨⟨item, after⟩, hvalue, h⟩ := bind_eq_ok_iff.mp h
      exact (suffix_of_afterItem ihItems h).trans (ihValue hvalue)
    case members =>
      intro depth done text j rest h
      rw [readMembers_succ] at h
      obtain ⟨⟨name, inside⟩, hname, h⟩ := bind_eq_ok_iff.mp h
      obtain ⟨⟨value, after⟩, hvalue, h⟩ := bind_eq_ok_iff.mp h
      exact (((suffix_of_afterItem ihMembers h).trans (ihValue hvalue)).trans (suffix_of_nameAt hname)).trans
        (List.tail_suffix _)

theorem length_le_of_read {fuel depth : Nat} {p : Json × List Char}
    (h : readValue fuel depth text = .ok p) : p.2.length ≤ text.length := by
  obtain ⟨j, rest⟩ := p
  exact ((suffix_of_read fuel).1 h).length_le

/-- A name has at least its opening quote. -/
theorem length_le_of_nameAt {n : String × List Char} (h : nameAt text = .ok n) :
    n.2.length ≤ text.length - 1 := by
  obtain ⟨name, inside⟩ := n
  exact List.length_tail ▸ (suffix_of_nameAt h).length_le

theorem bind_congr_ok {α β : Type} {x : Except ReadFault α} {f g : α → Except ReadFault β}
    (h : ∀ a, x = .ok a → f a = g a) : x.bind f = x.bind g := by
  cases x with
  | error => rfl
  | ok a => exact h a rfl

/-- Readings with enough fuel agree. -/
theorem read_congr (fuel fuel' : Nat) :
    (∀ depth text, 2 * text.length + 1 ≤ fuel → 2 * text.length + 1 ≤ fuel' →
      readValue fuel depth text = readValue fuel' depth text) ∧
    (∀ depth done text, 2 * text.length + 2 ≤ fuel → 2 * text.length + 2 ≤ fuel' →
      readItems fuel depth done text = readItems fuel' depth done text) ∧
    (∀ depth done text, 2 * text.length + 2 ≤ fuel → 2 * text.length + 2 ≤ fuel' →
      readMembers fuel depth done text = readMembers fuel' depth done text) := by
  induction fuel generalizing fuel' with
  | zero => exact ⟨fun _ _ h => by omega, fun _ _ _ h => by omega, fun _ _ _ h => by omega⟩
  | succ fuel ih =>
    cases fuel' with
    | zero => exact ⟨fun _ _ _ h => by omega, fun _ _ _ _ h => by omega, fun _ _ _ _ h => by omega⟩
    | succ fuel' =>
      obtain ⟨ihValue, ihItems, ihMembers⟩ := ih fuel'
      refine ⟨?value, ?items, ?members⟩
      case value =>
        intro depth text h h'
        cases text with
        | nil => rfl
        | cons c inside =>
          rw [List.length_cons] at h h'
          have hblanks := (suffix_skipBlanks inside).length_le
          rcases first_cases c with rfl | hc | hc
          · rw [readValue_mark, readValue_mark]
          · cases depth with
            | zero => rw [readValue_deep fuel inside hc, readValue_deep fuel' inside hc]
            | succ depth =>
              rcases hc with rfl | rfl
              · rw [readValue_array, readValue_array, afterOpening, afterOpening,
                  ihItems depth [] (skipBlanks inside) (by omega) (by omega)]
              · rw [readValue_object, readValue_object, afterOpening, afterOpening,
                  ihMembers depth [] (skipBlanks inside) (by omega) (by omega)]
          · rw [readValue_scalar hc.1 hc.2.1 hc.2.2, readValue_scalar hc.1 hc.2.1 hc.2.2]
      case items =>
        intro depth done text h h'
        rw [readItems_succ, readItems_succ, ihValue depth text (by omega) (by omega)]
        refine bind_congr_ok fun p hvalue => afterItem_congr fun tail htail => ?_
        have hlength := length_le_of_read hvalue
        exact ihItems depth _ tail (by omega) (by omega)
      case members =>
        intro depth done text h h'
        rw [readMembers_succ, readMembers_succ]
        refine bind_congr_ok fun n hname => ?_
        have hlength := length_le_of_nameAt hname
        rw [ihValue depth n.2 (by omega) (by omega)]
        refine bind_congr_ok fun p hvalue => afterItem_congr fun tail htail => ?_
        have hlength' := length_le_of_read hvalue
        exact ihMembers depth _ tail (by omega) (by omega)

/-! ### Reading without fuel -/

/-- Reads a value. -/
def valueAt (depth : Nat) (text : List Char) : Except ReadFault (Json × List Char) :=
  readValue (2 * text.length + 1) depth text

/-- Reads the items of an array from the next one on. -/
def itemsAt (depth : Nat) (done : List Json) (text : List Char) : Except ReadFault (Json × List Char) :=
  readItems (2 * text.length + 2) depth done text

/-- Reads the members of an object from the next one on. -/
def membersAt (depth : Nat) (done : List (String × Json)) (text : List Char) :
    Except ReadFault (Json × List Char) :=
  readMembers (2 * text.length + 2) depth done text

section Equations

variable (depth : Nat) (inside text : List Char)

theorem valueAt_array : valueAt (depth + 1) ('[' :: inside) =
    afterOpening ']' (.array []) (itemsAt depth []) inside := by
  have hblanks := (suffix_skipBlanks inside).length_le
  rw [valueAt, readValue_array, afterOpening, afterOpening, itemsAt]
  rw [(read_congr _ _).2.1 depth [] (skipBlanks inside) (by rw [List.length_cons]; omega) (Nat.le_refl _)]

theorem valueAt_object : valueAt (depth + 1) ('\x7b' :: inside) =
    afterOpening '\x7d' (.object []) (membersAt depth []) inside := by
  have hblanks := (suffix_skipBlanks inside).length_le
  rw [valueAt, readValue_object, afterOpening, afterOpening, membersAt]
  rw [(read_congr _ _).2.2 depth [] (skipBlanks inside) (by rw [List.length_cons]; omega) (Nat.le_refl _)]

theorem itemsAt_eq (done : List Json) : itemsAt depth done text = (valueAt depth text).bind fun p =>
    afterItem ']' (.array (p.1 :: done).reverse) (itemsAt depth (p.1 :: done)) p.2 := by
  rw [itemsAt, readItems_succ]
  refine bind_congr_ok fun p hvalue => afterItem_congr fun tail htail => ?_
  have hlength := length_le_of_read hvalue
  exact (read_congr _ _).2.1 depth _ tail (by omega) (Nat.le_refl _)

theorem membersAt_eq (done : List (String × Json)) : membersAt depth done text =
    (nameAt text).bind fun n => (valueAt depth n.2).bind fun p =>
      afterItem '\x7d' (.object (putPair done n.1 p.1)) (membersAt depth (putPair done n.1 p.1)) p.2 := by
  rw [membersAt, readMembers_succ]
  refine bind_congr_ok fun n hname => ?_
  have hlength := length_le_of_nameAt hname
  rw [valueAt, (read_congr _ _).1 depth n.2 (by omega) (Nat.le_refl _)]
  refine bind_congr_ok fun p hvalue => afterItem_congr fun tail htail => ?_
  have hlength' := length_le_of_read hvalue
  exact (read_congr _ _).2.2 depth _ tail (by omega) (Nat.le_refl _)

/-- A whole text is read from its first character that is no white space. -/
theorem readStart_eq (h : text.head? ≠ some '\ufeff') :
    readStart text = valueAt nestingLimit (skipBlanks text) := by
  have hblanks := (suffix_skipBlanks text).length_le
  unfold readStart
  split
  · next rest => exact absurd rfl h
  · exact (read_congr _ _).1 nestingLimit (skipBlanks text) (by omega) (Nat.le_refl _)

end Equations

end Coach.Json
