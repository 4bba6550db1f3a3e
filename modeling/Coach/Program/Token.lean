import Coach.Program.Value

/-!
# Tokens of expressions

An expression is cut into numbers, string and character literals, names and operators; white space
between them is dropped. Of several readings the longest of the first kind that fits is taken, in the
order of the constructors.

## Main definitions

* `Token`
* `takeToken?`: the token at the beginning of a text
* `tokens`: all tokens of a text
* `numberValue`: the value of a number token
-/

namespace Coach.Program

open Coach.Text

/-- A token. Literals are held without their quotes, numbers as written. -/
inductive Token where
  | number (text : List Char)
  | string (body : List Char)
  | char (body : List Char)
  | name (s : String)
  | op (symbol : String)
  deriving DecidableEq, Repr

/-! ### Numbers -/

/-- One of some characters, if the text begins with one. -/
def takeOneOf (chars : String) : List Char → List Char × List Char
  | [] => ([], [])
  | c :: rest => if chars.toList.contains c then ([c], rest) else ([], c :: rest)

/-- A run of decimal digits. -/
def takeDigits (text : List Char) : List Char × List Char :=
  (text.takeWhile isDecimal, text.dropWhile isDecimal)

/-- An exponent with at least one digit, if the text begins with one. -/
def takeExponent (text : List Char) : List Char × List Char :=
  let (mark, rest) := takeOneOf "eE" text
  let (sign, rest) := takeOneOf "+-" rest
  let (digits, rest) := takeDigits rest
  if mark.isEmpty || digits.isEmpty then ([], text) else (mark ++ sign ++ digits, rest)

/-- The length of a hexadecimal number that the text begins with, with its suffix. -/
def hexLength? : List Char → Option Nat
  | '0' :: x :: rest =>
    let digits := rest.takeWhile isHexDigit
    if (x = 'x' || x = 'X') && !digits.isEmpty then
      some (2 + digits.length + (takeOneOf "lL" (rest.dropWhile isHexDigit)).1.length)
    else none
  | _ => none

/-- The length of a decimal number that the text begins with: with a point, an exponent or neither,
and with its suffix. -/
def decimalLength? (text : List Char) : Option Nat :=
  let (whole, rest) := takeDigits text
  let withPoint : Option (Nat × List Char) := match rest with
    | '.' :: tail =>
      let (places, tail) := takeDigits tail
      if whole.isEmpty && places.isEmpty then none
      else some (whole.length + 1 + places.length, tail)
    | _ => none
  match withPoint with
  | some (n, tail) =>
    let (power, tail) := takeExponent tail
    some (n + power.length + (takeOneOf "fFdD" tail).1.length)
  | none =>
    if whole.isEmpty then none
    else
      let (power, tail) := takeExponent rest
      if power.isEmpty then some (whole.length + (takeOneOf "fFdDlL" rest).1.length)
      else some (whole.length + power.length + (takeOneOf "fFdD" tail).1.length)

/-- The length of a number that the text begins with. -/
def numberLength? (text : List Char) : Option Nat :=
  match hexLength? text with
  | some n => some n
  | none => decimalLength? text

/-- The integer that hexadecimal digits stand for. -/
def ofHexDigits (digits : List Char) : Nat := digits.foldl (fun n c => 16 * n + hexValue c) 0

/-- An integer of decimal digits, unless there are too many. -/
def decimalInt (digits : List Char) : Except Fault Int :=
  match readInt digits with
  | .ok n => .ok n
  | .error _ => pastLimit .tooManyDigits

/-- Whether a letter marks a number as a double. -/
def isDoubleMark (c : Char) : Bool := c == 'f' || c == 'd'

/-- The value of a number token: hexadecimal and long integers, doubles by their point, exponent or
suffix, and integers. -/
def numberValue (text : List Char) : Except Fault Value :=
  let lowered := text.map Char.toLower
  match lowered with
  | '0' :: 'x' :: digits => .ok (.int (ofHexDigits (dropRightWhile (· == 'l') digits)))
  | _ =>
    if lowered.getLast? = some 'l' then (decimalInt lowered.dropLast).map .int
    else if (lowered.getLast?.elim false isDoubleMark) || lowered.contains '.' ||
        lowered.contains 'e' then
      .ok (.float ((readFloat? (dropRightWhile isDoubleMark lowered)).getD 0))
    else (decimalInt lowered).map .int

/-! ### Literals and names -/

/-- The body of a literal behind its opening quote, if it closes on its line, and the rest. A backslash
takes the next character along. -/
def takeBody? (quote : Char) : List Char → Option (List Char × List Char)
  | [] => none
  | [c] => if c = quote then some ([], []) else none
  | c :: d :: rest =>
    if c = quote then some ([], d :: rest)
    else if c = '\n' then none
    else if c = '\\' then
      if d = '\n' then none
      else (takeBody? quote rest).map fun (body, after) => (c :: d :: body, after)
    else (takeBody? quote (d :: rest)).map fun (body, after) => (c :: body, after)

/-- A character that a name can begin with. -/
def isNameStart (c : Char) : Bool :=
  (c.toNat < 0x80 && c.isAlpha) || c == '_' || c == '$'

/-- A character that a name can go on with. -/
def isNamePart (c : Char) : Bool := isWord c || c == '$'

/-- The operators of two characters, which go before those of one. -/
def longOperators : List String :=
  ["++", "--", "&&", "||", "==", "!=", "<=", ">=", "<<", ">>"]

/-- The operators of one character. -/
def shortOperators : String := "-+*/%<>!()?:,.&|^~[]"

/-- The operator that a text begins with. -/
def operator? (text : List Char) : Option String :=
  match longOperators.find? fun symbol => startsWith text symbol.toList with
  | some symbol => some symbol
  | none => match text with
    | [] => none
    | c :: _ => if shortOperators.toList.contains c then some (String.singleton c) else none

/-! ### Cutting a text -/

/-- The token that a text begins with, and the rest. -/
def takeToken? (text : List Char) : Option (Token × List Char) :=
  match text with
  | [] => none
  | c :: rest =>
    match numberLength? text with
    | some n => some (.number (text.take n), text.drop (max n 1))
    | none =>
      if c = '"' then (takeBody? '"' rest).map fun (body, after) => (.string body, after)
      else if c = '\'' then
        match takeBody? '\'' rest with
        | some (b :: body, after) => some (.char (b :: body), after)
        | _ => none
      else if isNameStart c then
        some (.name (String.ofList (c :: rest.takeWhile isNamePart)), rest.dropWhile isNamePart)
      else match operator? text with
        | some symbol => some (.op symbol, rest.drop (symbol.length - 1))
        | none => none

theorem length_of_takeBody? {quote : Char} {text body after : List Char}
    (h : takeBody? quote text = some (body, after)) : after.length ≤ text.length := by
  fun_induction takeBody? quote text generalizing body after with
  | case1 => simp at h
  | case2 => simp_all
  | case3 => simp_all
  | case4 => simp_all
  | case5 => simp_all
  | case6 => simp_all
  | case7 d rest _ _ _ ih =>
    obtain ⟨⟨b, a⟩, ha, hb⟩ := Option.map_eq_some_iff.1 h
    have := ih ha
    simp only [Prod.mk.injEq] at hb
    simp only [List.length_cons]
    rw [← hb.2]
    omega
  | case8 c d rest _ _ _ ih =>
    obtain ⟨⟨b, a⟩, ha, hb⟩ := Option.map_eq_some_iff.1 h
    have := ih ha
    simp only [Prod.mk.injEq] at hb
    simp only [List.length_cons] at this ⊢
    rw [← hb.2]
    omega

theorem length_of_takeToken? {text after : List Char} {t : Token}
    (h : takeToken? text = some (t, after)) : after.length < text.length := by
  unfold takeToken? at h
  split at h
  · simp at h
  · next c rest =>
    split at h
    · next n _ =>
      simp only [Option.some.injEq, Prod.mk.injEq] at h
      rw [← h.2, List.length_drop]
      simp only [List.length_cons]
      omega
    · split at h
      · obtain ⟨⟨b, a⟩, ha, hb⟩ := Option.map_eq_some_iff.1 h
        have := length_of_takeBody? ha
        simp only [Prod.mk.injEq] at hb
        rw [← hb.2]
        simp only [List.length_cons]
        omega
      · split at h
        · split at h
          · next b body a ha =>
            have := length_of_takeBody? ha
            simp only [Option.some.injEq, Prod.mk.injEq] at h
            rw [← h.2]
            simp only [List.length_cons]
            omega
          · simp at h
        · split at h
          · simp only [Option.some.injEq, Prod.mk.injEq] at h
            rw [← h.2]
            have := (List.dropWhile_suffix isNamePart (l := rest)).length_le
            simp only [List.length_cons]
            omega
          · split at h
            · simp only [Option.some.injEq, Prod.mk.injEq] at h
              rw [← h.2, List.length_drop]
              simp only [List.length_cons]
              omega
            · simp at h

theorem length_stripLeft_le (text : List Char) : (stripLeft text).length ≤ text.length :=
  (List.dropWhile_suffix isSpace).length_le

/-- The tokens of a text that does not end with white space; nothing when some character begins
none. -/
def tokensFrom (text : List Char) : Option (List Token) :=
  if text.isEmpty then some []
  else match _h : takeToken? (stripLeft text) with
    | none => none
    | some (t, after) => (tokensFrom after).map (t :: ·)
termination_by text.length
decreasing_by
  have h₁ := length_of_takeToken? _h
  have h₂ := length_stripLeft_le text
  omega

/-- The tokens of a text. -/
def tokens (text : List Char) : Except Fault (List Token) :=
  match tokensFrom (stripRight text) with
  | some ts => .ok ts
  | none => unsupported .badToken

end Coach.Program
