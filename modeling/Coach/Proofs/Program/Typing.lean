import Coach.Program.Execution
import Coach.Proofs.Program.Characters
import Mathlib

/-!
# Variables and their types

Every variable holds a value of the type that it was declared with, wherever a run has come to: within a
statement, behind one that has failed half way, and at the end.

## Main definitions

* `Machine.WellTyped`: every variable holds a value of its type
* `Machine.Passes`: the machines that a statement passes through
* `Machine.Reached`: the machines that a run of a body comes to

## Main statements

* `Machine.WellTyped.execute`: a statement keeps every variable to its type
* `Machine.assign_self`: storing back what a variable holds changes no variable
* `Machine.variables_have_their_kinds`: every variable, on every machine that is reached

## Design notes

A machine is answered also when a statement fails, so that one statement about `execute` covers the half of
a declaration that was run.  `Passes` adds the machines in between, one for each declarator or conversion.
-/

namespace Coach.Program

open Coach.Text Coach.Source

/-! ### Pairs and tokens -/

/-- Setting a key to what it is set to changes nothing. -/
theorem putPair_eq_self {α : Type} {pairs : List (String × α)} {key : String} {value : α}
    (h : lookupPair pairs key = some value) : putPair pairs key value = pairs := by
  induction pairs with
  | nil => cases h
  | cons p rest ih =>
    rw [lookupPair] at h
    rw [putPair]
    split at h
    · next hp => rw [if_pos hp, ← Option.some.inj h]
    · next hp => rw [if_neg hp, ih h]

theorem ne_nil_of_nextWord? {text word after : List Char} (h : nextWord? text = some (word, after)) :
    word ≠ [] := by
  unfold nextWord? at h
  split at h
  · cases h
  · obtain ⟨rfl, -⟩ := Prod.mk.inj (Option.some.inj h)
    exact List.cons_ne_nil _ _

theorem Input.ne_nil_of_token? {i j : Input} {token : List Char} (h : i.token? = (some token, j)) :
    token ≠ [] := by
  have hfirst : ∀ lines : List (List Char), (firstToken? lines).1 = some token → token ≠ [] := by
    intro lines
    induction lines with
    | nil => nofun
    | cons line rest ih =>
      intro hline
      simp only [firstToken?] at hline
      split at hline
      · next word after hword => exact Option.some.inj hline ▸ ne_nil_of_nextWord? hword
      · exact ih hline
  simp only [token?] at h
  split at h
  · exact hfirst _ (congrArg Prod.fst h)
  · split at h
    · next word after hword =>
      obtain ⟨hword', -⟩ := Prod.mk.inj h
      exact Option.some.inj hword' ▸ ne_nil_of_nextWord? hword
    · exact hfirst _ (congrArg Prod.fst h)

/-! ### Machines -/

namespace Machine

variable {m m' : Machine}

/-- Every variable holds a value of its type. -/
def WellTyped (m : Machine) : Prop := ∀ name v, m.lookup? name = some v → v.value.HasKind v.kind

namespace WellTyped

theorem empty (dialect : Dialect) (input : Input) : WellTyped { dialect, input } := nofun

theorem read (h : m.WellTyped) (name : String) : Ensures Value.IsSingle (m.read name) := by
  unfold Machine.read
  split
  · exact Ensures.error _
  · next v hv =>
    split
    · exact Ensures.error _
    · exact Ensures.ok (h name v hv).isSingle

theorem declare (h : m.WellTyped) (name : String) {kind : Kind} {value : Value}
    (hvalue : value.HasKind kind) : (m.declare name kind value).WellTyped := by
  intro other v hv
  by_cases hother : other = name
  · subst hother
    rw [lookup?_declare_self] at hv
    exact Option.some.inj hv ▸ hvalue
  · rw [lookup?_declare_of_ne _ _ _ hother] at hv
    exact h other v hv

theorem assign (h : m.WellTyped) {name : String} {value : Value} (hvalue : value.IsSingle)
    (hassign : m.assign name value = .ok m') : m'.WellTyped := by
  obtain ⟨v, stored, -, -, hstored, rfl⟩ := assign_eq_ok hassign
  exact h.declare name (hasKind_of_coerce v.kind hvalue stored hstored)

/-- An attempt that fails leaves the machine as it is. -/
theorem andThen {α : Type} {P : α → Prop} {attempt : Except Fault α} {next : α → Machine × Ending}
    (h : m.WellTyped) (hattempt : Ensures P attempt) (hnext : ∀ a, P a → (next a).1.WellTyped) :
    (m.andThen attempt next).1.WellTyped := by
  cases attempt with
  | error why => exact h
  | ok a => exact hnext a (hattempt a rfl)

theorem andThen_any {α : Type} {attempt : Except Fault α} {next : α → Machine × Ending}
    (h : m.WellTyped) (hnext : ∀ a, (next a).1.WellTyped) : (m.andThen attempt next).1.WellTyped :=
  h.andThen (P := fun _ => True) (fun _ _ => trivial) fun a _ => hnext a

theorem declareAll (h : m.WellTyped) (kind : Kind) (parts : List (List Char)) :
    (declareAll kind m parts).1.WellTyped := by
  induction parts generalizing m with
  | nil => exact h
  | cons part rest ih =>
    simp only [Machine.declareAll]
    split
    · exact h
    · next d _ =>
      refine h.andThen (P := fun r => r.1.IsSingle) ?_ ?_
      · cases d.value with
        | none => exact Ensures.ok (by dsimp only; split <;> trivial)
        | some text => exact evaluate_isSingle h.read text
      · rintro ⟨v, input⟩ hv
        have hmoved : { m with input }.WellTyped := h
        refine hmoved.andThen (hasKind_of_coerce kind hv) fun stored hstored => ?_
        exact ih (hmoved.declare d.name hstored)

theorem scanned_isSingle {kind : ScanKind} {token : List Char} (htoken : token ≠ [])
    {attempt : Except Fault Value} (h : scanned kind token = some attempt) :
    Ensures Value.IsSingle attempt := by
  cases kind with
  | integer =>
    obtain ⟨n, -, rfl⟩ := Option.map_eq_some_iff.mp h
    exact Ensures.map_any Value.isSingle_int
  | real =>
    obtain ⟨x, -, rfl⟩ := Option.map_eq_some_iff.mp h
    exact Ensures.ok (Value.isSingle_float x)
  | character =>
    obtain ⟨c, rest, rfl⟩ := List.exists_cons_of_ne_nil htoken
    exact Option.some.inj h ▸ Ensures.ok (Value.isSingle_char c.toNat)
  | word => exact Option.some.inj h ▸ Ensures.ok (Value.isSingle_str _)

theorem scanAll (h : m.WellTyped) (conversions : List (ScanKind × String)) :
    (scanAll m conversions).1.WellTyped := by
  induction conversions generalizing m with
  | nil => exact h
  | cons conversion rest ih =>
    obtain ⟨kind, name⟩ := conversion
    simp only [Machine.scanAll]
    split
    · exact h
    · split
      · exact h
      · next token input htoken =>
        have hmoved : { m with input }.WellTyped := h
        split
        · exact hmoved
        · next attempt hattempt =>
          refine hmoved.andThen (scanned_isSingle (Input.ne_nil_of_token? htoken) hattempt) fun v hv => ?_
          refine hmoved.andThen (P := WellTyped) (fun m' hm' => hmoved.assign hv hm') fun m' hm' => ?_
          exact ih hm'

/-- A statement keeps every variable to its type, whether it comes to its end or not. -/
theorem execute (h : m.WellTyped) (statement : Statement) : (m.execute statement).1.WellTyped := by
  have hevaluate := evaluate_isSingle h.read
  cases statement with
  | control => exact h
  | print kind args =>
    exact h.andThen_any fun ⟨values, input⟩ => h.andThen_any fun text => h
  | puts arg => exact h.andThen_any fun ⟨v, input⟩ => h.andThen_any fun text => h
  | scanf format targets =>
    simp only [Machine.execute]
    split
    · exact h
    · split
      · exact h
      · exact h.scanAll _
  | scanner name => exact h.declare name rfl
  | leave value =>
    simp only [Machine.execute]
    split
    · exact h
    · exact h.andThen_any fun code => h
  | exit code => exact h.andThen_any fun code => h
  | declaration kind parts => exact h.declareAll kind parts
  | step name up =>
    refine h.andThen_any fun v => ?_
    refine h.andThen (Value.ensures_binary _ v (.int 1)) fun v hv => ?_
    exact h.andThen (P := WellTyped) (fun m' hm' => h.assign hv hm') fun m' hm' => hm'
  | assignment name op value =>
    refine h.andThen (hevaluate value) ?_
    rintro ⟨v, input⟩ hv
    have hmoved : { m with input }.WellTyped := h
    refine h.andThen (P := Value.IsSingle) ?_ fun v hv => ?_
    · cases op with
      | none => exact Ensures.ok hv
      | some op => exact Ensures.bind_any fun old => Value.ensures_binary op old v
    · exact h.andThen (P := WellTyped) (fun m' hm' => hmoved.assign hv hm') fun m' hm' => hm'
  | expression text => exact h.andThen_any fun ⟨v, input⟩ => h

theorem runPiece (h : m.WellTyped) (piece : Piece) : (m.runPiece piece).1.WellTyped := by
  cases piece with
  | compound text => exact h
  | plain text =>
    have hafter := h.execute (Statement.ofText text)
    simp only [Machine.runPiece]
    generalize m.execute (Statement.ofText text) = r at hafter
    obtain ⟨after, ending⟩ := r
    cases ending with
    | normal => exact hafter
    | exit code => exact hafter
    | fault why => cases why <;> exact hafter

theorem runPieces (h : m.WellTyped) (rest : List Piece) : (m.runPieces rest).1.WellTyped := by
  induction rest generalizing m with
  | nil => exact h
  | cons piece rest ih =>
    have hpiece := h.runPiece piece
    simp only [Machine.runPieces]
    generalize m.runPiece piece = r at hpiece
    obtain ⟨after, ending⟩ := r
    cases ending with
    | normal => exact ih hpiece
    | _ => exact hpiece

end WellTyped

/-! ### Machines that are reached -/

/-- The machines that a statement passes through: declarators and conversions leave one each. -/
inductive Passes (m : Machine) : Statement → Machine → Prop
  | start (statement : Statement) : Passes m statement m
  | declarators (kind : Kind) (parts : List (List Char)) (n : Nat) :
    Passes m (.declaration kind parts) (declareAll kind m (parts.take n)).1
  | conversions (format targets : List Char) (n : Nat) :
    Passes m (.scanf format targets) (scanAll m
      (((scanConversions (plainChars (unescape (format.drop 1).dropLast))).zip
        (scanTargets targets)).take n)).1
  | finish (statement : Statement) : Passes m statement (m.execute statement).1

/-- The machines that a run of a body comes to, between its pieces and within them. -/
inductive Reached (dialect : Dialect) (stdin : List String) (body : List Char) : Machine → Prop
  | between {before after : List Piece} : pieces body = before ++ after →
    Reached dialect stdin body
      (({ dialect, input := Input.ofValues stdin } : Machine).runPieces before).1
  | within {before after : List Piece} {text : List Char} {n m : Machine} :
    pieces body = before ++ .plain text :: after →
    ({ dialect, input := Input.ofValues stdin } : Machine).runPieces before = (n, .normal) →
    n.Passes (Statement.ofText text) m → Reached dialect stdin body m

theorem WellTyped.of_passes {statement : Statement} (h : m.WellTyped) (hpasses : m.Passes statement m') :
    m'.WellTyped := by
  cases hpasses with
  | start => exact h
  | declarators kind parts n => exact h.declareAll kind _
  | conversions format targets n => exact h.scanAll _
  | finish => exact h.execute statement

theorem WellTyped.of_reached {dialect : Dialect} {stdin : List String} {body : List Char}
    (h : Reached dialect stdin body m) : m.WellTyped := by
  have hstart : ∀ before,
      (({ dialect, input := Input.ofValues stdin } : Machine).runPieces before).1.WellTyped :=
    (WellTyped.empty dialect _).runPieces
  cases h with
  | between _ => exact hstart _
  | @within before _ _ n _ _ hrun hpasses =>
    have hn := hstart before
    rw [hrun] at hn
    exact hn.of_passes hpasses

/-- What is known already is not made known again. -/
theorem know_of_known {name : String} (h : m.isUnknown name = false) : m.know name = m := by
  have hunknown : m.unknown.filter (· ≠ name) = m.unknown := by
    refine List.filter_eq_self.mpr fun other hother => decide_eq_true ?_
    rintro rfl
    rw [isUnknown, List.contains_iff_mem.mpr hother] at h
    cases h
  rw [know, hunknown]

/-- What a variable holds can be stored back, and no variable changes. -/
theorem assign_self (h : m.WellTyped) {name : String} {v : Variable} (hv : m.lookup? name = some v)
    (hkind : v.kind ≠ .scanner) : m.assign name v.value = .ok (m.know name) := by
  have hbound : putPair m.bound name v = m.bound := putPair_eq_self hv
  have hdeclare : m.declare name v.kind v.value = m := by
    cases m
    simp only [declare, mk.injEq, true_and, and_true] at hbound ⊢
    exact hbound
  simp only [assign, hv, if_neg hkind, coerce_of_hasKind hkind (h name v hv), bind, Except.bind, hdeclare]
  rfl

/-- **Variables always hold a value of their type.**  On every machine that a run of a body comes to, each
variable holds a value of its declared type.  Conversion for a type leaves the values of the type as they
are, so that storing back what a variable holds changes no variable, and nothing at all when the variable is
known. -/
theorem variables_have_their_kinds {dialect : Dialect} {stdin : List String} {body : List Char}
    (h : Reached dialect stdin body m) :
    (∀ name v, m.lookup? name = some v → v.value.HasKind v.kind) ∧
      (∀ kind, kind ≠ .scanner → ∀ value : Value, value.HasKind kind → coerce kind value = .ok value) ∧
      ∀ name v, m.lookup? name = some v → v.kind ≠ .scanner →
        m.assign name v.value = .ok (m.know name) ∧ (m.isUnknown name = false → m.know name = m) := by
  have htyped := WellTyped.of_reached h
  exact ⟨htyped, fun kind hkind value hvalue => coerce_of_hasKind hkind hvalue,
    fun name v hv hkind => ⟨assign_self htyped hv hkind, know_of_known⟩⟩

set_option maxRecDepth 10000 in
theorem ofText_wrapped_byte : Statement.ofText "byte b = 200, a[3]".toList =
    .declaration .byte ["b = 200".toList, "a[3]".toList] := by cbv

/-- A declaration that fails behind a byte that has wrapped. -/
theorem variables_have_their_kinds_half_declaration :
    let m : Machine := { dialect := .c, input := Input.ofValues [] }
    let reached := (m.execute (Statement.ofText "byte b = 200, a[3]".toList)).1
    Reached .c [] "byte b = 200, a[3];".toList reached ∧
      reached.lookup? "b" = some ⟨.byte, .int (-56)⟩ ∧
      (∀ name v, reached.lookup? name = some v → v.value.HasKind v.kind) ∧
      (∀ kind, kind ≠ .scanner → ∀ value : Value, value.HasKind kind → coerce kind value = .ok value) ∧
      ∀ name v, reached.lookup? name = some v → v.kind ≠ .scanner →
        reached.assign name v.value = .ok (reached.know name) ∧
          (reached.isUnknown name = false → reached.know name = reached) := by
  intro m reached
  have hpieces : pieces "byte b = 200, a[3];".toList = [] ++ .plain "byte b = 200, a[3]".toList :: [] := by
    cbv
  have hreached : Reached .c [] "byte b = 200, a[3];".toList reached :=
    .within hpieces rfl (.finish _)
  have hvalue : reached.lookup? "b" = some ⟨.byte, .int (-56)⟩ := by
    have hfirst : Declarator.ofText? "b = 200".toList = some ⟨"b", some "200".toList⟩ := by cbv
    have hsecond : Declarator.ofText? "a[3]".toList = none := by cbv
    have h200 : evaluate m "200".toList = .ok (.int 200, m.input) := by cbv
    simp only [reached, ofText_wrapped_byte, execute, declareAll, hfirst, hsecond, h200]
    rfl
  exact ⟨hreached, hvalue, variables_have_their_kinds hreached⟩

end Machine

end Coach.Program
