import Coach.Program.Execution

/-!
# What a statement may change

The execution of a statement moves the machine by small changes: a variable is written, or the input
moves on.  A statement that prints or declares a scanner does that last, and only when nothing fails.
What a statement leaves alone is read off from the changes.

## Main definitions

* `Statement.targets`: the names that a statement stores to or declares
* `Machine.HasVariable`: a variable of a name, other than a scanner
* `Machine.Write`: a store to one variable or a declaration of it
* `Machine.SameVariable`: a variable that two machines know alike
* `Machine.Changes`: changes one after another, to variables of a list only
* `Machine.Execution`: the changes of one statement and its ending

## Design notes

Failure in the middle of a statement leaves a prefix of its changes, so `Changes` is closed under
composition and says nothing about how far a statement has come.
-/

namespace Coach.Program

open Coach.Text Coach.Source

namespace Statement

/-- The names that a statement stores to or declares. -/
def targets : Statement → List String
  | .scanf _ targets => scanTargets targets
  | .scanner name => [name]
  | .declaration _ parts => parts.filterMap fun part => (Declarator.ofText? part).map (·.name)
  | .step name _ => [name]
  | .assignment name _ _ => [name]
  | _ => []

end Statement

namespace Machine

/-- The machine has a variable of a name, and it is no scanner. -/
def HasVariable (m : Machine) (name : String) : Prop :=
  ∃ v, m.lookup? name = some v ∧ v.kind ≠ .scanner

/-- A store to a variable, or a declaration of it. -/
inductive Write (name : String) : Machine → Machine → Prop
  | store {m m' : Machine} {value : Value} : m.assign name value = .ok m' → Write name m m'
  | declaration (m : Machine) {kind : Kind} (value : Value) :
    kind ≠ .scanner → Write name m ((m.declare name kind value).know name)

/-- Changes one after another, of which each writes to a variable of a list or moves the input on. -/
inductive Changes (targets : List String) : Machine → Machine → Prop
  | refl (m : Machine) : Changes targets m m
  | write {name : String} {m m' : Machine} : name ∈ targets → Write name m m' → Changes targets m m'
  | input (m : Machine) (input : Input) : Changes targets m { m with input }
  | trans {m m' m'' : Machine} : Changes targets m m' → Changes targets m' m'' → Changes targets m m''

/-! ### One name written -/

namespace Write

variable {name other : String} {m m' : Machine}

/-- A store is a declaration with the type that the variable has. -/
theorem eq_declare (h : Write name m m') :
    ∃ kind value, kind ≠ .scanner ∧ m' = (m.declare name kind value).know name := by
  cases h with
  | store h =>
    obtain ⟨v, stored, -, hkind, -, rfl⟩ := assign_eq_ok h
    exact ⟨v.kind, stored, hkind, rfl⟩
  | declaration value hkind => exact ⟨_, value, hkind, rfl⟩

theorem isUnknown_of_ne (h : Write name m m') (hne : other ≠ name) :
    m'.isUnknown other = m.isUnknown other := by
  obtain ⟨kind, value, -, rfl⟩ := h.eq_declare
  rw [isUnknown_know_of_ne _ hne, isUnknown_declare]

theorem lookup?_of_ne (h : Write name m m') (hne : other ≠ name) :
    m'.lookup? other = m.lookup? other := by
  obtain ⟨kind, value, -, rfl⟩ := h.eq_declare
  rw [lookup?_know, lookup?_declare_of_ne _ _ _ hne]

theorem hasVariable_self (h : Write name m m') : m'.HasVariable name := by
  obtain ⟨kind, value, hkind, rfl⟩ := h.eq_declare
  exact ⟨_, lookup?_declare_self m name kind value, hkind⟩

end Write

/-! ### One name left alone -/

/-- Two machines have the same variable of a name, known to both or to neither. -/
def SameVariable (m m' : Machine) (name : String) : Prop :=
  m'.lookup? name = m.lookup? name ∧ m'.isUnknown name = m.isUnknown name

namespace SameVariable

variable {m m' m'' : Machine} {name : String}

theorem refl (m : Machine) (name : String) : m.SameVariable m name := ⟨rfl, rfl⟩

theorem trans (h₁ : m.SameVariable m' name) (h₂ : m'.SameVariable m'' name) :
    m.SameVariable m'' name := ⟨h₂.1.trans h₁.1, h₂.2.trans h₁.2⟩

theorem of_write {other : String} (h : Write other m m') (hne : name ≠ other) :
    m.SameVariable m' name := ⟨h.lookup?_of_ne hne, h.isUnknown_of_ne hne⟩

/-- An attempt that fails changes nothing. -/
theorem andThen {α : Type} {attempt : Except Fault α} {next : α → Machine × Ending}
    (h : ∀ a, attempt = .ok a → m.SameVariable (next a).1 name) :
    m.SameVariable (m.andThen attempt next).1 name := by
  cases attempt with
  | error why => exact refl m name
  | ok a => exact h a rfl

end SameVariable

/-! ### Many changes -/

namespace Changes

variable {targets : List String} {m m' : Machine} {name : String}

theorem output_eq (h : Changes targets m m') : m'.output = m.output := by
  induction h with
  | write _ hwrite => obtain ⟨kind, value, -, rfl⟩ := hwrite.eq_declare; rfl
  | trans _ _ ih₁ ih₂ => rw [ih₂, ih₁]
  | _ => rfl

theorem executed_eq (h : Changes targets m m') : m'.executed = m.executed := by
  induction h with
  | write _ hwrite => obtain ⟨kind, value, -, rfl⟩ := hwrite.eq_declare; rfl
  | trans _ _ ih₁ ih₂ => rw [ih₂, ih₁]
  | _ => rfl

theorem skipped_eq (h : Changes targets m m') : m'.skipped = m.skipped := by
  induction h with
  | write _ hwrite => obtain ⟨kind, value, -, rfl⟩ := hwrite.eq_declare; rfl
  | trans _ _ ih₁ ih₂ => rw [ih₂, ih₁]
  | _ => rfl

theorem inputUnknown_eq (h : Changes targets m m') : m'.inputUnknown = m.inputUnknown := by
  induction h with
  | write _ hwrite => obtain ⟨kind, value, -, rfl⟩ := hwrite.eq_declare; rfl
  | trans _ _ ih₁ ih₂ => rw [ih₂, ih₁]
  | _ => rfl

theorem sameVariable_of_notMem (h : Changes targets m m') (hname : name ∉ targets) :
    m.SameVariable m' name := by
  induction h with
  | write hmem hwrite => exact .of_write hwrite fun heq => hname (heq ▸ hmem)
  | trans _ _ ih₁ ih₂ => exact ih₁.trans ih₂
  | _ => exact ⟨rfl, rfl⟩

/-- No change takes a variable away. -/
theorem hasVariable (h : Changes targets m m') (hname : m.HasVariable name) :
    m'.HasVariable name := by
  induction h with
  | @write written _ _ _ hwrite =>
    by_cases hne : name = written
    · exact hne ▸ hwrite.hasVariable_self
    · unfold HasVariable
      rwa [hwrite.lookup?_of_ne hne]
  | trans _ _ ih₁ ih₂ => exact ih₂ (ih₁ hname)
  | _ => exact hname

/-- A variable that has changed is no scanner. -/
theorem sameVariable_or_hasVariable (h : Changes targets m m') (name : String) :
    m.SameVariable m' name ∨ m'.HasVariable name := by
  induction h with
  | @write written _ _ _ hwrite =>
    by_cases hne : name = written
    · exact Or.inr (hne ▸ hwrite.hasVariable_self)
    · exact Or.inl (.of_write hwrite hne)
  | trans _ h₂ ih₁ ih₂ =>
    rcases ih₂ with hsame₂ | hvariable
    · rcases ih₁ with hsame₁ | hvariable
      · exact Or.inl (hsame₁.trans hsame₂)
      · exact Or.inr (h₂.hasVariable hvariable)
    · exact Or.inr hvariable
  | _ => exact Or.inl ⟨rfl, rfl⟩

/-- A name becomes known only by a write to it. -/
theorem exists_write (h : Changes targets m m') (hbefore : m.isUnknown name = true)
    (hafter : m'.isUnknown name = false) :
    name ∈ targets ∧ ∃ n n', Changes targets m n ∧ Write name n n' ∧ Changes targets n' m' := by
  induction h with
  | @write written m m' hmem hwrite =>
    by_cases hne : name = written
    · subst hne
      exact ⟨hmem, m, m', refl m, hwrite, refl m'⟩
    · rw [hwrite.isUnknown_of_ne hne, hbefore] at hafter
      cases hafter
  | @trans m k m' h₁ h₂ ih₁ ih₂ =>
    cases hk : k.isUnknown name with
    | false =>
      obtain ⟨hmem, n, n', hn, hwrite, hn'⟩ := ih₁ hbefore hk
      exact ⟨hmem, n, n', hn, hwrite, hn'.trans h₂⟩
    | true =>
      obtain ⟨hmem, n, n', hn, hwrite, hn'⟩ := ih₂ hk hafter
      exact ⟨hmem, n, n', h₁.trans hn, hwrite, hn'⟩
  | refl | input =>
    exact absurd (hbefore.symm.trans hafter) (by decide)

end Changes

/-- An attempt that fails changes nothing. -/
theorem changes_andThen {α : Type} {targets : List String} (m : Machine) (attempt : Except Fault α)
    (next : α → Machine × Ending) (h : ∀ a, attempt = .ok a → Changes targets m (next a).1) :
    Changes targets m (m.andThen attempt next).1 := by
  cases attempt with
  | error why => exact .refl m
  | ok a => exact h a rfl

/-! ### Statements -/

/-- What one statement does: it makes changes to its targets, or prints, or declares a scanner. -/
inductive Execution (targets : List String) (m : Machine) : Machine × Ending → Prop
  | changes {m' : Machine} (ending : Ending) : Changes targets m m' → Execution targets m (m', ending)
  | printed (input : Input) (text : Str) :
    Execution targets m ({ m with input }.print text, .normal)
  | scanner {name : String} :
    name ∈ targets → Execution targets m (m.declare name .scanner .scanner, .normal)

namespace Execution

variable {targets : List String} {m : Machine} {r : Machine × Ending}

theorem fault (m : Machine) (why : Fault) : Execution targets m (m, .fault why) :=
  changes _ (Changes.refl m)

/-- An attempt that fails changes nothing. -/
theorem andThen {α : Type} {attempt : Except Fault α} {next : α → Machine × Ending}
    (h : ∀ a, attempt = .ok a → Execution targets m (next a)) :
    Execution targets m (m.andThen attempt next) := by
  cases attempt with
  | error why => exact fault m why
  | ok a => exact h a rfl

/-- Behind an ending that is not normal there are changes only. -/
theorem changes_of_ne_normal {m' : Machine} {ending : Ending} (h : Execution targets m (m', ending))
    (hending : ending ≠ .normal) : Changes targets m m' := by
  cases h with
  | changes _ h' => exact h'
  | printed _ _ => exact absurd rfl hending
  | scanner _ => exact absurd rfl hending

theorem inputUnknown_eq (h : Execution targets m r) : r.1.inputUnknown = m.inputUnknown := by
  cases h with
  | changes _ h' => exact h'.inputUnknown_eq
  | printed _ _ => rfl
  | scanner _ => rfl

theorem skipped_eq (h : Execution targets m r) : r.1.skipped = m.skipped := by
  cases h with
  | changes _ h' => exact h'.skipped_eq
  | printed _ _ => rfl
  | scanner _ => rfl

/-- A statement makes a variable known only by a write to it. -/
theorem exists_write {name : String} (h : Execution targets m r) (hbefore : m.isUnknown name = true)
    (hafter : r.1.isUnknown name = false) :
    name ∈ targets ∧ ∃ n n', Changes targets m n ∧ Write name n n' ∧ Changes targets n' r.1 := by
  cases h with
  | changes _ h' => exact h'.exists_write hbefore hafter
  | printed _ _ => exact absurd (hbefore.symm.trans hafter) (by decide)
  | scanner _ => exact absurd (hbefore.symm.trans hafter) (by decide)

end Execution

/-- Declarators write to the names that they declare. -/
theorem declareAll_changes {targets : List String} {kind : Kind} (hkind : kind ≠ .scanner)
    (parts : List (List Char)) (m : Machine)
    (hparts : ∀ part ∈ parts, ∀ d, Declarator.ofText? part = some d → d.name ∈ targets) :
    Changes targets m (declareAll kind m parts).1 := by
  induction parts generalizing m with
  | nil => exact .refl m
  | cons part rest ih =>
    simp only [declareAll]
    cases hd : Declarator.ofText? part with
    | none => exact .refl m
    | some d =>
      have hmem : d.name ∈ targets := hparts part List.mem_cons_self d hd
      refine changes_andThen m _ _ fun ⟨v, i⟩ _ => (Changes.input m i).trans ?_
      refine changes_andThen _ _ _ fun v _ => ?_
      refine (Changes.write hmem (.declaration _ v hkind)).trans ?_
      exact ih _ fun part hpart => hparts part (List.mem_cons_of_mem _ hpart)

/-- Conversions store to their targets. -/
theorem scanAll_changes {targets : List String} (conversions : List (ScanKind × String))
    (m : Machine) (htargets : ∀ c ∈ conversions, c.2 ∈ targets) :
    Changes targets m (scanAll m conversions).1 := by
  induction conversions generalizing m with
  | nil => exact .refl m
  | cons conversion rest ih =>
    obtain ⟨kind, name⟩ := conversion
    simp only [scanAll]
    cases m.lookup? name with
    | none => exact .refl m
    | some _ =>
      dsimp only
      obtain ⟨token, i⟩ := m.input.token?
      cases token with
      | none => exact .input m i
      | some token =>
        refine (Changes.input m i).trans ?_
        dsimp only
        cases scanned kind token with
        | none => exact .refl _
        | some value =>
          have hmem : name ∈ targets := htargets _ List.mem_cons_self
          refine changes_andThen _ _ _ fun v _ => changes_andThen _ _ _ fun m' hassign => ?_
          refine (Changes.write hmem (.store hassign)).trans ?_
          exact ih m' fun c hc => htargets c (List.mem_cons_of_mem _ hc)

/-- A statement makes changes to its targets only.  No statement declares a variable as a scanner but
the one that makes a scanner. -/
theorem execute_changes (m : Machine) (statement : Statement)
    (hkind : ∀ parts, statement ≠ .declaration .scanner parts) :
    Execution statement.targets m (m.execute statement) := by
  cases statement with
  | control => exact .fault m _
  | print kind args =>
    exact Execution.andThen fun ⟨values, i⟩ _ => Execution.andThen fun text _ => .printed i text
  | puts arg =>
    exact Execution.andThen fun ⟨v, i⟩ _ => Execution.andThen fun text _ => .printed i _
  | scanf format targets =>
    simp only [execute]
    split
    · exact .fault m _
    · split
      · exact .fault m _
      · refine .changes _ (scanAll_changes _ m fun c hc => ?_)
        exact (List.of_mem_zip hc).2
  | scanner name => exact .scanner (List.mem_singleton_self name)
  | leave value =>
    simp only [execute]
    split
    · exact .changes _ (.refl m)
    · exact Execution.andThen fun code _ => .changes _ (.refl m)
  | exit code => exact Execution.andThen fun code _ => .changes _ (.refl m)
  | declaration kind parts =>
    have hne : kind ≠ .scanner := by
      rintro rfl
      exact hkind parts rfl
    refine .changes _ (declareAll_changes hne parts m fun part hpart d hd => ?_)
    exact List.mem_filterMap.mpr ⟨part, hpart, by rw [hd]; rfl⟩
  | step name up =>
    refine Execution.andThen fun v _ => Execution.andThen fun v _ => Execution.andThen fun m' h => ?_
    exact .changes _ (.write (List.mem_singleton_self name) (.store h))
  | assignment name op value =>
    refine Execution.andThen fun ⟨v, i⟩ _ => Execution.andThen fun v _ => ?_
    refine Execution.andThen fun m' h => ?_
    refine .changes _ ((Changes.input m i).trans ?_)
    exact .write (List.mem_singleton_self name) (.store h)
  | expression text => exact Execution.andThen fun ⟨v, i⟩ _ => .changes _ (.input m i)

end Machine

end Coach.Program
