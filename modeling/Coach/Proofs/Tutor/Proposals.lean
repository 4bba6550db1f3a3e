import Coach.Tutor.Explainer

/-!
# Proposed changes and what becomes of them

An explanation proposes a change in one of three places: a full program, a list of patches, a single
patch.  Whether it proposes one is asked of all three, while the change is taken from the first that is
there at all.  The two agree but for an empty list of patches in front of a single patch: a change is
proposed, and nothing is attempted.

## Main definitions

* `Explanation.HidesPatch`: an empty list of patches stands before a single one

## Main statements

* `attempts_apply`: how many replacements a proposed change attempts
* `hasFix_iff_attempts_iff`: when a change is proposed exactly if one is attempted
* `hasFix_of_hidden_patch`: a reply with a change that is not attempted
-/

namespace Coach

open Schema Source

/-! ### What is attempted -/

namespace Source

/-- The number of replacements that were tried. -/
def PatchResult.attempts (r : PatchResult) : Nat := r.applied + r.skipped

/-- Each patch is applied or skipped. -/
theorem attempts_applyFrom (boundary : Option Int) (r : PatchResult) (patches : List Patch) :
    (applyFrom boundary r patches).attempts = r.attempts + patches.length := by
  induction patches generalizing boundary r with
  | nil => rfl
  | cons p rest ih =>
    have hskip : ({ r with skipped := r.skipped + 1 } : PatchResult).attempts = r.attempts + 1 := rfl
    rw [applyFrom]
    split
    · rw [ih, hskip, List.length_cons]
      omega
    · split
      · rw [ih, hskip, List.length_cons]
        omega
      · rw [ih, List.length_cons]
        simp only [PatchResult.attempts]
        omega

theorem attempts_applyPatches (d : Document) (patches : List Patch) :
    (d.applyPatches patches).attempts = patches.length := by
  have h := attempts_applyFrom none { document := d } (patches.mergeSort Patch.goesBefore)
  rw [List.length_mergeSort] at h
  exact h.trans (Nat.zero_add _)

/-- The first proposal that is there is attempted, patch by patch. -/
theorem attempts_apply (d : Document) (spec : PatchSpec) :
    (d.apply spec).attempts =
      match spec.fullText, spec.patches, spec.single with
      | some _, _, _ => 1
      | none, some patches, _ => patches.length
      | none, none, some _ => 1
      | none, none, none => 0 := by
  obtain ⟨fullText, patches, single⟩ := spec
  cases fullText with
  | some text => rfl
  | none =>
    cases patches with
    | some patches => exact attempts_applyPatches d patches
    | none =>
      cases single with
      | some p => exact attempts_applyPatches d [p]
      | none => rfl

end Source

namespace Schema

variable {α β : Type}

theorem Checked.map_eq_valid {f : α → β} {x : Checked α} {b : β} (h : f <$> x = .valid b) :
    ∃ a, x = .valid a ∧ f a = b := by
  cases x with
  | valid a => exact ⟨a, rfl, Checked.valid.inj h⟩
  | invalid issues => cases h

theorem Checked.seq_eq_valid {f : Checked (α → β)} {x : Checked α} {b : β} (h : f <*> x = .valid b) :
    ∃ g a, f = .valid g ∧ x = .valid a ∧ g a = b := by
  cases f with
  | valid g =>
    cases x with
    | valid a => exact ⟨g, a, rfl, rfl, Checked.valid.inj h⟩
    | invalid issues => cases h
  | invalid issues => cases x <;> cases h

/-- A member that may be missing is its default, or it has been read. -/
theorem withDefault_eq_valid {members : List (String × Json)} {key : String} {default a : α}
    {r : Reader α} (h : withDefault members key default r = .valid a) :
    a = default ∨ ∃ j, r j = .valid a := by
  unfold withDefault at h
  split at h
  · next j _ =>
    cases hread : r j with
    | valid a' =>
      rw [hread] at h
      cases h
      exact Or.inr ⟨j, hread⟩
    | invalid issues =>
      rw [hread] at h
      cases h
  · cases h
    exact Or.inl rfl

end Schema

namespace Tutor

open Execution Model Service

namespace Explanation

/-- An empty list of patches stands before a single patch. -/
def HidesPatch (e : Explanation) : Prop :=
  e.correctedCode = none ∧ e.patches = some [] ∧ e.patch.isSome = true

/-- A program that is proposed says something. -/
def SaysSomething (e : Explanation) : Prop := e.correctedCode ≠ some ""

/-- A change is proposed exactly if one is attempted, unless a patch is hidden. -/
theorem hasFix_iff_attempts (e : Explanation) (hcode : e.SaysSomething) (d : Document) :
    (e.hasFix = true ↔ 1 ≤ (d.apply e.patchSpec).attempts) ↔ ¬ e.HidesPatch := by
  rw [attempts_apply]
  unfold hasFix patchSpec HidesPatch
  dsimp only
  cases hfull : e.correctedCode with
  | some code =>
    have hne : code ≠ "" := fun h => hcode (hfull.trans (congrArg some h))
    simp [hne]
  | none =>
    cases e.patches with
    | none => cases e.patch <;> simp
    | some patches =>
      cases patches with
      | nil => cases e.patch <;> simp
      | cons p patches => simp

end Explanation

/-! ### Which explanations there are -/

theorem correctedCode_explainFinding {d : Document} {found : Finding.Diagnostic} {e : Explanation}
    (h : explainFinding d found = .ok e) : e.correctedCode = none := by
  unfold explainFinding at h
  cases hpatch : proposePatch d found with
  | error fault =>
    rw [hpatch] at h
    cases h
  | ok patch =>
    rw [hpatch] at h
    cases h
    rfl

/-- Without a model no program is proposed. -/
theorem correctedCode_explainOffline {d : Document} {result : RunResult} {e : Explanation}
    (h : explainOffline d result = .ok e) : e.correctedCode = none := by
  unfold explainOffline at h
  split at h
  · next m _ =>
    cases hline : readInt (m.group 1) with
    | error fault =>
      rw [hline] at h
      cases h
    | ok line =>
      rw [hline] at h
      cases h
      rfl
  · split at h
    · exact correctedCode_explainFinding h
    · split at h <;> cases h <;> rfl

/-- What is read as a program says something. -/
theorem readProgram_ne_empty {j : Json} {code : Option String} (h : readProgram j = .valid code) :
    code ≠ some "" := by
  rintro rfl
  cases j with
  | string s =>
    simp only [readProgram] at h
    split at h
    · cases h
    · next hblank =>
      -- the text that was read is the text that is not blank
      refine hblank ?_
      simp only [textAtMost, Schema.text, Checked.andThen] at h
      split at h
      · cases h
      · cases h
        rfl
  | null => cases h
  | bool b => cases h
  | number n => cases h
  | array items => cases h
  | object members => cases h

namespace Explanation

/-- A reply proposes no empty program. -/
theorem saysSomething_of_readExplanation {j : Json} {e : Explanation}
    (h : readExplanation j = .valid e) : e.SaysSomething := by
  cases j with
  | object members =>
    simp only [readExplanation, fields] at h
    -- the members are peeled off from the last to the program
    obtain ⟨_, _, h₈, -, rfl⟩ := Checked.seq_eq_valid h
    obtain ⟨_, _, h₇, -, rfl⟩ := Checked.seq_eq_valid h₈
    obtain ⟨_, _, h₆, -, rfl⟩ := Checked.seq_eq_valid h₇
    obtain ⟨_, _, h₅, -, rfl⟩ := Checked.seq_eq_valid h₆
    obtain ⟨_, _, h₄, -, rfl⟩ := Checked.seq_eq_valid h₅
    obtain ⟨_, code, h₃, hcode, rfl⟩ := Checked.seq_eq_valid h₄
    obtain ⟨_, _, h₂, -, rfl⟩ := Checked.seq_eq_valid h₃
    obtain ⟨_, _, h₁, -, rfl⟩ := Checked.seq_eq_valid h₂
    obtain ⟨_, -, rfl⟩ := Checked.map_eq_valid h₁
    change code ≠ some ""
    rcases withDefault_eq_valid hcode with rfl | ⟨j, hread⟩
    · nofun
    · exact readProgram_ne_empty hread
  | _ => cases h

theorem saysSomething_of_offline {code : String} {result : RunResult} {e : Explanation}
    (h : offline code result = .ok e) : e.SaysSomething := by
  unfold offline at h
  split at h
  · next e' he =>
    cases h
    rw [SaysSomething, correctedCode_explainOffline he]
    nofun
  · cases h

/-- The explanation of a run proposes no empty program, whoever wrote it. -/
theorem saysSomething_of_explain {σ : Type} {model : Option (Model σ)} {code : String}
    {result : RunResult} {s s' : σ} {e : Explanation}
    (h : explain model code result s = (.ok e, s')) : e.SaysSomething := by
  unfold explain at h
  split at h
  · cases h
  · split at h
    · exact saysSomething_of_offline (congrArg Prod.fst h)
    · next model =>
      have hanswer : explanationOf code result (model { messages := explainMessages code result } s).1 =
          .ok e := congrArg Prod.fst h
      unfold explanationOf at hanswer
      split at hanswer
      · split at hanswer
        · next he =>
          cases hanswer
          exact saysSomething_of_readExplanation he
        · exact saysSomething_of_offline hanswer
      · split at hanswer
        · exact saysSomething_of_offline hanswer
        · cases hanswer

end Explanation

/-! ### The whole -/

/-- **When a proposed change is attempted.**  The explanation of a run says that it proposes a change
exactly if applying its change attempts a replacement, unless an empty list of patches stands before
a single patch; the change is then proposed and not attempted. -/
theorem explain_hasFix_iff {σ : Type} {model : Option (Model σ)} {code : String} {result : RunResult}
    {s s' : σ} {e : Explanation} (h : explain model code result s = (.ok e, s')) (d : Document) :
    (e.hasFix = true ↔ 1 ≤ (d.apply e.patchSpec).applied + (d.apply e.patchSpec).skipped) ↔
      ¬ e.HidesPatch :=
  e.hasFix_iff_attempts (Explanation.saysSomething_of_explain h) d

/-- A model that answers the same reply to everything. -/
def answering (reply : Json) : Model Unit := fun _ s => (.ok reply, s)

/-- A reply with patches, one of which is skipped. -/
theorem explain_hasFix_iff_two_patches :
    let reply : Json := .object [("summary", .string "Two lines."),
      ("minimal_fix_patches", .array [
        .object [("line_start", .int 1), ("line_end", .int 1), ("replacement", .string "b")],
        .object [("line_start", .int 7), ("line_end", .int 7), ("replacement", .string "c")]])]
    let result : RunResult := { output := "", exitCode := 0, classification := .success }
    let d := Document.ofText "a"
    ∃ e, explain (some (answering reply)) "a" result () = (.ok e, ()) ∧
      ((e.hasFix = true ↔ 1 ≤ (d.apply e.patchSpec).applied + (d.apply e.patchSpec).skipped) ↔
        ¬ e.HidesPatch) := by
  intro reply result d
  have h : ∃ e, explain (some (answering reply)) "a" result () = (.ok e, ()) := ⟨_, rfl⟩
  obtain ⟨e, he⟩ := h
  exact ⟨e, he, explain_hasFix_iff he d⟩

/-- A reply whose patch stands behind an empty list proposes a change, and nothing is attempted. -/
theorem hasFix_of_hidden_patch :
    let reply : Json := .object [("summary", .string "One line."),
      ("minimal_fix_patches", .array []),
      ("minimal_fix_patch",
        .object [("line_start", .int 1), ("line_end", .int 1), ("replacement", .string "b")])]
    let result : RunResult := { output := "", exitCode := 0, classification := .success }
    let d := Document.ofText "a"
    ∃ e, explain (some (answering reply)) "a" result () = (.ok e, ()) ∧ e.hasFix = true ∧
      (d.apply e.patchSpec).applied + (d.apply e.patchSpec).skipped = 0 := by
  intro reply result d
  exact ⟨_, rfl, rfl, attempts_apply d _⟩

end Tutor

end Coach
