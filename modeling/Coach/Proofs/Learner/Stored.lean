import Coach.Learner.History
import Coach.Learner.Mistakes
import Coach.Proofs.Json.RoundTrip

/-!
# What is stored of a learner is read back

The text that is written for counts or for records is read back as what it was written for.  The
layouts and the checks of the readers never stand in the way; what may are the limits of their leaves:
an integer has at most `digitLimit` digits, and a point in time has to be one that is read back itself.

## Main definitions

* `Tally.Storable`, `RunRecord.Storable`: the leaves are within these limits

## Main statements

* `mistakesOf?_line`: counts
* `recordsOf?_textOfRecords`: records
-/

namespace Coach.Schema.Checked

variable {α β : Type}

@[simp] theorem map_valid (f : α → β) (a : α) : f <$> valid a = valid (f a) := rfl

@[simp] theorem seq_valid (f : α → β) (a : α) : valid f <*> valid a = valid (f a) := rfl

@[simp] theorem under_valid (key : String) (a : α) : (valid a).under key = valid a := rfl

end Coach.Schema.Checked

namespace Coach.Schema

theorem integerFrom_int {least n : Int} (h : least ≤ n) :
    integerFrom least integer (.int n) = .valid n := if_pos h

/-- Items that are read one by one are read together. -/
theorem listOf_map {α : Type} {r : Reader α} {json : α → Json} {items : List α}
    (h : ∀ a ∈ items, r (json a) = .valid a) :
    listOf none r (.array (items.map json)) = .valid items := by
  have hitems : ∀ position, readItems r position (items.map json) = .valid items := by
    induction items with
    | nil => exact fun _ => rfl
    | cons a rest ih =>
      intro position
      have hrest := ih fun b hb => h b (List.mem_cons_of_mem _ hb)
      rw [List.map_cons, readItems, h a List.mem_cons_self, hrest]
      rfl
  exact hitems 0

/-- What is written for a value or for its absence. -/
theorem optional_map {α : Type} {r : Reader α} {json : α → Json} (x : Option α)
    (h : ∀ a, r (json a) = .valid a) (hnull : ∀ a, json a ≠ .null) :
    optional r (.optional (x.map json)) = .valid x := by
  cases x with
  | none => rfl
  | some a =>
    rw [Option.map_some, Json.optional, Option.getD_some, optional, h]
    · rfl
    · exact hnull a

end Coach.Schema

namespace Coach.Learner

open Coach.Execution Coach.Finding Coach.Schema Coach.Storage Coach.Time

/-! ### Counts -/

/-- A tally that is read back, if it counts anything. -/
structure Tally.Storable (t : Tally) : Prop where
  count_digits : (natDigits t.count).length ≤ digitLimit
  lastSeen : Stamp.ofText? t.lastSeen.text.toList = some t.lastSeen

/-- A tally as it is stored. -/
def Tally.json (t : Tally) : Json :=
  .object [("count", .int t.count), ("last_seen", .string t.lastSeen.text)]

theorem readTally_json {t : Tally} (hpos : 1 ≤ t.count) (h : t.Storable) :
    readTally t.json = .valid t := by
  have hcount : integerFrom 1 integer (.int t.count) = .valid (t.count : Int) :=
    integerFrom_int (Int.ofNat_le.mpr hpos)
  have hlast : stamp (.string t.lastSeen.text) = .valid t.lastSeen := by
    rw [stamp, h.lastSeen, stampOf]
  simp [readTally, Tally.json, fields, required, lookupAny, lookupPair, hcount, hlast]

theorem readTallies_map {m : Mistakes} (hpos : ∀ p ∈ m, 1 ≤ p.2.count)
    (h : ∀ p ∈ m, p.2.Storable) : readTallies (m.map fun p => (p.1, p.2.json)) = .valid m := by
  induction m with
  | nil => rfl
  | cons p rest ih =>
    have hfirst := readTally_json (hpos p List.mem_cons_self) (h p List.mem_cons_self)
    have hrest := ih (fun q hq => hpos q (List.mem_cons_of_mem _ hq))
      fun q hq => h q (List.mem_cons_of_mem _ hq)
    rw [List.map_cons, readTallies, hfirst, hrest]
    rfl

theorem plain_json {m : Mistakes} (hkeys : (m.map (·.1)).Nodup) (h : ∀ p ∈ m, p.2.Storable) :
    Json.Plain Json.nestingLimit m.json := by
  refine Json.Plain.object 989 _ (by rwa [List.map_map]) fun member hmember => ?_
  obtain ⟨p, hp, rfl⟩ := List.mem_map.mp hmember
  have hnames : ["count", "last_seen"].Nodup := by decide
  refine Json.Plain.object 988 _ hnames fun leaf hleaf => ?_
  obtain rfl | rfl : leaf = _ ∨ leaf = _ := by simpa using hleaf
  · exact Json.Plain.int 988 _ (h p hp).count_digits
  · exact Json.Plain.string 988 _

/-- A text that has a beginning is not empty. -/
theorem isEmpty_write (s : Json.Style) {j : Json} {c : Char} {tail : List Char}
    (h : Json.writeAt s 0 j = c :: tail) : (j.write s).isEmpty = false := by
  rw [Json.write, h]
  simp

/-- Counts are read back from the text that is written for them. -/
theorem mistakesOf?_line {m : Mistakes} (hkeys : (m.map (·.1)).Nodup)
    (hpos : ∀ p ∈ m, 1 ≤ p.2.count) (h : ∀ p ∈ m, p.2.Storable) :
    mistakesOf? m.json.line = some m := by
  have hplain := plain_json hkeys h
  obtain ⟨c, tail, hopen, -⟩ := hplain.exists_opens (s := Json.lineStyle) 0
  have hread : Json.read m.json.line.toList = .ok m.json :=
    Json.read_write Json.blank_lineStyle hplain
  have hempty : m.json.line.isEmpty = false := isEmpty_write _ hopen
  rw [mistakesOf?, hempty, if_neg (by decide), hread]
  exact congrArg Checked.toOption (readTallies_map hpos h)

/-! ### Records -/

/-- A record that is read back. -/
structure RunRecord.Storable (r : RunRecord) : Prop where
  time : Stamp.ofText? r.time.zuluText.toList = some r.time
  lines : ∀ d ∈ r.diagnostics, (natDigits d.line).length ≤ digitLimit

theorem readDiagnostic_diagnosticJson (d : Diagnostic) :
    RunRecord.readDiagnostic (RunRecord.diagnosticJson d) = .valid d := by
  have hline : integerFrom 0 integer (.int d.line) = .valid (d.line : Int) :=
    integerFrom_int (Int.natCast_nonneg d.line)
  have hseverity : oneOf Severity.ofName? (.string d.severity.name) = .valid d.severity := by
    rw [oneOf, Severity.ofName?_name]
  have hcategory : oneOf Category.ofName? (.string d.category.name) = .valid d.category := by
    rw [oneOf, Category.ofName?_name]
  simp [RunRecord.readDiagnostic, RunRecord.diagnosticJson, fields, required, withDefault,
    lookupAny, lookupPair, hline, hseverity, hcategory, text]

theorem read_json {r : RunRecord} (h : r.Storable) : RunRecord.read r.json = .valid r := by
  have htime : stamp (.string r.time.zuluText) = .valid r.time := by
    rw [stamp, h.time, stampOf]
  have hstatus : oneOf RunStatus.ofName? (.string r.status.name) = .valid r.status := by
    rw [oneOf, RunStatus.ofName?_name]
  have htext : ∀ s, text (.string s) = .valid s := fun _ => rfl
  have hstdout := optional_map r.stdout htext nofun
  have herror := optional_map r.compilerError htext nofun
  have hdiagnostics : listOf none RunRecord.readDiagnostic
      (.array (r.diagnostics.map RunRecord.diagnosticJson)) = .valid r.diagnostics :=
    listOf_map fun d _ => readDiagnostic_diagnosticJson d
  simp [RunRecord.read, RunRecord.json, fields, required, withDefault, lookupAny, lookupPair,
    htime, hstatus, htext, hstdout, herror, hdiagnostics]

theorem plain_diagnosticJson {d : Diagnostic} (h : (natDigits d.line).length ≤ digitLimit) (depth : Nat) :
    Json.Plain (depth + 1) (RunRecord.diagnosticJson d) := by
  have hnames : ["line", "message", "severity", "category"].Nodup := by decide
  refine Json.Plain.object depth _ hnames fun leaf hleaf => ?_
  obtain rfl | rfl | rfl | rfl : leaf = _ ∨ leaf = _ ∨ leaf = _ ∨ leaf = _ := by simpa using hleaf
  · exact Json.Plain.int depth _ h
  all_goals exact Json.Plain.string depth _

theorem plain_optional (depth : Nat) (x : Option String) :
    Json.Plain depth (.optional (x.map .string)) := by
  cases x with
  | none => exact Json.Plain.null depth
  | some s => exact Json.Plain.string depth s

theorem RunRecord.Storable.plain {r : RunRecord} (h : r.Storable) (depth : Nat) :
    Json.Plain (depth + 3) r.json := by
  have hnames : ["id", "timestamp", "status", "source_text", "stdout", "compiler_error",
      "diagnostics"].Nodup := by decide
  refine Json.Plain.object (depth + 2) _ hnames fun leaf hleaf => ?_
  obtain rfl | rfl | rfl | rfl | rfl | rfl | rfl : leaf = _ ∨ leaf = _ ∨ leaf = _ ∨ leaf = _ ∨
      leaf = _ ∨ leaf = _ ∨ leaf = _ := by simpa using hleaf
  case inr.inr.inr.inr.inl => exact plain_optional _ _
  case inr.inr.inr.inr.inr.inl => exact plain_optional _ _
  case inr.inr.inr.inr.inr.inr =>
    refine Json.Plain.array (depth + 1) _ fun j hj => ?_
    obtain ⟨d, hd, rfl⟩ := List.mem_map.mp hj
    exact plain_diagnosticJson (h.lines d hd) depth
  all_goals exact Json.Plain.string _ _

/-- Records are read back from the text that is written for them. -/
theorem recordsOf?_textOfRecords {records : List RunRecord} (h : ∀ r ∈ records, r.Storable) :
    recordsOf? (textOfRecords records) = some records := by
  have hplain : Json.Plain Json.nestingLimit (.array (records.map RunRecord.json)) := by
    refine Json.Plain.array 989 _ fun j hj => ?_
    obtain ⟨r, hr, rfl⟩ := List.mem_map.mp hj
    exact (h r hr).plain 986
  obtain ⟨c, tail, hopen, -⟩ := hplain.exists_opens (s := Json.compactStyle) 0
  have hread : Json.read (textOfRecords records).toList = .ok (.array (records.map RunRecord.json)) :=
    Json.read_write Json.blank_compactStyle hplain
  have hempty : (textOfRecords records).isEmpty = false := isEmpty_write _ hopen
  rw [recordsOf?, hempty, if_neg (by decide), hread]
  exact congrArg Checked.toOption (listOf_map fun r hr => read_json (h r hr))

end Coach.Learner
