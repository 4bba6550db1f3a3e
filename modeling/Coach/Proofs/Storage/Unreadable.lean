import Coach.Proofs.Json.Limits
import Coach.Proofs.Storage.FileStore

/-!
# Files that break a store

A text in a file is read, or it is refused for its form and counts for an empty store; or the reader comes
to one of its limits in it.  In the last case no call gets an answer, and as no call writes the file either,
none ever will.

## Main statements

* `isDecided_iff`: the texts in which the reader comes to no limit
* `load_of_pastLimits`: the others are not loaded
* `runCalls_answers_iff`: the files over which a store answers
-/

namespace Coach.Storage

open Coach.Files Coach.Service

variable {path : String} {t : Tree} {text : String} {fault : Fault}

/-! ### One call -/

/-- A text is read or refused for its form exactly if the reader comes to no limit in it. -/
theorem isDecided_iff : IsDecided text ↔ ¬ Json.PastLimits text.toList := by
  constructor
  · rintro hdecided hpast
    rcases Json.read_of_pastLimits hpast with ⟨count, hread⟩ | hread <;>
      rcases hdecided with ⟨j, hj⟩ | ⟨_, _, _, _, hj⟩ <;> cases hread.symm.trans hj
  · intro hnot
    obtain ⟨j, hread⟩ | ⟨_, ⟨cause, line, column, offset, rfl⟩, hread⟩ := Json.read_of_not_pastLimits hnot
    · exact .inl ⟨j, hread⟩
    · exact .inr ⟨cause, line, column, offset, hread⟩

/-- A text in which the reader comes to a limit is not taken for an empty store. -/
theorem load_of_pastLimits (hread : t.read? path = some text) (h : Json.PastLimits text.toList) :
    ∃ fault, (fault.kind = .value ∨ fault.kind = .nesting) ∧ load path t = .error fault := by
  rw [load, hread]
  obtain ⟨count, hfault⟩ | hfault := Json.read_of_pastLimits h
  · refine ⟨{ kind := .value, message := tooManyDigitsMessage count }, .inl rfl, ?_⟩
    simp only [entriesOf, hfault]
  · refine ⟨{ kind := .nesting, message := Json.Fault.tooDeep.message }, .inr rfl, ?_⟩
    simp only [entriesOf, hfault]

/-- What is not loaded is not written either. -/
theorem call_of_load_error (hload : load path t = .error fault) (call : Call) :
    call.run (fileStore path) t = (.error fault, t) := by
  cases call <;> simp only [Call.run, fileStore, hload] <;> rfl

/-! ### Any calls -/

/-- Over a file that is not loaded every call fails, and nothing is written. -/
theorem runCalls_of_load_error (hload : load path t = .error fault) {calls : List (String × Call)}
    (hpaths : ∀ c ∈ calls, t.key c.1 = t.key path) :
    runCalls fileStore calls t = (calls.map fun _ => .error fault, t) := by
  induction calls with
  | nil => rfl
  | cons c rest ih =>
    obtain ⟨hc, hrest⟩ := List.forall_mem_cons.mp hpaths
    have hcall := call_of_load_error ((load_of_key_eq hc).trans hload) c.2
    simp only [runCalls, hcall, ih hrest, List.map_cons]

/-- **A store in a file answers exactly if the reader comes to no limit in the text of the file.**  Then it
answers like a list of the entries in the file, which is empty if there is no object in it.  Else every
call fails, and the file stays as it is. -/
theorem runCalls_answers_iff {calls : List (String × Call)} (hread : t.read? path = some text)
    (hfree : t.isFree path = true) (hpaths : ∀ c ∈ calls, t.key c.1 = t.key path) :
    ((∀ fault, .error fault ∉ (runCalls fileStore calls t).1) ↔
        calls = [] ∨ ¬ Json.PastLimits text.toList) ∧
      (¬ Json.PastLimits text.toList → (runCalls fileStore calls t).1 =
        (runCalls (fun _ => memory) calls (entriesIn (some text))).1) ∧
      (Json.PastLimits text.toList → ∃ fault, (fault.kind = .value ∨ fault.kind = .nesting) ∧
        runCalls fileStore calls t = (calls.map fun _ => .error fault, t)) := by
  have hpast : Json.PastLimits text.toList → ∃ fault, (fault.kind = .value ∨ fault.kind = .nesting) ∧
      runCalls fileStore calls t = (calls.map fun _ => .error fault, t) := fun h => by
    obtain ⟨fault, hkind, hload⟩ := load_of_pastLimits hread h
    exact ⟨fault, hkind, runCalls_of_load_error hload hpaths⟩
  have hloads : ¬ Json.PastLimits text.toList → Loads path t (entriesIn (some text)) := fun h => by
    rw [← hread]
    refine loads_entriesIn fun text' htext' => ?_
    obtain rfl := Option.some.inj (hread.symm.trans htext')
    exact isDecided_iff.mpr h
  refine ⟨⟨fun hanswers => ?_, ?_⟩, fun h => ?_, hpast⟩
  · by_contra hnot
    obtain ⟨hne, hpastLimits⟩ := not_or.mp hnot
    obtain ⟨c, rest, rfl⟩ := List.exists_cons_of_ne_nil hne
    obtain ⟨fault, -, hrun⟩ := hpast (not_not.mp hpastLimits)
    exact hanswers fault (hrun ▸ List.mem_cons_self)
  · rintro (rfl | h) fault
    · exact List.not_mem_nil
    · exact (hloads h).not_error hfree hpaths fault
  · exact ((hloads h).runCalls hpaths fun fault hfault =>
      absurd hfault ((hloads h).not_error hfree hpaths fault)).1

/-- A file with a broken object is an empty store, by whichever of its names it is called. -/
theorem runCalls_answers_iff_broken_object :
    let t : Tree := { home := "/h", files := [("s.json", "\x7b\"a\": ")] }
    let calls : List (String × Call) :=
      [("s.json", .get "a"), ("./s.json", .set "b" "y"), ("/h/s.json", .get "b")]
    (∀ fault, .error fault ∉ (runCalls fileStore calls t).1) ∧
      (runCalls fileStore calls t).1 =
        (runCalls (fun _ => memory) calls (entriesIn (some "\x7b\"a\": "))).1 := by
  intro t calls
  have hread : t.read? "s.json" = some "\x7b\"a\": " := by decide
  have hfree : t.isFree "s.json" = true := by decide
  have hpaths : ∀ c ∈ calls, t.key c.1 = t.key "s.json" := by decide
  have hnot : ¬ Json.PastLimits ("\x7b\"a\": " : String).toList :=
    isDecided_iff.mp (.inr ⟨.expectedValue, 1, 7, 6, rfl⟩)
  clear_value t calls
  obtain ⟨hiff, hlike, -⟩ := runCalls_answers_iff hread hfree hpaths
  exact ⟨hiff.mpr (.inr hnot), hlike hnot⟩

theorem load_ones {count : Nat} (h : digitLimit < count)
    (hraw : t.raw? path = some (String.ofList (List.replicate count '1'))) :
    load path t = .error { kind := .value, message := tooManyDigitsMessage count } := by
  have hplain : plainNewlines (List.replicate count '1') = List.replicate count '1' :=
    plainNewlines_of_notMem fun hmem => by cases List.eq_of_mem_replicate hmem
  rw [load, Tree.read?, hraw, Option.map_some, String.toList_ofList, hplain]
  simp only [entriesOf, String.toList_ofList, Json.read_tooManyDigits_iff.mpr (Json.exceeds_ones h)]

/-- A file that holds an integer of 4301 digits is no empty store: looking for a key fails. -/
theorem get_of_long_integer :
    let t : Tree := { home := "/h", files := [("s.json", String.ofList (List.replicate 4301 '1'))] }
    t.isFree "s.json" = true ∧ (Call.get "a").run (fileStore "s.json") t =
      (.error { kind := .value, message := tooManyDigitsMessage 4301 }, t) := by
  have hstored : ∀ text : String, Tree.isFree { home := "/h", files := [("s.json", text)] } "s.json" = true ∧
      Tree.raw? { home := "/h", files := [("s.json", text)] } "s.json" = some text := fun text => by
    have hempty : Tree.key { home := "/h" } "s.json" = "s.json" := by decide
    have hkey : Tree.key { home := "/h", files := [("s.json", text)] } "s.json" =
        Tree.key { home := "/h" } "s.json" := key_eq_of_here_eq (by rfl) "s.json"
    rw [Tree.isFree, Tree.isFolder, Tree.raw?, hkey, hempty]
    exact ⟨rfl, rfl⟩
  obtain ⟨hfree, hraw⟩ := hstored (String.ofList (List.replicate 4301 '1'))
  exact ⟨hfree, call_of_load_error (load_ones (by decide) hraw) _⟩

end Coach.Storage
