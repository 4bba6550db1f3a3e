import Coach.Json.Reader

/-!
# Names that are read

No object that is read has a name twice, however often it stands in the text: of two members of one
name the later value takes the place of the earlier.

## Main statements

* `nodup_names_of_read`: the names of an object that was read
-/

namespace Coach.Json

open Coach.Text

variable {fuel depth : Nat} {text rest : List Char}

theorem exists_object_of_readMembers {done : List (String × Json)} {j : Json}
    (hdone : (done.map (·.1)).Nodup) (h : readMembers fuel depth done text = .ok (j, rest)) :
    ∃ members, j = .object members ∧ (members.map (·.1)).Nodup := by
  induction fuel generalizing done text with
  | zero => rw [readMembers] at h; cases h
  | succ fuel ih =>
    unfold readMembers at h
    split at h
    · next inside =>
      obtain ⟨name, text, hname⟩ : ∃ name text,
          readString (inside.length + 1) (inside.length + 1) [] inside = .ok (name, text) := by
        cases hstring : readString (inside.length + 1) (inside.length + 1) [] inside with
        | error fault => rw [hstring] at h; cases h
        | ok found => exact ⟨found.1, found.2, rfl⟩
      rw [hname] at h
      dsimp only [bind, Except.bind] at h
      split at h
      · next behind _ =>
        cases hvalue : readValue fuel depth (skipBlanks behind) with
        | error fault => rw [hvalue] at h; cases h
        | ok found =>
          rw [hvalue] at h
          dsimp only at h
          have hput := nodup_keys_putPair name found.1 hdone
          split at h
          · cases h
            exact ⟨_, rfl, hput⟩
          · exact ih hput h
          · cases h
      · cases h
    · cases h

theorem exists_array_of_readItems {done : List Json} {j : Json}
    (h : readItems fuel depth done text = .ok (j, rest)) : ∃ items, j = .array items := by
  induction fuel generalizing done text with
  | zero => rw [readItems] at h; cases h
  | succ fuel ih =>
    unfold readItems at h
    cases hvalue : readValue fuel depth text with
    | error fault => rw [hvalue] at h; cases h
    | ok found =>
      rw [hvalue] at h
      dsimp only [bind, Except.bind] at h
      split at h
      · cases h
        exact ⟨_, rfl⟩
      · exact ih h
      · cases h

theorem exists_number_of_readNumber {j : Json} (h : readNumber text = .ok (j, rest)) :
    ∃ n, j = .number n := by
  unfold readNumber stop at h
  repeat' split at h
  all_goals first
    | exact ⟨_, (Prod.ext_iff.mp (Except.ok.inj h)).1.symm⟩
    | cases h

theorem readScalar_ne_object {members : List (String × Json)} :
    readScalar text ≠ .ok (.object members, rest) := by
  intro h
  unfold readScalar at h
  repeat' split at h
  case h_2 =>
    obtain ⟨n, hn⟩ := exists_number_of_readNumber h
    cases hn
  all_goals cases h

theorem nodup_names_of_readValue {members : List (String × Json)}
    (h : readValue fuel depth text = .ok (.object members, rest)) : (members.map (·.1)).Nodup := by
  cases fuel with
  | zero => rw [readValue] at h; cases h
  | succ fuel =>
    cases text with
    | nil => rw [readValue] at h; cases h
    | cons c text =>
      unfold readValue at h
      split at h
      · cases hstring : readString (text.length + 1) (text.length + 1) [] text with
        | error fault => rw [hstring] at h; cases h
        | ok found => rw [hstring] at h; cases h
      split at h
      · split at h
        · cases h
        split at h
        · split at h
          · cases h
          · obtain ⟨items, hitems⟩ := exists_array_of_readItems h
            cases hitems
        · split at h
          · cases h
            exact List.nodup_nil
          · obtain ⟨found, hfound, hnodup⟩ := exists_object_of_readMembers (by exact List.nodup_nil) h
            cases hfound
            exact hnodup
      · exact absurd h readScalar_ne_object

/-- An object that was read has every name once. -/
theorem nodup_names_of_read {members : List (String × Json)}
    (h : Json.read text = .ok (.object members)) : (members.map (·.1)).Nodup := by
  unfold Json.read at h
  cases hstart : readStart text with
  | error fault => rw [hstart] at h; cases h
  | ok found =>
    rw [hstart] at h
    obtain ⟨j, left⟩ := found
    dsimp only at h
    split at h
    · cases h
      unfold readStart at hstart
      split at hstart
      · cases hstart
      · exact nodup_names_of_readValue hstart
    · cases h

end Coach.Json
