/-!
# Labels

A metric is split into series by labels: names with values, in the order of the names.

## Main definitions

* `Labels`, `Labels.ofPairs`
* `adjust`: a change of the entry under a key
-/

namespace Coach.Metrics

/-- Names with their values. -/
abbrev Labels := List (String × String)

namespace Labels

/-- Labels in the order of their names. -/
def ofPairs (pairs : List (String × String)) : Labels :=
  pairs.mergeSort fun a b => decide (a.1 < b.1) || (a.1 == b.1 && decide (a.2 ≤ b.2))

/-- A name with its value. -/
def pairText (p : String × String) : String := p.1 ++ "=\"" ++ p.2 ++ "\""

/-- Labels behind the name of a metric. -/
def text (labels : Labels) : String :=
  if labels.isEmpty then "" else "\x7b" ++ ",".intercalate (labels.map pairText) ++ "\x7d"

/-- The value of a name. -/
def value? (labels : Labels) (name : String) : Option String :=
  (labels.find? (·.1 == name)).map (·.2)

end Labels

/-- Changes the entry under a key, which begins as `fresh` at the end when there is none. -/
def adjust {κ α : Type} [DecidableEq κ] (entries : List (κ × α)) (key : κ) (fresh : α)
    (change : α → α) : List (κ × α) :=
  match entries with
  | [] => [(key, change fresh)]
  | (k, a) :: rest => if k = key then (k, change a) :: rest else (k, a) :: adjust rest key fresh change

/-- The entry under a key. -/
def valueAt? {κ α : Type} [DecidableEq κ] (entries : List (κ × α)) (key : κ) : Option α :=
  match entries with
  | [] => none
  | (k, a) :: rest => if k = key then some a else valueAt? rest key

@[simp] theorem valueAt?_adjust {κ α : Type} [DecidableEq κ] (entries : List (κ × α)) (key : κ)
    (fresh : α) (change : α → α) :
    valueAt? (adjust entries key fresh change) key = some (change ((valueAt? entries key).getD fresh)) := by
  induction entries with
  | nil => simp [adjust, valueAt?]
  | cons p rest ih => by_cases h : p.1 = key <;> simp [adjust, valueAt?, h, ih]

theorem valueAt?_adjust_of_ne {κ α : Type} [DecidableEq κ] (entries : List (κ × α)) {key other : κ}
    (fresh : α) (change : α → α) (h : other ≠ key) :
    valueAt? (adjust entries key fresh change) other = valueAt? entries other := by
  induction entries with
  | nil => simp [adjust, valueAt?, h.symm]
  | cons p rest ih =>
    by_cases hk : p.1 = key
    · simp [adjust, valueAt?, hk, h.symm]
    · by_cases ho : p.1 = other <;> simp [adjust, valueAt?, hk, ih]

/-- A change of an entry adds its key and keeps the others. -/
theorem mem_keys_adjust {κ α : Type} [DecidableEq κ] (entries : List (κ × α)) (key other : κ) (fresh : α)
    (change : α → α) :
    other ∈ (adjust entries key fresh change).map (·.1) ↔ other = key ∨ other ∈ entries.map (·.1) := by
  induction entries with
  | nil => simp [adjust]
  | cons entry entries ih =>
    by_cases hkey : entry.1 = key
    · simp [adjust, hkey]
    · simp only [adjust, hkey, if_false, List.map_cons, List.mem_cons, ih]
      exact or_left_comm

/-- No key comes twice after a change, if none did before. -/
theorem nodup_keys_adjust {κ α : Type} [DecidableEq κ] {entries : List (κ × α)}
    (h : (entries.map (·.1)).Nodup) (key : κ) (fresh : α) (change : α → α) :
    ((adjust entries key fresh change).map (·.1)).Nodup := by
  induction entries with
  | nil => simp [adjust]
  | cons entry entries ih =>
    obtain ⟨hnot, hrest⟩ := List.nodup_cons.mp h
    by_cases hkey : entry.1 = key
    · simpa [adjust, hkey] using h
    · simp only [adjust, hkey, if_false, List.map_cons, List.nodup_cons]
      exact ⟨fun hmem => ((mem_keys_adjust ..).mp hmem).elim hkey hnot, ih hrest⟩

/-- Where no key comes twice, each entry is the one under its key. -/
theorem valueAt?_of_mem {κ α : Type} [DecidableEq κ] {entries : List (κ × α)}
    (h : (entries.map (·.1)).Nodup) {key : κ} {a : α} (hmem : (key, a) ∈ entries) :
    valueAt? entries key = some a := by
  induction entries with
  | nil => cases hmem
  | cons entry entries ih =>
    obtain ⟨hnot, hrest⟩ := List.nodup_cons.mp h
    rcases List.mem_cons.mp hmem with rfl | hmem
    · exact if_pos rfl
    · have hkey : entry.1 ≠ key := fun heq => hnot (List.mem_map.mpr ⟨_, hmem, heq.symm⟩)
      exact (if_neg hkey).trans (ih hrest hmem)

end Coach.Metrics
