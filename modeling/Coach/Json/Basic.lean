import Coach.Number.Binary64

/-!
# JSON values

Values of the data format in which models answer, state is stored and services talk. Integers of any
size are told apart from doubles, and an object keeps its members in the order in which their names
came first.

## Main definitions

* `Json`
* `Json.get?`, `Json.put`: a member of an object by name
* `Json.members?`, `Json.string?`: views
-/

namespace Coach

/-- A JSON value. -/
inductive Json where
  | null
  | bool (b : Bool)
  | number (n : Number)
  | string (s : String)
  | array (items : List Json)
  | object (members : List (String × Json))

/-- Sets the value under a key: in place when the key is there, at the end otherwise. -/
def putPair {α : Type} (pairs : List (String × α)) (key : String) (value : α) : List (String × α) :=
  match pairs with
  | [] => [(key, value)]
  | (k, v) :: rest => if k = key then (k, value) :: rest else (k, v) :: putPair rest key value

/-- The value under a key. -/
def lookupPair {α : Type} (pairs : List (String × α)) (key : String) : Option α :=
  match pairs with
  | [] => none
  | (k, v) :: rest => if k = key then some v else lookupPair rest key

/-- Removes a key. -/
def erasePair {α : Type} (pairs : List (String × α)) (key : String) : List (String × α) :=
  pairs.filter (·.1 ≠ key)

@[simp] theorem lookupPair_putPair {α : Type} (pairs : List (String × α)) (key : String) (value : α) :
    lookupPair (putPair pairs key value) key = some value := by
  induction pairs with
  | nil => simp [putPair, lookupPair]
  | cons p rest ih => by_cases h : p.1 = key <;> simp [putPair, lookupPair, h, ih]

theorem lookupPair_putPair_of_ne {α : Type} (pairs : List (String × α)) {key other : String}
    (value : α) (h : other ≠ key) :
    lookupPair (putPair pairs key value) other = lookupPair pairs other := by
  induction pairs with
  | nil => simp [putPair, lookupPair, h.symm]
  | cons p rest ih =>
    by_cases hk : p.1 = key
    · simp [putPair, lookupPair, hk, h.symm]
    · by_cases ho : p.1 = other <;> simp [putPair, lookupPair, hk, ih]

/-- A new key is put at the end. -/
theorem putPair_of_notMem {α : Type} {pairs : List (String × α)} {key : String} (value : α)
    (h : key ∉ pairs.map (·.1)) : putPair pairs key value = pairs ++ [(key, value)] := by
  induction pairs with
  | nil => rfl
  | cons p rest ih =>
    rw [List.map_cons, List.mem_cons, not_or] at h
    rw [putPair, if_neg (Ne.symm h.1), ih h.2, List.cons_append]

/-- Setting a key that is there leaves the keys as they are. -/
theorem keys_putPair_of_mem {α : Type} {pairs : List (String × α)} {key : String} (value : α)
    (h : key ∈ pairs.map (·.1)) : (putPair pairs key value).map (·.1) = pairs.map (·.1) := by
  induction pairs with
  | nil => nomatch h
  | cons p rest ih =>
    rw [putPair]
    split
    · next hp => rw [List.map_cons, List.map_cons, hp]
    · next hp =>
      rw [List.map_cons, List.mem_cons] at h
      rw [List.map_cons, List.map_cons, ih (h.resolve_left fun heq => hp heq.symm)]

/-- A key that is set is set once. -/
theorem nodup_keys_putPair {α : Type} {pairs : List (String × α)} (key : String) (value : α)
    (h : (pairs.map (·.1)).Nodup) : ((putPair pairs key value).map (·.1)).Nodup := by
  have hmem : ∀ (pairs : List (String × α)) (k : String),
      k ∈ (putPair pairs key value).map (·.1) → k = key ∨ k ∈ pairs.map (·.1) := by
    intro pairs k
    induction pairs with
    | nil => simp [putPair]
    | cons p rest ih =>
      by_cases hp : p.1 = key
      · simp only [putPair, hp, if_true, List.map_cons, List.mem_cons]
        exact fun h => h.imp_right Or.inr
      · simp only [putPair, hp, if_false, List.map_cons, List.mem_cons]
        rintro (h | h)
        · exact Or.inr (Or.inl h)
        · exact (ih h).imp_right Or.inr
  induction pairs with
  | nil => simp [putPair]
  | cons p rest ih =>
    rw [List.map_cons, List.nodup_cons] at h
    by_cases hp : p.1 = key
    · simp only [putPair, hp, if_true, List.map_cons]
      exact List.nodup_cons.mpr ⟨hp ▸ h.1, h.2⟩
    · simp only [putPair, hp, if_false, List.map_cons]
      refine List.nodup_cons.mpr ⟨fun hin => ?_, ih h.2⟩
      exact (hmem rest p.1 hin).elim hp h.1

/-- Where every key is set once, the pairs are those that can be looked up. -/
theorem mem_iff_lookupPair {α : Type} {pairs : List (String × α)}
    (h : (pairs.map (·.1)).Nodup) {key : String} {value : α} :
    (key, value) ∈ pairs ↔ lookupPair pairs key = some value := by
  induction pairs with
  | nil => simp [lookupPair]
  | cons p rest ih =>
    rw [List.map_cons, List.nodup_cons] at h
    rw [List.mem_cons, lookupPair]
    by_cases hp : p.1 = key
    · have hrest : (key, value) ∉ rest := fun hin =>
        h.1 (hp ▸ List.mem_map_of_mem (f := (·.1)) hin)
      subst hp
      simp [hrest, Prod.ext_iff, eq_comm]
    · have hne : (key, value) ≠ p := fun heq => hp (heq ▸ rfl)
      simp [hp, hne, ih h.2]

/-- A key that was removed is not there. -/
@[simp] theorem lookupPair_erasePair {α : Type} (pairs : List (String × α)) (key : String) :
    lookupPair (erasePair pairs key) key = none := by
  induction pairs with
  | nil => rfl
  | cons p rest ih =>
    by_cases h : p.1 = key
    · rwa [erasePair, List.filter_cons_of_neg (by simp [h])]
    · rw [erasePair, List.filter_cons_of_pos (by simp [h]), lookupPair, if_neg h]
      exact ih

theorem lookupPair_erasePair_of_ne {α : Type} (pairs : List (String × α)) {key other : String}
    (h : other ≠ key) : lookupPair (erasePair pairs key) other = lookupPair pairs other := by
  induction pairs with
  | nil => rfl
  | cons p rest ih =>
    by_cases hp : p.1 = key
    · rw [erasePair, List.filter_cons_of_neg (by simp [hp]), lookupPair, if_neg (hp ▸ h.symm)]
      exact ih
    · rw [erasePair, List.filter_cons_of_pos (by simp [hp]), lookupPair, lookupPair]
      split
      · rfl
      · exact ih

theorem keys_erasePair {α : Type} (pairs : List (String × α)) (key : String) :
    (erasePair pairs key).map (·.1) = (pairs.map (·.1)).filter (· ≠ key) := by
  rw [erasePair, List.filter_map]
  rfl

/-- The keys that are there are those under which something is found. -/
theorem isSome_lookupPair_iff {α : Type} {pairs : List (String × α)} {key : String} :
    (lookupPair pairs key).isSome = true ↔ key ∈ pairs.map (·.1) := by
  induction pairs with
  | nil => simp [lookupPair]
  | cons p rest ih =>
    by_cases h : p.1 = key
    · simp [lookupPair, h]
    · simp only [lookupPair, if_neg h, List.map_cons, List.mem_cons, Ne.symm h, false_or]
      exact ih

/-- Removing a key that is not there changes nothing. -/
theorem erasePair_of_notMem {α : Type} {pairs : List (String × α)} {key : String}
    (h : key ∉ pairs.map (·.1)) : erasePair pairs key = pairs := by
  refine List.filter_eq_self.mpr fun p hp => ?_
  have hne : p.1 ≠ key := fun heq => h (heq ▸ List.mem_map_of_mem hp)
  simp [hne]

namespace Json

/-- A value that may be missing, for which `null` stands. -/
def optional (j : Option Json) : Json := j.getD .null

/-- A list of texts. -/
def texts (items : List String) : Json := .array (items.map .string)

/-- An integer. -/
def int (n : Int) : Json := .number (.int n)

/-- A double. -/
def float (x : Float) : Json := .number (.float x)

/-- A member of an object; nothing for other values. -/
def get? (j : Json) (key : String) : Option Json :=
  match j with
  | .object members => lookupPair members key
  | _ => none

/-- The members of an object. -/
def members? : Json → Option (List (String × Json))
  | .object members => some members
  | _ => none

/-- The text of a string. -/
def string? : Json → Option String
  | .string s => some s
  | _ => none

/-- The items of an array. -/
def items? : Json → Option (List Json)
  | .array items => some items
  | _ => none

/-- Whether the value is `null`. -/
def isNull : Json → Bool
  | .null => true
  | _ => false

end Json

end Coach
