/-!
# Tables

A table is a list of keys with their values. Keys are looked up from the front; a new key goes to
the end and a known one keeps its place, so that the order of a table is the order in which its keys
first came. `Table.find?` is the view through which the operations are described.
-/

namespace PagedHeap

/-- A finite map, in the order in which its keys first came. -/
abbrev Table (κ α : Type) := List (κ × α)

namespace Table

variable {κ α : Type} [DecidableEq κ]

/-- The value of a key. -/
def find? : Table κ α → κ → Option α
  | [], _ => none
  | (k, v) :: t, key => if k = key then some v else find? t key

/-- Whether a key has a value. -/
def has (t : Table κ α) (key : κ) : Bool := (find? t key).isSome

/-- Gives a key a value. -/
def put : Table κ α → κ → α → Table κ α
  | [], key, value => [(key, value)]
  | (k, v) :: t, key, value => if k = key then (k, value) :: t else (k, v) :: put t key value

/-- Takes a key out. -/
def erase (t : Table κ α) (key : κ) : Table κ α := t.filter fun entry => !decide (entry.1 = key)

/-- Changes the value of a key, if it has one. -/
def adjust (t : Table κ α) (key : κ) (f : α → α) : Table κ α :=
  t.map fun entry => if entry.1 = key then (entry.1, f entry.2) else entry

/-- The keys in their order. -/
def keys (t : Table κ α) : List κ := t.map Prod.fst

@[simp] theorem find?_nil (key : κ) : find? ([] : Table κ α) key = none := rfl

theorem find?_cons (k : κ) (v : α) (t : Table κ α) (key : κ) :
    find? ((k, v) :: t) key = if k = key then some v else find? t key := rfl

/-- A key that was given a value has it. -/
@[simp] theorem find?_put_self (t : Table κ α) (key : κ) (value : α) :
    find? (put t key value) key = some value := by
  induction t with
  | nil => simp [put, find?]
  | cons entry t ih =>
    obtain ⟨k, v⟩ := entry
    by_cases h : k = key <;> simp [put, find?, h, ih]

/-- The other keys keep their values. -/
theorem find?_put_of_ne {key key' : κ} (h : key ≠ key') (t : Table κ α) (value : α) :
    find? (put t key value) key' = find? t key' := by
  induction t with
  | nil => simp [put, find?, h]
  | cons entry t ih =>
    obtain ⟨k, v⟩ := entry
    by_cases hk : k = key
    · subst hk; simp [put, find?, h]
    · simp [put, find?, hk, ih]

/-- A key that was taken out has no value. -/
@[simp] theorem find?_erase_self (t : Table κ α) (key : κ) : find? (erase t key) key = none := by
  induction t with
  | nil => rfl
  | cons entry t ih =>
    obtain ⟨k, v⟩ := entry
    by_cases h : k = key
    · simpa [erase, h] using ih
    · have : erase ((k, v) :: t) key = (k, v) :: erase t key := by simp [erase, h]
      rw [this, find?_cons, if_neg h, ih]

/-- Taking out one key leaves the others. -/
theorem find?_erase_of_ne {key key' : κ} (h : key ≠ key') (t : Table κ α) :
    find? (erase t key) key' = find? t key' := by
  induction t with
  | nil => rfl
  | cons entry t ih =>
    obtain ⟨k, v⟩ := entry
    by_cases hk : k = key
    · subst hk
      have : erase ((k, v) :: t) k = erase t k := by simp [erase]
      rw [this, ih, find?_cons, if_neg h]
    · have : erase ((k, v) :: t) key = (k, v) :: erase t key := by simp [erase, hk]
      rw [this, find?_cons, find?_cons, ih]

/-- Changing the value of a key changes what is found under it and nothing else. -/
theorem find?_adjust (t : Table κ α) (key key' : κ) (f : α → α) :
    find? (adjust t key f) key' =
      if key' = key then (find? t key').map f else find? t key' := by
  induction t with
  | nil => simp [adjust]
  | cons entry t ih =>
    obtain ⟨k, v⟩ := entry
    have hc : adjust ((k, v) :: t) key f =
        (if k = key then (k, f v) else (k, v)) :: adjust t key f := by simp [adjust]
    rw [hc]
    by_cases hk : k = key
    · subst hk
      rw [if_pos rfl, find?_cons, find?_cons, ih]
      by_cases h : k = key'
      · simp [h]
      · simp [h]
    · rw [if_neg hk, find?_cons, find?_cons, ih]
      by_cases h : k = key'
      · subst h; simp [hk]
      · simp [h]

end Table

end PagedHeap
