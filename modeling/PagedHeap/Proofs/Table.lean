import Mathlib.Algebra.BigOperators.Group.List.Basic
import Mathlib.Algebra.Order.Group.Multiset
import Mathlib.Data.List.Nodup
import PagedHeap.Table

/-!
# The keys of a table

Which keys a table has after a key was given a value or taken out.  A table in which no key stands
twice stays one.
-/

namespace PagedHeap

namespace Table

variable {κ α : Type} [DecidableEq κ] {t : Table κ α} {key : κ}

theorem has_put (t : Table κ α) (key key' : κ) (value : α) :
    (t.put key value).has key' = (decide (key' = key) || t.has key') := by
  unfold has
  by_cases hkey : key' = key
  · rw [hkey, find?_put_self, decide_eq_true rfl]
    rfl
  · rw [find?_put_of_ne (Ne.symm hkey), decide_eq_false hkey, Bool.false_or]

theorem has_erase (t : Table κ α) (key key' : κ) :
    (t.erase key).has key' = (!decide (key' = key) && t.has key') := by
  unfold has
  by_cases hkey : key' = key
  · rw [hkey, find?_erase_self, decide_eq_true rfl]
    rfl
  · rw [find?_erase_of_ne (Ne.symm hkey), decide_eq_false hkey, Bool.not_false, Bool.true_and]

theorem keys_put (t : Table κ α) (key : κ) (value : α) :
    (t.put key value).keys = if t.has key then t.keys else t.keys ++ [key] := by
  induction t with
  | nil => rfl
  | cons entry t ih =>
    obtain ⟨k, v⟩ := entry
    unfold put has
    by_cases hk : k = key
    · subst hk
      simp [find?, keys]
    · simp only [hk, if_false, find?]
      unfold has keys at ih
      simp only [keys, List.map_cons, ih]
      split <;> rfl

/-- A key is among the keys if it has a value. -/
theorem mem_keys : key ∈ t.keys ↔ t.has key = true := by
  induction t with
  | nil => simp [keys, has]
  | cons entry t ih =>
    obtain ⟨k, v⟩ := entry
    unfold keys has at ih ⊢
    rw [List.map_cons, List.mem_cons, ih]
    by_cases hk : k = key
    · simp [find?, hk]
    · simp [find?, hk, Ne.symm hk]

theorem has_of_find? {value : α} (h : t.find? key = some value) : t.has key = true := by
  unfold has
  rw [h]
  rfl

theorem find?_of_has_eq_false (h : t.has key = false) : t.find? key = none := by
  unfold has at h
  rwa [Option.isSome_eq_false_iff, Option.isNone_iff_eq_none] at h

theorem has_of_find?_none (h : t.find? key = none) : t.has key = false := by
  unfold has
  rw [h]
  rfl

/-- If no key stands twice, every entry is found. -/
theorem find?_of_mem (h : t.keys.Nodup) {value : α} (hmem : (key, value) ∈ t) :
    t.find? key = some value := by
  induction t with
  | nil => cases hmem
  | cons entry t ih =>
    obtain ⟨k, v⟩ := entry
    obtain ⟨hnot, hnodup⟩ := List.nodup_cons.1 h
    rcases List.mem_cons.1 hmem with heq | hrest
    · cases heq
      exact if_pos rfl
    · rw [find?_cons, if_neg]
      · exact ih hnodup hrest
      · rintro rfl
        exact hnot (List.mem_map.2 ⟨_, hrest, rfl⟩)

/-- What is found is an entry. -/
theorem mem_of_find? {value : α} (h : t.find? key = some value) : (key, value) ∈ t := by
  induction t with
  | nil => cases h
  | cons entry t ih =>
    obtain ⟨k, v⟩ := entry
    rw [find?_cons] at h
    split at h
    · next heq =>
      cases heq
      cases h
      exact List.mem_cons_self
    · exact List.mem_cons_of_mem _ (ih h)

theorem find?_put_eq_some {key' : κ} {value value' : α} :
    (t.put key value).find? key' = some value' ↔
      (key' = key ∧ value' = value) ∨ (key' ≠ key ∧ t.find? key' = some value') := by
  by_cases hkey : key' = key
  · rw [hkey, find?_put_self]
    simp [eq_comm]
  · rw [find?_put_of_ne (Ne.symm hkey)]
    simp [hkey]

theorem find?_erase_eq_some {key' : κ} {value : α} :
    (t.erase key).find? key' = some value ↔ key' ≠ key ∧ t.find? key' = some value := by
  by_cases hkey : key' = key
  · rw [hkey, find?_erase_self]
    simp
  · rw [find?_erase_of_ne (Ne.symm hkey)]
    simp [hkey]

theorem keys_adjust (t : Table κ α) (key : κ) (f : α → α) : (t.adjust key f).keys = t.keys := by
  unfold keys adjust
  rw [List.map_map]
  refine List.map_congr_left fun entry _ => ?_
  simp only [Function.comp]
  split <;> rfl

theorem mem_keys_put {key' : κ} {value : α} :
    key' ∈ (t.put key value).keys ↔ key' = key ∨ key' ∈ t.keys := by
  rw [mem_keys, has_put, Bool.or_eq_true, decide_eq_true_eq, mem_keys]

theorem mem_keys_erase {key' : κ} :
    key' ∈ (t.erase key).keys ↔ key' ≠ key ∧ key' ∈ t.keys := by
  rw [mem_keys, has_erase, Bool.and_eq_true, Bool.not_eq_true', decide_eq_false_iff_not, mem_keys]

theorem mem_keys_of_find? {value : α} (h : t.find? key = some value) :
    key ∈ t.keys := by
  rw [mem_keys]
  exact has_of_find? h

theorem nodup_keys_put (h : t.keys.Nodup) (key : κ) (value : α) : (t.put key value).keys.Nodup := by
  rw [keys_put]
  split
  · exact h
  · next hnot =>
    rw [← mem_keys] at hnot
    exact List.nodup_append.2 ⟨h, List.nodup_singleton _, fun a ha b hb heq =>
      hnot (by rw [List.mem_singleton] at hb; rwa [← hb, ← heq])⟩

theorem nodup_keys_erase (h : t.keys.Nodup) (key : κ) : (t.erase key).keys.Nodup :=
  h.sublist (List.filter_sublist.map _)

/-- What is taken out is no longer there. -/
theorem erase_of_has_eq_false (h : t.has key = false) : t.erase key = t := by
  refine List.filter_eq_self.2 fun entry hentry => ?_
  have hmem : entry.1 ∈ t.keys := List.mem_map_of_mem hentry
  by_contra hne
  have heq : entry.1 = key := by simpa using hne
  rw [heq, mem_keys, h] at hmem
  cases hmem

/-- A table with one entry gets another value for its key. -/
theorem put_singleton (key : κ) (old value : α) :
    put [(key, old)] key value = [(key, value)] := if_pos rfl

/-- Without its entry a table with one is empty. -/
theorem erase_singleton (key : κ) (value : α) : erase [(key, value)] key = [] := by
  unfold erase
  rw [List.filter_cons_of_neg, List.filter_nil]
  simp only [decide_true, Bool.not_true, Bool.false_eq_true, not_false_eq_true]

/-- At most one entry is added. -/
theorem length_put_le (t : Table κ α) (key : κ) (value : α) :
    (t.put key value).length ≤ t.length + 1 := by
  have hkeys := congrArg List.length (keys_put t key value)
  unfold keys at hkeys
  rw [List.length_map] at hkeys
  rw [hkeys]
  split
  · rw [List.length_map]
    exact Nat.le_succ _
  · rw [List.length_append, List.length_map]
    exact Nat.le_refl _

/-- A value that is replaced adds no entry. -/
theorem length_put_of_find? {value : α} (h : t.find? key = some value) (value' : α) :
    (t.put key value').length = t.length := by
  have hkeys := congrArg List.length (keys_put t key value')
  unfold keys at hkeys
  rwa [if_pos (has_of_find? h), List.length_map, List.length_map] at hkeys

/-- Taking out a key that is there leaves fewer entries. -/
theorem length_erase_lt {value : α} (h : t.find? key = some value) :
    (t.erase key).length < t.length := by
  obtain ⟨entry, hentry, hname⟩ := List.mem_map.1 (mem_keys_of_find? h)
  refine List.length_filter_lt_length_iff_exists.2 ⟨entry, hentry, ?_⟩
  simp [hname]

/-! ## Tables made from a table -/

/-- The values of some of the keys, changed. -/
theorem find?_filterMap {β : Type} (t : Table κ α) (p : κ → Bool) (f : α → β) (key : κ) :
    find? (t.filterMap fun entry => if p entry.1 then some (entry.1, f entry.2) else none) key =
      if p key then (t.find? key).map f else none := by
  induction t with
  | nil => split <;> rfl
  | cons entry t ih =>
    obtain ⟨k, v⟩ := entry
    by_cases hp : p k
    · have hcons : List.filterMap (fun entry : κ × α =>
          if p entry.1 then some (entry.1, f entry.2) else none) ((k, v) :: t) =
          (k, f v) :: List.filterMap (fun entry : κ × α =>
            if p entry.1 then some (entry.1, f entry.2) else none) t := by
        rw [List.filterMap_cons, if_pos hp]
      rw [hcons, find?_cons, find?_cons, ih]
      by_cases hk : k = key
      · subst hk
        simp only [hp, if_true, Option.map_some]
      · simp only [hk, if_false]
    · have hcons : List.filterMap (fun entry : κ × α =>
          if p entry.1 then some (entry.1, f entry.2) else none) ((k, v) :: t) =
          List.filterMap (fun entry : κ × α =>
            if p entry.1 then some (entry.1, f entry.2) else none) t := by
        rw [List.filterMap_cons, if_neg hp]
      rw [hcons, find?_cons, ih]
      by_cases hk : k = key
      · subst hk
        simp only [hp, if_false, Bool.false_eq_true]
      · simp only [hk, if_false]

/-- The values of all keys, changed. -/
theorem find?_map {β : Type} (t : Table κ α) (f : κ → α → β) (key : κ) :
    find? (t.map fun entry => (entry.1, f entry.1 entry.2)) key = (t.find? key).map (f key) := by
  induction t with
  | nil => rfl
  | cons entry t ih =>
    obtain ⟨k, v⟩ := entry
    rw [List.map_cons, find?_cons, find?_cons, ih]
    split
    · next hk => rw [hk, Option.map_some]
    · rfl

/-! ## Totals -/

/-- A sum over the values of all keys. -/
def total {M : Type} [AddCommMonoid M] (f : α → M) (t : Table κ α) : M :=
  (t.map fun entry => f entry.2).sum

/-- A key that is given the value that it has changes nothing. -/
theorem put_find? {value : α} (h : t.find? key = some value) : t.put key value = t := by
  induction t with
  | nil => cases h
  | cons entry t ih =>
    obtain ⟨k, old⟩ := entry
    unfold put
    rw [find?_cons] at h
    split at h
    · next hk => rw [if_pos hk, Option.some.inj h]
    · next hk => rw [if_neg hk, ih h]

section Total

variable {M : Type} [AddCommMonoid M] (f : α → M)

/-- The value of one key and those of the others. -/
theorem total_put (h : t.keys.Nodup) (key : κ) (value : α) :
    total f (t.put key value) = f value + total f (t.erase key) := by
  induction t with
  | nil => rfl
  | cons entry t ih =>
    obtain ⟨k, old⟩ := entry
    obtain ⟨hnot, hnodup⟩ := List.nodup_cons.1 h
    unfold put
    by_cases hk : k = key
    · subst hk
      have hhas : has t k = false := by
        rw [← Bool.not_eq_true, ← mem_keys]
        exact hnot
      have herase : erase ((k, old) :: t) k = t := by
        rw [← erase_of_has_eq_false hhas]
        simp [erase]
      rw [if_pos rfl, herase]
      exact List.sum_cons
    · have herase : erase ((k, old) :: t) key = (k, old) :: erase t key := by simp [erase, hk]
      have hcons (t : Table κ α) : total f ((k, old) :: t) = f old + total f t := List.sum_cons
      rw [if_neg hk, herase, hcons, hcons, ih hnodup]
      exact add_left_comm _ _ _

/-- A total is the value of one of the keys and those of the others. -/
theorem total_eq (h : t.keys.Nodup) {value : α} (hfind : t.find? key = some value) :
    total f t = f value + total f (t.erase key) := by
  have hput := total_put f h key value
  rwa [put_find? hfind] at hput

end Total

omit [DecidableEq κ] in
/-- A total of small multisets is small. -/
theorem card_total_le {β : Type} {f : α → Multiset β} {n : Nat} (hf : ∀ value, (f value).card ≤ n)
    (t : Table κ α) : (total f t).card ≤ n * t.length := by
  induction t with
  | nil => exact Nat.zero_le _
  | cons entry t ih =>
    have hcons : total f (entry :: t) = f entry.2 + total f t := List.sum_cons
    rw [hcons, Multiset.card_add, List.length_cons, Nat.mul_succ, Nat.add_comm]
    exact Nat.add_le_add ih (hf entry.2)

/-- What is in a total of multisets is in the value of one of the keys. -/
theorem exists_of_mem_total {β : Type} {f : α → Multiset β} {b : β} (h : t.keys.Nodup)
    (hb : b ∈ total f t) : ∃ key value, t.find? key = some value ∧ b ∈ f value := by
  induction t with
  | nil => cases hb
  | cons entry t ih =>
    obtain ⟨k, v⟩ := entry
    obtain ⟨hnot, hnodup⟩ := List.nodup_cons.1 h
    have hcons : total f ((k, v) :: t) = f v + total f t := List.sum_cons
    rw [hcons] at hb
    rcases Multiset.mem_add.1 hb with hself | hrest
    · exact ⟨k, v, if_pos rfl, hself⟩
    · obtain ⟨key, value, hfind, hvalue⟩ := ih hnodup hrest
      refine ⟨key, value, ?_, hvalue⟩
      rw [find?_cons, if_neg fun heq => ?_]
      · exact hfind
      · exact hnot (heq ▸ mem_keys_of_find? hfind)

end Table

end PagedHeap
