import Mathlib.Data.List.Induction
import Mathlib.Order.Bounds.Basic
import PagedHeap.Proofs.Pool.Positions

/-!
# The order of last use and its history

An order of last use is told of keys that are used and of keys that are forgotten, in any sequence.
This file says what can be read off such a history alone: when a key was last used, whether it was
forgotten since, and how many keys were held at once.  `Recency.recounts` says that this is what is
seen of an order after the calls: its list has the keys that were used since they were last
forgotten, each once, from the one whose last use is the oldest to the one used last, and its array
has as many nodes as there ever were keys at once.  On the way no position is outside the array, and
the walk along the links ends.
-/

namespace PagedHeap

namespace Recency

variable {κ : Type}

/-! ## Histories -/

/-- What an order is told of a key. -/
inductive Call (κ : Type) where
  /-- The key is used. -/
  | touch (key : κ)
  /-- The key is forgotten, whether it is there or not. -/
  | forget (key : κ)
deriving DecidableEq

/-- An order of no keys, with room set aside for some. -/
def emptyWithCapacity (capacity : Nat) : Recency κ :=
  ⟨.emptyWithCapacity capacity, [], none, none, []⟩

/-- Room that is set aside cannot be seen: every pool begins with this order. -/
theorem emptyWithCapacity_eq (capacity : Nat) :
    (emptyWithCapacity capacity : Recency κ) = empty := rfl

variable [DecidableEq κ]

/-- How many calls there were since a call was last made; all calls, if it never was. -/
def age (calls : List (Call κ)) (call : Call κ) : Nat := calls.reverse.idxOf call

/-- The key was used, and was not forgotten since. -/
def Held (calls : List (Call κ)) (key : κ) : Prop :=
  age calls (.touch key) < age calls (.forget key)

/-- The keys that are held, each once, from the one whose last use is the oldest to the one that was
used last. -/
structure ByUse (calls : List (Call κ)) (keys : List κ) : Prop where
  held : ∀ key, key ∈ keys ↔ Held calls key
  nodup : keys.Nodup
  ordered : keys.Pairwise fun a b => age calls (.touch b) < age calls (.touch a)

/-- The numbers of keys that were held at once, after all calls or after the first of them. -/
def heldCounts (calls : List (Call κ)) : Set Nat :=
  {n | ∃ past keys, past <+: calls ∧ ByUse past keys ∧ n = keys.length}

/-- The order is told. -/
def tell (r : Recency κ) : Call κ → Recency κ
  | .touch key => r.touch key
  | .forget key => r.forget key

/-- The order is told, with every check. -/
def checkedTell (r : Recency κ) : Call κ → Result (Recency κ)
  | .touch key => r.checkedTouch key
  | .forget key => r.checkedForget key

/-- The order after calls on a new one. -/
def after (capacity : Nat) (calls : List (Call κ)) : Recency κ :=
  calls.foldl tell (emptyWithCapacity capacity)

/-- The order after calls on a new one, with every check. -/
def checkedAfter (capacity : Nat) (calls : List (Call κ)) : Result (Recency κ) :=
  calls.foldlM checkedTell (emptyWithCapacity capacity)

variable {calls : List (Call κ)} {keys keys' : List κ}

/-! ## The keys of a history -/

theorem age_concat_self (calls : List (Call κ)) (call : Call κ) :
    age (calls ++ [call]) call = 0 := by
  simp [age]

theorem age_concat_of_ne {call other : Call κ} (hne : other ≠ call) :
    age (calls ++ [call]) other = age calls other + 1 := by
  unfold age
  rw [List.reverse_concat, List.idxOf_cons_ne _ hne.symm]

/-- A use and a forgetting grow older by each other. -/
theorem age_concat_touch (calls : List (Call κ)) (key k : κ) :
    age (calls ++ [.touch key]) (.forget k) = age calls (.forget k) + 1 :=
  age_concat_of_ne (by simp)

theorem age_concat_forget (calls : List (Call κ)) (key k : κ) :
    age (calls ++ [.forget key]) (.touch k) = age calls (.touch k) + 1 :=
  age_concat_of_ne (by simp)

theorem held_concat_touch {key k : κ} :
    Held (calls ++ [.touch key]) k ↔ k = key ∨ Held calls k := by
  unfold Held
  rw [age_concat_touch]
  by_cases hk : k = key
  · simp [hk, age_concat_self]
  · rw [age_concat_of_ne (by simpa using hk)]
    simp [hk]

theorem held_concat_forget {key k : κ} :
    Held (calls ++ [.forget key]) k ↔ k ≠ key ∧ Held calls k := by
  unfold Held
  rw [age_concat_forget]
  by_cases hk : k = key
  · simp [hk, age_concat_self]
  · rw [age_concat_of_ne (by simpa using hk)]
    simp [hk]

theorem byUse_nil : ByUse ([] : List (Call κ)) [] where
  held key := by simp [Held, age]
  nodup := .nil
  ordered := .nil

/-- A key that is used comes last. -/
theorem ByUse.touch (h : ByUse calls keys) (key : κ) :
    ByUse (calls ++ [.touch key]) (keys.erase key ++ [key]) where
  held k := by
    rw [held_concat_touch, List.mem_append, List.mem_singleton, h.nodup.mem_erase_iff, h.held]
    tauto
  nodup := by
    rw [← List.concat_eq_append]
    exact (h.nodup.erase key).concat h.nodup.not_mem_erase
  ordered := pairwise_touch h.nodup h.ordered (age_concat_self _ _) fun k hk =>
    age_concat_of_ne (by simpa using hk)

/-- A key that is forgotten leaves the others in their order. -/
theorem ByUse.forget (h : ByUse calls keys) (key : κ) :
    ByUse (calls ++ [.forget key]) (keys.erase key) where
  held k := by rw [held_concat_forget, h.nodup.mem_erase_iff, h.held]
  nodup := h.nodup.erase key
  ordered := (h.ordered.sublist List.erase_sublist).imp fun hlt => by
    rw [age_concat_forget, age_concat_forget]
    exact Nat.succ_lt_succ hlt

/-- A history tells its keys and their order. -/
theorem ByUse.unique (h : ByUse calls keys) (h' : ByUse calls keys') : keys = keys' := by
  have hperm : keys.Perm keys' := (List.perm_ext_iff_of_nodup h.nodup h'.nodup).2 fun key =>
    (h.held key).trans (h'.held key).symm
  exact hperm.eq_of_pairwise (fun _ _ _ _ hab hba => absurd hab (Nat.lt_asymm hba)) h.ordered
    h'.ordered

/-! ## The order after calls -/

theorem after_nil (capacity : Nat) : after capacity ([] : List (Call κ)) = empty :=
  emptyWithCapacity_eq capacity

theorem after_concat (capacity : Nat) (calls : List (Call κ)) (call : Call κ) :
    after capacity (calls ++ [call]) = (after capacity calls).tell call := List.foldl_concat ..

variable {r : Recency κ}

/-- One call keeps every node in the list or out of use, and the array grows to the number of keys,
if these are more than ever before. -/
theorem Filled.tell (h : r.Filled) (call : Call κ) : (r.tell call).Filled ∧
    (r.tell call).nodes.size = max r.nodes.size (r.tell call).toList.length := by
  cases call with
  | touch key => exact h.touch key
  | forget key => exact h.forget key

/-- One call keeps the list by use. -/
theorem ByUse.tell (h : ByUse calls r.toList) (hvalid : r.Valid) (call : Call κ) :
    ByUse (calls ++ [call]) (r.tell call).toList := by
  cases call with
  | touch key => exact (hvalid.touch key).2 ▸ h.touch key
  | forget key => exact (hvalid.forget key).2 ▸ h.forget key

/-- No check of a call fails. -/
theorem Valid.checkedTell_eq (h : r.Valid) (call : Call κ) :
    r.checkedTell call = .ok (r.tell call) := by
  obtain ⟨es, hes⟩ := h
  cases call with
  | touch key => exact hes.checkedTouch_eq key
  | forget key => exact hes.checkedForget_eq key

theorem filled_after (capacity : Nat) (calls : List (Call κ)) : (after capacity calls).Filled := by
  induction calls using List.reverseRecOn with
  | nil => exact filled_empty
  | append_singleton calls call ih =>
    rw [after_concat]
    exact (ih.tell call).1

theorem byUse_after (capacity : Nat) (calls : List (Call κ)) :
    ByUse calls (after capacity calls).toList := by
  induction calls using List.reverseRecOn with
  | nil =>
    rw [after_nil, toList_empty]
    exact byUse_nil
  | append_singleton calls call ih =>
    rw [after_concat]
    exact ih.tell (filled_after capacity calls).valid call

theorem checkedAfter_eq (capacity : Nat) (calls : List (Call κ)) :
    checkedAfter capacity calls = .ok (after capacity calls) := by
  induction calls using List.reverseRecOn with
  | nil => rfl
  | append_singleton calls call ih =>
    unfold checkedAfter at ih ⊢
    rw [List.foldlM_append, ih, Result.bind_ok, List.foldlM_cons,
      (filled_after capacity calls).valid.checkedTell_eq, Result.bind_ok, after_concat]
    rfl

theorem heldCounts_nil : heldCounts ([] : List (Call κ)) = {0} := by
  ext n
  constructor
  · rintro ⟨past, keys, hpast, hkeys, rfl⟩
    rw [List.prefix_nil.1 hpast] at hkeys
    rw [hkeys.unique byUse_nil]
    rfl
  · rintro rfl
    exact ⟨[], [], List.nil_prefix, byUse_nil, rfl⟩

/-- The last call adds the number of keys that are held after it. -/
theorem heldCounts_concat {last : Call κ} (h : ByUse (calls ++ [last]) keys) :
    heldCounts (calls ++ [last]) = insert keys.length (heldCounts calls) := by
  ext n
  constructor
  · rintro ⟨past, held, hpast, hheld, rfl⟩
    rcases List.prefix_concat_iff.1 hpast with rfl | hpast
    · exact .inl (congrArg _ (hheld.unique h))
    · exact .inr ⟨past, held, hpast, hheld, rfl⟩
  · rintro (rfl | ⟨past, held, hpast, hheld, rfl⟩)
    · exact ⟨_, keys, List.prefix_rfl, h, rfl⟩
    · exact ⟨past, held, hpast.trans (List.prefix_append _ _), hheld, rfl⟩

/-- The array has as many nodes as there were keys when these were most. -/
theorem isGreatest_size_nodes (capacity : Nat) (calls : List (Call κ)) :
    IsGreatest (heldCounts calls) (after capacity calls).nodes.size := by
  induction calls using List.reverseRecOn with
  | nil =>
    rw [heldCounts_nil]
    exact isGreatest_singleton
  | append_singleton calls last ih =>
    have hgrown := ((filled_after capacity calls).tell last).2
    rw [← after_concat, max_comm] at hgrown
    rw [heldCounts_concat (byUse_after capacity _), hgrown]
    exact ih.insert _

/-! ## The order and its history -/

/-- What is seen of an order after calls on a new one. -/
structure Recounts (capacity : Nat) (calls : List (Call κ)) : Prop where
  /-- No call has met a position outside the array. -/
  inRange : checkedAfter capacity calls = .ok (after capacity calls)
  /-- The walk along the links meets no such position either, and ends. -/
  ends : ∀ steps, (after capacity calls).nodes.size ≤ steps →
    (after capacity calls).checkedWalk steps (after capacity calls).oldest =
      .ok (after capacity calls).toList
  /-- It has met the keys that are held, and in their order. -/
  lists : ∀ keys, (after capacity calls).toList = keys ↔ ByUse calls keys
  /-- There are as many nodes as there ever were keys at once. -/
  grows : IsGreatest (heldCounts calls) (after capacity calls).nodes.size

/-- Whatever an order is told, it knows the keys that were used since they were last forgotten, by
their last use, and has no more nodes than it needed. -/
theorem recounts (capacity : Nat) (calls : List (Call κ)) : Recounts capacity calls := by
  obtain ⟨es, hes⟩ := (filled_after capacity calls).valid
  have hlist := byUse_after capacity calls
  exact {
    inRange := checkedAfter_eq capacity calls
    ends := fun _ => hes.checkedWalk_eq
    lists := fun keys => ⟨fun heq => heq ▸ hlist, hlist.unique⟩
    grows := isGreatest_size_nodes capacity calls }

/-- Nodes of forgotten keys are used again. -/
example : let r := after 3 [.touch 1, .touch 2, .touch 3, .forget 2, .forget 1, .touch 4, .touch 3]
    r.toList = [4, 3] ∧ r.nodes.size = 3 := by decide

end Recency

end PagedHeap
