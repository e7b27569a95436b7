import PagedHeap.Proofs.Ensures
import PagedHeap.Proofs.Pool.Recency

/-!
# The nodes of the order of last use

The operations on a `Recency` as they run when no position is taken for granted: a node is read or
changed only if the array has one at that position, and the walk along the links has to come to its
end.  Where that fails, the checked operation stops.  On an order whose links run through some
entries (`Recency.Orders`) none of them stops, and each has the result of the operation itself.

A node is either in the list or out of use (`Recency.Filled`).  So the array grows only when every
node of it is in the list, and then by the one node of the new key.
-/

namespace PagedHeap

namespace Recency

variable {κ : Type}

/-! ## Operations with every check -/

/-- The node at a position, if the array has one. -/
def checkedNode (r : Recency κ) (i : Nat) : Result (RecencyNode κ) :=
  match r.nodes[i]? with
  | some node => .ok node
  | none => .stop .outOfRange

/-- Changes the node at a position, if the array has one. -/
def checkedSet (r : Recency κ) (i : Nat) (f : RecencyNode κ → RecencyNode κ) :
    Result (Recency κ) :=
  if i < r.nodes.size then .ok (r.setNode i f) else .stop .outOfRange

/-- Makes the node at a position, which is in no list, the newest. -/
def checkedLinkNewest (r : Recency κ) (i : Nat) : Result (Recency κ) := do
  let r ← r.checkedSet i fun node => { node with newer := none, older := r.newest }
  let r ← match r.newest with
    | some j => r.checkedSet j fun node => { node with newer := some i }
    | none => pure r
  return { r with newest := some i, oldest := r.oldest.or (some i) }

/-- Takes the node at a position out of the list. -/
def checkedUnlink (r : Recency κ) (i : Nat) : Result (Recency κ) := do
  let node ← r.checkedNode i
  let r ← match node.newer with
    | some j => r.checkedSet j fun n => { n with older := node.older }
    | none => pure { r with newest := node.older }
  match node.older with
    | some j => r.checkedSet j fun n => { n with newer := node.newer }
    | none => pure { r with oldest := node.newer }

/-- A node for a new key, in no list yet: a spare one or one at the end of the array. -/
def checkedNewNode (r : Recency κ) (key : κ) : Result (Nat × Recency κ) :=
  match r.spare with
  | i :: spare =>
    if i < r.nodes.size then
      .ok (i, { r with nodes := r.nodes.setIfInBounds i ⟨key, none, none⟩, spare := spare })
    else .stop .outOfRange
  | [] => .ok (r.nodes.size, { r with nodes := r.nodes.push ⟨key, none, none⟩ })

/-- The keys met on a walk towards newer nodes, if it ends after at most `steps` of them. -/
def checkedWalk (r : Recency κ) : (steps : Nat) → (start : Option Nat) → Result (List κ)
  | _, none => .ok []
  | 0, some _ => .stop .endless
  | k + 1, some i => do
    let node ← r.checkedNode i
    let keys ← checkedWalk r k node.newer
    return node.key :: keys

section Keys

variable [DecidableEq κ]

/-- The key is used now. -/
def checkedTouch (r : Recency κ) (key : κ) : Result (Recency κ) :=
  match r.positions.find? key with
  | some i => if r.newest = some i then .ok r else do
    let r ← r.checkedUnlink i
    r.checkedLinkNewest i
  | none => do
    let (i, r) ← r.checkedNewNode key
    let r ← r.checkedLinkNewest i
    return { r with positions := r.positions.put key i }

/-- The key is forgotten. -/
def checkedForget (r : Recency κ) (key : κ) : Result (Recency κ) :=
  match r.positions.find? key with
  | some i => do
    let r ← r.checkedUnlink i
    return { r with positions := r.positions.erase key, spare := i :: r.spare }
  | none => .ok r

end Keys

/-! ## No check fails -/

variable {r : Recency κ} {es fs : List (Nat × κ)} {i : Nat} {key : κ}

theorem checkedNode_eq {node : RecencyNode κ} (hnode : r.nodes[i]? = some node) :
    r.checkedNode i = .ok node := by
  unfold checkedNode
  rw [hnode]

theorem checkedSet_eq (hi : i < r.nodes.size) (f : RecencyNode κ → RecencyNode κ) :
    r.checkedSet i f = .ok (r.setNode i f) := if_pos hi

theorem size_setNode (r : Recency κ) (i : Nat) (f : RecencyNode κ → RecencyNode κ) :
    (r.setNode i f).nodes.size = r.nodes.size := Array.size_modify

theorem checkedLinkNewest_eq (hi : i < r.nodes.size)
    (hnewest : ∀ j, r.newest = some j → j < r.nodes.size) :
    r.checkedLinkNewest i = .ok (r.linkNewest i) := by
  unfold checkedLinkNewest linkNewest
  rw [checkedSet_eq hi, Result.bind_ok]
  have hkept : (r.setNode i fun node =>
      { node with newer := none, older := r.newest }).newest = r.newest := rfl
  simp only [hkept]
  cases hcase : r.newest with
  | none => rfl
  | some j =>
    simp only
    rw [checkedSet_eq ((size_setNode r i _).symm ▸ hnewest j hcase)]
    rfl

theorem checkedUnlink_eq {newer older : Option Nat}
    (hnode : r.nodes[i]? = some ⟨key, newer, older⟩)
    (hnewer : ∀ j, newer = some j → j < r.nodes.size)
    (holder : ∀ j, older = some j → j < r.nodes.size) :
    r.checkedUnlink i = .ok (r.unlink i) := by
  have hkept {j k : Nat} (hk : k < r.nodes.size) (f : RecencyNode κ → RecencyNode κ) :
      k < (r.setNode j f).nodes.size := (size_setNode r j f).symm ▸ hk
  unfold checkedUnlink unlink
  rw [checkedNode_eq hnode, hnode, Result.bind_ok]
  cases newer with
  | none =>
    cases older with
    | none => rfl
    | some k =>
      simp only [pure, Except.pure, Result.bind_ok]
      exact if_pos (holder k rfl)
  | some j =>
    simp only [checkedSet_eq (hnewer j rfl), Result.bind_ok]
    cases older with
    | none => rfl
    | some k => exact checkedSet_eq (hkept (holder k rfl) _) _

/-- The newest node is in the array. -/
theorem Runs.newest_lt (h : r.Runs es) : ∀ i, r.newest = some i → i < r.nodes.size := fun i hi =>
  h.linked.lt_size i (mem_of_last (h.newest ▸ hi))

/-- A node is taken out between two nodes of the array. -/
theorem Runs.checkedUnlink_eq (h : r.Runs (es ++ (i, key) :: fs)) :
    r.checkedUnlink i = .ok (r.unlink i) := by
  obtain ⟨hes, hnode, hfs⟩ := linked_append.1 h.linked
  exact Recency.checkedUnlink_eq hnode (fun j hj => hfs.lt_size j (mem_of_first hj))
    fun j hj => hes.lt_size j (mem_of_last hj)

/-- A walk that may take as many steps as there are entries comes to its end. -/
theorem Linked.checkedWalk_eq {older : Option Nat} (h : Linked r.nodes older es none) {steps : Nat}
    (hsteps : es.length ≤ steps) : r.checkedWalk steps (first es none) = .ok (es.map Prod.snd) := by
  induction es generalizing older steps with
  | nil => cases steps <;> rfl
  | cons entry es ih =>
    obtain ⟨i, key⟩ := entry
    obtain ⟨hnode, hrest⟩ := h
    obtain _ | steps := steps
    · exact absurd hsteps (Nat.not_succ_le_zero _)
    · change r.checkedWalk (steps + 1) (some i) = _
      rw [checkedWalk, checkedNode_eq hnode, Result.bind_ok,
        ih hrest (Nat.le_of_succ_le_succ hsteps)]
      rfl

variable [DecidableEq κ]

/-- The walk from the oldest node ends, and needs no more steps than there are nodes. -/
theorem Orders.checkedWalk_eq (h : r.Orders es) {steps : Nat} (hsteps : r.nodes.size ≤ steps) :
    r.checkedWalk steps r.oldest = .ok r.toList := by
  rw [h.toList_eq, h.runs.oldest]
  exact h.runs.linked.checkedWalk_eq (h.length_le.trans hsteps)

theorem Orders.checkedNewNode_eq (h : r.Orders es) (key : κ) :
    r.checkedNewNode key = .ok (r.newNode key) := by
  have hspare := h.spare
  unfold checkedNewNode Recency.newNode
  cases hcase : r.spare with
  | nil => rfl
  | cons i spare =>
    rw [hcase] at hspare
    exact if_pos (hspare i List.mem_cons_self).1

theorem Orders.checkedTouch_eq (h : r.Orders es) (key : κ) :
    r.checkedTouch key = .ok (r.touch key) := by
  unfold checkedTouch Recency.touch
  cases hkey : r.positions.find? key with
  | some i =>
    obtain ⟨before, behind, rfl, -⟩ := h.exists_split hkey
    obtain ⟨hruns, -, newer, older, hnode⟩ := h.runs.unlink
    simp only
    split
    · rfl
    · rw [h.runs.checkedUnlink_eq, Result.bind_ok]
      exact checkedLinkNewest_eq (Array.getElem?_eq_some_iff.1 hnode).1 hruns.newest_lt
  | none =>
    obtain ⟨hruns, -, hnode, -⟩ := h.newNode key
    simp only
    rw [h.checkedNewNode_eq, Result.bind_ok]
    rw [checkedLinkNewest_eq (Array.getElem?_eq_some_iff.1 hnode).1 hruns.newest_lt]
    rfl

theorem Orders.checkedForget_eq (h : r.Orders es) (key : κ) :
    r.checkedForget key = .ok (r.forget key) := by
  unfold checkedForget Recency.forget
  cases hkey : r.positions.find? key with
  | some i =>
    obtain ⟨before, behind, rfl, -⟩ := h.exists_split hkey
    simp only
    rw [h.runs.checkedUnlink_eq, Result.bind_ok]
    rfl
  | none => rfl

/-! ## Nodes in the list and out of use -/

/-- The links are in order, and every node that is not in the list is out of use. -/
structure Filled (r : Recency κ) : Prop where
  valid : r.Valid
  complete : r.spare.length + r.toList.length = r.nodes.size

theorem filled_empty : (empty : Recency κ).Filled where
  valid := valid_empty
  complete := by
    rw [toList_empty]
    rfl

/-- A key that is used again keeps its node. -/
theorem spare_touch_again (hkey : r.positions.find? key = some i) :
    (r.touch key).spare = r.spare ∧ (r.touch key).nodes.size = r.nodes.size := by
  obtain ⟨-, hspare, hsize⟩ := positions_unlink r i
  unfold touch
  rw [hkey]
  simp only
  split
  · exact ⟨rfl, rfl⟩
  · rw [spare_linkNewest, size_linkNewest]
    exact ⟨hspare, hsize⟩

/-- A new key gets a node that was out of use; the array grows if there is none. -/
theorem spare_touch_new (hkey : r.positions.find? key = none) :
    (r.touch key).spare = r.spare.tail ∧
      (r.touch key).nodes.size = r.nodes.size + (1 - r.spare.length) := by
  unfold touch newNode
  rw [hkey]
  cases hspare : r.spare with
  | nil => simp [spare_linkNewest, size_linkNewest]
  | cons i spare => simp [spare_linkNewest, size_linkNewest]

/-- The node of a key that is forgotten is out of use. -/
theorem spare_forget (hkey : r.positions.find? key = some i) :
    (r.forget key).spare = i :: r.spare ∧ (r.forget key).nodes.size = r.nodes.size := by
  obtain ⟨-, hspare, hsize⟩ := positions_unlink r i
  unfold forget
  rw [hkey]
  exact ⟨congrArg _ hspare, hsize⟩

/-- The array grows to the number of keys, if these are more than ever before. -/
theorem Filled.touch (h : r.Filled) (key : κ) : (r.touch key).Filled ∧
    (r.touch key).nodes.size = max r.nodes.size (r.touch key).toList.length := by
  obtain ⟨hvalid, hlist⟩ := h.valid.touch key
  have hcomplete := h.complete
  have hlength : (r.touch key).toList.length = (r.toList.erase key).length + 1 := by
    rw [hlist, List.length_append, List.length_singleton]
  cases hkey : r.positions.find? key with
  | some i =>
    obtain ⟨hspare, hsize⟩ := spare_touch_again hkey
    have hmem : key ∈ r.toList := h.valid.mem_toList.2 (by simp [hkey])
    rw [List.length_erase_add_one hmem] at hlength
    refine ⟨⟨hvalid, ?_⟩, ?_⟩
    · rw [hspare, hsize, hlength, hcomplete]
    · rw [hsize, hlength]
      omega
  | none =>
    obtain ⟨hspare, hsize⟩ := spare_touch_new hkey
    have hnot : key ∉ r.toList := fun hmem => h.valid.mem_toList.1 hmem hkey
    rw [List.erase_of_not_mem hnot] at hlength
    refine ⟨⟨hvalid, ?_⟩, ?_⟩
    · rw [hspare, hsize, hlength, List.length_tail]
      omega
    · rw [hsize, hlength]
      omega

/-- The array never becomes smaller. -/
theorem Filled.forget (h : r.Filled) (key : κ) : (r.forget key).Filled ∧
    (r.forget key).nodes.size = max r.nodes.size (r.forget key).toList.length := by
  obtain ⟨hvalid, hlist⟩ := h.valid.forget key
  have hcomplete := h.complete
  have hlength := congrArg List.length hlist
  cases hkey : r.positions.find? key with
  | some i =>
    obtain ⟨hspare, hsize⟩ := spare_forget hkey
    have hmem : key ∈ r.toList := h.valid.mem_toList.2 (by simp [hkey])
    rw [← List.length_erase_add_one hmem] at hcomplete
    refine ⟨⟨hvalid, ?_⟩, ?_⟩
    · rw [hspare, hsize, hlength, List.length_cons]
      omega
    · rw [hsize, hlength]
      omega
  | none =>
    have hsame : r.forget key = r := by
      unfold Recency.forget
      rw [hkey]
    rw [hsame]
    refine ⟨h, ?_⟩
    omega

end Recency

end PagedHeap
