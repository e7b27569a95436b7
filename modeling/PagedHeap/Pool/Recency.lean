import PagedHeap.Table

/-!
# Order of last use

A `Recency` knows the order in which keys were last used. The keys are the nodes of a doubly linked
list that runs through an array; a table tells the node of each key, and the nodes of forgotten keys
are used again before the array grows. `Recency.toList` walks the links from the key that was used
longest ago to the one used last.
-/

namespace PagedHeap

/-- A key in the list, with the positions of its neighbours. -/
structure RecencyNode (κ : Type) where
  /-- The key. -/
  key : κ
  /-- The node of the key that was used next, if any. -/
  newer : Option Nat
  /-- The node of the key that was used before, if any. -/
  older : Option Nat

/-- The order in which keys were last used. -/
structure Recency (κ : Type) where
  /-- The nodes of the list, among them those that are out of use. -/
  nodes : Array (RecencyNode κ)
  /-- The node of each key. -/
  positions : Table κ Nat
  /-- The node of the key used last. -/
  newest : Option Nat
  /-- The node of the key used longest ago. -/
  oldest : Option Nat
  /-- The nodes that are out of use, the one to be used again first in front. -/
  spare : List Nat

namespace Recency

variable {κ : Type}

/-- The order of no keys. -/
def empty : Recency κ := ⟨#[], [], none, none, []⟩

/-- Changes the node at a position. -/
def setNode (r : Recency κ) (i : Nat) (f : RecencyNode κ → RecencyNode κ) : Recency κ :=
  { r with nodes := r.nodes.modify i f }

/-- Makes the node at a position, which is in no list, the newest. -/
def linkNewest (r : Recency κ) (i : Nat) : Recency κ :=
  let r := r.setNode i fun node => { node with newer := none, older := r.newest }
  let r := match r.newest with
    | some j => r.setNode j fun node => { node with newer := some i }
    | none => r
  { r with newest := some i, oldest := r.oldest.or (some i) }

/-- Takes the node at a position out of the list. -/
def unlink (r : Recency κ) (i : Nat) : Recency κ :=
  match r.nodes[i]? with
  | none => r
  | some node =>
    let r := match node.newer with
      | some j => r.setNode j fun n => { n with older := node.older }
      | none => { r with newest := node.older }
    match node.older with
      | some j => r.setNode j fun n => { n with newer := node.newer }
      | none => { r with oldest := node.newer }

/-- A node for a new key, in no list yet: a spare one or one at the end of the array. -/
def newNode (r : Recency κ) (key : κ) : Nat × Recency κ :=
  match r.spare with
  | i :: spare => (i, { r with nodes := r.nodes.setIfInBounds i ⟨key, none, none⟩, spare := spare })
  | [] => (r.nodes.size, { r with nodes := r.nodes.push ⟨key, none, none⟩ })

variable [DecidableEq κ]

/-- The key is used now. -/
def touch (r : Recency κ) (key : κ) : Recency κ :=
  match r.positions.find? key with
  | some i => if r.newest = some i then r else (r.unlink i).linkNewest i
  | none =>
    let (i, r) := r.newNode key
    let r := r.linkNewest i
    { r with positions := r.positions.put key i }

/-- The key is forgotten. -/
def forget (r : Recency κ) (key : κ) : Recency κ :=
  match r.positions.find? key with
  | some i =>
    let r := r.unlink i
    { r with positions := r.positions.erase key, spare := i :: r.spare }
  | none => r

/-- The keys met on a walk of at most `steps` nodes towards newer ones. -/
def walk (r : Recency κ) : (steps : Nat) → (start : Option Nat) → List κ
  | _, none => []
  | 0, some _ => []
  | k + 1, some i =>
    match r.nodes[i]? with
    | some node => node.key :: walk r k node.newer
    | none => []

/-- The keys in the order of their last use, the one used longest ago first. -/
def toList (r : Recency κ) : List κ := r.walk r.nodes.size r.oldest

end Recency

end PagedHeap
