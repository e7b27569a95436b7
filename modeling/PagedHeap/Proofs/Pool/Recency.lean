import Mathlib.Data.List.Perm.Subperm
import PagedHeap.Pool.Recency
import PagedHeap.Proofs.Table

/-!
# The order of last use is a list

`Recency` keeps its keys in nodes that are linked in both directions.  `Recency.Orders` says that
the links of some of the nodes run through given entries, so that the walk along them
(`Recency.toList`) lists their keys.  Seen that way, using a key moves it to the end and forgetting
a key takes it out.
-/

namespace PagedHeap

namespace Recency

variable {κ : Type}

/-! ## Linked nodes -/

/-- The node of the first entry, or else the one that comes behind the entries. -/
def first (es : List (Nat × κ)) (newer : Option Nat) : Option Nat :=
  (es.head?.map Prod.fst).or newer

/-- The node of the last entry, or else the one that comes before the entries. -/
def last : (older : Option Nat) → List (Nat × κ) → Option Nat
  | older, [] => older
  | _, (i, _) :: es => last (some i) es

/-- The nodes of the entries have their keys and are linked in their order, between two neighbours.
-/
def Linked (nodes : Array (RecencyNode κ)) :
    (older : Option Nat) → List (Nat × κ) → (newer : Option Nat) → Prop
  | _, [], _ => True
  | older, (i, key) :: es, newer =>
    nodes[i]? = some ⟨key, first es newer, older⟩ ∧ Linked nodes (some i) es newer

variable {nodes nodes' : Array (RecencyNode κ)} {older newer : Option Nat} {es fs : List (Nat × κ)}
variable {i : Nat} {key : κ}

theorem first_append : first (es ++ fs) newer = first es (first fs newer) := by
  cases es <;> simp [first]

theorem last_append : last older (es ++ fs) = last (last older es) fs := by
  induction es generalizing older with
  | nil => rfl
  | cons entry es ih => exact ih

theorem linked_append : Linked nodes older (es ++ fs) newer ↔
    Linked nodes older es (first fs newer) ∧ Linked nodes (last older es) fs newer := by
  induction es generalizing older with
  | nil => simp [Linked, last]
  | cons entry es ih =>
    obtain ⟨i, key⟩ := entry
    simp only [List.cons_append, Linked, ih, first_append, last, and_assoc]

/-- Only the nodes of the entries count. -/
theorem Linked.congr (h : Linked nodes older es newer)
    (hnodes : ∀ i ∈ es.map Prod.fst, nodes'[i]? = nodes[i]?) : Linked nodes' older es newer := by
  induction es generalizing older with
  | nil => trivial
  | cons entry es ih =>
    obtain ⟨i, key⟩ := entry
    exact ⟨(hnodes i (by simp)).trans h.1, ih h.2 fun j hj => hnodes j (by simp [hj])⟩

/-- Other nodes may change. -/
theorem Linked.modify (h : Linked nodes older es newer) (hi : i ∉ es.map Prod.fst)
    (f : RecencyNode κ → RecencyNode κ) : Linked (nodes.modify i f) older es newer :=
  h.congr fun j hj => by
    have hne : i ≠ j := fun heq => hi (heq ▸ hj)
    rw [Array.getElem?_modify, if_neg hne]

/-- The node at a position, if there is one, is changed. -/
def onNode (nodes : Array (RecencyNode κ)) (position : Option Nat)
    (f : RecencyNode κ → RecencyNode κ) : Array (RecencyNode κ) :=
  match position with
  | some i => nodes.modify i f
  | none => nodes

theorem size_onNode (nodes : Array (RecencyNode κ)) (position : Option Nat)
    (f : RecencyNode κ → RecencyNode κ) : (onNode nodes position f).size = nodes.size := by
  cases position <;> simp [onNode]

theorem getElem?_onNode {position : Option Nat} (hi : position ≠ some i)
    (f : RecencyNode κ → RecencyNode κ) : (onNode nodes position f)[i]? = nodes[i]? := by
  cases position with
  | none => rfl
  | some j =>
    have hne : j ≠ i := fun heq => hi (heq ▸ rfl)
    unfold onNode
    rw [Array.getElem?_modify, if_neg hne]

theorem mem_of_first (h : first es none = some i) : i ∈ es.map Prod.fst := by
  cases es with
  | nil => cases h
  | cons entry es => simp_all [first]

theorem mem_of_last (h : last none es = some i) : i ∈ es.map Prod.fst := by
  rcases List.eq_nil_or_concat' es with rfl | ⟨init, ⟨j, key⟩, rfl⟩
  · cases h
  · rw [last_append] at h
    simp [Option.some.inj h.symm]

/-- The first entry is linked to another node before it. -/
theorem Linked.onFirst (h : Linked nodes older es newer) (hnodup : (es.map Prod.fst).Nodup)
    (older' : Option Nat) :
    Linked (onNode nodes (first es none) fun node => { node with older := older' }) older' es
      newer := by
  cases es with
  | nil => trivial
  | cons entry es =>
    obtain ⟨i, key⟩ := entry
    change Linked (nodes.modify i _) _ _ _
    refine ⟨?_, h.2.modify (List.nodup_cons.1 hnodup).1 _⟩
    rw [Array.getElem?_modify, if_pos rfl, h.1]
    rfl

/-- The last entry is linked to another node behind it. -/
theorem Linked.onLast (h : Linked nodes older es newer) (hnodup : (es.map Prod.fst).Nodup)
    (newer' : Option Nat) :
    Linked (onNode nodes (last none es) fun node => { node with newer := newer' }) older es
      newer' := by
  rcases List.eq_nil_or_concat' es with rfl | ⟨init, ⟨i, key⟩, rfl⟩
  · trivial
  · obtain ⟨hinit, hlast, -⟩ := linked_append.1 h
    rw [List.map_append, List.nodup_append] at hnodup
    have hi : i ∉ init.map Prod.fst := fun hmem => hnodup.2.2 i hmem i (by simp) rfl
    rw [last_append]
    change Linked (nodes.modify i _) _ _ _
    refine linked_append.2 ⟨hinit.modify hi _, ?_, trivial⟩
    rw [Array.getElem?_modify, if_pos rfl, hlast]
    rfl

/-- Other nodes may change. -/
theorem Linked.onOther (h : Linked nodes older es newer) {position : Option Nat}
    (hother : ∀ i, position = some i → i ∉ es.map Prod.fst) (f : RecencyNode κ → RecencyNode κ) :
    Linked (onNode nodes position f) older es newer :=
  h.congr fun i hi => getElem?_onNode (fun heq => hother i heq hi) f

/-- A walk along the links meets the keys of the entries. -/
theorem Linked.walk_eq {r : Recency κ} (h : Linked r.nodes older es none) {steps : Nat}
    (hsteps : es.length ≤ steps) : r.walk steps (first es none) = es.map Prod.snd := by
  induction es generalizing older steps with
  | nil => cases steps <;> rfl
  | cons entry es ih =>
    obtain ⟨i, key⟩ := entry
    obtain ⟨hnode, hrest⟩ := h
    obtain _ | steps := steps
    · exact absurd hsteps (Nat.not_succ_le_zero _)
    · have hwalk : r.walk (steps + 1) (first ((i, key) :: es) none) =
          key :: r.walk steps (first es none) := by
        change r.walk (steps + 1) (some i) = _
        rw [walk.eq_3, hnode]
      rw [hwalk, ih hrest (Nat.le_of_succ_le_succ hsteps), List.map_cons]

/-! ## Changing the links -/

/-- The list of a `Recency` runs through the entries. -/
structure Runs (r : Recency κ) (es : List (Nat × κ)) : Prop where
  linked : Linked r.nodes none es none
  oldest : r.oldest = first es none
  newest : r.newest = last none es
  nodup : (es.map Prod.fst).Nodup

variable {r : Recency κ}

theorem linkNewest_eq (r : Recency κ) (i : Nat) : r.linkNewest i = { r with
    nodes := onNode (r.nodes.modify i fun node => { node with newer := none, older := r.newest })
      r.newest fun node => { node with newer := some i }
    newest := some i
    oldest := r.oldest.or (some i) } := by
  unfold linkNewest setNode onNode
  cases r.newest <;> rfl

theorem unlink_eq (hnode : r.nodes[i]? = some ⟨key, newer, older⟩) : r.unlink i = { r with
    nodes := onNode (onNode r.nodes newer fun node => { node with older := older }) older
      fun node => { node with newer := newer }
    newest := if newer = none then older else r.newest
    oldest := if older = none then newer else r.oldest } := by
  unfold unlink setNode onNode
  rw [hnode]
  cases newer <;> cases older <;> rfl

/-- A node at the end of the list. -/
theorem Runs.linkNewest (h : r.Runs es) (hi : i ∉ es.map Prod.fst)
    (hnode : ∃ newer older, r.nodes[i]? = some ⟨key, newer, older⟩) :
    (r.linkNewest i).Runs (es ++ [(i, key)]) := by
  obtain ⟨newer, older, hnode⟩ := hnode
  have hlast : last none es ≠ some i := fun heq => hi (mem_of_last heq)
  have hold := (h.linked.modify hi fun node =>
    { node with newer := none, older := r.newest }).onLast h.nodup (some i)
  rw [linkNewest_eq]
  refine ⟨linked_append.2 ⟨?_, ?_, trivial⟩, ?_, ?_, ?_⟩
  · rw [h.newest] at hold ⊢
    exact hold
  · simp only
    rw [h.newest, getElem?_onNode hlast, Array.getElem?_modify, if_pos rfl, hnode]
    rfl
  · simp only
    rw [h.oldest, first_append]
    cases es <;> rfl
  · simp only
    rw [last_append]
    rfl
  · rw [List.map_append]
    refine List.nodup_append.2 ⟨h.nodup, List.nodup_singleton _, fun a ha b hb heq => hi ?_⟩
    obtain rfl := List.mem_singleton.1 hb
    rwa [← heq]

/-- A node that is taken out of the list keeps its key. -/
theorem Runs.unlink (h : r.Runs (es ++ (i, key) :: fs)) :
    (r.unlink i).Runs (es ++ fs) ∧ i ∉ (es ++ fs).map Prod.fst ∧
      ∃ newer older, (r.unlink i).nodes[i]? = some ⟨key, newer, older⟩ := by
  obtain ⟨hes, hnode, hfs⟩ := linked_append.1 h.linked
  have hnodup := h.nodup
  rw [List.map_append, List.map_cons, List.nodup_append, List.nodup_cons] at hnodup
  obtain ⟨hnodupes, ⟨hifs, hnodupfs⟩, hdisjoint⟩ := hnodup
  have hies : i ∉ es.map Prod.fst := fun hmem => hdisjoint i hmem i (by simp) rfl
  have hapart : ∀ j ∈ es.map Prod.fst, j ∉ fs.map Prod.fst := fun j hj hj' =>
    hdisjoint j hj j (by simp [hj']) rfl
  have hnewest : r.newest = last (some i) fs := by
    rw [h.newest, last_append]
    rfl
  have holdest : r.oldest = first es (some i) := by
    rw [h.oldest, first_append]
    rfl
  rw [unlink_eq hnode]
  refine ⟨⟨linked_append.2 ⟨?_, ?_⟩, ?_, ?_, ?_⟩, ?_, first fs none, last none es, ?_⟩
  · have hbehind := hes.onOther (fun j hj hmem => hapart j hmem (mem_of_first hj))
      fun node => { node with older := last none es }
    exact hbehind.onLast hnodupes _
  · exact (hfs.onFirst hnodupfs _).onOther (fun j hj => hapart j (mem_of_last hj)) _
  · simp only
    rw [holdest, first_append]
    rcases List.eq_nil_or_concat' es with rfl | ⟨init, ⟨j, key⟩, rfl⟩
    · rfl
    · rw [last_append, first_append, first_append]
      cases init <;> rfl
  · simp only
    rw [hnewest, last_append]
    cases fs <;> rfl
  · rw [List.map_append]
    exact List.nodup_append.2 ⟨hnodupes, hnodupfs, fun a ha b hb heq => hapart a ha (heq ▸ hb)⟩
  · rw [List.map_append, List.mem_append]
    exact not_or.2 ⟨hies, hifs⟩
  · simp only
    rw [getElem?_onNode fun heq => hies (mem_of_last heq),
      getElem?_onNode fun heq => hifs (mem_of_first heq)]
    exact hnode

theorem Linked.lt_size (h : Linked nodes older es newer) :
    ∀ i ∈ es.map Prod.fst, i < nodes.size := by
  induction es generalizing older with
  | nil => nofun
  | cons entry es ih =>
    obtain ⟨i, key⟩ := entry
    intro j hj
    rcases List.mem_cons.1 hj with rfl | hj
    · exact (Array.getElem?_eq_some_iff.1 h.1).1
    · exact ih h.2 j hj

theorem positions_unlink (r : Recency κ) (i : Nat) :
    (r.unlink i).positions = r.positions ∧ (r.unlink i).spare = r.spare ∧
      (r.unlink i).nodes.size = r.nodes.size := by
  cases hnode : r.nodes[i]? with
  | none =>
    unfold unlink
    rw [hnode]
    exact ⟨rfl, rfl, rfl⟩
  | some node =>
    rw [unlink_eq hnode]
    exact ⟨rfl, rfl, by simp only [size_onNode]⟩

theorem size_linkNewest (r : Recency κ) (i : Nat) :
    (r.linkNewest i).nodes.size = r.nodes.size := by
  rw [linkNewest_eq]
  simp only [size_onNode, Array.size_modify]

theorem positions_linkNewest (r : Recency κ) (i : Nat) :
    (r.linkNewest i).positions = r.positions := by
  rw [linkNewest_eq]

theorem spare_linkNewest (r : Recency κ) (i : Nat) : (r.linkNewest i).spare = r.spare := by
  rw [linkNewest_eq]

/-! ## Keys and their nodes -/

variable [DecidableEq κ]

/-- The entries are the keys with their nodes, in the order of the list. -/
structure Orders (r : Recency κ) (es : List (Nat × κ)) : Prop where
  runs : r.Runs es
  positions : ∀ key i, r.positions.find? key = some i ↔ (i, key) ∈ es
  distinct : (es.map Prod.snd).Nodup
  spare : ∀ i ∈ r.spare, i < r.nodes.size ∧ i ∉ es.map Prod.fst
  spareNodup : r.spare.Nodup

theorem orders_empty : (empty : Recency κ).Orders [] where
  runs := ⟨trivial, rfl, rfl, List.nodup_nil⟩
  positions _ _ := by simp [empty]
  distinct := List.nodup_nil
  spare := nofun
  spareNodup := List.nodup_nil

/-- There are no more entries than nodes. -/
theorem Orders.length_le (h : r.Orders es) : es.length ≤ r.nodes.size := by
  have hsub : es.map Prod.fst ⊆ List.range r.nodes.size := fun i hi =>
    List.mem_range.2 (h.runs.linked.lt_size i hi)
  have hlength := (h.runs.nodup.subperm hsub).length_le
  rwa [List.length_map, List.length_range] at hlength

/-- The walk along the links lists the keys. -/
theorem Orders.toList_eq (h : r.Orders es) : r.toList = es.map Prod.snd := by
  unfold toList
  rw [h.runs.oldest]
  exact h.runs.linked.walk_eq h.length_le

/-- The entry of a key stands somewhere in the list. -/
theorem Orders.exists_split (h : r.Orders es) (hkey : r.positions.find? key = some i) :
    ∃ before behind, es = before ++ (i, key) :: behind ∧
      (es.map Prod.snd).erase key = (before ++ behind).map Prod.snd := by
  obtain ⟨before, behind, rfl⟩ := List.append_of_mem ((h.positions key i).1 hkey)
  have hdistinct := h.distinct
  rw [List.map_append, List.map_cons, List.nodup_append] at hdistinct
  have hnot : key ∉ before.map Prod.snd := fun hmem => hdistinct.2.2 key hmem key (by simp) rfl
  refine ⟨before, behind, rfl, ?_⟩
  rw [List.map_append, List.map_cons, List.erase_append_right _ hnot, List.erase_cons_head,
    List.map_append]

theorem Orders.not_mem (h : r.Orders es) (hkey : r.positions.find? key = none) :
    key ∉ es.map Prod.snd := by
  intro hmem
  obtain ⟨⟨i, key⟩, hentry, rfl⟩ := List.mem_map.1 hmem
  rw [(h.positions key i).2 hentry] at hkey
  cases hkey

/-- A key that is used again goes to the end. -/
theorem Orders.touch_again (h : r.Orders es) (hkey : r.positions.find? key = some i) :
    ∃ fs, (r.touch key).Orders fs ∧ fs.map Prod.snd = (es.map Prod.snd).erase key ++ [key] := by
  obtain ⟨before, behind, rfl, herase⟩ := h.exists_split hkey
  have htouch : r.touch key =
      if r.newest = some i then r else (r.unlink i).linkNewest i := by
    unfold touch
    rw [hkey]
  rw [htouch, herase]
  split
  · next hnewest =>
    refine ⟨_, h, ?_⟩
    have hlast : last (some i) behind = some i := by
      have hend := h.runs.newest
      rw [last_append, hnewest] at hend
      exact hend.symm
    have hnil : behind = [] := by
      rcases List.eq_nil_or_concat' behind with hnil | ⟨init, ⟨j, key'⟩, rfl⟩
      · exact hnil
      · rw [last_append] at hlast
        have hnodup := h.runs.nodup
        rw [List.map_append, List.nodup_append, List.map_cons, List.nodup_cons] at hnodup
        exact absurd (by simp [Option.some.inj hlast.symm]) hnodup.2.1.1
    rw [hnil, List.map_append, List.append_nil]
    rfl
  · obtain ⟨hruns, hnot, hnode⟩ := h.runs.unlink
    obtain ⟨hpositions, hspare, hsize⟩ := positions_unlink r i
    have hperm : (before ++ behind ++ [(i, key)]).Perm (before ++ (i, key) :: behind) := by
      rw [List.append_assoc]
      exact (List.perm_append_singleton _ _).append_left before
    refine ⟨_, ⟨hruns.linkNewest hnot hnode, fun key' j => ?_, ?_, fun j hj => ?_, ?_⟩, ?_⟩
    · rw [positions_linkNewest, hpositions, hperm.mem_iff]
      exact h.positions key' j
    · exact ((hperm.map Prod.snd).nodup_iff).2 h.distinct
    · rw [spare_linkNewest, hspare] at hj
      rw [size_linkNewest, hsize, (hperm.map Prod.fst).mem_iff]
      exact h.spare j hj
    · rw [spare_linkNewest, hspare]
      exact h.spareNodup
    · rw [List.map_append]
      rfl

/-- A node for a new key changes no node of the list. -/
theorem Orders.newNode (h : r.Orders es) (key : κ) :
    (r.newNode key).2.Runs es ∧ (r.newNode key).1 ∉ es.map Prod.fst ∧
      (r.newNode key).2.nodes[(r.newNode key).1]? = some ⟨key, none, none⟩ ∧
      (r.newNode key).2.positions = r.positions ∧
      (∀ i ∈ (r.newNode key).2.spare, i < (r.newNode key).2.nodes.size ∧ i ∉ es.map Prod.fst ∧
        i ≠ (r.newNode key).1) ∧
      (r.newNode key).2.spare.Nodup := by
  have hspare := h.spare
  have hnodup := h.spareNodup
  unfold Recency.newNode
  cases hcase : r.spare with
  | nil =>
    have hlt := h.runs.linked.lt_size
    refine ⟨⟨h.runs.linked.congr fun j hj => ?_, h.runs.oldest, h.runs.newest, h.runs.nodup⟩,
      fun hmem => Nat.lt_irrefl _ (hlt _ hmem), by simp, rfl, ?_, ?_⟩
    · exact Array.getElem?_push_lt (hlt j hj) |>.trans (Array.getElem?_eq_getElem (hlt j hj)).symm
    · simp only
      nofun
    · exact List.nodup_nil
  | cons i spare =>
    rw [hcase] at hspare hnodup
    obtain ⟨hlt, hnot⟩ := hspare i (by simp)
    obtain ⟨hi, hrest⟩ := List.nodup_cons.1 hnodup
    refine ⟨⟨h.runs.linked.congr fun j hj => ?_, h.runs.oldest, h.runs.newest, h.runs.nodup⟩,
      hnot, ?_, rfl, fun j hj => ?_, hrest⟩
    · have hne : i ≠ j := fun heq => hnot (heq ▸ hj)
      exact Array.getElem?_setIfInBounds_ne hne
    · exact Array.getElem?_setIfInBounds_self_of_lt hlt
    · obtain ⟨hlt', hnot'⟩ := hspare j (by simp [hj])
      have hne : j ≠ i := fun heq => hi (heq ▸ hj)
      refine ⟨?_, hnot', hne⟩
      simp only [Array.size_setIfInBounds]
      exact hlt'

/-- A key that was not there yet comes to the end. -/
theorem Orders.touch_new (h : r.Orders es) (hkey : r.positions.find? key = none) :
    ∃ fs, (r.touch key).Orders fs ∧ fs.map Prod.snd = es.map Prod.snd ++ [key] := by
  obtain ⟨hruns, hnot, hnode, hpositions, hspare, hnodup⟩ := h.newNode key
  obtain ⟨i, hi⟩ : ∃ i, i = (r.newNode key).1 := ⟨_, rfl⟩
  obtain ⟨r', hr'⟩ : ∃ r', r' = (r.newNode key).2 := ⟨_, rfl⟩
  rw [← hi, ← hr'] at hspare hnode
  rw [← hi] at hnot
  rw [← hr'] at hruns hpositions hnodup
  have htouch : r.touch key =
      { r'.linkNewest i with positions := (r'.linkNewest i).positions.put key i } := by
    rw [hi, hr']
    unfold touch
    rw [hkey]
  have hlinked := hruns.linkNewest hnot ⟨_, _, hnode⟩
  rw [htouch]
  refine ⟨es ++ [(i, key)],
    ⟨⟨hlinked.linked, hlinked.oldest, hlinked.newest, hlinked.nodup⟩, fun key' j => ?_, ?_,
      fun j hj => ?_, ?_⟩, by rw [List.map_append]; rfl⟩
  · simp only [positions_linkNewest, hpositions]
    by_cases hkey' : key' = key
    · subst hkey'
      rw [Table.find?_put_self]
      have hnew : (j, key') ∉ es := fun hmem => by
        rw [(h.positions key' j).2 hmem] at hkey
        cases hkey
      simp [hnew, eq_comm]
    · rw [Table.find?_put_of_ne (Ne.symm hkey'), h.positions key' j]
      simp [hkey']
  · rw [List.map_append]
    refine List.nodup_append.2 ⟨h.distinct, List.nodup_singleton _, fun a ha b hb heq => ?_⟩
    obtain rfl := List.mem_singleton.1 hb
    exact h.not_mem hkey (heq ▸ ha)
  · obtain ⟨hlt, hout, hne⟩ := hspare j ((spare_linkNewest r' i) ▸ hj)
    refine ⟨(size_linkNewest r' i).symm ▸ hlt, ?_⟩
    rw [List.map_append, List.mem_append]
    exact not_or.2 ⟨hout, by simpa using hne⟩
  · exact (spare_linkNewest r' i).symm ▸ hnodup

/-- A key that is forgotten is taken out. -/
theorem Orders.forget (h : r.Orders es) (key : κ) :
    ∃ fs, (r.forget key).Orders fs ∧ fs.map Prod.snd = (es.map Prod.snd).erase key := by
  unfold Recency.forget
  cases hkey : r.positions.find? key with
  | none =>
    refine ⟨es, h, ?_⟩
    rw [List.erase_of_not_mem (h.not_mem hkey)]
  | some i =>
    obtain ⟨before, behind, rfl, herase⟩ := h.exists_split hkey
    obtain ⟨hruns, hnot, -⟩ := h.runs.unlink
    obtain ⟨hpositions, hspare, hsize⟩ := positions_unlink r i
    have hgone : key ∉ (before ++ behind).map Prod.snd := by
      rw [← herase]
      exact h.distinct.not_mem_erase
    have hin : (i, key) ∈ before ++ (i, key) :: behind := by simp
    refine ⟨before ++ behind,
      ⟨⟨hruns.linked, hruns.oldest, hruns.newest, hruns.nodup⟩, fun key' j => ?_, ?_,
        fun j hj => ?_, ?_⟩, herase.symm⟩
    · simp only [hpositions]
      by_cases hkey' : key' = key
      · subst hkey'
        have hnone : (j, key') ∉ before ++ behind := fun hmem =>
          hgone (List.mem_map_of_mem hmem)
        simp only [Table.find?_erase_self, hnone, reduceCtorEq]
      · rw [Table.find?_erase_of_ne (Ne.symm hkey'), h.positions key' j]
        simp [hkey']
    · rw [← herase]
      exact h.distinct.erase _
    · simp only [hspare, hsize] at hj ⊢
      rcases List.mem_cons.1 hj with rfl | hj
      · exact ⟨h.runs.linked.lt_size j (List.mem_map_of_mem hin), hnot⟩
      · obtain ⟨hlt, hout⟩ := h.spare j hj
        refine ⟨hlt, fun hmem => hout ?_⟩
        rw [List.map_append, List.mem_append] at hmem
        rw [List.map_append, List.map_cons, List.mem_append, List.mem_cons]
        exact hmem.imp_right .inr
    · simp only [hspare]
      exact List.nodup_cons.2 ⟨fun hmem => (h.spare i hmem).2 (List.mem_map_of_mem hin),
        h.spareNodup⟩

/-! ## The list of keys -/

/-- The links are in order. -/
def Valid (r : Recency κ) : Prop := ∃ es, r.Orders es

theorem valid_empty : (empty : Recency κ).Valid := ⟨[], orders_empty⟩

theorem toList_empty : (empty : Recency κ).toList = [] := orders_empty.toList_eq

/-- Every key is listed once. -/
theorem Valid.nodup_toList (h : r.Valid) : r.toList.Nodup := by
  obtain ⟨es, hes⟩ := h
  rw [hes.toList_eq]
  exact hes.distinct

/-- The keys in the list are those that have a node. -/
theorem Valid.mem_toList (h : r.Valid) : key ∈ r.toList ↔ r.positions.find? key ≠ none := by
  obtain ⟨es, hes⟩ := h
  rw [hes.toList_eq]
  cases hkey : r.positions.find? key with
  | none => simp [hes.not_mem hkey]
  | some i => simpa using ⟨i, (hes.positions key i).1 hkey⟩

/-- A key that is used goes to the end of the list. -/
theorem Valid.touch (h : r.Valid) (key : κ) :
    (r.touch key).Valid ∧ (r.touch key).toList = r.toList.erase key ++ [key] := by
  obtain ⟨es, hes⟩ := h
  have htouch : ∃ fs, (r.touch key).Orders fs ∧
      fs.map Prod.snd = (es.map Prod.snd).erase key ++ [key] := by
    cases hkey : r.positions.find? key with
    | some i => exact hes.touch_again hkey
    | none =>
      rw [List.erase_of_not_mem (hes.not_mem hkey)]
      exact hes.touch_new hkey
  obtain ⟨fs, hfs, heq⟩ := htouch
  exact ⟨⟨fs, hfs⟩, by rw [hfs.toList_eq, hes.toList_eq, heq]⟩

/-- A key that is forgotten is taken out of the list. -/
theorem Valid.forget (h : r.Valid) (key : κ) :
    (r.forget key).Valid ∧ (r.forget key).toList = r.toList.erase key := by
  obtain ⟨es, hes⟩ := h
  obtain ⟨fs, hfs, heq⟩ := hes.forget key
  exact ⟨⟨fs, hfs⟩, by rw [hfs.toList_eq, hes.toList_eq, heq]⟩

/-! ## Keys by their age -/

/-- In a list from the oldest key to the youngest, the key that is used becomes the youngest, and
all others grow older alike. -/
theorem pairwise_touch {order : List κ} {age age' : κ → Nat} (hnodup : order.Nodup)
    (h : order.Pairwise fun a b => age b < age a) (hself : age' key = 0)
    (hother : ∀ k, k ≠ key → age' k = age k + 1) :
    (order.erase key ++ [key]).Pairwise fun a b => age' b < age' a := by
  have hne {k : κ} (hk : k ∈ order.erase key) : k ≠ key := fun heq =>
    hnodup.not_mem_erase (heq ▸ hk)
  refine List.pairwise_append.2 ⟨?_, List.pairwise_singleton _ _, fun a ha b hb => ?_⟩
  · refine (h.sublist List.erase_sublist).imp_of_mem fun {a b} ha hb hlt => ?_
    rw [hother a (hne ha), hother b (hne hb)]
    exact Nat.succ_lt_succ hlt
  · rw [List.mem_singleton.1 hb, hself, hother a (hne ha)]
    exact Nat.succ_pos _

end Recency

end PagedHeap
