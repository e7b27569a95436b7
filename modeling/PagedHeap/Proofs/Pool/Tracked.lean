import PagedHeap.Pool.Basic
import PagedHeap.Proofs.Pool.Recency

/-!
# The pages in the pool and the order of their last use

A pool is tracked if the pages that stand in its order of last use are those that have a frame.
Then a page without a pin can be given up whenever there is one.
-/

namespace PagedHeap

namespace Pool

/-- The pages in the pool are those that stand in the order of last use. -/
structure Tracked (p : Pool) : Prop where
  valid : p.recency.Valid
  nodup : p.frames.keys.Nodup
  listed : ∀ key, key ∈ p.recency.toList ↔ key ∈ p.frames.keys

variable {p q : Pool} {key : FrameKey}

theorem size_eq (p : Pool) : p.size = p.frames.keys.length := (List.length_map _).symm

/-- Pools with frames for the same pages have the same number of frames. -/
theorem size_congr (hkeys : q.frames.keys = p.frames.keys) : q.size = p.size := by
  rw [size_eq, hkeys, ← size_eq]

theorem tracked_empty (capacity : Nat) : (empty capacity).Tracked where
  valid := Recency.valid_empty
  nodup := List.nodup_nil
  listed key := by
    change key ∈ (Recency.empty : Recency FrameKey).toList ↔ key ∈ []
    rw [Recency.toList_empty]

/-! ## Operations that keep the frames -/

theorem keys_setPage (p : Pool) (pin : Pin) (page : Page) :
    (p.setPage pin page).frames.keys = p.frames.keys := by
  unfold setPage
  simp only [Table.keys_adjust]

theorem keys_setClean (p : Pool) (key : FrameKey) :
    (p.setClean key).frames.keys = p.frames.keys := by
  unfold setClean
  simp only [Table.keys_adjust]

theorem keys_forgetHolder (p : Pool) (pin : Pin) :
    (p.forgetHolder pin).frames.keys = p.frames.keys := by
  unfold forgetHolder
  simp only [Table.keys_adjust]

/-- Frames change, but not which there are. -/
theorem Tracked.of_keys (h : p.Tracked) (hkeys : q.frames.keys = p.frames.keys)
    (hrecency : q.recency = p.recency) : q.Tracked where
  valid := hrecency ▸ h.valid
  nodup := hkeys ▸ h.nodup
  listed key := by
    rw [hkeys, hrecency]
    exact h.listed key

/-- A page that has a frame is used. -/
theorem Tracked.touch (h : p.Tracked) (hkey : key ∈ p.frames.keys)
    (hkeys : q.frames.keys = p.frames.keys) (hrecency : q.recency = p.recency.touch key) :
    q.Tracked := by
  obtain ⟨hvalid, hlist⟩ := h.valid.touch key
  refine ⟨hrecency ▸ hvalid, hkeys ▸ h.nodup, fun key' => ?_⟩
  rw [hkeys, hrecency, hlist, List.mem_append, List.mem_singleton]
  by_cases heq : key' = key
  · simp only [heq, hkey, or_true]
  · rw [List.mem_erase_of_ne heq, h.listed]
    simp only [heq, or_false]

/-! ## Frames come and go -/

/-- A page gets a frame. -/
theorem Tracked.load (h : p.Tracked) (key : FrameKey) (page : Page) (dirty : Bool) :
    (p.load key page dirty).2.Tracked := by
  obtain ⟨hvalid, hlist⟩ := h.valid.touch key
  refine ⟨hvalid, Table.nodup_keys_put h.nodup _ _, fun key' => ?_⟩
  change key' ∈ (p.recency.touch key).toList ↔ key' ∈ (p.frames.put key _).keys
  rw [hlist, List.mem_append, List.mem_singleton, Table.mem_keys_put]
  by_cases heq : key' = key
  · simp only [heq, or_true, true_or]
  · rw [List.mem_erase_of_ne heq, h.listed]
    simp only [heq, or_false, false_or]

/-- A frame is given up. -/
theorem Tracked.unload (h : p.Tracked) (key : FrameKey) : (p.unload key).Tracked := by
  obtain ⟨hvalid, hlist⟩ := h.valid.forget key
  refine ⟨hvalid, Table.nodup_keys_erase h.nodup _, fun key' => ?_⟩
  change key' ∈ (p.recency.forget key).toList ↔ key' ∈ (p.frames.erase key).keys
  rw [hlist, h.valid.nodup_toList.mem_erase_iff, Table.mem_keys_erase, h.listed]

/-- If a frame has no pin, some frame can be given up. -/
theorem Tracked.exists_victim (h : p.Tracked) {frame : Frame}
    (hfind : p.frames.find? key = some frame) (hpins : frame.pins = 0) :
    ∃ key, p.victim? = some key := by
  refine Option.isSome_iff_exists.1 ?_
  unfold victim?
  rw [List.find?_isSome]
  refine ⟨key, (h.listed key).2 (Table.mem_keys_of_find? hfind), ?_⟩
  simp only [hfind, hpins, beq_self_eq_true]

end Pool

end PagedHeap
