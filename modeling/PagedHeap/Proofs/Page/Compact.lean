import PagedHeap.Proofs.Page.Pack

/-!
# Compacting a page

The records of a well-formed page always fit below its end, and packing them there gives a
well-formed page with the same directory and the same records, on which no byte is fragmented
(`SlottedPage.WellFormed.compact_eq`).
-/

namespace PagedHeap

namespace SlottedPage

/-! ## Two pages with the same records -/

/-- A slot that is in use on both pages or on neither, and has the same bytes, has the same
record. -/
theorem record?_congr {p q : SlottedPage} (hp : p.WellFormed) (hq : q.WellFormed) {slot : SlotId}
    (hlive : q.Live slot.toNat ↔ p.Live slot.toNat)
    (hbytes : p.Live slot.toNat →
      q.data.slice (q.slotAt slot.toNat).offset.toNat (q.slotAt slot.toNat).length.toNat =
        p.data.slice (p.slotAt slot.toNat).offset.toNat (p.slotAt slot.toNat).length.toNat) :
    q.record? slot = p.record? slot := by
  by_cases h : p.Live slot.toNat
  · rw [hq.record?_of_live (hlive.2 h), hp.record?_of_live h, hbytes h]
  · rw [WellFormed.record?_of_not_live h,
      WellFormed.record?_of_not_live fun hc => h (hlive.1 hc)]

/-- What compacting a page changes and keeps. -/
structure Compacted (p q : SlottedPage) : Prop where
  wellFormed : q.WellFormed
  /-- Only the counters of the header change. -/
  header : q.header = { p.header with contentStart := q.header.contentStart, fragmented := 0 }
  /-- The empty entries of the directory stay empty. -/
  entries : ∀ i < p.slotCount, (q.slotAt i).isEmpty = (p.slotAt i).isEmpty
  /-- The records start as late as they can. -/
  contentStart : q.header.contentStart.toNat + usedBytes p.slotAt p.slotCount = pageSize
  record? : q.record? = p.record?

namespace WellFormed

variable {p : SlottedPage} (h : p.WellFormed)
include h

/-- The range of a record has the length of the record. -/
theorem length_of_mem_records {slot : SlotId} {bytes : Bytes} (hr : (slot, bytes) ∈ p.records) :
    bytes.length = (p.slotAt slot.toNat).size := by
  rw [h.mem_records] at hr
  have hlive : p.Live slot.toNat := h.isSome_record?.1 (by rw [hr]; rfl)
  have hrange := h.layout.range _ hlive.1 hlive.2
  rw [h.record?_of_live hlive] at hr
  rw [← Option.some.inj hr, Slot.size_of_not_isEmpty hlive.2]
  exact Block.length_slice_of_le _ hrange.2

/-- The records have the bytes that the directory accounts for. -/
theorem recordBytes_records : recordBytes p.records = usedBytes p.slotAt p.slotCount := by
  have hskip : ∀ l : List Nat,
      ((l.filter fun i => !(p.slotAt i).isEmpty).map fun i => (p.slotAt i).size).sum =
        (l.map fun i => (p.slotAt i).size).sum := fun l => by
    induction l with
    | nil => rfl
    | cons i l ih =>
      cases hi : (p.slotAt i).isEmpty with
      | false => simp [hi, ih]
      | true => simp [hi, ih, Slot.size_of_isEmpty hi]
  calc recordBytes p.records
      = (p.records.map fun r => (p.slotAt r.1.toNat).size).sum :=
        congrArg List.sum (List.map_congr_left fun r hr => h.length_of_mem_records hr)
    _ = (p.slots.map fun s => (p.slotAt s.toNat).size).sum := by
        rw [← h.records_map_fst, List.map_map]
        rfl
    _ = (((List.range p.slotCount).filter fun i => !(p.slotAt i).isEmpty).map
          fun i => (p.slotAt i).size).sum := by
        unfold slots slotsFrom
        rw [List.map_map, Nat.sub_zero, ← List.range_eq_range']
        refine congrArg List.sum (List.map_congr_left fun i hi => ?_)
        have hlt := List.mem_range.1 (List.mem_filter.1 hi).1
        rw [Function.comp_apply, toNat_ofNat_of_lt_slotCount hlt]
    _ = usedBytes p.slotAt p.slotCount := hskip _

/-- The records can be packed below the end of the page. -/
theorem packAll_records : ∃ q,
    packAll pageSize p p.records = .ok (pageSize - usedBytes p.slotAt p.slotCount, q) ∧
      PackedAll p q (Slot.position p.slotCount) pageSize
        (pageSize - usedBytes p.slotAt p.slotCount) p.records := by
  have ha := h.layout.account
  have hd := h.layout.directory
  have hslots : ∀ r ∈ p.records, Slot.position r.1.toNat + slotSize ≤
      Slot.position p.slotCount := fun r hr => by
    have hmem : r.1 ∈ p.slots := h.records_map_fst ▸ List.mem_map_of_mem hr
    have hlt := (mem_slots.1 hmem).1
    simp only [Slot.position, dataHeaderSize, slotSize]
    omega
  have := packAll_spec (p := p) (Slot.position p.slotCount) p.records (Nat.le_add_right _ _) le_rfl
    hslots
    (h.records_map_fst ▸ p.nodup_slotsFrom 0) (by rw [h.recordBytes_records]; omega)
  rwa [h.recordBytes_records] at this

/-- Every entry of the directory is empty or that of a packed record. -/
theorem slotAt_packedAll {q : SlottedPage} {low : Nat}
    (hq : PackedAll p q (Slot.position p.slotCount) pageSize low p.records) {i : Nat}
    (hi : i < p.slotCount) :
    ((p.slotAt i).isEmpty = true ∧ q.slotAt i = p.slotAt i) ∨
      ((p.slotAt i).isEmpty = false ∧
        ∃ bytes, (UInt16.ofNat i, bytes) ∈ p.records ∧
          q.Placed low pageSize (UInt16.ofNat i) bytes) := by
  have hnat : (UInt16.ofNat i).toNat = i := toNat_ofNat_of_lt_slotCount hi
  cases hempty : (p.slotAt i).isEmpty with
  | true =>
    refine Or.inl ⟨rfl, hq.entries i ?_ fun r hr heq => ?_⟩
    · simp only [Slot.position, dataHeaderSize, slotSize]
      omega
    · have hmem : r.1 ∈ p.slots := h.records_map_fst ▸ List.mem_map_of_mem hr
      have hlive := (mem_slots.1 hmem).2
      rw [heq, hempty] at hlive
      cases hlive
  | false =>
    have hlive : p.Live (UInt16.ofNat i).toNat := by
      rw [hnat]
      exact ⟨hi, hempty⟩
    have hmem : (UInt16.ofNat i, _) ∈ p.records := h.mem_records.2 (h.record?_of_live hlive)
    exact Or.inr ⟨rfl, _, hmem, hq.placed _ hmem⟩

/-- The directory of a page whose records were packed below its end. -/
theorem layout_packedAll {q : SlottedPage}
    (hq : PackedAll p q (Slot.position p.slotCount) pageSize
      (pageSize - usedBytes p.slotAt p.slotCount) p.records) :
    Layout q.slotAt p.slotCount (pageSize - usedBytes p.slotAt p.slotCount) 0 := by
  have ha := h.layout.account
  have hd := h.layout.directory
  have hsize : ∀ i < p.slotCount, (q.slotAt i).size = (p.slotAt i).size := fun i hi => by
    rcases h.slotAt_packedAll hq hi with ⟨-, heq⟩ | ⟨-, bytes, hmem, hplaced⟩
    · rw [heq]
    · have hlen := h.length_of_mem_records hmem
      have hnat : (UInt16.ofNat i).toNat = i := toNat_ofNat_of_lt_slotCount hi
      have hlive := hplaced.live
      have hlength := hplaced.length_eq
      rw [hnat] at hlen hlive hlength
      rw [Slot.size_of_not_isEmpty hlive, hlength, hlen]
  refine ⟨by omega, Nat.sub_le _ _, fun i hi he => ?_, fun i hi j hj hij hei hej => ?_, ?_⟩
  · rcases h.slotAt_packedAll hq hi with ⟨hempty, heq⟩ | ⟨-, bytes, -, hplaced⟩
    · rw [heq, hempty] at he
      cases he
    · have hnat : (UInt16.ofNat i).toNat = i := toNat_ofNat_of_lt_slotCount hi
      have hlow := hplaced.low_le
      have hhigh := hplaced.le_high
      rw [hnat] at hlow hhigh
      exact ⟨hlow, hhigh⟩
  · have hsymm : Std.Symm fun r t : SlotId × Bytes =>
        (q.slotAt r.1.toNat).Apart (q.slotAt t.1.toNat) := ⟨fun _ _ => Slot.Apart.symm⟩
    have hinat : (UInt16.ofNat i).toNat = i := toNat_ofNat_of_lt_slotCount hi
    have hjnat : (UInt16.ofNat j).toNat = j := toNat_ofNat_of_lt_slotCount hj
    rcases h.slotAt_packedAll hq hi with ⟨hempty, heq⟩ | ⟨-, bi, himem, -⟩
    · rw [heq, hempty] at hei
      cases hei
    · rcases h.slotAt_packedAll hq hj with ⟨hempty, heq⟩ | ⟨-, bj, hjmem, -⟩
      · rw [heq, hempty] at hej
        cases hej
      · have hne : (UInt16.ofNat i, bi) ≠ (UInt16.ofNat j, bj) := fun heq => by
          have := congrArg (fun r => r.1.toNat) heq
          simp only [hinat, hjnat] at this
          exact hij this
        have := hq.apart.forall himem hjmem hne
        rwa [hinat, hjnat] at this
  · have : usedBytes q.slotAt p.slotCount = usedBytes p.slotAt p.slotCount :=
      Finset.sum_congr rfl fun i hi => hsize i (Finset.mem_range.1 hi)
    omega

/-- A well-formed page can be compacted, which keeps every record in its slot. -/
theorem compact_eq : ∃ q, p.compact = .ok q ∧ p.Compacted q := by
  obtain ⟨q, hpack, hq⟩ := h.packAll_records
  have ha := h.layout.account
  have hlayout := h.layout_packedAll hq
  obtain ⟨start, hstart⟩ :
      ∃ start, start = UInt16.ofNat (pageSize - usedBytes p.slotAt p.slotCount) :=
    ⟨_, rfl⟩
  obtain ⟨r, hr⟩ : ∃ r, r = q.withHeader { p.header with contentStart := start, fragmented := 0 } :=
    ⟨_, rfl⟩
  have hstart' : start.toNat = pageSize - usedBytes p.slotAt p.slotCount := by
    rw [hstart, UInt16.toNat_ofNat']
    exact Nat.mod_eq_of_lt (by simp only [pageSize]; omega)
  have hheader : r.header = { p.header with contentStart := start, fragmented := 0 } := by
    rw [hr, header_withHeader]
  have hcount : r.slotCount = p.slotCount := by rw [slotCount, hheader]; rfl
  have hentry : ∀ i < p.slotCount, r.slotAt i = q.slotAt i := fun i hi => by
    have := hlayout.position_le hi
    rw [hr]
    exact slotAt_withHeader (by omega)
  have hempty : ∀ i < p.slotCount, (r.slotAt i).isEmpty = (p.slotAt i).isEmpty := fun i hi => by
    rw [hentry i hi]
    rcases h.slotAt_packedAll hq hi with ⟨-, heq⟩ | ⟨hlive, bytes, -, hplaced⟩
    · rw [heq]
    · have := hplaced.live
      rwa [toNat_ofNat_of_lt_slotCount hi, ← hlive] at this
  have hwf : r.WellFormed := by
    rw [hr]
    refine wellFormed_withHeader h.kind (hstart' ▸ hlayout) (fun _ _ => rfl) fun k hk => ?_
    have hlast : p.slotCount = k + 1 := hk
    have hlt : k < p.slotCount := hlast ▸ Nat.lt_succ_self k
    rw [← hentry k hlt, hempty k hlt]
    exact h.last k hlast
  refine ⟨r, ?_, hwf, by rw [hheader], hempty, by rw [hheader, hstart']; omega, ?_⟩
  · rw [compact, hpack, hr, hstart]
    rfl
  · funext slot
    refine record?_congr h hwf (live_iff_of_isEmpty_eq hcount hempty _) fun hlive => ?_
    have hmem := h.mem_records.2 (h.record?_of_live hlive)
    have hplaced : q.Placed _ pageSize slot _ := hq.placed _ hmem
    have hlow := (hlayout.range _ hlive.1 hplaced.live).1
    have hdirectory := hlayout.directory
    have hsize : dataHeaderSize ≤ Slot.position p.slotCount := Nat.le_add_right _ _
    have hstop := hplaced.le_high
    rw [Slot.stop, hplaced.length_eq] at hstop
    rw [hentry _ hlive.1, hplaced.length_eq, hr, slice_withHeader_of_le (by omega) hstop]
    exact hplaced.slice_eq

end WellFormed

end SlottedPage

end PagedHeap
