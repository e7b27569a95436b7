import PagedHeap.Proofs.Ensures
import PagedHeap.Proofs.Page.WellFormed

/-!
# Packing records

What storing one record and its entry does to the bytes of a page, and what packing a list of
records does: each of them is found in its own range below the ones packed before
(`SlottedPage.Placed`), and nothing else of the header, the directory or the record area behind
them changes.  Whether there is room for them is a matter of their size alone.  Storing a header
afterwards changes no entry and no record.
-/

namespace PagedHeap

namespace SlottedPage

/-- The page after a record was stored at `offset` as the record of entry `slot`. -/
def packed (p : SlottedPage) (offset : Nat) (slot : SlotId) (bytes : Bytes) : SlottedPage where
  data := (p.data.overwrite offset bytes).overwrite (Slot.position slot.toNat)
    (Slot.ofRange offset bytes.length).encode
  header := p.header

section Packed

variable {p : SlottedPage} {offset : Nat} {slot : SlotId} {bytes : Bytes}

@[simp] theorem header_packed : (p.packed offset slot bytes).header = p.header := by
  simp only [packed]

/-- A record is packed whatever stands in its range. -/
theorem pack_eq (p : SlottedPage) (slot : SlotId) (bytes : Bytes) {start : Nat}
    (hstart : start ≤ pageSize) (hslot : Slot.position slot.toNat + slotSize ≤ pageSize)
    (hle : bytes.length ≤ start) :
    pack start p slot bytes =
      .ok (start - bytes.length, p.packed (start - bytes.length) slot bytes) := by
  have hcontent : start - bytes.length + bytes.length ≤ pageSize := by omega
  simp only [pack, subtract, setContent, setSlot, if_pos hle, if_pos hcontent, if_pos hslot,
    Result.bind_ok]
  rfl

/-- The entry is the one of the stored record. -/
theorem slotAt_packed_self (hin : Slot.position slot.toNat + slotSize ≤ pageSize) :
    (p.packed offset slot bytes).slotAt slot.toNat = Slot.ofRange offset bytes.length :=
  Slot.load_overwrite_self _ _ _ hin

/-- The other entries that end before the record stay as they are. -/
theorem slotAt_packed_of_ne {i : Nat} (hne : i ≠ slot.toNat)
    (hin : Slot.position i + slotSize ≤ offset) (hoffset : offset ≤ pageSize) :
    (p.packed offset slot bytes).slotAt i = p.slotAt i := by
  unfold slotAt packed
  rw [Slot.load_overwrite_of_disjoint _ _ _ _ (by omega)
      (by rw [Slot.length_encode]; exact Slot.position_disjoint hne),
    Slot.load_overwrite_of_disjoint _ _ _ _ (by omega) (Or.inl hin)]

/-- The record stands in its range. -/
theorem slice_packed_self (hslot : Slot.position slot.toNat + slotSize ≤ offset)
    (hin : offset + bytes.length ≤ pageSize) :
    (p.packed offset slot bytes).data.slice offset bytes.length = bytes := by
  unfold packed
  rw [Block.slice_overwrite_of_disjoint _ _ _ _ _ hin
      (Or.inr (by rw [Slot.length_encode]; exact hslot)),
    Block.slice_overwrite_self _ _ _ hin]

/-- The page header and everything behind the record stay as they are. -/
theorem byteAt_packed {i : Nat} (hi : i < pageSize)
    (hslot : Slot.position slot.toNat + slotSize ≤ offset)
    (hout : i < dataHeaderSize ∨ offset + bytes.length ≤ i) :
    (p.packed offset slot bytes).data.byteAt i = p.data.byteAt i := by
  have hpos : dataHeaderSize ≤ Slot.position slot.toNat := Nat.le_add_right _ _
  have hsize : (Slot.ofRange offset bytes.length).encode.length = slotSize := Slot.length_encode _
  unfold packed
  rw [Block.byteAt_overwrite_of_not_mem _ _ _ _ hi (by omega),
    Block.byteAt_overwrite_of_not_mem _ _ _ _ hi (by omega)]

end Packed

/-! ## Packing several records -/

/-- The entry of a record points to a range between `low` and `high` that holds its bytes. -/
structure Placed (p : SlottedPage) (low high : Nat) (slot : SlotId) (bytes : Bytes) : Prop where
  live : (p.slotAt slot.toNat).isEmpty = false
  low_le : low ≤ (p.slotAt slot.toNat).offset.toNat
  le_high : (p.slotAt slot.toNat).stop ≤ high
  length_eq : (p.slotAt slot.toNat).length.toNat = bytes.length
  slice_eq : p.data.slice (p.slotAt slot.toNat).offset.toNat bytes.length = bytes

/-- What packing a list of records below `start` does, when the directory ends at `limit`. -/
structure PackedAll (p q : SlottedPage) (limit start low : Nat)
    (records : List (SlotId × Bytes)) : Prop where
  header : q.header = p.header
  entries : ∀ i, Slot.position i + slotSize ≤ limit → (∀ r ∈ records, r.1.toNat ≠ i) →
    q.slotAt i = p.slotAt i
  bytes : ∀ i, i < pageSize → i < dataHeaderSize ∨ start ≤ i → q.data.byteAt i = p.data.byteAt i
  placed : ∀ r ∈ records, q.Placed low start r.1 r.2
  apart : records.Pairwise fun r t => (q.slotAt r.1.toNat).Apart (q.slotAt t.1.toNat)

/-- The number of bytes of a list of records. -/
def recordBytes (records : List (SlotId × Bytes)) : Nat :=
  (records.map fun r => r.2.length).sum

section PackAll

variable {p : SlottedPage} {start : Nat} {records : List (SlotId × Bytes)}
  (hslots : ∀ r ∈ records, Slot.position r.1.toNat + slotSize ≤ pageSize)
  (hstart : start ≤ pageSize)
include hslots hstart

/-- Records are packed if all of them together are not longer than the page is up to there. -/
theorem packAll_of_le (hle : recordBytes records ≤ start) :
    ∃ q, packAll start p records = .ok (start - recordBytes records, q) ∧ q.header = p.header := by
  induction records generalizing start p with
  | nil => exact ⟨p, rfl, rfl⟩
  | cons r rest ih =>
    obtain ⟨slot, bytes⟩ := r
    have hsum : recordBytes ((slot, bytes) :: rest) = bytes.length + recordBytes rest := rfl
    obtain ⟨hslot, hrest⟩ := List.forall_mem_cons.1 hslots
    obtain ⟨q, hq, hheader⟩ := @ih (p.packed (start - bytes.length) slot bytes)
      (start - bytes.length) hrest (by omega) (by omega)
    rw [packAll, pack_eq p slot bytes hstart hslot (by omega), hsum, ← Nat.sub_sub]
    exact ⟨q, hq, hheader.trans header_packed⟩

/-- Otherwise packing them runs over the start of the page. -/
theorem packAll_of_lt (hlt : start < recordBytes records) :
    packAll start p records = .stop .overflow := by
  induction records generalizing start p with
  | nil => exact absurd hlt (Nat.not_lt_zero _)
  | cons r rest ih =>
    obtain ⟨slot, bytes⟩ := r
    have hsum : recordBytes ((slot, bytes) :: rest) = bytes.length + recordBytes rest := rfl
    obtain ⟨hslot, hrest⟩ := List.forall_mem_cons.1 hslots
    rw [packAll]
    by_cases hle : bytes.length ≤ start
    · rw [pack_eq p slot bytes hstart hslot hle, Result.bind_ok]
      exact ih hrest (by omega) (by omega)
    · unfold pack subtract
      rw [if_neg hle]
      rfl

end PackAll

/-- A record is packed, and the others below it. -/
theorem PackedAll.cons {p q : SlottedPage} {limit start low : Nat} {slot : SlotId} {bytes : Bytes}
    {rest : List (SlotId × Bytes)} (hheader : dataHeaderSize ≤ limit) (hstart : start ≤ pageSize)
    (hslot : Slot.position slot.toNat + slotSize ≤ limit) (hroom : limit + bytes.length ≤ start)
    (hlow : low ≤ start - bytes.length) (hfresh : ∀ t ∈ rest, t.1 ≠ slot)
    (h : PackedAll (p.packed (start - bytes.length) slot bytes) q limit (start - bytes.length) low
      rest) : PackedAll p q limit start low ((slot, bytes) :: rest) := by
  -- the entry of the first record is not touched by the others
  have hentry : q.slotAt slot.toNat = Slot.ofRange (start - bytes.length) bytes.length := by
    rw [h.entries slot.toNat hslot fun t ht heq => hfresh t ht (UInt16.toNat_inj.1 heq)]
    exact slotAt_packed_self (by omega)
  have hoffset := Slot.offset_ofRange bytes.length
    (show start - bytes.length ≤ pageSize by omega)
  have hstop := Slot.stop_ofRange (show start - bytes.length + bytes.length ≤ pageSize by omega)
  refine ⟨h.header.trans header_packed, ?_, ?_, ?_, ?_⟩
  · intro i hi hne
    have hi' : i ≠ slot.toNat := fun heq => hne (slot, bytes) (by simp) heq.symm
    rw [h.entries i hi fun t ht => hne t (by simp [ht])]
    exact slotAt_packed_of_ne hi' (by omega) (by omega)
  · intro i hi hout
    rw [h.bytes i hi (by omega)]
    exact byteAt_packed hi (by omega) (by omega)
  · intro t ht
    rcases List.mem_cons.1 ht with rfl | ht
    · refine ⟨?_, ?_, ?_, ?_, ?_⟩
      · rw [hentry]
        exact Slot.isEmpty_ofRange (by simp only [dataHeaderSize] at hheader; omega) (by omega)
      · rw [hentry, hoffset]
        exact hlow
      · rw [hentry, hstop]
        omega
      · rw [hentry]
        exact Slot.length_ofRange (by omega)
      · rw [hentry, hoffset]
        calc q.data.slice (start - bytes.length) bytes.length
            = (p.packed (start - bytes.length) slot bytes).data.slice (start - bytes.length)
                bytes.length :=
              Block.slice_congr fun i hi hlt => h.bytes i (by omega) (Or.inr hi)
          _ = bytes := slice_packed_self (by omega) (by omega)
    · have ht' := h.placed t ht
      exact ⟨ht'.live, ht'.low_le, by have := ht'.le_high; omega, ht'.length_eq, ht'.slice_eq⟩
  · refine List.pairwise_cons.2 ⟨fun t ht => Or.inr ?_, h.apart⟩
    rw [hentry, hoffset]
    exact (h.placed t ht).le_high

/-- Records for which there is room are packed one below the other. -/
theorem packAll_spec (limit : Nat) (records : List (SlotId × Bytes)) {start : Nat}
    {p : SlottedPage} (hheader : dataHeaderSize ≤ limit) (hstart : start ≤ pageSize)
    (hslots : ∀ r ∈ records, Slot.position r.1.toNat + slotSize ≤ limit)
    (hnodup : (records.map Prod.fst).Nodup) (hroom : limit + recordBytes records ≤ start) :
    ∃ q, packAll start p records = .ok (start - recordBytes records, q) ∧
      PackedAll p q limit start (start - recordBytes records) records := by
  induction records generalizing start p with
  | nil =>
    refine ⟨p, rfl, rfl, fun _ _ _ => rfl, fun _ _ _ => rfl, fun _ hr => ?_, List.Pairwise.nil⟩
    simp at hr
  | cons r rest ih =>
    obtain ⟨slot, bytes⟩ := r
    have hsum : recordBytes ((slot, bytes) :: rest) = bytes.length + recordBytes rest := rfl
    have hslot : Slot.position slot.toNat + slotSize ≤ limit := hslots (slot, bytes) (by simp)
    rw [List.map_cons, List.nodup_cons] at hnodup
    have hfresh : ∀ t ∈ rest, t.1 ≠ slot := fun t ht heq =>
      hnodup.1 (List.mem_map.2 ⟨t, ht, heq⟩)
    have hpack := pack_eq p slot bytes hstart (by omega) (by omega)
    obtain ⟨q, hq, hpacked⟩ := @ih (start - bytes.length)
      (p.packed (start - bytes.length) slot bytes) (by omega)
      (fun t ht => hslots t (by simp [ht])) hnodup.2 (by omega)
    have hlow : start - bytes.length - recordBytes rest =
        start - recordBytes ((slot, bytes) :: rest) := by omega
    rw [hlow] at hq hpacked
    refine ⟨q, ?_, hpacked.cons hheader hstart hslot (by omega) (by omega) hfresh⟩
    rw [packAll, hpack]
    exact hq

/-! ## Storing the header -/

section Header

variable {p : SlottedPage} {h : DataHeader}

@[simp] theorem header_withHeader : (p.withHeader h).header = h := rfl

theorem page_withHeader : (p.withHeader h).page = h.page := rfl

theorem next_withHeader : (p.withHeader h).next = h.next := rfl

/-- The stored header is the new one. -/
theorem slice_withHeader : (p.withHeader h).data.slice 0 dataHeaderSize = h.encode := by
  have := Block.slice_overwrite_self p.data 0 h.encode
    (by rw [DataHeader.length_encode]; simp only [dataHeaderSize, pageSize]; omega)
  rwa [DataHeader.length_encode] at this

/-- A byte behind the header stays as it is. -/
theorem byteAt_withHeader {i : Nat} (hi : i < pageSize) (hout : dataHeaderSize ≤ i) :
    (p.withHeader h).data.byteAt i = p.data.byteAt i :=
  Block.byteAt_overwrite_of_not_mem _ _ _ _ hi
    (Or.inr (by rw [DataHeader.length_encode]; omega))

/-- The entries stay as they are. -/
theorem slotAt_withHeader {i : Nat} (hin : Slot.position i + slotSize ≤ pageSize) :
    (p.withHeader h).slotAt i = p.slotAt i :=
  Slot.load_congr fun j hj hlt => byteAt_withHeader (by omega)
    (le_trans (Nat.le_add_right _ _) hj)

/-- The records stay as they are. -/
theorem slice_withHeader_of_le {offset length : Nat} (hout : dataHeaderSize ≤ offset)
    (hin : offset + length ≤ pageSize) :
    (p.withHeader h).data.slice offset length = p.data.slice offset length :=
  Block.slice_congr fun i hi hlt => byteAt_withHeader (by omega) (le_trans hout hi)

/-- A header that fits to the directory of a page makes it well-formed. -/
theorem wellFormed_withHeader {entry : Nat → Slot} (hkind : h.kind = .heapData)
    (hlayout : Layout entry h.slotCount.toNat h.contentStart.toNat h.fragmented.toNat)
    (hentry : ∀ i < h.slotCount.toNat, p.slotAt i = entry i)
    (hlast : ∀ k, h.slotCount.toNat = k + 1 → (entry k).isEmpty = false) :
    (p.withHeader h).WellFormed := by
  have hcontent := hlayout.content
  have hsame (i : Nat) (hi : i < h.slotCount.toNat) : (p.withHeader h).slotAt i = entry i := by
    have hposition := hlayout.position_le hi
    rw [slotAt_withHeader (by omega), hentry i hi]
  refine ⟨slice_withHeader, hkind, hlayout.congr hsame, fun k hk => ?_⟩
  have hcount : h.slotCount.toNat = k + 1 := hk
  rw [hsame k (hcount ▸ Nat.lt_succ_self k)]
  exact hlast k hcount

end Header

end SlottedPage

end PagedHeap
