import PagedHeap.Proofs.Page.Accepted
import PagedHeap.Proofs.Page.Admission

/-!
# Changing any page that is accepted

Reading a page that was only accepted is safe, changing it is not. What a change comes to depends on
numbers that nobody has compared when the page was accepted: the fragmented bytes that its header
counts, and the bytes of the records that its directory lists, which may be the same bytes several
times over.

* A deletion stops if the fragmented bytes cannot be counted any more.
* Compacting stops if the records are longer than a page. If they are longer than a page without
  its directory, they are packed over the directory, and the page is not accepted any more.
* An insert compacts the page if the header counts enough fragmented bytes, whether they are there
  or not.

`SlottedPage.Changes` has the outcome of every change of an accepted page in terms of these numbers.
Where records and fragmented bytes have room behind the start of the content, as they have on a
well-formed page, every change is done or refused and the page accepted again.
-/

namespace PagedHeap

namespace SlottedPage

/-- What a change of an accepted page comes to. -/
inductive Outcome where
  /-- It is done, and the page is accepted again. -/
  | kept
  /-- It is done, and the page is not accepted any more: its directory reaches into the content. -/
  | lost
  /-- It is refused. -/
  | refused (cause : StorageError)
  /-- It stops. -/
  | stopped (trap : Trap)

/-- The result of a change is the outcome. -/
def Outcome.Holds : Outcome → Result SlottedPage → Prop
  | kept, r => ∃ q, r = .ok q ∧ q.Accepted
  | lost, r => ∃ q, r = .ok q ∧ SlottedPage.read q.data =
      .refuse (.corruption s!"page {q.page.text}: slot directory overlaps record content")
  | refused e, r => r = .refuse e
  | stopped t, r => r = .stop t

variable (p : SlottedPage)

/-- The outcome of packing records of the given size into a page with a directory of `count`
entries. -/
def packedOutcome (count size : Nat) : Outcome :=
  if Slot.position count + size ≤ pageSize then .kept else .lost

/-- The outcome of compacting. -/
def compactOutcome : Outcome :=
  if pageSize < recordBytes p.records then .stopped .overflow
  else packedOutcome p.slotCount (recordBytes p.records)

/-- The outcome of deleting the record in a slot. -/
def deleteOutcome (slot : SlotId) : Outcome :=
  match p.liveSlot slot with
  | .ok entry =>
    if p.header.fragmented.toNat + entry.length.toNat < UInt16.size then .kept
    else .stopped .overflow
  | .error _ => .refused (.slotNotFound ⟨p.page, slot⟩)

/-- The outcome of an insert for which the page has to be compacted. -/
def squeezeOutcome (record : Bytes) : Outcome :=
  let count := p.countWith p.emptySlot?
  let size := recordBytes p.records + record.length
  if pageSize < size then .stopped .overflow
  else if pageSize < Slot.position count then .stopped .outOfRange
  else packedOutcome count size

/-- The outcome of an insert. -/
def insertOutcome (record : Bytes) : Outcome :=
  let available := p.freeSpace + p.header.fragmented.toNat
  if maxRecordSize < record.length then
    .refused (.invalidRecordLength record.length maxRecordSize)
  else if p.neededFor record ≤ p.freeSpace then .kept
  else if available < p.neededFor record then
    .refused (.pageFull p.page (p.neededFor record) available)
  else p.squeezeOutcome record

/-- The records and the fragmented bytes have room behind the start of the content. -/
def Accounted : Prop :=
  p.header.contentStart.toNat + recordBytes p.records + p.header.fragmented.toNat ≤ pageSize

/-- On a well-formed page they take exactly this room. -/
theorem accounted_of_wellFormed (h : p.WellFormed) : p.Accounted := by
  unfold Accounted
  rw [h.recordBytes_records, h.layout.account]

/-- What the changes of an accepted page come to. -/
structure Changes : Prop where
  /-- Records are inserted with every check as without. -/
  insert : ∀ record, p.checkedInsert record = p.insert record ∧
    (p.insertOutcome record).Holds ((p.insert record).map Prod.snd)
  /-- An insert that is refused has stored nothing. -/
  unchanged : ∀ record e, p.insertOutcome record = .refused e →
    PageSteps.insert record p = .error (.error e) p
  /-- Records are deleted with every check as without. -/
  delete : ∀ slot, p.checkedDelete slot = p.delete slot ∧
    (p.deleteOutcome slot).Holds (p.delete slot)
  /-- The page is compacted with every check as without. -/
  compact : p.checkedCompact = p.compact ∧ p.compactOutcome.Holds p.compact
  /-- On a page whose counters are right every change is done or refused. -/
  safe : p.Accounted → p.compactOutcome = .kept ∧
    (∀ slot, p.deleteOutcome slot = .kept ∨ ∃ e, p.deleteOutcome slot = .refused e) ∧
    ∀ record, p.insertOutcome record = .kept ∨ ∃ e, p.insertOutcome record = .refused e

variable {p}

/-! ## Packed pages -/

/-- Whether a page is accepted after its records were packed shows in its header. -/
theorem holds_packedOutcome {q : SlottedPage} {h : DataHeader} {size : Nat} (haccepted : p.Accepted)
    (hkind : h.kind = p.header.kind) (hnext : h.next = p.header.next) (hsize : size ≤ pageSize)
    (hstart : h.contentStart = UInt16.ofNat (pageSize - size)) :
    (packedOutcome h.slotCount.toNat size).Holds (.ok (q.withHeader h)) := by
  have hvalid : h.next ≠ some .invalid := hnext ▸ haccepted.next_ne
  have hdata : h.kind = .heapData := hkind.trans haccepted.kind
  have hcontent : h.contentStart.toNat = pageSize - size := by
    rw [hstart]
    exact UInt16.toNat_ofNat_of_lt' (Nat.lt_of_le_of_lt (Nat.sub_le _ _) (by decide))
  unfold packedOutcome
  split
  · next hfits => exact ⟨_, rfl, accepted_withHeader hvalid hdata (by omega) (by omega)⟩
  · next hover => exact ⟨_, rfl, read_withHeader_of_lt hvalid hdata (by omega)⟩

/-- A directory that is not longer does not end later. -/
theorem position_ofNat_le {count : Nat} (hle : count ≤ p.slotCount) :
    Slot.position (UInt16.ofNat count).toNat ≤ Slot.position p.slotCount := by
  rw [UInt16.toNat_ofNat_of_lt' (Nat.lt_of_le_of_lt hle p.slotCount_lt)]
  exact Nat.add_le_add_left (Nat.mul_le_mul_right _ hle) _

/-- The entries of the records that can be read lie inside the page. -/
theorem Bounded.position_le_of_mem (h : p.Bounded) :
    ∀ r ∈ p.records, Slot.position r.1.toNat + slotSize ≤ pageSize := by
  intro r hr
  exact le_trans (h.position_le (live_of_get (mem_records_iff.1 hr)).1) h.content

namespace Accepted

variable (h : p.Accepted)
include h

/-! ## Deleting and compacting -/

/-- Records that are not longer than a page are packed, and two counters of the header change. -/
theorem exists_compact (hle : recordBytes p.records ≤ pageSize) : ∃ q : SlottedPage,
    p.compact = .ok (q.withHeader { p.header with
      contentStart := UInt16.ofNat (pageSize - recordBytes p.records), fragmented := 0 }) := by
  obtain ⟨q, hpack, -⟩ := packAll_of_le (p := p) h.position_le_of_mem (le_refl _) hle
  refine ⟨q, ?_⟩
  rw [compact, hpack]
  rfl

theorem compact_of_lt (hlt : pageSize < recordBytes p.records) : p.compact = .stop .overflow := by
  rw [compact, packAll_of_lt h.position_le_of_mem (le_refl _) hlt]
  rfl

theorem holds_compactOutcome : p.compactOutcome.Holds p.compact := by
  unfold compactOutcome
  split
  · next hlong => exact h.compact_of_lt hlong
  · next hle =>
    have hle := Nat.le_of_not_lt hle
    obtain ⟨q, hcompact⟩ := h.exists_compact hle
    rw [hcompact]
    exact holds_packedOutcome (h := { p.header with
      contentStart := UInt16.ofNat (pageSize - recordBytes p.records), fragmented := 0 })
      h rfl rfl hle rfl

theorem holds_deleteOutcome (slot : SlotId) : (p.deleteOutcome slot).Holds (p.delete slot) := by
  unfold deleteOutcome delete
  rcases p.liveSlot_cases slot with ⟨hlive, -, hentry⟩ | hentry
  · have hposition := le_trans (h.position_le hlive.1) h.content
    rw [hentry, Result.bind_ok, setSlot, if_pos hposition, Result.bind_ok]
    dsimp only
    split
    · next hlt =>
      rw [count16_of_lt hlt, Result.bind_ok]
      refine ⟨_, rfl, accepted_withHeader h.next_ne h.kind ?_ h.content⟩
      exact le_trans (position_ofNat_le (trimmed_spec _ _).1) h.directory
    · next hge =>
      rw [count16, if_neg hge]
      rfl
  · rw [hentry]
    rfl

/-! ## Inserting -/

theorem countWith_lt (reuse : Option SlotId) : p.countWith reuse < UInt16.size := by
  have hdirectory := le_trans h.directory h.content
  unfold countWith
  simp only [Slot.position, dataHeaderSize, slotSize, pageSize, UInt16.size] at hdirectory ⊢
  split <;> omega

/-- The entry of a new record lies inside the page exactly if the directory with it does. -/
theorem position_countWith_le : Slot.position (p.countWith p.emptySlot?) ≤ pageSize ↔
    Slot.position (p.emptySlot?.getD p.header.slotCount).toNat + slotSize ≤ pageSize := by
  have hdirectory := le_trans h.directory h.content
  rw [position_countWith]
  cases hreuse : p.emptySlot? with
  | some slot =>
    have hposition := le_trans (h.position_le (emptySlot?_eq_some hreuse).1) h.content
    simp only [Option.isSome_some, if_true, Option.getD_some, Nat.add_zero, hdirectory, hposition]
  | none => rfl

/-- What placing a record comes to on a page whose content is of `size` bytes up to its end. -/
theorem holds_place {c : SlottedPage} {reuse : Option SlotId} {size : Nat} (record : Bytes)
    (hkind : c.header.kind = p.header.kind) (hnext : c.header.next = p.header.next)
    (hcount : c.countWith reuse < UInt16.size)
    (hentry : Slot.position (c.countWith reuse) ≤ pageSize ↔
      Slot.position (reuse.getD c.header.slotCount).toNat + slotSize ≤ pageSize)
    (hsize : size ≤ pageSize) (hstart : c.header.contentStart.toNat = pageSize - size) :
    Outcome.Holds (if pageSize < size + record.length then .stopped .overflow
      else if pageSize < Slot.position (c.countWith reuse) then .stopped .outOfRange
      else packedOutcome (c.countWith reuse) (size + record.length))
      ((c.place reuse record).map Prod.snd) := by
  have hcontent : c.header.contentStart.toNat ≤ pageSize := by omega
  by_cases hover : pageSize < size + record.length
  · rw [if_pos hover, place_of_lt hcount (by omega)]
    rfl
  rw [if_neg hover]
  by_cases hout : pageSize < Slot.position (c.countWith reuse)
  · rw [if_pos hout, place_of_outside hcount hcontent
      (Nat.lt_of_not_le fun hin => Nat.not_le.2 hout (hentry.2 hin)) (by omega)]
    rfl
  rw [if_neg hout, place_of_le hcount hcontent (hentry.1 (Nat.le_of_not_lt hout)) (by omega)]
  have hplaced := holds_packedOutcome (h := { c.header with
      slotCount := UInt16.ofNat (c.countWith reuse)
      contentStart := UInt16.ofNat (c.header.contentStart.toNat - record.length) })
    (q := c.packed (c.header.contentStart.toNat - record.length)
      (reuse.getD c.header.slotCount) record)
    h hkind hnext (Nat.le_of_not_lt hover) (by rw [hstart, Nat.sub_sub])
  rw [UInt16.toNat_ofNat_of_lt' hcount] at hplaced
  exact hplaced

/-- What has to be compacted for a record is packed together with the record. -/
theorem holds_squeezeOutcome (record : Bytes) :
    (p.squeezeOutcome record).Holds ((do
      let q ← p.compact
      q.place p.emptySlot? record).map Prod.snd) := by
  unfold squeezeOutcome
  dsimp only
  by_cases hlong : pageSize < recordBytes p.records
  · rw [h.compact_of_lt hlong, if_pos (by omega)]
    rfl
  · have hsize := Nat.le_of_not_lt hlong
    obtain ⟨q, hcompact⟩ := h.exists_compact hsize
    generalize hc : q.withHeader _ = c at hcompact
    -- the directory is the same, so that the entry of the record is where it would have been
    have hslots : c.header.slotCount = p.header.slotCount := by rw [← hc]; rfl
    have hcount : c.countWith p.emptySlot? = p.countWith p.emptySlot? := by
      unfold countWith slotCount
      rw [hslots]
    have hstart : c.header.contentStart.toNat = pageSize - recordBytes p.records := by
      rw [← hc]
      exact UInt16.toNat_ofNat_of_lt' (Nat.lt_of_le_of_lt (Nat.sub_le _ _) (by decide))
    have hplaced := h.holds_place record (by rw [← hc]; rfl) (by rw [← hc]; rfl)
      (hcount ▸ h.countWith_lt _) (by rw [hcount, hslots]; exact h.position_countWith_le) hsize
      hstart
    rw [hcount] at hplaced
    rw [hcompact, Result.bind_ok]
    exact hplaced

/-- A record for which there is room is placed between the directory and the others. -/
theorem exists_place_of_room {record : Bytes} (hroom : p.neededFor record ≤ p.freeSpace) :
    ∃ slot q, p.place p.emptySlot? record = .ok (slot, q) ∧ q.Accepted := by
  have hdirectory := h.directory
  have hcontent := h.content
  have hcount := h.countWith_lt p.emptySlot?
  have hfits : Slot.position (p.countWith p.emptySlot?) + record.length ≤
      p.header.contentStart.toNat := by
    have hfree : p.freeSpace = p.header.contentStart.toNat - Slot.position p.slotCount := rfl
    unfold neededFor at hroom
    rw [position_countWith]
    omega
  have hstart : (UInt16.ofNat (p.header.contentStart.toNat - record.length)).toNat =
      p.header.contentStart.toNat - record.length :=
    UInt16.toNat_ofNat_of_lt' (Nat.lt_of_le_of_lt (Nat.sub_le _ _) p.header.contentStart.toNat_lt)
  refine ⟨_, _, place_of_le hcount hcontent (h.position_countWith_le.1 (by omega)) (by omega),
    accepted_withHeader h.next_ne h.kind ?_ ?_⟩
  · show Slot.position (UInt16.ofNat _).toNat ≤ (UInt16.ofNat _).toNat
    rw [hstart, UInt16.toNat_ofNat_of_lt' hcount]
    omega
  · show (UInt16.ofNat _).toNat ≤ pageSize
    omega

theorem holds_insertOutcome (record : Bytes) :
    (p.insertOutcome record).Holds ((p.insert record).map Prod.snd) := by
  have hneeded : record.length + (if p.emptySlot?.isSome then 0 else slotSize) =
    p.neededFor record := rfl
  unfold insertOutcome insert withRoom
  dsimp only
  rw [hneeded]
  by_cases hlong : maxRecordSize < record.length
  · rw [if_pos hlong, if_pos hlong]
    rfl
  rw [if_neg hlong, if_neg hlong]
  by_cases hroom : p.neededFor record ≤ p.freeSpace
  · obtain ⟨slot, q, hplace, hq⟩ := h.exists_place_of_room hroom
    rw [if_pos hroom, if_pos hroom, Result.bind_ok, hplace]
    exact ⟨q, rfl, hq⟩
  rw [if_neg hroom, if_neg hroom]
  by_cases hfull : p.freeSpace + p.header.fragmented.toNat < p.neededFor record
  · rw [if_pos hfull, if_pos hfull]
    rfl
  · rw [if_neg hfull, if_neg hfull]
    exact h.holds_squeezeOutcome record

omit h

/-- What has to be compacted is not refused any more. -/
theorem squeezeOutcome_ne_refused (record : Bytes) (e : StorageError) :
    p.squeezeOutcome record ≠ .refused e := by
  unfold squeezeOutcome packedOutcome
  dsimp only
  split
  · nofun
  split
  · nofun
  split <;> nofun

/-- A refused insert stores nothing. -/
theorem insert_of_refused {record : Bytes} {e : StorageError}
    (hrefused : p.insertOutcome record = .refused e) :
    PageSteps.insert record p = .error (.error e) p := by
  unfold insertOutcome at hrefused
  dsimp only at hrefused
  by_cases hlong : maxRecordSize < record.length
  · rw [if_pos hlong] at hrefused
    cases hrefused
    exact PageSteps.insert_of_long p hlong
  rw [if_neg hlong] at hrefused
  by_cases hroom : p.neededFor record ≤ p.freeSpace
  · rw [if_pos hroom] at hrefused
    cases hrefused
  rw [if_neg hroom] at hrefused
  by_cases hfull : p.freeSpace + p.header.fragmented.toNat < p.neededFor record
  · rw [if_pos hfull] at hrefused
    cases hrefused
    exact PageSteps.insert_of_full (Nat.le_of_not_lt hlong) hfull
  · rw [if_neg hfull] at hrefused
    exact absurd hrefused (squeezeOutcome_ne_refused record e)

/-! ## Pages whose counters are right -/

/-- A record that is found is one of those that the page lists. -/
theorem length_le_recordBytes {slot : SlotId} {entry : Slot}
    (hentry : p.liveSlot slot = .ok entry) : entry.length.toNat ≤ recordBytes p.records := by
  have hget : p.get slot = .ok (p.data.slice entry.offset.toNat entry.length.toNat) := by
    unfold get
    rw [hentry]
    rfl
  have hmem := mem_records_iff.2 hget
  have hlength : (p.data.slice entry.offset.toNat entry.length.toNat).length =
      entry.length.toNat := by
    rcases p.liveSlot_cases slot with ⟨-, hstop, hfound⟩ | hfound
    · cases hfound.symm.trans hentry
      exact p.data.length_slice_of_le hstop
    · cases hfound.symm.trans hentry
  rw [← hlength]
  exact List.le_sum_of_mem (List.mem_map_of_mem (f := fun r => r.2.length) hmem)

theorem deleteOutcome_of_accounted (haccounted : p.Accounted) (slot : SlotId) :
    p.deleteOutcome slot = .kept ∨ ∃ e, p.deleteOutcome slot = .refused e := by
  unfold Accounted at haccounted
  unfold deleteOutcome
  rcases p.liveSlot_cases slot with ⟨-, -, hentry⟩ | hentry
  · have hlength := length_le_recordBytes hentry
    rw [hentry]
    exact .inl (if_pos (by simp only [pageSize, UInt16.size] at haccounted ⊢; omega))
  · rw [hentry]
    exact .inr ⟨_, rfl⟩

include h

theorem compactOutcome_of_accounted (haccounted : p.Accounted) :
    p.compactOutcome = .kept := by
  have hdirectory := h.directory
  unfold Accounted at haccounted
  unfold compactOutcome packedOutcome
  rw [if_neg (by omega), if_pos (by omega)]

/-- The page is compacted only if the bytes that it counts as fragmented are there. -/
theorem insertOutcome_of_accounted (haccounted : p.Accounted) (record : Bytes) :
    p.insertOutcome record = .kept ∨ ∃ e, p.insertOutcome record = .refused e := by
  have hdirectory := h.directory
  unfold Accounted at haccounted
  unfold insertOutcome
  dsimp only
  by_cases hlong : maxRecordSize < record.length
  · exact .inr ⟨_, if_pos hlong⟩
  rw [if_neg hlong]
  by_cases hroom : p.neededFor record ≤ p.freeSpace
  · exact .inl (if_pos hroom)
  rw [if_neg hroom]
  by_cases hfull : p.freeSpace + p.header.fragmented.toNat < p.neededFor record
  · exact .inr ⟨_, if_pos hfull⟩
  have hfits : Slot.position (p.countWith p.emptySlot?) +
      (recordBytes p.records + record.length) ≤ pageSize := by
    have hfree : p.freeSpace = p.header.contentStart.toNat - Slot.position p.slotCount := rfl
    unfold neededFor at hfull
    rw [position_countWith]
    omega
  unfold squeezeOutcome packedOutcome
  dsimp only
  rw [if_neg hfull, if_neg (by omega), if_neg (by omega), if_pos hfits]
  exact .inl rfl

end Accepted

/-- What the changes of a page come to that was read from any buffer. -/
theorem changes_of_read {n : Nat} {b : Block n} (hread : read b = .ok p) : p.Changes := by
  have h := (accepted_of_read hread).2
  exact {
    insert := fun record => ⟨h.checkedInsert_eq record, h.holds_insertOutcome record⟩
    unchanged := fun _ _ => Accepted.insert_of_refused
    delete := fun slot => ⟨h.checkedDelete_eq slot, h.holds_deleteOutcome slot⟩
    compact := ⟨h.checkedCompact_eq, h.holds_compactOutcome⟩
    safe := fun haccounted => ⟨h.compactOutcome_of_accounted haccounted,
      Accepted.deleteOutcome_of_accounted haccounted, h.insertOutcome_of_accounted haccounted⟩ }

/-- A page of two slots that have the same half of it as their record. Its header counts as many
fragmented bytes as it can. -/
def shared : SlottedPage :=
  SlottedPage.withHeader
    ⟨((Block.zero pageSize).overwrite (Slot.position 0) (Slot.encode ⟨2048, 2048⟩)).overwrite
      (Slot.position 1) (Slot.encode ⟨2048, 2048⟩), .empty ⟨2⟩⟩
    { DataHeader.empty ⟨2⟩ with slotCount := 2, contentStart := 24, fragmented := 65535 }

theorem header_shared : shared.header =
    { DataHeader.empty ⟨2⟩ with slotCount := 2, contentStart := 24, fragmented := 65535 } := rfl

theorem accepted_shared : shared.Accepted :=
  accepted_withHeader (by decide) rfl (by decide) (by decide)

theorem slotAt_shared {i : Nat} (hi : i < 2) : shared.slotAt i = ⟨2048, 2048⟩ := by
  unfold shared
  rcases Nat.le_one_iff_eq_zero_or_eq_one.1 (Nat.le_of_lt_succ hi) with rfl | rfl
  · rw [slotAt_withHeader (by decide)]
    unfold slotAt
    rw [Slot.load_overwrite_of_disjoint _ _ _ _ (by decide) (by rw [Slot.length_encode]; decide),
      Slot.load_overwrite_self _ _ _ (by decide)]
  · rw [slotAt_withHeader (by decide)]
    exact Slot.load_overwrite_self _ _ _ (by decide)

theorem liveSlot_shared {slot : SlotId} (hslot : slot.toNat < 2) :
    shared.liveSlot slot = .ok ⟨2048, 2048⟩ := by
  unfold liveSlot
  rw [slotAt_shared hslot]
  exact if_pos ⟨hslot, by decide⟩

theorem recordBytes_shared : recordBytes shared.records = pageSize := by
  have hslots : shared.slots = [0, 1] := by
    have hcount : shared.slotCount = 2 := rfl
    unfold slots slotsFrom
    rw [hcount]
    simp only [List.range', slotAt_shared, List.filter_cons, Nat.lt_add_one, Nat.zero_lt_two]
    rfl
  have hget (slot : SlotId) (hslot : slot.toNat < 2) :
      shared.get slot = .ok (shared.data.slice 2048 2048) := by
    unfold get
    rw [liveSlot_shared hslot]
    rfl
  have hlength : (shared.data.slice 2048 2048).length = 2048 :=
    Block.length_slice_of_le _ (by decide)
  unfold records recordBytes
  rw [hslots]
  simp only [List.filterMap_cons, List.filterMap_nil, Except.toOption, Option.map_some,
    hget 0 (by decide), hget 1 (by decide), List.map_cons, List.map_nil,
    List.sum_cons, List.sum_nil, hlength, Nat.reduceAdd]

/-- The page is accepted, but not any more when it was compacted, and no record can be deleted. -/
theorem changes_of_read_shared : read shared.data = .ok shared ∧ shared.Changes ∧
    shared.compactOutcome = .lost ∧ shared.deleteOutcome 0 = .stopped .overflow := by
  have hread := accepted_shared.read
  have hcount : shared.slotCount = 2 := rfl
  have hover : ¬Slot.position shared.slotCount + recordBytes shared.records ≤ pageSize := by
    rw [hcount, recordBytes_shared]
    decide
  refine ⟨hread, changes_of_read hread, ?_, ?_⟩
  · unfold compactOutcome packedOutcome
    rw [if_neg (Nat.not_lt.2 (Nat.le_of_eq recordBytes_shared)), if_neg hover]
  · unfold deleteOutcome
    rw [liveSlot_shared (by decide), header_shared]
    exact if_neg (by decide)

end SlottedPage

end PagedHeap
