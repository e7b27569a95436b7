import PagedHeap.Proofs.Ensures
import PagedHeap.Proofs.Page.Map

/-!
# What a page takes in

An insert works on the bytes of its page one store after the other: compacting moves records, a new
entry lengthens the directory, and the record and its entry are stored before the header is.
`PageSteps.insert` is the insert in these steps.  What it has stored when it is refused stays
stored, and so it can be asked what a refused insert leaves behind.

A page that was laid out empty and then worked on refuses exactly the records that cannot fit: those
longer than any page can hold, and those for which header, directory and records would together take
more bytes than a page has (`SlottedPage.Tracks.admits`).  Both are refused before anything is
stored.
-/

namespace PagedHeap

open PagedHeap.Action

/-! ## Inserting step by step -/

namespace PageSteps

/-- Stores bytes of the page, if they lie inside it. -/
def store (f : SlottedPage → Result SlottedPage) : Action SlottedPage Unit := do
  set (← Action.ofResult (f (← get)))

/-- Packs records one below the other and answers the new start of the content. -/
def pack (start : Nat) : List (SlotId × Bytes) → Action SlottedPage Nat
  | [] => return start
  | (slot, bytes) :: rest => do
    let offset ← Action.ofResult (subtract start bytes.length)
    store (·.setContent offset bytes)
    store (·.setSlot slot.toNat ⟨UInt16.ofNat offset, UInt16.ofNat bytes.length⟩)
    pack offset rest

/-- Moves all records to the end of the page. -/
def compact : Action SlottedPage Unit := do
  let start ← pack pageSize (← get).records
  modify fun p =>
    p.withHeader { p.header with contentStart := UInt16.ofNat start, fragmented := 0 }

/-- Makes sure that `needed` bytes are free, or refuses the page as full. -/
def makeRoom (needed : Nat) : Action SlottedPage Unit := do
  let p ← get
  if p.freeSpace < needed then
    let available := p.freeSpace + p.header.fragmented.toNat
    if available < needed then Action.refuse (.pageFull p.page needed available)
    else compact

/-- Takes the given empty entry or a new one at the end of the directory. -/
def enter : Option SlotId → Action SlottedPage SlotId
  | some slot => return slot
  | none => do
    let p ← get
    let count ← Action.ofResult (count16 (p.slotCount + 1))
    set { p with header := { p.header with slotCount := count } }
    return p.header.slotCount

/-- Stores a record below the others, then its entry, then the header. -/
def place (slot : SlotId) (record : Bytes) : Action SlottedPage Unit := do
  let offset ← Action.ofResult (subtract (← get).header.contentStart.toNat record.length)
  store (·.setContent offset record)
  modify fun p => { p with header := { p.header with contentStart := UInt16.ofNat offset } }
  store (·.setSlot slot.toNat ⟨UInt16.ofNat offset, UInt16.ofNat record.length⟩)
  modify SlottedPage.sync

/-- Adds a record to the page and answers its slot. -/
def insert (record : Bytes) : Action SlottedPage SlotId := do
  if maxRecordSize < record.length then
    Action.refuse (.invalidRecordLength record.length maxRecordSize)
  else
    let p ← get
    makeRoom (p.neededFor record)
    let slot ← enter p.emptySlot?
    place slot record
    return slot

variable {p q : SlottedPage} {record : Bytes} {slot : SlotId}

theorem ensures_store {f : SlottedPage → Result SlottedPage} (h : f p = .ok q)
    {ok : Unit → SlottedPage → Prop} {refused : StorageError → SlottedPage → Prop} :
    (store f).Ensures p ok refused ↔ ok () q := by
  unfold store
  rw [ensures_bind, ensures_get, ensures_bind, ensures_ofResult_ok h, ensures_set]

/-- Records that can be packed are packed step by step. -/
theorem ensures_pack {start low : Nat} (records : List (SlotId × Bytes))
    (h : SlottedPage.packAll start p records = .ok (low, q)) :
    (pack start records).Ensures p (fun a p' => a = low ∧ p' = q) Never := by
  induction records generalizing start p with
  | nil => exact Prod.mk.inj (Except.ok.inj h)
  | cons r rest ih =>
    obtain ⟨slot, bytes⟩ := r
    obtain ⟨⟨offset, p₂⟩, hpack, hrest⟩ := Result.bind_eq_ok.1 h
    obtain ⟨_, hoffset, hstores⟩ := Result.bind_eq_ok.1 hpack
    obtain ⟨p₁, hcontent, hstores⟩ := Result.bind_eq_ok.1 hstores
    obtain ⟨_, hentry, hsame⟩ := Result.bind_eq_ok.1 hstores
    obtain ⟨rfl, rfl⟩ := Prod.mk.inj (Except.ok.inj hsame)
    unfold pack
    rw [ensures_bind, ensures_ofResult_ok hoffset, ensures_bind, ensures_store hcontent,
      ensures_bind, ensures_store hentry]
    exact ih hrest

/-- Bytes are stored in a page whatever its header is. -/
theorem exists_setContent {offset : Nat} (h : p.setContent offset record = .ok q)
    (header : DataHeader) :
    SlottedPage.setContent ⟨p.data, header⟩ offset record = .ok ⟨q.data, header⟩ := by
  unfold SlottedPage.setContent at h ⊢
  split at h
  · next hin =>
    rw [if_pos hin, ← Except.ok.inj h]
  · cases h

theorem exists_setSlot {i : Nat} {entry : Slot} (h : p.setSlot i entry = .ok q)
    (header : DataHeader) :
    SlottedPage.setSlot ⟨p.data, header⟩ i entry = .ok ⟨q.data, header⟩ := by
  unfold SlottedPage.setSlot at h ⊢
  split at h
  · next hin =>
    rw [if_pos hin, ← Except.ok.inj h]
  · cases h

/-- A record that can be packed is stored with its entry, and then the header is. -/
theorem ensures_place {header : DataHeader} {offset : Nat}
    (h : SlottedPage.pack header.contentStart.toNat p slot record = .ok (offset, q)) :
    (place slot record).Ensures ⟨p.data, header⟩ (fun _ p' => p' =
      q.withHeader { header with contentStart := UInt16.ofNat offset }) Never := by
  obtain ⟨_, hoffset, hstores⟩ := Result.bind_eq_ok.1 h
  obtain ⟨p₁, hcontent, hstores⟩ := Result.bind_eq_ok.1 hstores
  obtain ⟨p₂, hentry, hsame⟩ := Result.bind_eq_ok.1 hstores
  obtain ⟨rfl, rfl⟩ := Prod.mk.inj (Except.ok.inj hsame)
  unfold place
  rw [ensures_bind, ensures_get, ensures_bind, ensures_ofResult_ok hoffset, ensures_bind,
    ensures_store (exists_setContent hcontent header), ensures_bind, ensures_modify, ensures_bind,
    ensures_store (exists_setSlot hentry _), ensures_modify]
  rfl

/-- A record that is placed in an entry is placed there step by step. -/
theorem ensures_enter {reuse : Option SlotId} (h : p.place reuse record = .ok (slot, q)) :
    (enter reuse).Ensures p (fun a p' => a = slot ∧
      (place a record).Ensures p' (fun _ p'' => p'' = q) Never) Never := by
  cases reuse with
  | some free =>
    obtain ⟨count, hcount, h⟩ := Result.bind_eq_ok.1 h
    obtain ⟨⟨offset, r⟩, hpack, hsame⟩ := Result.bind_eq_ok.1 h
    obtain rfl := Except.ok.inj hcount
    obtain ⟨rfl, rfl⟩ := Prod.mk.inj (Except.ok.inj hsame)
    exact ⟨rfl, ensures_place hpack⟩
  | none =>
    obtain ⟨count, hcount, h⟩ := Result.bind_eq_ok.1 h
    obtain ⟨⟨offset, r⟩, hpack, hsame⟩ := Result.bind_eq_ok.1 h
    obtain ⟨rfl, rfl⟩ := Prod.mk.inj (Except.ok.inj hsame)
    unfold enter
    rw [ensures_bind, ensures_get, ensures_bind, ensures_ofResult_ok hcount, ensures_bind,
      ensures_set, ensures_pure]
    have hplace : (place p.header.slotCount record).Ensures
        ⟨p.data, { p.header with slotCount := count }⟩ _ _ := ensures_place hpack
    exact ⟨rfl, hplace⟩

/-- Room is made step by step. -/
theorem ensures_makeRoom (hwf : p.WellFormed) {needed : Nat} (h : p.withRoom needed = .ok q) :
    (makeRoom needed).Ensures p (fun _ p' => p' = q) Never := by
  unfold makeRoom
  rw [ensures_bind, ensures_get]
  unfold SlottedPage.withRoom at h
  by_cases hroom : needed ≤ p.freeSpace
  · rw [if_pos hroom] at h
    rw [if_neg (Nat.not_lt.2 hroom), ensures_pure]
    exact Except.ok.inj h
  · rw [if_neg hroom] at h
    rw [if_pos (Nat.lt_of_not_le hroom)]
    by_cases hfull : p.freeSpace + p.header.fragmented.toNat < needed
    · rw [if_pos hfull] at h
      cases h
    · rw [if_neg hfull] at h
      rw [if_neg hfull]
      unfold compact
      obtain ⟨r, hpack, hpacked⟩ := hwf.packAll_records
      obtain ⟨⟨low, r'⟩, hpack', hsame⟩ := Result.bind_eq_ok.1 h
      obtain ⟨rfl, rfl⟩ := Prod.mk.inj (Except.ok.inj (hpack.symm.trans hpack'))
      rw [ensures_bind, ensures_get, ensures_bind]
      refine (ensures_pack p.records hpack).mono ?_ fun _ _ => id
      rintro _ _ ⟨rfl, rfl⟩
      rw [ensures_modify, ← Except.ok.inj hsame, hpacked.header]

/-- What is inserted in one go is inserted step by step. -/
theorem insert_of_ok (hwf : p.WellFormed) (h : p.insert record = .ok (slot, q)) :
    insert record p = .ok slot q := by
  refine Ensures.run_eq ?_
  unfold insert
  unfold SlottedPage.insert at h
  by_cases hlong : maxRecordSize < record.length
  · rw [if_pos hlong] at h
    cases h
  · rw [if_neg hlong] at h ⊢
    obtain ⟨r, hroom, hplace⟩ := Result.bind_eq_ok.1 h
    rw [ensures_bind, ensures_get, ensures_bind]
    refine (ensures_makeRoom hwf hroom).mono ?_ fun _ _ => id
    rintro _ _ rfl
    rw [ensures_bind]
    refine (ensures_enter hplace).mono ?_ fun _ _ => id
    rintro _ p' ⟨rfl, hstored⟩
    rw [ensures_bind]
    refine hstored.mono ?_ fun _ _ => id
    rintro _ _ rfl
    exact ⟨rfl, rfl⟩

/-- A record that is too long is refused before anything is stored. -/
theorem insert_of_long (p : SlottedPage) (hlong : maxRecordSize < record.length) :
    insert record p = .error (.error (.invalidRecordLength record.length maxRecordSize)) p := by
  unfold insert
  rw [if_pos hlong]
  rfl

/-- A page is refused as full before anything is stored. -/
theorem insert_of_full (hlen : record.length ≤ maxRecordSize)
    (hfull : p.freeSpace + p.header.fragmented.toNat < p.neededFor record) :
    insert record p = .error (.error (.pageFull p.page (p.neededFor record)
      (p.freeSpace + p.header.fragmented.toNat))) p := by
  have hfree : p.freeSpace < p.neededFor record := by omega
  refine Ensures.run_refused ?_
  unfold insert makeRoom
  rw [if_neg (Nat.not_lt.2 hlen), ensures_bind, ensures_get, ensures_bind, ensures_bind,
    ensures_get, if_pos hfree, if_pos hfull, ensures_refuse]
  exact ⟨rfl, rfl⟩

end PageSteps

/-! ## Which records fit -/

namespace SlottedPage

/-- The number of entries of the directory with one more record: an empty entry is used again. -/
def entriesWith (p : SlottedPage) (m : RecordMap) : Nat :=
  if ∃ i < p.slotCount, m (UInt16.ofNat i) = none then p.slotCount else p.slotCount + 1

/-- The size of the header, the directory and the records of a page with one more record. -/
def sizeWith (p : SlottedPage) (m : RecordMap) (record : Bytes) : Nat :=
  dataHeaderSize + slotSize * p.entriesWith m + recordBytes p.records + record.length

/-- Which records a page takes in that stands for a map, and what its inserts leave behind. -/
structure Admits (p : SlottedPage) (m : RecordMap) : Prop where
  /-- A record that is longer than any page can hold is refused for its length. -/
  long : ∀ record, maxRecordSize < record.length → PageSteps.insert record p =
    .error (.error (.invalidRecordLength record.length maxRecordSize)) p
  /-- The page is full for another one exactly if it cannot fit, and then it stays as it is. -/
  full : ∀ record : Bytes, record.length ≤ maxRecordSize →
    (pageSize < p.sizeWith m record ↔ ∃ needed available,
      PageSteps.insert record p = .error (.error (.pageFull p.page needed available)) p)
  /-- Every other record is stored. -/
  fits : ∀ record : Bytes, record.length ≤ maxRecordSize → p.sizeWith m record ≤ pageSize →
    ∃ slot q, PageSteps.insert record p = .ok slot q ∧ p.insert record = .ok (slot, q) ∧
      m slot = none ∧ q.record? = Function.update m slot (some record)
  /-- A page without records takes in every record that is not too long. -/
  emptied : (∀ slot, m slot = none) → ∀ record : Bytes, record.length ≤ maxRecordSize →
    p.sizeWith m record ≤ pageSize

namespace WellFormed

variable {p : SlottedPage} (h : p.WellFormed) {record : Bytes}
include h

/-- An entry is used again if the map has a free slot below the end of the directory. -/
theorem emptySlot?_isSome : p.emptySlot?.isSome = true ↔
    ∃ i < p.slotCount, p.record? (UInt16.ofNat i) = none := by
  constructor
  · intro hsome
    obtain ⟨slot, hslot⟩ := Option.isSome_iff_exists.1 hsome
    obtain ⟨hlt, hempty⟩ := emptySlot?_eq_some hslot
    rw [← toNat_ofNat_of_lt_slotCount hlt] at hempty
    refine ⟨slot.toNat, hlt, h.record?_eq_none.2 fun hlive => ?_⟩
    rw [hlive.2] at hempty
    cases hempty
  · rintro ⟨i, hi, hnone⟩
    by_contra hnone'
    have hlive := live_of_emptySlot?_none (Option.not_isSome_iff_eq_none.1 hnone') hi
    rw [h.record?_eq_none, toNat_ofNat_of_lt_slotCount hi] at hnone
    exact hnone hlive

/-- What a record needs is there exactly if the page with it is not larger than a page. -/
theorem sizeWith_le (record : Bytes) : p.sizeWith p.record? record ≤ pageSize ↔
    p.neededFor record ≤ p.freeSpace + p.header.fragmented.toNat := by
  have haccount := h.layout.account
  have hdirectory := h.layout.directory
  have hfree : p.freeSpace = p.header.contentStart.toNat - Slot.position p.slotCount := rfl
  have hentries : slotSize * p.entriesWith p.record? + record.length =
      slotSize * p.slotCount + p.neededFor record := by
    unfold entriesWith neededFor
    by_cases hreuse : ∃ i < p.slotCount, p.record? (UInt16.ofNat i) = none
    · rw [if_pos hreuse, if_pos (h.emptySlot?_isSome.2 hreuse)]
      omega
    · rw [if_neg hreuse, if_neg (mt h.emptySlot?_isSome.1 hreuse)]
      simp only [slotSize]
      omega
  unfold sizeWith
  rw [h.recordBytes_records]
  simp only [Slot.position, dataHeaderSize, slotSize] at *
  omega

end WellFormed

/-- A page that was worked on takes in exactly the records that fit. -/
theorem Tracks.admits {p : SlottedPage} {m : RecordMap} (h : Tracks p m) : p.Admits m := by
  obtain ⟨hwf, rfl⟩ := h.sound
  exact {
    long := fun record => PageSteps.insert_of_long p
    full := fun record hlen => by
      rw [← Nat.not_le, hwf.sizeWith_le]
      constructor
      · intro hfull
        exact ⟨_, _, PageSteps.insert_of_full hlen (Nat.lt_of_not_le hfull)⟩
      · rintro ⟨needed, available, hrefused⟩ hfits
        obtain ⟨slot, q, hinsert, -⟩ := hwf.insert_of_fits hlen hfits
        rw [PageSteps.insert_of_ok hwf hinsert] at hrefused
        cases hrefused
    fits := fun record hlen hsize => by
      obtain ⟨slot, q, hinsert, hinserted⟩ :=
        hwf.insert_of_fits hlen (hwf.sizeWith_le record |>.1 hsize)
      exact ⟨slot, q, PageSteps.insert_of_ok hwf hinsert, hinsert, hinserted.fresh,
        hinserted.record?⟩
    emptied := fun hempty record hlen => by
      have hcount : p.slotCount = 0 := by
        by_contra hne
        obtain ⟨k, hk⟩ : ∃ k, p.slotCount = k + 1 := ⟨p.slotCount - 1, by omega⟩
        have hnone := hempty (UInt16.ofNat k)
        rw [hwf.record?_eq_none, toNat_ofNat_of_lt_slotCount (p := p) (by omega)] at hnone
        exact hnone ⟨by omega, hwf.last k hk⟩
      have hentries : p.entriesWith p.record? ≤ 1 := by
        unfold entriesWith
        split <;> omega
      have hused : recordBytes p.records = 0 := by
        rw [hwf.recordBytes_records, hcount]
        rfl
      unfold sizeWith
      simp only [pageSize, dataHeaderSize, slotSize, maxRecordSize] at *
      omega }

/-- The entry of a deleted record is used again, and a page with two entries and no bytes of records
has room for 4072 bytes. -/
theorem Tracks.admits_emptied : ∃ p, Tracks p emptied ∧ p.Admits emptied ∧
    ∀ record, p.sizeWith emptied record = 24 + record.length := by
  obtain ⟨p, hp⟩ := exists_tracks_emptied
  have hrep := hp.represents
  refine ⟨p, hp, hp.admits, fun record => ?_⟩
  have hcount : p.slotCount = 2 := (hrep.slotCount 1).2 ⟨by simp [emptied], fun s hs => by
    have hne : s ≠ 0 ∧ s ≠ 1 := ⟨by rintro rfl; exact absurd hs (by decide),
      by rintro rfl; exact absurd hs (by decide)⟩
    simp [emptied, Function.update_of_ne hne.1, Function.update_of_ne hne.2]⟩
  have hentries : p.entriesWith emptied = 2 := by
    unfold entriesWith
    rw [hcount, if_pos ⟨0, by decide, rfl⟩]
  have hbytes : recordBytes p.records = 0 := by
    refine List.sum_eq_zero fun n hn => ?_
    obtain ⟨⟨slot, bytes⟩, hmem, rfl⟩ := List.mem_map.1 hn
    have hslot := (hrep.records slot bytes).1 hmem
    unfold emptied at hslot
    by_cases h0 : slot = 0
    · simp [h0] at hslot
    · by_cases h1 : slot = 1
      · simp [h1, Function.update_of_ne] at hslot
        simp [← hslot]
      · simp [Function.update_of_ne h0, Function.update_of_ne h1] at hslot
  unfold sizeWith
  rw [hentries, hbytes]
  rfl

end SlottedPage

end PagedHeap
