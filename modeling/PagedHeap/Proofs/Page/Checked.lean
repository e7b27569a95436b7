import PagedHeap.Proofs.Page.Map

/-!
# Page operations with every check

The operations on a page as they run when nothing is taken for granted: an entry or a range is read
only if it lies inside the page, a number is stored in sixteen bits only if it fits, and the end of
the directory is found by stepping its counter down.  Where a check fails, the checked operation
stops.

On any page that is `SlottedPage.Bounded` no check fails: each checked operation has the result of
the operation itself.  On a well-formed page this is never a stop (`SlottedPage.WellFormed.exact`),
and with the layout of the page this is what holds of every page that was worked on
(`SlottedPage.Tracks.consistent`).
-/

namespace PagedHeap

section Answered

variable {α : Type} {r : Result α}

/-- The computation does not stop: it has a result or is refused. -/
def Result.Answered (r : Result α) : Prop := ∀ t, r ≠ .error (.trap t)

theorem Result.Answered.of_ok {a : α} (h : r = .ok a) : r.Answered :=
  fun t ht => by simp [h] at ht

theorem Result.Answered.of_refused {e : StorageError} (h : r = .error (.error e)) : r.Answered :=
  fun t ht => by simp [h] at ht

end Answered

namespace SlottedPage

/-! ## Reading -/

/-- Entry `i` of the directory, if it lies inside the page. -/
def checkedEntry (p : SlottedPage) (i : Nat) : Result Slot :=
  if Slot.position i + slotSize ≤ pageSize then .ok (p.slotAt i) else .stop .outOfRange

/-- The bytes of a range, if it lies inside the page. -/
def checkedSlice (p : SlottedPage) (offset length : Nat) : Result Bytes :=
  if offset + length ≤ pageSize then .ok (p.data.slice offset length) else .stop .outOfRange

/-- The entry of a live record; the directory is not read behind its end. -/
def checkedLive (p : SlottedPage) (slot : SlotId) : Result Slot :=
  if slot.toNat < p.slotCount then do
    let entry ← p.checkedEntry slot.toNat
    if !entry.isEmpty ∧ entry.stop ≤ pageSize then .ok entry
    else .refuse (.slotNotFound ⟨p.page, slot⟩)
  else .refuse (.slotNotFound ⟨p.page, slot⟩)

/-- The bytes of the record in a slot. -/
def checkedGet (p : SlottedPage) (slot : SlotId) : Result Bytes := do
  let entry ← p.checkedLive slot
  p.checkedSlice entry.offset.toNat entry.length.toNat

/-- The records that can be read among the given entries. -/
def checkedRecords (p : SlottedPage) : List Nat → Result (List (SlotId × Bytes))
  | [] => .ok []
  | i :: rest => do
    let slot ← count16 i
    match p.checkedGet slot with
    | .ok record => do
      let others ← checkedRecords p rest
      return (slot, record) :: others
    | .error (.error _) => checkedRecords p rest
    | .error (.trap t) => .stop t

/-- The first empty entry among the given ones. -/
def checkedEmpty? (p : SlottedPage) : List Nat → Result (Option SlotId)
  | [] => .ok none
  | i :: rest => do
    let entry ← p.checkedEntry i
    if entry.isEmpty then
      let slot ← count16 i
      return some slot
    else checkedEmpty? p rest

/-- The length of the directory without the empty entries at its end. -/
def checkedTrimmed (p : SlottedPage) : (count : Nat) → Result Nat
  | 0 => .ok 0
  | k + 1 => do
    let entry ← p.checkedEntry k
    if entry.isEmpty then checkedTrimmed p k else .ok (k + 1)

/-! ## Changing -/

/-- Puts a record directly below `start`; its place and its length have to fit into an entry. -/
def checkedPack (start : Nat) (p : SlottedPage) (slot : SlotId) (bytes : Bytes) :
    Result (Nat × SlottedPage) := do
  let offset ← subtract start bytes.length
  let p ← p.setContent offset bytes
  let place ← count16 offset
  let length ← count16 bytes.length
  let p ← p.setSlot slot.toNat ⟨place, length⟩
  return (offset, p)

/-- Packs records one below the other. -/
def checkedPackAll (start : Nat) (p : SlottedPage) :
    List (SlotId × Bytes) → Result (Nat × SlottedPage)
  | [] => .ok (start, p)
  | (slot, bytes) :: rest => do
    let (start, p) ← checkedPack start p slot bytes
    checkedPackAll start p rest

/-- Moves all records to the end of the page. -/
def checkedCompact (p : SlottedPage) : Result SlottedPage := do
  let records ← p.checkedRecords (List.range p.slotCount)
  let (start, q) ← checkedPackAll pageSize p records
  let start ← count16 start
  return q.withHeader { p.header with contentStart := start, fragmented := 0 }

/-- The page with at least `needed` free bytes. -/
def checkedRoom (p : SlottedPage) (needed : Nat) : Result SlottedPage :=
  if needed ≤ p.freeSpace then .ok p
  else
    let available := p.freeSpace + p.header.fragmented.toNat
    if available < needed then .refuse (.pageFull p.page needed available) else p.checkedCompact

/-- Stores a record in the given empty entry or in a new one. -/
def checkedPlace (p : SlottedPage) (reuse : Option SlotId) (record : Bytes) :
    Result (SlotId × SlottedPage) := do
  let slotCount ← match reuse with
    | some _ => pure p.header.slotCount
    | none => count16 (p.slotCount + 1)
  let slot := reuse.getD p.header.slotCount
  let (offset, q) ← checkedPack p.header.contentStart.toNat p slot record
  let start ← count16 offset
  return (slot, q.withHeader { p.header with slotCount := slotCount, contentStart := start })

/-- Adds a record and answers its slot. -/
def checkedInsert (p : SlottedPage) (record : Bytes) : Result (SlotId × SlottedPage) :=
  if maxRecordSize < record.length then
    .refuse (.invalidRecordLength record.length maxRecordSize)
  else do
    let reuse ← p.checkedEmpty? (List.range p.slotCount)
    let needed := record.length + if reuse.isSome then 0 else slotSize
    let p ← p.checkedRoom needed
    p.checkedPlace reuse record

/-- Deletes the record in a slot. -/
def checkedDelete (p : SlottedPage) (slot : SlotId) : Result SlottedPage := do
  let entry ← p.checkedLive slot
  let q ← p.setSlot slot.toNat .empty
  let fragmented ← count16 (p.header.fragmented.toNat + entry.length.toNat)
  let kept ← q.checkedTrimmed q.slotCount
  let slotCount ← count16 kept
  return q.withHeader { p.header with slotCount := slotCount, fragmented := fragmented }

/-- Changes the bytes of the record in a slot in place. -/
def checkedModify (p : SlottedPage) (slot : SlotId) (edit : Edit) : Result SlottedPage := do
  let entry ← p.checkedLive slot
  let old ← p.checkedSlice entry.offset.toNat entry.length.toNat
  return { p with data :=
    p.data.overwrite entry.offset.toNat (edit _ (Block.ofBytes old)).bytes }

/-! ## No check fails -/

theorem count16_of_lt {n : Nat} (h : n < 2 ^ 16) : count16 n = .ok (UInt16.ofNat n) := if_pos h

/-- What is packed inside a page has a place and a length that fit into an entry. -/
theorem checkedPack_eq {start : Nat} (hstart : start ≤ pageSize) (p : SlottedPage) (slot : SlotId)
    (bytes : Bytes) : checkedPack start p slot bytes = pack start p slot bytes := by
  unfold checkedPack pack subtract
  split
  · next hle =>
    have hplace : start - bytes.length < 2 ^ 16 := by simp only [pageSize] at hstart; omega
    have hlength : bytes.length < 2 ^ 16 := by simp only [pageSize] at hstart; omega
    simp only [Result.bind_ok, count16_of_lt hplace, count16_of_lt hlength]
  · rfl

/-- Packing goes down. -/
theorem le_of_pack {start offset : Nat} {p q : SlottedPage} {slot : SlotId} {bytes : Bytes}
    (h : pack start p slot bytes = .ok (offset, q)) : offset ≤ start := by
  obtain ⟨r, hr, h⟩ := Result.bind_eq_ok.1 h
  obtain ⟨_, -, h⟩ := Result.bind_eq_ok.1 h
  obtain ⟨_, -, h⟩ := Result.bind_eq_ok.1 h
  rw [← (Prod.mk.inj (Except.ok.inj h)).1]
  unfold subtract at hr
  split at hr
  · rw [← Except.ok.inj hr]
    exact Nat.sub_le _ _
  · cases hr

theorem checkedPackAll_eq {start : Nat} (hstart : start ≤ pageSize) (p : SlottedPage)
    (records : List (SlotId × Bytes)) :
    checkedPackAll start p records = packAll start p records := by
  induction records generalizing start p with
  | nil => rfl
  | cons r rest ih =>
    obtain ⟨slot, bytes⟩ := r
    rw [checkedPackAll, packAll, checkedPack_eq hstart]
    cases hpack : pack start p slot bytes with
    | error e => rfl
    | ok placed =>
      obtain ⟨offset, q⟩ := placed
      exact ih (le_trans (le_of_pack hpack) hstart) q

/-- Storing an entry does not change the decoded header. -/
theorem header_setSlot {p q : SlottedPage} {i : Nat} {entry : Slot}
    (h : p.setSlot i entry = .ok q) : q.header = p.header := by
  unfold setSlot at h
  split at h
  · rw [← Except.ok.inj h]
  · cases h

/-- The end of a directory that lies inside the page is found. -/
theorem checkedTrimmed_eq (p : SlottedPage) {count : Nat} (h : Slot.position count ≤ pageSize) :
    p.checkedTrimmed count = .ok (p.trimmed count) := by
  induction count with
  | zero => rfl
  | succ k ih =>
    have hentry : p.checkedEntry k = .ok (p.slotAt k) := by
      refine if_pos ?_
      simp only [Slot.position, dataHeaderSize, slotSize] at h ⊢
      omega
    have hk : Slot.position k ≤ pageSize := by
      simp only [Slot.position, dataHeaderSize, slotSize] at h ⊢
      omega
    rw [checkedTrimmed, trimmed, hentry, Result.bind_ok, ih hk]
    split <;> rfl

/-- Packing several records goes down. -/
theorem le_of_packAll {start low : Nat} {p q : SlottedPage} {records : List (SlotId × Bytes)}
    (h : packAll start p records = .ok (low, q)) : low ≤ start := by
  induction records generalizing start p with
  | nil =>
    cases h
    exact le_refl _
  | cons r rest ih =>
    obtain ⟨⟨offset, p'⟩, hpack, hrest⟩ := Result.bind_eq_ok.1 h
    exact le_trans (ih hrest) (le_of_pack hpack)

/-- The range of an entry that was found lies inside the page. -/
theorem checkedSlice_eq {p : SlottedPage} {slot : SlotId} {entry : Slot}
    (hentry : p.liveSlot slot = .ok entry) :
    p.checkedSlice entry.offset.toNat entry.length.toNat =
      .ok (p.data.slice entry.offset.toNat entry.length.toNat) := by
  rcases p.liveSlot_cases slot with ⟨-, hstop, hfound⟩ | hfound
  · cases hfound.symm.trans hentry
    exact if_pos hstop
  · cases hfound.symm.trans hentry

namespace Bounded

variable {p : SlottedPage} (h : p.Bounded)
include h

/-- The entries of the directory lie inside the page. -/
theorem checkedEntry_eq {i : Nat} (hi : i < p.slotCount) : p.checkedEntry i = .ok (p.slotAt i) :=
  if_pos (le_trans (h.position_le hi) h.content)

theorem checkedLive_eq (slot : SlotId) : p.checkedLive slot = p.liveSlot slot := by
  unfold checkedLive liveSlot
  by_cases hlt : slot.toNat < p.slotCount
  · simp only [hlt, if_true, true_and, h.checkedEntry_eq hlt, Result.bind_ok]
  · simp only [hlt, if_false, false_and]

theorem checkedGet_eq (slot : SlotId) : p.checkedGet slot = p.get slot := by
  unfold checkedGet SlottedPage.get
  rw [h.checkedLive_eq]
  cases hentry : p.liveSlot slot with
  | error e => rfl
  | ok entry => exact checkedSlice_eq hentry

/-- The records are found by going through the directory. -/
theorem checkedRecords_eq : p.checkedRecords (List.range p.slotCount) = .ok p.records := by
  have hall : ∀ l : List Nat, (∀ i ∈ l, i < p.slotCount) → p.checkedRecords l =
      .ok (((l.filter fun i => !(p.slotAt i).isEmpty).map UInt16.ofNat).filterMap fun slot =>
        (p.get slot).toOption.map fun bytes => (slot, bytes)) := fun l => by
    induction l with
    | nil => exact fun _ => rfl
    | cons i rest ih =>
      intro hlt
      have hi : i < p.slotCount := hlt i (by simp)
      have hnat : (UInt16.ofNat i).toNat = i := toNat_ofNat_of_lt_slotCount hi
      have hrest := ih fun k hk => hlt k (by simp [hk])
      rw [checkedRecords, count16_of_lt (lt_trans hi p.slotCount_lt), Result.bind_ok,
        h.checkedGet_eq]
      rcases p.get_cases (UInt16.ofNat i) with ⟨hlive, hget⟩ | hget
      · have hempty : (p.slotAt i).isEmpty = false := by
          rw [← hnat]
          exact hlive.2
        simp only [hrest, hget, List.filter_cons, hempty, Bool.not_false, if_true,
          List.map_cons, List.filterMap_cons, Result.bind_ok]
        rfl
      · simp only [hget, hrest]
        cases hempty : (p.slotAt i).isEmpty with
        | true => simp [hempty]
        | false =>
          simp only [List.filter_cons, hempty, Bool.not_false, if_true, List.map_cons,
            List.filterMap_cons, hget]
          rfl
  rw [hall _ fun i hi => List.mem_range.1 hi]
  unfold records slots slotsFrom
  rw [Nat.sub_zero, List.range_eq_range']

/-- The first empty entry is found by going through the directory. -/
theorem checkedEmpty?_eq : p.checkedEmpty? (List.range p.slotCount) = .ok p.emptySlot? := by
  have hall : ∀ l : List Nat, (∀ i ∈ l, i < p.slotCount) → p.checkedEmpty? l =
      .ok ((l.find? fun i => (p.slotAt i).isEmpty).map UInt16.ofNat) := fun l => by
    induction l with
    | nil => exact fun _ => rfl
    | cons i rest ih =>
      intro hlt
      have hi : i < p.slotCount := hlt i (by simp)
      rw [checkedEmpty?, h.checkedEntry_eq hi, Result.bind_ok, List.find?_cons]
      cases hempty : (p.slotAt i).isEmpty with
      | true =>
        simp [count16_of_lt (lt_trans hi p.slotCount_lt), pure, Except.pure]
      | false => simpa using ih fun k hk => hlt k (by simp [hk])
  exact hall _ fun i hi => List.mem_range.1 hi

theorem checkedCompact_eq : p.checkedCompact = p.compact := by
  rw [checkedCompact, compact, h.checkedRecords_eq, Result.bind_ok,
    checkedPackAll_eq (le_refl pageSize)]
  cases hpack : packAll pageSize p p.records with
  | error e => rfl
  | ok packed =>
    obtain ⟨start, q⟩ := packed
    have hstart : start < 2 ^ 16 := lt_of_le_of_lt (le_of_packAll hpack) (by decide)
    simp only [Result.bind_ok, count16_of_lt hstart]

theorem checkedRoom_eq (needed : Nat) : p.checkedRoom needed = p.withRoom needed := by
  unfold checkedRoom withRoom
  rw [h.checkedCompact_eq]

omit h in
theorem checkedPlace_eq (hcontent : p.header.contentStart.toNat ≤ pageSize)
    (reuse : Option SlotId) (record : Bytes) :
    p.checkedPlace reuse record = p.place reuse record := by
  have hpack : ∀ slot, (checkedPack p.header.contentStart.toNat p slot record) =
      pack p.header.contentStart.toNat p slot record :=
    fun slot => checkedPack_eq hcontent p slot record
  have hlt : ∀ offset q slot, pack p.header.contentStart.toNat p slot record = .ok (offset, q) →
      count16 offset = .ok (UInt16.ofNat offset) := fun offset q slot hq =>
    count16_of_lt (lt_of_le_of_lt (le_of_pack hq) p.header.contentStart.toNat_lt)
  unfold checkedPlace place
  cases reuse with
  | some s =>
    simp only [hpack]
    cases hq : pack p.header.contentStart.toNat p s record with
    | error e => simp [hq]
    | ok placed => simp [hq, hlt _ _ _ hq]
  | none =>
    simp only [hpack]
    cases hq : pack p.header.contentStart.toNat p p.header.slotCount record with
    | error e => simp [hq]
    | ok placed => simp [hq, hlt _ _ _ hq]

/-- Where room was made the content starts inside the page. -/
theorem contentStart_le_of_withRoom {needed : Nat} {q : SlottedPage}
    (hroom : p.withRoom needed = .ok q) : q.header.contentStart.toNat ≤ pageSize := by
  unfold withRoom at hroom
  split at hroom
  · rw [← Except.ok.inj hroom]
    exact h.content
  · dsimp only at hroom
    split at hroom
    · cases hroom
    · obtain ⟨⟨start, packed⟩, hpack, hheader⟩ := Result.bind_eq_ok.1 hroom
      rw [← Except.ok.inj hheader]
      have hstart : start < 2 ^ 16 := lt_of_le_of_lt (le_of_packAll hpack) (by decide)
      show (UInt16.ofNat start).toNat ≤ pageSize
      rw [UInt16.toNat_ofNat_of_lt' hstart]
      exact le_of_packAll hpack

theorem checkedInsert_eq (record : Bytes) : p.checkedInsert record = p.insert record := by
  unfold checkedInsert insert
  split
  · rfl
  · rw [h.checkedEmpty?_eq]
    simp only [Result.bind_ok, h.checkedRoom_eq]
    cases hroom : p.withRoom (record.length + if p.emptySlot?.isSome then 0 else slotSize) with
    | error e => rfl
    | ok q =>
      simp only [Result.bind_ok]
      exact checkedPlace_eq (h.contentStart_le_of_withRoom hroom) _ _

theorem checkedDelete_eq (slot : SlotId) : p.checkedDelete slot = p.delete slot := by
  unfold checkedDelete delete
  rw [h.checkedLive_eq]
  cases hentry : p.liveSlot slot with
  | error e => rfl
  | ok entry =>
    have hdirectory : Slot.position p.slotCount ≤ pageSize := le_trans h.directory h.content
    simp only [Result.bind_ok]
    cases hset : p.setSlot slot.toNat .empty with
    | error e => rfl
    | ok q =>
      have hcount : q.slotCount = p.slotCount := congrArg (·.slotCount.toNat) (header_setSlot hset)
      have hkept : q.trimmed q.slotCount < 2 ^ 16 :=
        lt_of_le_of_lt (q.trimmed_spec q.slotCount).1 q.slotCount_lt
      simp only [Result.bind_ok, q.checkedTrimmed_eq (hcount ▸ hdirectory), count16_of_lt hkept]

theorem checkedModify_eq (slot : SlotId) (edit : Edit) :
    p.checkedModify slot edit = p.modify slot edit := by
  unfold checkedModify modify
  rw [h.checkedLive_eq]
  cases hentry : p.liveSlot slot with
  | error e => rfl
  | ok entry => simp only [Result.bind_ok, checkedSlice_eq hentry]

end Bounded

/-! ## Every page that was worked on -/

/-- The directory, the records, the counters and the stored header of a page agree. -/
structure Consistent (p : SlottedPage) : Prop where
  /-- The directory ends before the records start. -/
  directory : dataHeaderSize + slotSize * p.slotCount ≤ p.header.contentStart.toNat
  /-- The records start inside the page. -/
  content : p.header.contentStart.toNat ≤ pageSize
  /-- A record lies in the record area. -/
  range : ∀ i, p.Live i → p.header.contentStart.toNat ≤ (p.slotAt i).offset.toNat ∧
    (p.slotAt i).stop ≤ pageSize
  /-- Two records share no byte. -/
  apart : ∀ i j, p.Live i → p.Live j → i ≠ j → (p.slotAt i).Apart (p.slotAt j)
  /-- The record area holds the records and the fragmented bytes. -/
  account : pageSize - p.header.contentStart.toNat =
    recordBytes p.records + p.header.fragmented.toNat
  /-- The last entry of the directory is in use. -/
  last : 0 < p.slotCount → p.Live (p.slotCount - 1)
  /-- The stored header is the decoded one, but that no page follows one of number `invalid`. -/
  decoded : DataHeader.read? p.data =
    some { p.header with next := if p.next = some .invalid then none else p.next }

/-- With every check the operations of a page do what they do without, and none of them stops. -/
structure Exact (p : SlottedPage) : Prop where
  get : ∀ slot, p.checkedGet slot = p.get slot ∧ (p.get slot).Answered
  insert : ∀ record, p.checkedInsert record = p.insert record ∧ (p.insert record).Answered
  delete : ∀ slot, p.checkedDelete slot = p.delete slot ∧ (p.delete slot).Answered
  modify : ∀ slot edit, p.checkedModify slot edit = p.modify slot edit ∧
    (p.modify slot edit).Answered
  compact : p.checkedCompact = p.compact ∧ p.compact.Answered

namespace WellFormed

variable {p : SlottedPage} (h : p.WellFormed)
include h

theorem exact : p.Exact where
  get slot := by
    refine ⟨h.bounded.checkedGet_eq slot, ?_⟩
    cases hslot : p.record? slot with
    | none => exact .of_refused (h.get_of_record?_none hslot)
    | some record => exact .of_ok (h.get_of_record? hslot)
  insert record := by
    refine ⟨h.bounded.checkedInsert_eq record, ?_⟩
    rcases h.insert_cases record with ⟨slot, q, hq, -⟩ | ⟨e, he⟩
    · exact .of_ok hq
    · exact .of_refused he
  delete slot := by
    refine ⟨h.bounded.checkedDelete_eq slot, ?_⟩
    cases hslot : p.record? slot with
    | none => exact .of_refused (h.delete_of_none hslot)
    | some record =>
      obtain ⟨q, hq, -⟩ := h.delete_eq (by rw [hslot]; rfl)
      exact .of_ok hq
  modify slot edit := by
    refine ⟨h.bounded.checkedModify_eq slot edit, ?_⟩
    cases hslot : p.record? slot with
    | none => exact .of_refused (h.modify_of_none hslot edit)
    | some record =>
      obtain ⟨q, hq, -⟩ := h.modify_eq hslot edit
      exact .of_ok hq
  compact := by
    obtain ⟨q, hq, -⟩ := h.compact_eq
    exact ⟨h.bounded.checkedCompact_eq, .of_ok hq⟩

/-- The header is decoded from the bytes of the page. -/
theorem decoded : DataHeader.read? p.data =
    some { p.header with next := if p.next = some .invalid then none else p.next } := by
  -- the same bytes are stored for the page without a link
  obtain ⟨header, hheader⟩ : ∃ header : DataHeader, header =
      { p.header with next := if p.next = some .invalid then none else p.next } := ⟨_, rfl⟩
  rw [← hheader]
  have hencode : header.encode = p.header.encode := by
    have hlink : PageId.toLink header.next = PageId.toLink p.header.next := by
      rw [hheader]
      show PageId.toLink (if p.header.next = some .invalid then none else p.header.next) = _
      split
      · next hinvalid => rw [hinvalid]; rfl
      · rfl
    unfold DataHeader.encode
    rw [hlink, hheader]
  have hvalid : header.next ≠ some .invalid := by
    rw [hheader]
    show (if p.next = some .invalid then none else p.next) ≠ some .invalid
    split
    · exact fun hc => by cases hc
    · assumption
  refine DataHeader.read?_write (b := p.data) hvalid ?_
  rw [DataHeader.write, if_neg (by decide), hencode]
  exact congrArg Except.ok h.overwrite_header

theorem toConsistent : p.Consistent where
  directory := by
    have := h.layout.directory
    rwa [Slot.position, Nat.mul_comm] at this
  content := h.layout.content
  range i hlive := h.layout.range i hlive.1 hlive.2
  apart i j hi hj hij := h.layout.apart i hi.1 j hj.1 hij hi.2 hj.2
  account := by
    have := h.layout.account
    rw [h.recordBytes_records]
    omega
  last hpos := ⟨by omega, h.last _ (by omega)⟩
  decoded := h.decoded

end WellFormed

/-- A page that was worked on is consistent, and each further operation has an answer and is
carried out without a failing check. -/
theorem Tracks.consistent {p : SlottedPage} {m : RecordMap} (h : Tracks p m) :
    p.Consistent ∧ p.Exact ∧
      ∀ c : PageCommand, c.OnPage → ∃ reply q, p.step c = .ok (reply, q) := by
  obtain ⟨hwf, -⟩ := h.sound
  refine ⟨hwf.toConsistent, hwf.exact, fun c hc => ?_⟩
  obtain ⟨reply, q, hstep, -⟩ := hwf.step c hc
  exact ⟨reply, q, hstep⟩

theorem Tracks.consistent_emptied : ∃ p, Tracks p emptied ∧ p.Consistent ∧ p.Exact ∧
    ∀ c : PageCommand, c.OnPage → ∃ reply q, p.step c = .ok (reply, q) := by
  obtain ⟨p, hp⟩ := exists_tracks_emptied
  exact ⟨p, hp, hp.consistent⟩

end SlottedPage

end PagedHeap
