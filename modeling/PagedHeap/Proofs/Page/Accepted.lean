import PagedHeap.Proofs.Page.Checked

/-!
# Reading any page that is accepted

A page that is accepted need not be one that was worked on: only its header was looked at. Entries
of its directory may point into the header, into the directory or past the end of the page, and
records may overlap. `SlottedPage.Accepted` is what is known of it.

There are two ways to see a record on such a page. The walk from slot to slot goes by the entries
that are not empty; reading a record asks in addition that its range lies inside the page. The slots
that are walked through and the records that can be read therefore differ, but in one direction
only: `SlottedPage.Legible` says how they are related, and that no way to read the page looks at a
byte outside of it.
-/

namespace PagedHeap

namespace SlottedPage

variable {p : SlottedPage}

/-! ## Accepted pages -/

/-- The page is what its own bytes are read as. -/
structure Accepted (p : SlottedPage) : Prop extends p.Bounded where
  /-- The header is the stored one. -/
  decoded : DataHeader.read? p.data = some p.header
  /-- The page is one of records. -/
  kind : p.header.kind = .heapData

theorem read_data_eq_ok_iff {data : Page} : read data = .ok p ↔ p.data = data ∧ p.Accepted := by
  unfold read ofBlock
  rw [dif_pos rfl, Vector.cast_rfl]
  have hend : ∀ h : DataHeader, h.directoryEnd = Slot.position h.slotCount.toNat := fun _ => rfl
  constructor
  · intro h
    dsimp only at h
    split at h
    · cases h
    · next header hheader =>
      obtain ⟨hkind, h⟩ := Result.ite_refuse_eq_ok.1 h
      obtain ⟨hbounds, h⟩ := Result.ite_refuse_eq_ok.1 h
      obtain ⟨hdirectory, hcontent⟩ := not_or.1 hbounds
      cases h
      exact ⟨rfl, ⟨hend header ▸ Nat.not_lt.1 hdirectory, Nat.not_lt.1 hcontent⟩, hheader,
        Decidable.not_not.1 hkind⟩
  · rintro ⟨rfl, h⟩
    simp only [h.decoded, h.kind, ne_eq, not_true_eq_false, if_false]
    rw [if_neg (not_or.2 ⟨Nat.not_lt.2 (hend p.header ▸ h.directory), Nat.not_lt.2 h.content⟩)]

/-- What a buffer is read as has the bytes of the buffer and is accepted. -/
theorem accepted_of_read {n : Nat} {b : Block n} (h : read b = .ok p) :
    p.data.bytes = b.bytes ∧ p.Accepted := by
  by_cases hsize : n = pageSize
  · subst hsize
    obtain ⟨hdata, haccepted⟩ := read_data_eq_ok_iff.1 h
    exact ⟨by rw [hdata], haccepted⟩
  · unfold read ofBlock at h
    rw [dif_neg hsize] at h
    cases h

theorem Accepted.read (h : p.Accepted) : read p.data = .ok p := read_data_eq_ok_iff.2 ⟨rfl, h⟩

/-- A link is read as one to a page or as none. -/
theorem Accepted.next_ne (h : p.Accepted) : p.header.next ≠ some .invalid := by
  have hdecoded := h.decoded
  unfold DataHeader.read? at hdecoded
  rw [if_neg (by decide)] at hdecoded
  obtain ⟨kind, -, hheader⟩ := Option.map_eq_some_iff.1 hdecoded
  rw [← hheader]
  show PageId.ofLink? _ ≠ _
  unfold PageId.ofLink?
  split
  · nofun
  · next hvalid => exact fun hlink => hvalid (congrArg PageId.val (Option.some.inj hlink))

section Header

variable {h : DataHeader} (hnext : h.next ≠ some .invalid) (hkind : h.kind = .heapData)
include hnext hkind

omit hkind in
/-- A header is read from the page into which it was stored. -/
theorem decoded_withHeader : DataHeader.read? (p.withHeader h).data = some h :=
  DataHeader.read?_write (b := p.data) hnext (by rw [DataHeader.write, if_neg (by decide)]; rfl)

/-- A header that is in bounds makes any page one that is accepted. -/
theorem accepted_withHeader (hdirectory : Slot.position h.slotCount.toNat ≤ h.contentStart.toNat)
    (hcontent : h.contentStart.toNat ≤ pageSize) : (p.withHeader h).Accepted :=
  ⟨⟨hdirectory, hcontent⟩, decoded_withHeader hnext, hkind⟩

/-- A header whose directory reaches into the content makes any page one that is refused. -/
theorem read_withHeader_of_lt (hlt : h.contentStart.toNat < Slot.position h.slotCount.toNat) :
    SlottedPage.read (p.withHeader h).data =
      .refuse (.corruption s!"page {h.page.text}: slot directory overlaps record content") := by
  unfold SlottedPage.read ofBlock
  rw [dif_pos rfl, Vector.cast_rfl]
  simp only [decoded_withHeader hnext, hkind, ne_eq, not_true_eq_false, if_false]
  exact if_pos (.inl hlt)

end Header

/-! ## Finding the slots in use -/

/-- The first slot in use among the given entries. -/
def checkedUsed? (p : SlottedPage) : List Nat → Result (Option SlotId)
  | [] => .ok none
  | i :: rest => do
    let slot ← count16 i
    let entry ← p.checkedEntry slot.toNat
    if entry.isEmpty then checkedUsed? p rest else return some slot

/-- The first slot in use from `start` on. -/
def checkedFrom? (p : SlottedPage) (start : Nat) : Result (Option SlotId) :=
  p.checkedUsed? (List.range' start (p.slotCount - start))

/-- The number of slots in use among the given entries. -/
def checkedCount (p : SlottedPage) : List Nat → Result Nat
  | [] => .ok 0
  | i :: rest => do
    let slot ← count16 i
    let entry ← p.checkedEntry slot.toNat
    let others ← checkedCount p rest
    return if entry.isEmpty then others else others + 1

/-- Going from a slot in use to the next, until there is none, passes through these slots. -/
inductive Walks (p : SlottedPage) : Option SlotId → List SlotId → Prop where
  | done : p.Walks none []
  | step {slot : SlotId} {rest : List SlotId} : p.Walks (p.nextAfter? slot) rest →
    p.Walks (some slot) (slot :: rest)

namespace Bounded

variable (h : p.Bounded)
include h

theorem checkedUsed?_eq {entries : List Nat} (hentries : ∀ i ∈ entries, i < p.slotCount) :
    p.checkedUsed? entries =
      .ok ((entries.find? fun i => !(p.slotAt i).isEmpty).map UInt16.ofNat) := by
  induction entries with
  | nil => rfl
  | cons i rest ih =>
    obtain ⟨hi, hrest⟩ := List.forall_mem_cons.1 hentries
    rw [checkedUsed?, count16_of_lt (lt_trans hi p.slotCount_lt), Result.bind_ok,
      toNat_ofNat_of_lt_slotCount hi, h.checkedEntry_eq hi, Result.bind_ok, List.find?_cons]
    cases hempty : (p.slotAt i).isEmpty with
    | true => exact ih hrest
    | false => rfl

theorem checkedFrom?_eq (start : Nat) : p.checkedFrom? start = .ok (p.slotsFrom start).head? := by
  have hinside : ∀ i ∈ List.range' start (p.slotCount - start), i < p.slotCount := fun i hi => by
    have := List.mem_range'_1.1 hi
    omega
  rw [checkedFrom?, h.checkedUsed?_eq hinside]
  unfold slotsFrom
  rw [List.head?_map, List.head?_filter]

theorem checkedCount_eq : p.checkedCount (List.range p.slotCount) = .ok p.recordCount := by
  have hall : ∀ l : List Nat, (∀ i ∈ l, i < p.slotCount) → p.checkedCount l =
      .ok (l.filter fun i => !(p.slotAt i).isEmpty).length := fun l => by
    induction l with
    | nil => exact fun _ => rfl
    | cons i rest ih =>
      intro hl
      obtain ⟨hi, hrest⟩ := List.forall_mem_cons.1 hl
      rw [checkedCount, count16_of_lt (lt_trans hi p.slotCount_lt), Result.bind_ok,
        toNat_ofNat_of_lt_slotCount hi, h.checkedEntry_eq hi, Result.bind_ok, ih hrest,
        Result.bind_ok, List.filter_cons]
      cases (p.slotAt i).isEmpty with
      | true => rfl
      | false => rfl
  rw [hall _ fun i hi => List.mem_range.1 hi]
  unfold recordCount slots slotsFrom
  rw [List.length_map, Nat.sub_zero, List.range_eq_range']

end Bounded

/-- The slots in use behind the first of them. -/
theorem slotsFrom_succ {start : Nat} {slot : SlotId} {rest : List SlotId}
    (h : p.slotsFrom start = slot :: rest) : p.slotsFrom (slot.toNat + 1) = rest := by
  have hsorted := p.sortedLT_slotsFrom start
  rw [h, List.pairwise_cons] at hsorted
  have hmem {other : SlotId} :
      other ∈ slot :: rest ↔ start ≤ other.toNat ∧ p.Live other.toNat := by
    rw [← h, mem_slotsFrom]
  have hfirst := hmem.1 List.mem_cons_self
  have hperm : (p.slotsFrom (slot.toNat + 1)).Perm rest :=
    (List.perm_ext_iff_of_nodup (p.nodup_slotsFrom _)
      (hsorted.2.imp fun hlt => UInt16.ne_of_lt hlt)).2 fun other => by
    rw [mem_slotsFrom]
    constructor
    · rintro ⟨hlt, hlive⟩
      rcases List.mem_cons.1 (hmem.2 ⟨by omega, hlive⟩) with rfl | hrest
      · omega
      · exact hrest
    · intro hrest
      have hlive := hmem.1 (List.mem_cons_of_mem _ hrest)
      exact ⟨UInt16.lt_iff_toNat_lt.1 (hsorted.1 other hrest), hlive.2⟩
  exact hperm.eq_of_pairwise (fun a b _ _ hab hba => absurd hba (UInt16.lt_asymm hab))
    (p.sortedLT_slotsFrom _) hsorted.2

theorem walks_slotsFrom (start : Nat) : p.Walks (p.slotsFrom start).head? (p.slotsFrom start) := by
  generalize hslots : p.slotsFrom start = slots
  induction slots generalizing start with
  | nil => exact .done
  | cons slot rest ih =>
    have hrest := slotsFrom_succ hslots
    refine .step ?_
    unfold nextAfter?
    rw [hrest]
    exact ih _ hrest

/-- There is one walk only. -/
theorem Walks.eq {slot : Option SlotId} {slots slots' : List SlotId} (h : p.Walks slot slots)
    (h' : p.Walks slot slots') : slots = slots' := by
  induction h generalizing slots' with
  | done =>
    cases h'
    rfl
  | step _ ih =>
    cases h' with
    | step h' => rw [ih h']

/-! ## Reading is safe -/

/-- The record of a slot is read or refused. -/
theorem answered_get (p : SlottedPage) (slot : SlotId) : (p.get slot).Answered := by
  rcases p.get_cases slot with ⟨-, hget⟩ | hget
  · exact .of_ok hget
  · exact .of_refused hget

/-- The ways to read a page, each of them with every check, and how they are related. -/
structure Legible (p : SlottedPage) : Prop where
  /-- A record is read or refused. -/
  get : ∀ slot, p.checkedGet slot = p.get slot ∧ (p.get slot).Answered
  /-- The first slot in use is found. -/
  first : p.checkedFrom? 0 = .ok p.first?
  /-- So is the next one after any slot, the last number of a slot included. -/
  next : ∀ slot : SlotId, p.checkedFrom? (slot.toNat + 1) = .ok (p.nextAfter? slot)
  /-- The slots in use are counted. -/
  count : p.checkedCount (List.range p.slotCount) = .ok p.recordCount
  /-- The records are listed. -/
  list : p.checkedRecords (List.range p.slotCount) = .ok p.records
  /-- There is one walk from the first slot in use to the next and the next. -/
  walk : ∀ slots, p.Walks p.first? slots ↔ slots = p.slots
  /-- The walk goes up. -/
  sorted : p.slots.Pairwise (· < ·)
  /-- It stays inside the directory. -/
  inside : ∀ slot ∈ p.slots, slot.toNat < p.slotCount
  /-- It is as long as there are slots in use. -/
  length : p.slots.length = p.recordCount
  /-- A record that can be read is in one of its slots. -/
  mem_slots : ∀ slot bytes, p.get slot = .ok bytes → slot ∈ p.slots
  /-- The records that are listed are in those of its slots that can be read. -/
  slots_records : p.records.map Prod.fst = p.slots.filter fun slot => (p.get slot).isOk
  /-- They are listed with the bytes that are read. -/
  mem_records : ∀ slot bytes, (slot, bytes) ∈ p.records ↔ p.get slot = .ok bytes

theorem Bounded.legible (h : p.Bounded) : p.Legible where
  get slot := ⟨h.checkedGet_eq slot, p.answered_get slot⟩
  first := h.checkedFrom?_eq 0
  next slot := h.checkedFrom?_eq _
  count := h.checkedCount_eq
  list := h.checkedRecords_eq
  walk slots := by
    constructor
    · exact fun hwalks => hwalks.eq (walks_slotsFrom 0)
    · rintro rfl
      exact walks_slotsFrom 0
  sorted := p.sortedLT_slotsFrom 0
  inside slot hslot := (SlottedPage.mem_slots.1 hslot).1
  length := rfl
  mem_slots slot bytes hget := SlottedPage.mem_slots.2 (live_of_get hget)
  slots_records := p.map_fst_records
  mem_records _ _ := mem_records_iff

/-- Whatever a buffer holds that is accepted as a page, it can be read in every way. -/
theorem legible_of_read {n : Nat} {b : Block n} (h : read b = .ok p) :
    p.data.bytes = b.bytes ∧ p.Legible := by
  obtain ⟨hdata, haccepted⟩ := accepted_of_read h
  exact ⟨hdata, haccepted.legible⟩

/-- A page of three entries, the last of which points past the end of the page. -/
theorem legible_of_read_damaged : ∃ p, read p.data = .ok p ∧ p.slotCount = 3 ∧
    p.slotAt 2 = ⟨4000, 65535⟩ ∧ p.Legible := by
  have hposition : Slot.position 2 + slotSize ≤ pageSize := by decide
  have haccepted := accepted_withHeader
    (p := ⟨(Block.zero pageSize).overwrite (Slot.position 2) (Slot.encode ⟨4000, 65535⟩),
      .empty ⟨2⟩⟩)
    (h := { DataHeader.empty ⟨2⟩ with slotCount := 3, contentStart := 28 })
    (by decide) rfl (by decide) (by decide)
  refine ⟨_, haccepted.read, rfl, ?_, (legible_of_read haccepted.read).2⟩
  rw [slotAt_withHeader hposition]
  exact Slot.load_overwrite_self _ _ _ hposition

end SlottedPage

end PagedHeap
