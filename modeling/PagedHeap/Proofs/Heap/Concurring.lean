import PagedHeap.Proofs.Concurrence
import PagedHeap.Proofs.Heap.Places

/-!
# One scan over two pools

The same heap file may be scanned over two pools that show the same pages.  What a scan answers does
not depend on the frames: it depends on the page from which the scan goes on, and for its current
record on whether it has that record in hand, which is to say that the page of the record is the
current one (`HeapFile.inHand`).

Two scans of a file are paired if they stand on the same record (`HeapFile.Paired`).  They may be
paired without having the same place or the same record in hand; each operation says what it needs
of these, and what the scans have in common after it.
-/

namespace PagedHeap

open PagedHeap.Action

open MemoryFiles (law)

/-- A page that cannot be pinned fails the check of its number, unless all frames are pinned. -/
theorem Database.refuses_pin {db : Database MemoryFiles} {pins : Multiset Pin}
    (h : law.Holds pins db) (file : FileId) (page : PageId) :
    (pin file page).Ensures db (fun _ _ => True)
      (fun e _ => e = .bufferPoolExhausted ∨
        page.check (law.volume db file).size = .error (.error e)) := by
  unfold pin
  rw [ensures_bind, ensures_get]
  cases hfind : db.pool.frames.find? ⟨file, page⟩ with
  | some frame => trivial
  | none =>
    simp only
    rw [ensures_bind]
    refine (ensures_makeRoom h).mono ?_ ?_
    · rintro _ db₁ ⟨-, hsame, -⟩
      rw [ensures_bind]
      unfold onFiles
      rw [ensures_onPart]
      refine (MemoryFiles.ensures_readPage db₁.files file page).mono (fun _ _ _ => trivial) ?_
      rintro e _ ⟨-, -, hcheck⟩
      refine .inr ?_
      rw [← congrFun (PageStore.Reliable.volume_of_same hsame) file]
      exact hcheck
    · rintro e _ ⟨-, -, hcause, -⟩
      exact .inl (hcause PageStore.Reliable.sound_present)

namespace HeapFile

/-- The current record, if its page is the current page. -/
def inHand (h : HeapFile) : Option RecordId :=
  h.record.filter fun rid => h.currentPage? = some rid.page

theorem inHand_of_record_eq_none {h : HeapFile} (hrecord : h.record = none) : h.inHand = none := by
  unfold inHand
  rw [hrecord]
  rfl

theorem inHand_of_page_eq_none {h : HeapFile} (hpage : h.currentPage? = none) :
    h.inHand = none := by
  unfold inHand
  rw [hpage, Option.filter_eq_none_iff]
  intro rid _
  exact of_decide_eq_false rfl

theorem inHand_eq_some {h : HeapFile} {rid : RecordId} :
    h.inHand = some rid ↔ h.record = some rid ∧ h.currentPage? = some rid.page := by
  unfold inHand
  rw [Option.filter_eq_some_iff, decide_eq_true_iff]

/-- With the same record and the same current page the same record is in hand. -/
theorem inHand_congr {h h' : HeapFile} (hrecord : h'.record = h.record)
    (hpage : h'.currentPage? = h.currentPage?) : h'.inHand = h.inHand := by
  unfold inHand
  rw [hrecord, hpage]

variable {α : Type} {rest rest' : Multiset Pin} {s t : HeapState MemoryFiles} {place hand : Prop}
variable {header : HeapHeader} {filter : Option Filter}

/-! ## What is looked up -/

theorem run_currentPin_of_some {pin : Pin} (hcurrent : s.heap.current = some pin) :
    currentPin s = .ok pin s := by
  refine (bind_run_ok rfl _).trans ?_
  rw [hcurrent]
  rfl

theorem run_currentPin_of_none (hcurrent : s.heap.current = none) :
    currentPin s = .error (.error (.invalidOperation "no data page is pinned")) s := by
  refine (bind_run_ok rfl _).trans ?_
  rw [hcurrent]
  rfl

theorem run_currentRecord_of_some {rid : RecordId} (hhand : s.heap.inHand = some rid) :
    currentRecord s = .ok rid s := by
  obtain ⟨hrecord, hpage⟩ := inHand_eq_some.1 hhand
  refine (bind_run_ok rfl _).trans ?_
  rw [hrecord]
  dsimp only
  rw [if_pos hpage]
  rfl

theorem run_currentRecord_of_none (hhand : s.heap.inHand = none) :
    currentRecord s = .error (.error .noCurrentRecord) s := by
  refine (bind_run_ok rfl _).trans ?_
  cases hrecord : s.heap.record with
  | none => rfl
  | some rid =>
    have hpage : s.heap.currentPage? ≠ some rid.page := by
      intro hpage
      cases hhand.symm.trans (inHand_eq_some.2 ⟨hrecord, hpage⟩)
    dsimp only
    rw [if_neg hpage]
    rfl

/-! ## Paired scans -/

/-- Two open heap files are the same file with the same pages, and stand on the same record.  They
go on from the same page if `place` holds, and have the same record in hand if `hand` holds. -/
structure Paired (rest rest' : Multiset Pin) (place hand : Prop) (s t : HeapState MemoryFiles) :
    Prop where
  left : Attached law rest s
  right : Attached law rest' t
  file : t.heap.file = s.heap.file
  volume : volume law t = volume law s
  record : t.heap.record = s.heap.record
  position : place → t.heap.position = s.heap.position
  inHand : hand → t.heap.inHand = s.heap.inHand

/-- Two open heap files have the same current page, besides. -/
structure Joined (rest rest' : Multiset Pin) (place : Prop) (s t : HeapState MemoryFiles) : Prop
    extends Paired rest rest' place True s t where
  page : t.heap.currentPage? = s.heap.currentPage?

/-- Less can be asked of paired scans. -/
theorem Paired.mono (h : Paired rest rest' place hand s t) {place' hand' : Prop}
    (hplace : place' → place) (hhand : hand' → hand) : Paired rest rest' place' hand' s t :=
  ⟨h.left, h.right, h.file, h.volume, h.record, fun hp => h.position (hplace hp),
    fun hh => h.inHand (hhand hh)⟩

/-- The current pages of joined scans are the same page. -/
theorem Joined.cases_current (h : Joined rest rest' place s t) :
    s.heap.current = none ∧ t.heap.current = none ∨
      ∃ pin pin', s.heap.current = some pin ∧ t.heap.current = some pin' ∧
        pin'.key.page = pin.key.page := by
  have hpage := h.page
  unfold currentPage? at hpage
  cases hs : s.heap.current with
  | none =>
    rw [hs] at hpage
    exact .inl ⟨rfl, Option.map_eq_none_iff.1 hpage⟩
  | some pin =>
    rw [hs] at hpage
    obtain ⟨pin', hcurrent, hkey⟩ := Option.map_eq_some_iff.1 hpage
    exact .inr ⟨pin, pin', rfl, hcurrent, hkey⟩

/-- Scans that come to the same place, record and page are joined. -/
theorem Joined.of_at {s' t' : HeapState MemoryFiles} (h : Paired rest rest' place hand s t)
    (hs : Stays law rest s s') (ht : Stays law rest' t t') {position : Option PageId}
    {record : Option RecordId} {page : Option PageId} (hat : s'.heap.At position record page)
    (hat' : t'.heap.At position record page) : Joined rest rest' True s' t' where
  left := hs.attached
  right := ht.attached
  file := ht.file.trans (h.file.trans hs.file.symm)
  volume := ht.volume_eq.trans (h.volume.trans hs.volume_eq.symm)
  record := hat'.record.trans hat.record.symm
  position _ := hat'.position.trans hat.position.symm
  inHand _ := inHand_congr (hat'.record.trans hat.record.symm) (hat'.page.trans hat.page.symm)
  page := hat'.page.trans hat.page.symm

/-- Changing where the scans stand keeps them joined. -/
theorem Joined.modify (h : Joined rest rest' place s t) {place' : Prop}
    {position position' : Option PageId} {record record' : Option RecordId}
    (hposition : place' → position' = position) (hrecord : record' = record) :
    Joined rest rest' place' ⟨s.db, { s.heap with position := position, record := record }⟩
      ⟨t.db, { t.heap with position := position', record := record' }⟩ where
  left := h.left.of_heap rfl rfl rfl rfl rfl
  right := h.right.of_heap rfl rfl rfl rfl rfl
  file := h.file
  volume := h.volume
  record := hrecord
  position := hposition
  inHand _ := inHand_congr hrecord h.page
  page := h.page

/-! ## Going to a page -/

/-- A page that does not become the current one fails the check of its number, unless all frames are
pinned. -/
theorem refuses_switchTo (h : Attached law rest s) (page : PageId) :
    (switchTo page).Ensures s (fun _ _ => True)
      (fun e _ => e = .bufferPoolExhausted ∨
        page.check (HeapFile.volume law s).size = .error (.error e)) := by
  unfold switchTo
  rw [ensures_bind, ensures_get]
  simp only
  split
  · rw [ensures_bind]
    refine (ensures_releaseCurrent h).mono ?_ fun _ _ => False.elim
    rintro _ ⟨db₁, heap₁⟩ ⟨h₁, hsame₁, rfl⟩
    have hholds := h₁.holds
    rw [pins_add_of_none rfl] at hholds
    rw [ensures_bind, ensures_onDatabase]
    refine (Database.refuses_pin hholds _ page).mono (fun _ _ _ => trivial) fun e _ hcause => ?_
    rwa [PageStore.Reliable.volume_of_same hsame₁] at hcause
  · trivial

/-- Both scans go to a page. -/
theorem concurs_switchTo (h : Paired rest rest' place hand s t) (page : PageId) :
    Concurs (switchTo page) (switchTo page) s t
      (fun _ s' t' => Joined rest rest' True s' t' ∧ s'.heap.record = s.heap.record)
      (fun _ s' t' => Paired rest rest' place True s' t') := by
  refine .of_ensures ((ensures_switchTo_at h.left page).and (refuses_switchTo h.left page))
    ((ensures_switchTo_at h.right page).and (refuses_switchTo h.right page)) ?_ ?_ ?_ ?_
  · rintro _ s' _ t' ⟨⟨hstays, -, hat⟩, -⟩ ⟨⟨hstays', -, hat'⟩, -⟩
    rw [h.record] at hat'
    exact ⟨rfl, .of_at h hstays hstays' hat hat', hat.record⟩
  · rintro e s' e' t' ⟨⟨hstays, -, hat⟩, hcause⟩ ⟨⟨hstays', -, hat'⟩, hcause'⟩
    rcases hcause with rfl | hcheck
    · exact .inl rfl
    · rcases hcause' with rfl | hcheck'
      · exact .inr (.inl rfl)
      · rw [h.volume, hcheck] at hcheck'
        cases hcheck'
        have hfile := hstays'.file.trans (h.file.trans hstays.file.symm)
        refine .inr (.inr ⟨rfl, hstays.attached, hstays'.attached, hfile, ?_, ?_, ?_, ?_⟩)
        · rw [hstays'.volume_eq, h.volume, hstays.volume_eq]
        · rw [hat'.record, h.record, hat.record]
        · intro hplace
          rw [hat'.position, h.position hplace, hat.position]
        · intro _
          rw [inHand_of_page_eq_none hat'.page, inHand_of_page_eq_none hat.page]
  · rintro e s' _ t' ⟨⟨-, hcause, -⟩, -⟩ ⟨⟨-, hhas, -⟩, -⟩
    exact hcause (h.volume ▸ hhas)
  · rintro _ s' e t' ⟨⟨-, hhas, -⟩, -⟩ ⟨⟨-, hcause, -⟩, -⟩
    exact hcause (h.volume.symm ▸ hhas)

/-! ## Pages that are held -/

/-- Other pages are put under joined scans. -/
theorem Joined.of_db (h : Joined rest rest' place s t) {db db' : Database MemoryFiles}
    (hs : Attached law rest ⟨db, s.heap⟩) (ht : Attached law rest' ⟨db', t.heap⟩)
    (hvolume : HeapFile.volume law ⟨db', t.heap⟩ = HeapFile.volume law ⟨db, s.heap⟩) :
    Joined rest rest' place ⟨db, s.heap⟩ ⟨db', t.heap⟩ :=
  ⟨⟨hs, ht, h.file, hvolume, h.record, h.position, h.inHand⟩, h.page⟩

/-- The current pages count as changed. -/
theorem Joined.markCurrent (h : Joined rest rest' place s t) {pin pin' : Pin}
    (hs : s.heap.current = some pin) (ht : t.heap.current = some pin')
    (hkey : pin'.key.page = pin.key.page) :
    Joined rest rest' place ⟨s.db, { s.heap with current := some pin.markDirty }⟩
      ⟨t.db, { t.heap with current := some pin'.markDirty }⟩ where
  left := h.left.markCurrent hs
  right := h.right.markCurrent ht
  file := h.file
  volume := h.volume
  record := h.record
  position := h.position
  inHand _ := inHand_congr h.record (congrArg some hkey)
  page := congrArg some hkey

/-- The header pages count as changed. -/
theorem Joined.markHeader (h : Joined rest rest' place s t) :
    Joined rest rest' place ⟨s.db, { s.heap with headerPin := s.heap.headerPin.markDirty }⟩
      ⟨t.db, { t.heap with headerPin := t.heap.headerPin.markDirty }⟩ where
  left := h.left.markHeader
  right := h.right.markHeader
  file := h.file
  volume := h.volume
  record := h.record
  position := h.position
  inHand _ := inHand_congr h.record h.page
  page := h.page

section Held

variable {refused : StorageError → HeapState MemoryFiles → HeapState MemoryFiles → Prop}
variable {pin pin' : Pin} (h : Joined rest rest' place s t)
include h

/-- The holders of one page of the file read the same bytes. -/
theorem concurs_pageOf (hpin : pin ∈ s.heap.pins + rest) (hpin' : pin' ∈ t.heap.pins + rest')
    (hfile : pin.key.file = s.heap.file.id) (hfile' : pin'.key.file = t.heap.file.id)
    (hkey : pin'.key.page = pin.key.page) :
    Concurs (onDatabase (Database.pageOf pin)) (onDatabase (Database.pageOf pin')) s t
      (fun _ s' t' => s' = s ∧ t' = t) refused := by
  have hview : law.view t.db pin'.key = law.view s.db pin.key := by
    have hpages := congrFun (congrArg Volume.page h.volume) pin.key.page
    change law.view t.db ⟨t.heap.file.id, _⟩ = law.view s.db ⟨s.heap.file.id, _⟩ at hpages
    rw [← hfile, ← hfile'] at hpages
    rw [← hpages, ← hkey]
  unfold onDatabase
  refine concurs_onPart (.of_ensures (Database.ensures_pageOf h.left.holds hpin)
    (Database.ensures_pageOf h.right.holds hpin') ?_ (fun _ _ _ _ => False.elim)
    (fun _ _ _ _ => False.elim) fun _ _ _ _ _ => False.elim)
  rintro page db page' db' ⟨rfl, rfl⟩ ⟨rfl, rfl⟩
  exact ⟨hview, rfl, rfl⟩

/-- The holders of one page of the file store the same bytes. -/
theorem concurs_setPage (hpin : pin ∈ s.heap.pins + rest) (hpin' : pin' ∈ t.heap.pins + rest')
    (hfile : pin.key.file = s.heap.file.id) (hfile' : pin'.key.file = t.heap.file.id)
    (hkey : pin'.key.page = pin.key.page) (hdirty : pin.dirty = true) (hdirty' : pin'.dirty = true)
    (data : Page) :
    Concurs (onDatabase (Database.setPage pin data)) (onDatabase (Database.setPage pin' data)) s t
      (fun _ => Joined rest rest' place) refused := by
  unfold onDatabase
  refine concurs_onPart (.of_ensures (Database.stores_setPage h.left.holds hpin hdirty data)
    (Database.stores_setPage h.right.holds hpin' hdirty' data) ?_ (fun _ _ _ _ => False.elim)
    (fun _ _ _ _ => False.elim) fun _ _ _ _ _ => False.elim)
  rintro _ db _ db' ⟨hholds, -, hvolume⟩ ⟨hholds', -, hvolume'⟩
  rw [hfile] at hvolume
  rw [hfile', hkey] at hvolume'
  refine ⟨rfl, h.of_db ⟨hholds, h.left.headerKey, h.left.currentFile, h.left.firstPage⟩
    ⟨hholds', h.right.headerKey, h.right.currentFile, h.right.firstPage⟩ ?_⟩
  exact hvolume'.trans ((congrArg (Volume.store · _ _) h.volume).trans hvolume.symm)

/-- Both scans go on with their current pages, or are refused because they have none. -/
theorem concurs_currentPin {f g : Pin → HeapAction MemoryFiles α}
    {ok : α → HeapState MemoryFiles → HeapState MemoryFiles → Prop}
    (hnone : refused (.invalidOperation "no data page is pinned") s t)
    (hsome : ∀ pin pin', s.heap.current = some pin → t.heap.current = some pin' →
      pin'.key.page = pin.key.page → Concurs (f pin) (g pin') s t ok refused) :
    Concurs (currentPin >>= f) (currentPin >>= g) s t ok refused := by
  rcases h.cases_current with ⟨hcurrent, hcurrent'⟩ | ⟨pin, pin', hcurrent, hcurrent', hkey⟩
  · exact .refused (bind_run_error (run_currentPin_of_none hcurrent) f)
      (bind_run_error (run_currentPin_of_none hcurrent') g) hnone
  · exact .of_left (run_currentPin_of_some hcurrent)
      (.of_right (run_currentPin_of_some hcurrent') (hsome pin pin' hcurrent hcurrent' hkey))

/-- The current page is read. -/
theorem concurs_currentPage : Concurs currentPage currentPage s t
    (fun _ s' t' => s' = s ∧ t' = t) (fun _ => Joined rest rest' place) := by
  unfold currentPage
  refine concurs_currentPin h h fun pin pin' hs ht hkey => ?_
  refine concurs_bind (concurs_pageOf h (h.left.mem_current hs) (h.right.mem_current ht)
    (h.left.currentFile pin hs) (h.right.currentFile pin' ht) hkey) ?_
  rintro page s t ⟨rfl, rfl⟩
  exact concurs_ofResult (fun _ _ => ⟨rfl, rfl⟩) fun _ _ => h

/-- The current page is changed in the same way. -/
theorem concurs_updatePage (f : SlottedPage → Result (α × SlottedPage)) :
    Concurs (updatePage f) (updatePage f) s t (fun _ => Joined rest rest' place)
      (fun _ => Joined rest rest' place) := by
  unfold updatePage
  refine concurs_currentPin h h fun pin pin' hs ht hkey => ?_
  have hmarked := h.markCurrent hs ht hkey
  have hpin := hmarked.left.mem_current rfl
  have hpin' := hmarked.right.mem_current rfl
  have hfile := hmarked.left.currentFile _ rfl
  have hfile' := hmarked.right.currentFile _ rfl
  refine .of_left (b := ()) rfl (.of_right (b := ()) rfl ?_)
  refine concurs_bind (concurs_pageOf hmarked hpin hpin' hfile hfile' hkey) ?_
  rintro page _ _ ⟨rfl, rfl⟩
  refine concurs_ofResult_bind (fun _ _ => hmarked) fun p _ => ?_
  refine concurs_ofResult_bind (fun _ _ => hmarked) fun changed _ => ?_
  refine concurs_bind (concurs_setPage hmarked hpin hpin' hfile hfile' hkey rfl rfl _) ?_
  exact fun _ _ _ hstored => concurs_pure hstored

/-- The header is changed in the same way. -/
theorem concurs_updateHeader (f : HeapHeader → Result HeapHeader) :
    Concurs (updateHeader f) (updateHeader f) s t (fun _ => Joined rest rest' place)
      (fun _ => Joined rest rest' place) := by
  have hmarked := h.markHeader
  have hpin := hmarked.left.mem_header
  have hpin' := hmarked.right.mem_header
  have hkey := hmarked.left.headerKey
  have hkey' := hmarked.right.headerKey
  have hfile := congrArg FrameKey.file hkey
  have hfile' := congrArg FrameKey.file hkey'
  have hpage := (congrArg FrameKey.page hkey').trans (congrArg FrameKey.page hkey).symm
  unfold updateHeader
  refine .of_left (b := ()) rfl (.of_right (b := ()) rfl (concurs_get ?_))
  refine concurs_bind (concurs_pageOf hmarked hpin hpin' hfile hfile' hpage) ?_
  rintro page _ _ ⟨rfl, rfl⟩
  refine concurs_ofResult_bind (fun _ _ => hmarked) fun old _ => ?_
  refine concurs_ofResult_bind (fun _ _ => hmarked) fun new _ => ?_
  refine concurs_ofResult_bind (fun _ _ => hmarked) fun data _ => ?_
  exact concurs_setPage hmarked hpin hpin' hfile hfile' hpage rfl rfl data

end Held

/-! ## The current record -/

/-- Scans that have the same record in hand go on with it. -/
theorem concurs_currentRecord (h : Paired rest rest' place True s t) :
    Concurs currentRecord currentRecord s t (fun _ s' t' => Joined rest rest' place s' t')
      (fun _ s' t' => Paired rest rest' place True s' t') := by
  cases hhand : s.heap.inHand with
  | none =>
    have hhand' := (h.inHand trivial).trans hhand
    exact .refused (run_currentRecord_of_none hhand) (run_currentRecord_of_none hhand') h
  | some rid =>
    have hhand' := (h.inHand trivial).trans hhand
    have hpage := (inHand_eq_some.1 hhand).2
    have hpage' := (inHand_eq_some.1 hhand').2
    exact .answered (run_currentRecord_of_some hhand) (run_currentRecord_of_some hhand')
      ⟨h, hpage'.trans hpage.symm⟩

/-- The current record is read. -/
theorem concurs_readCurrent (h : Paired rest rest' place True s t) :
    Concurs readCurrent readCurrent s t (fun _ => Paired rest rest' place True)
      (fun _ => Paired rest rest' place True) := by
  unfold readCurrent
  refine concurs_bind (concurs_currentRecord h) fun rid s t hjoined => ?_
  refine concurs_bind ((concurs_currentPage hjoined).mono (fun _ _ _ => id)
    fun _ _ _ hpost => hpost.toPaired) ?_
  rintro page s t ⟨rfl, rfl⟩
  exact concurs_ofResult (fun _ _ => hjoined.toPaired) fun _ _ => hjoined.toPaired

/-- The current record is changed in the same way. -/
theorem concurs_modifyCurrent (h : Paired rest rest' place True s t) (edit : Edit) :
    Concurs (modifyCurrent edit) (modifyCurrent edit) s t (fun _ => Paired rest rest' place True)
      (fun _ => Paired rest rest' place True) := by
  unfold modifyCurrent
  refine concurs_bind (concurs_currentRecord h) fun rid s t hjoined => ?_
  exact (concurs_updatePage hjoined _).mono (fun _ _ _ hpost => hpost.toPaired)
    fun _ _ _ hpost => hpost.toPaired

/-- The current record is deleted. -/
theorem concurs_deleteCurrent (h : Paired rest rest' place True s t) :
    Concurs deleteCurrent deleteCurrent s t (fun _ => Paired rest rest' place True)
      (fun _ => Paired rest rest' place True) := by
  unfold deleteCurrent
  refine concurs_bind (concurs_currentRecord h) fun rid s t hjoined => ?_
  refine concurs_bind ((concurs_updatePage hjoined _).mono (fun _ _ _ => id)
    fun _ _ _ hpost => hpost.toPaired) fun _ s t hjoined => ?_
  exact (concurs_updateHeader hjoined _).mono (fun _ _ _ hpost => hpost.toPaired)
    fun _ _ _ hpost => hpost.toPaired

/-! ## Going on -/

/-- Both scans look through the rest of a page. -/
theorem concurs_scanPage (h : Paired rest rest' True hand s t) (filter : Option Filter)
    (page : PageId) : Concurs (scanPage filter page) (scanPage filter page) s t
      (fun _ => Joined rest rest' True) (fun _ => Paired rest rest' True True) := by
  unfold scanPage
  refine concurs_bind (concurs_switchTo h page) fun _ s t hpost => concurs_get ?_
  obtain ⟨hjoined, -⟩ := hpost
  have hstart : t.heap.scanStart page = s.heap.scanStart page := by
    unfold scanStart
    rw [hjoined.record]
  simp only
  rw [hstart]
  refine concurs_bind ((concurs_currentPage hjoined).mono (fun _ _ _ => id)
    fun _ _ _ hpost => hpost.toPaired) ?_
  rintro data s' t' ⟨rfl, rfl⟩
  refine concurs_ofResult_bind (fun _ _ => hjoined.toPaired) fun found _ => ?_
  cases found with
  | some slot =>
    refine .of_left (b := ()) rfl (.of_right (b := ()) rfl (concurs_pure ?_))
    exact hjoined.modify hjoined.position rfl
  | none =>
    refine .of_left (b := ()) rfl (.of_right (b := ()) rfl (concurs_pure ?_))
    exact hjoined.modify hjoined.position rfl

/-- Both scans come to the end of the chain. -/
theorem concurs_scanChain_none (h : Paired rest rest' True hand s t) (filter : Option Filter)
    (steps : Nat) : Concurs (scanChain filter steps none) (scanChain filter steps none) s t
      (fun _ => Paired rest rest' True hand) (fun _ => Paired rest rest' True True) := by
  have hrun (u : HeapState MemoryFiles) : scanChain filter steps none u =
      .ok none ⟨u.db, { u.heap with position := none }⟩ := by
    cases steps <;> rfl
  refine .answered (hrun s) (hrun t) ⟨?_, ?_, h.file, h.volume, h.record, fun _ => rfl, ?_⟩
  · exact h.left.of_heap rfl rfl rfl rfl rfl
  · exact h.right.of_heap rfl rfl rfl rfl rfl
  · exact h.inHand

/-- Both scans look through the chain from a page on. -/
theorem concurs_scanChain (filter : Option Filter) (steps : Nat) (start : Option PageId)
    (h : Paired rest rest' True hand s t) :
    Concurs (scanChain filter steps start) (scanChain filter steps start) s t
      (fun _ => Paired rest rest' True (hand ∨ start ≠ none))
      (fun _ => Paired rest rest' True True) := by
  induction steps generalizing s t start hand with
  | zero =>
    cases start with
    | none =>
      exact (concurs_scanChain_none h filter 0).mono
        (fun _ _ _ hpost => hpost.mono id fun hhand => hhand.resolve_right (· rfl)) fun _ _ _ => id
    | some page => exact .left (.stopped rfl)
  | succ k ih =>
    cases start with
    | none =>
      exact (concurs_scanChain_none h filter (k + 1)).mono
        (fun _ _ _ hpost => hpost.mono id fun hhand => hhand.resolve_right (· rfl)) fun _ _ _ => id
    | some page =>
      rw [scanChain_succ]
      refine concurs_bind (concurs_scanPage h filter page) fun answer s t hjoined => ?_
      cases answer with
      | inl rid =>
        exact concurs_pure (hjoined.toPaired.mono id fun _ => trivial)
      | inr next =>
        exact (ih next hjoined.toPaired).mono
          (fun _ _ _ hpost => hpost.mono id fun _ => .inl trivial) fun _ _ _ => id

/-- Scans that stand on no record have none in hand. -/
theorem Paired.of_record_eq_none (h : Paired rest rest' place hand s t)
    (hrecord : s.heap.record = none) : Paired rest rest' place True s t := by
  have hrecord' := h.record.trans hrecord
  exact ⟨h.left, h.right, h.file, h.volume, h.record, h.position, fun _ =>
    (inHand_of_record_eq_none hrecord').trans (inHand_of_record_eq_none hrecord).symm⟩

/-- Both scans go on.  If at the end they stand on no record, they then have the same record in
hand.
-/
theorem concurs_scanNext (h : Paired rest rest' True hand s t)
    (hv : (HeapFile.volume law s).IsHeap header)
    (hend : s.heap.position = none → s.heap.record = none) (filter : Option Filter) :
    Concurs (scanNext filter) (scanNext filter) s t
      (fun _ => Paired rest rest' True True) (fun _ => Paired rest rest' True True) := by
  have hs := scanNext_eq_scanChain filter h.left hv
  have ht := scanNext_eq_scanChain filter h.right (h.volume.symm ▸ hv)
  rw [h.position trivial] at ht
  by_cases hposition : s.heap.position = none
  · have hnone := h.of_record_eq_none (hend hposition)
    exact ((concurs_scanChain filter _ _ hnone).of_run_eq hs ht).mono
      (fun _ _ _ hpost => hpost.mono id .inl) fun _ _ _ => id
  · exact ((concurs_scanChain filter _ _ h).of_run_eq hs ht).mono
      (fun _ _ _ hpost => hpost.mono id fun _ => .inr hposition) fun _ _ _ => id

/-- Both scans go back to a mark.  They are then at the same place, and have the same record in hand
unless the mark is at the end. -/
theorem concurs_resetTo (h : Paired rest rest' place hand s t) (mark : Option ScanMark)
    (hmark : ∀ m, mark = some m → m.position = none → m.record = none) :
    Concurs (resetTo mark) (resetTo mark) s t (fun _ => Paired rest rest' True True)
      (fun _ => Paired rest rest' place hand) := by
  unfold resetTo
  cases mark with
  | none => exact concurs_refuse h
  | some m =>
    cases hposition : m.position with
    | none =>
      simp only [hposition]
      have hrecord := hmark m rfl hposition
      have hback : Paired rest rest' True False
          ⟨s.db, { s.heap with position := none, record := m.record }⟩
          ⟨t.db, { t.heap with position := none, record := m.record }⟩ :=
        ⟨h.left.of_heap rfl rfl rfl rfl rfl, h.right.of_heap rfl rfl rfl rfl rfl, h.file, h.volume,
          rfl, fun _ => rfl, False.elim⟩
      refine .of_left (b := ()) rfl (.of_right (b := ()) rfl (concurs_modify ?_))
      exact hback.of_record_eq_none hrecord
    | some page =>
      simp only [hposition]
      refine concurs_bind ((concurs_switchTo h page).mono (fun _ _ _ => id)
        fun _ _ _ hpost => hpost.mono id fun _ => trivial) fun _ s t hpost => ?_
      exact concurs_modify (hpost.1.modify hpost.1.position rfl).toPaired

end HeapFile

end PagedHeap
