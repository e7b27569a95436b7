import PagedHeap.Heap.Scan
import PagedHeap.Proofs.Heap.Volume

/-!
# Open heap files and their pages

An open heap file holds a pin on its header page and at most one on its current page.  Among all the
pins on the pool these are its own; the others are the rest (`HeapFile.Attached`).

The small operations on an open heap file are described by what they do to the volume of the file.
None of them relies on the volume being a heap file at that moment, only on the page that it works
on: inserting and deleting change a data page and the header one after the other, and the count of
records is wrong in between.

What an operation does next depends on the page from which the heap file goes on, on the record on
which it stands and on the page that it has pinned (`HeapFile.At`).
-/

namespace PagedHeap

open PagedHeap.Action

namespace HeapFile

/-- The pin on the current page. -/
def currentPins : Option Pin → Multiset Pin
  | none => 0
  | some pin => {pin}

/-- The pins of an open heap file. -/
def pins (h : HeapFile) : Multiset Pin := h.headerPin ::ₘ currentPins h.current

variable {σ α : Type} [PageStore σ] {law : PageStore.Reliable σ}

/-- The pins of the open file are among all pins of the pool, and are on pages of the file. -/
structure Attached (law : PageStore.Reliable σ) (rest : Multiset Pin) (s : HeapState σ) : Prop where
  holds : law.Holds (s.heap.pins + rest) s.db
  headerKey : s.heap.headerPin.key = ⟨s.heap.file.id, ⟨1⟩⟩
  currentFile : ∀ pin, s.heap.current = some pin → pin.key.file = s.heap.file.id
  firstPage : s.heap.firstPage = ⟨2⟩

variable {rest : Multiset Pin} {s s' : HeapState σ} {pin : Pin}

/-- The volume of the open file. -/
def volume (law : PageStore.Reliable σ) (s : HeapState σ) : Volume :=
  law.volume s.db s.heap.file.id

theorem pins_add (h : HeapFile) (rest : Multiset Pin) :
    h.pins + rest = h.headerPin ::ₘ (currentPins h.current + rest) := Multiset.cons_add _ _ _

theorem pins_add_of_none {h : HeapFile} (hcurrent : h.current = none) (rest : Multiset Pin) :
    h.pins + rest = h.headerPin ::ₘ rest := by
  rw [pins_add, hcurrent]
  exact congrArg _ (zero_add rest)

theorem pins_add_of_some {h : HeapFile} (hcurrent : h.current = some pin) (rest : Multiset Pin) :
    h.pins + rest = pin ::ₘ (h.headerPin ::ₘ rest) := by
  rw [pins_add, hcurrent, Multiset.cons_swap]
  exact congrArg _ (Multiset.singleton_add _ _)

omit [PageStore σ] in
/-- Running an action on the database of an open heap file. -/
theorem ensures_onDatabase {x : Action (Database σ) α} {ok : α → HeapState σ → Prop}
    {refused : StorageError → HeapState σ → Prop} :
    (onDatabase x).Ensures s ok refused ↔
      x.Ensures s.db (fun a db => ok a ⟨db, s.heap⟩) (fun e db => refused e ⟨db, s.heap⟩) :=
  ensures_onPart

/-- Where a scan goes on has no influence on the pins. -/
theorem Attached.of_heap (h : Attached law rest s) {heap : HeapFile}
    (hpins : heap.pins = s.heap.pins) (hfile : heap.file = s.heap.file)
    (hheader : heap.headerPin = s.heap.headerPin) (hcurrent : heap.current = s.heap.current)
    (hfirst : heap.firstPage = s.heap.firstPage) : Attached law rest ⟨s.db, heap⟩ where
  holds := by simpa only [hpins] using h.holds
  headerKey := by simpa only [hheader, hfile] using h.headerKey
  currentFile := by simpa only [hcurrent, hfile] using h.currentFile
  firstPage := by simpa only [hfirst] using h.firstPage

/-- The holder of the header page reads the first page of the volume. -/
theorem Attached.view_header (h : Attached law rest s) :
    law.view s.db s.heap.headerPin.key = (volume law s).page ⟨1⟩ := by
  rw [h.headerKey]
  rfl

/-- The holder of the current page reads that page of the volume. -/
theorem Attached.view_current (h : Attached law rest s) (hcurrent : s.heap.current = some pin) :
    law.view s.db pin.key = (volume law s).page pin.key.page := by
  have hkey : pin.key = ⟨s.heap.file.id, pin.key.page⟩ := by
    rw [← h.currentFile pin hcurrent]
  rw [hkey]
  rfl

theorem Attached.mem_header (_h : Attached law rest s) : s.heap.headerPin ∈ s.heap.pins + rest := by
  rw [pins_add]
  exact Multiset.mem_cons_self _ _

theorem Attached.mem_current (_h : Attached law rest s) (hcurrent : s.heap.current = some pin) :
    pin ∈ s.heap.pins + rest := by
  rw [pins_add_of_some hcurrent]
  exact Multiset.mem_cons_self _ _

/-- The current page is a page of the file. -/
theorem Attached.has_current (h : Attached law rest s) (hcurrent : s.heap.current = some pin) :
    (volume law s).Has pin.key.page := by
  obtain ⟨frame, hfind, -⟩ := Pool.Held.held h.holds pin (h.mem_current hcurrent)
  have hpresent := Pool.Held.resident h.holds _ _ hfind
  have hhas := PageStore.Reliable.present_volume.1 hpresent
  rwa [h.currentFile pin hcurrent] at hhas

/-- The open file is as before and so are all pages. -/
structure Stays (law : PageStore.Reliable σ) (rest : Multiset Pin) (s s' : HeapState σ) : Prop where
  attached : Attached law rest s'
  same : law.Same s.db s'.db
  file : s'.heap.file = s.heap.file

/-- Pages of the file changed, and it is a heap file again. -/
structure Moves (law : PageStore.Reliable σ) (rest : Multiset Pin) (s s' : HeapState σ) : Prop where
  attached : Attached law rest s'
  only : law.Only s.heap.file.id s.db s'.db
  file : s'.heap.file = s.heap.file
  heap : ∃ header, (volume law s').IsHeap header

theorem Stays.volume_eq (h : Stays law rest s s') : volume law s' = volume law s := by
  unfold volume
  rw [h.file]
  exact congrFun (PageStore.Reliable.volume_of_same h.same) _

theorem Stays.trans {s'' : HeapState σ} (h : Stays law rest s s') (h' : Stays law rest s' s'') :
    Stays law rest s s'' :=
  ⟨h'.attached, h.same.trans h'.same, h'.file.trans h.file⟩

/-- A heap file whose pages stay remains a heap file. -/
theorem Stays.moves (h : Stays law rest s s') {header : HeapHeader}
    (hv : (volume law s).IsHeap header) : Moves law rest s s' :=
  ⟨h.attached, .of_same h.same _, h.file, header, h.volume_eq ▸ hv⟩

theorem Moves.trans {s'' : HeapState σ} (h : Moves law rest s s') (h' : Moves law rest s' s'') :
    Moves law rest s s'' := by
  refine ⟨h'.attached, h.only.trans ?_, h'.file.trans h.file, h'.heap⟩
  rw [← h.file]
  exact h'.only

/-! ## The header -/

/-- The header of the file is read. -/
theorem ensures_header (h : Attached law rest s) {header : HeapHeader}
    (hread : HeapHeader.read ((volume law s).page ⟨1⟩) = .ok header) :
    HeapFile.header.Ensures s (fun a s' => a = header ∧ s' = s) Never := by
  unfold HeapFile.header
  rw [ensures_bind, ensures_get, ensures_bind, ensures_onDatabase]
  refine (Database.ensures_pageOf h.holds h.mem_header).mono ?_ fun _ _ => id
  rintro page db ⟨rfl, rfl⟩
  rw [h.view_header, ensures_ofResult_ok hread]
  exact ⟨rfl, rfl⟩

/-- The file with its header page called changed. -/
theorem Attached.markHeader (h : Attached law rest s) :
    Attached law rest ⟨s.db, { s.heap with headerPin := s.heap.headerPin.markDirty }⟩ where
  holds := by
    have hholds := h.holds
    rw [pins_add] at hholds ⊢
    exact Pool.Held.markDirty hholds
  headerKey := h.headerKey
  currentFile := h.currentFile
  firstPage := h.firstPage

/-- The header is changed and stored. -/
theorem ensures_updateHeader (h : Attached law rest s) {f : HeapHeader → Result HeapHeader}
    {old new : HeapHeader} (hread : HeapHeader.read ((volume law s).page ⟨1⟩) = .ok old)
    (hf : f old = .ok new) (hvalid : new.Valid) :
    (updateHeader f).Ensures s
      (fun _ s' => Attached law rest s' ∧ law.Only s.heap.file.id s.db s'.db ∧
        s'.heap = { s.heap with headerPin := s.heap.headerPin.markDirty } ∧
        ∃ data, HeapHeader.read data = .ok new ∧
          volume law s' = (volume law s).store ⟨1⟩ data) Never := by
  have hmarked := h.markHeader
  unfold updateHeader modifyHeap
  rw [ensures_bind, ensures_modify, ensures_bind, ensures_get, ensures_bind, ensures_onDatabase]
  refine (Database.ensures_pageOf hmarked.holds hmarked.mem_header).mono ?_ fun _ _ => id
  rintro page db ⟨rfl, hpage⟩
  have hpage : page = (volume law s).page ⟨1⟩ := hpage.trans hmarked.view_header
  obtain ⟨data, hwrite, hdata⟩ := hvalid.read_write page (by decide)
  rw [ensures_bind, hpage, ensures_ofResult_ok hread, ensures_bind, ensures_ofResult_ok hf,
    ensures_bind, ← hpage, ensures_ofResult_ok hwrite, ensures_onDatabase]
  refine (Database.stores_setPage hmarked.holds hmarked.mem_header rfl data).mono ?_ fun _ _ => id
  rintro _ db ⟨hholds, honly, hvolume⟩
  have hkey := hmarked.headerKey
  simp only at hkey honly hvolume
  rw [hkey] at honly hvolume
  exact ⟨⟨hholds, hkey, hmarked.currentFile, hmarked.firstPage⟩, honly, rfl, data, hdata, hvolume⟩

/-! ## The current page -/

/-- The current page is read as a data page. -/
theorem ensures_currentPage (h : Attached law rest s) (hcurrent : s.heap.current = some pin)
    {p : SlottedPage} (hread : SlottedPage.read ((volume law s).page pin.key.page) = .ok p) :
    currentPage.Ensures s (fun a s' => a = p ∧ s' = s) Never := by
  unfold currentPage currentPin
  rw [ensures_bind, ensures_bind, ensures_get]
  simp only [hcurrent]
  rw [ensures_pure, ensures_bind, ensures_onDatabase]
  refine (Database.ensures_pageOf h.holds (h.mem_current hcurrent)).mono ?_ fun _ _ => id
  rintro page db ⟨rfl, rfl⟩
  rw [h.view_current hcurrent, ensures_ofResult_ok hread]
  exact ⟨rfl, rfl⟩

/-- What is no data page is refused. -/
theorem refuses_currentPage (h : Attached law rest s) (hcurrent : s.heap.current = some pin)
    {e : StorageError}
    (hread : SlottedPage.read ((volume law s).page pin.key.page) = .error (.error e)) :
    currentPage.Ensures s (fun _ _ => False) (fun e' s' => e' = e ∧ s' = s) := by
  unfold currentPage currentPin
  rw [ensures_bind, ensures_bind, ensures_get]
  simp only [hcurrent]
  rw [ensures_pure, ensures_bind, ensures_onDatabase]
  refine (Database.ensures_pageOf h.holds (h.mem_current hcurrent)).mono ?_ fun _ _ => False.elim
  rintro page db ⟨rfl, rfl⟩
  rw [h.view_current hcurrent, ensures_ofResult_refuse hread]
  exact ⟨rfl, rfl⟩

/-- The file with its current page called changed. -/
theorem Attached.markCurrent (h : Attached law rest s) (hcurrent : s.heap.current = some pin) :
    Attached law rest ⟨s.db, { s.heap with current := some pin.markDirty }⟩ where
  holds := by
    have hholds := h.holds
    rw [pins_add_of_some hcurrent] at hholds
    rw [pins_add_of_some (h := { s.heap with current := some pin.markDirty }) rfl]
    exact Pool.Held.markDirty hholds
  headerKey := h.headerKey
  currentFile other hother := by
    obtain rfl := Option.some.inj hother
    exact h.currentFile pin hcurrent
  firstPage := h.firstPage

/-- The current page is changed and stored. -/
theorem ensures_updatePage (h : Attached law rest s) (hcurrent : s.heap.current = some pin)
    {f : SlottedPage → Result (α × SlottedPage)} {p q : SlottedPage} {a : α}
    (hread : SlottedPage.read ((volume law s).page pin.key.page) = .ok p) (hf : f p = .ok (a, q)) :
    (updatePage f).Ensures s
      (fun a' s' => a' = a ∧ Attached law rest s' ∧ law.Only s.heap.file.id s.db s'.db ∧
        s'.heap = { s.heap with current := some pin.markDirty } ∧
        volume law s' = (volume law s).store pin.key.page q.data) Never := by
  have hmarked := h.markCurrent hcurrent
  unfold updatePage currentPin modifyHeap
  rw [ensures_bind, ensures_bind, ensures_get]
  simp only [hcurrent]
  rw [ensures_pure, ensures_bind, ensures_modify, ensures_bind, ensures_onDatabase]
  refine (Database.ensures_pageOf hmarked.holds (hmarked.mem_current rfl)).mono ?_ fun _ _ => id
  rintro page db ⟨rfl, hpage⟩
  have hpage : page = (volume law s).page pin.key.page := hpage.trans (hmarked.view_current rfl)
  rw [ensures_bind, hpage, ensures_ofResult_ok hread, ensures_bind, ensures_ofResult_ok hf]
  simp only
  rw [ensures_bind, ensures_onDatabase]
  refine (Database.stores_setPage hmarked.holds (hmarked.mem_current rfl) rfl q.data).mono ?_
    fun _ _ => id
  rintro _ db ⟨hholds, honly, hvolume⟩
  have hfile : pin.markDirty.key.file = s.heap.file.id := hmarked.currentFile _ rfl
  rw [hfile] at honly hvolume
  exact ⟨rfl, ⟨hholds, hmarked.headerKey, hmarked.currentFile, hmarked.firstPage⟩, honly, rfl,
    hvolume⟩

/-- A change that is refused, or made to what is no data page, changes no page. -/
theorem refuses_updatePage (h : Attached law rest s) (hcurrent : s.heap.current = some pin)
    {f : SlottedPage → Result (α × SlottedPage)} {e : StorageError}
    (hrefused : (SlottedPage.read ((volume law s).page pin.key.page) >>= f) = .error (.error e)) :
    (updatePage f).Ensures s (fun _ _ => False)
      (fun e' s' => e' = e ∧ Attached law rest s' ∧ s'.db = s.db ∧
        s'.heap = { s.heap with current := some pin.markDirty }) := by
  have hmarked := h.markCurrent hcurrent
  unfold updatePage currentPin modifyHeap
  rw [ensures_bind, ensures_bind, ensures_get]
  simp only [hcurrent]
  rw [ensures_pure, ensures_bind, ensures_modify, ensures_bind, ensures_onDatabase]
  refine (Database.ensures_pageOf hmarked.holds (hmarked.mem_current rfl)).mono ?_
    fun _ _ => False.elim
  rintro page db ⟨rfl, hpage⟩
  have hpage : page = (volume law s).page pin.key.page := hpage.trans (hmarked.view_current rfl)
  rw [ensures_bind, hpage]
  cases hread : SlottedPage.read ((volume law s).page pin.key.page) with
  | error failure =>
    rw [hread, Result.bind_error] at hrefused
    obtain rfl := Except.error.inj hrefused
    rw [ensures_ofResult_refuse rfl]
    exact ⟨rfl, hmarked, rfl, rfl⟩
  | ok p =>
    rw [hread, Result.bind_ok] at hrefused
    rw [ensures_ofResult_ok rfl, ensures_bind, ensures_ofResult_refuse hrefused]
    exact ⟨rfl, hmarked, rfl, rfl⟩

/-! ## Going to another page -/

/-- The current page is given up. -/
theorem ensures_releaseCurrent (h : Attached law rest s) :
    releaseCurrent.Ensures s
      (fun _ s' => Attached law rest s' ∧ law.Same s.db s'.db ∧
        s'.heap = { s.heap with current := none }) Never := by
  unfold releaseCurrent modifyHeap
  rw [ensures_bind, ensures_get]
  cases hcurrent : s.heap.current with
  | none =>
    simp only
    rw [ensures_pure]
    refine ⟨h, .refl _, ?_⟩
    rw [← hcurrent]
  | some pin =>
    simp only
    rw [ensures_bind, ensures_modify, ensures_onDatabase]
    have hholds := h.holds
    rw [pins_add_of_some hcurrent] at hholds
    refine (Database.holds_release hholds).mono ?_ fun _ _ => id
    rintro _ db ⟨hholds', hsame⟩
    refine ⟨⟨?_, h.headerKey, nofun, h.firstPage⟩, hsame, rfl⟩
    rw [pins_add_of_none rfl]
    exact hholds'

/-- Another page of the file becomes the current one, if there is a frame for it. -/
theorem ensures_switchTo (h : Attached law rest s) (page : PageId) :
    (switchTo page).Ensures s
      (fun _ s' => Attached law rest s' ∧ law.Same s.db s'.db ∧ (volume law s).Has page ∧
        ∃ pin, pin.key.page = page ∧
          s'.heap = { s.heap with current := some pin, position := some page })
      (fun e s' => Attached law rest s' ∧ law.Same s.db s'.db ∧
        ((volume law s).Has page → e = .bufferPoolExhausted) ∧
        s'.heap = { s.heap with current := none }) := by
  unfold switchTo
  rw [ensures_bind, ensures_get]
  by_cases hpage : s.heap.currentPage? = some page
  · obtain ⟨pin, hcurrent, hkey⟩ := Option.map_eq_some_iff.1 hpage
    simp only [hpage, ne_eq, not_true_eq_false, if_false]
    unfold modifyHeap
    rw [ensures_modify]
    refine ⟨h.of_heap rfl rfl rfl rfl rfl, .refl _, hkey ▸ h.has_current hcurrent, pin, hkey, ?_⟩
    rw [← hcurrent]
  · simp only [hpage, ne_eq, not_false_eq_true, if_true]
    rw [ensures_bind]
    refine (ensures_releaseCurrent h).mono ?_ fun _ _ => False.elim
    rintro _ ⟨db₁, heap₁⟩ ⟨h₁, hsame₁, rfl⟩
    rw [ensures_bind, ensures_onDatabase]
    have hholds := h₁.holds
    rw [pins_add_of_none rfl] at hholds
    have hvolume : law.volume db₁ s.heap.file.id = volume law s :=
      congrFun (PageStore.Reliable.volume_of_same hsame₁) _
    refine (Database.holds_pin hholds _ page).mono ?_ ?_
    · rintro pin db₂ ⟨hkey, hholds₂, hsame₂, hhas, -⟩
      unfold modifyHeap
      rw [ensures_bind, ensures_modify, ensures_modify]
      refine ⟨⟨?_, h₁.headerKey, ?_, h₁.firstPage⟩, hsame₁.trans hsame₂, hvolume ▸ hhas, pin,
        congrArg FrameKey.page hkey, rfl⟩
      · rw [pins_add_of_some rfl]
        exact hholds₂
      · intro other hother
        obtain rfl := Option.some.inj hother
        exact congrArg FrameKey.file hkey
    · rintro e db₂ ⟨hholds₂, hsame₂, hcause⟩
      refine ⟨⟨?_, h₁.headerKey, nofun, h₁.firstPage⟩, hsame₁.trans hsame₂, ?_, rfl⟩
      · rw [pins_add_of_none rfl]
        exact hholds₂
      · exact fun hhas => (hcause (hvolume.symm ▸ hhas)).1

/-- The open heap file goes on from `position`, stands on `record` and has `page` pinned. -/
structure At (h : HeapFile) (position : Option PageId) (record : Option RecordId)
    (page : Option PageId) : Prop where
  position : h.position = position
  record : h.record = record
  page : h.currentPage? = page

/-- Another page becomes the current one, or there is no current page any more. -/
theorem ensures_switchTo_at (h : Attached law rest s) (page : PageId) :
    (switchTo page).Ensures s
      (fun _ s' => Stays law rest s s' ∧ (volume law s).Has page ∧
        s'.heap.At (some page) s.heap.record (some page))
      (fun e s' => Stays law rest s s' ∧ ((volume law s).Has page → e = .bufferPoolExhausted) ∧
        s'.heap.At s.heap.position s.heap.record none) := by
  refine (ensures_switchTo h page).mono ?_ ?_
  · rintro _ s₁ ⟨h₁, hsame₁, hhas, pin, rfl, hheap₁⟩
    exact ⟨⟨h₁, hsame₁, by rw [hheap₁]⟩, hhas, by rw [hheap₁], by rw [hheap₁], by rw [hheap₁]; rfl⟩
  · rintro e s₁ ⟨h₁, hsame₁, hcause, hheap₁⟩
    exact ⟨⟨h₁, hsame₁, by rw [hheap₁]⟩, hcause, by rw [hheap₁], by rw [hheap₁],
      by rw [hheap₁]; rfl⟩

omit [PageStore σ] in
/-- A pinned page is the current one. -/
theorem At.exists_current {position : Option PageId} {record : Option RecordId} {page : PageId}
    (h : s.heap.At position record (some page)) :
    ∃ pin, s.heap.current = some pin ∧ pin.key.page = page := Option.map_eq_some_iff.1 h.page

/-! ## Counting records -/

/-- The number of pages or records is counted up while there are numbers left. -/
theorem count32_succ {n : UInt32} (h : n.toNat + 1 < 2 ^ 32) :
    ∃ count, count32 (n.toNat + 1) = .ok count ∧ count.toNat = n.toNat + 1 :=
  ⟨_, if_pos h, UInt32.toNat_ofNat_of_lt' h⟩

/-- After a change of one data page of a heap file, the header is made to count its records. -/
theorem ensures_recount (h : Attached law rest s) {v : Volume} {header : HeapHeader} {p : PageId}
    {q : SlottedPage} {count : UInt32} {f : HeapHeader → Result HeapHeader}
    (hchanged : volume law s = v.store p q.data) (hv : v.IsHeap header) (hp : v.IsData p)
    (hq : q.WellFormed) (hnumber : q.page = (v.data p).page) (hnext : q.next = (v.data p).next)
    (hf : f header = .ok { header with recordCount := count })
    (hcount : count.toNat + (v.data p).recordCount = header.recordCount.toNat + q.recordCount) :
    (updateHeader f).Ensures s
      (fun _ s' => Attached law rest s' ∧ law.Only s.heap.file.id s.db s'.db ∧
        s'.heap = { s.heap with headerPin := s.heap.headerPin.markDirty } ∧
        (volume law s').IsHeap { header with recordCount := count } ∧
        (volume law s').record? = (v.store p q.data).record?) Never := by
  have hread : HeapHeader.read ((volume law s).page ⟨1⟩) = .ok header := by
    rw [hchanged, Volume.page_store_of_ne v hp.ne_one.symm]
    exact hv.header
  have hvalid : HeapHeader.Valid { header with recordCount := count } :=
    ⟨hv.valid.name_pos, hv.valid.name_le, hv.valid.first, hv.valid.last⟩
  refine (ensures_updateHeader h hread hf hvalid).mono ?_ fun _ _ => id
  rintro _ s' ⟨h', honly, hheap, headerPage, hstored, hvolume⟩
  rw [hchanged] at hvolume
  refine ⟨h', honly, hheap, ?_, ?_⟩
  · rw [hvolume]
    exact hv.store_store hp hq hnumber hnext hstored hcount
  · rw [hvolume, Volume.record?_store_one]

end HeapFile

end PagedHeap
