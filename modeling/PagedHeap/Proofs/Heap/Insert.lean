import PagedHeap.Heap.Insert
import PagedHeap.Proofs.Heap.Attached
import PagedHeap.Proofs.Page.Map

/-!
# Inserting into a heap file

A record that is not too long is stored under an address that was free, or the pool has no frame for
the page that it should go to.  An insert that is refused changes no page.  On the way there are at
most two pages without room, the current one and the last one of the chain: a new page has room for
every record.

The record gets the first free slot of the page that it goes to (`HeapFile.Added`).
-/

namespace PagedHeap

open PagedHeap.Action

namespace HeapFile

variable {σ : Type} [PageStore σ] {law : PageStore.Reliable σ} {rest : Multiset Pin}
variable {s s' : HeapState σ} {pin : Pin} {header : HeapHeader} {record : Bytes}

/-! ## Appending a page -/

theorem format_eq (b : Page) (page : PageId) : SlottedPage.format b page = .ok (.empty page) := by
  unfold SlottedPage.format SlottedPage.ofBlock
  rw [dif_pos rfl]

/-- The current page is the last one, and has no record. -/
def AtEmpty (law : PageStore.Reliable σ) (s : HeapState σ) : Prop :=
  ∃ pin, s.heap.current = some pin ∧ (volume law s).IsLast pin.key.page ∧
    (volume law s).data pin.key.page = .empty pin.key.page

/-- Turns a new page into an empty data page behind the current one, which is given up. -/
def linkPage (new : Pin) : HeapAction σ Unit := do
  let page ← Action.ofResult
    (SlottedPage.format (← onDatabase (Database.pageOf new)) new.key.page)
  onDatabase (Database.setPage new page.data)
  updatePage fun page => .ok ((), page.setNext (some new.key.page))
  updateHeader fun h => do
    let count ← count32 (h.pageCount.toNat + 1)
    return { h with lastPage := new.key.page, pageCount := count }
  modifyHeap fun h => { h with current := h.current.map Pin.markDirty }
  releaseCurrent

theorem appendPage_eq : (appendPage : HeapAction σ Unit) = (do
    let tail ← currentPage
    if tail.next.isSome then
      Action.refuse (.invalidOperation "current page is not the end of the chain")
    let new ← onDatabase (Database.allocate (← get).heap.file.id)
    (linkPage new).orClean (onDatabase (Database.drop new))
    modifyHeap fun h =>
      { h with current := some new, position := some new.key.page, record := none }) := rfl

/-- A new page is linked behind the last one. -/
theorem ensures_linkPage {new : Pin} {v : Volume} (h : Attached law (new ::ₘ rest) s)
    (hgrown : volume law s = v.grow) (hv : v.IsHeap header) (hsmall : v.size + 1 < 2 ^ 32)
    (hcurrent : s.heap.current = some pin) (hlast : pin.key.page = header.lastPage)
    (hnew : new.key = ⟨s.heap.file.id, ⟨UInt32.ofNat v.size⟩⟩) (hdirty : new.dirty = true) :
    (linkPage new).Ensures s
      (fun _ s' => Attached law (new ::ₘ rest) s' ∧ law.Only s.heap.file.id s.db s'.db ∧
        s'.heap = { s.heap with headerPin := s.heap.headerPin.markDirty, current := none } ∧
        ∃ count headerPage, count.toNat = header.pageCount.toNat + 1 ∧
          HeapHeader.read headerPage =
            .ok { header with lastPage := ⟨UInt32.ofNat v.size⟩, pageCount := count } ∧
          volume law s' = v.linked header.lastPage headerPage) Never := by
  obtain ⟨⟨file, page⟩, serial, dirty⟩ := new
  cases hnew
  cases hdirty
  have hlastData := hv.isData_last
  have hfar := hlastData.has.ne_new hsmall
  have hmem : (⟨⟨s.heap.file.id, ⟨UInt32.ofNat v.size⟩⟩, serial, true⟩ : Pin) ∈
      s.heap.pins + (⟨⟨s.heap.file.id, ⟨UInt32.ofNat v.size⟩⟩, serial, true⟩ ::ₘ rest) :=
    Multiset.mem_add.2 (.inr (Multiset.mem_cons_self _ _))
  unfold linkPage
  -- The new page becomes an empty data page.
  rw [ensures_bind, ensures_onDatabase]
  refine (Database.ensures_pageOf h.holds hmem).mono ?_ fun _ _ => id
  rintro bytes _ ⟨rfl, -⟩
  rw [ensures_bind, ensures_ofResult_ok (format_eq _ _), ensures_bind, ensures_onDatabase]
  refine (Database.stores_setPage h.holds hmem rfl _).mono ?_ fun _ _ => id
  rintro _ db₁ ⟨hholds₁, honly₁, hvolume₁⟩
  have hvolume₁ : volume law ⟨db₁, s.heap⟩ = v.grow.store ⟨UInt32.ofNat v.size⟩
      (SlottedPage.empty ⟨UInt32.ofNat v.size⟩).data := by
    rw [← hgrown]
    exact hvolume₁
  have h₁ : Attached law _ ⟨db₁, s.heap⟩ :=
    ⟨hholds₁, h.headerKey, h.currentFile, h.firstPage⟩
  -- The last page links to it.
  have hread₁ : SlottedPage.read ((volume law ⟨db₁, s.heap⟩).page pin.key.page) =
      .ok (v.data header.lastPage) := by
    rw [hvolume₁, hlast, Volume.page_store_of_ne _ hfar, Volume.page_grow_of_ne _ hfar]
    exact hv.read_data hlastData
  rw [ensures_bind]
  refine (ensures_updatePage h₁ hcurrent hread₁ rfl).mono ?_ fun _ _ => False.elim
  rintro _ ⟨db₂, heap₂⟩ ⟨-, h₂, honly₂, rfl, hvolume₂⟩
  rw [hvolume₁, hlast] at hvolume₂
  -- The header counts it.
  have hone := (hv.new_ne_one hsmall).symm
  have hread₂ : HeapHeader.read ((volume law
      ⟨db₂, { s.heap with current := some pin.markDirty }⟩).page ⟨1⟩) = .ok header := by
    rw [hvolume₂, Volume.page_store_of_ne _ hlastData.ne_one.symm, Volume.page_store_of_ne _ hone,
      Volume.page_grow_of_ne _ hone]
    exact hv.header
  have hpages := hv.pages
  obtain ⟨count, hcount, hcounted⟩ := count32_succ (n := header.pageCount) (by omega)
  have hvalid : HeapHeader.Valid
      { header with lastPage := ⟨UInt32.ofNat v.size⟩, pageCount := count } :=
    ⟨hv.valid.name_pos, hv.valid.name_le, hv.valid.first, Volume.new_ne_invalid hsmall⟩
  rw [ensures_bind]
  refine (ensures_updateHeader h₂ hread₂ (by rw [hcount]; rfl) hvalid).mono ?_ fun _ _ => id
  rintro _ ⟨db₃, heap₃⟩ ⟨h₃, honly₃, rfl, headerPage, hstored, hvolume₃⟩
  rw [hvolume₂] at hvolume₃
  -- The last page is given up.
  unfold modifyHeap
  rw [ensures_bind, ensures_modify]
  have hmarked := h₃.markCurrent (show _ = some pin.markDirty from rfl)
  refine (ensures_releaseCurrent hmarked).mono ?_ fun _ _ => id
  rintro _ ⟨db₄, heap₄⟩ ⟨h₄, hsame₄, rfl⟩
  refine ⟨h₄, ?_, rfl, count, headerPage, hcounted, hstored, ?_⟩
  · exact honly₁.trans (honly₂.trans (honly₃.trans (.of_same hsame₄ _)))
  · refine Eq.trans ?_ hvolume₃
    exact congrFun (PageStore.Reliable.volume_of_same hsame₄) _

/-- A page behind the last one is linked to it and becomes the current page. -/
theorem ensures_appendPage (h : Attached law rest s) (hv : (volume law s).IsHeap header)
    (hsmall : (volume law s).size + 1 < 2 ^ 32) (hcurrent : s.heap.current = some pin)
    (hlast : pin.key.page = header.lastPage) :
    appendPage.Ensures s
      (fun _ s' => Moves law rest s s' ∧ AtEmpty law s' ∧
        (volume law s').record? = (volume law s).record? ∧
        (volume law s').recordCount = (volume law s).recordCount ∧
        (volume law s').size = (volume law s).size + 1)
      (fun e s' => Stays law rest s s' ∧ e = .bufferPoolExhausted ∧ s'.heap = s.heap) := by
  have hread := hv.read_data hv.isData_last
  rw [← hlast] at hread
  have htail : ((volume law s).data pin.key.page).next = none := by
    rw [hlast, hv.next _ hv.isData_last, hv.nextOf_last]
  rw [appendPage_eq, ensures_bind]
  refine (ensures_currentPage h hcurrent hread).mono ?_ fun _ _ => False.elim
  rintro tail s₀ ⟨rfl, rfl⟩
  simp only [htail, Option.isSome_none, Bool.false_eq_true, if_false]
  rw [ensures_bind, ensures_get, ensures_bind, ensures_onDatabase]
  have hthree := hv.three_le
  refine (Database.grows_allocate h.holds s₀.heap.file.id
    (by change 0 < (volume law s₀).size; omega)
    (by change (volume law s₀).size < _; omega)).mono ?_ ?_
  · rintro new db₁ ⟨hkey, hdirty, hholds₁, honly₁, hvolume₁⟩
    have h₁ : Attached law (new ::ₘ rest) ⟨db₁, s₀.heap⟩ := by
      refine ⟨?_, h.headerKey, h.currentFile, h.firstPage⟩
      rw [Multiset.add_cons]
      exact hholds₁
    have hgrown : volume law ⟨db₁, s₀.heap⟩ = (volume law s₀).grow := hvolume₁
    rw [ensures_bind, ensures_orClean]
    refine (ensures_linkPage h₁ hgrown hv hsmall hcurrent hlast hkey hdirty).mono ?_
      fun _ _ => False.elim
    rintro _ ⟨db₂, heap₂⟩ ⟨h₂, honly₂, rfl, count, headerPage, hcounted, hstored, hvolume₂⟩
    obtain ⟨hheap, hrecord, hempty⟩ := hv.linked hsmall hcounted hstored
    rw [← hvolume₂] at hheap hrecord hempty
    unfold modifyHeap
    rw [ensures_modify]
    have hnewPage : new.key.page = ⟨UInt32.ofNat (volume law s₀).size⟩ :=
      congrArg FrameKey.page hkey
    refine ⟨⟨⟨?_, h.headerKey, ?_, h.firstPage⟩, honly₁.trans honly₂, rfl, _, hheap⟩, ?_,
      hrecord, ?_, ?_⟩
    · have hholds₂ := h₂.holds
      rw [pins_add_of_none rfl, Multiset.cons_swap] at hholds₂
      rw [pins_add_of_some rfl]
      exact hholds₂
    · intro other hother
      obtain rfl := Option.some.inj hother
      exact congrArg FrameKey.file hkey
    · refine ⟨new, rfl, ?_, ?_⟩
      · rw [hnewPage]
        exact hheap.isLast
      · rw [hnewPage]
        exact hempty
    · exact hheap.records.symm.trans hv.records
    · have hlast₂ := hheap.last
      rw [Volume.toNat_ofNat (by omega)] at hlast₂
      exact hlast₂.symm
  · rintro e db ⟨hholds, hsame, he⟩
    exact ⟨⟨⟨hholds, h.headerKey, h.currentFile, h.firstPage⟩, hsame, rfl⟩, he, rfl⟩

/-! ## Trying a page -/

/-- A record was added under an address that was free. -/
structure Added (law : PageStore.Reliable σ) (rest : Multiset Pin) (record : Bytes)
    (s : HeapState σ) (rid : RecordId) (s' : HeapState σ) : Prop where
  moves : Moves law rest s s'
  fresh : (volume law s).record? rid = none
  /-- All slots of its page before its own were in use. -/
  below : ∀ slot < rid.slot, (volume law s).record? ⟨rid.page, slot⟩ ≠ none
  record? : (volume law s').record? = Function.update (volume law s).record? rid (some record)
  current : s'.heap.currentPage? = some rid.page
  size : (volume law s').size ≤ (volume law s).size + 1
  /-- Its page was the current one already, or is the last one now. -/
  place : (volume law s').size = (volume law s).size ∧ s.heap.currentPage? = some rid.page ∨
    (volume law s').IsLast rid.page

/-- The current page, if there is one, was the current one already, or is the last one. -/
def Nearby (law : PageStore.Reliable σ) (s s' : HeapState σ) : Prop :=
  ∀ page, s'.heap.currentPage? = some page →
    s.heap.currentPage? = some page ∨ (volume law s').IsLast page

/-- On a data page with enough room the record is added. -/
theorem ensures_tryInsert_of_fits (h : Attached law rest s) (hv : (volume law s).IsHeap header)
    (hcurrent : s.heap.current = some pin) (hdata : (volume law s).IsData pin.key.page)
    (hlen : record.length ≤ maxRecordSize) (hsmall : (volume law s).recordCount + 1 < 2 ^ 32)
    (hfits : ((volume law s).data pin.key.page).neededFor record ≤
      ((volume law s).data pin.key.page).freeSpace +
        ((volume law s).data pin.key.page).header.fragmented.toNat) :
    (tryInsert record).Ensures s
      (fun answer s' => ∃ rid, answer = some rid ∧ Added law rest record s rid s' ∧
        (volume law s').size = (volume law s).size ∧ rid.page = pin.key.page) Never := by
  have hread := hv.read_data hdata
  have hwell := hv.wellFormed _ hdata
  unfold tryInsert
  rw [ensures_bind, ensures_attempt]
  obtain ⟨slot₀, q, hinsert, hinserted⟩ := hwell.insert_of_fits hlen hfits
  refine (ensures_updatePage h hcurrent hread hinsert).mono ?_ fun _ _ => False.elim
  rintro slot ⟨db₁, heap₁⟩ ⟨rfl, h₁, honly₁, rfl, hvolume₁⟩
  have hbelow (other : SlotId) (hother : other < slot) :
      (volume law s).record? ⟨pin.key.page, other⟩ ≠ none := by
    rw [Volume.record?_of_isData hdata]
    exact hwell.record?_ne_none.2
      (SlottedPage.live_of_lt_insert hinsert (UInt16.lt_iff_toNat_lt.1 hother))
  have hcount := hwell.recordCount_succ hinserted.wellFormed hinserted.fresh hinserted.record?
  have hfresh : (volume law s).record? ⟨pin.key.page, slot⟩ = none := by
    rw [Volume.record?_of_isData hdata]
    exact hinserted.fresh
  -- The address is remembered.
  simp only
  unfold currentPin modifyHeap
  rw [ensures_bind, ensures_bind, ensures_get]
  simp only
  rw [ensures_pure, ensures_bind, ensures_modify]
  -- The header counts the record.
  have h₂ : Attached law rest ⟨db₁, { s.heap with
      current := some pin.markDirty, record := some ⟨pin.key.page, slot⟩ }⟩ :=
    h₁.of_heap rfl rfl rfl rfl rfl
  have hrecords := hv.records
  obtain ⟨count, hcount32, hcounted⟩ := count32_succ (n := header.recordCount) (by omega)
  rw [ensures_bind]
  refine (ensures_recount h₂ hvolume₁ hv hdata hinserted.wellFormed hinserted.page hinserted.next
    (by rw [hcount32]; rfl) (by omega)).mono ?_ fun _ _ => False.elim
  rintro _ ⟨db₃, heap₃⟩ ⟨h₃, honly₃, rfl, hheap, hrecord₃⟩
  rw [ensures_pure]
  have hsize : law.size db₃.files s.heap.file.id = (volume law s).size :=
    hheap.pages.symm.trans hv.pages
  refine ⟨_, rfl, ⟨⟨h₃, honly₁.trans honly₃, rfl, _, hheap⟩, hfresh, hbelow, ?_, rfl,
    Nat.le_succ_of_le hsize.le,
    .inl ⟨hsize, congrArg (Option.map fun pin : Pin => pin.key.page) hcurrent⟩⟩, hsize, rfl⟩
  rw [hrecord₃]
  exact hv.record?_store hdata hinserted.wellFormed hinserted.next hinserted.record?

/-- On a data page the record is added, or there is not enough room for it. -/
theorem ensures_tryInsert (h : Attached law rest s) (hv : (volume law s).IsHeap header)
    (hcurrent : s.heap.current = some pin) (hdata : (volume law s).IsData pin.key.page)
    (hlen : record.length ≤ maxRecordSize) (hsmall : (volume law s).recordCount + 1 < 2 ^ 32) :
    (tryInsert record).Ensures s
      (fun answer s' =>
        (∃ rid, answer = some rid ∧ Added law rest record s rid s' ∧
          (volume law s').size = (volume law s).size) ∨
        answer = none ∧ Stays law rest s s' ∧
          s'.heap = { s.heap with current := some pin.markDirty } ∧
          (volume law s).data pin.key.page ≠ .empty pin.key.page) Never := by
  obtain ⟨p, hp⟩ : ∃ p, p = (volume law s).data pin.key.page := ⟨_, rfl⟩
  by_cases hfits : p.neededFor record ≤ p.freeSpace + p.header.fragmented.toNat
  · refine (ensures_tryInsert_of_fits h hv hcurrent hdata hlen hsmall (hp ▸ hfits)).mono ?_
      fun _ _ => id
    rintro answer s' ⟨rid, hanswer, hadded, hsize, -⟩
    exact .inl ⟨rid, hanswer, hadded, hsize⟩
  · have hread : SlottedPage.read ((volume law s).page pin.key.page) = .ok p :=
      hp ▸ hv.read_data hdata
    have hfull := SlottedPage.WellFormed.insert_of_full hlen (Nat.lt_of_not_le hfits)
    unfold tryInsert
    rw [ensures_bind, ensures_attempt]
    refine (refuses_updatePage h hcurrent (by rw [hread]; exact hfull)).mono
      (fun _ _ => False.elim) ?_
    rintro _ ⟨db₁, heap₁⟩ ⟨rfl, h₁, rfl, rfl⟩
    refine .inr ⟨rfl, ⟨h₁, .refl _, rfl⟩, rfl, fun hempty => hfits ?_⟩
    rw [hp, hempty]
    exact (SlottedPage.wellFormed_empty _).neededFor_le_of_empty (SlottedPage.record?_empty _) hlen

/-! ## Inserting -/

/-- The last page became the current one before a record was added, and no record changed by it. -/
theorem Added.of_moves {s₁ : HeapState σ} {rid : RecordId} (hmoves : Moves law rest s s₁)
    (hrecord : (volume law s₁).record? = (volume law s).record?)
    (hcurrent : s₁.heap.current = some pin) (hlast : (volume law s₁).IsLast pin.key.page)
    (hsize : (volume law s').size ≤ (volume law s).size + 1)
    (h : Added law rest record s₁ rid s') : Added law rest record s rid s' where
  moves := hmoves.trans h.moves
  fresh := hrecord ▸ h.fresh
  below := hrecord ▸ h.below
  record? := hrecord ▸ h.record?
  current := h.current
  size := hsize
  place := by
    refine .inr ?_
    rcases h.place with ⟨hsize, hpage⟩ | hpage
    · unfold currentPage? at hpage
      rw [hcurrent] at hpage
      rw [← Option.some.inj hpage]
      exact hlast.trans hsize.symm
    · exact hpage

theorem nearby_of_current {s' : HeapState σ} (hpage : s'.heap.currentPage? = s.heap.currentPage?) :
    Nearby law s s' := fun _ hother => .inl (hpage ▸ hother)

theorem nearby_of_none {s' : HeapState σ} (hnone : s'.heap.current = none) : Nearby law s s' := by
  intro page hpage
  unfold currentPage? at hpage
  rw [hnone] at hpage
  cases hpage

/-- The last page was made the current one before. -/
theorem Nearby.of_last {s₁ : HeapState σ} (hcurrent : s₁.heap.current = some pin)
    (hlast : (volume law s').IsLast pin.key.page) (h : Nearby law s₁ s') : Nearby law s s' := by
  intro page hpage
  rcases h page hpage with hsame | hnear
  · unfold currentPage? at hsame
    rw [hcurrent] at hsame
    exact .inr (Option.some.inj hsame ▸ hlast)
  · exact .inr hnear

/-- From the last page the way leads to a new one behind it. -/
theorem ensures_advance_of_last (h : Attached law rest s) (hv : (volume law s).IsHeap header)
    (hsmall : (volume law s).size + 1 < 2 ^ 32) (hcurrent : s.heap.current = some pin)
    (hlast : pin.key.page = header.lastPage) :
    advance.Ensures s
      (fun _ s' => Moves law rest s s' ∧ AtEmpty law s' ∧
        (volume law s').record? = (volume law s).record? ∧
        (volume law s').recordCount = (volume law s).recordCount ∧
        (volume law s').size = (volume law s).size + 1)
      (fun e s' => Stays law rest s s' ∧ e = .bufferPoolExhausted ∧ s'.heap = s.heap) := by
  unfold advance
  rw [ensures_bind]
  refine (ensures_header h hv.header).mono ?_ fun _ _ => False.elim
  rintro header _ ⟨rfl, rfl⟩
  rw [ensures_bind, ensures_get]
  have hat : (some pin).map (fun pin : Pin => pin.key.page) = some header.lastPage :=
    congrArg some hlast
  simp only [currentPage?, hcurrent, hat, if_true]
  exact ensures_appendPage h hv hsmall hcurrent hlast

/-- From any other page the way leads to the last one. -/
theorem ensures_advance (h : Attached law rest s) (hv : (volume law s).IsHeap header)
    (hcurrent : s.heap.current = some pin) (hne : pin.key.page ≠ header.lastPage) :
    advance.Ensures s
      (fun _ s' => Stays law rest s s' ∧
        ∃ pin, s'.heap.current = some pin ∧ pin.key.page = header.lastPage)
      (fun e s' => Stays law rest s s' ∧ e = .bufferPoolExhausted ∧ s'.heap.current = none) := by
  unfold advance
  rw [ensures_bind]
  refine (ensures_header h hv.header).mono ?_ fun _ _ => False.elim
  rintro header _ ⟨rfl, rfl⟩
  rw [ensures_bind, ensures_get]
  have hat : (some pin).map (fun pin : Pin => pin.key.page) ≠ some header.lastPage :=
    fun heq => hne (Option.some.inj heq)
  simp only [currentPage?, hcurrent, hat, if_false]
  refine (ensures_switchTo h header.lastPage).mono ?_ ?_
  · rintro _ ⟨db₁, heap₁⟩ ⟨h₁, hsame₁, -, pin₁, hpage₁, rfl⟩
    exact ⟨⟨h₁, hsame₁, rfl⟩, pin₁, rfl, hpage₁⟩
  · rintro e ⟨db₁, heap₁⟩ ⟨h₁, hsame₁, hcause, rfl⟩
    exact ⟨⟨h₁, hsame₁, rfl⟩, hcause hv.isData_last.has, rfl⟩

/-- The record is added on an empty page. -/
theorem ensures_insertWithin_of_empty (h : Attached law rest s)
    (hv : (volume law s).IsHeap header) (hempty : AtEmpty law s)
    (hlen : record.length ≤ maxRecordSize) (hsmall : (volume law s).recordCount + 1 < 2 ^ 32)
    (k : Nat) :
    (insertWithin record (k + 1)).Ensures s
      (fun rid s' => Added law rest record s rid s' ∧ (volume law s').size = (volume law s).size)
      Never := by
  obtain ⟨pin, hcurrent, hlast, hpage⟩ := hempty
  have hdata : (volume law s).IsData pin.key.page := hv.eq_lastPage hlast ▸ hv.isData_last
  unfold insertWithin
  rw [ensures_bind]
  refine (ensures_tryInsert h hv hcurrent hdata hlen hsmall).mono ?_ fun _ _ => id
  rintro answer s₁ (⟨rid, rfl, hadded, hsize⟩ | ⟨-, -, -, hfull⟩)
  · exact ⟨hadded, hsize⟩
  · exact absurd hpage hfull

/-- The record is added on the current page, or the way leads on to others. -/
theorem ensures_insertWithin_succ {refused : StorageError → HeapState σ → Prop} {k : Nat}
    (h : Attached law rest s) (hv : (volume law s).IsHeap header)
    (hcurrent : s.heap.current = some pin) (hdata : (volume law s).IsData pin.key.page)
    (hlen : record.length ≤ maxRecordSize) (hsmall : (volume law s).recordCount + 1 < 2 ^ 32)
    (hnext : ∀ s₁, Stays law rest s s₁ →
      s₁.heap = { s.heap with current := some pin.markDirty } →
      (do advance; insertWithin record k : HeapAction σ RecordId).Ensures s₁
        (Added law rest record s) refused) :
    (insertWithin record (k + 1)).Ensures s (Added law rest record s) refused := by
  unfold insertWithin
  rw [ensures_bind]
  refine (ensures_tryInsert h hv hcurrent hdata hlen hsmall).mono ?_ fun _ _ => False.elim
  rintro answer s₁ (⟨rid, rfl, hadded, -⟩ | ⟨rfl, hstays, hheap, -⟩)
  · exact hadded
  · exact hnext s₁ hstays hheap

/-- The record is added on the last page of the chain or on a new one behind it. -/
theorem ensures_insertWithin_of_last (h : Attached law rest s)
    (hv : (volume law s).IsHeap header) (hcurrent : s.heap.current = some pin)
    (hlast : pin.key.page = header.lastPage) (hlen : record.length ≤ maxRecordSize)
    (hsmall : (volume law s).Small) (k : Nat) :
    (insertWithin record (k + 2)).Ensures s (Added law rest record s)
      (fun e s' => Stays law rest s s' ∧ e = .bufferPoolExhausted ∧ Nearby law s s') := by
  refine ensures_insertWithin_succ h hv hcurrent (hlast ▸ hv.isData_last) hlen hsmall.records ?_
  intro s₁ hstays hheap
  have hcurrent₁ : s₁.heap.current = some pin.markDirty := by rw [hheap]
  rw [ensures_bind]
  refine (ensures_advance_of_last hstays.attached (hstays.volume_eq ▸ hv)
    (hstays.volume_eq ▸ hsmall.size) hcurrent₁ hlast).mono ?_ ?_
  · rintro _ s₂ ⟨hmoves, hempty, hrecord, hcount, hsize⟩
    obtain ⟨header₂, hv₂⟩ := hmoves.heap
    obtain ⟨pin₂, hcurrent₂, hlast₂, -⟩ := id hempty
    have hsmall₂ : (volume law s₂).recordCount + 1 < 2 ^ 32 := by
      rw [hcount, hstays.volume_eq]
      exact hsmall.records
    refine (ensures_insertWithin_of_empty hmoves.attached hv₂ hempty hlen hsmall₂ k).mono ?_
      fun _ _ => False.elim
    rintro rid s₃ ⟨hadded, hsize₃⟩
    rw [hstays.volume_eq] at hsize
    exact hadded.of_moves ((hstays.moves hv).trans hmoves)
      (hrecord.trans (congrArg Volume.record? hstays.volume_eq)) hcurrent₂ hlast₂
      (hsize₃.trans hsize).le
  · rintro e s₂ ⟨hstays₂, he, hheap₂⟩
    refine ⟨hstays.trans hstays₂, he, nearby_of_current ?_⟩
    unfold currentPage?
    rw [hheap₂, hcurrent₁, hcurrent]
    rfl

/-- The last page was made the current one, and the record is added on it or on a new one. -/
theorem ensures_insertWithin_of_stays {s₁ : HeapState σ} (hstays : Stays law rest s s₁)
    (hv : (volume law s).IsHeap header) (hcurrent : s₁.heap.current = some pin)
    (hlast : pin.key.page = header.lastPage) (hlen : record.length ≤ maxRecordSize)
    (hsmall : (volume law s).Small) (k : Nat) :
    (insertWithin record (k + 2)).Ensures s₁ (Added law rest record s)
      (fun e s' => Stays law rest s s' ∧ e = .bufferPoolExhausted ∧ Nearby law s s') := by
  have hvolume := hstays.volume_eq
  have hisLast : (volume law s).IsLast pin.key.page := hlast ▸ hv.isLast
  refine (ensures_insertWithin_of_last hstays.attached (hvolume ▸ hv) hcurrent hlast hlen
    (hvolume ▸ hsmall) k).mono ?_ ?_
  · intro rid s₂ hadded
    exact hadded.of_moves (hstays.moves hv) (congrArg Volume.record? hvolume) hcurrent
      (hvolume.symm ▸ hisLast) (hvolume ▸ hadded.size)
  · rintro e s₂ ⟨hstays₂, he, hnear⟩
    have hstays' := hstays.trans hstays₂
    exact ⟨hstays', he, hnear.of_last hcurrent (hstays'.volume_eq.symm ▸ hisLast)⟩

/-- The record is added on the current page, on the last page of the chain or on a new one. -/
theorem ensures_insertWithin (h : Attached law rest s) (hv : (volume law s).IsHeap header)
    (hcurrent : s.heap.current = some pin) (hdata : (volume law s).IsData pin.key.page)
    (hlen : record.length ≤ maxRecordSize) (hsmall : (volume law s).Small) (k : Nat) :
    (insertWithin record (k + 3)).Ensures s (Added law rest record s)
      (fun e s' => Stays law rest s s' ∧ e = .bufferPoolExhausted ∧ Nearby law s s') := by
  by_cases hlast : pin.key.page = header.lastPage
  · exact ensures_insertWithin_of_last h hv hcurrent hlast hlen hsmall (k + 1)
  refine ensures_insertWithin_succ h hv hcurrent hdata hlen hsmall.records ?_
  intro s₁ hstays hheap
  have hcurrent₁ : s₁.heap.current = some pin.markDirty := by rw [hheap]
  rw [ensures_bind]
  refine (ensures_advance hstays.attached (hstays.volume_eq ▸ hv) hcurrent₁ hlast).mono ?_ ?_
  · rintro _ s₂ ⟨hstays₂, pin₂, hcurrent₂, hpage₂⟩
    exact ensures_insertWithin_of_stays (hstays.trans hstays₂) hv hcurrent₂ hpage₂ hlen hsmall k
  · rintro e s₂ ⟨hstays₂, he, hnone⟩
    exact ⟨hstays.trans hstays₂, he, nearby_of_none hnone⟩

/-- On the header page nothing is inserted. -/
theorem refuses_insertWithin (h : Attached law rest s) (hv : (volume law s).IsHeap header)
    (hcurrent : s.heap.current = some pin) (hdata : ¬(volume law s).IsData pin.key.page) (k : Nat) :
    (insertWithin record (k + 1)).Ensures s (fun _ _ => False)
      (fun _ s' => Stays law rest s s' ∧ Nearby law s s') := by
  obtain ⟨reason, hread⟩ := hv.read_one
  rw [← Volume.eq_one_of_not_isData (h.has_current hcurrent) hdata] at hread
  have hrefused : (SlottedPage.read ((volume law s).page pin.key.page) >>=
      fun page => page.insert record) = .error (.error (.invalidPage reason)) := by
    rw [hread]
    rfl
  unfold insertWithin tryInsert
  rw [ensures_bind, ensures_bind, ensures_attempt]
  refine (refuses_updatePage h hcurrent hrefused).mono (fun _ _ => False.elim) ?_
  rintro e ⟨db₁, heap₁⟩ ⟨rfl, h₁, rfl, rfl⟩
  simp only
  rw [ensures_refuse]
  refine ⟨⟨h₁, .refl _, rfl⟩, nearby_of_current ?_⟩
  unfold currentPage?
  rw [hcurrent]
  rfl

/-- An insert adds the record under an address that was free, or changes no page.  If the record is
not too long and the current page, if there is one, is a data page, then the only cause for which it
is refused is that every frame is pinned.  Then the handle has gone to the last page at most. -/
theorem ensures_insert (h : Attached law rest s) (hv : (volume law s).IsHeap header)
    (hsmall : (volume law s).Small) (record : Bytes) :
    (insert record).Ensures s (Added law rest record s)
      (fun e s' => Stays law rest s s' ∧ (record.length ≤ maxRecordSize →
        (∀ pin, s.heap.current = some pin → (volume law s).IsData pin.key.page) →
        e = .bufferPoolExhausted) ∧ Nearby law s s') := by
  unfold HeapFile.insert
  by_cases hlong : maxRecordSize < record.length
  · simp only [hlong, if_true]
    rw [ensures_refuse]
    exact ⟨⟨h, .refl _, rfl⟩, fun hlen => absurd hlong (Nat.not_lt.2 hlen), nearby_of_current rfl⟩
  have hlen := Nat.le_of_not_lt hlong
  simp only [hlong, if_false]
  rw [ensures_bind, ensures_get]
  cases hcurrent : s.heap.current with
  | none =>
    simp only [Option.isNone_none, if_true]
    rw [ensures_bind]
    refine (ensures_header h hv.header).mono ?_ fun _ _ => False.elim
    rintro header s ⟨rfl, rfl⟩
    rw [ensures_bind]
    refine (ensures_switchTo h header.lastPage).mono ?_ ?_
    · rintro _ ⟨db₁, heap₁⟩ ⟨h₁, hsame₁, -, pin₁, hpage₁, rfl⟩
      have hstays₁ : Stays law rest s _ := ⟨h₁, hsame₁, rfl⟩
      refine (ensures_insertWithin_of_stays hstays₁ hv rfl hpage₁ hlen hsmall 1).mono
        (fun _ _ => id) ?_
      exact fun e s' hpost => ⟨hpost.1, fun _ _ => hpost.2.1, hpost.2.2⟩
    · rintro e ⟨db₁, heap₁⟩ ⟨h₁, hsame₁, hcause, rfl⟩
      exact ⟨⟨h₁, hsame₁, rfl⟩, fun _ _ => hcause hv.isData_last.has, nearby_of_none rfl⟩
  | some pin =>
    simp only [Option.isNone_some, Bool.false_eq_true, if_false]
    by_cases hdata : (volume law s).IsData pin.key.page
    · refine (ensures_insertWithin h hv hcurrent hdata hlen hsmall 0).mono (fun _ _ => id) ?_
      exact fun e s' hpost => ⟨hpost.1, fun _ _ => hpost.2.1, hpost.2.2⟩
    · exact (refuses_insertWithin h hv hcurrent hdata 2).mono (fun _ _ => False.elim)
        fun e s' hpost => ⟨hpost.1, fun _ hall => absurd (hall pin rfl) hdata, hpost.2⟩

end HeapFile

end PagedHeap
