import PagedHeap.Proofs.Heap.Files
import PagedHeap.Proofs.Heap.Parallel
import PagedHeap.Proofs.Pool.Room

/-!
# Reading a heap file in a pool that has room

An open heap file needs two frames, one for its header page and one for its current page.  If the
pins of all others leave them (`HeapFile.Roomy`), reading a record is refused only where there is
none, and a scan goes on until it has found all records.
-/

namespace PagedHeap

open PagedHeap.Action

/-- The page behind a data page is one. -/
theorem Volume.isData_of_nextOf {v : Volume} {p q : PageId} (hsize : v.size < 2 ^ 32)
    (hdata : v.IsData p) (hnext : v.nextOf p = some q) : v.IsData q := by
  unfold nextOf at hnext
  split at hnext
  · next hlt =>
    obtain rfl := Option.some.inj hnext
    unfold IsData
    rw [toNat_ofNat (by omega)]
    exact ⟨Nat.le_succ_of_le hdata.1, hlt⟩
  · cases hnext

namespace HeapFile

variable {σ α : Type} [PageStore σ] {law : PageStore.Reliable σ} {rest : Multiset Pin}
variable {s s' : HeapState σ} {header : HeapHeader}

/-- The pool has room for the pages of an open heap file. -/
structure Roomy (law : PageStore.Reliable σ) (rest : Multiset Pin) (s : HeapState σ) : Prop where
  attached : Attached law rest s
  tracked : s.db.pool.Tracked
  room : rest.card + 2 ≤ s.db.pool.capacity

/-- Whatever an operation does to a heap file beside itself keeps the pool tracked. -/
theorem ensures_tracked {x : HeapAction σ α}
    (hkeeps : Keeps True (Parallel (PageStore.Parallel.same True σ s.db.pool.capacity) s.heap.file)
      x x) (h : s.db.pool.Tracked) {ok : α → HeapState σ → Prop}
    {refused : StorageError → HeapState σ → Prop} (hx : x.Ensures s ok refused) :
    x.Ensures s (fun a s' => ok a s' ∧ s'.db.pool.Tracked ∧
      s'.db.pool.capacity = s.db.pool.capacity) refused := by
  refine hx.and_run.mono ?_ fun _ _ => And.left
  rintro a s' ⟨hok, hrun⟩
  obtain ⟨s'', -, hs⟩ := (hkeeps ⟨⟨rfl, rfl, fun _ _ => trivial, h, rfl⟩, rfl, rfl⟩).of_ok hrun
  exact ⟨hok, hs.db.tracked, hs.db.capacity⟩

/-! ## One page -/

/-- Another page of the file becomes the current one. -/
theorem Roomy.switchTo (h : Roomy law rest s) {page : PageId} (hhas : (volume law s).Has page) :
    (switchTo page).Ensures s
      (fun _ s' => Roomy law rest s' ∧ law.Same s.db s'.db ∧
        ∃ pin, pin.key.page = page ∧
          s'.heap = { s.heap with current := some pin, position := some page }) Never := by
  have hswitch : (HeapFile.switchTo page).Ensures s (fun _ _ => True) Never := by
    unfold HeapFile.switchTo
    rw [ensures_bind, ensures_get]
    by_cases hpage : s.heap.currentPage? = some page
    · simp only [hpage, ne_eq, not_true_eq_false, if_false]
      trivial
    · simp only [hpage, ne_eq, not_false_eq_true, if_true]
      rw [ensures_bind]
      refine (ensures_tracked keeps_releaseCurrent h.tracked
        (ensures_releaseCurrent h.attached)).mono ?_ fun _ _ => id
      rintro _ ⟨db₁, heap₁⟩ ⟨⟨h₁, hsame₁, rfl⟩, htracked₁, hcapacity₁⟩
      have hholds := h₁.holds
      rw [pins_add_of_none rfl] at hholds
      have hcard : (s.heap.headerPin ::ₘ rest).card < db₁.pool.capacity := by
        have hroom := h.room
        rw [Multiset.card_cons]
        simp only at hcapacity₁
        omega
      have hvolume : law.volume db₁ s.heap.file.id = volume law s :=
        congrFun (PageStore.Reliable.volume_of_same hsame₁) _
      rw [ensures_bind, ensures_onDatabase]
      exact (Database.ensures_pin_of_card hholds htracked₁ hcard (hvolume ▸ hhas)).mono
        (fun _ _ _ => trivial) fun _ _ => id
  refine (ensures_tracked (keeps_switchTo trivial page) h.tracked
    ((ensures_switchTo h.attached page).and hswitch)).mono ?_ fun _ _ => And.right
  rintro _ s' ⟨⟨⟨h', hsame, -, hheap⟩, -⟩, htracked, hcapacity⟩
  exact ⟨⟨h', htracked, hcapacity ▸ h.room⟩, hsame, hheap⟩

/-- The volume of a heap file with room stays when its pages do. -/
theorem Roomy.of_stays (h : Roomy law rest s) (hstays : Stays law rest s s')
    (htracked : s'.db.pool.Tracked) (hcapacity : s'.db.pool.capacity = s.db.pool.capacity) :
    Roomy law rest s' := ⟨hstays.attached, htracked, hcapacity ▸ h.room⟩

/-- A record that is there is read. -/
theorem Roomy.getRecord (h : Roomy law rest s) (hv : (volume law s).IsHeap header) {rid : RecordId}
    {bytes : Bytes} (hrecord : (volume law s).record? rid = some bytes) :
    (getRecord rid).Ensures s (fun answer _ => answer = bytes) Never := by
  have hhas := (Volume.isData_of_record? hrecord).has
  obtain ⟨_, t, hrun, -⟩ := (h.switchTo hhas).exists_ok
  refine (ensures_getRecord h.attached hv rid).mono ?_ ?_
  · rintro answer s' ⟨-, hanswer, -⟩
    exact Option.some.inj (hanswer.symm.trans hrecord)
  · rintro e s' ⟨-, ⟨-, hrefused, -⟩ | ⟨-, hnone, -⟩⟩
    · cases hrun.symm.trans hrefused
    · cases hnone.symm.trans hrecord

/-! ## Scans -/

/-- A page is looked through, and is the current one afterwards. -/
theorem Roomy.scanPage (h : Roomy law rest s) (hv : (volume law s).IsHeap header)
    (filter : Option Filter) {page : PageId} (hdata : (volume law s).IsData page) :
    (scanPage filter page).Ensures s
      (fun answer s' => Roomy law rest s' ∧ volume law s' = volume law s ∧
        s'.heap.currentPage? = some page ∧ (∀ rid, answer = .inl rid → rid.page = page) ∧
        ∀ next, answer = .inr next → next = (volume law s).nextOf page) Never := by
  obtain ⟨_, t, hrun, -⟩ := (h.switchTo hdata.has).exists_ok
  refine (ensures_tracked (keeps_scanPage trivial filter page) h.tracked
    (ensures_scanPage h.attached hv filter page)).mono ?_ ?_
  · rintro answer s' ⟨⟨hstays, -, hat, hanswer⟩, htracked, hcapacity⟩
    refine ⟨h.of_stays hstays htracked hcapacity, hstays.volume_eq, hat.page, ?_, ?_⟩
    · rintro rid rfl
      obtain ⟨rid', heq, hrid, -⟩ | ⟨hnext, -⟩ := hanswer
      · cases heq
        exact hrid
      · cases hnext
    · rintro next rfl
      obtain ⟨rid', heq, -⟩ | ⟨hnext, -⟩ := hanswer
      · cases heq
      · exact Sum.inr.inj hnext
  · rintro e s' ⟨-, ⟨hrefused, -⟩ | ⟨hone, -⟩⟩
    · cases hrun.symm.trans hrefused
    · exact hdata.ne_one hone

/-- The chain is looked through from a data page on, and the page of the record that was found is
the current one. -/
theorem Roomy.scanChain (filter : Option Filter) (steps : Nat) {s : HeapState σ}
    {start : Option PageId} (h : Roomy law rest s) (hv : (volume law s).IsHeap header)
    (hstart : ∀ page, start = some page → (volume law s).IsData page)
    (henough : Enough (volume law s) start steps) :
    (scanChain filter steps start).Ensures s
      (fun found s' => ∀ rid, found = some rid → s'.heap.currentPage? = some rid.page) Never := by
  induction steps generalizing s start with
  | zero =>
    cases start with
    | none => exact fun rid hrid => nomatch hrid
    | some page => exact absurd (henough page rfl).1 (Nat.lt_irrefl 0)
  | succ k ih =>
    cases start with
    | none => exact fun rid hrid => nomatch hrid
    | some page =>
      have hdata := hstart page rfl
      unfold HeapFile.scanChain
      rw [ensures_bind]
      refine (h.scanPage hv filter hdata).mono ?_ fun _ _ => id
      rintro answer s₁ ⟨h₁, hvolume, hpage, hfound, hnext⟩
      cases answer with
      | inl rid =>
        intro other hother
        obtain rfl := Option.some.inj hother
        rw [hpage, hfound rid rfl]
      | inr next =>
        obtain rfl := hnext next rfl
        refine ih h₁ (hvolume ▸ hv) (fun p hp => ?_) ?_
        · rw [hvolume]
          exact Volume.isData_of_nextOf hv.size_lt hdata hp
        · rw [hvolume]
          exact henough.next hv.size_lt hdata

/-- A scan that stands on a data page, or at the end, goes on. -/
theorem Roomy.scanNext (h : Roomy law rest s) (hv : (volume law s).IsHeap header)
    (filter : Option Filter)
    (hposition : ∀ page, s.heap.position = some page → (volume law s).IsData page) :
    (scanNext filter).Ensures s
      (fun found s' => Roomy law rest s' ∧ volume law s' = volume law s ∧
        (volume law s).Finds filter s.heap.Ahead found ∧
        s'.heap.position = found.map RecordId.page ∧
        ∀ rid, found = some rid → s'.heap.record = some rid ∧
          s'.heap.currentPage? = some rid.page) Never := by
  have hchain := h.scanChain filter _ hv hposition (enough_pageCount hv _)
  have hscan := hchain.of_run_eq (scanNext_eq_scanChain filter h.attached hv)
  refine (ensures_tracked (keeps_scanNext trivial filter) h.tracked
    ((ensures_scanNext filter h.attached hv).and hscan)).mono ?_ fun _ _ => And.right
  rintro found s' ⟨⟨⟨hstays, hfinds, hplace, hrecord⟩, hpage⟩, htracked, hcapacity⟩
  exact ⟨h.of_stays hstays htracked hcapacity, hstays.volume_eq, hfinds, hplace,
    fun rid hrid => ⟨hrecord rid hrid, hpage rid hrid⟩⟩

/-- The record that was just found is read. -/
theorem ensures_readCurrent_of_page (h : Attached law rest s) (hv : (volume law s).IsHeap header)
    {rid : RecordId} {bytes : Bytes} (hrecord : s.heap.record = some rid)
    (hpage : s.heap.currentPage? = some rid.page)
    (hbytes : (volume law s).record? rid = some bytes) :
    readCurrent.Ensures s (fun answer s' => answer = bytes ∧ s' = s) Never := by
  obtain ⟨pin, hcurrent, hkey⟩ := Option.map_eq_some_iff.1 hpage
  have hdata := Volume.isData_of_record? hbytes
  have hread : SlottedPage.read ((volume law s).page pin.key.page) =
      .ok ((volume law s).data rid.page) := by rw [hkey, hv.read_data hdata]
  rw [Volume.record?_of_isData hdata] at hbytes
  unfold readCurrent currentRecord
  rw [ensures_bind, ensures_bind, ensures_get]
  simp only [hrecord, hpage, if_true]
  rw [ensures_pure, ensures_bind]
  refine (ensures_currentPage h hcurrent hread).mono ?_ fun _ _ => id
  rintro p s ⟨rfl, rfl⟩
  rw [ensures_ofResult_ok ((hv.wellFormed _ hdata).get_of_record? hbytes)]
  exact ⟨rfl, rfl⟩

end HeapFile

/-! ## Opening -/

namespace Database

section Pages

variable {σ : Type} [PageStore σ] {law : PageStore.Reliable σ} {db : Database σ}
variable {pins : Multiset Pin} {header : HeapHeader}

/-- The first data page is pinned if there is room for one more pin. -/
theorem ensures_pinChain_of_card {file : FileHandle} {headerPin : Pin}
    (h : law.Holds (headerPin ::ₘ pins) db) (htracked : db.pool.Tracked)
    (hcard : (headerPin ::ₘ pins).card < db.pool.capacity)
    (hkey : headerPin.key = ⟨file.id, ⟨1⟩⟩) (hv : (law.volume db file.id).IsHeap header) :
    (pinChain file headerPin).Ensures db (Opened law pins file db) Never :=
  ensures_pinChain_of_pin h hkey hv ((ensures_pin_of_card h htracked hcard hv.isData_two.has).mono
    (fun _ _ hpost => ⟨hpost.1, hpost.2.1, hpost.2.2.1⟩) fun _ _ => id)

/-- The first pages of a heap file are pinned if there is room for two more pins. -/
theorem ensures_pinFirstPages_of_card (h : law.Holds pins db) (htracked : db.pool.Tracked)
    (hroom : pins.card + 2 ≤ db.pool.capacity) {file : FileHandle}
    (hv : (law.volume db file.id).IsHeap header) :
    (pinFirstPages file).Ensures db
      (fun heap db' => Opened law pins file db heap db' ∧ db'.pool.Tracked ∧
        db'.pool.capacity = db.pool.capacity) Never := by
  have hthree := hv.three_le
  have hhas : (law.volume db file.id).Has ⟨1⟩ :=
    ⟨Nat.one_pos, Nat.lt_of_lt_of_le (by decide : 1 < 3) hthree⟩
  have hpins : (pinFirstPages file).Ensures db (fun _ _ => True) Never := by
    rw [pinFirstPages_eq, ensures_bind]
    unfold onFiles
    rw [ensures_onPart]
    refine (law.ensures_firstPage db.files file.id hv.size_lt).mono ?_ ?_
    · rintro page files ⟨rfl, rfl, -⟩
      rw [ensures_bind]
      refine (ensures_pin_of_card h htracked (by omega) hhas).mono ?_ fun _ _ => id
      rintro headerPin db₁ ⟨hkey, h₁, hsame₁, htracked₁, hcapacity₁⟩
      have hcard : (headerPin ::ₘ pins).card < db₁.pool.capacity := by
        rw [Multiset.card_cons]
        omega
      rw [← PageStore.Reliable.volume_of_same hsame₁] at hv
      rw [ensures_orClean]
      exact (ensures_pinChain_of_card h₁ htracked₁ hcard hkey hv).mono (fun _ _ _ => trivial)
        fun _ _ => False.elim
    · rintro e files ⟨-, hle⟩
      have hsize : 3 ≤ law.size db.files file.id := hthree
      exact absurd hle (by omega)
  have hkeeps : Keeps True (PageStore.Parallel.same True σ db.pool.capacity).Db
      (pinFirstPages file) (pinFirstPages file) := fun _ _ hdb =>
    (agrees_pinFirstPages trivial hdb).mono (fun _ _ _ => And.left) fun _ _ _ => id
  exact (ensures_tracked hkeeps htracked ((ensures_pinFirstPages h file (.inr ⟨header, hv⟩)).and
    hpins)).mono (fun _ _ hpost => ⟨hpost.1.1, hpost.2⟩) fun _ _ => And.right

end Pages

open MemoryFiles (law)

/-- A heap file is opened if there is room for two more pins. -/
theorem ensures_openHeap_of_card {db db₁ : Database MemoryFiles} {pins : Multiset Pin}
    {header : HeapHeader} {name : String} {file : FileHandle} (h : law.Holds pins db)
    (ho : db.Orderly) (htracked : db.pool.Tracked) (hroom : pins.card + 2 ≤ db.pool.capacity)
    (hopen : onFiles (FileStore.openFile name) db = .ok file db₁)
    (hv : (law.volume db file.id).IsHeap header) :
    (openHeap name).Ensures db
      (fun heap db' => HeapFile.Roomy law pins ⟨db', heap⟩ ∧ law.volume db' = law.volume db ∧
        heap.file = file ∧ heap.position = some ⟨2⟩ ∧ heap.record = none) Never := by
  obtain ⟨hsteady, hpool, -⟩ := (steady_onFiles (.refl h ho)
    (MemoryFiles.ensures_openFile ho.booked name)).of_ok hopen
  rw [← hpool] at htracked hroom
  rw [← hsteady.volume] at hv
  unfold openHeap
  rw [ensures_bind]
  refine .of_run hopen ?_
  rw [ensures_orClean]
  refine (ensures_pinFirstPages_of_card hsteady.holds htracked hroom hv).mono ?_
    fun _ _ => False.elim
  rintro heap db₂ ⟨hopened, htracked₂, hcapacity₂⟩
  refine ⟨⟨hopened.attached, htracked₂, hcapacity₂ ▸ hroom⟩, ?_, hopened.handle, hopened.position,
    hopened.record⟩
  rw [PageStore.Reliable.volume_of_same hopened.same, hsteady.volume]

end Database

end PagedHeap
