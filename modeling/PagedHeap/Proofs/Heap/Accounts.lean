import PagedHeap.Heap.Insert
import PagedHeap.Proofs.Pool.Accounts

/-!
# Open heap files that are accounted for

An open heap file has a pin on its header page and at most one on a data page.  Whatever is done
with it, answered or refused, these are the pins that it has afterwards, and no others
(`HeapFile.Entrusted`).

While a record is looked for or inserted, at most one more page is pinned than before.  So the pool
is exhausted only if the header page, the pages that others have pinned and one more page take all
frames (`HeapFile.Crowded`).
-/

namespace PagedHeap

open PagedHeap.Action

/-! ## Pins of an open heap file -/

namespace HeapFile

/-- The pages that an open heap file has pinned. -/
def keys (h : HeapFile) : Multiset FrameKey :=
  h.headerPin.key ::ₘ (h.current.map Pin.key).elim 0 fun key => {key}

/-- The pages that are pinned are on the file. -/
structure OnFile (h : HeapFile) : Prop where
  headerKey : h.headerPin.key = ⟨h.file.id, ⟨1⟩⟩
  currentFile : ∀ key, h.current.map Pin.key = some key → key.file = h.file.id

/-- The file and the pinned pages are the same. -/
structure SamePins (h h' : HeapFile) : Prop where
  file : h'.file = h.file
  headerKey : h'.headerPin.key = h.headerPin.key
  currentKey : h'.current.map Pin.key = h.current.map Pin.key

variable {h h' : HeapFile} {pin : Pin}

theorem SamePins.keys_eq (hsame : SamePins h h') : h'.keys = h.keys := by
  unfold keys
  rw [hsame.headerKey, hsame.currentKey]

theorem SamePins.onFile (hsame : SamePins h h') (hfile : h.OnFile) : h'.OnFile where
  headerKey := by rw [hsame.headerKey, hsame.file, hfile.headerKey]
  currentFile key hkey := by
    rw [hsame.currentKey] at hkey
    rw [hsame.file, hfile.currentFile key hkey]

theorem keys_add_of_none (hcurrent : h.current = none) (rest : Multiset FrameKey) :
    h.keys + rest = h.headerPin.key ::ₘ rest := by
  unfold keys
  rw [hcurrent]
  exact Multiset.singleton_add _ _

theorem keys_add_of_some (hcurrent : h.current = some pin) (rest : Multiset FrameKey) :
    h.keys + rest = pin.key ::ₘ (h.headerPin.key ::ₘ rest) := by
  unfold keys
  rw [hcurrent, Multiset.cons_add, Multiset.cons_swap]
  exact congrArg _ (Multiset.singleton_add _ _)

/-- At most two pages are pinned. -/
theorem card_keys_le (h : HeapFile) : h.keys.card ≤ 2 := by
  unfold keys
  rw [Multiset.card_cons]
  cases h.current with
  | none => exact Nat.le_succ 1
  | some pin => exact Nat.le_refl 2

variable {σ α : Type} [FileStore σ]

/-- The pins of an open heap file and those in `rest` are all pins of the pool, and the openings of
files are accounted for. -/
structure Entrusted (books : FileStore.Books σ) (capacity : Nat) (rest : Multiset FrameKey)
    (files : Multiset FileHandle) (file : FileHandle) (s : HeapState σ) : Prop where
  accounts : s.db.Accounts books capacity (s.heap.keys + rest) files
  file : s.heap.file = file
  onFile : s.heap.OnFile

variable {books : FileStore.Books σ} {capacity : Nat} {rest : Multiset FrameKey}
variable {files : Multiset FileHandle} {file : FileHandle} {s : HeapState σ}

theorem Entrusted.samePins (h : Entrusted books capacity rest files file s)
    (hsame : SamePins s.heap h') : Entrusted books capacity rest files file ⟨s.db, h'⟩ where
  accounts := hsame.keys_eq ▸ h.accounts
  file := hsame.file.trans h.file
  onFile := hsame.onFile h.onFile

/-- The current page is given up, which leaves its pin to the rest. -/
theorem Entrusted.detach (h : Entrusted books capacity rest files file s)
    (hcurrent : s.heap.current = some pin) :
    Entrusted books capacity (pin.key ::ₘ rest) files file
      ⟨s.db, { s.heap with current := none }⟩ where
  accounts := by
    have haccounts := h.accounts
    rw [keys_add_of_some hcurrent, Multiset.cons_swap] at haccounts
    rwa [keys_add_of_none rfl]
  file := h.file
  onFile := ⟨h.onFile.headerKey, nofun⟩

/-- A pin of the rest becomes the one on the current page. -/
theorem Entrusted.attach (h : Entrusted books capacity (pin.key ::ₘ rest) files file s)
    (hcurrent : s.heap.current = none) (hpin : pin.key.file = file.id) {heap : HeapFile}
    (hfile : heap.file = s.heap.file) (hheader : heap.headerPin = s.heap.headerPin)
    (hnew : heap.current = some pin) :
    Entrusted books capacity rest files file ⟨s.db, heap⟩ where
  accounts := by
    have haccounts := h.accounts
    rw [keys_add_of_none hcurrent, Multiset.cons_swap] at haccounts
    rwa [keys_add_of_some hnew, hheader]
  file := hfile.trans h.file
  onFile := by
    refine ⟨by rw [hheader, hfile, h.onFile.headerKey], fun key hkey => ?_⟩
    rw [hnew] at hkey
    cases hkey
    rw [hfile, h.file, hpin]

/-! ## Operations that need no frame -/

section NotExhausted

variable {cause : StorageError → Prop}

theorem preserves_onDatabase {x : Action (Database σ) α}
    (hx : ∀ held, Preserves (Database.Accounts books capacity held files) cause x) :
    Preserves (Entrusted books capacity rest files file) cause (onDatabase x) :=
  fun s h => allows_onPart ((hx (s.heap.keys + rest) h.accounts).mono
    (fun _ _ haccounts => ⟨haccounts, h.file, h.onFile⟩)
    fun _ _ hpost => ⟨hpost.1, hpost.2, h.file, h.onFile⟩)

/-- What is remembered about the open file may change, but not its pins. -/
theorem preserves_modifyHeap {f : HeapFile → HeapFile} (hf : ∀ h, SamePins h (f h)) :
    Preserves (Entrusted books capacity rest files file) cause
      (modifyHeap f : HeapAction σ Unit) := preserves_modify fun s h => h.samePins (hf s.heap)

theorem samePins_markHeader (h : HeapFile) :
    SamePins h { h with headerPin := h.headerPin.markDirty } := ⟨rfl, rfl, rfl⟩

theorem samePins_markCurrent (h : HeapFile) :
    SamePins h { h with current := h.current.map Pin.markDirty } :=
  ⟨rfl, rfl, by rw [Option.map_map]; rfl⟩

theorem preserves_header :
    Preserves (Entrusted books capacity rest files file) Database.NotExhausted header :=
  preserves_get fun _ h => preserves_bind
    (preserves_onDatabase fun _ => Database.preserves_pageOf _)
    (fun _ => preserves_ofResult (HeapHeader.notExhausted_read _)) h

theorem preserves_updateHeader {f : HeapHeader → Result HeapHeader}
    (hf : ∀ header, (f header).NotExhausted) :
    Preserves (Entrusted books capacity rest files file) Database.NotExhausted
      (updateHeader f) := by
  refine preserves_bind (preserves_modifyHeap samePins_markHeader) fun _ =>
    preserves_get fun _ h => ?_
  refine preserves_bind (preserves_onDatabase fun _ => Database.preserves_pageOf _)
    (fun page => ?_) h
  refine preserves_bind (preserves_ofResult (HeapHeader.notExhausted_read _)) fun old => ?_
  refine preserves_bind (preserves_ofResult (hf old)) fun new => ?_
  exact preserves_bind (preserves_ofResult (new.notExhausted_write _)) fun page =>
    preserves_onDatabase fun _ => Database.preserves_setPage _ page

/-- The hold on the current page is the one that the open file has. -/
theorem allows_currentPin (h : Entrusted books capacity rest files file s) :
    currentPin.Allows s (fun pin t => s = t ∧ s.heap.current = some pin)
      (fun e t => Database.NotExhausted e ∧ Entrusted books capacity rest files file t) := by
  refine allows_get ?_
  split
  · next pin hcurrent => exact allows_pure ⟨rfl, hcurrent⟩
  · exact allows_refuse ⟨by simp, h⟩

theorem preserves_currentPin :
    Preserves (Entrusted books capacity rest files file) Database.NotExhausted currentPin :=
  fun _ h => (allows_currentPin h).mono (fun _ _ hpost => hpost.1 ▸ h) fun _ _ hpost => hpost

theorem preserves_currentPage :
    Preserves (Entrusted books capacity rest files file) Database.NotExhausted currentPage :=
  preserves_bind preserves_currentPin fun pin =>
    preserves_bind (preserves_onDatabase fun _ => Database.preserves_pageOf pin) fun _ =>
      preserves_ofResult (SlottedPage.notExhausted_read _)

theorem preserves_updatePage {f : SlottedPage → Result (α × SlottedPage)}
    (hf : ∀ page, (f page).NotExhausted) :
    Preserves (Entrusted books capacity rest files file) Database.NotExhausted
      (updatePage f) := fun s h => by
  refine allows_bind (allows_currentPin h) ?_
  rintro pin _ ⟨rfl, hcurrent⟩
  have hsame : SamePins s.heap { s.heap with current := some pin.markDirty } :=
    ⟨rfl, rfl, by rw [hcurrent]; rfl⟩
  refine allows_modify_bind (preserves_bind
    (preserves_onDatabase fun _ => Database.preserves_pageOf _) (fun data => ?_) (h.samePins hsame))
  refine preserves_bind (preserves_ofResult (SlottedPage.notExhausted_read _)) fun page => ?_
  refine preserves_bind (preserves_ofResult (hf page)) fun answer => ?_
  exact preserves_bind (preserves_onDatabase fun _ => Database.preserves_setPage _ _) fun _ =>
    preserves_pure _

/-- The current page is given up even if that is refused. -/
theorem allows_releaseCurrent (h : Entrusted books capacity rest files file s) :
    releaseCurrent.Allows s
      (fun _ t => Entrusted books capacity rest files file t ∧ t.heap.current = none)
      (fun e t => Database.NotExhausted e ∧ Entrusted books capacity rest files file t) := by
  refine allows_get ?_
  cases hcurrent : s.heap.current with
  | none => exact allows_pure ⟨h, hcurrent⟩
  | some pin =>
    have hdetached := h.detach hcurrent
    have haccounts := hdetached.accounts
    rw [Multiset.add_cons] at haccounts
    have hreleased (db : Database σ) (hdb : Database.Accounts books capacity
        (keys { s.heap with current := none } + rest) files db) :
        Entrusted books capacity rest files file ⟨db, { s.heap with current := none }⟩ :=
      ⟨hdb, hdetached.file, hdetached.onFile⟩
    exact allows_modify_bind (allows_onPart ((Database.allows_release haccounts).mono
      (fun _ db hdb => ⟨hreleased db hdb, rfl⟩) fun _ db hdb => ⟨hdb.1, hreleased db hdb.2⟩))

theorem preserves_releaseCurrent :
    Preserves (Entrusted books capacity rest files file) Database.NotExhausted releaseCurrent :=
  fun _ h => (allows_releaseCurrent h).mono (fun _ _ hpost => hpost.1) fun _ _ hpost => hpost

theorem preserves_endScan :
    Preserves (Entrusted books capacity rest files file) Database.NotExhausted endScan :=
  preserves_thenAlways preserves_releaseCurrent (preserves_modifyHeap fun _ => ⟨rfl, rfl, rfl⟩)

theorem preserves_currentRecord :
    Preserves (Entrusted books capacity rest files file) Database.NotExhausted
      (currentRecord : HeapAction σ RecordId) := by
  refine preserves_get fun s h => ?_
  simp only
  split
  · split
    · exact allows_pure h
    · exact allows_refuse ⟨by simp, h⟩
  · exact allows_refuse ⟨by simp, h⟩

theorem preserves_readCurrent :
    Preserves (Entrusted books capacity rest files file) Database.NotExhausted readCurrent :=
  preserves_bind preserves_currentRecord fun _ => preserves_bind preserves_currentPage
    fun page => preserves_ofResult (page.notExhausted_get _)

theorem preserves_modifyCurrent (edit : Edit) :
    Preserves (Entrusted books capacity rest files file) Database.NotExhausted
      (modifyCurrent edit) :=
  preserves_bind preserves_currentRecord fun rid => preserves_updatePage fun page =>
    (page.notExhausted_modify rid.slot edit).map _

theorem preserves_deleteCurrent :
    Preserves (Entrusted books capacity rest files file) Database.NotExhausted deleteCurrent :=
  preserves_bind preserves_currentRecord fun rid => preserves_bind
    (preserves_updatePage fun page => (page.notExhausted_delete rid.slot).map _)
    fun _ => preserves_updateHeader fun _ => Result.notExhausted_ok _

theorem preserves_markDirty :
    Preserves (Entrusted books capacity rest files file) Database.NotExhausted
      (markDirty : HeapAction σ Unit) := preserves_modifyHeap samePins_markCurrent

theorem preserves_tryInsert (record : Bytes) :
    Preserves (Entrusted books capacity rest files file) Database.NotExhausted
      (tryInsert record) := by
  refine preserves_attempt_bind (preserves_updatePage fun page => page.notExhausted_insert record)
    (fun slot => ?_) fun e he => ?_
  · refine preserves_bind preserves_currentPin fun pin => preserves_bind
      (preserves_modifyHeap fun _ => ⟨rfl, rfl, rfl⟩) fun _ => preserves_bind
        (preserves_updateHeader fun header => ?_) fun _ => preserves_pure _
    exact (notExhausted_count32 _).bind fun _ => Result.notExhausted_ok _
  · split
    · cases ‹Except.error e = Except.ok _›
    · exact preserves_pure _
    · next heq =>
      cases heq
      exact preserves_refuse he

end NotExhausted

/-! ## Operations that go to other pages -/

section Frames

/-- The pool is exhausted only if the header page, the pages that others have pinned and one more
page take all frames. -/
abbrev Crowded (capacity : Nat) (file : FileHandle) (rest : Multiset FrameKey) (e : StorageError) :
    Prop :=
  e.Justified capacity ((⟨file.id, ⟨1⟩⟩ ::ₘ rest).toFinset.card + 1)

theorem crowded_of_notExhausted (e : StorageError) (he : Database.NotExhausted e) :
    Crowded capacity file rest e := StorageError.justified_of_ne he

/-- The pages of the open file and of the others are the header page, the pages of the others and
one more at most. -/
theorem card_keys_add_le (h : HeapFile) (rest : Multiset FrameKey) :
    (h.keys + rest).toFinset.card ≤ (h.headerPin.key ::ₘ rest).toFinset.card + 1 := by
  cases hcurrent : h.current with
  | none =>
    rw [keys_add_of_none hcurrent]
    exact Nat.le_succ _
  | some pin =>
    rw [keys_add_of_some hcurrent]
    exact FrameKey.card_toFinset_cons_le _ _

/-- One more page is pinned. -/
theorem allows_takePin {x : Action (Database σ) Pin} {p : Pin → Prop}
    (h : Entrusted books capacity rest files file s)
    (hx : x.Allows s.db
      (fun pin db => p pin ∧
        Database.Accounts books capacity (pin.key ::ₘ (s.heap.keys + rest)) files db)
      (fun e db => e.Justified capacity (s.heap.keys + rest).toFinset.card ∧
        Database.Accounts books capacity (s.heap.keys + rest) files db)) :
    (onDatabase x).Allows s
      (fun pin t => p pin ∧ t.heap = s.heap ∧
        Entrusted books capacity (pin.key ::ₘ rest) files file t)
      (fun e t => Crowded capacity file rest e ∧ Entrusted books capacity rest files file t) := by
  refine allows_onPart (hx.mono ?_ ?_)
  · rintro pin db ⟨hpin, hdb⟩
    rw [← Multiset.add_cons] at hdb
    exact ⟨hpin, rfl, hdb, h.file, h.onFile⟩
  · rintro e db ⟨he, hdb⟩
    refine ⟨he.mono ?_, hdb, h.file, h.onFile⟩
    have hle := s.heap.card_keys_add_le rest
    rwa [h.onFile.headerKey, h.file] at hle

theorem preserves_switchTo (page : PageId) :
    Preserves (Entrusted books capacity rest files file) (Crowded capacity file rest)
      (switchTo page) := by
  have hposition : Preserves (Entrusted books capacity rest files file) (Crowded capacity file rest)
      (modifyHeap fun h => { h with position := some page } : HeapAction σ Unit) :=
    preserves_modifyHeap fun _ => ⟨rfl, rfl, rfl⟩
  refine preserves_get fun s h => ?_
  simp only
  split
  · refine allows_bind ((allows_releaseCurrent h).because crowded_of_notExhausted) ?_
    rintro _ t ⟨ht, hcurrent⟩
    refine allows_bind (allows_takePin ht (Database.allows_pin ht.accounts _ page)) ?_
    rintro pin t' ⟨hkey, hheap, ht'⟩
    have hpin : pin.key.file = file.id := by rw [hkey, h.file]
    exact allows_modify_bind (hposition (ht'.attach (hheap ▸ hcurrent) hpin rfl rfl rfl))
  · exact hposition h

theorem preserves_getRecord (rid : RecordId) :
    Preserves (Entrusted books capacity rest files file) (Crowded capacity file rest)
      (getRecord rid) := by
  refine preserves_bind (preserves_switchTo rid.page) fun _ =>
    preserves_bind (preserves_currentPage.mono crowded_of_notExhausted) fun page => ?_
  split
  · exact preserves_bind (preserves_modifyHeap fun _ => ⟨rfl, rfl, rfl⟩) fun _ => preserves_pure _
  · exact preserves_refuse (crowded_of_notExhausted _ (by simp))

theorem preserves_resetTo (mark : Option ScanMark) :
    Preserves (Entrusted books capacity rest files file) (Crowded capacity file rest)
      (resetTo mark) := by
  unfold resetTo
  split
  · exact preserves_refuse (crowded_of_notExhausted _ (by simp))
  · next mark =>
    have hrecord : Preserves (Entrusted books capacity rest files file) (Crowded capacity file rest)
        (modifyHeap fun h => { h with record := mark.record } : HeapAction σ Unit) :=
      preserves_modifyHeap fun _ => ⟨rfl, rfl, rfl⟩
    split
    · exact preserves_bind (preserves_switchTo _) fun _ => hrecord
    · exact preserves_bind (preserves_modifyHeap fun _ => ⟨rfl, rfl, rfl⟩) fun _ => hrecord

/-! ### Scans -/

theorem preserves_scanPage (filter : Option Filter) (page : PageId) :
    Preserves (Entrusted books capacity rest files file) (Crowded capacity file rest)
      (scanPage filter page) := by
  refine preserves_bind (preserves_switchTo page) fun _ => preserves_get fun s h => ?_
  refine preserves_bind (preserves_currentPage.mono crowded_of_notExhausted) (fun data => ?_) h
  refine preserves_bind (preserves_ofResult fun e he =>
    crowded_of_notExhausted e (data.notExhausted_findPassing _ _ e he)) fun found => ?_
  split
  · exact preserves_bind (preserves_modifyHeap fun _ => ⟨rfl, rfl, rfl⟩) fun _ => preserves_pure _
  · exact preserves_bind (preserves_modifyHeap fun _ => ⟨rfl, rfl, rfl⟩) fun _ => preserves_pure _

theorem preserves_scanChain (filter : Option Filter) (steps : Nat) (start : Option PageId) :
    Preserves (Entrusted books capacity rest files file) (Crowded capacity file rest)
      (scanChain filter steps start) := by
  have hend : Preserves (Entrusted books capacity rest files file) (Crowded capacity file rest)
      (do modifyHeap fun h => { h with position := none }; return none :
        HeapAction σ (Option RecordId)) :=
    preserves_bind (preserves_modifyHeap fun _ => ⟨rfl, rfl, rfl⟩) fun _ => preserves_pure _
  induction steps generalizing start with
  | zero =>
    cases start with
    | none => exact hend
    | some page => exact preserves_stop _
  | succ k ih =>
    cases start with
    | none => exact hend
    | some page =>
      refine preserves_bind (preserves_scanPage filter page) fun answer => ?_
      split
      · exact preserves_pure _
      · exact ih _

theorem preserves_walkBound :
    Preserves (Entrusted books capacity rest files file) Database.NotExhausted walkBound :=
  preserves_get fun _ h => preserves_bind
    (preserves_onDatabase fun _ => Database.preserves_onFiles fun hs => books.count hs _)
    (fun _ => preserves_pure _) h

theorem preserves_scanNext (filter : Option Filter) :
    Preserves (Entrusted books capacity rest files file) (Crowded capacity file rest)
      (scanNext filter) :=
  preserves_bind (preserves_walkBound.mono crowded_of_notExhausted) fun bound =>
    preserves_get fun _ h => preserves_scanChain filter bound _ h

/-! ### Inserts -/

/-- While a new page is linked to the chain it is pinned beside the header page and the last page,
which is given up in the end. -/
theorem allows_linkPage {pin : Pin}
    (h : Entrusted books capacity (pin.key ::ₘ rest) files file s) :
    (do
      let page ← Action.ofResult
        (SlottedPage.format (← onDatabase (Database.pageOf pin)) pin.key.page)
      onDatabase (Database.setPage pin page.data)
      updatePage fun page => .ok ((), page.setNext (some pin.key.page))
      updateHeader fun h => do
        let count ← count32 (h.pageCount.toNat + 1)
        return { h with lastPage := pin.key.page, pageCount := count }
      modifyHeap fun h => { h with current := h.current.map Pin.markDirty }
      releaseCurrent : HeapAction σ Unit).Allows s
      (fun _ t => Entrusted books capacity (pin.key ::ₘ rest) files file t ∧ t.heap.current = none)
      (fun e t => Database.NotExhausted e ∧
        Entrusted books capacity (pin.key ::ₘ rest) files file t) := by
  refine allows_bind (preserves_onDatabase (fun _ => Database.preserves_pageOf pin) h)
    fun data _ h => ?_
  refine allows_bind (preserves_ofResult (SlottedPage.notExhausted_format data _) h)
    fun page _ h => ?_
  refine allows_bind (preserves_onDatabase (fun _ => Database.preserves_setPage _ _) h)
    fun _ _ h => ?_
  refine allows_bind (preserves_updatePage (fun _ => Result.notExhausted_ok _) h) fun _ _ h => ?_
  refine allows_bind (preserves_updateHeader (fun _ =>
    (notExhausted_count32 _).bind fun _ => Result.notExhausted_ok _) h) fun _ _ h => ?_
  refine allows_bind (preserves_modifyHeap samePins_markCurrent h) fun _ _ h => ?_
  exact allows_releaseCurrent h

/-- The pin on a new page is given back. -/
theorem allows_dropPin {pin : Pin}
    (h : Entrusted books capacity (pin.key ::ₘ rest) files file s)
    {refused : StorageError → HeapState σ → Prop} :
    (onDatabase (Database.drop pin)).Allows s
      (fun _ => Entrusted books capacity rest files file) refused := by
  have haccounts := h.accounts
  rw [Multiset.add_cons] at haccounts
  exact allows_onPart ((Database.allows_drop haccounts).mono
    (fun _ _ hdb => ⟨hdb, h.file, h.onFile⟩) fun _ _ hpost => hpost)

variable (hfile : file ∈ files)
include hfile

theorem preserves_appendPage :
    Preserves (Entrusted books capacity rest files file) (Crowded capacity file rest)
      appendPage := by
  refine preserves_bind (preserves_currentPage.mono crowded_of_notExhausted) fun tail => ?_
  simp only
  split
  · exact preserves_refuse_bind (crowded_of_notExhausted _ (by simp)) _
  · refine preserves_get fun s h => ?_
    have hallocate := Database.allows_allocate h.accounts hfile
    rw [← h.file] at hallocate
    refine allows_bind (allows_takePin h hallocate) ?_
    rintro pin t ⟨hpin, -, ht⟩
    refine allows_bind (((allows_linkPage ht).orClean fun _ ht' => allows_dropPin ht').because
      crowded_of_notExhausted) ?_
    rintro _ t' ⟨ht', hcurrent⟩
    exact allows_modify (ht'.attach hcurrent (hpin.trans (congrArg _ h.file)) rfl rfl rfl)

theorem preserves_advance :
    Preserves (Entrusted books capacity rest files file) (Crowded capacity file rest) advance := by
  refine preserves_bind (preserves_header.mono crowded_of_notExhausted) fun header =>
    preserves_get fun s h => ?_
  split
  · exact preserves_appendPage hfile h
  · exact preserves_switchTo _ h

theorem preserves_insertWithin (record : Bytes) (attempts : Nat) :
    Preserves (Entrusted books capacity rest files file) (Crowded capacity file rest)
      (insertWithin record attempts) := by
  induction attempts with
  | zero => exact preserves_stop _
  | succ k ih =>
    refine preserves_bind ((preserves_tryInsert record).mono crowded_of_notExhausted)
      fun answer => ?_
    split
    · exact preserves_pure _
    · exact preserves_bind (preserves_advance hfile) fun _ => ih

theorem preserves_insert (record : Bytes) :
    Preserves (Entrusted books capacity rest files file) (Crowded capacity file rest)
      (insert record) := by
  unfold insert
  split
  · exact preserves_refuse (crowded_of_notExhausted _ (by simp))
  · refine preserves_get fun s h => ?_
    have hinsert : Preserves (Entrusted books capacity rest files file) (Crowded capacity file rest)
        (insertWithin record 3) := preserves_insertWithin hfile record 3
    split
    · refine preserves_bind (preserves_header.mono crowded_of_notExhausted) (fun header => ?_) h
      exact preserves_bind (preserves_switchTo _) fun _ => hinsert
    · exact hinsert h

end Frames

end HeapFile

end PagedHeap
