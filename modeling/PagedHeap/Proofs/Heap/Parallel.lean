import PagedHeap.Heap.Insert
import PagedHeap.Heap.Scan
import PagedHeap.Proofs.Pool.Parallel

/-!
# Open heap files over two stores

The operations on an open heap file are made of those on the pool, so that they come to the same end
over two stores side by side.  The open heap file is then the same on both sides, and stands for the
same file as before.
-/

namespace PagedHeap

open PagedHeap.Action

namespace Database

variable {exact : Prop} {σ τ : Type} [PageStore σ] [PageStore τ]
variable {par : PageStore.Parallel exact σ τ}

/-- The first pages of a file are pinned for both. -/
theorem agrees_pinFirstPages {file : FileHandle} (hknown : par.known file.id) {d : Database σ}
    {e : Database τ} (h : par.Db d e) :
    Agrees exact (pinFirstPages file) (pinFirstPages file) d e
      (fun heap d' e' => par.Db d' e' ∧ heap.file = file) (fun _ => par.Db) := by
  refine agrees_bind (keeps_firstPage hknown h) fun page _ _ h => ?_
  refine agrees_bind (keeps_pin hknown page h) fun headerPin _ _ h => agrees_orClean ?_
  have hclean {d : Database σ} {e : Database τ} (h : par.Db d e) (pin : Pin) :
      Agrees exact (drop pin) (drop pin) d e (fun _ => par.Db) (fun _ => par.Db) := keeps_drop pin h
  refine agrees_bind ((keeps_pageOf headerPin h).mono (fun _ _ _ => id) fun _ _ _ h => hclean h _)
    fun data _ _ h => ?_
  refine agrees_ofResult_bind (fun header _ => ?_) fun _ _ => hclean h _
  refine agrees_bind ((keeps_pin hknown _ h).mono (fun _ _ _ => id) fun _ _ _ h => hclean h _)
    fun firstPin _ _ h => ?_
  refine agrees_bind (p := fun _ => par.Db) (agrees_orClean ?_) fun _ _ _ h => agrees_pure ⟨h, rfl⟩
  have hcheck : Keeps exact par.Db
      (do let _ ← Action.ofResult (SlottedPage.read (← pageOf firstPin)) : Action (Database σ) Unit)
      (do let _ ← Action.ofResult (SlottedPage.read (← pageOf firstPin))) :=
    keeps_bind (keeps_pageOf firstPin) fun _ => keeps_bind (keeps_ofResult _) fun _ => keeps_pure _
  exact (hcheck h).mono (fun _ _ _ => id) fun _ _ _ h => (keeps_drop firstPin h).mono
    (fun _ _ _ h => hclean h _) fun _ _ _ h => hclean h _

/-- A file is laid out for both. -/
theorem keeps_formatHeap {σ τ : Type} [FileStore σ] [FileStore τ]
    {par : PageStore.Parallel exact σ τ} (hexact : ¬exact) {file : FileHandle}
    (hknown : par.known file.id) (name : String) :
    Keeps exact par.Db (formatHeap file name) (formatHeap file name) := by
  have hdrops (firstPin headerPin : Pin) : Keeps exact par.Db
      (do drop firstPin; drop headerPin : Action (Database σ) Unit)
      (do drop firstPin; drop headerPin) :=
    keeps_bind (keeps_drop firstPin) fun _ => keeps_drop headerPin
  refine keeps_bind (keeps_allocate hexact hknown) fun headerPin => ?_
  refine keeps_bind (keeps_orClean (keeps_allocate hexact hknown) (keeps_drop headerPin))
    fun firstPin => ?_
  refine keeps_bind (keeps_orClean ?_ (hdrops firstPin headerPin)) fun _ => ?_
  · refine keeps_bind (keeps_pageOf firstPin) fun page => keeps_bind (keeps_ofResult _)
      fun first => keeps_bind (keeps_setPage firstPin _) fun _ => ?_
    refine keeps_bind (keeps_ofResult _) fun header => keeps_bind (keeps_pageOf headerPin)
      fun page => ?_
    exact keeps_bind (keeps_ofResult _) fun page => keeps_setPage headerPin page
  · refine keeps_bind (keeps_orClean (keeps_release headerPin) (keeps_drop firstPin)) fun _ => ?_
    exact keeps_bind (keeps_release firstPin) fun _ => keeps_flushFile file.id

end Database

namespace HeapFile

variable {exact : Prop} {σ τ α : Type} [PageStore σ] [PageStore τ]

/-- The same heap file is open over both stores. -/
structure Parallel (par : PageStore.Parallel exact σ τ) (file : FileHandle) (s : HeapState σ)
    (t : HeapState τ) : Prop where
  db : par.Db s.db t.db
  heap : t.heap = s.heap
  file : s.heap.file = file

variable {par : PageStore.Parallel exact σ τ} {file : FileHandle}

theorem keeps_onDatabase {x : Action (Database σ) α} {y : Action (Database τ) α}
    (h : Keeps exact par.Db x y) :
    Keeps exact (Parallel par file) (onDatabase x) (onDatabase y) :=
  keeps_onPart h (fun _ _ hst => hst.db) fun _ _ _ _ hst hdb => ⟨hdb, hst.heap, hst.file⟩

theorem keeps_modifyHeap {f : HeapFile → HeapFile} (hf : ∀ h, (f h).file = h.file) :
    Keeps exact (Parallel par file) (modifyHeap f) (modifyHeap f) :=
  keeps_modify fun _ _ h => ⟨h.db, congrArg f h.heap, (hf _).trans h.file⟩

/-! ## The header and the current page -/

section Reads

variable {s : HeapState σ} {t : HeapState τ} (h : Parallel par file s t)
include h

/-- A held page is read for both, and nothing is done. -/
theorem agrees_readPage (pin : Pin) (f : Page → Result α) :
    Agrees exact (do Action.ofResult (f (← onDatabase (Database.pageOf pin))))
      (do Action.ofResult (f (← onDatabase (Database.pageOf pin)))) s t
      (fun _ s' t' => s' = s ∧ t' = t) fun _ s' t' => s' = s ∧ t' = t := by
  refine .of_left (b := s.db.pool.page pin) rfl (.of_right (b := t.db.pool.page pin) rfl ?_)
  rw [h.db.pool]
  exact agrees_ofResult (fun _ _ => ⟨rfl, rfl⟩) fun _ _ => ⟨rfl, rfl⟩

theorem agrees_header :
    Agrees exact header header s t (fun _ s' t' => s' = s ∧ t' = t)
      fun _ s' t' => s' = s ∧ t' = t := by
  refine agrees_get ?_
  rw [h.heap]
  exact agrees_readPage h _ HeapHeader.read

theorem agrees_currentPage :
    Agrees exact currentPage currentPage s t (fun _ s' t' => s' = s ∧ t' = t)
      fun _ s' t' => s' = s ∧ t' = t := by
  refine agrees_bind (p := fun _ s' t' => s' = s ∧ t' = t) (agrees_get ?_) ?_
  · rw [h.heap]
    cases s.heap.current with
    | some pin => exact agrees_pure ⟨rfl, rfl⟩
    | none => exact agrees_refuse ⟨rfl, rfl⟩
  · rintro pin _ _ ⟨rfl, rfl⟩
    exact agrees_readPage h pin SlottedPage.read

end Reads

theorem keeps_header : Keeps exact (Parallel par file) header header := fun _ _ h =>
  (agrees_header h).mono (fun _ _ _ => by rintro ⟨rfl, rfl⟩; exact h)
    fun _ _ _ => by rintro ⟨rfl, rfl⟩; exact h

theorem keeps_updateHeader (f : HeapHeader → Result HeapHeader) :
    Keeps exact (Parallel par file) (updateHeader f) (updateHeader f) := by
  refine keeps_bind (keeps_modifyHeap fun _ => rfl) fun _ => keeps_get fun s t h => ?_
  simp only [h.heap]
  refine keeps_bind (keeps_onDatabase (Database.keeps_pageOf _)) (fun page => ?_) h
  refine keeps_bind (keeps_ofResult _) fun old => keeps_bind (keeps_ofResult _) fun new => ?_
  exact keeps_bind (keeps_ofResult _) fun page => keeps_onDatabase (Database.keeps_setPage _ _)

theorem keeps_currentPin : Keeps exact (Parallel par file) currentPin currentPin :=
  keeps_get fun s t h => by
    rw [h.heap]
    cases s.heap.current with
    | some pin => exact agrees_pure h
    | none => exact agrees_refuse h

theorem keeps_currentPage : Keeps exact (Parallel par file) currentPage currentPage := fun _ _ h =>
  (agrees_currentPage h).mono (fun _ _ _ => by rintro ⟨rfl, rfl⟩; exact h)
    fun _ _ _ => by rintro ⟨rfl, rfl⟩; exact h

theorem keeps_updatePage (f : SlottedPage → Result (α × SlottedPage)) :
    Keeps exact (Parallel par file) (updatePage f) (updatePage f) := by
  refine keeps_bind keeps_currentPin fun pin => keeps_bind (keeps_modifyHeap fun _ => rfl)
    fun _ => keeps_bind (keeps_onDatabase (Database.keeps_pageOf _)) fun page => ?_
  refine keeps_bind (keeps_ofResult _) fun page => keeps_bind (keeps_ofResult _) fun answer => ?_
  exact keeps_bind (keeps_onDatabase (Database.keeps_setPage _ _)) fun _ => keeps_pure _

theorem keeps_releaseCurrent : Keeps exact (Parallel par file) releaseCurrent releaseCurrent :=
  keeps_get fun s t h => by
    rw [h.heap]
    cases s.heap.current with
    | none => exact agrees_pure h
    | some pin =>
      refine keeps_bind ?_ (fun _ => keeps_onDatabase (Database.keeps_release pin)) h
      exact keeps_modifyHeap fun _ => rfl

theorem keeps_endScan : Keeps exact (Parallel par file) endScan endScan :=
  keeps_thenAlways keeps_releaseCurrent (keeps_modifyHeap fun _ => rfl)

/-! ## The current record -/

theorem keeps_currentRecord : Keeps exact (Parallel par file) currentRecord currentRecord :=
  keeps_get fun s t h => by
    simp only [h.heap]
    cases s.heap.record with
    | none => exact agrees_refuse h
    | some rid =>
      simp only
      split
      · exact agrees_pure h
      · exact agrees_refuse h

theorem keeps_readCurrent : Keeps exact (Parallel par file) readCurrent readCurrent :=
  keeps_bind keeps_currentRecord fun _ => keeps_bind keeps_currentPage fun _ => keeps_ofResult _

theorem keeps_modifyCurrent (edit : Edit) :
    Keeps exact (Parallel par file) (modifyCurrent edit) (modifyCurrent edit) :=
  keeps_bind keeps_currentRecord fun _ => keeps_updatePage _

theorem keeps_deleteCurrent : Keeps exact (Parallel par file) deleteCurrent deleteCurrent :=
  keeps_bind keeps_currentRecord fun _ => keeps_bind (keeps_updatePage _) fun _ =>
    keeps_updateHeader _

theorem keeps_markDirty : Keeps exact (Parallel par file) markDirty markDirty :=
  keeps_modifyHeap fun _ => rfl

theorem keeps_tryInsert (record : Bytes) :
    Keeps exact (Parallel par file) (tryInsert record) (tryInsert record) := by
  refine keeps_bind (keeps_attempt (keeps_updatePage _)) fun answer => ?_
  split
  · refine keeps_bind keeps_currentPin fun pin => keeps_bind (keeps_modifyHeap fun _ => rfl)
      fun _ => ?_
    exact keeps_bind (keeps_updateHeader _) fun _ => keeps_pure _
  · exact keeps_pure _
  · exact keeps_refuse _

/-! ## Going to other pages -/

variable (hknown : par.known file.id)

section Switch

include hknown

theorem keeps_switchTo (page : PageId) :
    Keeps exact (Parallel par file) (switchTo page) (switchTo page) :=
  keeps_get fun s t h => by
    have hfile : par.known s.heap.file.id := h.file ▸ hknown
    have hposition : Keeps exact (Parallel par file)
        (modifyHeap fun h => { h with position := some page } : HeapAction σ Unit)
        (modifyHeap fun h => { h with position := some page }) := keeps_modifyHeap fun _ => rfl
    simp only [h.heap]
    split
    · refine keeps_bind keeps_releaseCurrent (fun _ => ?_) h
      refine keeps_bind (keeps_onDatabase (Database.keeps_pin hfile page)) fun pin => ?_
      exact keeps_bind (keeps_modifyHeap fun _ => rfl) fun _ => hposition
    · exact hposition h

theorem keeps_getRecord (rid : RecordId) :
    Keeps exact (Parallel par file) (getRecord rid) (getRecord rid) := by
  refine keeps_bind (keeps_switchTo hknown rid.page) fun _ => keeps_bind keeps_currentPage
    fun page => ?_
  split
  · exact keeps_bind (keeps_modifyHeap fun _ => rfl) fun _ => keeps_pure _
  · exact keeps_refuse _

theorem keeps_resetTo (mark : Option ScanMark) :
    Keeps exact (Parallel par file) (resetTo mark) (resetTo mark) := by
  unfold resetTo
  split
  · exact keeps_refuse _
  · next mark =>
    have hrecord : Keeps exact (Parallel par file)
        (modifyHeap fun h => { h with record := mark.record } : HeapAction σ Unit)
        (modifyHeap fun h => { h with record := mark.record }) := keeps_modifyHeap fun _ => rfl
    split
    · exact keeps_bind (keeps_switchTo hknown _) fun _ => hrecord
    · exact keeps_bind (keeps_modifyHeap fun _ => rfl) fun _ => hrecord

theorem keeps_scanPage (filter : Option Filter) (page : PageId) :
    Keeps exact (Parallel par file) (scanPage filter page) (scanPage filter page) := by
  refine keeps_bind (keeps_switchTo hknown page) fun _ => keeps_get fun s t h => ?_
  simp only [h.heap]
  refine keeps_bind keeps_currentPage (fun data => ?_) h
  refine keeps_bind (keeps_ofResult _) fun found => ?_
  split
  · exact keeps_bind (keeps_modifyHeap fun _ => rfl) fun _ => keeps_pure _
  · exact keeps_bind (keeps_modifyHeap fun _ => rfl) fun _ => keeps_pure _

theorem keeps_scanChain (filter : Option Filter) (steps : Nat) (start : Option PageId) :
    Keeps exact (Parallel par file) (scanChain filter steps start)
      (scanChain filter steps start) := by
  have hend : Keeps exact (Parallel par file)
      (do modifyHeap fun h => { h with position := none }; return none :
        HeapAction σ (Option RecordId))
      (do modifyHeap fun h => { h with position := none }; return none) :=
    keeps_bind (keeps_modifyHeap fun _ => rfl) fun _ => keeps_pure _
  induction steps generalizing start with
  | zero =>
    cases start with
    | none => exact hend
    | some page => exact keeps_stop _
  | succ k ih =>
    cases start with
    | none => exact hend
    | some page =>
      refine keeps_bind (keeps_scanPage hknown filter page) fun answer => ?_
      split
      · exact keeps_pure _
      · exact ih _

theorem keeps_walkBound : Keeps exact (Parallel par file) walkBound walkBound :=
  keeps_get fun s t h => by
    have hfile : par.known s.heap.file.id := h.file ▸ hknown
    rw [h.heap, h.db.pool]
    exact keeps_bind (keeps_onDatabase (Database.keeps_onFiles (par.count hfile)))
      (fun _ => keeps_pure _) h

theorem keeps_scanNext (filter : Option Filter) :
    Keeps exact (Parallel par file) (scanNext filter) (scanNext filter) := by
  refine keeps_bind (keeps_walkBound hknown) fun bound => keeps_get fun s t h => ?_
  rw [h.heap]
  exact keeps_scanChain hknown filter bound _ h

end Switch

/-! ## Inserting -/

/-- A page is linked behind the current one for both, if it is allocated for both. -/
theorem agrees_appendPage {s : HeapState σ} {t : HeapState τ} (h : Parallel par file s t)
    (hallocate : Agrees exact (Database.allocate file.id) (Database.allocate file.id) s.db t.db
      (fun _ => par.Db) fun _ => par.Db) :
    Agrees exact appendPage appendPage s t (fun _ => Parallel par file)
      fun _ => Parallel par file := by
  refine agrees_bind ((agrees_currentPage h).mono (fun _ _ _ => id) ?_) ?_
  · rintro _ _ _ ⟨rfl, rfl⟩
    exact h
  rintro tail _ _ ⟨rfl, rfl⟩
  simp only
  split
  · exact keeps_refuse_bind _ _ _ h
  · refine agrees_get ?_
    rw [h.heap, h.file]
    refine agrees_bind (p := fun _ => Parallel par file) (agrees_onPart (hallocate.mono ?_ ?_)) ?_
    · exact fun _ _ _ hdb => ⟨hdb, h.heap, h.file⟩
    · exact fun _ _ _ hdb => ⟨hdb, h.heap, h.file⟩
    intro pin s' t' h'
    refine keeps_bind (keeps_orClean ?_ (keeps_onDatabase (Database.keeps_drop pin)))
      (fun _ => ?_) h'
    swap
    · exact keeps_modifyHeap fun _ => rfl
    refine keeps_bind (keeps_onDatabase (Database.keeps_pageOf pin)) fun data =>
      keeps_bind (keeps_ofResult _) fun page => ?_
    refine keeps_bind (keeps_onDatabase (Database.keeps_setPage _ _)) fun _ =>
      keeps_bind (keeps_updatePage _) fun _ => keeps_bind (keeps_updateHeader _) fun _ => ?_
    exact keeps_bind (keeps_modifyHeap fun _ => rfl) fun _ => keeps_releaseCurrent

include hknown in
/-- The way leads on for both. -/
theorem agrees_advance {s : HeapState σ} {t : HeapState τ} (h : Parallel par file s t)
    (hallocate : Agrees exact (Database.allocate file.id) (Database.allocate file.id) s.db t.db
      (fun _ => par.Db) fun _ => par.Db) :
    Agrees exact advance advance s t (fun _ => Parallel par file) fun _ => Parallel par file := by
  refine agrees_bind ((agrees_header h).mono (fun _ _ _ => id) ?_) ?_
  · rintro _ _ _ ⟨rfl, rfl⟩
    exact h
  rintro header _ _ ⟨rfl, rfl⟩
  refine agrees_get ?_
  simp only [h.heap]
  split
  · exact agrees_appendPage h hallocate
  · exact keeps_switchTo hknown _ h

section Insert

variable (hexact : ¬exact)
include hknown hexact

theorem keeps_advance : Keeps exact (Parallel par file) advance advance :=
  fun _ _ h => agrees_advance hknown h (Database.keeps_allocate hexact hknown h.db)

theorem keeps_insertWithin (record : Bytes) (attempts : Nat) :
    Keeps exact (Parallel par file) (insertWithin record attempts)
      (insertWithin record attempts) := by
  induction attempts with
  | zero => exact keeps_stop _
  | succ k ih =>
    refine keeps_bind (keeps_tryInsert record) fun answer => ?_
    split
    · exact keeps_pure _
    · exact keeps_bind (keeps_advance hknown hexact) fun _ => ih

theorem keeps_insert (record : Bytes) :
    Keeps exact (Parallel par file) (insert record) (insert record) := by
  unfold insert
  split
  · exact keeps_refuse _
  · refine keeps_get fun s t h => ?_
    simp only [h.heap]
    split
    · refine keeps_bind keeps_header (fun header => ?_) h
      exact keeps_bind (keeps_switchTo hknown _) fun _ => keeps_insertWithin hknown hexact record 3
    · exact keeps_insertWithin hknown hexact record 3 h

end Insert

end HeapFile

end PagedHeap
