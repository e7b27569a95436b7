import PagedHeap.Proofs.File.Measured
import PagedHeap.Proofs.Heap.Header
import PagedHeap.Proofs.Heap.Scan
import PagedHeap.Proofs.Page.Accepted
import PagedHeap.Proofs.Page.Change
import PagedHeap.Proofs.Pool.Tracked

/-!
# Heap files of any bytes

Of a heap file that was opened nothing was looked at but its header page and the header of its first
data page. What its pages hold besides may come from anywhere, and which pages it has pinned follows
from what was found there. All that can be relied on is that the pool has pages of the files only,
and that the current page is one of the file (`HeapFile.Housed`). Over both stores this is so when
the file was opened, and stays so while a scan goes through it; and looking through a page does not
stop with a fault, whatever the page holds.
-/

namespace PagedHeap

open PagedHeap.Action

/-! ## Pools with pages of the files -/

namespace Database

variable {σ : Type} [FileStore σ] {store : FileStore.Measured σ} {db db' : Database σ}

/-- The pool has pages of the files only. -/
def Stocked (store : FileStore.Measured σ) (db : Database σ) : Prop :=
  ∀ key ∈ db.pool.frames.keys, store.Has db.files key

/-- No file has changed its size, and the pool has pages of the files only. -/
structure Remains (store : FileStore.Measured σ) (db db' : Database σ) : Prop where
  size : store.size db'.files = store.size db.files
  stocked : Stocked store db'

theorem Remains.trans {db'' : Database σ} (h : Remains store db db') (h' : Remains store db' db'') :
    Remains store db db'' := ⟨h'.size.trans h.size, h'.stocked⟩

theorem Remains.has_iff (h : Remains store db db') {key : FrameKey} :
    store.Has db'.files key ↔ store.Has db.files key := by
  unfold FileStore.Measured.Has
  rw [h.size]

/-- Frames may change or go. -/
theorem Stocked.repool (h : Stocked store db) {p : Pool}
    (hkeys : ∀ key ∈ p.frames.keys, key ∈ db.pool.frames.keys) :
    Remains store db { db with pool := p } := ⟨rfl, fun key hkey => h key (hkeys key hkey)⟩

/-- Files may change, but for their sizes. -/
theorem Stocked.refile (h : Stocked store db) {t : σ} (hsize : store.size t = store.size db.files) :
    Remains store db { db with files := t } := by
  refine ⟨hsize, fun key hkey => ?_⟩
  have hhas := h key hkey
  unfold FileStore.Measured.Has at hhas ⊢
  rwa [hsize]

theorem stocked_writeBack (h : Stocked store db) (key : FrameKey) :
    (writeBack key).Ensures db (fun _ => Remains store db) fun _ => Remains store db := by
  unfold writeBack
  rw [ensures_bind, ensures_get]
  split
  · split
    · unfold onFiles
      rw [ensures_onPart]
      exact (store.writing _ _ _ _).mono (fun _ _ => h.refile) fun _ _ => h.refile
    · exact ⟨rfl, h⟩
  · exact ⟨rfl, h⟩

theorem stocked_makeRoom (h : Stocked store db) :
    makeRoom.Ensures db (fun _ => Remains store db) fun _ => Remains store db := by
  unfold makeRoom
  rw [ensures_bind, ensures_get]
  dsimp only
  split
  · split
    · exact ⟨rfl, h⟩
    · rw [ensures_bind]
      refine (stocked_writeBack h _).mono (fun _ db' h' => ?_) fun _ _ => id
      unfold modifyPool
      rw [ensures_modify]
      exact h'.trans (h'.stocked.repool fun _ hkey => (Table.mem_keys_erase.1 hkey).2)
  · exact ⟨rfl, h⟩

/-- A page that is pinned is one of its file. -/
theorem stocked_pin (h : Stocked store db) (file : FileId) (page : PageId) :
    (pin file page).Ensures db
      (fun pin db' => Remains store db db' ∧ pin.key = ⟨file, page⟩ ∧
        store.Has db.files ⟨file, page⟩)
      fun _ => Remains store db := by
  unfold pin
  rw [ensures_bind, ensures_get]
  cases hfind : db.pool.frames.find? ⟨file, page⟩ with
  | some frame =>
    refine ⟨h.repool fun key hkey => ?_, rfl, h _ (Table.mem_keys_of_find? hfind)⟩
    simpa only [Table.keys_adjust] using hkey
  | none =>
    dsimp only
    rw [ensures_bind]
    refine (stocked_makeRoom h).mono (fun _ db₁ h₁ => ?_) fun _ _ => id
    rw [ensures_bind]
    unfold onFiles
    rw [ensures_onPart]
    refine (store.reading _ _ _).mono ?_ fun _ _ hsize => h₁.trans (h₁.stocked.refile hsize)
    rintro data t ⟨hsize, hhas⟩
    have h₂ := h₁.stocked.refile hsize
    have hpage : store.Has t ⟨file, page⟩ := h₂.has_iff.2 hhas
    refine ⟨⟨h₂.size.trans h₁.size, fun key hkey => ?_⟩, rfl, h₁.has_iff.1 hhas⟩
    rcases Table.mem_keys_put.1 hkey with rfl | hold
    · exact hpage
    · exact h₂.stocked key hold

theorem stocked_release (h : Stocked store db) (pin : Pin) :
    (release pin).Ensures db (fun _ => Remains store db) fun _ => Remains store db := by
  have h₁ : Remains store db { db with pool := db.pool.forgetHolder pin } :=
    h.repool fun key hkey => Pool.keys_forgetHolder db.pool pin ▸ hkey
  unfold release unpin modifyPool
  rw [ensures_bind, ensures_modify, ensures_bind, ensures_get]
  split
  · exact h₁
  · split
    · exact h₁
    · rw [ensures_modify]
      refine h₁.trans (h₁.stocked.repool fun key hkey => ?_)
      simpa only [Table.keys_adjust] using hkey

end Database

/-! ## Reading the current page -/

/-- A computation that answers or refuses does so as part of an action. -/
theorem Result.Answered.ensures {σ α : Type} {r : Result α} (h : r.Answered) (s : σ) :
    (ofResult r).Ensures s (fun a t => t = s ∧ r = .ok a) fun _ t => t = s := by
  cases hr : r with
  | ok a => exact ⟨rfl, rfl⟩
  | error failure =>
    cases failure with
    | error e => exact rfl
    | trap cause => exact (h cause hr).elim

namespace SlottedPage

theorem answered_read {n : Nat} (b : Block n) : (read b).Answered := by
  intro cause
  unfold read ofBlock
  split
  · dsimp only
    split
    · nofun
    · split
      · nofun
      · split <;> nofun
  · nofun

/-- The first record that passes is found, or a record is refused. -/
theorem answered_findPassing (p : SlottedPage) (filter : Option Filter) (slots : List SlotId) :
    (p.findPassing filter slots).Answered := by
  induction slots with
  | nil => exact .of_ok rfl
  | cons slot slots ih =>
    unfold findPassing
    rcases p.get_cases slot with ⟨-, hget⟩ | hget
    · rw [hget, Result.bind_ok]
      split
      · exact .of_ok rfl
      · exact ih
    · rw [hget, Result.bind_error]
      exact .of_refused rfl

end SlottedPage

namespace HeapFile

variable {σ : Type} [FileStore σ] {store : FileStore.Measured σ} {s s' t : HeapState σ}

/-- The pool has pages of the files only, the file has a header page, and the current page is one of
the file. -/
structure Housed (store : FileStore.Measured σ) (s : HeapState σ) : Prop where
  stocked : Database.Stocked store s.db
  header : store.Has s.db.files ⟨s.heap.file.id, ⟨1⟩⟩
  current : ∀ pin, s.heap.current = some pin →
    pin.key.file = s.heap.file.id ∧ store.Has s.db.files pin.key

/-- The heap file is as it should be, and no file has changed its size. -/
structure Moved (store : FileStore.Measured σ) (s s' : HeapState σ) : Prop where
  housed : Housed store s'
  size : store.size s'.db.files = store.size s.db.files
  file : s'.heap.file = s.heap.file

/-- The current page is this one, and its bytes name this one as the next. -/
def LinksTo (s : HeapState σ) (page : PageId) (next : Option PageId) : Prop :=
  ∃ pin p, s.heap.current = some pin ∧ pin.key = ⟨s.heap.file.id, page⟩ ∧
    SlottedPage.read (s.db.pool.page pin) = .ok p ∧ p.next = next

theorem Housed.moved (h : Housed store s) : Moved store s s := ⟨h, rfl, rfl⟩

theorem Moved.trans {s'' : HeapState σ} (h : Moved store s s') (h' : Moved store s' s'') :
    Moved store s s'' := ⟨h'.housed, h'.size.trans h.size, h'.file.trans h.file⟩

theorem Moved.has_iff (h : Moved store s s') {page : PageId} :
    store.Has s'.db.files ⟨s'.heap.file.id, page⟩ ↔
      store.Has s.db.files ⟨s.heap.file.id, page⟩ := by
  unfold FileStore.Measured.Has
  rw [h.size, h.file]

/-- What is remembered about the open file may change, and so may its database, as long as the
current page is none or one of the file. -/
theorem Housed.remains (h : Housed store s) {db : Database σ} {heap : HeapFile}
    (hdb : Database.Remains store s.db db) (hfile : heap.file = s.heap.file)
    (hcurrent : ∀ pin, heap.current = some pin →
      pin.key.file = s.heap.file.id ∧ store.Has s.db.files pin.key) :
    Moved store s ⟨db, heap⟩ := by
  refine ⟨⟨hdb.stocked, ?_, fun pin hpin => ?_⟩, hdb.size, hfile⟩
  · rw [hfile]
    exact hdb.has_iff.2 h.header
  · obtain ⟨hkey, hhas⟩ := hcurrent pin hpin
    exact ⟨hkey.trans (congrArg FileHandle.id hfile.symm), hdb.has_iff.2 hhas⟩

/-- A scan may be sent anywhere. -/
theorem Housed.sent (h : Housed store s) (position : Option PageId) (record : Option RecordId) :
    Housed store ⟨s.db, { s.heap with position := position, record := record }⟩ :=
  ⟨h.stocked, h.header, h.current⟩

theorem housed_releaseCurrent (h : Housed store s) :
    releaseCurrent.Ensures s (fun _ s' => Moved store s s' ∧ s'.heap.current = none)
      fun _ => Moved store s := by
  unfold releaseCurrent
  rw [ensures_bind, ensures_get]
  cases hcurrent : s.heap.current with
  | none => exact ⟨h.moved, hcurrent⟩
  | some pin =>
    unfold modifyHeap
    dsimp only
    rw [ensures_bind, ensures_modify, ensures_onDatabase]
    have hreleased (db : Database σ) (hdb : Database.Remains store s.db db) :
        Moved store s ⟨db, { s.heap with current := none }⟩ := h.remains hdb rfl nofun
    exact (Database.stocked_release h.stocked pin).mono (fun _ db hdb => ⟨hreleased db hdb, rfl⟩)
      fun _ => hreleased

theorem housed_switchTo (h : Housed store s) (page : PageId) :
    (switchTo page).Ensures s
      (fun _ s' => Moved store s s' ∧ s'.heap.currentPage? = some page) fun _ => Moved store s := by
  unfold switchTo
  rw [ensures_bind, ensures_get]
  by_cases hpage : s.heap.currentPage? = some page
  · simp only [hpage, ne_eq, not_true_eq_false, if_false]
    exact ⟨h.remains ⟨rfl, h.stocked⟩ rfl h.current, hpage⟩
  · simp only [hpage, ne_eq, not_false_eq_true, if_true]
    rw [ensures_bind]
    refine (housed_releaseCurrent h).mono ?_ fun _ _ => id
    rintro _ s₁ ⟨h₁, hnone⟩
    rw [ensures_bind, ensures_onDatabase]
    have hrefused (db : Database σ) (hdb : Database.Remains store s₁.db db) :
        Moved store s ⟨db, s₁.heap⟩ := h₁.trans (h₁.housed.remains hdb rfl h₁.housed.current)
    refine (Database.stocked_pin h₁.housed.stocked _ page).mono ?_ fun _ => hrefused
    rintro pin db ⟨hdb, hkey, hhas⟩
    unfold modifyHeap
    rw [ensures_bind, ensures_modify, ensures_modify]
    refine ⟨h₁.trans (h₁.housed.remains hdb rfl fun other hother => ?_),
      congrArg (some <| FrameKey.page ·) hkey⟩
    cases hother
    rw [hkey]
    exact ⟨(congrArg FileHandle.id h₁.file).symm, hhas⟩

omit [FileStore σ] in
/-- The current page is read as a page, or refused. -/
theorem settles_currentPage {pin : Pin} (hcurrent : s.heap.current = some pin) :
    currentPage.Ensures s
      (fun p s' => s' = s ∧ SlottedPage.read (s.db.pool.page pin) = .ok p) fun _ s' => s' = s := by
  unfold currentPage currentPin
  rw [ensures_bind, ensures_bind, ensures_get]
  simp only [hcurrent]
  exact (SlottedPage.answered_read _).ensures s

/-- Looking through the rest of a page does not stop with a fault, whatever the page holds.  A page
that is looked through is one of the file. -/
theorem housed_scanPage (h : Housed store s) (filter : Option Filter) (page : PageId) :
    (scanPage filter page).Ensures s
      (fun answer s' => Moved store s s' ∧ store.Has s.db.files ⟨s.heap.file.id, page⟩ ∧
        ∀ next, answer = .inr next → LinksTo s' page next)
      fun _ => Moved store s := by
  unfold scanPage
  rw [ensures_bind]
  refine (housed_switchTo h page).mono ?_ fun _ _ => id
  rintro _ s₁ ⟨h₁, hpage⟩
  obtain ⟨pin, hcurrent, rfl⟩ := Option.map_eq_some_iff.1 hpage
  obtain ⟨hfile, hhas⟩ := h₁.housed.current pin hcurrent
  have hkey : pin.key = ⟨s₁.heap.file.id, pin.key.page⟩ := by rw [← hfile]
  have hlooked : store.Has s.db.files ⟨s.heap.file.id, pin.key.page⟩ := h₁.has_iff.1 (hkey ▸ hhas)
  have hmoved (record : Option RecordId) :
      Moved store s ⟨s₁.db, { s₁.heap with record := record }⟩ :=
    h₁.trans (h₁.housed.remains ⟨rfl, h₁.housed.stocked⟩ rfl h₁.housed.current)
  rw [ensures_bind, ensures_get, ensures_bind]
  refine (settles_currentPage hcurrent).mono ?_ fun _ _ heq => heq ▸ h₁
  rintro p _ ⟨rfl, hread⟩
  rw [ensures_bind]
  refine ((p.answered_findPassing filter _).ensures _).mono ?_ fun _ _ heq => heq ▸ h₁
  rintro found _ ⟨rfl, -⟩
  unfold modifyHeap
  cases found with
  | some slot =>
    dsimp only
    rw [ensures_bind, ensures_modify, ensures_pure]
    exact ⟨hmoved _, hlooked, nofun⟩
  | none =>
    dsimp only
    rw [ensures_bind, ensures_modify, ensures_pure]
    refine ⟨hmoved _, hlooked, fun next hnext => ?_⟩
    cases hnext
    exact ⟨pin, p, hcurrent, hkey, hread, rfl⟩

/-! ## Opening -/

end HeapFile

namespace Database

variable {σ : Type} [FileStore σ] {store : FileStore.Measured σ} {db : Database σ}

/-- A file whose first pages were pinned has them, whatever else is in it. -/
theorem housed_pinFirstPages (h : Stocked store db) (file : FileHandle) :
    (pinFirstPages file).Allows db (fun heap db' => HeapFile.Housed store ⟨db', heap⟩)
      fun _ _ => True := by
  have hfirst : (onFiles (PageStore.firstPage file.id)).Allows db
      (fun page db' => page = ⟨1⟩ ∧ Remains store db db') fun _ _ => True := by
    refine allows_onPart (allows_bind (.of_ensures ((store.counting _ _).mono
      (fun _ _ => And.left) fun _ _ _ => True.intro)) ?_)
    rintro count t rfl
    split
    · exact allows_pure ⟨rfl, rfl, h⟩
    · exact allows_refuse True.intro
  refine allows_bind hfirst ?_
  rintro _ db₁ ⟨rfl, h₁⟩
  refine allows_bind (.of_ensures ((stocked_pin h₁.stocked file.id ⟨1⟩).mono
    (fun _ _ hpost => hpost) fun _ _ _ => True.intro)) ?_
  rintro headerPin db₂ ⟨h₂, -, hheader⟩
  refine Allows.orClean_of_ok (allows_get (allows_ofResult_bind (fun header _ => ?_)
    fun _ _ => True.intro))
  refine allows_bind (.of_ensures ((stocked_pin h₂.stocked file.id header.firstPage).mono
    (fun _ _ hpost => hpost) fun _ _ _ => True.intro)) ?_
  rintro firstPin db₃ ⟨h₃, hkey, hhas⟩
  refine allows_bind (p := fun _ db₄ => db₄ = db₃) (Allows.orClean_of_ok (allows_get
    (allows_ofResult_bind (fun _ _ => rfl) fun _ _ => True.intro))) ?_
  rintro _ _ rfl
  refine allows_pure ⟨h₃.stocked, h₃.has_iff.2 (h₂.has_iff.2 hheader), fun pin hpin => ?_⟩
  cases hpin
  rw [hkey]
  exact ⟨rfl, h₃.has_iff.2 hhas⟩

/-- Every file that is opened as a heap file is one to scan, whatever is on its pages. -/
theorem housed_openHeap (hvalid : store.valid db.files) (h : Stocked store db) (name : String) :
    (openHeap name).Allows db (fun heap db' => HeapFile.Housed store ⟨db', heap⟩)
      fun _ _ => True := by
  refine allows_bind (p := fun _ db₁ => Stocked store db₁) (allows_onPart
    ((store.openFile hvalid name).mono ?_ fun _ _ _ => True.intro)) fun file db₁ h₁ =>
    (housed_pinFirstPages h₁ file).orClean_of_ok
  rintro file t ⟨-, hgrows, -⟩ key hkey
  exact ⟨(h key hkey).1, (h key hkey).2.trans_le (hgrows.size key.file)⟩

end Database

/-! ## Files of two pages -/

namespace HeapFile

section TwoPages

variable {a b : Page} {p : SlottedPage}

/-- Files in memory, of which one has these two pages behind the store's own. -/
def twoPages (a b : Page) : MemoryFiles where
  contents := [(⟨1⟩, #[Block.zero pageSize, a, b])]
  named := [("t", ⟨1⟩)]
  opened := []
  nextId := 2

/-- The header of a heap file with one data page. -/
def onePage : HeapHeader := ⟨"t", 1, 0, ⟨2⟩, ⟨2⟩⟩

/-- The heap file when it was opened. -/
def opened (a b : Page) : HeapState MemoryFiles where
  db := {
    files := { twoPages a b with opened := [("t", ⟨⟨⟨1⟩, "t"⟩, 1⟩)] }
    pool := ((((Pool.empty 8).load ⟨⟨1⟩, ⟨1⟩⟩ a false).2.load ⟨⟨1⟩, ⟨2⟩⟩ b false).2) }
  heap := {
    file := ⟨⟨1⟩, "t"⟩
    name := "t"
    firstPage := ⟨2⟩
    headerPin := ⟨⟨⟨1⟩, ⟨1⟩⟩, 0, false⟩
    current := some ⟨⟨⟨1⟩, ⟨2⟩⟩, 1, false⟩
    position := some ⟨2⟩
    record := none }

/-- Nothing but the header and the header of the data page is looked at when the file is opened. -/
theorem openHeap_twoPages (ha : HeapHeader.read a = .ok onePage)
    (hb : SlottedPage.read b = .ok p) :
    Database.openHeap "t" ⟨twoPages a b, .empty 8⟩ = .ok (opened a b).heap (opened a b).db := by
  let files : MemoryFiles := (opened a b).db.files
  let pool : Pool := ((Pool.empty 8).load ⟨⟨1⟩, ⟨1⟩⟩ a false).2
  have hfile : Database.onFiles (FileStore.openFile "t") ⟨twoPages a b, .empty 8⟩ =
      .ok ⟨⟨1⟩, "t"⟩ ⟨files, .empty 8⟩ := rfl
  have hone : Database.onFiles (PageStore.firstPage ⟨1⟩) ⟨files, .empty 8⟩ =
      .ok ⟨1⟩ ⟨files, .empty 8⟩ := rfl
  have hpin : Database.pin ⟨1⟩ ⟨1⟩ ⟨files, .empty 8⟩ =
      .ok (opened a b).heap.headerPin ⟨files, pool⟩ := rfl
  have hpage : Database.pageOf (opened a b).heap.headerPin ⟨files, pool⟩ =
      .ok a ⟨files, pool⟩ := rfl
  have hheader : ofResult (HeapHeader.read a) (⟨files, pool⟩ : Database MemoryFiles) =
      .ok onePage ⟨files, pool⟩ := by
    rw [ha]
    rfl
  have hpinFirst : Database.pin ⟨1⟩ ⟨2⟩ ⟨files, pool⟩ =
      .ok ⟨⟨⟨1⟩, ⟨2⟩⟩, 1, false⟩ (opened a b).db := rfl
  have hpageFirst : Database.pageOf ⟨⟨⟨1⟩, ⟨2⟩⟩, 1, false⟩ (opened a b).db =
      .ok b (opened a b).db := rfl
  have hfirst : ofResult (SlottedPage.read b) (opened a b).db = .ok p (opened a b).db := by
    rw [hb]
    rfl
  refine (bind_run_ok hfile _).trans (orClean_run_ok ?_ _)
  refine (bind_run_ok hone _).trans ((bind_run_ok hpin _).trans (orClean_run_ok ?_ _))
  refine (bind_run_ok hpage _).trans ((bind_run_ok hheader _).trans ?_)
  refine (bind_run_ok hpinFirst _).trans ((bind_run_ok (orClean_run_ok (a := ()) ?_ _) _).trans rfl)
  exact (bind_run_ok hpageFirst _).trans (bind_run_ok hfirst _)

theorem regular_twoPages (a b : Page) : (twoPages a b).Regular := by
  refine ⟨fun {file} hfile => ?_, fun {name id} hname => ?_, ⟨nofun⟩, nofun⟩
  · rw [← Table.mem_keys] at hfile
    obtain rfl : file = ⟨1⟩ := List.mem_singleton.1 hfile
    exact (by decide : 1 < 2)
  · obtain ⟨rfl, rfl⟩ : name = "t" ∧ id = ⟨1⟩ := by
      have hentry := Table.mem_of_find? hname
      simpa [twoPages] using hentry
    exact ⟨rfl, by decide⟩

/-- On a page without records a scan stays where it is, and is led to the next page. -/
theorem scanPage_opened (hb : SlottedPage.read b = .ok p) (hnone : p.slotsFrom 0 = [])
    (filter : Option Filter) :
    scanPage filter ⟨2⟩ (opened a b) = .ok (.inr p.next) (opened a b) := by
  have hswitch : switchTo ⟨2⟩ (opened a b) = .ok () (opened a b) := rfl
  have hget : (get : HeapAction MemoryFiles _) (opened a b) = .ok (opened a b) (opened a b) := rfl
  have hread : currentPage (opened a b) = .ok p (opened a b) := by
    have hpin : currentPin (opened a b) = .ok ⟨⟨⟨1⟩, ⟨2⟩⟩, 1, false⟩ (opened a b) := rfl
    have hpage : onDatabase (Database.pageOf ⟨⟨⟨1⟩, ⟨2⟩⟩, 1, false⟩) (opened a b) =
        .ok b (opened a b) := rfl
    refine (bind_run_ok hpin _).trans ((bind_run_ok hpage _).trans ?_)
    rw [hb]
    rfl
  have hstart : (opened a b).heap.scanStart ⟨2⟩ = 0 := rfl
  refine (bind_run_ok hswitch _).trans ((bind_run_ok hget _).trans ((bind_run_ok hread _).trans ?_))
  rw [hstart, hnone]
  rfl

/-- The header page of a heap file with one data page. -/
def headerPage : Page := (Block.zero pageSize).overwrite 0 onePage.encode

/-- An empty data page that names this page as the next. -/
def linkingPage (next : Option PageId) : SlottedPage := (SlottedPage.empty ⟨2⟩).setNext next

theorem read_headerPage : HeapHeader.read headerPage = .ok onePage := by
  have hvalid : onePage.Valid := ⟨by decide, by decide, by decide, by decide⟩
  exact (hvalid.stored _ (by decide)).read_eq hvalid (by decide)

theorem read_linkingPage {next : Option PageId} (hnext : next ≠ some .invalid) :
    SlottedPage.read (linkingPage next).data = .ok (linkingPage next) := by
  have hempty := (SlottedPage.wellFormed_empty ⟨2⟩).bounded
  have haccepted := SlottedPage.accepted_withHeader (p := .empty ⟨2⟩)
    (h := { (SlottedPage.empty ⟨2⟩).header with next := next }) hnext rfl hempty.directory
    hempty.content
  exact haccepted.read

end TwoPages

end HeapFile

end PagedHeap
