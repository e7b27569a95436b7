import PagedHeap.Proofs.File.DiskBooks
import PagedHeap.Proofs.File.Memory
import PagedHeap.Proofs.File.MemoryBooks

/-!
# Pages are read and written, or refused

Whatever the bytes of its files are, a store answers or refuses when a page is read or written, and
the file then has as many pages as before.  Only pages that the file has are read, and never the
store's own.  `FileStore.Measured` says so on top of the books, and both stores are of this kind.
-/

namespace PagedHeap

open PagedHeap.Action

/-- The books of a store that does not stop when pages are read, written or counted, and whose files
then keep their sizes. -/
structure FileStore.Measured (σ : Type) [FileStore σ] extends FileStore.Books σ where
  /-- A page that is read is one of the file, and not the store's own. -/
  reading : ∀ s file page, (PageStore.readPage file page : Action σ Page).Ensures s
    (fun _ t => size t = size s ∧ 0 < page.val.toNat ∧ page.val.toNat < size s file)
    fun _ t => size t = size s
  writing : ∀ s file page (data : Page),
    (PageStore.writePage file page data : Action σ Unit).Ensures
    s (fun _ t => size t = size s) fun _ t => size t = size s
  counting : ∀ s file, (PageStore.pageCount file : Action σ UInt32).Ensures s
    (fun n t => t = s ∧ n = UInt32.ofNat (size s file)) fun _ t => t = s ∧ size s file = 0

/-- The file has the page, which is not the store's own. -/
def FileStore.Measured.Has {σ : Type} [FileStore σ] (store : FileStore.Measured σ) (s : σ)
    (key : FrameKey) : Prop :=
  0 < key.page.val.toNat ∧ key.page.val.toNat < store.size s key.file

/-- Files in memory are measured by their pages. -/
def MemoryFiles.measured : FileStore.Measured MemoryFiles where
  toBooks := MemoryFiles.books
  reading s file page := (ensures_readPage s file page).mono
    (fun _ _ hpost => ⟨hpost.1 ▸ rfl, hpost.2.1⟩) fun _ _ hpost => hpost.1 ▸ rfl
  writing s file page data := (ensures_writePage s file page data).mono
    (fun _ _ hpost => funext hpost.1.size) fun _ _ hpost => hpost.1 ▸ rfl
  counting _ _ := ⟨rfl, rfl⟩

namespace DiskFiles

variable {s : DiskFiles} {id : FileId}

/-- What follows is done with the file that was opened, if there is one. -/
theorem ensures_openFileOf_bind {α : Type} {f : OpenFile → Action DiskFiles α}
    {ok : α → DiskFiles → Prop} {refused : StorageError → DiskFiles → Prop}
    (hok : ∀ file, s.files.find? id = some file → (f file).Ensures s ok refused)
    (hrefused : s.files.find? id = none → refused .io s) :
    (openFileOf id >>= f).Ensures s ok refused := by
  rw [ensures_bind]
  unfold openFileOf
  rw [ensures_bind, ensures_get]
  cases hfind : s.files.find? id with
  | some file => exact hok file hfind
  | none => exact hrefused hfind

/-- What follows the check of a page number may rely on it. -/
theorem ensures_check_bind {α : Type} {page : PageId} {count : Nat} {f : Unit → Action DiskFiles α}
    {ok : α → DiskFiles → Prop} {refused : StorageError → DiskFiles → Prop}
    (hok : 0 < page.val.toNat ∧ page.val.toNat < count → (f ()).Ensures s ok refused)
    (hrefused : ∀ e, refused e s) : (ofResult (page.check count) >>= f).Ensures s ok refused := by
  rw [ensures_bind]
  rcases PageId.check_ok_or_refused page count with ⟨hcheck, hhas⟩ | ⟨e, hcheck, -⟩
  · rw [ensures_ofResult_ok hcheck]
    exact hok hhas
  · rw [ensures_ofResult_refuse hcheck]
    exact hrefused e

/-- A page that the file has is read or refused, any other is refused. -/
theorem ensures_readPage (s : DiskFiles) (id : FileId) (page : PageId) :
    (readPage id page).Ensures s
      (fun _ t => t = s ∧ 0 < page.val.toNat ∧ page.val.toNat < register.size s id)
      (fun _ t => t = s) := by
  refine ensures_openFileOf_bind (fun f hfind => ensures_check_bind (fun hhas => ?_) fun _ => rfl)
    fun _ => rfl
  rw [ensures_bind, ensures_get, size_eq hfind]
  split
  · exact ⟨rfl, hhas⟩
  · exact rfl

/-- A page is written or refused, and what is remembered of the files stays. -/
theorem ensures_writePage (s : DiskFiles) (id : FileId) (page : PageId) (data : Page) :
    (writePage id page data).Ensures s (fun _ t => register.size t = register.size s)
      (fun _ t => t = s) :=
  ensures_openFileOf_bind (fun _ _ => ensures_check_bind (fun _ => rfl) fun _ => rfl) fun _ => rfl

/-- The pages of a file are counted if it was opened. -/
theorem ensures_pageCount (s : DiskFiles) (id : FileId) :
    (pageCount id).Ensures s (fun n t => t = s ∧ n = UInt32.ofNat (register.size s id))
      fun _ t => t = s ∧ register.size s id = 0 := by
  refine ensures_openFileOf_bind (fun f hfind => ?_) fun hnone => ?_
  · rw [size_eq hfind]
    exact ⟨rfl, UInt32.ofNat_toNat.symm⟩
  · unfold register
    simp only [hnone, Option.map_none, Option.getD_none, and_self]

/-- Files in a directory are measured by what is remembered of them. -/
def measured : FileStore.Measured DiskFiles where
  toBooks := DiskFiles.books
  reading s file page := (ensures_readPage s file page).mono
    (fun _ _ hpost => ⟨hpost.1 ▸ rfl, hpost.2⟩) fun _ _ hpost => hpost ▸ rfl
  writing s file page data := (ensures_writePage s file page data).mono (fun _ _ hpost => hpost)
    fun _ _ hpost => hpost ▸ rfl
  counting := ensures_pageCount

end DiskFiles

end PagedHeap
