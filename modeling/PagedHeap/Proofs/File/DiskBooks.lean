import PagedHeap.File.Disk
import PagedHeap.Proofs.File.Books

/-!
# The books of files in a directory

What is remembered of a file that was opened says how many pages it has, whatever is in its image.
Of the operations, most change nothing but bytes (`DiskFiles.SameTables`); those that add a page or
open a file keep the tables as they should be (`DiskFiles.Regular`), so that the books of files in a
directory are kept (`DiskFiles.books`).
-/

namespace PagedHeap

open PagedHeap.Action

/-- A header that counts one more page answers the number of pages that there were before. -/
theorem FileHeader.allocate_eq_ok {h h' : FileHeader} {page : PageId}
    (heq : h.allocate = .ok (page, h')) :
    page = ⟨h.pageCount⟩ ∧ h'.pageCount.toNat = h.pageCount.toNat + 1 := by
  obtain ⟨count, hcount, hpure⟩ := Result.bind_eq_ok.1 heq
  cases hpure
  exact ⟨rfl, toNat_of_count32 hcount⟩

theorem FileHeader.allocate_ne_refused (h : FileHeader) {e : StorageError} :
    h.allocate ≠ .error (.error e) := by
  intro heq
  unfold FileHeader.allocate at heq
  cases hcount : count32 (h.pageCount.toNat + 1) with
  | ok count =>
    rw [hcount] at heq
    cases heq
  | error f =>
    rw [hcount] at heq
    cases heq
    exact count32_ne_refused hcount

namespace DiskFiles

/-- The tables fit together: numbers are given out in order, and every file that is open has a name.
-/
structure Regular (s : DiskFiles) : Prop where
  numbered : ∀ {file f}, s.files.find? file = some f → file.val.toNat < s.nextId.toNat
  opened : s.opened.Named

/-- What is known of files in a directory: those that were opened have as many pages as is
remembered. -/
def register : FileStore.Register DiskFiles where
  size s file := ((s.files.find? file).map fun f => f.header.pageCount.toNat).getD 0
  opened := DiskFiles.opened
  valid := Regular

variable {s t : DiskFiles} {name : String} {file : FileHandle} {count : Nat}

theorem regular_ofDirectory (d : Directory) : (ofDirectory d).Regular := ⟨nofun, ⟨nofun⟩⟩

theorem size_eq {id : FileId} {f : OpenFile} (h : s.files.find? id = some f) :
    register.size s id = f.header.pageCount.toNat := by
  unfold register
  simp only [h, Option.map_some, Option.getD_some]

/-- Files in a directory have no more pages than there are numbers for. -/
theorem size_lt (s : DiskFiles) (id : FileId) : register.size s id < 2 ^ 32 := by
  cases hfind : s.files.find? id with
  | none =>
    unfold register
    simp only [hfind]
    decide
  | some f =>
    rw [size_eq hfind]
    exact f.header.pageCount.toNat_lt

/-- What removing a file does after the name was checked. -/
theorem destroy_run (hvalid : FileName.isValid name = true) :
    destroy name s = (if s.opened.has name then refuse (.fileOpen name)
      else if s.named.has name then set { s with named := s.named.erase name }
      else refuse (.fileNotFound name) : Action DiskFiles Unit) s := by
  unfold destroy
  rw [FileName.check_eq_ok hvalid]
  rfl

theorem destroy_of_closed (hvalid : FileName.isValid name = true)
    (hclosed : s.opened.has name = false) (hhas : s.named.has name = true) :
    destroy name s = .ok () { s with named := s.named.erase name } := by
  rw [destroy_run hvalid, hclosed, hhas]
  rfl

/-- Nothing changed but the bytes of files and which files are in the directory. -/
structure SameTables (s t : DiskFiles) : Prop where
  files : t.files = s.files
  opened : t.opened = s.opened
  nextId : t.nextId = s.nextId

/-- An operation is refused, and not because there is no frame left. -/
def Refused (s : DiskFiles) (e : StorageError) (t : DiskFiles) : Prop :=
  e ≠ .bufferPoolExhausted ∧ SameTables s t

theorem SameTables.refl (s : DiskFiles) : SameTables s s := ⟨rfl, rfl, rfl⟩

theorem SameTables.trans {u : DiskFiles} (h : SameTables s t) (h' : SameTables t u) :
    SameTables s u :=
  ⟨h'.files.trans h.files, h'.opened.trans h.opened, h'.nextId.trans h.nextId⟩

theorem Regular.same (h : s.Regular) (hsame : SameTables s t) : register.Same s t := by
  obtain ⟨images, named, files, opened, nextId⟩ := t
  obtain ⟨rfl, rfl, rfl⟩ := hsame
  exact ⟨⟨⟨h.numbered, h.opened⟩, fun _ => Nat.le_refl _⟩, rfl⟩

theorem Regular.refused (h : s.Regular) {e : StorageError} (hrefused : Refused s e t) :
    register.Refused s e t := ⟨hrefused.1, h.same hrefused.2⟩

/-- What is remembered of one file changed, or a file was opened anew. -/
theorem Regular.remembered (h : s.Regular) {id : FileId} {f : OpenFile} {nextId : UInt32}
    (hnext : s.nextId.toNat ≤ nextId.toNat) (hid : id.val.toNat < nextId.toNat)
    (hsize : register.size s id ≤ f.header.pageCount.toNat) :
    register.Same s { s with files := s.files.put id f, nextId := nextId } := by
  refine ⟨⟨⟨fun {file g} hfile => ?_, h.opened⟩, fun file => ?_⟩, rfl⟩
  · rcases Table.find?_put_eq_some.1 hfile with ⟨rfl, -⟩ | ⟨-, hold⟩
    · exact hid
    · exact (h.numbered hold).trans_le hnext
  · by_cases hfile : file = id
    · subst hfile
      rw [size_eq (s := { s with files := s.files.put file f, nextId := nextId })
        (Table.find?_put_self _ _ _)]
      exact hsize
    · unfold register
      simp only [Table.find?_put_of_ne (Ne.symm hfile), Nat.le_refl]

/-- What follows may rely on the file that was opened. -/
theorem allows_openFileOf_bind {α : Type} {id : FileId} {f : OpenFile → Action DiskFiles α}
    {ok : α → DiskFiles → Prop} {refused : StorageError → DiskFiles → Prop}
    (hok : ∀ file, s.files.find? id = some file → (f file).Allows s ok refused)
    (hrefused : refused .io s) : (openFileOf id >>= f).Allows s ok refused := by
  refine allows_bind (p := fun file t => s = t ∧ s.files.find? id = some file)
    (allows_get ?_) ?_
  · split
    · next hfind => exact allows_pure ⟨rfl, hfind⟩
    · exact allows_refuse hrefused
  · rintro file _ ⟨rfl, hfind⟩
    exact hok file hfind

theorem refused_io (s : DiskFiles) : Refused s .io s := ⟨by simp, .refl s⟩

theorem allows_storePage (image i : Nat) (page : Page) :
    (storePage image i page).Allows s (fun _ => SameTables s) (Refused s) :=
  allows_modify ⟨rfl, rfl, rfl⟩

theorem allows_flushHeader (id : FileId) :
    (flushHeader id).Allows s (fun _ => SameTables s) (Refused s) :=
  allows_openFileOf_bind (fun _ _ => allows_storePage _ _ _) (refused_io s)

theorem allows_readPage (id : FileId) (page : PageId) :
    (readPage id page).Allows s
      (fun _ t => SameTables s t ∧ page.val.toNat < register.size s id) (Refused s) := by
  refine allows_openFileOf_bind (fun f hfind => allows_ofResult_bind (fun _ hcheck => ?_)
    fun e hcheck => ⟨PageId.notExhausted_check _ _ e hcheck, .refl s⟩) (refused_io s)
  rw [size_eq hfind]
  refine allows_get ?_
  split
  · exact allows_pure ⟨.refl s, (PageId.lt_of_check hcheck).2⟩
  · exact allows_refuse (refused_io s)

theorem allows_writePage (id : FileId) (page : PageId) (data : Page) :
    (writePage id page data).Allows s (fun _ => SameTables s) (Refused s) :=
  allows_openFileOf_bind (fun _ _ => allows_ofResult_bind (fun _ _ => allows_storePage _ _ _)
    fun e hcheck => ⟨PageId.notExhausted_check _ _ e hcheck, .refl s⟩) (refused_io s)

theorem allows_pageCount (id : FileId) :
    (pageCount id).Allows s (fun _ => SameTables s) (Refused s) :=
  allows_openFileOf_bind (fun _ _ => allows_pure (.refl s)) (refused_io s)

section Operations

variable (hs : s.Regular)
include hs

/-- The remembered header counts a new page, and is written back with it. -/
theorem allows_allocatePage (id : FileId) :
    (allocatePage id).Allows s
      (fun page t => register.Same s t ∧ register.size t id = register.size s id + 1 ∧
        (register.size s id < 2 ^ 32 → page.val.toNat = register.size s id))
      (register.Refused s) := by
  refine allows_openFileOf_bind (fun f hfind => allows_ofResult_bind ?_ fun e he =>
    absurd he (FileHeader.allocate_ne_refused _)) ⟨by simp, .refl hs⟩
  rintro ⟨page, header⟩ hallocate
  obtain ⟨rfl, hcount⟩ := FileHeader.allocate_eq_ok hallocate
  have hgrown : register.Same s { s with files := s.files.put id { f with header := header } } := by
    refine hs.remembered (Nat.le_refl _) (hs.numbered hfind) ?_
    rw [size_eq hfind, hcount]
    exact Nat.le_succ _
  have hrefused {u t : DiskFiles} {e : StorageError}
      (hu : SameTables { s with files := s.files.put id { f with header := header } } u)
      (he : Refused u e t) : register.Refused s e t :=
    ⟨he.1, hgrown.trans (hgrown.valid.same (hu.trans he.2))⟩
  refine allows_modify_bind (allows_bind ((allows_storePage _ _ _).mono (fun _ _ hu => hu)
    fun e t => hrefused (.refl _)) fun _ u hu => ?_)
  refine allows_bind ((allows_flushHeader id).mono (fun _ _ hpost => hu.trans hpost)
    fun e t => hrefused hu) fun _ t ht => allows_pure ⟨?_, ?_, fun _ => ?_⟩
  · exact hgrown.trans (hgrown.valid.same ht)
  · have hfind' : t.files.find? id = some { f with header := header } := by
      rw [ht.files]
      exact Table.find?_put_self _ _ _
    rw [size_eq hfind, size_eq hfind', hcount]
  · exact (size_eq hfind).symm

theorem allows_create (name : String) :
    (create name).Allows s (fun _ => register.Same s) (register.Refused s) := by
  refine FileName.allows_check_bind (fun _ => allows_get ?_) ⟨by simp, .refl hs⟩
  split
  · exact allows_refuse ⟨by simp, .refl hs⟩
  · refine allows_set (hs.same ?_)
    unfold putImage
    split <;> exact ⟨rfl, rfl, rfl⟩

theorem allows_openFile (name : String) :
    (openFile name).Allows s (fun file t => file.name = name ∧ register.Opened s file t)
      (register.Refused s) := by
  refine FileName.allows_check_bind (fun hvalid => allows_get ?_) ⟨by simp, .refl hs⟩
  unfold OpenTable.reopen?
  cases hopened : s.opened.find? name with
  | some entry =>
    obtain ⟨rfl, -⟩ := hs.opened.valid hopened
    refine allows_set_bind (allows_pure ⟨rfl, ⟨⟨hs.numbered, hs.opened.put hvalid _⟩,
      fun _ => Nat.le_refl _⟩, _, .inl hopened, rfl⟩)
  | none =>
    cases hnamed : s.named.find? name with
    | none => exact allows_refuse ⟨by simp, .refl hs⟩
    | some i =>
      refine allows_ofResult_bind (fun header _ => allows_ofResult_bind (fun next hnext => ?_)
        fun e he => absurd he count32_ne_refused) fun e he =>
          ⟨FileImage.notExhausted_readHeader _ _ e he, .refl hs⟩
      have hcount := toNat_of_count32 hnext
      have hnew : register.size s ⟨s.nextId⟩ = 0 := by
        cases hfind : s.files.find? ⟨s.nextId⟩ with
        | none =>
          unfold register
          simp only [hfind, Option.map_none, Option.getD_none]
        | some f => exact absurd (hs.numbered hfind) (Nat.lt_irrefl _)
      let file : FileHandle := ⟨⟨s.nextId⟩, name⟩
      have hgrown : register.Same s
          { s with files := s.files.put file.id ⟨i, header⟩, nextId := next } :=
        hs.remembered (by omega) (by simp only [file]; omega) (by rw [hnew]; exact Nat.zero_le _)
      have hfile : FileName.isValid file.name = true := hvalid
      have hnamed : (s.opened.enter file).Named := hs.opened.put hfile 1
      refine allows_set_bind (allows_pure
        ⟨rfl, ⟨⟨hgrown.valid.numbered, hnamed⟩, hgrown.size⟩, 0, .inr ⟨hopened, rfl⟩, rfl⟩)

theorem allows_close (hfind : s.opened.find? file.name = some ⟨file, count + 1⟩) :
    (close file).Allows s (fun _ => register.Closed s file count)
      (fun e t => e ≠ .bufferPoolExhausted ∧ register.Closed s file count t) := by
  obtain ⟨last, hrelease⟩ := OpenTable.release_eq hfind
  refine allows_get (allows_ofResult_bind (fun answer hanswer => ?_) fun e he => ?_)
  · cases hrelease.symm.trans hanswer
    have hclosed (t : DiskFiles) (ht : SameTables { s with
        opened := if count = 0 then s.opened.erase file.name
          else s.opened.put file.name ⟨file, count⟩ } t) : register.Closed s file count t := by
      have hvalid : Regular { s with
          opened := if count = 0 then s.opened.erase file.name
            else s.opened.put file.name ⟨file, count⟩ } := ⟨hs.numbered, hs.opened.closed hfind⟩
      have hsame := hvalid.same ht
      exact ⟨⟨hsame.valid, hsame.size⟩, hsame.opened⟩
    refine allows_set_bind ?_
    split
    · exact (allows_flushHeader file.id).mono (fun _ t ht => hclosed t ht)
        fun e t ht => ⟨ht.1, hclosed t ht.2⟩
    · exact allows_pure (hclosed _ (.refl _))
  · cases hrelease.symm.trans he

theorem allows_destroy (name : String) :
    (destroy name).Allows s (fun _ => register.Same s) (register.Refused s) := by
  refine FileName.allows_check_bind (fun _ => allows_get ?_) ⟨by simp, .refl hs⟩
  split
  · exact allows_refuse ⟨by simp, .refl hs⟩
  · split
    · exact allows_set (hs.same ⟨rfl, rfl, rfl⟩)
    · exact allows_refuse ⟨by simp, .refl hs⟩

theorem destroy_of_open (hopen : s.opened.has name = true) :
    destroy name s = .error (.error (.fileOpen name)) s := by
  obtain ⟨entry, hfind⟩ := Option.isSome_iff_exists.1 hopen
  rw [destroy_run (hs.opened.valid hfind).2, if_pos hopen]
  rfl

end Operations

/-- The books of files in a directory. -/
def books : FileStore.Books DiskFiles where
  toRegister := register
  read hs _ _ := (allows_readPage _ _).mono (fun _ _ hpost => ⟨Regular.same hs hpost.1, hpost.2⟩)
    fun _ _ => Regular.refused hs
  write hs _ _ _ := (allows_writePage _ _ _).mono (fun _ _ => Regular.same hs)
    fun _ _ => Regular.refused hs
  allocate hs _ _ := allows_allocatePage hs _
  count hs _ := (allows_pageCount _).mono (fun _ _ => Regular.same hs)
    fun _ _ => Regular.refused hs
  sync hs _ := (allows_flushHeader _).mono (fun _ _ => Regular.same hs)
    fun _ _ => Regular.refused hs
  create := allows_create
  openFile := allows_openFile
  close hs _ _ := allows_close hs
  destroy := allows_destroy
  destroy_open hs _ := destroy_of_open hs
  destroy_closed hs name hclosed hhas := by
    have hhas := (EStateM.Result.ok.inj hhas).1
    rw [Bool.and_eq_true] at hhas
    exact ⟨_, destroy_of_closed hhas.1 hclosed hhas.2⟩
  hasFile hs _ := FileStore.Register.Same.refl hs

theorem numbered_books (s : DiskFiles) : books.Numbered s := fun file => (size_lt s file).le

end DiskFiles

end PagedHeap
