import PagedHeap.Proofs.File.Holding

/-!
# A file keeps its pages

A file is made in a directory, pages are added to it, read and written, and now and then whoever
uses it goes away, with or without bringing the file up to date, and it is opened again from what
the directory has (`DiskFiles.Course`).  At every point the calls that were answered since the file
was made tell what is in it: how many pages it has (`PageCall.allocations`) and which data
(`PageCall.lastWritten`).

The invariant is that of a file that is open (`DiskFiles.Holds`), for the pages that the history
tells.  It speaks of the bytes of the file too, since these are the header and the pages.
-/

namespace PagedHeap

open PagedHeap.Action

namespace FileImage

variable {f g : FileImage} {h h' : FileHeader}

/-- The bytes of a file are those of its header page and of its pages. -/
theorem Stored.getElem?_bytes (hf : f.Stored h) (j : Nat) : f.bytes[j]? =
    if j / pageSize = 0 then some (h.toPage.byteAt (j % pageSize))
    else (f.pages[j / pageSize]?).map (·.byteAt (j % pageSize)) := by
  have hlt : j < f.size ↔ j / pageSize < f.pageCount := by
    rw [hf.pageCount_eq, hf.size, Nat.div_lt_iff_lt_mul (by decide)]
  rw [FileImage.getElem?_bytes, getElem?_pages]
  simp only [hlt]
  by_cases hzero : j / pageSize = 0
  · have hpos : j / pageSize < f.pageCount := by
      rw [hzero, hf.pageCount_eq]
      exact hf.pos
    rw [if_pos hpos, if_pos hzero, hzero, hf.header]
  · rw [if_neg hzero, if_neg hzero]
    split
    · rfl
    · rfl

/-- The first page of the file is its header. -/
theorem Stored.ofBytes_bytes (hf : f.Stored h) : Page.ofBytes f.bytes = h.toPage := by
  apply Block.ext_byteAt
  intro i hi
  have hbyte := hf.getElem?_bytes i
  rw [Nat.div_eq_of_lt hi, if_pos rfl, Nat.mod_eq_of_lt hi] at hbyte
  unfold Page.ofBytes
  rw [Block.byteAt_overwrite _ _ _ _ hi, if_pos (Nat.zero_le i), Nat.sub_zero, hbyte,
    Option.getD_some]

/-- Files with the same number of pages have the same header. -/
theorem Stored.header_eq (hf : f.Stored h) (hg : g.Stored h')
    (hsize : f.pages.size = g.pages.size) :
    h = h' := by
  rw [size_pages, size_pages, hf.pageCount_eq, hg.pageCount_eq] at hsize
  obtain ⟨size, count⟩ := h
  obtain ⟨size', count'⟩ := h'
  obtain rfl : count = count' := UInt32.toNat_inj.1 hsize
  obtain rfl : size = size' := hf.valid.size.trans hg.valid.size.symm
  rfl

end FileImage

/-! ## What the history tells -/

namespace PageCall

/-- The data of a page after the calls that were answered, the latest first: what was written last,
or zeros if nothing was written since the page was added. -/
def lastWritten (page : PageId) : List PageCall → Page
  | [] => Block.zero pageSize
  | allocate :: past =>
    if page.val.toNat = allocations past + 1 then Block.zero pageSize else lastWritten page past
  | @write page' size data :: past =>
    if h : page' = page ∧ size = pageSize then data.cast h.2 else lastWritten page past
  | read _ :: past | first :: past | count :: past | sync :: past => lastWritten page past

/-- The pages are those that the history tells. -/
structure Tells (past : List PageCall) (pages : Array Page) : Prop where
  size : pages.size = allocations past + 1
  data : ∀ page : PageId, 0 < page.val.toNat → page.val.toNat < pages.size →
    pages[page.val.toNat]? = some (lastWritten page past)

variable {past : List PageCall} {pages pages' : Array Page} {c : PageCall} {a : PageAnswer}

theorem tells_nil : Tells [] #[Block.zero pageSize] where
  size := rfl
  data _ hpos hlt := absurd hpos (Nat.not_lt.2 (Nat.le_of_lt_succ hlt))

theorem Asks.lastWritten_cons (h : c.Asks) (page : PageId) :
    lastWritten page (c :: past) = lastWritten page past := by
  cases c with
  | allocate | write => exact h.elim
  | _ => rfl

/-- The history goes on with a call that was answered. -/
theorem Tells.cons (h : Tells past pages) (hon : c.onPages pages = .ok (a, pages')) :
    Tells (c :: past) pages' := by
  refine ⟨?_, fun page hpos hlt => ?_⟩
  · rw [size_of_onPages hon, h.size, allocations_cons]
    omega
  rcases onPages_cases hon with ⟨rfl, rfl⟩ | ⟨page', data, rfl, rfl⟩ | ⟨hasks, rfl⟩
  · rw [Array.size_push] at hlt
    rw [Array.getElem?_push, h.size, lastWritten]
    split
    · rfl
    · next hne =>
      refine h.data page hpos ?_
      rw [h.size] at hlt ⊢
      omega
  · rw [Array.size_setIfInBounds] at hlt
    rw [Array.getElem?_setIfInBounds, lastWritten]
    by_cases hpage : page' = page
    · subst hpage
      rw [if_pos rfl, if_pos hlt, dif_pos ⟨rfl, rfl⟩]
      rfl
    · have hne : page'.val.toNat ≠ page.val.toNat := fun heq => hpage (by
        obtain ⟨n⟩ := page
        obtain ⟨n'⟩ := page'
        exact congrArg PageId.mk (UInt32.toNat_inj.1 heq))
      rw [if_neg hne, dif_neg fun hboth => hpage hboth.1]
      exact h.data page hpos hlt
  · rw [hasks.lastWritten_cons]
    exact h.data page hpos hlt

end PageCall

/-! ## Runs -/

namespace DiskFiles

open PageCall (allocations lastWritten Tells)

/-- The uses of a file since it was made.  The calls that were answered are kept, the latest first.
-/
inductive Course (directory : Directory) (name : String) :
    List PageCall → FileHandle → DiskFiles → Prop where
  | made {file : FileHandle} {s : DiskFiles} :
      FileStore.fresh name (ofDirectory directory) = .ok file s → Course directory name [] file s
  | answered {past : List PageCall} {file : FileHandle} {s s' : DiskFiles} {c : PageCall}
      {a : PageAnswer} : Course directory name past file s → c.carryOut file.id s = .ok a s' →
      Course directory name (c :: past) file s'
  | refused {past : List PageCall} {file : FileHandle} {s s' : DiskFiles} {c : PageCall}
      {e : StorageError} : Course directory name past file s →
      c.carryOut file.id s = .error (.error e) s' → Course directory name past file s'
  | reopened {past : List PageCall} {file file' : FileHandle} {s s' : DiskFiles} :
      Course directory name past file s →
      openFile name (ofDirectory s.directory) = .ok file' s' → Course directory name past file' s'

variable {directory : Directory} {name : String} {past : List PageCall} {file : FileHandle}
variable {s : DiskFiles} {pages : Array Page}

/-- At every point the file has the pages that the history tells. -/
theorem Course.holds (course : Course directory name past file s)
    (hfew : allocations past + 2 < 2 ^ 32) : FileName.isValid name = true ∧ file.name = name ∧
      ∃ pages, s.Holds file pages ∧ Tells past pages := by
  induction course with
  | made hmade =>
    obtain ⟨hvalid, hname, hholds⟩ := (ensures_fresh directory name).of_ok hmade
    exact ⟨hvalid, hname, _, hholds, PageCall.tells_nil⟩
  | @answered past file s s' c a _ hrun ih =>
    rw [PageCall.allocations_cons] at hfew
    obtain ⟨hvalid, hname, pages, hholds, htells⟩ := ih (by omega)
    have hobeys := hholds.obeys (by rw [htells.size]; omega) c
    obtain ⟨pages', hon, hholds'⟩ := Ensures.of_ok hobeys hrun
    exact ⟨hvalid, hname, pages', hholds', htells.cons hon⟩
  | @refused past file s s' c e _ hrun ih =>
    obtain ⟨hvalid, hname, pages, hholds, htells⟩ := ih hfew
    have hobeys := hholds.obeys (by rw [htells.size]; omega) c
    obtain ⟨rfl, -⟩ := Ensures.of_error hobeys hrun
    exact ⟨hvalid, hname, pages, hholds, htells⟩
  | @reopened past file file' s s' _ hrun ih =>
    obtain ⟨hvalid, rfl, pages, hholds, htells⟩ := ih hfew
    obtain ⟨file'', s'', hopen, hname, hholds'⟩ := hholds.exists_openFile hvalid
    cases hopen.symm.trans hrun
    exact ⟨hvalid, hname, pages, hholds', htells⟩

/-- The image of the file that stands in the directory. -/
theorem Holds.exists_image (h : s.Holds file pages) :
    ∃ f header, s.imageNamed? file.name = some f ∧ f.Stored header ∧ f.pages = pages := by
  obtain ⟨i, header, hopen, hpages⟩ := h
  refine ⟨s.image i, header, ?_, hopen.stored, hpages⟩
  unfold imageNamed?
  rw [hopen.named]
  rfl

/-- A page that passes the check is written, and no other byte of the file changes. -/
theorem Holds.exists_writePage (h : s.Holds file pages) (hfew : pages.size + 1 < 2 ^ 32)
    {page : PageId} (hpos : 0 < page.val.toNat) (hlt : page.val.toNat < pages.size) (data : Page) :
    ∃ s' f f', writePage file.id page data s = .ok () s' ∧ s.imageNamed? file.name = some f ∧
      s'.imageNamed? file.name = some f' ∧ ∀ j, f'.bytes[j]? =
        if j / pageSize = page.val.toNat then some (data.byteAt (j % pageSize))
        else f.bytes[j]? := by
  obtain ⟨f, header, hnamed, hstored, hpages⟩ := h.exists_image
  obtain ⟨s', hrun, hholds'⟩ := (h.obeys hfew (.write page data)).exists_ok
    (PageCall.onPages_write_of_check (PageId.check_of_lt hpos hlt))
  obtain ⟨u, s'', hwrite, hdone⟩ := exists_of_bind_ok hrun
  cases hdone
  obtain ⟨f', header', hnamed', hstored', hpages'⟩ := hholds'.exists_image
  refine ⟨s', f, f', hwrite, hnamed, hnamed', fun j => ?_⟩
  obtain rfl : header' = header := by
    refine hstored'.header_eq hstored ?_
    rw [hpages, hpages', Array.size_setIfInBounds]
  rw [hstored.getElem?_bytes, hstored'.getElem?_bytes, hpages, hpages',
    Array.getElem?_setIfInBounds]
  by_cases hzero : j / pageSize = 0
  · rw [if_pos hzero, if_pos hzero, if_neg (by omega)]
  · rw [if_neg hzero, if_neg hzero]
    by_cases hpage : j / pageSize = page.val.toNat
    · rw [hpage, if_pos rfl, if_pos rfl, if_pos hlt]
      rfl
    · rw [if_neg (Ne.symm hpage), if_neg hpage]

/-- What a file does after calls that were answered. -/
structure Upholds (name : String) (past : List PageCall) (file : FileHandle) (s : DiskFiles) :
    Prop where
  /-- The next page that is added has the next number. -/
  allocates : ∃ page s', allocatePage file.id s = .ok page s' ∧
    page.val.toNat = allocations past + 1
  /-- A page that was added is read as it was last written. -/
  reads : ∀ page : PageId, 0 < page.val.toNat → page.val.toNat ≤ allocations past →
    readPage file.id page s = .ok (lastWritten page past) s
  /-- A page that was added is written, and the bytes of the file are as before but for it. -/
  writes : ∀ (page : PageId) (data : Page), 0 < page.val.toNat →
    page.val.toNat ≤ allocations past → ∃ s' f f', writePage file.id page data s = .ok () s' ∧
      s.imageNamed? name = some f ∧ s'.imageNamed? name = some f' ∧ ∀ j, f'.bytes[j]? =
        if j / pageSize = page.val.toNat then some (data.byteAt (j % pageSize)) else f.bytes[j]?
  /-- The pages that were added are counted, with the header page. -/
  counts : ∃ count, pageCount file.id s = .ok count s ∧ count.toNat = allocations past + 1
  /-- The file has room for these pages, and its first page is a header that counts them. -/
  stored : ∃ f header, s.imageNamed? name = some f ∧
    f.bytes.length = (allocations past + 1) * pageSize ∧
    FileHeader.read (Page.ofBytes f.bytes) = .ok header ∧
    header.pageCount.toNat = allocations past + 1
  /-- The file is brought up to date. -/
  syncs : ∃ s', flushHeader file.id s = .ok () s'
  /-- The file is opened again from what the directory has. -/
  reopens : ∃ file' s', openFile name (ofDirectory s.directory) = .ok file' s'

/-- Whatever a file was used for since it was made, and however often it was opened again, it keeps
its pages. -/
theorem Course.upholds (course : Course directory name past file s)
    (hfew : allocations past + 2 < 2 ^ 32) : s.Upholds name past file := by
  obtain ⟨hvalid, rfl, pages, hholds, htells⟩ := course.holds hfew
  have hsize := htells.size
  have hroom : pages.size + 1 < 2 ^ 32 := by omega
  have hcount : (UInt32.ofNat pages.size).toNat = pages.size :=
    UInt32.toNat_ofNat_of_lt' (Nat.lt_of_succ_lt hroom)
  obtain ⟨f, header, hnamed, hstored, hpages⟩ := hholds.exists_image
  have hheader : header.pageCount.toNat = pages.size := by
    rw [← hpages, FileImage.size_pages, hstored.pageCount_eq]
  constructor
  case allocates =>
    obtain ⟨s', hrun, -⟩ := (hholds.obeys hroom .allocate).exists_ok rfl
    obtain ⟨page, s'', hallocate, hdone⟩ := exists_of_bind_ok hrun
    cases hdone
    exact ⟨_, s', hallocate, hcount.trans hsize⟩
  case reads =>
    intro page hpos hle
    obtain ⟨i, header, hopen, rfl⟩ := hholds
    have hlt : page.val.toNat < (s.image i).pages.size := by omega
    exact hopen.readPage_run hpos (hopen.size_pages ▸ hlt) (htells.data page hpos hlt)
  case writes =>
    intro page data hpos hle
    exact hholds.exists_writePage hroom hpos (by omega) data
  case counts =>
    obtain ⟨i, header, hopen, rfl⟩ := hholds
    exact ⟨_, hopen.pageCount_run, hopen.size_pages.symm.trans hsize⟩
  case stored =>
    refine ⟨f, header, hnamed, ?_, ?_, hheader.trans hsize⟩
    · rw [FileImage.length_bytes, hstored.size, hheader, hsize]
    · rw [hstored.ofBytes_bytes, hstored.valid.read_toPage]
  case syncs =>
    obtain ⟨s', hrun, -⟩ := (hholds.obeys hroom .sync).exists_ok rfl
    obtain ⟨u, s'', hsync, -⟩ := exists_of_bind_ok hrun
    exact ⟨s'', hsync⟩
  case reopens =>
    obtain ⟨file', s', hopen, -⟩ := hholds.exists_openFile hvalid
    exact ⟨file', s', hopen⟩

/-- A page is added, written and read after the file was opened again. -/
theorem Course.upholds_reopened : ∃ file s,
    Course [] "t" [.write ⟨1⟩ (Page.ofBytes [1, 2, 3]), .allocate] file s ∧
      readPage file.id ⟨1⟩ s = .ok (Page.ofBytes [1, 2, 3]) s := by
  generalize Page.ofBytes [1, 2, 3] = data
  obtain ⟨file, s, hmade, -⟩ := exists_fresh [] "t" (by decide) rfl
  have start : Course [] "t" [] file s := .made hmade
  obtain ⟨page, s₁, hallocate, -⟩ := (start.upholds (by decide)).allocates
  have grown : Course [] "t" [.allocate] file s₁ :=
    start.answered (c := .allocate) (bind_run_ok hallocate _)
  obtain ⟨s₂, -, -, hwrite, -⟩ := (grown.upholds (by decide)).writes ⟨1⟩ data (by decide)
    (by decide)
  have written := grown.answered (c := .write ⟨1⟩ data) (bind_run_ok hwrite _)
  have hfew : allocations [.write ⟨1⟩ data, .allocate] + 2 < 2 ^ 32 := by
    change 1 + 2 < 2 ^ 32
    decide
  obtain ⟨file', s₃, hopen⟩ := (written.upholds hfew).reopens
  have reopened := written.reopened hopen
  refine ⟨file', s₃, reopened, ?_⟩
  have hread := (reopened.upholds hfew).reads ⟨1⟩ Nat.one_pos (Nat.le_refl 1)
  exact hread.trans (congrArg (EStateM.Result.ok · s₃) (dif_pos ⟨rfl, rfl⟩))

end DiskFiles

end PagedHeap
