import PagedHeap.Proofs.File.Memory

/-!
# Calls on an open file

Whatever store a file is in, callers see no more of it than what comes of their calls (`PageCall`).
For them the file is the array of its pages, with the store's own page at the start, and what comes
of a call can be read off this array (`PageCall.onPages`).  `PageCall.Obeys` says that it comes of
the call on a store, with an error of the same kind where it is refused.

Files in memory obey, but for calls that are wrong in two ways: data of a wrong length for a page
that the file does not have is refused because of its length (`PageCall.Misplaced`).
-/

namespace PagedHeap

open PagedHeap.Action

/-- The errors are of one kind. -/
def StorageError.Alike (e e' : StorageError) : Prop := e.ctorIdx = e'.ctorIdx

/-- Makes a file and opens it. -/
def FileStore.fresh {σ : Type} [FileStore σ] (name : String) : Action σ FileHandle := do
  create name
  openFile name

/-- A call on an open file. -/
inductive PageCall where
  /-- Adds a page. -/
  | allocate
  /-- Reads a page. -/
  | read (page : PageId)
  /-- Writes data of any length into a page. -/
  | write (page : PageId) {size : Nat} (data : Block size)
  /-- Asks for the first page that callers can access. -/
  | first
  /-- Asks for the number of pages. -/
  | count
  /-- Brings the file up to date. -/
  | sync

/-- What is answered to a call. -/
inductive PageAnswer where
  /-- It is done. -/
  | done
  /-- The number of a page. -/
  | page (page : PageId)
  /-- The bytes of a page. -/
  | data (data : Page)
  /-- The number of pages. -/
  | count (count : UInt32)

namespace PageCall

variable {σ : Type} [PageStore σ] {c : PageCall} {file : FileId} {s : σ} {pages pages' : Array Page}
variable {a : PageAnswer}

/-- What a call does to a file of a store. -/
def carryOut (file : FileId) : PageCall → Action σ PageAnswer
  | allocate => return .page (← PageStore.allocatePage file)
  | read page => return .data (← PageStore.readPage file page)
  | write page data => do
    PageStore.writePage file page data
    return .done
  | first => return .page (← PageStore.firstPage file)
  | count => return .count (← PageStore.pageCount file)
  | sync => do
    PageStore.sync file
    return .done

/-- The store after a call, answered or refused. -/
def left (file : FileId) (c : PageCall) (s : σ) : σ :=
  match c.carryOut file s with
  | .ok _ s' => s'
  | .error _ s' => s'

/-- The store after several calls. -/
def after (file : FileId) : List PageCall → σ → σ
  | [], s => s
  | c :: cs, s => after file cs (c.left file s)

/-- The number of pages that a call adds. -/
def adds : PageCall → Nat
  | allocate => 1
  | _ => 0

/-- The number of pages that several calls add. -/
def allocations (cs : List PageCall) : Nat := (cs.map adds).sum

theorem allocations_cons (c : PageCall) (cs : List PageCall) :
    allocations (c :: cs) = c.adds + allocations cs := rfl

/-- What comes of a call on a file with the given pages. -/
def onPages (pages : Array Page) : PageCall → Result (PageAnswer × Array Page)
  | allocate => .ok (.page ⟨UInt32.ofNat pages.size⟩, pages.push (Block.zero pageSize))
  | read page => do
    page.check pages.size
    return (.data (pages[page.val.toNat]?.getD (Block.zero pageSize)), pages)
  | write page data => do
    page.check pages.size
    let data ← Page.ofBlock data
    return (.done, pages.setIfInBounds page.val.toNat data)
  | first => if 1 < pages.size then .ok (.page ⟨1⟩, pages) else .refuse (.pageNotFound ⟨1⟩)
  | count => .ok (.count (UInt32.ofNat pages.size), pages)
  | sync => .ok (.done, pages)

/-- What comes of the call on the store comes of it on the pages that the file holds, up to what
errors are taken for alike. -/
def Obeys (alike : StorageError → StorageError → Prop) (holds : σ → Array Page → Prop)
    (c : PageCall)
    (file : FileId) (s : σ) (pages : Array Page) : Prop :=
  (c.carryOut file).Ensures s
    (fun a s' => ∃ pages', c.onPages pages = .ok (a, pages') ∧ holds s' pages')
    fun e s' => s' = s ∧ ∃ e', c.onPages pages = .refuse e' ∧ alike e e'

/-- The call asks for something and changes no page. -/
def Asks : PageCall → Prop
  | allocate | write _ _ => False
  | read _ | first | count | sync => True

/-- The data has a wrong length, and the file does not have the page. -/
def Misplaced (pageCount : Nat) : PageCall → Prop
  | @write page size _ => size ≠ pageSize ∧ pageCount ≤ page.val.toNat
  | _ => False

theorem left_of_ok {s' : σ} (h : c.carryOut file s = .ok a s') : c.left file s = s' := by
  unfold left
  rw [h]

theorem left_of_error {f : Failure} {s' : σ} (h : c.carryOut file s = .error f s') :
    c.left file s = s' := by
  unfold left
  rw [h]

/-- A call is answered, and the file holds the pages that it gets by the call, or it is refused and
nothing changes. -/
theorem Obeys.cases {alike : StorageError → StorageError → Prop} {holds : σ → Array Page → Prop}
    (h : c.Obeys alike holds file s pages) :
    (∃ a s' pages', c.carryOut file s = .ok a s' ∧ c.onPages pages = .ok (a, pages') ∧
      holds s' pages') ∨
      ∃ e e', c.carryOut file s = .error (.error e) s ∧ c.onPages pages = .refuse e' ∧
        alike e e' := by
  cases hrun : c.carryOut file s with
  | ok a s' =>
    obtain ⟨pages', hon, hholds⟩ := Ensures.of_ok h hrun
    exact .inl ⟨a, s', pages', rfl, hon, hholds⟩
  | error f s' =>
    cases f with
    | error e =>
      obtain ⟨rfl, e', hon, halike⟩ := Ensures.of_error h hrun
      exact .inr ⟨e, e', rfl, hon, halike⟩
    | trap t => exact absurd hrun (Ensures.not_trap h)

/-- A call that the pages of the file answer is answered. -/
theorem Obeys.exists_ok {alike : StorageError → StorageError → Prop} {holds : σ → Array Page → Prop}
    (h : c.Obeys alike holds file s pages) (hon : c.onPages pages = .ok (a, pages')) :
    ∃ s', c.carryOut file s = .ok a s' ∧ holds s' pages' := by
  rcases h.cases with ⟨a', s', pages'', hrun, hon', hholds⟩ | ⟨e, e', -, hon', -⟩
  · cases hon.symm.trans hon'
    exact ⟨s', hrun, hholds⟩
  · cases hon.symm.trans hon'

theorem Obeys.exists_refusal {alike : StorageError → StorageError → Prop}
    {holds : σ → Array Page → Prop} (h : c.Obeys alike holds file s pages) {e' : StorageError}
    (hon : c.onPages pages = .refuse e') :
    ∃ e, c.carryOut file s = .error (.error e) s ∧ alike e e' := by
  rcases h.cases with ⟨a, s', pages', -, hon', -⟩ | ⟨e, e'', hrun, hon', halike⟩
  · cases hon.symm.trans hon'
  · cases hon.symm.trans hon'
    exact ⟨e, hrun, halike⟩

/-! ## Calls on an array of pages -/

theorem onPages_read_of_check {page : PageId} (h : page.check pages.size = .ok ()) :
    (read page).onPages pages =
      .ok (.data (pages[page.val.toNat]?.getD (Block.zero pageSize)), pages) := by
  simp only [onPages, h]
  rfl

theorem onPages_read_of_refused {page : PageId} {e : StorageError}
    (h : page.check pages.size = .error (.error e)) : (read page).onPages pages = .refuse e := by
  simp only [onPages, h]
  rfl

theorem onPages_write_of_check {page : PageId} {data : Page} (h : page.check pages.size = .ok ()) :
    (write page data).onPages pages = .ok (.done, pages.setIfInBounds page.val.toNat data) := by
  simp only [onPages, h]
  rfl

theorem onPages_write_of_refused {page : PageId} {size : Nat} {data : Block size} {e : StorageError}
    (h : page.check pages.size = .error (.error e)) :
    (write page data).onPages pages = .refuse e := by
  simp only [onPages, h]
  rfl

theorem onPages_write_of_size {page : PageId} {size : Nat} {data : Block size} {e : StorageError}
    (h : page.check pages.size = .ok ()) (hdata : Page.ofBlock data = .error (.error e)) :
    (write page data).onPages pages = .refuse e := by
  simp only [onPages, h, hdata]
  rfl

/-- A call that is answered adds a page of zeros, puts data into a page or leaves the pages as they
are. -/
theorem onPages_cases (h : c.onPages pages = .ok (a, pages')) :
    (c = allocate ∧ pages' = pages.push (Block.zero pageSize)) ∨
      (∃ page, ∃ data : Page, c = write page data ∧
        pages' = pages.setIfInBounds page.val.toNat data) ∨
      c.Asks ∧ pages' = pages := by
  cases c with
  | allocate =>
    cases h
    exact .inl ⟨rfl, rfl⟩
  | read page =>
    obtain ⟨-, -, hpure⟩ := Result.bind_eq_ok.1 h
    cases hpure
    exact .inr (.inr ⟨trivial, rfl⟩)
  | write page data =>
    obtain ⟨-, -, hrest⟩ := Result.bind_eq_ok.1 h
    rcases Page.ofBlock_cases data with ⟨rfl, hdata⟩ | ⟨-, hdata⟩
    · rw [hdata] at hrest
      cases hrest
      exact .inr (.inl ⟨page, data, rfl, rfl⟩)
    · rw [hdata] at hrest
      cases hrest
  | first =>
    simp only [onPages] at h
    split at h
    · cases h
      exact .inr (.inr ⟨trivial, rfl⟩)
    · cases h
  | count =>
    cases h
    exact .inr (.inr ⟨trivial, rfl⟩)
  | sync =>
    cases h
    exact .inr (.inr ⟨trivial, rfl⟩)

theorem Asks.adds_eq (h : c.Asks) : c.adds = 0 := by
  cases c with
  | allocate => exact h.elim
  | _ => rfl

/-- A call that is answered adds the pages that it is to add. -/
theorem size_of_onPages (h : c.onPages pages = .ok (a, pages')) :
    pages'.size = pages.size + c.adds := by
  rcases onPages_cases h with ⟨rfl, rfl⟩ | ⟨page, data, rfl, rfl⟩ | ⟨hasks, rfl⟩
  · exact Array.size_push _
  · exact Array.size_setIfInBounds
  · rw [hasks.adds_eq, Nat.add_zero]

/-- A page is added in any case. -/
theorem adds_of_refused {e : StorageError} (h : c.onPages pages = .refuse e) : c.adds = 0 := by
  cases c with
  | allocate => cases h
  | _ => rfl

end PageCall

/-! ## Files in memory -/

namespace MemoryFiles

variable {s : MemoryFiles} {file : FileId} {pages : Array Page}

/-- The file has these pages, one at least. -/
structure Holds (s : MemoryFiles) (file : FileId) (pages : Array Page) : Prop where
  pages_eq : s.pages file = pages
  pos : 0 < pages.size

theorem Holds.adjust (h : s.Holds file pages) (f : Array Page → Array Page)
    (hpos : 0 < (f pages).size) :
    ({ s with contents := s.contents.adjust file f } : MemoryFiles).Holds file (f pages) := by
  have hsome := isSome_of_pos (Nat.lt_of_lt_of_eq h.pos (congrArg Array.size h.pages_eq.symm))
  refine ⟨?_, hpos⟩
  rw [pages_adjust, if_pos ⟨rfl, hsome⟩, h.pages_eq]

theorem Holds.obeys_read (h : s.Holds file pages) (page : PageId) :
    (PageCall.read page).Obeys StorageError.Alike (·.Holds file) file s pages := by
  have hpages := h.pages_eq
  change (readPage file page >>= _).Ensures s _ _
  rw [ensures_bind]
  refine (ensures_readPage s file page).mono ?_ ?_
  · rintro data t ⟨rfl, hhas, rfl⟩
    have hcheck := PageId.check_of_lt hhas.1 hhas.2
    simp only [hpages] at hcheck
    refine ⟨pages, ?_, h⟩
    rw [PageCall.onPages_read_of_check hcheck, contentsOf, hpages]
  · rintro e t ⟨rfl, -, hcheck⟩
    rw [hpages] at hcheck
    exact ⟨rfl, e, PageCall.onPages_read_of_refused hcheck, rfl⟩

/-- The length of the data is checked first, which makes no difference to a call that is wrong in
one way. -/
theorem Holds.obeys_write (h : s.Holds file pages) {page : PageId} {size : Nat} {data : Block size}
    (hplaced : ¬(PageCall.write page data).Misplaced pages.size) :
    (PageCall.write page data).Obeys StorageError.Alike (·.Holds file) file s pages := by
  change (writePage file page data >>= _).Ensures s _ _
  unfold writePage
  rw [ensures_bind, ensures_bind]
  rcases Page.ofBlock_cases data with ⟨rfl, hdata⟩ | ⟨hsize, hdata⟩
  · rw [ensures_ofResult_ok hdata, ensures_bind, ensures_readPages, ensures_bind, h.pages_eq]
    rcases PageId.check_ok_or_refused page pages.size with ⟨hcheck, -⟩ | ⟨e, hcheck, -⟩
    · rw [ensures_ofResult_ok hcheck, ensures_modify, ensures_pure]
      exact ⟨_, PageCall.onPages_write_of_check hcheck, h.adjust _ (by
        rw [Array.size_setIfInBounds]
        exact h.pos)⟩
    · rw [ensures_ofResult_refuse hcheck]
      exact ⟨rfl, e, PageCall.onPages_write_of_refused hcheck, rfl⟩
  · rw [ensures_ofResult_refuse hdata]
    refine ⟨rfl, ?_⟩
    rcases PageId.check_cases page pages.size with ⟨hcheck, -⟩ | ⟨hheader, -⟩ | ⟨-, hle⟩
    · exact ⟨_, PageCall.onPages_write_of_size hcheck hdata, rfl⟩
    · exact ⟨_, PageCall.onPages_write_of_refused hheader, rfl⟩
    · exact absurd ⟨hsize, hle⟩ hplaced

/-- A call that is not wrong in two ways comes to what the pages of the file tell. -/
theorem Holds.obeys (h : s.Holds file pages) (hfew : pages.size < 2 ^ 32) {c : PageCall}
    (hplaced : ¬c.Misplaced pages.size) :
    c.Obeys StorageError.Alike (·.Holds file) file s pages := by
  have hpages := h.pages_eq
  cases c with
  | allocate =>
    change (allocatePage file >>= _).Ensures s _ _
    unfold allocatePage
    simp only [ensures_bind, ensures_readPages, ensures_modify, ensures_pure, hpages]
    exact ⟨_, rfl, h.adjust _ (by rw [Array.size_push]; exact Nat.succ_pos _)⟩
  | read page => exact h.obeys_read page
  | write page data => exact h.obeys_write hplaced
  | first =>
    change (PageStore.firstPage file >>= _).Ensures s _ _
    have hcount : (UInt32.ofNat pages.size).toNat = pages.size := UInt32.toNat_ofNat_of_lt' hfew
    unfold PageStore.firstPage
    change ((pageCount file >>= _) >>= _).Ensures s _ _
    unfold pageCount
    simp only [ensures_bind, ensures_readPages, ensures_pure, hpages, hcount]
    by_cases hlt : 1 < pages.size
    · simp only [hlt, if_true, ensures_pure]
      exact ⟨pages, if_pos hlt, h⟩
    · simp only [hlt, if_false, ensures_refuse]
      exact ⟨trivial, _, if_neg hlt, rfl⟩
  | count =>
    change (pageCount file >>= _).Ensures s _ _
    unfold pageCount
    simp only [ensures_bind, ensures_readPages, ensures_pure, hpages]
    exact ⟨pages, rfl, h⟩
  | sync => exact ⟨pages, rfl, h⟩

/-- Data of a wrong length is refused, whatever the page is. -/
theorem writePage_of_size (s : MemoryFiles) (file : FileId) (page : PageId) {size : Nat}
    (data : Block size) (hsize : size ≠ pageSize) :
    (PageCall.write page data).carryOut file s =
      .error (.error (.invalidOperation s!"page data must be {pageSize} bytes, got {size}")) s := by
  rcases Page.ofBlock_cases data with ⟨rfl, -⟩ | ⟨-, hdata⟩
  · exact absurd rfl hsize
  · have hwrite : writePage file page data s =
        .error (.error
          (.invalidOperation s!"page data must be {pageSize} bytes, got {size}")) s := by
      unfold writePage
      rw [hdata]
      rfl
    exact bind_run_error hwrite _

end MemoryFiles

end PagedHeap
