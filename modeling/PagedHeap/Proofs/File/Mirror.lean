import PagedHeap.File.Disk
import PagedHeap.Proofs.File.Image
import PagedHeap.Proofs.File.Memory
import PagedHeap.Proofs.File.Tallies
import PagedHeap.Proofs.Pool.Parallel

/-!
# A directory and its mirror in memory

A store in a directory remembers the header of every open file, and writes pages and header into the
file's image.  As long as the remembered header is the stored one, and no two open files share an
image, the store behaves as one in memory that has the pages of the open files:
`DiskFiles.parallel`.

Of the directory no more is changed than the images of the files that are open, and no image becomes
shorter (`DiskFiles.Akin`).
-/

namespace PagedHeap

open PagedHeap.Action

namespace DiskFiles

/-- The names have images of their own with headers, and what is remembered of the files that are
open is what their images say. -/
structure Coherent (d : DiskFiles) : Prop where
  stored : ∀ {name i}, d.named.find? name = some i →
    i < d.images.size ∧ ∃ header, (d.image i).Stored header
  apart : ∀ {name name' i}, d.named.find? name = some i → d.named.find? name' = some i →
    name = name'
  distinct : d.opened.keys.Nodup
  opened : ∀ {name entry}, d.opened.find? name = some entry → entry.file.name = name ∧
    entry.file.id.val.toNat < d.nextId.toNat ∧
    ∃ i header, d.named.find? name = some i ∧ d.files.find? entry.file.id = some ⟨i, header⟩ ∧
      (d.image i).Stored header

/-- The same files are open, the same names are there, and the pages of the open files are those of
their images. -/
structure Mirrors (d : DiskFiles) (m : MemoryFiles) : Prop where
  opened : m.opened = d.opened
  named : ∀ name, m.named.has name = d.named.has name
  pages : ∀ {name entry i}, d.opened.find? name = some entry → d.named.find? name = some i →
    m.pages entry.file.id = (d.image i).pages

/-- Nothing changed but pages of open files, and no file lost pages. -/
structure Akin (d d' : DiskFiles) : Prop where
  named : d'.named = d.named
  opened : d'.opened = d.opened
  nextId : d'.nextId = d.nextId
  size : d'.images.size = d.images.size
  closed : ∀ {name i}, d.named.find? name = some i → d.opened.has name = false →
    d'.image i = d.image i
  grows : ∀ i, (d.image i).size ≤ (d'.image i).size

/-- No file has fewer pages than before. -/
def Grows (d d' : DiskFiles) : Prop := ∀ i, (d.image i).pageCount ≤ (d'.image i).pageCount

/-- The directory has its mirror in memory, and since `origin` only pages of open files changed. -/
structure Beside (origin d : DiskFiles) (m : MemoryFiles) : Prop where
  akin : Akin origin d
  coherent : d.Coherent
  mirrors : d.Mirrors m

variable {origin d d' : DiskFiles} {m m' : MemoryFiles} {file : FileId}

theorem Grows.refl (d : DiskFiles) : Grows d d := fun _ => Nat.le_refl _

theorem Grows.trans {d'' : DiskFiles} (h : Grows d d') (h' : Grows d' d'') : Grows d d'' :=
  fun i => (h i).trans (h' i)

theorem Grows.of_image (h : ∀ i, d'.image i = d.image i) : Grows d d' := fun i => by rw [h]

theorem Akin.keepsPages (h : Akin d d') : Grows d d' := fun i => Nat.div_le_div_right (h.grows i)

theorem Akin.refl (d : DiskFiles) : Akin d d :=
  ⟨rfl, rfl, rfl, rfl, fun _ _ => rfl, fun _ => Nat.le_refl _⟩

theorem Akin.trans {d'' : DiskFiles} (h : Akin d d') (h' : Akin d' d'') : Akin d d'' where
  named := h'.named.trans h.named
  opened := h'.opened.trans h.opened
  nextId := h'.nextId.trans h.nextId
  size := h'.size.trans h.size
  closed hnamed hclosed := by
    have hnamed' := hnamed
    rw [← h.named] at hnamed'
    rw [h'.closed hnamed' (h.opened ▸ hclosed), h.closed hnamed hclosed]
  grows i := (h.grows i).trans (h'.grows i)

/-- A file is open under one name. -/
theorem Coherent.name_unique (h : d.Coherent) {name name' : String} {entry entry' : OpenEntry}
    (hfind : d.opened.find? name = some entry) (hfind' : d.opened.find? name' = some entry')
    (heq : entry.file.id = entry'.file.id) : name = name' := by
  obtain ⟨-, -, i, header, hnamed, hfiles, -⟩ := h.opened hfind
  obtain ⟨-, -, i', header', hnamed', hfiles', -⟩ := h.opened hfind'
  rw [heq, hfiles'] at hfiles
  cases hfiles
  exact h.apart hnamed hnamed'

/-! ## An open file -/

/-- What is known of a file that is open. -/
structure Open (d : DiskFiles) (m : MemoryFiles) (file : FileId) (i : Nat) (header : FileHeader) :
    Prop where
  remembered : d.files.find? file = some ⟨i, header⟩
  stored : (d.image i).Stored header
  inRange : i < d.images.size
  pages : m.pages file = (d.image i).pages
  entry : ∃ name entry, d.opened.find? name = some entry ∧ entry.file.id = file ∧
    d.named.find? name = some i

theorem Beside.exists_open (h : Beside origin d m) (hknown : origin.opened.IsOpen file) :
    ∃ i header, Open d m file i header := by
  obtain ⟨name, entry, hfind, rfl⟩ := hknown
  rw [← h.akin.opened] at hfind
  obtain ⟨-, -, i, header, hnamed, hfiles, hstored⟩ := h.coherent.opened hfind
  exact ⟨i, header, hfiles, hstored, (h.coherent.stored hnamed).1,
    h.mirrors.pages hfind hnamed, name, entry, hfind, rfl, hnamed⟩

theorem openFileOf_run {f : OpenFile} (h : d.files.find? file = some f) :
    openFileOf file d = .ok f d := by
  refine (bind_run_ok rfl _).trans ?_
  simp only [h]
  rfl

theorem Open.openFileOf_eq {i : Nat} {header : FileHeader} (h : Open d m file i header) :
    openFileOf file d = .ok ⟨i, header⟩ d := openFileOf_run h.remembered

theorem Open.size_pages {i : Nat} {header : FileHeader} (h : Open d m file i header) :
    (m.pages file).size = header.pageCount.toNat := by
  rw [h.pages, FileImage.size_pages, h.stored.pageCount_eq]

theorem image_modify (d : DiskFiles) (i j : Nat) (f : FileImage → FileImage) :
    ({ d with images := d.images.modify i f } : DiskFiles).image j =
      if i = j ∧ i < d.images.size then f (d.image j) else d.image j := by
  unfold image
  simp only [Array.getElem?_modify]
  by_cases hij : i = j
  · subst hij
    by_cases hi : i < d.images.size
    · simp [hi]
    · simp [hi]
  · simp [hij]

/-- A name stands for this file and its image, or for another file and another image. -/
theorem Open.cases {i j : Nat} {header : FileHeader} (hopen : Open d m file i header)
    (h : d.Coherent) {name : String} {entry : OpenEntry}
    (hfind : d.opened.find? name = some entry) (hname : d.named.find? name = some j) :
    entry.file.id = file ∧ j = i ∨ entry.file.id ≠ file ∧ j ≠ i := by
  obtain ⟨title, own, hown, hid, htitle⟩ := hopen.entry
  by_cases heq : name = title
  · subst heq
    cases hown.symm.trans hfind
    cases htitle.symm.trans hname
    exact .inl ⟨hid, rfl⟩
  · exact .inr ⟨fun hfile => heq (h.name_unique hfind hown (hfile.trans hid.symm)),
      fun hj => heq (h.apart hname (hj ▸ htitle))⟩

/-- A file that is not open has another image. -/
theorem Open.ne_of_closed {i j : Nat} {header : FileHeader} (hopen : Open d m file i header)
    (h : d.Coherent) {name : String} (hname : d.named.find? name = some j)
    (hclosed : d.opened.has name = false) : j ≠ i := by
  obtain ⟨title, own, hown, -, htitle⟩ := hopen.entry
  rintro rfl
  obtain rfl := h.apart hname htitle
  unfold Table.has at hclosed
  rw [hown] at hclosed
  cases hclosed

/-- The image of one open file changes, and its mirror with it. -/
theorem Beside.change (h : Beside origin d m) {i : Nat} {header header' : FileHeader}
    (hopen : Open d m file i header)
    (hsame : d'.named = d.named ∧ d'.opened = d.opened ∧ d'.nextId = d.nextId ∧
      d'.images.size = d.images.size)
    (hmirror : m'.named = m.named ∧ m'.opened = m.opened)
    (hfiles : ∀ other, other ≠ file → d'.files.find? other = d.files.find? other ∧
      m'.pages other = m.pages other)
    (himages : ∀ j, j ≠ i → d'.image j = d.image j)
    (hself : d'.files.find? file = some ⟨i, header'⟩) (hstored : (d'.image i).Stored header')
    (hpages : m'.pages file = (d'.image i).pages)
    (hgrows : (d.image i).size ≤ (d'.image i).size) : Beside origin d' m' := by
  obtain ⟨hnamed, hopened, hnext, hsize⟩ := hsame
  have hakin : Akin d d' := {
    named := hnamed
    opened := hopened
    nextId := hnext
    size := hsize
    closed := fun hname hclosed => himages _ (hopen.ne_of_closed h.coherent hname hclosed)
    grows := fun j => by
      by_cases hj : j = i
      · exact hj ▸ hgrows
      · rw [himages j hj] }
  refine ⟨h.akin.trans hakin, ⟨fun {name j} hname => ?_, fun {_ _ _} hname hname' => ?_, ?_,
    fun {name entry} hfind => ?_⟩, ⟨?_, fun name => ?_, fun {name entry j} hfind hname => ?_⟩⟩
  · rw [hnamed] at hname
    rw [hsize]
    by_cases hj : j = i
    · exact ⟨(h.coherent.stored hname).1, header', hj ▸ hstored⟩
    · rw [himages j hj]
      exact h.coherent.stored hname
  · rw [hnamed] at hname hname'
    exact h.coherent.apart hname hname'
  · rw [hopened]
    exact h.coherent.distinct
  · rw [hopened] at hfind
    rw [hnamed, hnext]
    obtain ⟨htitle, hlt, j, old, hname, hold, hstored'⟩ := h.coherent.opened hfind
    refine ⟨htitle, hlt, j, ?_⟩
    rcases hopen.cases h.coherent hfind hname with ⟨hid, rfl⟩ | ⟨hother, hj⟩
    · exact ⟨header', hname, hid ▸ hself, hstored⟩
    · rw [(hfiles _ hother).1, himages j hj]
      exact ⟨old, hname, hold, hstored'⟩
  · rw [hmirror.2, hopened, h.mirrors.opened]
  · rw [hmirror.1, hnamed, h.mirrors.named]
  · rw [hopened] at hfind
    rw [hnamed] at hname
    rcases hopen.cases h.coherent hfind hname with ⟨hid, rfl⟩ | ⟨hother, hj⟩
    · rw [hid, hpages]
    · rw [(hfiles _ hother).2, himages j hj]
      exact h.mirrors.pages hfind hname

/-! ## The operations on pages -/

/-- Both stores make the same check of a page number. -/
theorem Open.check_eq {i : Nat} {header : FileHeader} (h : Open d m file i header) (page : PageId) :
    page.check (m.pages file).size = page.check header.pageCount.toNat := by rw [h.size_pages]

variable {exact : Prop}

/-- A page is read from the image and from its mirror. -/
theorem Beside.readPage (hknown : origin.opened.IsOpen file) (page : PageId) :
    Keeps exact (Beside origin) (readPage file page) (MemoryFiles.readPage file page) := by
  intro d m h
  obtain ⟨i, header, hopen⟩ := h.exists_open hknown
  refine .of_left hopen.openFileOf_eq (.of_right (b := m.pages file) rfl ?_)
  simp only
  rw [hopen.check_eq]
  refine agrees_ofResult_bind (fun _ hcheck => ?_) fun _ _ => h
  obtain ⟨hpos, hlt⟩ := PageId.lt_of_check hcheck
  have hdata : (m.pages file)[page.val.toNat]? = some ((d.image i).chunk page.val.toNat) := by
    rw [hopen.pages, FileImage.getElem?_pages, hopen.stored.pageCount_eq, if_pos hlt,
      if_neg (Nat.ne_of_gt hpos)]
  refine .of_left (b := d) rfl ?_
  simp only [hopen.stored.page?_eq hlt, hdata]
  exact agrees_pure h

/-- A page is written into the image and into its mirror. -/
theorem Beside.writePage (hknown : origin.opened.IsOpen file) (page : PageId) (data : Page) :
    Keeps exact (Beside origin) (writePage file page data)
      (MemoryFiles.writePage file page data) := by
  intro d m h
  obtain ⟨i, header, hopen⟩ := h.exists_open hknown
  have hdata : Page.ofBlock data = .ok data := rfl
  refine .of_left hopen.openFileOf_eq ?_
  unfold MemoryFiles.writePage
  rw [hdata]
  refine .of_right (b := data) rfl (.of_right (b := m.pages file) rfl ?_)
  simp only
  rw [hopen.check_eq]
  refine agrees_ofResult_bind (fun _ hcheck => ?_) fun _ _ => h
  obtain ⟨hpos, hlt⟩ := PageId.lt_of_check hcheck
  obtain ⟨hstored, hpages⟩ := hopen.stored.writePage hpos hlt data
  refine .of_left (b := data) rfl (agrees_modify ?_)
  have himage (j : Nat) := image_modify d i j (·.writePage page.val.toNat data)
  have hsome := MemoryFiles.isSome_of_pos (Nat.lt_of_lt_of_eq (Nat.zero_lt_of_lt hlt)
    hopen.size_pages.symm)
  have hself := himage i
  rw [if_pos ⟨rfl, hopen.inRange⟩] at hself
  refine h.change hopen ⟨rfl, rfl, rfl, Array.size_modify⟩ ⟨rfl, rfl⟩
    (fun other hother => ⟨rfl, ?_⟩)
    (fun j hj => ?_) hopen.remembered ?_ ?_ ?_
  · rw [MemoryFiles.pages_adjust, if_neg fun hfile => hother hfile.1]
  · rw [himage, if_neg fun hij => hj hij.1.symm]
  · rw [hself]
    exact hstored
  · rw [hself, MemoryFiles.pages_adjust, if_pos ⟨rfl, hsome⟩, hopen.pages, hpages]
  · rw [hself]
    exact Nat.le_max_left _ _

/-- The remembered header is the stored one, and storing it again changes no page. -/
theorem Beside.flushHeader (hknown : origin.opened.IsOpen file) :
    Keeps exact (Beside origin) (flushHeader file)
      (PageStore.sync file : Action MemoryFiles Unit) := by
  intro d m h
  obtain ⟨i, header, hopen⟩ := h.exists_open hknown
  obtain ⟨hstored, hpages⟩ := hopen.stored.writeHeader
  have himage (j : Nat) := image_modify d i j (·.writePage 0 header.toPage)
  have hself := himage i
  rw [if_pos ⟨rfl, hopen.inRange⟩] at hself
  refine .of_left hopen.openFileOf_eq (agrees_modify (g := id) ?_)
  refine h.change hopen ⟨rfl, rfl, rfl, Array.size_modify⟩ ⟨rfl, rfl⟩ (fun _ _ => ⟨rfl, rfl⟩)
    (fun j hj => ?_) hopen.remembered ?_ ?_ ?_
  · rw [himage, if_neg fun hij => hj hij.1.symm]
  · rw [hself]
    exact hstored
  · rw [hself, hpages]
    exact hopen.pages
  · rw [hself]
    exact Nat.le_max_left _ _

/-- The store after a page was added to an open file. -/
def grown (d : DiskFiles) (file : FileId) (i : Nat) (header header' : FileHeader) : DiskFiles :=
  { d with
    files := d.files.put file ⟨i, header'⟩
    images := (d.images.modify i (·.writePage header.pageCount.toNat (Block.zero _))).modify i
      (·.writePage 0 header'.toPage) }

theorem image_grown (d : DiskFiles) (file : FileId) (i j : Nat) (header header' : FileHeader) :
    (grown d file i header header').image j =
      if i = j ∧ i < d.images.size then
        ((d.image j).writePage header.pageCount.toNat (Block.zero _)).writePage 0 header'.toPage
      else d.image j := by
  have hfirst := image_modify d i j (·.writePage header.pageCount.toNat (Block.zero _))
  have hsecond := image_modify { d with
    images := d.images.modify i (·.writePage header.pageCount.toNat (Block.zero _)) } i j
    (·.writePage 0 header'.toPage)
  rw [Array.size_modify] at hsecond
  refine hsecond.trans ?_
  split
  · next hij => rw [hfirst, if_pos hij]
  · next hij => rw [hfirst, if_neg hij]

/-- A page is added to an open file, whatever else is in the store. -/
theorem allocatePage_run {i : Nat} {header : FileHeader}
    (h : d.files.find? file = some ⟨i, header⟩) (hroom : header.pageCount.toNat + 1 < 2 ^ 32) :
    allocatePage file d = .ok ⟨header.pageCount⟩ (grown d file i header
      { header with pageCount := UInt32.ofNat (header.pageCount.toNat + 1) }) := by
  obtain ⟨header', hheader'⟩ : ∃ header' : FileHeader,
      header' = { header with pageCount := UInt32.ofNat (header.pageCount.toNat + 1) } := ⟨_, rfl⟩
  obtain ⟨d₁, hd₁⟩ : ∃ d₁ : DiskFiles, d₁ = { d with
      files := d.files.put file ⟨i, header'⟩
      images := d.images.modify i (·.writePage header.pageCount.toNat (Block.zero _)) } := ⟨_, rfl⟩
  have hallocate : header.allocate = .ok (⟨header.pageCount⟩, header') := by
    have hsize : header.pageCount.toNat + 1 < UInt32.size := hroom
    unfold FileHeader.allocate count32
    rw [if_pos hsize, hheader']
    rfl
  have hremembered : openFileOf file d₁ = .ok ⟨i, header'⟩ d₁ := by
    refine openFileOf_run ?_
    rw [hd₁, Table.find?_put_self]
  have hflush : DiskFiles.flushHeader file d₁ = .ok () (grown d file i header header') :=
    (bind_run_ok hremembered _).trans (by rw [hd₁]; rfl)
  rw [← hheader']
  rw [hd₁] at hflush
  refine (bind_run_ok (openFileOf_run h) _).trans ?_
  simp only [hallocate]
  exact (bind_run_ok hflush _).trans rfl

/-- The image after a page was added to the file. -/
theorem stored_grown (file : FileId) {i : Nat} {header header' : FileHeader}
    (hin : i < d.images.size) (hstored : (d.image i).Stored header)
    (hsize : header'.pageSize = header.pageSize)
    (hcount : header'.pageCount.toNat = header.pageCount.toNat + 1) :
    ((grown d file i header header').image i).Stored header' ∧
      ((grown d file i header header').image i).pages =
        (d.image i).pages.push (Block.zero pageSize) := by
  rw [image_grown, if_pos ⟨rfl, hin⟩]
  exact hstored.grow hsize hcount (Block.zero pageSize)

/-- One more page is added to the image and to its mirror, unless the number of pages overflows. -/
theorem Beside.agrees_allocatePage (h : Beside origin d m) (hknown : origin.opened.IsOpen file)
    (hfew : exact → (m.pages file).size + 1 < 2 ^ 32) :
    Agrees exact (allocatePage file) (MemoryFiles.allocatePage file) d m (fun _ => Beside origin)
      fun _ => Beside origin := by
  obtain ⟨i, header, hopen⟩ := h.exists_open hknown
  by_cases hroom : header.pageCount.toNat + 1 < UInt32.size
  · have hsome := MemoryFiles.isSome_of_pos
      (Nat.lt_of_lt_of_eq hopen.stored.pos hopen.size_pages.symm)
    have hnumber : UInt32.ofNat (m.pages file).size = header.pageCount := by
      rw [hopen.size_pages, UInt32.ofNat_toNat]
    have hmirror : MemoryFiles.allocatePage file m = .ok ⟨header.pageCount⟩ { m with
        contents := m.contents.adjust file (·.push (Block.zero pageSize)) } := by
      rw [← hnumber]
      rfl
    have hrun := allocatePage_run hopen.remembered hroom
    obtain ⟨header', hheader'⟩ : ∃ header' : FileHeader,
        header' = { header with pageCount := UInt32.ofNat (header.pageCount.toNat + 1) } := ⟨_, rfl⟩
    have hcount : header'.pageCount.toNat = header.pageCount.toNat + 1 := by
      rw [hheader']
      exact UInt32.toNat_ofNat_of_lt' hroom
    obtain ⟨hstored, hpages⟩ := stored_grown file hopen.inRange hopen.stored
      (show header'.pageSize = header.pageSize by rw [hheader']) hcount
    rw [← hheader'] at hrun
    refine .of_run hrun hmirror (h.change hopen ⟨rfl, rfl, rfl, ?_⟩ ⟨rfl, rfl⟩
      (fun other hother => ⟨?_, ?_⟩) (fun j hj => ?_) (Table.find?_put_self _ _ _) hstored ?_ ?_)
    · unfold grown
      simp only [Array.size_modify]
    · exact Table.find?_put_of_ne (Ne.symm hother) _ _
    · rw [MemoryFiles.pages_adjust, if_neg fun hfile => hother hfile.1]
    · rw [image_grown, if_neg fun hij => hj hij.1.symm]
    · rw [MemoryFiles.pages_adjust, if_pos ⟨rfl, hsome⟩, hopen.pages, hpages]
    · rw [image_grown, if_pos ⟨rfl, hopen.inRange⟩]
      exact (Nat.le_max_left _ _).trans (Nat.le_max_left _ _)
  · refine .of_left hopen.openFileOf_eq ?_
    unfold FileHeader.allocate count32
    rw [if_neg hroom]
    intro hexact
    exact absurd (hopen.size_pages ▸ hfew hexact) hroom

theorem Beside.allocatePage (hexact : ¬exact) (hknown : origin.opened.IsOpen file) :
    Keeps exact (Beside origin) (allocatePage file) (MemoryFiles.allocatePage file) :=
  fun _ _ h => h.agrees_allocatePage hknown fun hexact' => absurd hexact' hexact

/-- The pages are counted in the remembered header and in the mirror. -/
theorem Beside.pageCount (hknown : origin.opened.IsOpen file) :
    Keeps exact (Beside origin) (pageCount file) (MemoryFiles.pageCount file) := by
  intro d m h
  obtain ⟨i, header, hopen⟩ := h.exists_open hknown
  refine .of_left hopen.openFileOf_eq (.of_right (b := m.pages file) rfl ?_)
  have hcount : UInt32.ofNat (m.pages file).size = header.pageCount := by
    rw [hopen.size_pages, UInt32.ofNat_toNat]
  rw [hcount]
  exact agrees_pure h

/-- A directory and its mirror, side by side. -/
def parallel (exact : Prop) (origin : DiskFiles) (capacity : Nat) :
    PageStore.Parallel exact DiskFiles MemoryFiles where
  rel := Beside origin
  known := origin.opened.IsOpen
  capacity := capacity
  read hknown page := Beside.readPage hknown page
  write hknown page data := Beside.writePage hknown page data
  allocate hexact _ hknown := Beside.allocatePage hexact hknown
  count hknown := Beside.pageCount hknown
  sync hknown := Beside.flushHeader hknown

end DiskFiles

end PagedHeap
