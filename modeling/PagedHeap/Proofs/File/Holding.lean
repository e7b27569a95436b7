import PagedHeap.Proofs.File.Books
import PagedHeap.Proofs.File.Calls
import PagedHeap.Proofs.File.Offer

/-!
# A file of a directory and its pages

While a file of a directory is open, its bytes are the header that is remembered and the pages
behind it (`DiskFiles.Attached`).  Every call on the file leaves it so, and comes to what its pages
tell (`DiskFiles.Holds.obeys`).  Nothing of this depends on the other files of the directory.

Nor does it depend on how long the file is open.  The bytes of the file are all that is left when
nobody uses the directory any more, and from them the file is opened again with the same pages
(`DiskFiles.Holds.exists_openFile`).
-/

namespace PagedHeap

open PagedHeap.Action

namespace DiskFiles

variable {s s' : DiskFiles} {file : FileHandle} {i : Nat} {header header' : FileHeader}
variable {pages : Array Page} {name : String}

/-- The file is open, and its image has what is remembered of it. -/
structure Attached (s : DiskFiles) (file : FileHandle) (i : Nat) (header : FileHeader) : Prop where
  named : s.named.find? file.name = some i
  remembered : s.files.find? file.id = some ⟨i, header⟩
  inRange : i < s.images.size
  stored : (s.image i).Stored header

/-- The file is open and has these pages. -/
def Holds (s : DiskFiles) (file : FileHandle) (pages : Array Page) : Prop :=
  ∃ i header, s.Attached file i header ∧ (s.image i).pages = pages

theorem Attached.size_pages (h : s.Attached file i header) :
    (s.image i).pages.size = header.pageCount.toNat := by
  rw [FileImage.size_pages, h.stored.pageCount_eq]

/-- The image of the file is changed. -/
theorem Attached.modify (h : s.Attached file i header) {f : FileImage → FileImage}
    (hf : (f (s.image i)).Stored header ∧ (f (s.image i)).pages = pages) :
    Holds { s with images := s.images.modify i f } file pages := by
  have himage := image_modify s i i f
  rw [if_pos ⟨rfl, h.inRange⟩] at himage
  refine ⟨i, header, ⟨h.named, h.remembered, ?_, ?_⟩, ?_⟩
  · rw [Array.size_modify]
    exact h.inRange
  · rw [himage]
    exact hf.1
  · rw [himage]
    exact hf.2

/-- A page is added to the file. -/
theorem Attached.grown (h : s.Attached file i header) (hsize : header'.pageSize = header.pageSize)
    (hcount : header'.pageCount.toNat = header.pageCount.toNat + 1) :
    Holds (grown s file.id i header header') file
      ((s.image i).pages.push (Block.zero pageSize)) := by
  obtain ⟨hstored, hpages⟩ := stored_grown file.id h.inRange h.stored hsize hcount
  refine ⟨i, header', ⟨h.named, Table.find?_put_self _ _ _, ?_, hstored⟩, hpages⟩
  unfold DiskFiles.grown
  simp only [Array.size_modify]
  exact h.inRange

/-! ## Calls -/

/-- The first step of every call finds what is remembered of the file. -/
theorem Attached.ensures_openFileOf_bind {α : Type} (h : s.Attached file i header)
    {f : OpenFile → Action DiskFiles α} {ok : α → DiskFiles → Prop}
    {refused : StorageError → DiskFiles → Prop} (hf : (f ⟨i, header⟩).Ensures s ok refused) :
    (openFileOf file.id >>= f).Ensures s ok refused :=
  hf.of_run_eq (bind_run_ok (openFileOf_run h.remembered) f)

/-- A page of the file is read, which changes nothing. -/
theorem Attached.readPage_run (h : s.Attached file i header) {page : PageId}
    (hpos : 0 < page.val.toNat) (hlt : page.val.toNat < header.pageCount.toNat) {data : Page}
    (hdata : (s.image i).pages[page.val.toNat]? = some data) :
    readPage file.id page s = .ok data s := by
  rw [FileImage.getElem?_pages, h.stored.pageCount_eq, if_pos hlt,
    if_neg (Nat.ne_of_gt hpos)] at hdata
  cases hdata
  have hcheck : ofResult (page.check header.pageCount.toNat) s = .ok () s := by
    rw [PageId.check_of_lt hpos hlt]
    rfl
  have hget : (get : Action DiskFiles DiskFiles) s = .ok s s := rfl
  refine (bind_run_ok (openFileOf_run h.remembered) _).trans ((bind_run_ok hcheck _).trans ?_)
  refine (bind_run_ok hget _).trans ?_
  simp only [h.stored.page?_eq hlt]
  rfl

theorem Attached.pageCount_run (h : s.Attached file i header) :
    pageCount file.id s = .ok header.pageCount s :=
  bind_run_ok (openFileOf_run h.remembered) _

theorem Attached.obeys_read (h : s.Attached file i header) (page : PageId) :
    (PageCall.read page).Obeys Eq (·.Holds file) file.id s (s.image i).pages := by
  have hsize := h.size_pages
  rcases PageId.check_ok_or_refused page header.pageCount.toNat with
    ⟨hcheck, hpos, hlt⟩ | ⟨e, hcheck, -⟩
  · have hin : page.val.toNat < (s.image i).pages.size := by rwa [hsize]
    have hdata := Array.getElem?_eq_getElem hin
    refine .of_run (bind_run_ok (h.readPage_run hpos hlt hdata) _) ⟨_, ?_, i, header, h, rfl⟩
    rw [← hsize] at hcheck
    rw [PageCall.onPages_read_of_check hcheck, hdata]
    rfl
  · change (readPage file.id page >>= _).Ensures s _ _
    rw [ensures_bind]
    refine h.ensures_openFileOf_bind ?_
    rw [ensures_bind, ensures_ofResult_refuse hcheck]
    rw [← hsize] at hcheck
    exact ⟨rfl, e, PageCall.onPages_read_of_refused hcheck, rfl⟩

theorem Attached.obeys_write (h : s.Attached file i header) (page : PageId) {size : Nat}
    (data : Block size) :
    (PageCall.write page data).Obeys Eq (·.Holds file) file.id s (s.image i).pages := by
  change (writePage file.id page data >>= _).Ensures s _ _
  rw [ensures_bind]
  refine h.ensures_openFileOf_bind ?_
  rw [ensures_bind, ← h.size_pages]
  rcases PageId.check_ok_or_refused page (s.image i).pages.size with
    ⟨hcheck, hpos, hlt⟩ | ⟨e, hcheck, -⟩
  · rw [ensures_ofResult_ok hcheck, ensures_bind]
    rcases Page.ofBlock_cases data with ⟨rfl, hdata⟩ | ⟨-, hdata⟩
    · rw [ensures_ofResult_ok hdata]
      rw [h.size_pages] at hlt
      exact ⟨_, PageCall.onPages_write_of_check hcheck, h.modify (h.stored.writePage hpos hlt _)⟩
    · rw [ensures_ofResult_refuse hdata]
      exact ⟨rfl, _, PageCall.onPages_write_of_size hcheck hdata, rfl⟩
  · rw [ensures_ofResult_refuse hcheck]
    exact ⟨rfl, e, PageCall.onPages_write_of_refused hcheck, rfl⟩

/-- A call comes to what the pages of the file tell, as long as there is a number for every page. -/
theorem Holds.obeys (h : s.Holds file pages) (hfew : pages.size + 1 < 2 ^ 32) (c : PageCall) :
    c.Obeys Eq (·.Holds file) file.id s pages := by
  obtain ⟨i, header, hopen, rfl⟩ := h
  have hsize := hopen.size_pages
  have hheld : s.Holds file (s.image i).pages := ⟨i, header, hopen, rfl⟩
  cases c with
  | allocate =>
    rw [hsize] at hfew
    refine .of_run (bind_run_ok (allocatePage_run hopen.remembered hfew) _) ⟨_, ?_,
      hopen.grown rfl (UInt32.toNat_ofNat_of_lt' hfew)⟩
    rw [PageCall.onPages, hsize, UInt32.ofNat_toNat]
  | read page => exact hopen.obeys_read page
  | write page data => exact hopen.obeys_write page data
  | first =>
    change ((pageCount file.id >>= _) >>= _).Ensures s _ _
    rw [ensures_bind, ensures_bind]
    refine .of_run hopen.pageCount_run ?_
    rw [← hsize]
    by_cases hlt : 1 < (s.image i).pages.size
    · simp only [hlt, if_true, ensures_pure]
      exact ⟨_, if_pos hlt, hheld⟩
    · simp only [hlt, if_false, ensures_refuse]
      exact ⟨trivial, _, if_neg hlt, rfl⟩
  | count =>
    refine .of_run (bind_run_ok hopen.pageCount_run _) ⟨_, ?_, hheld⟩
    rw [PageCall.onPages, hsize, UInt32.ofNat_toNat]
  | sync =>
    change (flushHeader file.id >>= _).Ensures s _ _
    rw [ensures_bind]
    refine hopen.ensures_openFileOf_bind ?_
    exact ⟨_, rfl, hopen.modify hopen.stored.writeHeader⟩

/-- A page that the file does not have is missed, whatever data is to be written. -/
theorem Holds.writePage_of_le (h : s.Holds file pages) (hfew : pages.size + 1 < 2 ^ 32)
    {page : PageId} (hle : pages.size ≤ page.val.toNat) {size : Nat} (data : Block size) :
    (PageCall.write page data).carryOut file.id s = .error (.error (.pageNotFound page)) s := by
  have hpos : 0 < pages.size := by
    obtain ⟨i, header, hopen, rfl⟩ := h
    rw [hopen.size_pages]
    exact hopen.stored.pos
  have hne : page ≠ .header := fun heq => by
    rw [PageId.eq_header_iff.1 heq] at hle
    exact absurd hpos (Nat.not_lt.2 hle)
  obtain ⟨e, hrun, rfl⟩ := (h.obeys hfew (.write page data)).exists_refusal
    (PageCall.onPages_write_of_refused (PageId.check_of_le hne hle))
  exact hrun

/-! ## Making and opening the file -/

/-- A file that is not open is opened with the pages of its image. -/
theorem ensures_openFile (hvalid : FileName.isValid name = true)
    (hclosed : s.opened.find? name = none) (hroom : s.nextId.toNat + 1 < 2 ^ 32)
    (hnamed : s.named.find? name = some i) (hin : i < s.images.size)
    (hstored : (s.image i).Stored header) :
    (openFile name).Ensures s (fun file s' => file.name = name ∧ s'.Holds file (s.image i).pages)
      Never := by
  have hreopen : s.opened.reopen? name = none := by
    unfold OpenTable.reopen?
    rw [hclosed]
    rfl
  unfold openFile
  rw [ensures_bind, ensures_ofResult_ok (FileName.check_eq_ok hvalid), ensures_bind, ensures_get]
  simp only [hreopen, hnamed]
  rw [ensures_bind, ensures_ofResult_ok (hstored.readHeader_eq name), ensures_bind,
    ensures_ofResult_ok (count32_eq_ok hroom), ensures_bind, ensures_set, ensures_pure]
  exact ⟨rfl, i, header, ⟨hnamed, Table.find?_put_self _ _ _, hin, hstored⟩, rfl⟩

/-- There are numbers for many files when a directory is read. -/
theorem nextId_ofDirectory (files : Directory) : (ofDirectory files).nextId.toNat + 1 < 2 ^ 32 := by
  change (1 : UInt32).toNat + 1 < 2 ^ 32
  decide

/-- A name of the directory is found again when the directory is read. -/
theorem find?_named_reread (hnamed : s.named.find? name = some i) :
    ∃ j, (ofDirectory s.directory).named.find? name = some j ∧
      j < (ofDirectory s.directory).images.size ∧
      (ofDirectory s.directory).image j = s.image i := by
  have hlisted : (ofDirectory s.directory).imageNamed? name = some (s.image i) := by
    rw [imageNamed?_ofDirectory, find?_directory]
    unfold imageNamed?
    rw [hnamed]
    rfl
  unfold imageNamed? at hlisted
  cases hfind : (ofDirectory s.directory).named.find? name with
  | none =>
    rw [hfind] at hlisted
    cases hlisted
  | some j =>
    rw [hfind] at hlisted
    exact ⟨j, rfl, (find?_named_ofDirectory hfind).1, Option.some.inj hlisted⟩

/-- The file is opened again by those who find it in the directory. -/
theorem Holds.exists_openFile (h : s.Holds file pages)
    (hvalid : FileName.isValid file.name = true) :
    ∃ file' s', openFile file.name (ofDirectory s.directory) = .ok file' s' ∧
      file'.name = file.name ∧ s'.Holds file' pages := by
  obtain ⟨i, header, hopen, rfl⟩ := h
  obtain ⟨j, hnamed, hin, himage⟩ := find?_named_reread hopen.named
  have hstored : ((ofDirectory s.directory).image j).Stored header := by
    rw [himage]
    exact hopen.stored
  have hensures := ensures_openFile hvalid rfl (nextId_ofDirectory _) hnamed hin hstored
  rw [himage] at hensures
  exact hensures.exists_ok

/-- A file is made under a name that is free. -/
theorem ensures_create (s : DiskFiles) (name : String) :
    (create name).Ensures s
      (fun _ s' => FileName.isValid name = true ∧ s.named.has name = false ∧ s' = s.made name)
      fun _ _ => FileName.isValid name = false ∨ s.named.has name = true := by
  unfold create
  rw [ensures_bind]
  rcases FileName.check_cases name with ⟨hcheck, hvalid⟩ | hcheck
  · rw [ensures_ofResult_ok hcheck, ensures_bind, ensures_get]
    cases hfree : s.named.has name with
    | true =>
      rw [if_pos rfl, ensures_refuse]
      exact .inr rfl
    | false =>
      have hput : s.putImage name .fresh = s.made name := by
        unfold putImage
        rw [Table.find?_of_has_eq_false hfree]
        rfl
      rw [if_neg Bool.false_ne_true, ensures_set, hput]
      exact ⟨hvalid, rfl, rfl⟩
  · rw [ensures_ofResult_refuse hcheck]
    refine .inl (Bool.eq_false_iff.2 fun hvalid => ?_)
    rw [FileName.check_eq_ok hvalid] at hcheck
    cases hcheck

/-- A file is made in the directory and opened. -/
theorem ensures_fresh (directory : Directory) (name : String) :
    (FileStore.fresh name).Ensures (ofDirectory directory)
      (fun file s => FileName.isValid name = true ∧ file.name = name ∧
        s.Holds file #[Block.zero pageSize])
      fun _ _ => FileName.isValid name = false ∨ directory.find? name ≠ none := by
  change (create name >>= fun _ => openFile name).Ensures _ _ _
  rw [ensures_bind]
  refine (ensures_create _ name).mono ?_ ?_
  · rintro _ s ⟨hvalid, hfree, rfl⟩
    have hmakes := makes_made (ofDirectory directory) hfree
    have hin : (ofDirectory directory).images.size <
        ((ofDirectory directory).made name).images.size := by
      unfold DiskFiles.made
      rw [Array.size_push]
      exact Nat.lt_succ_self _
    have hnamed : ((ofDirectory directory).made name).named.find? name =
        some (ofDirectory directory).images.size := by rw [hmakes.named, Table.find?_put_self]
    have hstored : (((ofDirectory directory).made name).image
        (ofDirectory directory).images.size).Stored .fresh := by
      rw [hmakes.fresh]
      exact FileImage.stored_fresh
    have hroom : ((ofDirectory directory).made name).nextId.toNat + 1 < 2 ^ 32 :=
      nextId_ofDirectory directory
    have hopen := ensures_openFile hvalid rfl hroom hnamed hin hstored
    rw [hmakes.fresh, FileImage.pages_fresh] at hopen
    exact hopen.mono (fun _ _ hpost => ⟨hvalid, hpost⟩) fun _ _ => False.elim
  · rintro _ _ (hvalid | hnamed)
    · exact .inl hvalid
    · obtain ⟨i, hfind⟩ := Option.isSome_iff_exists.1 hnamed
      refine .inr fun hnone => ?_
      rw [(find?_named_ofDirectory hfind).2] at hnone
      cases hnone

theorem exists_fresh (directory : Directory) (name : String)
    (hvalid : FileName.isValid name = true) (hfree : directory.find? name = none) :
    ∃ file s, FileStore.fresh name (ofDirectory directory) = .ok file s ∧
      s.Holds file #[Block.zero pageSize] := by
  have hfresh : (FileStore.fresh name).Ensures (ofDirectory directory)
      (fun file s => s.Holds file #[Block.zero pageSize]) Never := by
    refine (ensures_fresh directory name).mono (fun _ _ hpost => hpost.2.2) ?_
    rintro _ _ (hinvalid | hused)
    · rw [hvalid] at hinvalid
      cases hinvalid
    · exact hused hfree
  exact hfresh.exists_ok

end DiskFiles

end PagedHeap
