import PagedHeap.Proofs.File.Chronicle
import PagedHeap.Proofs.Session.Filling

/-!
# Making a heap file is all or nothing while there are frames

`Session.MakesHeap` says what becomes of the files when a heap file is made.  Either it stands there
in the end with one empty data page, or nothing has changed at all.  There is one way between: the
file was made, and all frames but one at most have pins, so that there is none for its pages.  Then
the file stays without a header and takes up its name.

This is so in memory wherever commands have led, and over a directory as long as what could not be
opened or made before had failed before its file was opened (`Session.makesHeap_create`).
-/

namespace PagedHeap

open PagedHeap.Action

open MemoryFiles (law)

/-- A file in memory as the database shows it. -/
def Database.displayed (db : Database MemoryFiles) (name : String) : Option Volume :=
  (db.files.named.find? name).map (law.volume db)

namespace Session

section MakesHeap

variable {σ : Type} [FileStore σ]

/-- Whoever opens the heap file of a name finds it with this header.  There have to be frames for
two more pages, and a number for the opening. -/
def OpensAs (s : Session σ) (name : String) (header : HeapHeader) : Prop :=
  ∀ handle use, s.handles.has handle = false → s.db.pool.pinnedPages + 2 ≤ s.db.pool.capacity →
    (FileStore.openFile name : Action σ FileHandle).Runs s.db.files →
    ∃ s', Session.step s (.openAs handle (.heap use name)) = .ok (.done, s') ∧
      s'.Answers (.tell handle .header) (.heapHeader header)

/-- What becomes of the files, in one view of them, when a heap file is made under a name. -/
inductive MakesHeap (view : Database σ → String → Option Volume) (s : Session σ) (name : String) :
    Reply → Session σ → Prop
  /-- There is one more heap file, without records, which can be opened. -/
  | made {s' : Session σ} {v : Volume} : ShowsNew name (view s.db) (view s'.db) v →
      v.IsHeap (Volume.newHeader name) → s'.Answers (.hasFile name) (.flag true) →
      s'.OpensAs name (Volume.newHeader name) → MakesHeap view s name .done s'
  /-- Nothing has changed. -/
  | refused {e : StorageError} : MakesHeap view s name (.failed e) s
  /-- There was no frame for one of its pages, and there is one more file without data pages. -/
  | left {s' : Session σ} {v : Volume} : ShowsNew name (view s.db) (view s'.db) v → v.size ≤ 2 →
      s.db.pool.capacity < s.db.pool.pinnedPages + 2 →
      MakesHeap view s name (.failed .bufferPoolExhausted) s'

variable {s s' : Session σ} {name : String} {reply : Reply} {capacity : Nat}

/-- To make a heap file is to make it in the database, whatever the handles are. -/
theorem createHeap_of_step (hstep : Session.step s (.create name) = .ok (reply, s')) :
    ∃ db, s' = ⟨db, s.handles⟩ ∧
      (reply = .done ∧ Database.createHeap name s.db = .ok () db ∨
        ∃ e, reply = .failed e ∧ Database.createHeap name s.db = .error (.error e) db) := by
  have hallows : (perform (.create name)).Allows s
      (fun reply t => reply = .done ∧ ∃ db, t = ⟨db, s.handles⟩ ∧
        Database.createHeap name s.db = .ok () db)
      (fun e t => ∃ db, t = ⟨db, s.handles⟩ ∧
        Database.createHeap name s.db = .error (.error e) db) := by
    apply allows_bind (p := fun _ t => ∃ db, t = ⟨db, s.handles⟩ ∧
      Database.createHeap name s.db = .ok () db)
    · apply allows_onPart
      exact .of_cases (fun _ db hrun => ⟨db, rfl, hrun⟩) fun _ db hrun => ⟨db, rfl, hrun⟩
    · intro _ t hmade
      exact allows_pure ⟨rfl, hmade⟩
  rcases run_of_step hstep with hrun | ⟨e, he, hrun⟩
  · obtain ⟨hdone, db, hs', hcreate⟩ := hallows.of_ok hrun
    exact ⟨db, hs', .inl ⟨hdone, hcreate⟩⟩
  · obtain ⟨db, hs', hcreate⟩ := hallows.of_error hrun
    exact ⟨db, hs', .inr ⟨e, he, hcreate⟩⟩

/-- If there is no frame for the pages of a new heap file, all frames but one at most have pins. -/
theorem InAccount.lt_of_createHeap {books : FileStore.Books σ} (h : InAccount books capacity s)
    (hnumbered : books.Numbered s.db.files) {db : Database σ}
    (hrun : Database.createHeap name s.db = .error (.error .bufferPoolExhausted) db) :
    s.db.pool.capacity < s.db.pool.pinnedPages + 2 := by
  have hfull := ((Database.preserves_createHeap name h.accounts).of_error hrun).1 rfl
  rw [h.accounts.capacity, h.pinnedPages_eq hnumbered]
  exact Nat.lt_succ_of_le hfull

end MakesHeap

/-! ## In memory -/

section Memory

variable {capacity : Nat} {s s' : Session MemoryFiles} {heaps : Set FileId} {name : String}
variable {reply : Reply} {db : Database MemoryFiles} {pins : Multiset Pin}

/-- A file that was made is shown under its name, and all others as before. -/
theorem showsNew_of_begun (hregular : s.db.files.Regular)
    (hbegun : Database.Begun pins name s.db db) :
    ShowsNew name s.db.displayed db.displayed (law.volume db ⟨s.db.files.nextId⟩) where
  free := by
    unfold Database.displayed
    rw [Table.find?_of_has_eq_false hbegun.free]
    rfl
  new := by
    unfold Database.displayed
    rw [hbegun.named, Table.find?_put_self]
    rfl
  others := by
    intro other hne
    unfold Database.displayed
    rw [hbegun.named, Table.find?_put_of_ne (Ne.symm hne)]
    cases hnamed : s.db.files.named.find? other with
    | none => rfl
    | some file =>
      have hlt := hregular.numbered (hregular.named hnamed).1
      have hold : file ≠ ⟨s.db.files.nextId⟩ := by
        rintro rfl
        exact Nat.lt_irrefl _ hlt
      exact congrArg some (hbegun.others file hold)

/-- A new heap file is opened with the header that it was made with. -/
theorem opensAs_of_begun (hsound : s.Sound) (hsmall : s.Small)
    (haccount : InAccount MemoryFiles.books capacity s) {file : FileId}
    (hnamed : s.db.files.named.find? name = some file)
    (hclosed : s.db.files.opened.find? name = none)
    (hvalid : FileName.isValid name = true) {header : HeapHeader}
    (hheap : (law.volume s.db file).IsHeap header) : s.OpensAs name header := by
  intro handle use hfree hroom _
  rw [haccount.pinnedPages_eq hsmall.numbered, haccount.accounts.capacity] at hroom
  have hopened : Database.onFiles (FileStore.openFile name) s.db = .ok ⟨file, name⟩ _ :=
    onPart_run_ok (MemoryFiles.openFile_eq hvalid hclosed hnamed)
  obtain ⟨heap, db, hstep, hfile, -, hvolume, -⟩ :=
    exists_openHeap_of_frames hsound haccount hfree hopened ⟨header, hheap⟩ hroom use
  refine ⟨_, hstep, ?_⟩
  have hlevel : (Command.openAs handle (.heap use name)).HeapLevel := trivial
  have hsound' := (follows_step hsound hsmall hlevel hstep).sound
  have hheap' : (law.volume db heap.file.id).IsHeap header := by
    rw [hvolume, hfile]
    exact hheap
  have hbehind : (handleOf heap use).heap? = some heap := by cases use <;> rfl
  obtain ⟨_, t, hrun, rfl⟩ :=
    (ensures_tell_header hsound' (Table.find?_put_self _ _ _) hbehind hheap').exists_ok
  exact ⟨t, step_of_ok hrun⟩

/-- A heap file that was made has a name and one empty data page, and is closed. -/
theorem Run.created (run : Run capacity s heaps)
    (hstep : Session.step s (.create name) = .ok (.done, s')) :
    ∃ db, s' = ⟨db, s.handles⟩ ∧ Database.Begun (pinsOf s.handles) name s.db db ∧
      (law.volume db ⟨s.db.files.nextId⟩).IsHeap (Volume.newHeader name) ∧
      Session.Small ⟨db, s.handles⟩ ∧ db.files.named.find? name = some ⟨s.db.files.nextId⟩ ∧
      db.files.opened.find? name = none := by
  obtain ⟨hsound, hsmall, -⟩ := run.sound
  have hcan : s.CanRun (.create name) := by
    by_contra hcan
    obtain ⟨e, he, -⟩ := refused_of_not_canRun hcan hstep
    cases he
  have hends := Database.ends_createHeap hsound.holds hsound.orderly hcan name
  obtain ⟨db, rfl, ⟨-, hrun⟩ | ⟨_, ⟨⟩, -⟩⟩ := createHeap_of_step hstep
  obtain ⟨hbegun, hheap⟩ := hends.of_ok hrun
  refine ⟨db, rfl, hbegun, hheap, fun file => ?_, ?_, ?_⟩
  · by_cases hnew : file = ⟨s.db.files.nextId⟩
    · apply Volume.small_of_size
      rw [hnew, Volume.size_new hheap]
      decide
    · rw [hbegun.others file hnew]
      exact hsmall file
  · rw [hbegun.named, Table.find?_put_self]
  · rw [hbegun.opened]
    exact Table.find?_of_has_eq_false (hsound.orderly.opened_of_free hbegun.free)

/-- In memory a heap file is made or nothing is, unless there is no frame for its pages. -/
theorem Run.makesHeap (run : Run capacity s heaps)
    (hstep : Session.step s (.create name) = .ok (reply, s')) :
    MakesHeap Database.displayed s name reply s' := by
  obtain ⟨hsound, hsmall, -⟩ := run.sound
  have haccount := run.inAccount
  have hlevel : (Command.create name).HeapLevel := trivial
  by_cases hcan : s.CanRun (.create name)
  swap
  · obtain ⟨e, rfl, rfl⟩ := refused_of_not_canRun hcan hstep
    exact .refused
  have hends := Database.ends_createHeap hsound.holds hsound.orderly hcan name
  obtain ⟨db, rfl, ⟨rfl, -⟩ | ⟨e, rfl, hrun⟩⟩ := createHeap_of_step hstep
  · obtain ⟨_, ⟨⟩, hbegun, hheap, hsmall', hnamed, hclosed⟩ := run.created hstep
    refine .made (showsNew_of_begun haccount.accounts.valid hbegun) hheap ?_ ?_
    · have hhas := Table.has_of_find? hnamed
      exact ⟨_, by rw [← hhas]; rfl⟩
    · exact opensAs_of_begun (follows_step hsound hsmall hlevel hstep).sound hsmall'
        (haccount.step hlevel hstep).1 hnamed hclosed hbegun.valid hheap
  · rcases hends.of_error hrun with ⟨rfl, -⟩ | ⟨hbegun, rfl, hblank⟩
    · exact .refused
    · exact .left (showsNew_of_begun haccount.accounts.valid hbegun) hblank.size_le
        (haccount.lt_of_createHeap hsmall.numbered hrun)

end Memory

/-! ## In a directory -/

section InDirectory

variable {capacity : Nat} {s s' : Session DiskFiles} {name : String} {reply : Reply} {v : Volume}
variable {header : HeapHeader}

/-- A file that is closed can be opened only if there is a number for it. -/
theorem InOrder.lt_of_runs_openFile (h : s.InOrder) (hclosed : s.db.files.opened.find? name = none)
    (hhas : s.db.files.named.has name = true)
    (hruns : (FileStore.openFile name : Action DiskFiles FileHandle).Runs s.db.files) :
    s.db.files.nextId.toNat + 1 < 2 ^ 32 := by
  obtain ⟨t, hmirrored, -⟩ := h.mirrored
  obtain ⟨i, hnamed⟩ := Option.isSome_iff_exists.1 hhas
  obtain ⟨-, count, hstored⟩ := hmirrored.db.files.coherent.stored hnamed
  have hvalid := FileName.isValid_of_check (h.names name hhas)
  have hgoes := FileName.runs_of_check hvalid hruns
  unfold Action.Runs OpenTable.reopen? at hgoes
  rw [ensures_bind, ensures_get] at hgoes
  simp only [hclosed, hnamed, Option.map_none] at hgoes
  rw [ensures_bind, ensures_ofResult_ok (hstored.readHeader_eq name)] at hgoes
  exact lt_of_runs_count32 hgoes

/-- A file that is shown as a heap file is opened with its header, if there are frames for two pages
besides those that are pinned. -/
theorem InOrder.exists_openAs_of_frames (h : s.InOrder) (hfew : s.FewPages)
    (haccount : InAccount DiskFiles.books capacity s) (hshown : s.db.shown name = some v)
    (hv : v.IsHeap header) {handle : String} (hfree : s.handles.has handle = false)
    (hroom : s.db.pool.pinnedPages + 2 ≤ s.db.pool.capacity) (use : HeapUse) :
    ∃ s', Session.step s (.openAs handle (.heap use name)) = .ok (.done, s') ∧
      s'.Answers (.tell handle .header) (.heapHeader header) := by
  obtain ⟨hmirrored, hsound, -⟩ := h.sound_mirror hfew name
  have hoffers := DiskFiles.offers_mirror s.db.files name
  obtain ⟨file, e₁, hopened, rfl⟩ := hmirrored.db.exists_openFile hsound.orderly.booked hoffers
    hfew.numbers (h.names name (Database.has_of_shown hshown)) hshown
  have hagrees : Agrees True (Database.openHeap name) (Database.openHeap name) s.db
    (s.mirror name).db _ _ := Database.agrees_openHeap hmirrored.db hoffers hfew.numbers
  have hopen : (Database.openHeap name).Ensures (s.mirror name).db
      (fun heap e => heap.file = file ∧ law.volume e = law.volume (s.mirror name).db) Never := by
    refine (Database.ensures_openHeap hsound.holds hsound.orderly hsound.usable name).and_run.mono
      ?_ ?_
    · rintro heap e ⟨⟨hsteady, -, -, -, -, e₁, hfile, -⟩, -⟩
      cases hfile.symm.trans hopened
      exact ⟨rfl, hsteady.volume⟩
    · -- what is refused over the mirror is refused over the directory, where the pins are counted
      rintro cause e ⟨⟨-, hcause⟩, hrun⟩
      obtain ⟨hexhausted, -⟩ := hcause file e₁ hopened ⟨header, hv⟩
      obtain ⟨d, hrun', -⟩ := hagrees.exists_error trivial hrun
      have hfull := ((Database.allows_openHeap haccount.accounts name).of_error hrun').1 hexhausted
      rw [haccount.pinnedPages_eq (DiskFiles.numbered_books _), haccount.accounts.capacity] at hroom
      exact Nat.not_lt_of_le hfull hroom
  obtain ⟨heap, e, hrun, rfl, hvolume⟩ := hopen.exists_ok
  obtain ⟨s', hrun', hleads, hsound', -⟩ := h.exists_openAs hfew hfree hrun use
  refine ⟨s', step_of_ok hrun', ?_⟩
  have hbehind : (handleOf heap use).heap? = some heap := by cases use <;> rfl
  rw [← hvolume] at hv
  exact (hleads.mirrored.recalls hsound' (Table.find?_put_self _ _ _) hbehind hv).header

/-- There are few pages after a heap file was made, if there is a number for its opening. -/
theorem FewPages.made (hfew : s.FewPages) (hshows : ShowsNew name s.db.shown s'.db.shown v)
    (hheap : v.IsHeap (Volume.newHeader name))
    (hnumbers : s'.db.files.nextId.toNat + 1 < 2 ^ 32) : s'.FewPages := by
  refine ⟨fun other w hw => ?_, hnumbers⟩
  by_cases hname : other = name
  · subst hname
    obtain rfl := Option.some.inj (hshows.new.symm.trans hw)
    apply Volume.small_of_size
    rw [Volume.size_new hheap]
    decide
  · exact hfew.files other w (hshows.others other hname ▸ hw)

/-- A run over a directory is accounted for. -/
theorem DirectoryRun.inAccount (run : DirectoryRun s) :
    InAccount DiskFiles.books s.db.pool.capacity s := by
  obtain ⟨files, capacity, course⟩ := run.exists_course
  have haccount : InAccount DiskFiles.books capacity s :=
    course.inAccount (inAccount_start (DiskFiles.regular_ofDirectory files) rfl capacity)
  rw [haccount.accounts.capacity]
  exact haccount

/-- In a directory a heap file is made or nothing is, unless there is no frame for its pages. -/
theorem DirectoryRun.makesHeap (run : DirectoryRun s)
    (hstep : Session.step s (.create name) = .ok (reply, s')) :
    MakesHeap Database.shown s name reply s' := by
  obtain ⟨h, hfew⟩ := run.inOrder
  have haccount := run.inAccount
  obtain ⟨hmirrored, hsound, -⟩ := h.sound_mirror hfew name
  have hpins := hmirrored.pin_ne hsound fun hopen => hmirrored.db.files.coherent.ne_next hopen rfl
  have hagrees := Database.agrees_createHeap id hmirrored.db DiskFiles.nextId_mirror hfew.numbers
    hsound.holds hsound.orderly hpins
  obtain ⟨db, rfl, ⟨rfl, hrun⟩ | ⟨e, rfl, hrun⟩⟩ := createHeap_of_step hstep
  · obtain ⟨e', -, hadds⟩ := hagrees.of_ok hrun
    obtain ⟨v, hshows, hheap⟩ := hadds.shows
    have hlevel : (Command.create name).OnHeaps := trivial
    have h' := h.step hfew hlevel hstep fun _ _ => nofun
    have hhas := Database.has_of_shown hshows.new
    refine .made hshows hheap ?_ ?_
    · have hthere : (FileName.isValid name && db.files.named.has name) = true := by
        rw [FileName.isValid_of_check hadds.check, hhas]
        rfl
      exact ⟨_, by rw [← hthere]; rfl⟩
    · intro handle use hfree hroom hruns
      have hclosed : db.files.opened.find? name = none := by
        rw [hadds.opened]
        exact Database.find?_opened_of_free hmirrored.db hadds.free
      have hfew' : Session.FewPages ⟨db, s.handles⟩ :=
        hfew.made hshows hheap (h'.lt_of_runs_openFile hclosed hhas hruns)
      exact h'.exists_openAs_of_frames hfew' (haccount.step hlevel.heapLevel hstep).1 hshows.new
        hheap hfree hroom use
  · obtain ⟨e', -, ⟨rfl, -⟩ | ⟨-, rfl, v, hshows, hsize⟩⟩ := hagrees.of_error hrun
    · exact .refused
    · exact .left hshows hsize (haccount.lt_of_createHeap (DiskFiles.numbered_books _) hrun)

end InDirectory

/-- A heap file is made and can be opened, or nothing has changed, in memory and in a directory.  A
file without data pages is left behind only if all frames but one at most have pins.

Over a directory it is said of the sessions of `DirectoryRun`, in which nothing failed after its
file was opened.  Every opening has a number of its own, for which the header of the file is
remembered.  What fails with its file open leaves frames behind under its number, which the next
opening does not know: the file is then written under two numbers, and when frames are given up for
the pages of a new heap file, what goes back under the old number may go over what was stored since.
In memory a file keeps its number, so that this does not arise. -/
theorem makesHeap_create (name : String) :
    (∀ {capacity : Nat} {s s' : Session MemoryFiles} {heaps : Set FileId} {reply : Reply},
      Run capacity s heaps → Session.step s (.create name) = .ok (reply, s') →
      MakesHeap Database.displayed s name reply s') ∧
    ∀ {s s' : Session DiskFiles} {reply : Reply}, DirectoryRun s →
      Session.step s (.create name) = .ok (reply, s') → MakesHeap Database.shown s name reply s' :=
  ⟨fun run hstep => run.makesHeap hstep, fun run hstep => run.makesHeap hstep⟩

/-- The first heap file in memory is made over a pool with eight frames, and left behind over one
with one frame; the first one in a directory is made. -/
theorem makesHeap_create_first :
    (∃ s, Session.step (start MemoryFiles.empty 8) (.create "t") = .ok (.done, s) ∧
      MakesHeap Database.displayed (start .empty 8) "t" .done s) ∧
    (∃ s, Session.step (start MemoryFiles.empty 1) (.create "t") =
        .ok (.failed .bufferPoolExhausted, s) ∧
      MakesHeap Database.displayed (start .empty 1) "t" (.failed .bufferPoolExhausted) s) ∧
    ∃ s, Session.step (start (DiskFiles.ofDirectory []) 8) (.create "t") = .ok (.done, s) ∧
      MakesHeap Database.shown (start (.ofDirectory []) 8) "t" .done s := by
  refine ⟨?_, ?_, ?_⟩
  · obtain ⟨s, -, hstep, -⟩ := exists_made
    exact ⟨s, hstep, (makesHeap_create "t").1 .start hstep⟩
  · have hexhausted : ∃ s, Session.step (start MemoryFiles.empty 1) (.create "t") =
        .ok (.failed .bufferPoolExhausted, s) := ⟨_, rfl⟩
    obtain ⟨s, hstep⟩ := hexhausted
    exact ⟨s, hstep, (makesHeap_create "t").1 .start hstep⟩
  · obtain ⟨s, hstep, -⟩ := exists_create
    exact ⟨s, hstep, (makesHeap_create "t").2 (directoryRun_start 8) hstep⟩

end Session

end PagedHeap
