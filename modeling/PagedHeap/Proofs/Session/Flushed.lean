import PagedHeap.Proofs.Session.Handles
import PagedHeap.Proofs.Session.Stocking

/-!
# What a flush puts into the files

A flush writes back the frames that are called changed.  A frame is called changed by a holder who
lets go of its page, not while the page is held.  So a flush brings into the files what was changed
through handles that have gone on to other pages or were given up; of a page that a handle still
holds, the file has what is in the frame if the handle calls nothing changed, or if the frame was
called changed before, and otherwise keeps what it had (`Session.Reached.flush_writes`).

The statement is the same over files in memory and over a directory.  In memory it is read off the
pages that are due (`PageStore.Law.Flushed`), over a directory off its mirror.
-/

namespace PagedHeap

open PagedHeap.Action

open MemoryFiles (law)

/-! ## The pages that files have -/

/-- The file has a page with these bytes. -/
def PageStore.HasPage {σ : Type} [PageStore σ] (files : σ) (key : FrameKey) (page : Page) : Prop :=
  PageStore.readPage key.file key.page files = .ok page files

open PageStore (HasPage)

variable {key : FrameKey} {page : Page}

theorem MemoryFiles.hasPage_iff {m : MemoryFiles} :
    HasPage m key page ↔ law.present m key ∧ page = law.contents m key := by
  have hread := MemoryFiles.ensures_readPage m key.file key.page
  constructor
  · intro h
    exact (hread.of_ok h).2
  · rintro ⟨hpresent, rfl⟩
    refine (hread.mono ?_ fun _ _ hrefused => ?_).run_eq
    · rintro data m' ⟨rfl, -, hdata⟩
      exact ⟨hdata, rfl⟩
    · exact hrefused.2.1 hpresent

/-- Reading a page leaves the files of a directory as they are. -/
theorem DiskFiles.eq_of_readPage {d d' : DiskFiles} {file : FileId} {number : PageId}
    (h : readPage file number d = .ok page d') : d' = d := by
  have hallows : (readPage file number).Allows d (fun _ d' => d' = d) fun _ _ => True := by
    refine allows_openFileOf_bind (fun f _ => allows_ofResult_bind (fun _ _ => allows_get ?_)
      fun _ _ => trivial) trivial
    split
    · exact allows_pure rfl
    · exact allows_refuse trivial
  exact hallows.of_ok h

/-- A file that is open has the pages of its mirror. -/
theorem Database.Mirrored.hasPage_iff {d : Database DiskFiles} {e : Database MemoryFiles}
    (h : d.Mirrored e) (hopen : d.files.opened.IsOpen key.file) :
    HasPage d.files key page ↔ HasPage e.files key page := by
  have hread : Agrees True _ _ d.files e.files _ _ :=
    DiskFiles.Beside.readPage hopen key.page h.files
  constructor
  · intro hpage
    obtain ⟨m, hrun, -⟩ := hread.of_ok hpage
    obtain ⟨rfl, -⟩ := (MemoryFiles.ensures_readPage e.files key.file key.page).of_ok hrun
    exact hrun
  · intro hpage
    obtain ⟨d', hrun, -⟩ := hread.exists_ok trivial hpage
    obtain rfl := DiskFiles.eq_of_readPage hrun
    exact hrun

namespace Session

/-! ## One flush -/

/-- What a flush leaves: the frames have the bytes that they had and are not called changed any
more, and the files have those bytes of every frame that was called changed or that no holder calls
changed.  Of a frame that was not called changed the file keeps the page that it had. -/
structure Flushed {σ : Type} [FileStore σ] (s s' : Session σ) : Prop where
  handles : s'.handles = s.handles
  frames : ∀ key, s'.db.pool.frames.find? key = (s.db.pool.frames.find? key).map Frame.clean
  stored : ∀ key frame, s.db.pool.frames.find? key = some frame →
    (frame.dirty = true ∨ ∀ pin ∈ pinsOf s.handles, pin.key = key → pin.dirty = false) →
    HasPage s'.db.files key frame.page
  kept : ∀ key frame page, s.db.pool.frames.find? key = some frame → frame.dirty = false →
    HasPage s.db.files key page → HasPage s'.db.files key page

/-- A flush that is answered replies that it is done. -/
theorem step_flush {σ : Type} [FileStore σ] {s : Session σ} {db : Database σ}
    (h : Database.flushAll s.db = .ok () db) :
    Session.step s .flush = .ok (.done, ⟨db, s.handles⟩) := by
  refine step_of_ok (Ensures.run_eq ?_)
  unfold perform
  rw [ensures_bind, ensures_onDatabase]
  refine .of_run h ?_
  rw [ensures_pure]
  exact ⟨rfl, rfl⟩

/-- In memory a flush is never refused. -/
theorem Sound.flushed {t : Session MemoryFiles} (h : t.Sound) :
    ∃ e, Database.flushAll t.db = .ok () e ∧ t.Flushed ⟨e, t.handles⟩ := by
  have hnever (e : StorageError) (file : FileId) (m m' : MemoryFiles) :
      (PageStore.sync file : Action MemoryFiles Unit) m ≠ .error (.error e) m' := nofun
  have hflushes := (Database.flushes_flushAll h.holds).mono (fun _ _ => id) fun e db hpost => by
    obtain ⟨file, m, m', hsync⟩ := hpost.2.2 PageStore.Reliable.sound_present
    exact hnever e file m m' hsync
  obtain ⟨⟨⟩, e, hrun, hheld, hsame, hflushed⟩ := hflushes.exists_ok
  have hpresent {key : FrameKey} {frame : Frame} (hfind : t.db.pool.frames.find? key = some frame) :
      law.present e.files key :=
    hsame.present_iff.2 (Pool.Held.resident h.holds key frame hfind)
  have hcontents (key : FrameKey) : law.contents e.files key = law.due t.db key :=
    congrFun hflushed.contents key
  refine ⟨e, hrun, rfl, hflushed.frames, fun key frame hfind hcause => ?_,
    fun key frame page hfind hclean hpage => ?_⟩
  · refine MemoryFiles.hasPage_iff.2 ⟨hpresent hfind, ?_⟩
    rw [hcontents]
    cases hdirty : frame.dirty with
    | true => rw [PageStore.Law.due_of_dirty hfind hdirty]
    | false =>
      rw [PageStore.Law.due_of_clean hfind hdirty]
      refine Pool.Held.clean h.holds key frame hfind hdirty (hcause.resolve_left ?_)
      rw [hdirty]
      exact Bool.false_ne_true
  · obtain ⟨-, rfl⟩ := MemoryFiles.hasPage_iff.1 hpage
    refine MemoryFiles.hasPage_iff.2 ⟨hpresent hfind, ?_⟩
    rw [hcontents, PageStore.Law.due_of_clean hfind hclean]

/-- Over a directory a flush does what it does over the mirror. -/
theorem Mirrored.flushed {s : Session DiskFiles} {t : Session MemoryFiles} (h : s.Mirrored t)
    (hsound : t.Sound) : ∃ d, Database.flushAll s.db = .ok () d ∧ s.Flushed ⟨d, s.handles⟩ := by
  obtain ⟨e, hrun, hflushed⟩ := hsound.flushed
  have hkeeps : Agrees True _ _ s.db t.db _ _ := Database.keeps_flushAll h.db.parallel
  obtain ⟨d, hrun', hde⟩ := hkeeps.exists_ok trivial hrun
  have hmirrored := Database.mirrored_of_parallel hde
  have hpool : t.db.pool = s.db.pool := h.db.pool
  have hpool' : e.pool = d.pool := hde.pool
  have hopen {key : FrameKey} {frame : Frame} (hfind : s.db.pool.frames.find? key = some frame) :
      s.db.files.opened.IsOpen key.file := h.db.cached key (Table.mem_keys_of_find? hfind)
  have hopen' {key : FrameKey} {frame : Frame} (hfind : s.db.pool.frames.find? key = some frame) :
      d.files.opened.IsOpen key.file := by
    rw [hde.files.akin.opened]
    exact hopen hfind
  refine ⟨d, hrun', rfl, fun key => ?_, fun key frame hfind hcause => ?_,
    fun key frame page hfind hclean hpage => ?_⟩
  · have hframes := hflushed.frames key
    rwa [hpool, hpool'] at hframes
  · refine (hmirrored.hasPage_iff (hopen' hfind)).2 (hflushed.stored key frame ?_ ?_)
    · rw [hpool]
      exact hfind
    · rw [h.handles]
      exact hcause
  · refine (hmirrored.hasPage_iff (hopen' hfind)).2 (hflushed.kept key frame page ?_ hclean ?_)
    · rw [hpool]
      exact hfind
    · exact (h.db.hasPage_iff (hopen hfind)).1 hpage

/-! ## Wherever commands lead -/

/-- The sessions that commands on heap files lead to, in memory and over directories. -/
inductive Reached : {σ : Type} → [FileStore σ] → Session σ → Prop
  /-- The files are in memory. -/
  | memory {capacity : Nat} {s : Session MemoryFiles} {heaps : Set FileId} :
      Run capacity s heaps → Reached s
  /-- The files are in a directory. -/
  | directory {s : Session DiskFiles} : DirectoryRun s → Reached s

/-- A flush is always done.  Afterwards the file of a cached page has the bytes of its frame, unless
a handle that still holds the page calls it changed and the frame was not told before; then it keeps
the page that it had.

Over a directory this needs a session of `DirectoryRun`: what fails after its file was opened leaves
frames behind under the number of that opening.  If the file is opened again, the pool has frames of
one page under two numbers, of which a flush writes one over the other, and the header that is
remembered for the old number over the one for the new number. -/
theorem Reached.flush_writes {σ : Type} [FileStore σ] {s : Session σ} (h : Reached s) :
    ∃ s', Session.step s .flush = .ok (.done, s') ∧ s.Flushed s' := by
  cases h with
  | memory run =>
    obtain ⟨e, hflush, hflushed⟩ := run.sound.1.flushed
    exact ⟨_, step_flush hflush, hflushed⟩
  | directory run =>
    obtain ⟨⟨t, hmirrored, hsound⟩, -, -⟩ := run.inOrder.1
    obtain ⟨d, hflush, hflushed⟩ := hmirrored.flushed hsound
    exact ⟨_, step_flush hflush, hflushed⟩

/-- A handle through which a record was inserted is open while everything is written back. -/
theorem Reached.flush_writes_inserter : ∃ (s s' : Session MemoryFiles) (heap : HeapFile),
    Reached s ∧ s.handles = [("i", .inserter heap)] ∧
    Session.step s .flush = .ok (.done, s') ∧ s.Flushed s' := by
  obtain ⟨_, s, _, heap, -, hstocked, -⟩ := exists_stocked_first
  obtain ⟨heaps, run⟩ := hstocked.hosts.run
  have hreached : Reached s := .memory run
  obtain ⟨s', hstep, hflushed⟩ := Reached.flush_writes hreached
  exact ⟨s, s', heap, hreached, hstocked.handles, hstep, hflushed⟩

end Session

end PagedHeap
