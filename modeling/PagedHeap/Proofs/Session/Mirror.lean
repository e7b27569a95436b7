import PagedHeap.Proofs.File.Offer
import PagedHeap.Proofs.Session.Commands
import PagedHeap.Proofs.Session.Openings

/-!
# Sessions over a directory

`Database.shown` are the pages of a file in a directory as a database shows them: those in the pool,
under the number by which the file is open, and for the others those of its image.

A session over a directory has a session over files in memory beside it that has the same pool and
handles (`Session.Mirrored`).  The files in memory can be exchanged for the mirror that a command
needs, and what is known about sound sessions in memory then holds of it as well
(`Session.Mirrored.refile`).
-/

namespace PagedHeap

open PagedHeap.Action

open MemoryFiles (law)

/-! ## Pages of images, seen through the pool -/

/-- The pages that an image holds. -/
def FileImage.volume (f : FileImage) : Volume where
  size := f.pageCount
  page p := (f.pages[p.val.toNat]?).getD (Block.zero pageSize)

/-- Only the pages count. -/
theorem FileImage.volume_congr {f g : FileImage} (h : f.pages = g.pages) : f.volume = g.volume := by
  have hsize : f.pageCount = g.pageCount := by rw [← size_pages, ← size_pages, h]
  unfold volume
  rw [h, hsize]

/-- A file whose pages in the pool take the place of those below. -/
def Pool.over (p : Pool) (file : FileId) (v : Volume) : Volume where
  size := v.size
  page page := p.overlay (fun key => v.page key.page) ⟨file, page⟩

/-- Without frames of a file the pool changes nothing about it. -/
theorem Pool.over_eq {p : Pool} {file : FileId} (h : ∀ key ∈ p.frames.keys, key.file ≠ file)
    (v : Volume) : p.over file v = v := by
  unfold Pool.over
  refine congrArg (Volume.mk v.size) (funext fun page => overlay_of_find?_none ?_)
  refine Table.find?_of_has_eq_false (Bool.eq_false_iff.2 fun hhas => ?_)
  exact h ⟨file, page⟩ (Table.mem_keys.2 hhas) rfl

/-- A file in memory that has the pages of an image. -/
theorem volume_eq_over {m : MemoryFiles} {file : FileId} {f : FileImage}
    (h : m.pages file = f.pages)
    (pool : Pool) : law.volume ⟨m, pool⟩ file = pool.over file f.volume := by
  have hsize : law.size m file = f.volume.size :=
    (congrArg Array.size h).trans f.size_pages
  have hpage (page : PageId) : pool.overlay (law.contents m) ⟨file, page⟩ =
      pool.overlay (fun key => f.volume.page key.page) ⟨file, page⟩ := by
    cases hfind : pool.frames.find? ⟨file, page⟩ with
    | some frame => rw [Pool.overlay_of_find? hfind, Pool.overlay_of_find? hfind]
    | none =>
      rw [Pool.overlay_of_find?_none hfind, Pool.overlay_of_find?_none hfind]
      change ((m.pages file)[page.val.toNat]?).getD (Block.zero pageSize) = _
      rw [h]
      rfl
  unfold PageStore.Reliable.volume Pool.over
  rw [← hsize]
  exact congrArg (Volume.mk _) (funext hpage)

namespace Database

/-- A file of the directory as the database shows it. -/
def shown (db : Database DiskFiles) (name : String) : Option Volume :=
  (db.files.imageNamed? name).map fun f =>
    match db.files.opened.find? name with
    | some entry => db.pool.over entry.file.id f.volume
    | none => f.volume

/-- A database over a directory and one over its mirror with the same pool, in which only files that
are open have pages. -/
structure Mirrored (d : Database DiskFiles) (e : Database MemoryFiles) : Prop where
  files : DiskFiles.Beside d.files d.files e.files
  pool : e.pool = d.pool
  cached : ∀ key ∈ d.pool.frames.keys, d.files.opened.IsOpen key.file
  tracked : d.pool.Tracked

variable {exact : Prop} {origin : DiskFiles} {capacity : Nat} {d : Database DiskFiles}
variable {e : Database MemoryFiles} {name : String} {entry : OpenEntry}

/-- The operations on open files can start. -/
theorem Mirrored.parallel (h : d.Mirrored e) :
    (DiskFiles.parallel exact d.files d.pool.capacity).Db d e :=
  ⟨h.files, h.pool, h.cached, h.tracked, rfl⟩

/-- The operations on open files lead on. -/
theorem mirrored_of_parallel (h : (DiskFiles.parallel exact origin capacity).Db d e) :
    d.Mirrored e := by
  refine ⟨h.files.restart, h.pool, fun key hkey => ?_, h.tracked⟩
  rw [h.files.akin.opened]
  exact h.known key hkey

/-- A file that is open is shown as it is in memory under the same pool. -/
theorem shown_of_beside (h : DiskFiles.Beside d.files d.files e.files) (hpool : e.pool = d.pool)
    (hfind : d.files.opened.find? name = some entry) :
    d.shown name = some (law.volume e entry.file.id) := by
  obtain ⟨-, -, i, -, hnamed, -⟩ := h.coherent.opened hfind
  have hpages := h.mirrors.pages hfind hnamed
  have hvolume := volume_eq_over hpages e.pool
  unfold shown DiskFiles.imageNamed?
  rw [hnamed, hfind, ← hpool]
  exact congrArg some hvolume.symm

/-- A file that is open is shown as it is in the mirror. -/
theorem Mirrored.shown_of_open (h : d.Mirrored e) (hfind : d.files.opened.find? name = some entry) :
    d.shown name = some (law.volume e entry.file.id) := shown_of_beside h.files h.pool hfind

/-- A file that is closed is shown as it is stored. -/
theorem shown_of_closed (hclosed : d.files.opened.has name = false) :
    d.shown name = (d.files.imageNamed? name).map FileImage.volume := by
  unfold shown
  rw [Table.find?_of_has_eq_false hclosed]

/-- What is shown has a name in the directory. -/
theorem has_of_shown {v : Volume} (h : d.shown name = some v) : d.files.named.has name = true := by
  unfold shown DiskFiles.imageNamed? at h
  rw [Option.map_map] at h
  obtain ⟨i, hi, -⟩ := Option.map_eq_some_iff.1 h
  exact Table.has_of_find? hi

/-- What has a name in the directory is shown. -/
theorem exists_shown_of_has (h : d.files.named.has name = true) : ∃ v, d.shown name = some v := by
  obtain ⟨i, hi⟩ := Option.isSome_iff_exists.1 h
  unfold shown DiskFiles.imageNamed?
  rw [hi]
  exact ⟨_, rfl⟩

end Database

/-! ## Sound sessions over other files -/

namespace Session

variable {m m' : MemoryFiles} {pool : Pool} {handles : Table String Handle}

/-- Files that have no pages in the pool and no handles can be exchanged. -/
theorem Sound.refile (h : Sound ⟨⟨m, pool⟩, handles⟩) (known : FileId → Prop)
    (hsame : ∀ file, known file → m'.pages file = m.pages file)
    (hcached : ∀ key ∈ pool.frames.keys, known key.file)
    (hhandles : ∀ file ∈ heldFiles handles, known file.id) (hbooked : m'.Booked)
    (hfresh : ∀ file, 0 < (m'.pages file).size → file.val.toNat < m'.nextId.toNat)
    (hothers : ∀ file, ¬known file → Database.Usable law ⟨m', pool⟩ file) :
    Sound ⟨⟨m', pool⟩, handles⟩ := by
  have hcontents (key : FrameKey) (hkey : known key.file) :
      law.contents m' key = law.contents m key := by
    change ((m'.pages key.file)[key.page.val.toNat]?).getD _ = _
    rw [hsame _ hkey]
    rfl
  have hvolume (file : FileId) (hfile : known file) :
      law.volume ⟨m', pool⟩ file = law.volume ⟨m, pool⟩ file :=
    Database.volume_congr (hsame file hfile) pool
  have hheap (file : FileId) (hfile : known file) :
      Database.HasHeap ⟨m', pool⟩ file ↔ Database.HasHeap ⟨m, pool⟩ file := by
    unfold Database.HasHeap
    rw [hvolume file hfile]
  have hframe {key : FrameKey} {frame : Frame} (hfind : pool.frames.find? key = some frame) :
      known key.file := hcached key (Table.mem_keys_of_find? hfind)
  refine ⟨h.distinct, ⟨Pool.Held.counted h.holds, Pool.Held.held h.holds, ?_, ?_⟩,
    ⟨hbooked, hfresh⟩, fun file => ?_, fun name handle hfind => ?_⟩
  · intro key frame hfind hdirty hpins
    rw [hcontents _ (hframe hfind)]
    exact Pool.Held.clean h.holds key frame hfind hdirty hpins
  · intro key frame hfind
    have hpresent : m.Has key := Pool.Held.resident h.holds key frame hfind
    change m'.Has key
    unfold MemoryFiles.Has at hpresent ⊢
    rwa [hsame _ (hframe hfind)]
  · by_cases hfile : known file
    · have husable := h.usable file
      unfold Database.Usable at husable ⊢
      rwa [hvolume file hfile]
    · exact hothers file hfile
  · obtain ⟨heap, hheap', hstanding⟩ := h.standing name handle hfind
    have hknown := hhandles _ (mem_heldFiles h.distinct hfind hheap')
    exact ⟨heap, hheap', hstanding.headerKey, hstanding.currentFile, hstanding.firstPage,
      (hheap _ hknown).2 hstanding.isHeap⟩

/-! ## A session and its mirror -/

/-- A session over a directory and one over its mirror, with the same pool and the same handles; the
files that are open are those behind the handles. -/
structure Mirrored (s : Session DiskFiles) (t : Session MemoryFiles) : Prop where
  db : s.db.Mirrored t.db
  handles : t.handles = s.handles
  tallies : s.db.files.opened.Tallies (heldFiles s.handles)

/-- Every file of the directory is shown as a heap file. -/
def AllHeaps (s : Session DiskFiles) : Prop :=
  ∀ name v, s.db.shown name = some v → ∃ header, v.IsHeap header

/-- No file is shown with as many pages or records as there are numbers for, and there are numbers
for more files. -/
structure FewPages (s : Session DiskFiles) : Prop where
  files : ∀ name v, s.db.shown name = some v → v.Small
  numbers : s.db.files.nextId.toNat + 1 < 2 ^ 32

/-- The session over the mirror for a name. -/
def mirror (s : Session DiskFiles) (title : String) : Session MemoryFiles :=
  ⟨⟨s.db.files.mirror title, s.db.pool⟩, s.handles⟩

variable {s : Session DiskFiles} {t : Session MemoryFiles} {title : String} {file : FileId}

theorem Mirrored.mirror (h : s.Mirrored t) (title : String) : s.Mirrored (s.mirror title) where
  db := ⟨h.db.files.coherent.beside_mirror title, rfl, h.db.cached, h.db.tracked⟩
  handles := rfl
  tallies := h.tallies

/-- A file of the mirror that is not open is the one that is offered, or has no pages. -/
theorem Mirrored.volume_mirror (h : s.Mirrored t) (title : String)
    (hfile : ¬s.db.files.opened.IsOpen file) :
    s.db.shown title = some (law.volume (s.mirror title).db file) ∨
      (law.volume (s.mirror title).db file).size = 0 := by
  have hframes : ∀ key ∈ s.db.pool.frames.keys, key.file ≠ file := by
    rintro key hkey rfl
    exact hfile (h.db.cached key hkey)
  have hsize : (law.volume (s.mirror title).db file).size =
      ((s.db.files.mirror title).pages file).size := rfl
  by_cases hnext : file = ⟨s.db.files.nextId⟩
  · subst hnext
    rw [DiskFiles.pages_mirror_next] at hsize
    have hpages := DiskFiles.pages_mirror_next s.db.files title
    unfold DiskFiles.offered at hsize hpages
    cases hopened : s.db.files.opened.has title with
    | true =>
      rw [hopened, if_pos rfl] at hsize
      exact .inr hsize
    | false =>
      rw [hopened, if_neg Bool.false_ne_true] at hsize hpages
      rw [Database.shown_of_closed hopened]
      cases hnamed : s.db.files.imageNamed? title with
      | none =>
        rw [hnamed] at hsize
        exact .inr hsize
      | some f =>
        rw [hnamed] at hpages
        refine .inl (congrArg some ?_)
        rw [← Pool.over_eq hframes f.volume]
        exact (volume_eq_over hpages s.db.pool).symm
  · rw [DiskFiles.pages_mirror_of_not_isOpen hnext hfile] at hsize
    exact .inr hsize

/-- A file of the mirror that is open is shown. -/
theorem Mirrored.exists_shown (h : s.Mirrored t) (hfile : s.db.files.opened.IsOpen file) :
    ∃ name, s.db.shown name = some (law.volume t.db file) := by
  obtain ⟨name, entry, hfind, rfl⟩ := hfile
  exact ⟨name, h.db.shown_of_open hfind⟩

/-- The files in memory can be exchanged for the mirror for a name. -/
theorem Mirrored.sound_mirror (h : s.Mirrored t) (hsound : t.Sound) (hheaps : s.AllHeaps)
    (hroom : s.db.files.nextId.toNat + 1 < 2 ^ 32) (title : String) : (s.mirror title).Sound := by
  have hcoherent := h.db.files.coherent
  obtain ⟨⟨m, pool⟩, handles⟩ := t
  obtain rfl : pool = s.db.pool := h.db.pool
  obtain rfl : handles = s.handles := h.handles
  refine hsound.refile s.db.files.opened.IsOpen ?_ h.db.cached (fun file => h.tallies.isOpen)
    (hcoherent.booked_mirror title) (fun file => hcoherent.fresh_mirror hroom) fun file hfile => ?_
  · rintro file ⟨name, entry, hfind, rfl⟩
    obtain ⟨-, -, i, -, hnamed, -⟩ := hcoherent.opened hfind
    rw [hcoherent.pages_mirror hfind hnamed]
    exact (h.db.files.mirrors.pages hfind hnamed).symm
  · rcases h.volume_mirror title hfile with hshown | hsize
    · exact .inr (hheaps title _ hshown)
    · exact .inl (.inl (hsize.trans_le (Nat.zero_le 1)))

/-- In the mirror of a session with few pages every file is small. -/
theorem Mirrored.small_mirror (h : s.Mirrored t) (hfew : s.FewPages) (title : String) :
    (s.mirror title).Small := by
  intro file
  by_cases hfile : s.db.files.opened.IsOpen file
  · obtain ⟨name, hshown⟩ := (h.mirror title).exists_shown hfile
    exact hfew.files name _ hshown
  · rcases h.volume_mirror title hfile with hshown | hsize
    · exact hfew.files title _ hshown
    · exact Volume.small_of_size (hsize.trans_le (Nat.zero_le _))

end Session

end PagedHeap
