import PagedHeap.File.Disk
import PagedHeap.Heap.File
import PagedHeap.Proofs.Allows
import PagedHeap.Proofs.Table

/-!
# Opening leaves the directory alone

Whoever opens a heap file reads some of its pages.  As long as no frame is to be written back, this
leaves every file of the directory as it was (`Database.allows_openHeap_untouched`).
-/

namespace PagedHeap

open PagedHeap.Action

namespace Database

/-- The directory is as it was, and no frame of the pool is to be written back. -/
structure Untouched (files : Directory) (db : Database DiskFiles) : Prop where
  directory : db.files.directory = files
  clean : ∀ key frame, db.pool.frames.find? key = some frame → frame.dirty = false

variable {files : Directory} {cause : StorageError → Prop}

theorem untouched_pool {db : Database DiskFiles} (h : Untouched files db) {pool : Pool}
    (hframes : ∀ key frame, pool.frames.find? key = some frame → frame.dirty = false) :
    Untouched files { db with pool := pool } := ⟨h.directory, hframes⟩

/-- The files are only read. -/
theorem preserves_onFiles_untouched {α : Type} {x : Action DiskFiles α}
    (hx : ∀ s, x.Allows s (fun _ t => t = s) fun _ t => t = s) :
    Preserves (Untouched files) (fun _ => True) (onFiles x) := by
  intro db h
  refine allows_onPart ((hx db.files).mono ?_ ?_)
  · rintro _ _ rfl
    exact h
  · rintro _ _ rfl
    exact ⟨trivial, h⟩

/-- A file that was opened is only asked for. -/
theorem allows_openFileOf_same (file : FileId) (s : DiskFiles) :
    (DiskFiles.openFileOf file).Allows s (fun _ t => t = s) fun _ t => t = s := by
  refine allows_get ?_
  split
  · exact allows_pure rfl
  · exact allows_refuse rfl

theorem allows_readPage_same (file : FileId) (page : PageId) (s : DiskFiles) :
    (DiskFiles.readPage file page).Allows s (fun _ t => t = s) fun _ t => t = s := by
  refine allows_bind (allows_openFileOf_same file s) ?_
  rintro f _ rfl
  refine allows_ofResult_bind (fun _ _ => allows_get ?_) fun _ _ => rfl
  split
  · exact allows_pure rfl
  · exact allows_refuse rfl

theorem allows_firstPage_same (file : FileId) (s : DiskFiles) :
    (PageStore.firstPage file : Action DiskFiles PageId).Allows s (fun _ t => t = s)
      fun _ t => t = s := by
  refine allows_bind (p := fun _ t => t = s) (allows_bind (allows_openFileOf_same file s) ?_) ?_
  · rintro f _ rfl
    exact allows_pure rfl
  · rintro count _ rfl
    split
    · exact allows_pure rfl
    · exact allows_refuse rfl

theorem preserves_pageOf_untouched (pin : Pin) :
    Preserves (Untouched files) (fun _ => True)
      (pageOf pin : Action (Database DiskFiles) Page) :=
  preserves_get fun _ h => allows_pure h

/-- A frame that is not to be written back is given up without writing. -/
theorem preserves_makeRoom_untouched :
    Preserves (Untouched files) (fun _ => True)
      (makeRoom : Action (Database DiskFiles) Unit) := by
  refine preserves_get fun db h => ?_
  simp only
  split
  · split
    · exact allows_refuse ⟨trivial, h⟩
    · next key _ =>
      refine allows_bind (p := fun _ => Untouched files) (allows_get ?_) fun _ db' h' => ?_
      · cases hfind : db.pool.frames.find? key with
        | none => exact allows_pure h
        | some frame =>
          simp only [h.clean key frame hfind, Bool.false_eq_true, if_false]
          exact allows_pure h
      · refine allows_modify (untouched_pool h' fun other frame hother => ?_)
        exact h'.clean other frame (Table.find?_erase_eq_some.1 hother).2
  · exact allows_pure h

theorem preserves_pin_untouched (file : FileId) (page : PageId) :
    Preserves (Untouched files) (fun _ => True)
      (pin file page : Action (Database DiskFiles) Pin) := by
  refine preserves_get fun db h => ?_
  split
  · refine allows_modify_bind (allows_pure (untouched_pool h fun other frame hother => ?_))
    rw [Table.find?_adjust] at hother
    split at hother
    · obtain ⟨old, hold, rfl⟩ := Option.map_eq_some_iff.1 hother
      exact h.clean other old hold
    · exact h.clean other frame hother
  · refine preserves_bind preserves_makeRoom_untouched (fun _ => preserves_bind
      (preserves_onFiles_untouched (allows_readPage_same file page)) fun data => ?_) h
    refine preserves_get fun db h => allows_set_bind (allows_pure (untouched_pool h ?_))
    intro other frame hother
    rcases Table.find?_put_eq_some.1 hother with ⟨-, rfl⟩ | ⟨-, hold⟩
    · rfl
    · exact h.clean other frame hold

/-- Whoever opens a heap file reads its pages and changes nothing in the directory. -/
theorem allows_openHeap_untouched {db : Database DiskFiles} (h : Untouched files db)
    (name : String) : (openHeap name).Allows db (fun _ => Untouched files) fun _ _ => True := by
  have hopen : (DiskFiles.openFile name).Allows db.files
      (fun _ t => t.directory = db.files.directory) fun _ _ => True := by
    refine allows_ofResult_bind (fun _ _ => allows_get ?_) fun _ _ => trivial
    split
    · exact allows_set_bind (allows_pure rfl)
    · split
      · exact allows_refuse trivial
      · refine allows_ofResult_bind (fun header _ => ?_) fun _ _ => trivial
        refine allows_ofResult_bind (fun nextId _ => ?_) fun _ _ => trivial
        exact allows_set_bind (allows_pure rfl)
  have hpages (file : FileHandle) {db : Database DiskFiles} (h : Untouched files db) :
      (pinFirstPages file).Allows db (fun _ => Untouched files) fun _ _ => True := by
    unfold pinFirstPages
    refine allows_bind
      ((preserves_onFiles_untouched (allows_firstPage_same file.id)).of_ok h) fun page _ h => ?_
    refine allows_bind ((preserves_pin_untouched file.id page).of_ok h) fun headerPin _ h => ?_
    refine Allows.orClean_of_ok ?_
    refine allows_bind ((preserves_pageOf_untouched headerPin).of_ok h) fun data _ h => ?_
    refine allows_ofResult_bind (fun header _ => ?_) fun _ _ => trivial
    refine allows_bind ((preserves_pin_untouched file.id _).of_ok h) fun firstPin _ h => ?_
    refine allows_bind (p := fun _ => Untouched files) (Allows.orClean_of_ok ?_)
      fun _ _ h => allows_pure h
    refine allows_bind ((preserves_pageOf_untouched firstPin).of_ok h) fun data _ h => ?_
    exact allows_ofResult_bind (fun _ _ => allows_pure h) fun _ _ => trivial
  unfold openHeap
  refine allows_bind (p := fun _ => Untouched files)
    (allows_onPart (hopen.mono ?_ fun _ _ => id)) ?_
  · intro file t ht
    exact ⟨ht.trans h.directory, h.clean⟩
  · intro file t ht
    exact Allows.orClean_of_ok (hpages file ht)

end Database

end PagedHeap
