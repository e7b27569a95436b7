import PagedHeap.Proofs.File.Books
import PagedHeap.Proofs.Heap.Files

/-!
# Making heap files in memory

Making a heap file gives one new name a number, and leaves all other files as they are and all files
as open as they were.  Under the new name stands a heap file with one empty data page.  If there was
no frame for its pages the file stays blank, and is not taken back (`Database.ends_createHeap`).
-/

namespace PagedHeap

open PagedHeap.Action

namespace MemoryFiles

variable {s : MemoryFiles} {name : String} {file : FileHandle} {id : FileId} {count : Nat}

/-- A file that is not open is opened under its number. -/
theorem openFile_eq (hvalid : FileName.isValid name = true) (hclosed : s.opened.find? name = none)
    (hnamed : s.named.find? name = some id) :
    openFile name s = .ok ⟨id, name⟩ { s with opened := s.opened.put name ⟨⟨id, name⟩, 1⟩ } := by
  refine Ensures.run_eq ?_
  unfold openFile OpenTable.reopen?
  rw [ensures_bind, ensures_ofResult_ok (FileName.check_eq_ok hvalid), ensures_bind, ensures_get,
    hclosed, hnamed]
  exact ⟨rfl, rfl⟩

/-- A file that is open is opened once more. -/
theorem openFile_of_open {entry : OpenEntry} (hvalid : FileName.isValid name = true)
    (hfind : s.opened.find? name = some entry) :
    openFile name s = .ok entry.file
      { s with opened := s.opened.put name { entry with openings := entry.openings + 1 } } := by
  refine Ensures.run_eq ?_
  unfold openFile OpenTable.reopen?
  rw [ensures_bind, ensures_ofResult_ok (FileName.check_eq_ok hvalid), ensures_bind, ensures_get,
    hfind]
  exact ⟨rfl, rfl⟩

/-- One of the openings of a file is given back. -/
theorem close_eq (hfind : s.opened.find? file.name = some ⟨file, count + 1⟩) :
    close file s = .ok () { s with
      opened := if count = 0 then s.opened.erase file.name
        else s.opened.put file.name ⟨file, count⟩ } := by
  obtain ⟨last, hrelease⟩ := OpenTable.release_eq hfind
  refine Ensures.run_eq ?_
  unfold close
  rw [ensures_bind, ensures_get, ensures_bind, ensures_ofResult_ok hrelease]
  exact ⟨rfl, rfl⟩

end MemoryFiles

namespace Database

open MemoryFiles (law)

variable {db db' : Database MemoryFiles} {pins : Multiset Pin} {name : String}

/-- A new file has a number that no file had. -/
theorem ensures_create (h : law.Holds pins db) (ho : db.Orderly)
    (hroom : db.files.nextId.toNat + 1 < 2 ^ 32) (name : String) :
    (onFiles (FileStore.create name)).Ensures db
      (fun _ db' => law.Holds pins db' ∧ db'.Orderly ∧ FileName.isValid name = true ∧
        db.files.named.has name = false ∧ db'.files = db.files.made name ∧
        (law.volume db' ⟨db.files.nextId⟩).size = 1 ∧
        ∀ file, file ≠ ⟨db.files.nextId⟩ → law.volume db' file = law.volume db file)
      (fun _ db' => db' = db ∧
        (FileName.isValid name = true → db.files.named.has name = true)) := by
  unfold onFiles
  rw [ensures_onPart]
  refine (MemoryFiles.ensures_create db.files name hroom).mono ?_ ?_
  · rintro _ files ⟨hvalid, hnamed, rfl⟩
    have hnew : db.files.pages ⟨db.files.nextId⟩ = #[] := by
      by_contra hne
      exact Nat.lt_irrefl _ (ho.fresh ⟨db.files.nextId⟩ (Array.size_pos_iff.2 hne))
    have hpages := MemoryFiles.pages_made db.files name
    have hcontents : law.contents (db.files.made name) = law.contents db.files := by
      funext ⟨file, page⟩
      change (db.files.made name).contentsOf ⟨file, page⟩ = db.files.contentsOf ⟨file, page⟩
      unfold MemoryFiles.contentsOf
      rw [hpages]
      split
      · next heq =>
        simp only at heq
        rw [heq, hnew]
        cases page.val.toNat <;> rfl
      · rfl
    have hvolume (file : FileId) (hfile : file ≠ ⟨db.files.nextId⟩) :
        law.volume { db with files := db.files.made name } file = law.volume db file := by
      refine volume_congr ?_ db.pool
      rw [hpages, if_neg hfile]
    have hsize :
        (law.volume { db with files := db.files.made name } ⟨db.files.nextId⟩).size = 1 := by
      change ((db.files.made name).pages ⟨db.files.nextId⟩).size = 1
      rw [hpages, if_pos rfl]
      rfl
    have hnext : (db.files.made name).nextId.toNat = db.files.nextId.toNat + 1 :=
      UInt32.toNat_ofNat_of_lt' hroom
    refine ⟨Pool.Held.mono (PageStore.Law.Held.of_contents h hcontents) ?_,
      ⟨MemoryFiles.booked_made ho.booked name, fun file hfile => ?_⟩, hvalid, hnamed, rfl, hsize,
      hvolume⟩
    · rintro ⟨file, page⟩ hkey
      change (db.files.made name).Has ⟨file, page⟩
      have hne : file ≠ ⟨db.files.nextId⟩ := by
        rintro rfl
        have hlt : page.val.toNat < (db.files.pages ⟨db.files.nextId⟩).size := hkey.2
        rw [hnew] at hlt
        exact Nat.not_lt_zero _ hlt
      unfold MemoryFiles.Has
      rw [hpages, if_neg hne]
      exact hkey
    · change file.val.toNat < (db.files.made name).nextId.toNat
      rw [hnext]
      by_cases hfile' : file = ⟨db.files.nextId⟩
      · rw [hfile']
        exact Nat.lt_succ_self _
      · rw [hvolume file hfile'] at hfile
        exact Nat.lt_succ_of_lt (ho.fresh file hfile)
  · rintro e files ⟨rfl, htaken⟩
    exact ⟨rfl, htaken⟩

/-- A name that is free is not that of an open file. -/
theorem Orderly.opened_of_free (ho : db.Orderly) {name : String}
    (hfree : db.files.named.has name = false) : db.files.opened.has name = false := by
  refine Bool.eq_false_iff.2 fun hopened => ?_
  rw [ho.booked name hopened] at hfree
  cases hfree

/-- Before a file is made it is blank. -/
theorem Orderly.blank_new (ho : db.Orderly) : (law.volume db ⟨db.files.nextId⟩).Blank := by
  refine .inl ?_
  by_contra hlt
  exact Nat.lt_irrefl _ (ho.fresh ⟨db.files.nextId⟩ (by omega))

/-- At most one file was made, without records, and all other files are as before. -/
structure Made (pins : Multiset Pin) (db db' : Database MemoryFiles) : Prop where
  holds : law.Holds pins db'
  orderly : db'.Orderly
  usable : Usable law db' ⟨db.files.nextId⟩
  records : (law.volume db' ⟨db.files.nextId⟩).record? = fun _ => none
  size : (law.volume db' ⟨db.files.nextId⟩).size ≤ 3
  others : ∀ file, file ≠ ⟨db.files.nextId⟩ → law.volume db' file = law.volume db file

/-- Until it is laid out the new file is blank. -/
theorem Made.of_blank (h : law.Holds pins db') (ho : db'.Orderly)
    (hblank : (law.volume db' ⟨db.files.nextId⟩).Blank)
    (hothers : ∀ file, file ≠ ⟨db.files.nextId⟩ → law.volume db' file = law.volume db file) :
    Made pins db db' :=
  ⟨h, ho, .inl hblank, hblank.record?_eq, hblank.size_le.trans (by decide), hothers⟩

/-- What is made as a heap file has no records. -/
theorem Made.of_isHeap (h : law.Holds pins db') (ho : db'.Orderly)
    (hheap : (law.volume db' ⟨db.files.nextId⟩).IsHeap (Volume.newHeader name))
    (hothers : ∀ file, file ≠ ⟨db.files.nextId⟩ → law.volume db' file = law.volume db file) :
    Made pins db db' :=
  ⟨h, ho, .inr ⟨_, hheap⟩, Volume.record?_new hheap, (Volume.size_new hheap).le, hothers⟩

/-- A file was made under a free name and closed again; nothing else changed but pages of its
own. -/
structure Begun (pins : Multiset Pin) (name : String) (db db' : Database MemoryFiles) : Prop where
  holds : law.Holds pins db'
  orderly : db'.Orderly
  valid : FileName.isValid name = true
  free : db.files.named.has name = false
  named : db'.files.named = db.files.named.put name ⟨db.files.nextId⟩
  opened : ∀ other, db'.files.opened.find? other = db.files.opened.find? other
  nextId : db'.files.nextId = (db.files.made name).nextId
  others : ∀ file, file ≠ ⟨db.files.nextId⟩ → law.volume db' file = law.volume db file

/-- Whatever became of the pages of a file that was made and opened, it is closed again. -/
theorem exists_close_begun (h : law.Holds pins db') (ho : db'.Orderly)
    (hvalid : FileName.isValid name = true) (hfree : db.files.named.has name = false)
    (hclosed : db.files.opened.find? name = none)
    (hnamed : db'.files.named = db.files.named.put name ⟨db.files.nextId⟩)
    (hopened : db'.files.opened = db.files.opened.put name ⟨⟨⟨db.files.nextId⟩, name⟩, 1⟩)
    (hnext : db'.files.nextId = (db.files.made name).nextId)
    (hothers : ∀ file, file ≠ ⟨db.files.nextId⟩ → law.volume db' file = law.volume db file) :
    ∃ db'', onFiles (FileStore.close ⟨⟨db.files.nextId⟩, name⟩) db' = .ok () db'' ∧
      Begun pins name db db'' ∧ law.volume db'' = law.volume db' := by
  obtain ⟨file, hfile⟩ : ∃ file : FileHandle, file = ⟨⟨db.files.nextId⟩, name⟩ := ⟨_, rfl⟩
  have hentry : db'.files.opened.find? file.name = some ⟨file, 0 + 1⟩ := by
    rw [hopened, hfile]
    exact Table.find?_put_self _ _ _
  have hrun : onFiles (FileStore.close file) db' = .ok () { db' with
      files := { db'.files with opened := db'.files.opened.erase file.name } } :=
    onPart_run_ok (MemoryFiles.close_eq hentry)
  obtain ⟨h', hvolume, ho'⟩ := (steady_close (.refl h ho) file).of_ok hrun
  rw [← hfile]
  refine ⟨_, hrun, ⟨h', ho', hvalid, hfree, hnamed, fun other => ?_, hnext, fun other hother => ?_⟩,
    hvolume⟩
  · change Table.find? (db'.files.opened.erase file.name) other = _
    rw [hopened, hfile]
    by_cases hname : name = other
    · rw [← hname, hclosed]
      exact Table.find?_erase_self _ _
    · rw [Table.find?_erase_of_ne hname, Table.find?_put_of_ne hname]
  · rw [hvolume, hothers other hother]

/-- A heap file is made, or nothing is; or a file is made that stays blank, because there is no
frame for its pages. -/
theorem ends_createHeap (h : law.Holds pins db) (ho : db.Orderly)
    (hroom : db.files.nextId.toNat + 1 < 2 ^ 32) (name : String) :
    (createHeap name).Ensures db
      (fun _ db' => Begun pins name db db' ∧
        (law.volume db' ⟨db.files.nextId⟩).IsHeap (Volume.newHeader name))
      (fun e db' => db' = db ∧ (FileName.isValid name = true → db.files.named.has name = true) ∨
        Begun pins name db db' ∧ e = .bufferPoolExhausted ∧
          (law.volume db' ⟨db.files.nextId⟩).Blank) := by
  unfold createHeap
  rw [ensures_bind]
  refine (ensures_create h ho hroom name).mono ?_ fun _ _ => .inl
  rintro _ db₁ ⟨h₁, ho₁, hvalid, hfree, hfiles, hsize, hothers⟩
  have hnone := Table.find?_of_has_eq_false (ho.opened_of_free hfree)
  obtain ⟨hpos, hle⟩ := FileName.size_of_isValid hvalid
  obtain ⟨db₂, hdb₂⟩ : ∃ db₂ : Database MemoryFiles, db₂ = { db₁ with
    files := { db₁.files with
      opened := db₁.files.opened.put name ⟨⟨⟨db.files.nextId⟩, name⟩, 1⟩ } } := ⟨_, rfl⟩
  have hopen : onFiles (FileStore.openFile name) db₁ = .ok ⟨⟨db.files.nextId⟩, name⟩ db₂ := by
    rw [hdb₂]
    refine onPart_run_ok (MemoryFiles.openFile_eq hvalid ?_ ?_)
    · rw [hfiles]
      exact hnone
    · rw [hfiles]
      exact MemoryFiles.find?_made _ _
  obtain ⟨hsteady, -, -⟩ := (steady_onFiles (.refl h₁ ho₁)
    (MemoryFiles.ensures_openFile ho₁.booked name)).of_ok hopen
  have hsize₂ : (law.volume db₂ ⟨db.files.nextId⟩).size = 1 := by
    rw [hsteady.volume]
    exact hsize
  -- whatever becomes of the pages, the file is closed, and no other file changed
  have hclose {db₃ : Database MemoryFiles} (h₃ : law.Holds pins db₃)
      (honly : law.Only ⟨db.files.nextId⟩ db₂ db₃) :
      ∃ db₄, onFiles (FileStore.close ⟨⟨db.files.nextId⟩, name⟩) db₃ = .ok () db₄ ∧
        Begun pins name db db₄ ∧ law.volume db₄ = law.volume db₃ := by
    have hakin : MemoryFiles.Akin db₂.files db₃.files := honly.akin
    refine exists_close_begun h₃ (hsteady.orderly.of_only honly (hsize₂ ▸ Nat.one_pos)) hvalid
      hfree hnone ?_ ?_ ?_ fun other hother => ?_
    · rw [hakin.named, hdb₂, hfiles]
      rfl
    · rw [hakin.opened, hdb₂, hfiles]
      rfl
    · rw [hakin.nextId, hdb₂, hfiles]
    · rw [honly.others other hother, hsteady.volume, hothers other hother]
  rw [ensures_bind]
  refine .of_run hopen ?_
  rw [ensures_thenAlways]
  refine (ensures_formatHeap hsteady.holds _ (valid_newHeader hpos hle) hsize₂).mono ?_ ?_
  · rintro _ db₃ ⟨h₃, honly, data, hdata, hvolume⟩
    obtain ⟨db₄, hrun, hbegun, hsame⟩ := hclose h₃ honly
    refine .of_run hrun ⟨hbegun, ?_⟩
    rw [hsame, hvolume]
    exact Volume.isHeap_formatted hsize₂ (valid_newHeader hpos hle) hdata
  · rintro e db₃ ⟨h₃, honly, hblank, hcause⟩
    obtain ⟨db₄, hrun, hbegun, hsame⟩ := hclose h₃ honly
    exact .of_run hrun (.inr ⟨hbegun, hcause, hsame ▸ hblank⟩)

/-- A heap file is made; or it is refused, and then there may be a new file. -/
theorem ensures_createHeap (h : law.Holds pins db) (ho : db.Orderly)
    (hroom : db.files.nextId.toNat + 1 < 2 ^ 32) (name : String) :
    (createHeap name).Ensures db
      (fun _ db' => Made pins db db' ∧
        ∃ header, (law.volume db' ⟨db.files.nextId⟩).IsHeap header)
      (fun _ db' => Made pins db db') := by
  refine (ends_createHeap h ho hroom name).mono ?_ ?_
  · rintro _ db' ⟨hbegun, hheap⟩
    exact ⟨.of_isHeap hbegun.holds hbegun.orderly hheap hbegun.others, _, hheap⟩
  · rintro e db' (⟨rfl, -⟩ | ⟨hbegun, -, hblank⟩)
    · exact .of_blank h ho ho.blank_new fun _ _ => rfl
    · exact .of_blank hbegun.holds hbegun.orderly hblank hbegun.others

/-- Without a number for a new file none is made. -/
theorem fails_createHeap (hfull : ¬db.files.nextId.toNat + 1 < 2 ^ 32) (name : String) :
    (createHeap name).Fails db db := by
  unfold createHeap onFiles
  exact (Fails.onPart (MemoryFiles.fails_create db.files name hfull)).bind

end Database

end PagedHeap
