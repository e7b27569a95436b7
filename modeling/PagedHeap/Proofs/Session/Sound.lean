import PagedHeap.Proofs.Heap.Making

/-!
# Sessions in which all pins are counted

The handles of a session hold the pins on its pool.  In a sound session they hold all of them, every
handle stands for an open heap file, and every file is a heap file or blank.

An operation on the heap file behind one handle takes the pins of the other handles for the rest,
and leaves the session sound whatever other handles there are on the same file.
-/

namespace PagedHeap

open PagedHeap.Action

/-! ## Pins of handles -/

/-- The heap file behind a handle. -/
def Handle.heap? : Handle → Option HeapFile
  | .heap h => some h
  | .scan s => some s.heap
  | .inserter h => some h
  | .file _ => none
  | .page _ => none

/-- The pins of a handle. -/
def Handle.pins : Handle → Multiset Pin
  | .heap h => h.pins
  | .scan s => s.heap.pins
  | .inserter h => h.pins
  | .file _ => 0
  | .page pin => {pin}

theorem Handle.pins_of_heap? {handle : Handle} {h : HeapFile} (heq : handle.heap? = some h) :
    handle.pins = h.pins := by
  cases handle with
  | heap _ | scan _ | inserter _ =>
    cases heq
    rfl
  | file _ | page _ => cases heq

namespace Session

/-- The pins of all handles. -/
def pinsOf (handles : Table String Handle) : Multiset Pin :=
  (handles.map fun entry => entry.2.pins).sum

variable {handles : Table String Handle} {name : String} {handle new : Handle}

/-- The pins of one handle and those of the others. -/
theorem pinsOf_put (h : handles.keys.Nodup) (name : String) (new : Handle) :
    pinsOf (handles.put name new) = new.pins + pinsOf (handles.erase name) :=
  Table.total_put Handle.pins h name new

/-- The pins of a session are those of one of its handles and the others. -/
theorem pinsOf_eq (h : handles.keys.Nodup) (hfind : handles.find? name = some handle) :
    pinsOf handles = handle.pins + pinsOf (handles.erase name) :=
  Table.total_eq Handle.pins h hfind

end Session

/-! ## What becomes of files -/

open MemoryFiles (law)

/-- The file is a heap file. -/
def Database.HasHeap (db : Database MemoryFiles) (file : FileId) : Prop :=
  ∃ header, (law.volume db file).IsHeap header

/-- Heap files remain heap files, and no file becomes unusable. -/
structure Database.Evolves (db db' : Database MemoryFiles) : Prop where
  orderly : db'.Orderly
  heaps : ∀ file, db.HasHeap file → db'.HasHeap file
  usable : ∀ file, Usable law db file → Usable law db' file

namespace Database

variable {db db' : Database MemoryFiles} {pins : Multiset Pin}

theorem Steady.evolves (h : Steady pins db db') : db.Evolves db' where
  orderly := h.orderly
  heaps file hfile := by
    unfold HasHeap
    rw [h.volume]
    exact hfile
  usable file hfile := by
    unfold Usable
    rw [h.volume]
    exact hfile

/-- A change of one file that leaves a heap file. -/
theorem Evolves.of_moves {s t : HeapState MemoryFiles} (ho : s.db.Orderly)
    (hheap : s.db.HasHeap s.heap.file.id) (h : HeapFile.Moves law pins s t) :
    s.db.Evolves t.db where
  orderly := by
    obtain ⟨header, hv⟩ := hheap
    have hthree := hv.three_le
    exact ho.of_only h.only (by omega)
  heaps file hfile := by
    by_cases heq : file = s.heap.file.id
    · obtain ⟨header, hv⟩ := h.heap
      exact ⟨header, heq ▸ h.file ▸ hv⟩
    · unfold HasHeap
      rw [h.only.others file heq]
      exact hfile
  usable file hfile := by
    by_cases heq : file = s.heap.file.id
    · obtain ⟨header, hv⟩ := h.heap
      exact .inr ⟨header, heq ▸ h.file ▸ hv⟩
    · unfold Usable
      rw [h.only.others file heq]
      exact hfile

theorem Made.evolves (ho : db.Orderly) (h : Made pins db db') : db.Evolves db' where
  orderly := h.orderly
  heaps file hfile := by
    obtain ⟨header, hv⟩ := hfile
    have hne : file ≠ ⟨db.files.nextId⟩ := by
      rintro rfl
      exact ho.blank_new.not_isData hv.isData_last
    exact ⟨header, h.others file hne ▸ hv⟩
  usable file hfile := by
    by_cases heq : file = ⟨db.files.nextId⟩
    · exact heq ▸ h.usable
    · unfold Usable
      rw [h.others file heq]
      exact hfile

end Database

/-! ## Sound sessions -/

/-- The pins of an open heap file are on its pages. -/
structure HeapFile.Standing (db : Database MemoryFiles) (h : HeapFile) : Prop where
  headerKey : h.headerPin.key = ⟨h.file.id, ⟨1⟩⟩
  currentFile : ∀ pin, h.current = some pin → pin.key.file = h.file.id
  firstPage : h.firstPage = ⟨2⟩
  isHeap : db.HasHeap h.file.id

namespace Session

/-- The handles hold all pins and stand for open heap files, and every file is usable. -/
structure Sound (s : Session MemoryFiles) : Prop where
  distinct : s.handles.keys.Nodup
  holds : law.Holds (pinsOf s.handles) s.db
  orderly : s.db.Orderly
  usable : ∀ file, Database.Usable law s.db file
  standing : ∀ name handle, s.handles.find? name = some handle →
    ∃ h, handle.heap? = some h ∧ h.Standing s.db

variable {s : Session MemoryFiles} {name : String} {handle new : Handle} {heap : HeapFile}
variable {db : Database MemoryFiles}

theorem size_start (capacity : Nat) (file : FileId) :
    (law.volume (Session.start MemoryFiles.empty capacity).db file).size = 0 := rfl

/-- Nothing is open at first. -/
theorem sound_start (capacity : Nat) : (Session.start MemoryFiles.empty capacity).Sound where
  distinct := List.nodup_nil
  holds := by
    have hstart : law.Held ∅ 0 ⟨MemoryFiles.empty, .empty capacity⟩ :=
      PageStore.Law.held_start _ _
    exact Pool.Held.mono hstart (Set.empty_subset _)
  orderly := by
    refine ⟨fun name hname => ?_, fun file hfile => ?_⟩
    · cases hname
    · rw [size_start] at hfile
      exact absurd hfile (Nat.lt_irrefl 0)
  usable file := by
    refine .inl (.inl ?_)
    rw [size_start]
    exact Nat.zero_le 1
  standing := by
    intro name handle hfind
    cases hfind

/-- The heap file behind a handle, with the pins of the other handles for the rest. -/
theorem Sound.attached (h : s.Sound) (hfind : s.handles.find? name = some handle)
    (hheap : handle.heap? = some heap) :
    HeapFile.Attached law (pinsOf (s.handles.erase name)) ⟨s.db, heap⟩ := by
  obtain ⟨_, heq, hstanding⟩ := h.standing name handle hfind
  obtain rfl := Option.some.inj (hheap.symm.trans heq)
  have hholds := h.holds
  rw [pinsOf_eq h.distinct hfind, Handle.pins_of_heap? hheap] at hholds
  exact ⟨hholds, hstanding.headerKey, hstanding.currentFile, hstanding.firstPage⟩

theorem Sound.hasHeap (h : s.Sound) (hfind : s.handles.find? name = some handle)
    (hheap : handle.heap? = some heap) : s.db.HasHeap heap.file.id := by
  obtain ⟨_, heq, hstanding⟩ := h.standing name handle hfind
  obtain rfl := Option.some.inj (hheap.symm.trans heq)
  exact hstanding.isHeap

/-- Handles stand for heap files whatever becomes of the files. -/
theorem Sound.standing_of_evolves (h : s.Sound) (hevolves : s.db.Evolves db) :
    ∀ name handle, s.handles.find? name = some handle →
      ∃ h, handle.heap? = some h ∧ h.Standing db := by
  intro name handle hfind
  obtain ⟨heap, hheap, hstanding⟩ := h.standing name handle hfind
  exact ⟨heap, hheap, hstanding.headerKey, hstanding.currentFile, hstanding.firstPage,
    hevolves.heaps _ hstanding.isHeap⟩

/-- The handles stay, and so do their pins. -/
theorem Sound.of_evolves (h : s.Sound) (hevolves : s.db.Evolves db)
    (hholds : law.Holds (pinsOf s.handles) db) : Sound ⟨db, s.handles⟩ where
  distinct := h.distinct
  holds := hholds
  orderly := hevolves.orderly
  usable file := hevolves.usable file (h.usable file)
  standing := h.standing_of_evolves hevolves

/-- One handle is given up, and its pins are given back. -/
theorem Sound.erase (h : s.Sound) (hevolves : s.db.Evolves db)
    (hholds : law.Holds (pinsOf (s.handles.erase name)) db) :
    Sound ⟨db, s.handles.erase name⟩ where
  distinct := Table.nodup_keys_erase h.distinct name
  holds := hholds
  orderly := hevolves.orderly
  usable file := hevolves.usable file (h.usable file)
  standing := by
    intro other handle hfind
    by_cases heq : other = name
    · rw [heq, Table.find?_erase_self] at hfind
      cases hfind
    · rw [Table.find?_erase_of_ne (Ne.symm heq)] at hfind
      exact h.standing_of_evolves hevolves other handle hfind

/-- One handle changes, or is new. -/
theorem Sound.put (h : s.Sound) (hevolves : s.db.Evolves db) (hnew : new.heap? = some heap)
    (hattached : HeapFile.Attached law (pinsOf (s.handles.erase name)) ⟨db, heap⟩)
    (hheap : db.HasHeap heap.file.id) : Sound ⟨db, s.handles.put name new⟩ where
  distinct := Table.nodup_keys_put h.distinct name new
  holds := by
    rw [pinsOf_put h.distinct, Handle.pins_of_heap? hnew]
    exact hattached.holds
  orderly := hevolves.orderly
  usable file := hevolves.usable file (h.usable file)
  standing := by
    intro other handle hfind
    by_cases heq : other = name
    · rw [heq, Table.find?_put_self] at hfind
      obtain rfl := Option.some.inj hfind
      exact ⟨heap, hnew, hattached.headerKey, hattached.currentFile, hattached.firstPage, hheap⟩
    · rw [Table.find?_put_of_ne (Ne.symm heq)] at hfind
      exact h.standing_of_evolves hevolves other handle hfind

end Session

end PagedHeap
