import PagedHeap.Proofs.File.Mirror
import PagedHeap.Proofs.Heap.Insert
import PagedHeap.Proofs.Heap.Parallel

/-!
# Inserting at the end over a directory

Page numbers run out in a directory, where the header of a file counts its pages, and not in memory.
As long as there is a number for one more page, a page is allocated over a directory as it is over
its mirror.  An insert at the end of a heap file allocates one page at most, so that it then comes
to the same end over both (`HeapFile.agrees_insert_of_last`).
-/

namespace PagedHeap

open PagedHeap.Action

open MemoryFiles (law)

variable {exact : Prop} {origin : DiskFiles} {capacity : Nat} {pins rest : Multiset Pin}

/-- A page is allocated for both, if there is a number for it. -/
theorem Database.agrees_allocate {d : Database DiskFiles} {e : Database MemoryFiles} {file : FileId}
    (h : (DiskFiles.parallel exact origin capacity).Db d e) (hknown : origin.opened.IsOpen file)
    (hholds : law.Holds pins e) (hfew : (law.volume e file).size + 1 < 2 ^ 32) :
    Agrees exact (allocate file) (allocate file) d e
      (fun _ => (DiskFiles.parallel exact origin capacity).Db)
      fun _ => (DiskFiles.parallel exact origin capacity).Db := by
  refine agrees_bind (((keeps_makeRoom h).and_ensures (ensures_makeRoom hholds)).mono
    (fun _ _ _ => id) fun _ _ _ => And.left) ?_
  rintro _ d₁ e₁ ⟨h₁, -, hsame, -⟩
  have hfew₁ : (law.volume e₁ file).size + 1 < 2 ^ 32 := by
    rw [PageStore.Reliable.volume_of_same hsame]
    exact hfew
  refine agrees_bind (p := fun _ => (DiskFiles.parallel exact origin capacity).Db) (agrees_onPart
    ((h₁.files.agrees_allocatePage hknown fun _ => hfew₁).mono ?_ ?_))
    fun page _ _ h₂ => keeps_load hknown _ true h₂
  · exact fun _ _ _ hfiles => ⟨hfiles, h₁.pool, h₁.known, h₁.tracked, h₁.capacity⟩
  · exact fun _ _ _ hfiles => ⟨hfiles, h₁.pool, h₁.known, h₁.tracked, h₁.capacity⟩

namespace HeapFile

variable {s : HeapState DiskFiles} {t : HeapState MemoryFiles} {file : FileHandle} {pin : Pin}
variable {header : HeapHeader} {record : Bytes}

section Insert

variable (h : Parallel (DiskFiles.parallel exact origin capacity) file s t)
  (hattached : Attached law rest t) (hv : (volume law t).IsHeap header)
  (hlen : record.length ≤ maxRecordSize)
include h hattached hv hlen

/-- On an empty page at the end a record is inserted for both. -/
theorem agrees_insertWithin_of_empty (hempty : AtEmpty law t)
    (hsmall : (volume law t).recordCount + 1 < 2 ^ 32) (k : Nat) :
    Agrees exact (insertWithin record (k + 1)) (insertWithin record (k + 1)) s t
      (fun _ => Parallel (DiskFiles.parallel exact origin capacity) file)
      fun _ => Parallel (DiskFiles.parallel exact origin capacity) file := by
  obtain ⟨pin, hcurrent, hlast, hpage⟩ := hempty
  have hdata : (volume law t).IsData pin.key.page := hv.eq_lastPage hlast ▸ hv.isData_last
  refine agrees_bind (((keeps_tryInsert record h).and_ensures
    (ensures_tryInsert hattached hv hcurrent hdata hlen hsmall)).mono
    (fun _ _ _ => id) fun _ _ _ => And.left) ?_
  rintro answer s₁ t₁ ⟨h₁, ⟨rid, rfl, -⟩ | ⟨-, -, -, hfull⟩⟩
  · exact agrees_pure h₁
  · exact absurd hpage hfull

/-- At the end of a heap file a record is inserted or refused for both, if there is a number for one
more page. -/
theorem agrees_insert_of_last (hknown : origin.opened.IsOpen file.id)
    (hcurrent : t.heap.current = some pin) (hlast : pin.key.page = header.lastPage)
    (hsmall : (volume law t).Small) :
    Agrees exact (insert record) (insert record) s t
      (fun _ => Parallel (DiskFiles.parallel exact origin capacity) file)
      fun _ => Parallel (DiskFiles.parallel exact origin capacity) file := by
  have hcurrent' : s.heap.current = some pin := h.heap ▸ hcurrent
  unfold insert
  rw [if_neg (Nat.not_lt.2 hlen), if_neg (Nat.not_lt.2 hlen)]
  refine agrees_get ?_
  rw [hcurrent, hcurrent']
  refine agrees_bind (((keeps_tryInsert record h).and_ensures
    (ensures_tryInsert hattached hv hcurrent
    (hlast ▸ hv.isData_last) hlen hsmall.records)).mono (fun _ _ _ => id) fun _ _ _ => And.left) ?_
  rintro answer s₁ ⟨e₁, heap₁⟩ ⟨h₁, ⟨rid, rfl, -⟩ | ⟨rfl, hstays, rfl, -⟩⟩
  · exact agrees_pure h₁
  have hv₁ := hv
  rw [← hstays.volume_eq] at hv₁
  -- a page is linked behind the last one
  have hsize := hstays.volume_eq ▸ hsmall.size
  have hfile : file = t.heap.file := h.file.symm.trans (congrArg HeapFile.file h.heap.symm)
  have hallocate : Agrees exact (Database.allocate file.id) (Database.allocate file.id) s₁.db e₁
      (fun _ => (DiskFiles.parallel exact origin capacity).Db)
      fun _ => (DiskFiles.parallel exact origin capacity).Db := by
    refine Database.agrees_allocate h₁.db hknown hstays.attached.holds ?_
    rw [hfile]
    exact hsize
  refine agrees_bind (((agrees_advance hknown h₁ hallocate).and_ensures
    (ensures_advance_of_last hstays.attached hv₁ hsize rfl hlast)).mono
    (fun _ _ _ => id) fun _ _ _ => And.left) ?_
  rintro _ s₂ t₂ ⟨h₂, hmoves, hempty, -, hcount, -⟩
  obtain ⟨header₂, hv₂⟩ := hmoves.heap
  refine agrees_insertWithin_of_empty h₂ hmoves.attached hv₂ hlen hempty ?_ 1
  rw [hcount, hstays.volume_eq]
  exact hsmall.records

end Insert

end HeapFile

end PagedHeap
