import PagedHeap.Proofs.File.Mirror
import PagedHeap.Proofs.Session.Parallel

/-!
# Openings and handles

Every handle of a heap file has opened its file once.  In a session without other openings the table
of open files counts the handles: `OpenTable.Tallies` relates it to the files behind the handles
(`Session.heldFiles`).  A file is open if some handle stands for it, and the last of them closes it.
-/

namespace PagedHeap

namespace Session

variable {handles : Table String Handle} {name : String} {handle new : Handle} {heap : HeapFile}

/-- The files behind the handles, each as often as there are handles. -/
def heldFiles (handles : Table String Handle) : Multiset FileHandle :=
  Table.total (fun file : Option FileHandle => file.elim 0 fun file => {file}) (filesOf handles)

/-- The file behind a handle. -/
def heldBy (handle : Handle) : Multiset FileHandle :=
  (handle.heap?.map HeapFile.file).elim 0 fun file => {file}

theorem heldFiles_eq_total (handles : Table String Handle) :
    heldFiles handles = Table.total heldBy handles := by
  unfold heldFiles Table.total filesOf
  rw [List.map_map]
  rfl

theorem heldBy_of_heap? (h : handle.heap? = some heap) : heldBy handle = {heap.file} := by
  unfold heldBy
  rw [h]
  rfl

/-- One more handle stands for a file. -/
theorem heldFiles_put (h : handles.keys.Nodup) (hfree : handles.has name = false)
    (hnew : new.heap? = some heap) :
    heldFiles (handles.put name new) = heap.file ::ₘ heldFiles handles := by
  rw [heldFiles_eq_total, heldFiles_eq_total, Table.total_put heldBy h, heldBy_of_heap? hnew,
    Table.erase_of_has_eq_false hfree, Multiset.singleton_add]

/-- The file behind one of the handles, and those behind the others. -/
theorem heldFiles_eq (h : handles.keys.Nodup) (hfind : handles.find? name = some handle)
    (hheap : handle.heap? = some heap) :
    heldFiles handles = heap.file ::ₘ heldFiles (handles.erase name) := by
  rw [heldFiles_eq_total, heldFiles_eq_total, Table.total_eq heldBy h hfind, heldBy_of_heap? hheap,
    Multiset.singleton_add]

/-- A file behind one of the handles. -/
theorem mem_heldFiles (h : handles.keys.Nodup) (hfind : handles.find? name = some handle)
    (hheap : handle.heap? = some heap) : heap.file ∈ heldFiles handles := by
  rw [heldFiles_eq h hfind hheap]
  exact Multiset.mem_cons_self _ _

end Session

end PagedHeap
