import PagedHeap.Proofs.Session.Reading
import PagedHeap.Proofs.Session.Visit

/-!
# Reading a heap file through the only handle

Whoever opens a heap file that is shown, in a session without handles, learns from it what it is
shown with: its header, the number of its pages and the records that pass a filter, in their order.
None of this changes what is shown.
-/

namespace PagedHeap

open PagedHeap.Action

open MemoryFiles (law)

/-- At the addresses of some records there are these records. -/
theorem Volume.rowsAt_map_fst {v : Volume} {rows : List (RecordId × Bytes)}
    (h : ∀ row ∈ rows, v.record? row.1 = some row.2) : v.rowsAt (rows.map Prod.fst) = rows := by
  induction rows with
  | nil => rfl
  | cons row rows ih =>
    unfold rowsAt
    rw [List.map_cons, List.filterMap_cons, h row (List.mem_cons_self ..)]
    exact congrArg (row :: ·) (ih fun other hother => h other (List.mem_cons_of_mem _ hother))

namespace Session

variable {capacity n : Nat} {s : Session DiskFiles} {t : Session MemoryFiles} {name : String}
variable {v : Volume} {header : HeapHeader} {heap : HeapFile}

/-- The session has opened a heap file for reading and has not read any record yet. -/
structure Faces (s : Session DiskFiles) (t : Session MemoryFiles) (heap : HeapFile) (v : Volume) :
    Prop extends s.Browses t heap where
  roomy : HeapFile.Roomy law 0 ⟨t.db, heap⟩
  volume : law.volume t.db heap.file.id = v
  position : heap.position = some ⟨2⟩
  record : heap.record = none

/-- The file behind the handle is open. -/
theorem Browses.isOpen (h : s.Browses t heap) : s.db.files.opened.IsOpen heap.file.id :=
  h.mirrored.isOpen h.sound (h.mirrored.handles ▸ h.find?) rfl

/-- A heap file that is shown is opened for reading. -/
theorem Ready.exists_faces (h : s.Ready capacity n) (hnone : s.handles = [])
    (hnext : s.db.files.nextId.toNat + 2 < 2 ^ 32) (hshown : s.db.shown name = some v) :
    ∃ d t heap, Database.openHeap name s.db = .ok heap d ∧ d.shown = s.db.shown ∧
      Faces ⟨d, [("", .heap heap)]⟩ t heap v := by
  obtain ⟨⟨d, handles⟩, t, heap, hready, hhandles, -, hopens⟩ :=
    h.exists_open hnone hnext hshown .lookup
  obtain rfl : handles = [("", .heap heap)] := hhandles
  have hroomy := hopens.roomy
  rw [hnone] at hroomy
  exact ⟨d, t, heap, hopens.run, hopens.shown, ⟨hopens.mirrored, hopens.sound, rfl,
    hready.inOrder.names, hready.inOrder.heaps, hopens.few hnext⟩, hroomy, hopens.volume,
    hopens.position, hopens.record⟩

/-- The pages of the file are counted. -/
theorem Faces.exists_pageCount (h : s.Faces t heap v) (hsize : v.size < 2 ^ 32) :
    ∃ count d t', Database.onFiles (PageStore.pageCount heap.file.id) s.db = .ok count d ∧
      count.toNat = v.size ∧ d.shown = s.db.shown ∧
      Faces ⟨d, [("", .heap heap)]⟩ t' heap v := by
  have hmemory : (HeapFile.onDatabase (Database.onFiles (PageStore.pageCount heap.file.id)) :
      HeapAction MemoryFiles UInt32).Ensures ⟨t.db, heap⟩ (fun count w => StaysAt t "" heap w ∧
        w = ⟨t.db, heap⟩ ∧ count.toNat = v.size) Never := by
    rw [HeapFile.ensures_onDatabase]
    refine ensures_onPart.2 ((law.count t.db.files heap.file.id).mono ?_ fun _ _ => id)
    rintro count _ ⟨rfl, rfl⟩
    refine ⟨⟨h.attached, .refl _, rfl⟩, rfl, ?_⟩
    have hcount : law.size t.db.files heap.file.id = v.size := congrArg Volume.size h.volume
    rw [hcount, UInt32.toNat_ofNat_of_lt' hsize]
  obtain ⟨count, ⟨d, heap'⟩, w, hrun, ⟨rfl, hcount⟩, hheap, hshown, hbrowses⟩ := h.toBrowses.read
    (HeapFile.keeps_onDatabase (Database.keeps_onFiles (PageStore.Parallel.count _ h.isOpen)))
    hmemory
  obtain rfl : heap = heap' := hheap
  obtain ⟨d', hrun', hd⟩ := exists_of_onPart_ok hrun
  cases hd
  exact ⟨count, d, _, hrun', hcount, hshown, hbrowses, h.roomy, h.volume, h.position, h.record⟩

/-- The header is the one that counts the records that are shown. -/
theorem Faces.exists_header (h : s.Faces t heap v) (hv : v.IsHeap header) :
    ∃ u t', HeapFile.header ⟨s.db, heap⟩ = .ok header u ∧ u.db.shown = s.db.shown ∧
      Browses ⟨u.db, [("", .heap u.heap)]⟩ t' u.heap := by
  have hmemory := HeapFile.ensures_header h.attached (h.volume ▸ hv.header)
  obtain ⟨_, u, w, hrun, rfl, -, hshown, hbrowses⟩ := h.toBrowses.read HeapFile.keeps_header
    (hmemory.mono (fun answer w hpost => ⟨hpost.2 ▸ ⟨h.attached, .refl _, rfl⟩, hpost.1⟩)
      fun _ _ => id)
  exact ⟨u, _, hrun, hshown, hbrowses⟩

/-- All records that pass a filter are read, in the order of their addresses. -/
theorem Faces.exists_rows (h : s.Faces t heap v) (hv : v.IsHeap header)
    (filter : Option Filter) {limit : Nat} (hlimit : v.rows.length < limit) :
    ∃ u t', readRows filter limit ⟨s.db, heap⟩ =
        .ok (v.rows.filter fun row => passes filter row.2, .endOfFile) u ∧
      u.db.shown = s.db.shown ∧ Browses ⟨u.db, [("", .heap u.heap)]⟩ t' u.heap := by
  have hvolume := h.volume
  subst hvolume
  generalize hpassing : (Volume.rows (law.volume t.db heap.file.id)).filter
    (fun row => passes filter row.2) = rows
  have hthere (row : RecordId × Bytes) (hrow : row ∈ rows) :
      Volume.record? (law.volume t.db heap.file.id) row.1 = some row.2 :=
    hv.mem_rows.1 (List.mem_of_mem_filter (hpassing ▸ hrow))
  have hsorted : (rows.map Prod.fst).Pairwise RecordId.Before := by
    rw [List.pairwise_map, ← hpassing]
    exact hv.sorted_rows.filter _
  have hmem (rid : RecordId) : rid ∈ rows.map Prod.fst ↔
      heap.Ahead rid ∧ Volume.Passing (law.volume t.db heap.file.id) filter rid := by
    rw [List.mem_map]
    constructor
    · rintro ⟨row, hrow, rfl⟩
      have hbytes := hthere row hrow
      rw [← hpassing, List.mem_filter] at hrow
      exact ⟨HeapFile.ahead_of_start h.position h.record (Volume.isData_of_record? hbytes),
        row.2, hbytes, hrow.2⟩
    · rintro ⟨-, bytes, hbytes, hpasses⟩
      refine ⟨(rid, bytes), ?_, rfl⟩
      rw [← hpassing, List.mem_filter, hv.mem_rows]
      exact ⟨hbytes, hpasses⟩
  have hplace (page : PageId) (hpage : heap.position = some page) :
      Volume.IsData (law.volume t.db heap.file.id) page := by
    obtain rfl := Option.some.inj (h.position.symm.trans hpage)
    exact hv.isData_two
  have hshort : (rows.map Prod.fst).length < limit := by
    rw [List.length_map, ← hpassing]
    exact (List.length_filter_le ..).trans_lt hlimit
  have hroomy := h.roomy.readRows filter _ limit hv hplace hsorted hmem hshort
  have hstays := HeapFile.stays_readRows filter limit h.attached hv
  obtain ⟨answer, u, w, hrun, hanswer, -, hshown, hbrowses⟩ :=
    h.toBrowses.read (keeps_readRows h.isOpen filter limit)
      ((hstays.and hroomy).mono (fun _ _ => id) fun _ _ => And.right)
  obtain rfl : answer = (rows, .endOfFile) :=
    hanswer.1.trans (congrArg (·, ScanEnd.endOfFile) (Volume.rowsAt_map_fst hthere))
  exact ⟨u, _, hrun, hshown, hbrowses⟩

/-- The scan is ended. -/
theorem Browses.exists_endScan (h : s.Browses t heap) : ∃ u t',
    HeapFile.endScan ⟨s.db, heap⟩ = .ok () u ∧ u.db.shown = s.db.shown ∧
      Browses ⟨u.db, [("", .heap u.heap)]⟩ t' u.heap := by
  obtain ⟨_, u, w, hrun, -, -, hshown, hbrowses⟩ := h.read HeapFile.keeps_endScan
    (HeapFile.ensures_endScan h.attached)
  exact ⟨u, _, hrun, hshown, hbrowses⟩

end Session

end PagedHeap
