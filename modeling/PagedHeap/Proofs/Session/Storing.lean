import PagedHeap.Proofs.Session.Packing

/-!
# Stocking a heap file in a directory

Records are inserted into a heap file that was made in a directory, one after the other through one
handle, and each insert is answered (`Session.DirectoryRun.exists_stocked`).  The file is in the
directory all the while, and it is laid out by the packing of the records.
-/

namespace PagedHeap

open PagedHeap.Action

open MemoryFiles (law)

namespace Session

variable {capacity : Nat} {s s' made : Session DiskFiles} {t : Session MemoryFiles}
variable {name handle : String} {heap : HeapFile} {records : List Bytes} {record : Bytes}

/-- Records were packed into a heap file in a directory through the only handle, which is still
open, since the file was made. -/
structure StocksDirectory (capacity : Nat) (handle name : String) (records : List Bytes)
    (made s : Session DiskFiles) (t : Session MemoryFiles) (heap : HeapFile) : Prop where
  packs : PacksInDirectory capacity handle name records s t heap
  run : DirectoryRun s
  stretch : Stretch name made s

/-- One more record is packed. -/
theorem StocksDirectory.exists_insert
    (h : StocksDirectory capacity handle name records made s t heap) (hframes : 3 ≤ capacity)
    (hlen : record.length ≤ maxRecordSize) (hmany : (records ++ [record]).length + 4 < 2 ^ 32) :
    ∃ s' t' heap', StocksDirectory capacity handle name (records ++ [record]) made s' t' heap' := by
  obtain ⟨s', t', heap', hstep, h'⟩ := h.packs.exists_insert hframes hlen hmany
  have hlevel : (Command.tell handle (.insert record)).OnHeaps := trivial
  exact ⟨s', t', heap', h', h.run.step hlevel hstep (fun _ _ => nofun) h'.few,
    h.stretch.step hlevel hstep (fun _ _ => nofun) h'.few (Database.has_of_shown h'.shown)⟩

section Made

variable (run : DirectoryRun s) (hnone : s.handles = [])
  (hstep : Session.step s (.create name) = .ok (.done, made))
  (hnumbers : made.db.files.nextId.toNat + 2 < 2 ^ 32) (handle : String)
include run hnone hstep hnumbers

/-- A heap file that was made is opened, and nothing is packed into it yet. -/
theorem DirectoryRun.exists_unstocked (hframes : 2 ≤ s.db.pool.capacity) :
    ∃ s' t heap, StocksDirectory s.db.pool.capacity handle name [] made s' t heap := by
  obtain ⟨run', -⟩ := run.made hstep (Nat.lt_of_succ_lt hnumbers)
  obtain ⟨s', t, heap, hopen, h⟩ := run.exists_packs hnone hframes hstep hnumbers handle
  have hlevel : (Command.openAs handle (.heap .insert name)).OnHeaps := trivial
  exact ⟨s', t, heap, h, run'.step hlevel hopen (fun _ _ => nofun) h.few,
    Stretch.start.step hlevel hopen (fun _ _ => nofun) h.few (Database.has_of_shown h.shown)⟩

/-- A heap file that was made is opened, and records are packed into it. -/
theorem DirectoryRun.exists_stocked (hframes : 3 ≤ s.db.pool.capacity)
    (hlen : ∀ record ∈ records, record.length ≤ maxRecordSize)
    (hmany : records.length + 4 < 2 ^ 32) :
    ∃ s' t heap, StocksDirectory s.db.pool.capacity handle name records made s' t heap := by
  induction records using List.reverseRecOn with
  | nil => exact run.exists_unstocked hnone hstep hnumbers handle (Nat.le_of_succ_le hframes)
  | append_singleton records record ih =>
    have hbefore (other : Bytes) (hother : other ∈ records) : other.length ≤ maxRecordSize :=
      hlen other (List.mem_append_left _ hother)
    have hlast : record.length ≤ maxRecordSize :=
      hlen record (List.mem_append_right _ (List.mem_singleton_self _))
    obtain ⟨s', t, heap, h⟩ := ih hbefore (lt_of_concat hmany)
    exact h.exists_insert hframes hlast hmany

end Made

/-- Two records that do not fit on one page are packed into the first heap file of a directory,
which had no records when it was made. -/
theorem exists_stocked_directory : ∃ made s t heap, DirectoryRun made ∧
    made.handles = [] ∧ made.db.files.named = [("t", 0)] ∧ (made.db.files.image 0).pageCount = 3 ∧
    StocksDirectory 8 "i" "t" [List.replicate 2000 1, List.replicate 3000 2] made s t heap := by
  obtain ⟨made, hcreate, hhandles, hcapacity, hopened, hnext, hnamed, hpages⟩ := exists_create
  have hframes : 3 ≤ 8 := by decide
  have hnumbers : made.db.files.nextId.toNat + 2 < 2 ^ 32 := by
    rw [hnext]
    decide
  have hmany : [List.replicate 2000 (1 : UInt8), List.replicate 3000 2].length + 4 < 2 ^ 32 :=
    Nat.le_of_ble_eq_true rfl
  obtain ⟨run, -⟩ := (directoryRun_start 8).made hcreate (Nat.lt_of_succ_lt hnumbers)
  obtain ⟨s, t, heap, h⟩ := (directoryRun_start 8).exists_stocked rfl hcreate hnumbers "i" hframes
    Packing.length_two hmany
  exact ⟨made, s, t, heap, run, List.isEmpty_iff.1 hhandles, hnamed, hpages, h⟩

/-- Both pages of the file are shown then. -/
theorem StocksDirectory.laid_out
    (h : StocksDirectory capacity handle name [List.replicate 2000 1, List.replicate 3000 2] made s
      t
      heap) : ∃ v header, s.db.shown name = some v ∧ v.IsHeap header ∧ v.dataPages = [⟨2⟩, ⟨3⟩] ∧
      v.rows = [(⟨⟨2⟩, 0⟩, List.replicate 2000 1), (⟨⟨3⟩, 0⟩, List.replicate 3000 2)] := by
  obtain ⟨header, hv, hdescribes⟩ := h.packs.packed.exists_header
  have hlaid := h.packs.packed.packed.laid
  have hrows := hdescribes.rows
  rw [Packing.ofRecords_two] at hlaid hrows
  refine ⟨_, header, h.packs.shown, hv, ?_, hrows⟩
  unfold Volume.dataPages
  have hsize : (law.volume t.db heap.file.id).size = 4 := hlaid.size
  rw [hsize]
  rfl

end Session

end PagedHeap
