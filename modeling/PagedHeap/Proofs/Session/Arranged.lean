import PagedHeap.Proofs.Session.Stocking

/-!
# Scanning what was inserted

Whoever scans a heap file that was filled gets the records of the first page before all others, and
both in the order in which they were inserted (`Session.Filling.scanned`).

After two records that do not fit on one page, a short one through a new handle goes behind the
first of them (`Session.exists_filling_three`).
-/

namespace PagedHeap

open PagedHeap.Action

open MemoryFiles (law)

namespace Session

variable {capacity : Nat} {s s' : Session MemoryFiles} {name title : String} {file : FileId}
variable {batches : List (List (RecordId × Bytes))}

/-! ## Three records through two handles -/

/-- Two records that do not fit on one page are inserted into the first heap file. -/
theorem exists_filling_pair : ∃ s v heap,
    Filling 8 ⟨1⟩ s
      [[(⟨⟨2⟩, 0⟩, List.replicate 2000 1), (⟨⟨3⟩, 0⟩, List.replicate 3000 2)]] ∧
    Hosts 8 ⟨⟨1⟩, "t"⟩ v s ∧ s.handles = [("i", .inserter heap)] ∧
    PacksInto ⟨⟨1⟩, "t"⟩ ⟨[[List.replicate 2000 1]], [List.replicate 3000 2]⟩ v heap := by
  obtain ⟨_, s, v, heap, -, hstocked, hpacks⟩ := exists_stocked_first
  obtain ⟨header, hv⟩ := hstocked.hosts.heap
  have hrows := (hstocked.packs.rows_eq hv).symm.trans (hpacks.rows_eq hv)
  have hfilling := hstocked.filling
  rw [hrows] at hfilling
  exact ⟨s, v, heap, hfilling, hstocked.hosts, hstocked.handles, hpacks⟩

/-- The only handle for inserting is closed, and a new one is opened.  A record that still fits on
the first page goes there. -/
theorem Filling.exists_reopened {v : Volume} {heap : HeapFile} {a b record : Bytes}
    (filling : Filling 8 ⟨1⟩ s batches) (h : Hosts 8 ⟨⟨1⟩, "t"⟩ v s)
    (hhandles : s.handles = [("i", .inserter heap)]) (hlaid : v.LaidOut [[a], [b]])
    (hlen : record.length ≤ maxRecordSize)
    (hfits : Packing.load [a] + Packing.itemSize record ≤ Packing.binSize) :
    ∃ s' w heap', Filling 8 ⟨1⟩ s' (batches ++ [[(⟨⟨2⟩, 1⟩, record)]]) ∧
      Hosts 8 ⟨⟨1⟩, "t"⟩ w s' ∧ s'.handles = [("i", .inserter heap')] ∧
      heap'.file = ⟨⟨1⟩, "t"⟩ := by
  -- The handle is closed.
  obtain ⟨db₁, hclose, hvolume₁, hnamed₁⟩ :=
    exists_close_inserter h.sound h.inAccount (find?_of_alone hhandles)
  have hlevel₁ : (Command.tell "i" .close).HeapLevel := trivial
  have h₁ := h.keepAll hlevel₁ hclose ⟨hvolume₁, hnamed₁⟩
  rw [hhandles, Table.erase_singleton] at hclose h₁
  have hnobody (n : String) : ¬InsertsInto ⟨db₁, []⟩ n ⟨1⟩ := by
    rintro ⟨_, hfind, -⟩
    cases hfind
  have hsame : records ⟨db₁, []⟩ ⟨1⟩ = s.records ⟨1⟩ := by
    unfold records
    rw [hvolume₁]
  have hclosed := filling.other hlevel₁ hclose h₁.small hsame fun n hn => absurd hn (hnobody n)
  -- Another one is opened.
  obtain ⟨heap₂, db₂, hopen, hfile₂, hat₂, hkeeps₂⟩ := h₁.exists_open "i" rfl
    (fun _ hentry => absurd hentry List.not_mem_nil) (Nat.le_of_ble_eq_true rfl) .insert
  have hlevel₂ : (Command.openAs "i" (.heap .insert "t")).HeapLevel := trivial
  have h₂ := h₁.keepAll hlevel₂ hopen hkeeps₂
  have hinto : InsertsInto ⟨db₂, [("i", .inserter heap₂)]⟩ "i" ⟨1⟩ := ⟨heap₂, rfl, by rw [hfile₂]⟩
  have hopened := hclosed.opened hnobody hopen h₂.small hinto
  -- The record is inserted.
  rw [← hfile₂] at h₂
  have hfirst : [[a], [b]][0]? = some [a] := rfl
  obtain ⟨t, w, hinsert, h₃, hfile₃⟩ := h₂.exists_insert_of_bin (find?_of_alone rfl) hlaid hfirst
    hat₂.page hlen hfits (hlaid.size.trans_le (Nat.le_of_ble_eq_true rfl))
  rw [hfile₂] at h₃
  exact ⟨_, w, t.heap, hopened.inserted hinto hinsert h₃.small, h₃, rfl, hfile₃.trans hfile₂⟩

/-- Two records that do not fit on one page are inserted through one handle, and a short one through
another handle. -/
theorem exists_filling_three : ∃ s v heap,
    Filling 8 ⟨1⟩ s
      [[(⟨⟨2⟩, 0⟩, List.replicate 2000 1), (⟨⟨3⟩, 0⟩, List.replicate 3000 2)],
        [(⟨⟨2⟩, 1⟩, [7])]] ∧
    Hosts 8 ⟨⟨1⟩, "t"⟩ v s ∧ s.handles = [("i", .inserter heap)] ∧ heap.file = ⟨⟨1⟩, "t"⟩ := by
  obtain ⟨s, v, heap, hfilling, hosts, hhandles, hpacks⟩ := exists_filling_pair
  have hlen : ([7] : Bytes).length ≤ maxRecordSize := by decide
  have hfits : Packing.load [List.replicate 2000 1] + Packing.itemSize [7] ≤ Packing.binSize := by
    unfold Packing.load Packing.itemSize
    rw [List.map_singleton, List.length_replicate]
    decide
  exact hfilling.exists_reopened hosts hhandles hpacks.laid hlen hfits

/-! ## The order of a scan -/

/-- Whoever opens a heap file that was filled for a scan, and scans it, gets the rows on the first
page and behind them the others, each in the order in which they were inserted, if the pool has room
for the pages of all handles.  So the rows that were inserted through one handle are in the order of
its inserts.  All rows are in the order in which they were inserted if nothing went to the first
page any more once there was something behind it. -/
theorem Filling.scanned (filling : Filling capacity file s batches)
    (hstep : Session.step s (.openAs name (.heap .scan title)) = .ok (.done, s'))
    {scan : Scan} (hfind : s'.handles.find? name = some (.scan scan))
    (hfile : scan.heap.file.id = file) (hroom : 2 * s'.handles.length ≤ capacity) {limit : Nat}
    (hlimit : batches.flatten.length < limit) :
    (∃ s'', Session.step s' (.tell name (.scan limit)) =
      .ok (.rows (Volume.arranged batches) .endOfFile, s'')) ∧
    (∀ batch ∈ batches, batch.Sublist (Volume.arranged batches)) ∧
    ((batches.flatten.Pairwise fun a b => b.1.page = ⟨2⟩ → a.1.page = ⟨2⟩) →
      Volume.arranged batches = batches.flatten) := by
  obtain ⟨heaps, run, -⟩ := filling.run
  obtain ⟨hsound, hsmall, -⟩ := run.sound
  have hfills := filling.fills
  have hlevel : (Command.openAs name (.heap .scan title)).HeapLevel := trivial
  have hfollows := follows_step hsound hsmall hlevel hstep
  have hsame : s'.records = s.records :=
    hfollows.effect.unchanged_records (by simp [Command.Changes])
  obtain ⟨header, hv⟩ := hfollows.heaps file hfills.heap
  have hfilled : (law.volume s'.db file).Filled batches := hfills.filled.congr (congrFun hsame file)
  have hrows := hfilled.rows_eq hv
  refine ⟨?_, fun batch hbatch => ?_, fun hfirst => ?_⟩
  · obtain ⟨heap, hhandles, -, hposition, hrecord⟩ := exists_of_openAs hsound hstep
    rw [hhandles, Table.find?_put_self] at hfind
    cases hfind
    have hfind' : s'.handles.find? name = some (.scan (Scan.start heap)) := by
      rw [hhandles]
      exact Table.find?_put_self ..
    have haccount := run.inAccount.step hlevel hstep
    have hroomy : HeapFile.Roomy law (pinsOf (s'.handles.erase name)) ⟨s'.db, heap⟩ := by
      refine ⟨hfollows.sound.attached hfind' rfl, haccount.1.accounts.tracked, ?_⟩
      rw [haccount.1.accounts.capacity]
      exact (card_pinsOf_erase_le hfind').trans hroom
    obtain rfl : heap.file.id = file := hfile
    have hlength : (law.volume s'.db heap.file.id).rows.length < limit := by
      rw [hrows, Volume.length_arranged]
      exact hlimit
    obtain ⟨_, s'', hrun, rfl⟩ :=
      (ensures_scan_rows hfind' hroomy hv hposition hrecord hlength).exists_ok
    exact ⟨s'', hrows ▸ step_of_ok hrun⟩
  · rw [← hrows]
    exact hfilled.sublist hv hbatch
  · rw [← hrows]
    exact hfilled.rows_eq_flatten hv hfirst


/-- A scan gives two records in the order in which they were inserted, and a third one that was
inserted through another handle between them. -/
theorem Filling.scanned_arranged : ∃ s s' s'' t t' t'',
    Filling 8 ⟨1⟩ s
      [[(⟨⟨2⟩, 0⟩, List.replicate 2000 1), (⟨⟨3⟩, 0⟩, List.replicate 3000 2)]] ∧
    Session.step s (.openAs "h" (.heap .scan "t")) = .ok (.done, s') ∧
    Session.step s' (.tell "h" (.scan 4)) = .ok (.rows
      [(⟨⟨2⟩, 0⟩, List.replicate 2000 1), (⟨⟨3⟩, 0⟩, List.replicate 3000 2)] .endOfFile, s'') ∧
    Filling 8 ⟨1⟩ t
      [[(⟨⟨2⟩, 0⟩, List.replicate 2000 1), (⟨⟨3⟩, 0⟩, List.replicate 3000 2)],
        [(⟨⟨2⟩, 1⟩, [7])]] ∧
    Session.step t (.openAs "h" (.heap .scan "t")) = .ok (.done, t') ∧
    Session.step t' (.tell "h" (.scan 4)) = .ok (.rows
      [(⟨⟨2⟩, 0⟩, List.replicate 2000 1), (⟨⟨2⟩, 1⟩, [7]), (⟨⟨3⟩, 0⟩, List.replicate 3000 2)]
      .endOfFile, t'') := by
  -- The first scan finds what was inserted through the first handle.
  obtain ⟨s, v, heap, hfilling, hosts, hhandles, hpacks⟩ := exists_filling_pair
  obtain ⟨s', heap', hopen, -, halong, hfile, -⟩ := hosts.exists_alongside hpacks.file hhandles
  have hroom : 2 * s'.handles.length ≤ 8 := by
    have hlt := halong.room
    omega
  obtain ⟨⟨s'', hscan⟩, -, horder⟩ := Filling.scanned hfilling hopen halong.scan
    (congrArg FileHandle.id hfile) hroom (Nat.le_of_ble_eq_true rfl : 2 < 4)
  rw [horder (List.pairwise_pair.2 fun hpage => absurd hpage (by decide))] at hscan
  -- The second one finds the third record as well.
  obtain ⟨t, w, theap, hfilling', hosts', hhandles', htfile⟩ := exists_filling_three
  obtain ⟨t', theap', hopen', -, halong', hfile', -⟩ := hosts'.exists_alongside htfile hhandles'
  have hroom' : 2 * t'.handles.length ≤ 8 := by
    have hlt := halong'.room
    omega
  obtain ⟨⟨t'', hscan'⟩, -, -⟩ := Filling.scanned hfilling' hopen' halong'.scan
    (congrArg FileHandle.id hfile') hroom' (Nat.le_of_ble_eq_true rfl : 3 < 4)
  exact ⟨s, s', s'', t, t', t'', hfilling, hopen, hscan, hfilling', hopen', hscan'⟩

end Session

end PagedHeap
