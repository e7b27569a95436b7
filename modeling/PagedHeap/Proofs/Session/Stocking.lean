import PagedHeap.Proofs.Session.Answering

/-!
# Stocking a heap file

Records are inserted into a heap file that was made, one after the other through one handle, and
each insert is answered (`Session.Run.exists_stocked`).  The file is then laid out by the packing of
the records, which tells where they are.

Two records that do not fit on one page are on two pages (`Session.Run.exists_stocked_pair`).  A
scan of such a file goes on to its first record, which is then deleted, and a third record is
inserted behind the others (`Session.exists_disturbed`).
-/

namespace PagedHeap

open PagedHeap.Action

open MemoryFiles (law)

namespace Session

variable {capacity : Nat} {s s' : Session MemoryFiles} {heaps : Set FileId} {c : Command}
variable {reply : Reply} {name title : String} {heap : HeapFile} {scan : Scan}
variable {file : FileHandle} {header : HeapHeader} {v w : Volume}

/-! ## Records that are inserted -/

/-- A handle for inserting stands at the end of a file, whose pages hold the bins of a packing and
nothing else. -/
structure PacksInto (file : FileHandle) (p : Packing) (v : Volume) (heap : HeapFile) : Prop where
  file : heap.file = file
  laid : v.LaidOut p.bins
  filled : v.Filled [p.rows]
  current : heap.currentPage? = some (Packing.page p.closed.length)

variable {p : Packing} {record : Bytes} {rid : RecordId} {t : HeapState MemoryFiles}

/-- The rows of the file are those of the packing. -/
theorem PacksInto.rows_eq (h : PacksInto file p v heap) (hv : v.IsHeap header) : v.rows = p.rows :=
  (h.laid.describes hv h.filled).rows

/-- An insert through a handle is one into the heap file behind it. -/
theorem ensures_tell_of_insert (hfind : s.handles.find? name = some (.inserter heap))
    {ok : RecordId → HeapState MemoryFiles → Prop}
    {refused : StorageError → HeapState MemoryFiles → Prop}
    (hinsert : (HeapFile.insert record).Ensures ⟨s.db, heap⟩ ok refused) :
    (perform (.tell name (.insert record))).Ensures s
      (fun reply s' => ∃ rid t, reply = .address (some rid) ∧
        s' = ⟨t.db, s.handles.put name (.inserter t.heap)⟩ ∧ ok rid t)
      (fun e _ => ∃ t, refused e t) := by
  rw [ensures_tell_inserter hfind]
  unfold onInserter
  rw [ensures_bind, ensures_onHeap]
  exact hinsert.mono (fun rid t hok => ⟨rid, t, rfl, rfl, hok⟩) fun e t hrefused => ⟨t, hrefused⟩

/-- A record was inserted, and the file has few pages. -/
theorem Hosts.added (h : Hosts capacity heap.file v s)
    (hstep : Session.step s (.tell name (.insert record)) =
      .ok (reply, ⟨t.db, s.handles.put name (.inserter t.heap)⟩))
    (hadded : HeapFile.Added law (pinsOf (s.handles.erase name)) record ⟨s.db, heap⟩ rid t)
    (hsize : (HeapFile.volume law t).size ≤ 2 ^ 16) :
    KeepsOthers heap.file.id s ⟨t.db, s.handles.put name (.inserter t.heap)⟩ ∧
      Hosts capacity heap.file (HeapFile.volume law t)
        ⟨t.db, s.handles.put name (.inserter t.heap)⟩ := by
  have hlevel : (Command.tell name (.insert record)).HeapLevel := trivial
  have hkeeps := keepsOthers_of_moves hadded.moves (s.handles.put name (.inserter t.heap))
  obtain ⟨header, hv⟩ := hadded.moves.heap
  have hvolume : HeapFile.volume law t = law.volume t.db heap.file.id := by
    unfold HeapFile.volume
    rw [hadded.moves.file]
  rw [hvolume] at hv hsize ⊢
  exact ⟨hkeeps, h.change hlevel hstep hkeeps hv hsize⟩

/-- A record is inserted at its place in the packing of the file. -/
theorem Hosts.exists_insert_packed (h : Hosts capacity file v s)
    (hfind : s.handles.find? name = some (.inserter heap)) (hpacks : PacksInto file p v heap)
    (hlen : record.length ≤ maxRecordSize) (hsize : (p.add record).bins.length + 2 ≤ 2 ^ 16)
    (hroom : 2 * s.handles.length + 1 < capacity) :
    ∃ (t : HeapState MemoryFiles) (w : Volume),
      Session.step s (.tell name (.insert record)) = .ok (.address (some (p.place record)),
        ⟨t.db, s.handles.put name (.inserter t.heap)⟩) ∧
      KeepsOthers file.id s ⟨t.db, s.handles.put name (.inserter t.heap)⟩ ∧
      Hosts capacity file w ⟨t.db, s.handles.put name (.inserter t.heap)⟩ ∧
      PacksInto file (p.add record) w t.heap := by
  obtain ⟨rfl, hlaid, hfilled, hcurrent⟩ := hpacks
  obtain rfl := h.volume
  have hlevel : (Command.tell name (.insert record)).HeapLevel := trivial
  have hpacked : HeapFile.Packed law (pinsOf (s.handles.erase name)) p ⟨s.db, heap⟩ :=
    ⟨h.sound.attached hfind rfl, h.heap, hlaid, hfilled, hcurrent⟩
  obtain ⟨_, _, hstep, rid, t, rfl, rfl, rfl, hpacked', hadded⟩ :=
    h.exists_answer hlevel trivial hroom
      (ensures_tell_of_insert hfind (hpacked.ensures_insert hlen (h.small _)))
      fun e _ ⟨_, he⟩ => he
  obtain ⟨hkeeps, h'⟩ := h.added hstep hadded (hpacked'.laid.size.trans_le hsize)
  exact ⟨t, _, hstep, hkeeps, h', hadded.moves.file, hpacked'.laid, hpacked'.filled,
    hpacked'.current⟩

/-- A record that fits into the bin of the current page is inserted behind it. -/
theorem Hosts.exists_insert_of_bin {bins : List (List Bytes)} {bin : List Bytes} {b : Nat}
    (h : Hosts capacity heap.file v s) (hfind : s.handles.find? name = some (.inserter heap))
    (hlaid : v.LaidOut bins) (hb : bins[b]? = some bin)
    (hcurrent : heap.currentPage? = some (Packing.page b)) (hlen : record.length ≤ maxRecordSize)
    (hfits : Packing.load bin + Packing.itemSize record ≤ Packing.binSize)
    (hsize : v.size ≤ 2 ^ 16) :
    ∃ (t : HeapState MemoryFiles) (w : Volume), Session.step s (.tell name (.insert record)) =
        .ok (.address (some (Packing.address b bin.length)),
          ⟨t.db, s.handles.put name (.inserter t.heap)⟩) ∧
      Hosts capacity heap.file w ⟨t.db, s.handles.put name (.inserter t.heap)⟩ ∧
      t.heap.file = heap.file := by
  obtain ⟨header, hv⟩ := h.heap
  obtain rfl := h.volume
  obtain ⟨_, _, hrun, rid, t, rfl, rfl, rfl, hadded, hsame⟩ := ((ensures_tell_of_insert hfind
    (HeapFile.ensures_insert_of_bin (h.sound.attached hfind rfl) hv hlaid hb hcurrent hlen
      (h.small _) hfits)).mono (fun _ _ => id) fun _ _ ⟨_, hnever⟩ => hnever).exists_ok
  have hstep := step_of_ok hrun
  exact ⟨t, _, hstep, (h.added hstep hadded (hsame.trans_le hsize)).2, hadded.moves.file⟩

/-! ## A file that is stocked -/

/-- Records were packed into a heap file through the only handle, which is still open.  No other
file has changed since the session `made`. -/
structure Stocked (capacity : Nat) (file : FileHandle) (name : String) (records : List Bytes)
    (made s : Session MemoryFiles) (v : Volume) (heap : HeapFile) : Prop where
  filling : Filling capacity file.id s [(Packing.ofRecords records).rows]
  handles : s.handles = [(name, .inserter heap)]
  hosts : Hosts capacity file v s
  packs : PacksInto file (.ofRecords records) v heap
  others : KeepsOthers file.id made s

/-- One more record is packed. -/
theorem Stocked.exists_insert {records : List Bytes} {made : Session MemoryFiles}
    (h : Stocked capacity file name records made s v heap) (hframes : 4 ≤ capacity)
    (hlen : record.length ≤ maxRecordSize) (hmany : (records ++ [record]).length + 3 ≤ 2 ^ 16) :
    ∃ s' v' heap', Stocked capacity file name (records ++ [record]) made s' v' heap' := by
  have hfind : s.handles.find? name = some (.inserter heap) := find?_of_alone h.handles
  have hbins := Packing.length_bins_ofRecords_le (records ++ [record])
  have hroom : 2 * s.handles.length + 1 < capacity := by
    rw [h.handles, List.length_singleton]
    omega
  obtain ⟨t, w, hstep, hkeeps, hosts, hpacks⟩ := h.hosts.exists_insert_packed hfind h.packs hlen
    (by rw [← Packing.ofRecords_concat]; omega) hroom
  rw [h.handles, Table.put_singleton] at hstep hkeeps hosts
  have hfilling : Filling capacity file.id s ([] ++ [(Packing.ofRecords records).rows]) := h.filling
  have hinto : s.InsertsInto name file.id := ⟨heap, hfind, by rw [h.packs.file]⟩
  have hfilling' := hfilling.inserted hinto hstep hosts.small
  rw [← Packing.rows_add, ← Packing.ofRecords_concat] at hfilling'
  rw [← Packing.ofRecords_concat] at hpacks
  exact ⟨_, w, t.heap, hfilling', rfl, hosts, hpacks, h.others.trans hkeeps⟩

/-- A heap file that was made is hosted, with the pages of a new one. -/
theorem Run.exists_hosts {made : Session MemoryFiles} (run : Run capacity s heaps)
    (hstep : Session.step s (.create title) = .ok (.done, made)) :
    ∃ v, Hosts capacity ⟨⟨s.db.files.nextId⟩, title⟩ v made ∧
      v.IsHeap (Volume.newHeader title) := by
  have hlevel : (Command.create title).HeapLevel := trivial
  obtain ⟨db, rfl, -, hheap, hsmall, hnamed, -⟩ := run.created hstep
  exact ⟨_, ⟨⟨_, run.step hlevel hstep hsmall⟩, rfl, ⟨_, hheap⟩, hnamed⟩, hheap⟩

/-- A heap file that was made is opened, and nothing is packed into it yet. -/
theorem Run.exists_unstocked {made : Session MemoryFiles} (run : Run capacity s heaps)
    (hnone : s.handles = []) (hframes : 2 ≤ capacity)
    (hstep : Session.step s (.create title) = .ok (.done, made)) (name : String) :
    ∃ s' v heap, Stocked capacity ⟨⟨s.db.files.nextId⟩, title⟩ name [] made s' v heap := by
  obtain ⟨v, hosts, hv⟩ := run.exists_hosts hstep
  have hempty : made.handles = [] := (handles_of_create hstep).trans hnone
  obtain ⟨heap, db, hopen, hfile, hat, hkeeps⟩ := hosts.exists_open name (by rw [hempty]; rfl)
    (by rw [hempty]; exact fun _ hentry => absurd hentry List.not_mem_nil)
    (by rw [hempty]; exact hframes) .insert
  have hlevel : (Command.openAs name (.heap .insert title)).HeapLevel := trivial
  have hosts' := hosts.keepAll hlevel hopen hkeeps
  have hfilling : Filling capacity ⟨s.db.files.nextId⟩ made [] := .made run hstep hosts.small rfl
  have hnobody (other : String) : ¬made.InsertsInto other ⟨s.db.files.nextId⟩ := by
    rintro ⟨heap, hfind, -⟩
    rw [hempty] at hfind
    cases hfind
  have hrecords := congrFun (Volume.record?_new hv)
  rw [hempty] at hopen hosts' hkeeps
  refine ⟨_, v, heap, ?_, rfl, hosts', ?_, hkeeps.keepsOthers _⟩
  · exact hfilling.opened hnobody hopen hosts'.small ⟨heap, find?_of_alone rfl, by rw [hfile]⟩
  · exact ⟨hfile, Volume.laidOut_empty (Volume.size_new hv) hrecords,
      (Volume.filled_nil hrecords).start, hat.page⟩

/-- A heap file that was made is opened, and records are packed into it. -/
theorem Run.exists_stocked {records : List Bytes} {made : Session MemoryFiles}
    (run : Run capacity s heaps) (hnone : s.handles = []) (hframes : 4 ≤ capacity)
    (hstep : Session.step s (.create title) = .ok (.done, made)) (name : String)
    (hlen : ∀ record ∈ records, record.length ≤ maxRecordSize)
    (hmany : records.length + 3 ≤ 2 ^ 16) :
    ∃ s' v heap, Stocked capacity ⟨⟨s.db.files.nextId⟩, title⟩ name records made s' v heap := by
  induction records using List.reverseRecOn with
  | nil => exact run.exists_unstocked hnone (Nat.le_trans (by decide) hframes) hstep name
  | append_singleton records record ih =>
    obtain ⟨s', v, heap, h⟩ := ih (fun other hother => hlen other (List.mem_append_left _ hother))
      (by rw [List.length_append] at hmany; omega)
    exact h.exists_insert hframes (hlen record (by simp)) hmany

/-! ## Two records -/

/-- Two records that do not fit on one page are packed into a heap file that was made. -/
theorem Run.exists_stocked_pair {made : Session MemoryFiles} (run : Run capacity s heaps)
    (hnone : s.handles = []) (hframes : 4 ≤ capacity)
    (hstep : Session.step s (.create title) = .ok (.done, made)) (name : String) :
    ∃ s' v heap, Stocked capacity ⟨⟨s.db.files.nextId⟩, title⟩ name
        [List.replicate 2000 1, List.replicate 3000 2] made s' v heap ∧
      PacksInto ⟨⟨s.db.files.nextId⟩, title⟩ ⟨[[List.replicate 2000 1]], [List.replicate 3000 2]⟩ v
        heap := by
  have hmany : [List.replicate 2000 (1 : UInt8), List.replicate 3000 2].length + 3 ≤ 2 ^ 16 :=
    Nat.le_of_ble_eq_true rfl
  obtain ⟨s', v, heap, h⟩ := run.exists_stocked hnone hframes hstep name Packing.length_two hmany
  exact ⟨s', v, heap, h, Packing.ofRecords_two ▸ h.packs⟩

/-! ## Another file -/

/-- A heap file is made if its name is free and there are frames for one more handle. -/
theorem Run.exists_create (run : Run capacity s heaps) (hvalid : FileName.isValid title = true)
    (hfree : s.db.files.named.has title = false) (hnumber : s.db.files.nextId.toNat + 1 < 2 ^ 32)
    (hroom : 2 * s.handles.length + 1 < capacity) :
    ∃ db, Session.step s (.create title) = .ok (.done, ⟨db, s.handles⟩) ∧
      Database.Begun (pinsOf s.handles) title s.db db := by
  obtain ⟨hsound, hsmall, -⟩ := run.sound
  have hlevel : (Command.create title).HeapLevel := trivial
  have hends := Database.ends_createHeap hsound.holds hsound.orderly hnumber title
  obtain ⟨reply, s', hstep⟩ := exists_step hsound hsmall hlevel hnumber
  obtain ⟨db, rfl, ⟨rfl, hrun⟩ | ⟨e, rfl, hrun⟩⟩ := createHeap_of_step hstep
  · exact ⟨db, hstep, (hends.of_ok hrun).1⟩
  · exfalso
    rcases hends.of_error hrun with ⟨-, htaken⟩ | ⟨-, hcause, -⟩
    · rw [htaken hvalid] at hfree
      cases hfree
    · have hfull := ((run.inAccount.step hlevel hstep).2 e rfl).2 hcause
      omega

/-- Another heap file is made beside a file. -/
theorem Hosts.made (h : Hosts capacity file v s) {db : Database MemoryFiles}
    (hrun : ∃ heaps, Run capacity ⟨db, s.handles⟩ heaps)
    (hbegun : Database.Begun (pinsOf s.handles) title s.db db) :
    Hosts capacity file v ⟨db, s.handles⟩ := by
  have hregular := h.inAccount.accounts.valid
  have hold : file.id ≠ ⟨s.db.files.nextId⟩ := by
    intro heq
    have hlt := hregular.numbered (hregular.named h.named).1
    rw [heq] at hlt
    exact Nat.lt_irrefl _ hlt
  have hname : title ≠ file.name := by
    rintro rfl
    have htaken := Table.has_of_find? h.named
    rw [hbegun.free] at htaken
    cases htaken
  refine ⟨hrun, (hbegun.others _ hold).trans h.volume, h.heap, ?_⟩
  rw [hbegun.named, Table.find?_put_of_ne hname]
  exact h.named

/-! ## A scan that is disturbed -/

/-- A scan of two pages goes on to the record on the first one and is marked there.  Then a record
is inserted behind the others, and the one on which the scan stands is deleted. -/
structure Disturbed (file : FileHandle) (a b c : Bytes) (s s₀ s₁ s₂ s₃ s₄ : Session MemoryFiles) :
    Prop where
  run : ∃ heaps, Run 8 s heaps
  opened : Session.step s (.openAs "h" (.heap .scan file.name)) = .ok (.done, s₀)
  found : Session.step s₀ (.tell "h" .next) = .ok (.address (some ⟨⟨2⟩, 0⟩), s₁)
  marked : Session.step s₁ (.tell "h" .mark) = .ok (.done, s₂)
  inserted : Session.step s₂ (.tell "i" (.insert c)) = .ok (.address (some ⟨⟨3⟩, 1⟩), s₃)
  deleted : Session.step s₃ (.tell "h" .delete) = .ok (.done, s₄)
  small : s₀.Small ∧ s₁.Small ∧ s₂.Small ∧ s₃.Small ∧ s₄.Small
  start : ∃ scan, s₀.handles.find? "h" = some (.scan scan) ∧ scan.heap.file = file ∧
    (law.volume s₀.db file.id).rows = [(⟨⟨2⟩, 0⟩, a), (⟨⟨3⟩, 0⟩, b)]
  length : s₄.handles.length = 2
  rest : ∃ v scan, Hosts 8 file v s₄ ∧ v.rows = [(⟨⟨3⟩, 0⟩, b), (⟨⟨3⟩, 1⟩, c)] ∧
    s₄.handles.find? "h" = some (.scan scan) ∧ scan.mark = some ⟨some ⟨2⟩, some ⟨⟨2⟩, 0⟩⟩ ∧
    Awaits file v scan [⟨⟨3⟩, 0⟩, ⟨⟨3⟩, 1⟩]

/-- A handle for inserting and a scan are open, and nothing else. -/
structure SideBySide (s : Session MemoryFiles) (heap : HeapFile) (scan : Scan) : Prop where
  inserter : s.handles.find? "i" = some (.inserter heap)
  scan : s.handles.find? "h" = some (.scan scan)
  length : s.handles.length = 2

theorem SideBySide.put_scan (h : SideBySide s heap scan) (db : Database MemoryFiles)
    (scan' : Scan) :
    SideBySide ⟨db, s.handles.put "h" (.scan scan')⟩ heap scan' where
  inserter := (Table.find?_put_of_ne (by decide) _ _).trans h.inserter
  scan := Table.find?_put_self ..
  length := (Table.length_put_of_find? h.scan _).trans h.length

theorem SideBySide.put_inserter (h : SideBySide s heap scan) (db : Database MemoryFiles)
    (heap' : HeapFile) : SideBySide ⟨db, s.handles.put "i" (.inserter heap')⟩ heap' scan where
  inserter := Table.find?_put_self ..
  scan := (Table.find?_put_of_ne (by decide) _ _).trans h.scan
  length := (Table.length_put_of_find? h.inserter _).trans h.length

theorem SideBySide.room (h : SideBySide s heap scan) : 2 * s.handles.length + 1 < 8 := by
  rw [h.length]
  decide

/-- A scan is opened beside the only handle for inserting. -/
theorem Hosts.exists_alongside (h : Hosts 8 file v s) (hfile : heap.file = file)
    (hhandles : s.handles = [("i", .inserter heap)]) :
    ∃ s' heap', Session.step s (.openAs "h" (.heap .scan file.name)) = .ok (.done, s') ∧
      Hosts 8 file v s' ∧ SideBySide s' heap (Scan.start heap') ∧ heap'.file = file ∧
      heap'.At (some ⟨2⟩) none (some ⟨2⟩) := by
  have hfree : s.handles.has "h" = false := by
    rw [hhandles]
    rfl
  have hunder (entry : String × Handle) (hentry : entry ∈ s.handles) (other : HeapFile)
      (hother : entry.2.heap? = some other) (_ : other.file.name = file.name) :
      other.file = file := by
    rw [hhandles] at hentry
    obtain rfl := List.mem_singleton.1 hentry
    cases hother
    exact hfile
  have hroom : (keysOf s.handles).toFinset.card + 2 ≤ 8 := by
    have hcard := card_keysOf_le s.handles
    rw [hhandles, List.length_singleton] at hcard
    rw [hhandles]
    omega
  obtain ⟨heap', db, hopen, hfile', hat, hkeeps⟩ := h.exists_open "h" hfree hunder hroom .scan
  have hlevel : (Command.openAs "h" (.heap .scan file.name)).HeapLevel := trivial
  refine ⟨_, heap', hopen, h.keepAll hlevel hopen hkeeps, ⟨?_, Table.find?_put_self .., ?_⟩, hfile',
    hat⟩
  · rw [hhandles]
    rfl
  · rw [hhandles]
    rfl

/-- A scan is opened beside the only handle for inserting, goes on to the record on the first of two
pages and is marked there. -/
theorem Hosts.exists_marked {a b : Bytes} (h : Hosts 8 file v s)
    (hhandles : s.handles = [("i", .inserter heap)]) (hfile : heap.file = file)
    (hrows : v.rows = [(⟨⟨2⟩, 0⟩, a), (⟨⟨3⟩, 0⟩, b)]) :
    ∃ s₀ s₁ s₂ heap₀ heap', Session.step s (.openAs "h" (.heap .scan file.name)) = .ok (.done, s₀) ∧
      Hosts 8 file v s₀ ∧ s₀.handles.find? "h" = some (.scan (Scan.start heap₀)) ∧
      heap₀.file = file ∧ Session.step s₀ (.tell "h" .next) = .ok (.address (some ⟨⟨2⟩, 0⟩), s₁) ∧
      s₁.Small ∧ Session.step s₁ (.tell "h" .mark) = .ok (.done, s₂) ∧ Hosts 8 file v s₂ ∧
      SideBySide s₂ heap ⟨heap', none, some ⟨some ⟨2⟩, some ⟨⟨2⟩, 0⟩⟩⟩ ∧ heap'.file = file ∧
      heap'.At (some ⟨2⟩) (some ⟨⟨2⟩, 0⟩) (some ⟨2⟩) := by
  obtain ⟨header, hv⟩ := h.heap
  obtain ⟨s₀, heap₀, hopen, h₀, halong₀, hfile₀, hat₀⟩ := h.exists_alongside hfile hhandles
  have hawaits₀ := awaits_start hfile₀ hat₀ hv
  rw [hrows] at hawaits₀
  obtain ⟨t₁, hnext, hkeeps₁, hawaits₁, hat₁⟩ := h₀.exists_next halong₀.scan hawaits₀ halong₀.room
  have halong₁ := halong₀.put_scan t₁.db ⟨t₁.heap, none, none⟩
  have hlevel₁ : (Command.tell "h" .next).HeapLevel := trivial
  have h₁ := h₀.keepAll hlevel₁ hnext hkeeps₁
  have hat₁ := hat₁ ⟨⟨2⟩, 0⟩ rfl
  have hmarked : t₁.heap.mark = ⟨some ⟨2⟩, some ⟨⟨2⟩, 0⟩⟩ := by
    unfold HeapFile.mark
    rw [hat₁.position, hat₁.record]
  have hmark := step_mark halong₁.scan
  have halong₂ := halong₁.put_scan t₁.db ⟨t₁.heap, none, some t₁.heap.mark⟩
  rw [hmarked] at hmark halong₂
  have hlevel₂ : (Command.tell "h" .mark).HeapLevel := trivial
  exact ⟨s₀, _, _, heap₀, t₁.heap, hopen, h₀, halong₀.scan, hfile₀, hnext, h₁.small, hmark,
    h₁.keepAll hlevel₂ hmark ⟨rfl, rfl⟩, halong₂, hawaits₁.file, hat₁⟩

/-- A scan of two pages can be disturbed so. -/
theorem exists_disturbed {a b c : Bytes} (h : Hosts 8 file v s)
    (hhandles : s.handles = [("i", .inserter heap)])
    (hpacks : PacksInto file ⟨[[a]], [b]⟩ v heap) (hlen : c.length ≤ maxRecordSize)
    (hfits : Packing.load [b] + Packing.itemSize c ≤ Packing.binSize) :
    ∃ s₀ s₁ s₂ s₃ s₄, Disturbed file a b c s s₀ s₁ s₂ s₃ s₄ := by
  obtain ⟨header, hv⟩ := h.heap
  have hrows : v.rows = [(⟨⟨2⟩, 0⟩, a), (⟨⟨3⟩, 0⟩, b)] := hpacks.rows_eq hv
  obtain ⟨s₀, s₁, s₂, heap₀, heap₂, hopen, h₀, hfind₀, hfile₀, hnext, hsmall₁, hmark, h₂, halong₂,
    hfile₂, hat₂⟩ := h.exists_marked hhandles hpacks.file hrows
  -- A record is inserted behind the others.
  have hplace : (⟨[[a]], [b]⟩ : Packing).place c = ⟨⟨3⟩, 1⟩ := if_pos hfits
  have hadd : (⟨[[a]], [b]⟩ : Packing).add c = ⟨[[a]], [b, c]⟩ := if_pos hfits
  obtain ⟨t₃, w, hinsert, -, h₃, hpacks₃⟩ := h₂.exists_insert_packed halong₂.inserter hpacks hlen
    (by rw [hadd]; exact Nat.le_of_ble_eq_true rfl) halong₂.room
  rw [hplace] at hinsert
  rw [hadd] at hpacks₃
  have halong₃ := halong₂.put_inserter t₃.db t₃.heap
  obtain ⟨header₃, hw⟩ := h₃.heap
  have hrows₃ : w.rows = [(⟨⟨2⟩, 0⟩, a), (⟨⟨3⟩, 0⟩, b), (⟨⟨3⟩, 1⟩, c)] := hpacks₃.rows_eq hw
  -- The record on which the scan stands is deleted.
  have hlive : w.record? ⟨⟨2⟩, 0⟩ ≠ none := by
    have hrow : (⟨⟨2⟩, 0⟩, a) ∈ w.rows := hrows₃ ▸ List.mem_cons_self ..
    rw [hw.mem_rows.1 hrow]
    exact Option.some_ne_none a
  have hsize : w.size ≤ 2 ^ 16 := hpacks₃.laid.size.trans_le (Nat.le_of_ble_eq_true rfl)
  obtain ⟨t₄, u, hdelete, -, h₄, hrecord, -, hfile₄, hposition, hrid⟩ :=
    h₃.exists_delete halong₃.scan hfile₂ hat₂ hlive hsize
  have halong₄ := halong₃.put_scan t₄.db ⟨t₄.heap, none, some ⟨some ⟨2⟩, some ⟨⟨2⟩, 0⟩⟩⟩
  obtain ⟨header₄, hu⟩ := h₄.heap
  have hrows₄ := hw.rows_of_deleted hu hrecord
  rw [hrows₃] at hrows₄
  have hawaits₄ : Awaits file u ⟨t₄.heap, none, some ⟨some ⟨2⟩, some ⟨⟨2⟩, 0⟩⟩⟩ _ :=
    awaits_of_at hfile₄ rfl ⟨hposition, hrid, rfl⟩ hu hu.isData_two
  rw [hrows₄] at hawaits₄
  refine ⟨s₀, s₁, s₂, _, _, h.run, hopen, hnext, hmark, hinsert, hdelete,
    ⟨h₀.small, hsmall₁, h₂.small, h₃.small, h₄.small⟩, ⟨_, hfind₀, hfile₀, ?_⟩, halong₄.length,
    u, _, h₄, hrows₄, halong₄.scan, rfl, hawaits₄⟩
  rw [h₀.volume, hrows]

/-- Two records that do not fit on one page are packed into the first heap file. -/
theorem exists_stocked_first : ∃ made s v heap,
    Session.step (start MemoryFiles.empty 8) (.create "t") = .ok (.done, made) ∧
    Stocked 8 ⟨⟨1⟩, "t"⟩ "i" [List.replicate 2000 1, List.replicate 3000 2] made s v heap ∧
    PacksInto ⟨⟨1⟩, "t"⟩ ⟨[[List.replicate 2000 1]], [List.replicate 3000 2]⟩ v heap := by
  obtain ⟨made, -, hmake, -⟩ := exists_made
  have hframes : 4 ≤ 8 := by decide
  obtain ⟨s, v, heap, hstocked, hpacks⟩ := Run.start.exists_stocked_pair rfl hframes hmake "i"
  exact ⟨made, s, v, heap, hmake, hstocked, hpacks⟩

/-- A scan of the first heap file is disturbed. -/
theorem exists_disturbed_first : ∃ s s₀ s₁ s₂ s₃ s₄, Disturbed ⟨⟨1⟩, "t"⟩ (List.replicate 2000 1)
    (List.replicate 3000 2) [7] s s₀ s₁ s₂ s₃ s₄ := by
  obtain ⟨_, s, v, heap, -, hstocked, hpacks⟩ := exists_stocked_first
  have hlen : ([7] : Bytes).length ≤ maxRecordSize := by decide
  have hfits : Packing.load [List.replicate 3000 2] + Packing.itemSize [7] ≤ Packing.binSize := by
    unfold Packing.load Packing.itemSize
    rw [List.map_singleton, List.length_replicate]
    decide
  exact ⟨s, exists_disturbed hstocked.hosts hstocked.handles hpacks hlen hfits⟩

end Session

end PagedHeap
