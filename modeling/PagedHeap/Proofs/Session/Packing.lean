import PagedHeap.Proofs.Heap.Appending
import PagedHeap.Proofs.Heap.Packing
import PagedHeap.Proofs.Session.Creating
import PagedHeap.Proofs.Session.Visit

/-!
# Records are packed through one handle

Records are inserted one after the other through the only handle of a heap file that was just made.
With three frames every insert succeeds: the header page has one, the current page another, and a
new page behind it the third.  The addresses are those of next-fit packing, and in the end the
header and the records are what the packing says (`Session.packsRecords_create`).

An insert at the end of a file allocates one page at most.  So over a directory there is always a
number for it, and the inserts there are those over the mirror.
-/

namespace PagedHeap

open PagedHeap.Action

open MemoryFiles (law)

namespace Session

section Puts

variable {σ : Type} [FileStore σ]

/-- Records are inserted through a handle one after the other, and these are their addresses. -/
inductive Puts (handle : String) (s : Session σ) : List (RecordId × Bytes) → Session σ → Prop
  /-- At first nothing is inserted. -/
  | start : Puts handle s [] s
  /-- One more record is inserted. -/
  | insert {t u : Session σ} {rows : List (RecordId × Bytes)} {rid : RecordId} {record : Bytes} :
      Puts handle s rows t →
      Session.step t (.tell handle (.insert record)) = .ok (.address (some rid), u) →
      Puts handle s (rows ++ [(rid, record)]) u

/-- The heap file of a name is opened and records are inserted.  Each of them goes to its place in
their packing, and this is what is found in the file then, before and after the handle is closed. -/
structure Packs (name handle : String) (records : List Bytes) (s₁ s₂ s₃ s₄ : Session σ)
    (header : HeapHeader) (v : Volume) : Prop where
  opened : Session.step s₁ (.openAs handle (.heap .insert name)) = .ok (.done, s₂)
  inserted : s₂.Puts handle (Packing.ofRecords records).rows s₃
  answered : s₃.Answers (.tell handle .header) (.heapHeader header)
  closed : Session.step s₃ (.tell handle .close) = .ok (.done, s₄)
  presented : s₄.Presents name header v
  described : (Packing.ofRecords records).Describes header v
  /-- The rows are the records in the order in which they were inserted. -/
  order : (Packing.ofRecords records).rows.map Prod.snd = records

/-- Records that are inserted into the heap file of a name are packed. -/
def PacksRecords (s : Session σ) (name handle : String) (records : List Bytes) : Prop :=
  ∃ s₂ s₃ s₄ header v, Packs name handle records s s₂ s₃ s₄ header v

theorem lt_of_concat {records : List Bytes} {record : Bytes}
    (hmany : (records ++ [record]).length + 4 < 2 ^ 32) : records.length + 4 < 2 ^ 32 := by
  rw [List.length_append, List.length_singleton] at hmany
  omega

/-- What `P` says of records and of a session is kept by every insert at the place of its record,
and then the file is found as the packing describes it. -/
structure KeepsPacked (name handle : String) (P : List Bytes → Session σ → Prop) : Prop where
  insert : ∀ {records record t}, (records ++ [record]).length + 4 < 2 ^ 32 →
    record.length ≤ maxRecordSize → P records t →
    ∃ u, Session.step t (.tell handle (.insert record)) =
        .ok (.address (some ((Packing.ofRecords records).place record)), u) ∧
      P (records ++ [record]) u
  ends : ∀ {records t}, records.length + 4 < 2 ^ 32 → P records t →
    ∃ u header v, t.Answers (.tell handle .header) (.heapHeader header) ∧
      Session.step t (.tell handle .close) = .ok (.done, u) ∧ u.Presents name header v ∧
      (Packing.ofRecords records).Describes header v

section KeepsPacked

variable {name handle : String} {P : List Bytes → Session σ → Prop} {s t : Session σ}
variable {records : List Bytes} (h : KeepsPacked name handle P)
  (hlen : ∀ record ∈ records, record.length ≤ maxRecordSize) (hmany : records.length + 4 < 2 ^ 32)
include h hlen hmany

/-- All records are inserted at their places. -/
theorem KeepsPacked.exists_puts (hstart : P [] s) :
    ∃ t, s.Puts handle (Packing.ofRecords records).rows t ∧ P records t := by
  induction records using List.reverseRecOn with
  | nil => exact ⟨s, .start, hstart⟩
  | append_singleton records record ih =>
    have hbefore (other : Bytes) (hother : other ∈ records) : other.length ≤ maxRecordSize :=
      hlen other (List.mem_append_left _ hother)
    have hlast : record.length ≤ maxRecordSize :=
      hlen record (List.mem_append_right _ (List.mem_singleton_self _))
    obtain ⟨t, hputs, hholds⟩ := ih hbefore (lt_of_concat hmany)
    obtain ⟨u, hstep, hholds'⟩ := h.insert hmany hlast hholds
    refine ⟨u, ?_, hholds'⟩
    rw [Packing.ofRecords_concat, Packing.rows_add]
    exact hputs.insert hstep

/-- Records that are inserted through a handle that was opened are packed. -/
theorem KeepsPacked.packsRecords
    (hopen : Session.step s (.openAs handle (.heap .insert name)) = .ok (.done, t))
    (hstart : P [] t) : s.PacksRecords name handle records := by
  obtain ⟨u, hputs, hholds⟩ := h.exists_puts hlen hmany hstart
  obtain ⟨w, header, v, hheader, hclose, hpresents, hdescribes⟩ := h.ends hmany hholds
  exact ⟨t, u, w, header, v, hopen, hputs, hheader, hclose, hpresents, hdescribes,
    Packing.map_rows_ofRecords records⟩

end KeepsPacked

variable {books : FileStore.Books σ} {capacity : Nat} {s : Session σ} {handle : String}
variable {heap : HeapFile} {record : Bytes} {e : StorageError} {u : HeapState σ}

/-- With three frames the only handle is never refused one. -/
theorem InAccount.ne_exhausted (h : InAccount books capacity s) (hframes : 3 ≤ capacity)
    (hhandles : s.handles = [(handle, .inserter heap)])
    (hrun : HeapFile.insert record ⟨s.db, heap⟩ = .error (.error e) u) :
    e ≠ .bufferPoolExhausted := by
  have hfind := find?_of_alone hhandles
  have hcrowded := h.crowded_of_insert hfind (step_of_refused (perform_insert_error hfind hrun))
  rw [hhandles, Table.erase_singleton] at hcrowded
  intro he
  -- only the header page has a pin besides the one that was asked for
  have hfull : capacity ≤ 2 := hcrowded he
  omega

end Puts

/-! ## A file that is packed -/

section HoldsPacked

/-- A session in memory whose only handle has packed records into its heap file. -/
structure HoldsPacked (handle : String) (heap : HeapFile) (records : List Bytes)
    (t : Session MemoryFiles) : Prop where
  sound : t.Sound
  handles : t.handles = [(handle, .inserter heap)]
  packed : HeapFile.Packed law 0 (.ofRecords records) ⟨t.db, heap⟩
  others : ∀ file, file ≠ heap.file.id → (law.volume t.db file).Small

variable {handle : String} {heap : HeapFile} {records : List Bytes} {record : Bytes}
variable {t : Session MemoryFiles}

/-- A new heap file is packed without records. -/
theorem holdsPacked_new {name : String} (hsound : t.Sound) (hsmall : t.Small)
    (hhandles : t.handles = [(handle, .inserter heap)]) (hcurrent : heap.currentPage? = some ⟨2⟩)
    (hv : (law.volume t.db heap.file.id).IsHeap (Volume.newHeader name)) :
    t.HoldsPacked handle heap [] := by
  have hattached := hsound.attached (find?_of_alone hhandles) rfl
  rw [hhandles, Table.erase_singleton] at hattached
  have hnone := congrFun (Volume.record?_new hv)
  refine ⟨hsound, hhandles, ?_, fun file _ => hsmall file⟩
  exact ⟨hattached, ⟨_, hv⟩, Volume.laidOut_empty (Volume.size_new hv) hnone,
    (Volume.filled_nil hnone).start, hcurrent⟩

namespace HoldsPacked

variable (h : t.HoldsPacked handle heap records)
include h

theorem find? : t.handles.find? handle = some (.inserter heap) := find?_of_alone h.handles

/-- The file is described by the packing. -/
theorem exists_header : ∃ header, (law.volume t.db heap.file.id).IsHeap header ∧
    (Packing.ofRecords records).Describes header (law.volume t.db heap.file.id) := by
  obtain ⟨header, hv⟩ := h.packed.heap
  exact ⟨header, hv, h.packed.laid.describes hv h.packed.filled⟩

/-- There are numbers for one more page and one more record of every file. -/
theorem small (hmany : records.length + 4 < 2 ^ 32) : t.Small := by
  intro file
  by_cases hfile : file = heap.file.id
  · subst hfile
    obtain ⟨header, hv, hdescribes⟩ := h.exists_header
    have hsize := hv.pages
    have hpages := hdescribes.pageCount
    have hbins := Packing.length_bins_ofRecords_le records
    have hcount := hv.records
    have hrows := hdescribes.recordCount
    rw [Packing.length_rows_ofRecords] at hrows
    constructor
    · omega
    · omega
  · exact h.others file hfile

/-- A record is inserted at its place in the packing, if there is a frame for its page. -/
theorem exists_insert (hlen : record.length ≤ maxRecordSize) (hmany : records.length + 4 < 2 ^ 32)
    (hframe : ∀ e u, HeapFile.insert record ⟨t.db, heap⟩ = .error (.error e) u →
      e ≠ .bufferPoolExhausted) :
    ∃ u, HeapFile.insert record ⟨t.db, heap⟩ =
        .ok ((Packing.ofRecords records).place record) u ∧
      u.heap.file = heap.file ∧ u.db.files.named = t.db.files.named ∧
      HoldsPacked handle u.heap (records ++ [record]) ⟨u.db, [(handle, .inserter u.heap)]⟩ := by
  have hinserts := h.packed.ensures_insert hlen (h.small hmany _)
  obtain ⟨rid, u, hrun, rfl, hpacked, hadded⟩ :=
    (hinserts.and_run.mono (fun _ _ => And.left) fun e u hpost =>
      hframe e u hpost.2 hpost.1).exists_ok
  have hmoves := hadded.moves
  have hheap := h.sound.hasHeap h.find? rfl
  have hevolves := Database.Evolves.of_moves h.sound.orderly hheap hmoves
  have hattached := hmoves.attached
  have hsound : Sound ⟨u.db, t.handles.put handle (.inserter u.heap)⟩ := by
    refine h.sound.put hevolves rfl ?_ hmoves.heap
    rw [h.handles, Table.erase_singleton]
    exact hattached
  rw [h.handles, Table.put_singleton] at hsound
  refine ⟨u, hrun, hmoves.file, hmoves.only.akin.named, hsound, rfl, ?_, fun file hfile => ?_⟩
  · rw [Packing.ofRecords_concat]
    exact hpacked
  · rw [hmoves.file] at hfile
    rw [hmoves.only.others file hfile]
    exact h.others file hfile

end HoldsPacked

end HoldsPacked

/-! ## In memory -/

section Memory

/-- A session in memory that packs records into its heap file, with three frames. -/
structure PacksInMemory (capacity : Nat) (handle : String) (opened : FileHandle)
    (records : List Bytes) (t : Session MemoryFiles) (heap : HeapFile) : Prop
    extends t.HoldsPacked handle heap records where
  inAccount : InAccount MemoryFiles.books capacity t
  file : heap.file = opened
  named : t.db.files.named.find? opened.name = some opened.id

variable {capacity : Nat} {handle name : String} {opened : FileHandle} {heap : HeapFile}
variable {records : List Bytes} {record : Bytes} {s t t' : Session MemoryFiles} {heaps : Set FileId}

/-- A record is inserted at its place in the packing. -/
theorem PacksInMemory.exists_insert (h : PacksInMemory capacity handle opened records t heap)
    (hframes : 3 ≤ capacity) (hlen : record.length ≤ maxRecordSize)
    (hmany : (records ++ [record]).length + 4 < 2 ^ 32) :
    ∃ u heap', Session.step t (.tell handle (.insert record)) =
        .ok (.address (some ((Packing.ofRecords records).place record)), u) ∧
      PacksInMemory capacity handle opened (records ++ [record]) u heap' := by
  obtain ⟨u, hrun, hfile, hnamed, hpacked⟩ := h.toHoldsPacked.exists_insert hlen
    (lt_of_concat hmany)
    fun e u => h.inAccount.ne_exhausted hframes h.handles
  have hperform := perform_insert_ok h.find? hrun
  rw [h.handles, Table.put_singleton] at hperform
  have hlevel : (Command.tell handle (.insert record)).HeapLevel := trivial
  have hstep := step_of_ok hperform
  refine ⟨_, u.heap, hstep, hpacked, (h.inAccount.step hlevel hstep).1, hfile.trans h.file, ?_⟩
  exact hnamed ▸ h.named

/-- If a file is open, the handle for inserting into it is closed, and no page changes. -/
theorem ensures_closeInserter_of_find? {db : Database MemoryFiles} {rest : Multiset Pin}
    {count : Nat}
    (hattached : HeapFile.Attached law rest ⟨db, heap⟩)
    (hentry : db.files.opened.find? heap.file.name = some ⟨heap.file, count + 1⟩) :
    (closeInserter heap).Ensures db
      (fun _ db' => law.volume db' = law.volume db ∧ db'.files.named = db.files.named) Never := by
  have hmarked := ((HeapFile.ensures_markDirty hattached).of_ok rfl).1.attached
  unfold closeInserter
  rw [Database.closeHeap_eq, ensures_thenAlways]
  refine (Database.holds_giveUp hmarked.holds).mono ?_ fun _ _ => False.elim
  rintro _ db' ⟨-, hsame⟩
  have hentry' : db'.files.opened.find? heap.file.name = some ⟨heap.file, count + 1⟩ :=
    hsame.alike.opened ▸ hentry
  refine ensures_onPart.2 (.of_run (MemoryFiles.close_eq hentry') ⟨?_, hsame.alike.named⟩)
  funext other
  exact (Database.volume_congr rfl db'.pool).trans
    (congrFun (PageStore.Reliable.volume_of_same hsame) other)

/-- A handle for inserting is closed, and no page changes. -/
theorem exists_close_inserter (h : t.Sound) (haccount : InAccount MemoryFiles.books capacity t)
    (hfind : t.handles.find? handle = some (.inserter heap)) :
    ∃ db, Session.step t (.tell handle .close) = .ok (.done, ⟨db, t.handles.erase handle⟩) ∧
      law.volume db = law.volume t.db ∧ db.files.named = t.db.files.named := by
  have htallies := haccount.accounts.tallies
  rw [heldFiles_eq h.distinct hfind rfl] at htallies
  obtain ⟨_, db, hrun, hsame⟩ :=
    (ensures_closeInserter_of_find? (h.attached hfind rfl) htallies.find?_of_mem).exists_ok
  refine ⟨db, step_of_ok ?_, hsame⟩
  rw [perform_close_inserter hfind]
  have hrest : onDatabase (closeInserter heap) ⟨t.db, t.handles.erase handle⟩ =
      .ok () ⟨db, t.handles.erase handle⟩ := onPart_run_ok hrun
  exact (bind_run_ok rfl _).trans (bind_run_ok hrest _)

/-- In the end the file is described by the packing, also when it is opened again. -/
theorem PacksInMemory.ends (h : PacksInMemory capacity handle opened records t heap)
    (hframes : 2 ≤ capacity) (hmany : records.length + 4 < 2 ^ 32) :
    ∃ u header v, t.Answers (.tell handle .header) (.heapHeader header) ∧
      Session.step t (.tell handle .close) = .ok (.done, u) ∧
      u.Presents opened.name header v ∧ (Packing.ofRecords records).Describes header v := by
  obtain ⟨header, hv, hdescribes⟩ := h.exists_header
  obtain ⟨db, hstep, hvolume, hnamed⟩ := exists_close_inserter h.sound h.inAccount h.find?
  rw [h.handles, Table.erase_singleton] at hstep
  have hlevel : (Command.tell handle .close).HeapLevel := trivial
  have hsmall := h.small hmany
  have hsound' := (follows_step h.sound hsmall hlevel hstep).sound
  have hsmall' : Session.Small ⟨db, []⟩ := by
    intro file
    rw [hvolume]
    exact hsmall file
  have haccount' := (h.inAccount.step hlevel hstep).1
  have hclosed : db.files.opened = [] := OpenTable.Tallies.eq_nil haccount'.accounts.tallies
  have hvalid := (h.inAccount.accounts.valid.named h.named).2
  have hfind : db.files.opened.find? opened.name = none := by
    rw [hclosed]
    rfl
  have hopens : Database.onFiles (FileStore.openFile opened.name) db = .ok opened _ :=
    onPart_run_ok (MemoryFiles.openFile_eq hvalid hfind (hnamed ▸ h.named))
  have hv' := hv
  rw [← hvolume, h.file] at hv'
  have hpresents := hsound'.presents hsmall' haccount' hopens hv' hframes
  rw [hvolume, ← h.file] at hpresents
  refine ⟨⟨db, []⟩, header, _, ?_, hstep, h.file ▸ hpresents, hdescribes⟩
  exact .of_memory (ensures_tell_header h.sound h.find? rfl hv)

/-- A heap file that was made is opened. -/
theorem Run.exists_packs (run : Run capacity s heaps) (hnone : s.handles = [])
    (hframes : 2 ≤ capacity) (hstep : Session.step s (.create name) = .ok (.done, t))
    (handle : String) :
    ∃ u heap, Session.step t (.openAs handle (.heap .insert name)) = .ok (.done, u) ∧
      PacksInMemory capacity handle ⟨⟨s.db.files.nextId⟩, name⟩ [] u heap := by
  obtain ⟨hsound, hsmall, -⟩ := run.sound
  have hlevel : (Command.create name).HeapLevel := trivial
  obtain ⟨db, rfl, hbegun, hheap, hsmall₁, hnamed, hclosed⟩ := run.created hstep
  have hsound₁ := (follows_step hsound hsmall hlevel hstep).sound
  have haccount₁ := (run.inAccount.step hlevel hstep).1
  rw [hnone] at hsound₁ haccount₁ hsmall₁ ⊢
  have hopens : Database.onFiles (FileStore.openFile name) db = .ok ⟨_, name⟩ _ :=
    onPart_run_ok (MemoryFiles.openFile_eq hbegun.valid hclosed hnamed)
  obtain ⟨heap, db', hrun, hfile, hat, hvolume, hsame⟩ :=
    exists_openHeap_run hsound₁ haccount₁ hopens ⟨_, hheap⟩ hframes
  have hfree : Table.has ([] : Table String Handle) handle = false := rfl
  have hopen := step_of_ok (perform_openAs hfree hrun .insert)
  have hlevel' : (Command.openAs handle (.heap .insert name)).HeapLevel := trivial
  have hsound₂ := (follows_step hsound₁ hsmall₁ hlevel' hopen).sound
  have hsmall₂ : Session.Small ⟨db', [(handle, .inserter heap)]⟩ := by
    intro file
    rw [hvolume]
    exact hsmall₁ file
  have hv : (law.volume db' heap.file.id).IsHeap (Volume.newHeader name) := by
    rw [hvolume, hfile]
    exact hheap
  refine ⟨_, heap, hopen, holdsPacked_new hsound₂ hsmall₂ rfl hat.page hv,
    (haccount₁.step hlevel' hopen).1, hfile, ?_⟩
  exact hsame ▸ hnamed

/-- In memory records are packed with three frames. -/
theorem keepsPacked_memory (file : FileId) (hframes : 3 ≤ capacity) :
    KeepsPacked name handle
      fun records t => ∃ heap, PacksInMemory capacity handle ⟨file, name⟩ records t heap where
  insert hmany hlen hholds := by
    obtain ⟨heap, h⟩ := hholds
    obtain ⟨u, heap', hstep, h'⟩ := h.exists_insert hframes hlen hmany
    exact ⟨u, hstep, heap', h'⟩
  ends hmany hholds := by
    obtain ⟨heap, h⟩ := hholds
    exact h.ends (Nat.le_of_succ_le hframes) hmany

/-- In memory, records that are inserted into a new heap file are packed. -/
theorem Run.packsRecords (run : Run capacity s heaps) (hnone : s.handles = [])
    (hframes : 3 ≤ capacity) (hstep : Session.step s (.create name) = .ok (.done, t))
    (handle : String) (hlen : ∀ record ∈ records, record.length ≤ maxRecordSize)
    (hmany : records.length + 4 < 2 ^ 32) : t.PacksRecords name handle records := by
  obtain ⟨u, heap, hopen, hstart⟩ :=
    run.exists_packs hnone (Nat.le_of_succ_le hframes) hstep handle
  exact (keepsPacked_memory _ hframes).packsRecords hlen hmany hopen ⟨heap, hstart⟩

end Memory

/-! ## In a directory -/

section InDirectory

/-- A session on a directory that packs records into its heap file, with its mirror. -/
structure PacksInDirectory (capacity : Nat) (handle name : String) (records : List Bytes)
    (s : Session DiskFiles) (t : Session MemoryFiles) (heap : HeapFile) : Prop where
  mirrored : s.Mirrored t
  packed : t.HoldsPacked handle heap records
  inOrder : s.InOrder
  few : s.FewPages
  inAccount : InAccount DiskFiles.books capacity s
  name : heap.file.name = name

variable {capacity : Nat} {handle name : String} {heap : HeapFile} {records : List Bytes}
variable {record : Bytes} {s s' : Session DiskFiles} {t : Session MemoryFiles}

namespace PacksInDirectory

variable (h : PacksInDirectory capacity handle name records s t heap)
include h

theorem handles : s.handles = [(handle, .inserter heap)] :=
  h.mirrored.handles.symm.trans h.packed.handles

theorem find? : s.handles.find? handle = some (.inserter heap) := find?_of_alone h.handles

/-- The file is shown with the pages that it has over the mirror. -/
theorem shown : s.db.shown name = some (law.volume t.db heap.file.id) :=
  h.name ▸ h.mirrored.db.shown_of_open (h.mirrored.find?_opened h.packed.sound h.find? rfl)

/-- An insert comes to the same end over the mirror. -/
theorem agrees_insert (hlen : record.length ≤ maxRecordSize) (hmany : records.length + 4 < 2 ^ 32) :
    Agrees True (HeapFile.insert record) (HeapFile.insert record) ⟨s.db, heap⟩ ⟨t.db, heap⟩
      (fun _ => HeapFile.Parallel (DiskFiles.parallel True s.db.files s.db.pool.capacity) heap.file)
      fun _ => HeapFile.Parallel (DiskFiles.parallel True s.db.files s.db.pool.capacity)
        heap.file := by
  obtain ⟨header, hv⟩ := h.packed.packed.heap
  obtain ⟨pin, hcurrent, hlast⟩ := h.packed.packed.exists_current hv
  exact HeapFile.agrees_insert_of_last ⟨h.mirrored.db.parallel, rfl, rfl⟩
    h.packed.packed.attached hv
    hlen (h.mirrored.isOpen h.packed.sound h.find? rfl) hcurrent hlast (h.packed.small hmany _)

/-- A record is inserted at its place in the packing. -/
theorem exists_insert (hframes : 3 ≤ capacity) (hlen : record.length ≤ maxRecordSize)
    (hmany : (records ++ [record]).length + 4 < 2 ^ 32) :
    ∃ s' t' heap', Session.step s (.tell handle (.insert record)) =
        .ok (.address (some ((Packing.ofRecords records).place record)), s') ∧
      PacksInDirectory capacity handle name (records ++ [record]) s' t' heap' := by
  have hfew := lt_of_concat hmany
  have hagrees := h.agrees_insert hlen hfew
  obtain ⟨u, hrun, hfile, -, hpacked⟩ := h.packed.exists_insert hlen hfew fun e u hrun => by
    obtain ⟨u', hrun', -⟩ := hagrees.exists_error trivial hrun
    exact h.inAccount.ne_exhausted hframes h.handles hrun'
  obtain ⟨u', hrun', -⟩ := hagrees.exists_ok trivial hrun
  have hlevel : (Command.tell handle (.insert record)).OnHeaps := trivial
  have hperform := perform_insert_ok h.find? hrun'
  have hstep := step_of_ok hperform
  have htell : Agrees False (tellHandle handle (.insert record))
      (tellHandle handle (.insert record))
      s t _ _ := agrees_tell h.mirrored h.packed.sound handle id fun _ => id
  obtain ⟨t', hperform', hleads, hakin⟩ := htell.of_ok hperform
  have hmirror := perform_insert_ok h.packed.find? hrun
  rw [h.packed.handles, Table.put_singleton] at hmirror
  cases hmirror.symm.trans hperform'
  refine ⟨_, _, u.heap, hstep, hleads.mirrored, hpacked, ?_, ⟨?_, ?_⟩, ?_, hfile ▸ h.name⟩
  · exact h.inOrder.step h.few hlevel hstep fun _ _ => nofun
  · exact hleads.small_shown h.few (hpacked.small hmany)
  · rw [hakin.nextId]
    exact h.few.numbers
  · exact (h.inAccount.step hlevel.heapLevel hstep).1

/-- In the end the file is described by the packing, also when it is opened again. -/
theorem ends (hframes : 2 ≤ capacity) :
    ∃ u header v, s.Answers (.tell handle .header) (.heapHeader header) ∧
      Session.step s (.tell handle .close) = .ok (.done, u) ∧ u.Presents name header v ∧
      (Packing.ofRecords records).Describes header v := by
  obtain ⟨header, hv, hdescribes⟩ := h.packed.exists_header
  have hrecalls := h.mirrored.recalls h.packed.sound h.packed.find? rfl hv
  obtain ⟨d, -, hperform, hinOrder, hfew, hshown⟩ :=
    h.inOrder.exists_close h.few h.handles (perform_close_inserter h.find?)
  have hstep := step_of_ok hperform
  have hlevel : (Command.tell handle .close).HeapLevel := trivial
  have haccount := (h.inAccount.step hlevel hstep).1
  have hroom : (pinsOf []).card + 2 ≤ d.pool.capacity := by
    rw [haccount.accounts.capacity]
    exact hframes
  have hpresents := hinOrder.presents hfew hroom ((congrFun hshown name).trans h.shown) hv
  exact ⟨⟨d, []⟩, header, _, hrecalls.header, hstep, hpresents, hdescribes⟩

end PacksInDirectory

/-- A heap file is made, and there is a number for its opening. -/
theorem DirectoryRun.made (run : DirectoryRun s)
    (hstep : Session.step s (.create name) = .ok (.done, s'))
    (hnumbers : s'.db.files.nextId.toNat + 1 < 2 ^ 32) : DirectoryRun s' ∧
      ∃ v, ShowsNew name s.db.shown s'.db.shown v ∧ v.IsHeap (Volume.newHeader name) := by
  obtain ⟨-, hfew⟩ := run.inOrder
  have hlevel : (Command.create name).OnHeaps := trivial
  cases run.makesHeap hstep with
  | @made _ v hshows hheap _ _ =>
    have hfew' := hfew.made hshows hheap hnumbers
    exact ⟨run.step hlevel hstep (fun _ _ => nofun) hfew', v, hshows, hheap⟩

/-- A heap file that was made is opened. -/
theorem DirectoryRun.exists_packs (run : DirectoryRun s) (hnone : s.handles = [])
    (hframes : 2 ≤ s.db.pool.capacity)
    (hstep : Session.step s (.create name) = .ok (.done, s'))
    (hnumbers : s'.db.files.nextId.toNat + 2 < 2 ^ 32) (handle : String) :
    ∃ u t heap, Session.step s' (.openAs handle (.heap .insert name)) = .ok (.done, u) ∧
      PacksInDirectory s.db.pool.capacity handle name [] u t heap := by
  have hlevel : (Command.create name).OnHeaps := trivial
  obtain ⟨run', v, hshows, hheap⟩ := run.made hstep (Nat.lt_of_succ_lt hnumbers)
  obtain ⟨h', hfew'⟩ := run'.inOrder
  have haccount' := (run.inAccount.step hlevel.heapLevel hstep).1
  obtain ⟨d, rfl, -⟩ := createHeap_of_step hstep
  rw [hnone] at h' hfew' haccount' hshows ⊢
  have hroom : (pinsOf []).card + 2 ≤ d.pool.capacity := by
    rw [haccount'.accounts.capacity]
    exact hframes
  have hfree : Table.has ([] : Table String Handle) handle = false := rfl
  obtain ⟨u, t, heap, hopen, hopens⟩ :=
    h'.exists_opens hfew' hroom hshows.new hheap hfree .insert
  have hlevel' : (Command.openAs handle (.heap .insert name)).OnHeaps := trivial
  have hinOrder := h'.step hfew' hlevel' hopen fun _ _ => nofun
  have hfew'' := hopens.few hnumbers
  have hhandles : u.handles = [(handle, .inserter heap)] :=
    hopens.mirrored.handles.symm.trans hopens.handles
  have hfind := find?_of_alone hhandles
  have hcurrent := ((Database.allows_openHeap_current name).of_ok hopens.run).trans hopens.position
  obtain ⟨hmirrored, hsound, hsmall⟩ := hinOrder.sound_mirror hfew'' name
  -- the file is shown as it was made
  have hshown := hmirrored.db.shown_of_open (hmirrored.find?_opened hsound hfind rfl)
  rw [hopens.shown, hopens.named, hshows.new] at hshown
  obtain rfl := Option.some.inj hshown
  exact ⟨u, u.mirror name, heap, hopen, hmirrored,
    holdsPacked_new hsound hsmall hhandles hcurrent hheap, hinOrder, hfew'',
    (haccount'.step hlevel'.heapLevel hopen).1, hopens.named⟩

/-- In a directory records are packed with three frames. -/
theorem keepsPacked_directory (hframes : 3 ≤ capacity) :
    KeepsPacked name handle
      fun records s => ∃ t heap, PacksInDirectory capacity handle name records s t heap where
  insert hmany hlen hholds := by
    obtain ⟨t, heap, h⟩ := hholds
    obtain ⟨u, t', heap', hstep, h'⟩ := h.exists_insert hframes hlen hmany
    exact ⟨u, hstep, t', heap', h'⟩
  ends _ hholds := by
    obtain ⟨t, heap, h⟩ := hholds
    exact h.ends (Nat.le_of_succ_le hframes)

/-- In a directory, records that are inserted into a new heap file are packed. -/
theorem DirectoryRun.packsRecords (run : DirectoryRun s) (hnone : s.handles = [])
    (hframes : 3 ≤ s.db.pool.capacity)
    (hstep : Session.step s (.create name) = .ok (.done, s'))
    (hnumbers : s'.db.files.nextId.toNat + 2 < 2 ^ 32) (handle : String)
    (hlen : ∀ record ∈ records, record.length ≤ maxRecordSize)
    (hmany : records.length + 4 < 2 ^ 32) : s'.PacksRecords name handle records := by
  obtain ⟨u, t, heap, hopen, hstart⟩ :=
    run.exists_packs hnone (Nat.le_of_succ_le hframes) hstep hnumbers handle
  exact (keepsPacked_directory hframes).packsRecords hlen hmany hopen ⟨t, heap, hstart⟩

end InDirectory

/-- Whatever records are inserted through the only handle of a new heap file, in memory or in a
directory, three frames are enough, and the records go where next-fit packing puts them.  No record
is longer than fits on a page, and there are numbers for that many pages and records; in a directory
there are numbers for two more openings. -/
theorem packsRecords_create (name handle : String) {records : List Bytes}
    (hlen : ∀ record ∈ records, record.length ≤ maxRecordSize)
    (hmany : records.length + 4 < 2 ^ 32) :
    (∀ {capacity : Nat} {s s' : Session MemoryFiles} {heaps : Set FileId}, Run capacity s heaps →
      s.handles = [] → 3 ≤ capacity → Session.step s (.create name) = .ok (.done, s') →
      s'.PacksRecords name handle records) ∧
    ∀ {s s' : Session DiskFiles}, DirectoryRun s → s.handles = [] → 3 ≤ s.db.pool.capacity →
      Session.step s (.create name) = .ok (.done, s') → s'.db.files.nextId.toNat + 2 < 2 ^ 32 →
      s'.PacksRecords name handle records :=
  ⟨fun run hnone hframes hstep => run.packsRecords hnone hframes hstep handle hlen hmany,
    fun run hnone hframes hstep hnumbers =>
      run.packsRecords hnone hframes hstep hnumbers handle hlen hmany⟩

/-- Three records are packed into the first heap file, in memory and in a directory. -/
theorem packsRecords_create_first :
    (∃ s, Session.step (start MemoryFiles.empty 8) (.create "t") = .ok (.done, s) ∧
      s.PacksRecords "t" "i" [[1, 2, 3], [], [4]]) ∧
    ∃ s, Session.step (start (DiskFiles.ofDirectory []) 8) (.create "t") = .ok (.done, s) ∧
      s.PacksRecords "t" "i" [[1, 2, 3], [], [4]] := by
  have hlen : ∀ record ∈ ([[1, 2, 3], [], [4]] : List Bytes), record.length ≤ maxRecordSize := by
    decide
  have hmany : ([[1, 2, 3], [], [4]] : List Bytes).length + 4 < 2 ^ 32 := by decide
  have hframes : 3 ≤ 8 := by decide
  obtain ⟨hmemory, hdirectory⟩ := packsRecords_create "t" "i" hlen hmany
  constructor
  · obtain ⟨s, -, hstep, -⟩ := exists_made
    exact ⟨s, hstep, hmemory .start rfl hframes hstep⟩
  · obtain ⟨s, hstep, -, -, -, hnext, -⟩ := exists_create
    have hnumbers : s.db.files.nextId.toNat + 2 < 2 ^ 32 := by
      rw [hnext]
      decide
    exact ⟨s, hstep, hdirectory (directoryRun_start 8) rfl hframes hstep hnumbers⟩

end Session

end PagedHeap
