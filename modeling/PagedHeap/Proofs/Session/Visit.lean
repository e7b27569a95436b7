import PagedHeap.Proofs.Heap.Attempts
import PagedHeap.Proofs.Session.Filling

/-!
# One heap file at a time

A session over a directory is ready (`Session.Ready`) if it is in order, if the pool has frames for
a handle and there is room for more pages and records.  Then a heap file that is shown can be
opened, read, inserted into and closed again: every step but the inserts is answered, the first
insert is refused for a long record only, and what is shown changes by the records that were
inserted and by nothing else.
-/

namespace PagedHeap

open PagedHeap.Action

open MemoryFiles (law)

/-- The volume has room for `n` more pages and records, and for one more of each. -/
structure Volume.HasRoom (v : Volume) (n : Nat) : Prop where
  size : v.size + n + 1 < 2 ^ 32
  records : v.recordCount + n + 1 < 2 ^ 32

theorem Volume.HasRoom.mono {v : Volume} {n k : Nat} (h : v.HasRoom n) (hle : k ≤ n) :
    v.HasRoom k where
  size := Nat.lt_of_le_of_lt (by omega) h.size
  records := Nat.lt_of_le_of_lt (by omega) h.records

theorem Volume.HasRoom.small {v : Volume} {n : Nat} (h : v.HasRoom n) : v.Small :=
  ⟨(h.mono (Nat.zero_le n)).size, (h.mono (Nat.zero_le n)).records⟩

/-- There is room in a heap file of few pages. -/
theorem Volume.IsHeap.hasRoom {v : Volume} {header : HeapHeader} (hv : v.IsHeap header)
    (hsize : v.size ≤ 2 ^ 16) {n : Nat} (hn : n ≤ 2 ^ 16) : v.HasRoom n := by
  have hcount : v.recordCount ≤ 2 ^ 16 * pageSize :=
    hv.recordCount_le.trans (Nat.mul_le_mul_right pageSize hsize)
  have hpage : pageSize = 4096 := rfl
  rw [hpage] at hcount
  exact ⟨by omega, by omega⟩

/-- A record that was added takes one record and at most one page of the room. -/
theorem Volume.HasRoom.added {v w : Volume} {k : Nat} (h : v.HasRoom (k + 1))
    {header header' : HeapHeader} (hv : v.IsHeap header) (hw : w.IsHeap header')
    (hsize : w.size ≤ v.size + 1) {rid : RecordId} {record : Bytes} (hfree : v.record? rid = none)
    (hrecord : w.record? = Function.update v.record? rid (some record)) : w.HasRoom k := by
  have hcount := hv.recordCount_of_update hw hfree hrecord
  have hroom := h.size
  have hroom' := h.records
  constructor
  · omega
  · omega

/-- All files that are shown have room for `n` more pages and records each. -/
def HaveRoom (shown : String → Option Volume) (n : Nat) : Prop :=
  ∀ name v, shown name = some v → v.HasRoom n

theorem HaveRoom.mono {shown : String → Option Volume} {n k : Nat} (h : HaveRoom shown n)
    (hle : k ≤ n) : HaveRoom shown k := fun name v hv => (h name v hv).mono hle

/-- The pages of a file in a directory. -/
def Directory.shown (files : Directory) (name : String) : Option Volume :=
  (files.find? name).map FileImage.volume

/-- The record at an address of a file, among the files that are shown. -/
def recordAt (shown : String → Option Volume) (name : String) (rid : RecordId) : Option Bytes :=
  (shown name).bind fun v => v.record? rid

/-- Records were added to a file under addresses that were free, and no other file changed. -/
structure Gains (name : String) (rows : List (RecordId × Bytes))
    (shown shown' : String → Option Volume) : Prop where
  others : ∀ other, other ≠ name → shown' other = shown other
  records : ∀ rid record, recordAt shown' name rid = some record ↔
    (rid, record) ∈ rows ∨ recordAt shown name rid = some record
  free : ∀ row ∈ rows, recordAt shown name row.1 = none
  distinct : (rows.map Prod.fst).Nodup

/-- One record was added to a heap file that is shown, on one of its pages or on a new one, and no
other file changed. -/
structure Enters (name : String) (rid : RecordId) (record : Bytes)
    (shown shown' : String → Option Volume) : Prop where
  others : ∀ other, other ≠ name → shown' other = shown other
  heap : ∃ v w header header', shown name = some v ∧ shown' name = some w ∧ v.IsHeap header ∧
    w.IsHeap header' ∧ w.size ≤ v.size + 1 ∧ v.record? rid = none ∧
    w.record? = Function.update v.record? rid (some record)

section Gains

variable {shown shown' shown'' : String → Option Volume} {name : String}
variable {rows rows' : List (RecordId × Bytes)}

theorem recordAt_of_shown {v : Volume} (h : shown name = some v) (rid : RecordId) :
    recordAt shown name rid = v.record? rid := by
  unfold recordAt
  rw [h]
  rfl

theorem Gains.nil (name : String) (shown : String → Option Volume) : Gains name [] shown shown where
  others _ _ := rfl
  records _ _ := (or_iff_right List.not_mem_nil).symm
  free := nofun
  distinct := List.nodup_nil

/-- One record was added. -/
theorem Enters.gains {rid : RecordId} {record : Bytes} (h : Enters name rid record shown shown') :
    Gains name [(rid, record)] shown shown' := by
  obtain ⟨v, w, -, -, hv, hw, -, -, -, hfree, hrecord⟩ := h.heap
  refine ⟨h.others, fun other bytes => ?_, fun row hrow => ?_, List.nodup_singleton rid⟩
  · rw [recordAt_of_shown hv, recordAt_of_shown hw, hrecord, List.mem_singleton]
    by_cases heq : other = rid
    · rw [heq, Function.update_self, hfree]
      constructor
      · rintro ⟨rfl⟩
        exact .inl rfl
      · rintro (hsame | hnone)
        · exact congrArg (fun row => some row.2) hsame.symm
        · cases hnone
    · rw [Function.update_of_ne heq]
      refine (or_iff_right fun hsame => ?_).symm
      exact heq (congrArg Prod.fst hsame)
  · obtain rfl := List.mem_singleton.1 hrow
    exact (recordAt_of_shown hv _).trans hfree

/-- There is room for one record less. -/
theorem Enters.haveRoom {rid : RecordId} {record : Bytes} (h : Enters name rid record shown shown')
    {k : Nat} (hroom : HaveRoom shown (k + 1)) : HaveRoom shown' k := by
  obtain ⟨v, w, header, header', hv, hw, hheap, hheap', hsize, hfree, hrecord⟩ := h.heap
  intro other v' hv'
  by_cases hother : other = name
  · subst hother
    obtain rfl := Option.some.inj (hw.symm.trans hv')
    exact (hroom _ _ hv).added hheap hheap' hsize hfree hrecord
  · exact (hroom other v' (h.others other hother ▸ hv')).mono (Nat.le_succ k)

/-- Records are added one after the other. -/
theorem Gains.trans (h : Gains name rows shown shown') (h' : Gains name rows' shown' shown'') :
    Gains name (rows ++ rows') shown shown'' where
  others other hne := (h'.others other hne).trans (h.others other hne)
  records rid record := by
    rw [h'.records, h.records, List.mem_append, or_left_comm, or_assoc]
  free row hrow := by
    rcases List.mem_append.1 hrow with hold | hnew
    · exact h.free row hold
    · refine Option.eq_none_iff_forall_ne_some.2 fun record hrecord => ?_
      cases (h'.free row hnew).symm.trans ((h.records row.1 record).2 (.inr hrecord))
  distinct := by
    rw [List.map_append]
    refine List.nodup_append'.2 ⟨h.distinct, h'.distinct, fun rid hold hnew => ?_⟩
    obtain ⟨row, hrow, rfl⟩ := List.mem_map.1 hold
    obtain ⟨row', hrow', heq⟩ := List.mem_map.1 hnew
    have hfree := h'.free row' hrow'
    rw [heq] at hfree
    cases hfree.symm.trans ((h.records row.1 row.2).2 (.inl hrow))

end Gains

namespace Session

/-- The session is in order and accounted for, and there is room for a handle and for `n` more pages
and records of every file. -/
structure Ready (capacity n : Nat) (s : Session DiskFiles) : Prop where
  inOrder : s.InOrder
  inAccount : InAccount DiskFiles.books capacity s
  frames : 4 ≤ capacity
  room : HaveRoom s.db.shown n
  numbers : s.db.files.nextId.toNat + 1 < 2 ^ 32

variable {capacity n : Nat} {s s' : Session DiskFiles} {t : Session MemoryFiles} {name : String}
variable {v : Volume} {header : HeapHeader} {heap : HeapFile} {handle new : Handle} {c : Command}
variable {reply : Reply} {record : Bytes} {rid : RecordId}

theorem Ready.few (h : s.Ready capacity n) : s.FewPages :=
  ⟨fun name v hv => (h.room name v hv).small, h.numbers⟩

theorem Ready.mono (h : s.Ready capacity n) {k : Nat} (hle : k ≤ n) : s.Ready capacity k :=
  { h with room := h.room.mono hle }

/-- A new session on a directory of heap files is ready. -/
theorem ready_start {files : Directory} (hheaps : files.AllHeaps)
    (hroom : HaveRoom files.shown n) (hframes : 4 ≤ capacity) :
    (start (.ofDirectory files) capacity).Ready capacity n where
  inOrder := inOrder_start hheaps capacity
  inAccount := inAccount_start (DiskFiles.regular_ofDirectory files) rfl capacity
  frames := hframes
  room name v hv := by
    rw [shown_start] at hv
    exact hroom name v hv
  numbers := numbers_start files capacity

/-- One more command on heap files, for which there is room, leaves the session ready. -/
theorem Ready.step (h : s.Ready capacity n) (hlevel : c.OnHeaps)
    (hstep : Session.step s c = .ok (reply, s')) (hreach : s.Reaches c → ∀ e, reply ≠ .failed e)
    {k : Nat} (hroom : HaveRoom s'.db.shown k)
    (hnumbers : s'.db.files.nextId.toNat + 1 < 2 ^ 32) : s'.Ready capacity k where
  inOrder := h.inOrder.step h.few hlevel hstep hreach
  inAccount := (h.inAccount.step hlevel.heapLevel hstep).1
  frames := h.frames
  room := hroom
  numbers := hnumbers

/-- With at most one handle there is always a frame. -/
theorem Ready.ne_exhausted (h : s.Ready capacity n) (hfew : s.handles.length ≤ 1)
    (hlevel : c.HeapLevel) {e : StorageError} (hstep : Session.step s c = .ok (.failed e, s')) :
    e ≠ .bufferPoolExhausted := by
  intro he
  have hfull := ((h.inAccount.step hlevel hstep).2 e rfl).2 he
  have hframes := h.frames
  omega

/-! ## Opening -/

/-- A heap file that is shown is opened. -/
theorem Ready.exists_open (h : s.Ready capacity n) (hnone : s.handles = [])
    (hnext : s.db.files.nextId.toNat + 2 < 2 ^ 32) (hshown : s.db.shown name = some v)
    (use : HeapUse) : ∃ s' t' heap, s'.Ready capacity n ∧
      s'.handles = [("", handleOf heap use)] ∧ heap.currentPage? = some ⟨2⟩ ∧
      s.Opens "" use name v s' t' heap := by
  obtain ⟨header, hv⟩ := h.inOrder.heaps name v hshown
  have hroom : (pinsOf s.handles).card + 2 ≤ s.db.pool.capacity := by
    rw [hnone, h.inAccount.accounts.capacity]
    exact Nat.le_trans (by decide) h.frames
  have hfree : s.handles.has "" = false := by
    rw [hnone]
    rfl
  obtain ⟨s', t', heap, hstep, hopens⟩ := h.inOrder.exists_opens h.few hroom hshown hv hfree use
  have hlevel : (Command.openAs "" (.heap use name)).OnHeaps := trivial
  have hcurrent := (Database.allows_openHeap_current name).of_ok hopens.run
  refine ⟨s', t', heap, h.step hlevel hstep (fun _ _ => nofun) ?_ (hopens.few hnext).numbers, ?_,
    hcurrent.trans hopens.position, hopens⟩
  · rw [hopens.shown]
    exact h.room
  · rw [← hopens.mirrored.handles, hopens.handles, hnone]
    rfl

/-- A name under which nothing is shown cannot be opened. -/
theorem refuses_openHeap (hopened : s.db.files.opened = []) (hnone : s.db.shown name = none) :
    (Database.openHeap name).Ensures s.db (fun _ _ => False) fun _ db => db = s.db := by
  have hnamed : s.db.files.named.find? name = none := by
    cases hfind : s.db.files.named.find? name with
    | none => rfl
    | some i =>
      obtain ⟨v, hv⟩ := Database.exists_shown_of_has (Table.has_of_find? hfind)
      cases hnone.symm.trans hv
  have hfile : (DiskFiles.openFile name).Ensures s.db.files (fun _ _ => False)
      fun _ files => files = s.db.files := by
    unfold DiskFiles.openFile
    rw [ensures_bind]
    rcases FileName.check_cases name with ⟨hcheck, -⟩ | hcheck
    · rw [ensures_ofResult_ok hcheck, ensures_bind, ensures_get, hopened, hnamed]
      exact rfl
    · rw [ensures_ofResult_refuse hcheck]
  unfold Database.openHeap
  rw [ensures_bind]
  refine ensures_onPart.2 (hfile.mono (fun _ _ => False.elim) ?_)
  rintro _ _ rfl
  rfl

/-! ## Inserting -/

section Inserts

variable {σ : Type} [FileStore σ] {s : Session σ} {t : HeapState σ}

omit [FileStore σ] in
theorem find?_of_alone {handle : Handle} (hhandles : s.handles = [(name, handle)]) :
    s.handles.find? name = some handle := by
  rw [hhandles]
  exact if_pos rfl

theorem perform_insert_ok (hfind : s.handles.find? name = some (.inserter heap))
    (hrun : HeapFile.insert record ⟨s.db, heap⟩ = .ok rid t) :
    perform (.tell name (.insert record)) s =
      .ok (.address (some rid)) ⟨t.db, s.handles.put name (.inserter t.heap)⟩ := by
  have honHeap : onHeap name heap .inserter (HeapFile.insert record) s =
      .ok rid ⟨t.db, s.handles.put name (.inserter t.heap)⟩ := onPart_run_ok hrun
  refine (bind_run_ok rfl _).trans ?_
  rw [hfind]
  exact bind_run_ok honHeap _

theorem perform_insert_error (hfind : s.handles.find? name = some (.inserter heap)) {e : Failure}
    (hrun : HeapFile.insert record ⟨s.db, heap⟩ = .error e t) :
    perform (.tell name (.insert record)) s =
      .error e ⟨t.db, s.handles.put name (.inserter t.heap)⟩ := by
  have honHeap : onHeap name heap .inserter (HeapFile.insert record) s =
      .error e ⟨t.db, s.handles.put name (.inserter t.heap)⟩ := onPart_run_error hrun
  refine (bind_run_ok rfl _).trans ?_
  rw [hfind]
  exact bind_run_error honHeap _

theorem perform_close_inserter (hfind : s.handles.find? name = some (.inserter heap)) :
    perform (.tell name .close) s =
      (do forgetHandle name; onDatabase (closeInserter heap); return .done :
        SessionAction σ Reply) s := by
  refine (bind_run_ok rfl _).trans ?_
  rw [hfind]
  rfl

end Inserts

/-- What was done to one open file shows in no other. -/
theorem shown_of_only {d d' : Database DiskFiles} {e e' : Database MemoryFiles} (h : d.Mirrored e)
    (h' : d'.Mirrored e') (hakin : d.files.Akin d'.files) {entry : OpenEntry}
    (hentry : d.files.opened.find? name = some entry)
    (honly : ∀ file, file ≠ entry.file.id → law.volume e' file = law.volume e file) {other : String}
    (hne : other ≠ name) : d'.shown other = d.shown other := by
  refine (Database.settled_of_akin hakin e').shown_eq h' (by rw [hakin.named]) ?_
  intro found hfound
  have hold : d.files.opened.find? other = some found := by
    rcases hfound with hold | hfound
    · exact hold
    · rwa [hakin.opened] at hfound
  rw [honly, h.shown_of_open hold]
  exact fun heq => hne (h.files.coherent.name_unique hold hentry heq)

section Alone

variable (h : s.Ready capacity n) (hhandles : s.handles = [("", .inserter heap)])
include h hhandles

/-- The file of the only handle is shown as it is in memory. -/
theorem Ready.shown_alone :
    s.db.shown heap.file.name = some (law.volume (s.mirror "").db heap.file.id) := by
  obtain ⟨hmirrored, hsound, -⟩ := h.inOrder.sound_mirror h.few ""
  exact hmirrored.db.shown_of_open (hmirrored.find?_opened hsound (find?_of_alone hhandles) rfl)

/-- What an insert answers, it has added to its heap file, and to no other. -/
theorem Ready.insert_enters {u : HeapState DiskFiles}
    (hrun : HeapFile.insert record ⟨s.db, heap⟩ = .ok rid u) :
    u.heap.file = heap.file ∧ u.db.files.nextId = s.db.files.nextId ∧
      Enters heap.file.name rid record s.db.shown u.db.shown := by
  have hfind := find?_of_alone hhandles
  obtain ⟨hmirrored, hsound, hsmall⟩ := h.inOrder.sound_mirror h.few ""
  have hagrees : Agrees False (tellHandle "" (.insert record)) (tellHandle "" (.insert record))
      s (s.mirror "") _ _ := agrees_tell hmirrored hsound "" id fun _ => id
  obtain ⟨t', hperform, hleads, hakin⟩ := hagrees.of_ok (perform_insert_ok hfind hrun)
  obtain ⟨rid', w, hreply, hadded, rfl⟩ :=
    (ensures_tell_insert hsound hfind hsmall record).of_ok hperform
  cases hreply
  have hentry := hmirrored.find?_opened hsound hfind rfl
  have hfile : w.heap.file = heap.file := hadded.moves.file
  have hheap : u.heap = w.heap := by
    have hput : s.handles.put "" (.inserter w.heap) = s.handles.put "" (.inserter u.heap) :=
      hleads.mirrored.handles
    rw [hhandles] at hput
    have hone : [("", Handle.inserter w.heap)] = [("", .inserter u.heap)] := hput
    exact (Handle.inserter.inj (Prod.mk.inj (List.cons.inj hone).1).2).symm
  have hvolume : HeapFile.volume law w = law.volume w.db heap.file.id := by
    unfold HeapFile.volume
    rw [hfile]
  have hshown : u.db.shown heap.file.name = some (HeapFile.volume law w) := by
    rw [hvolume]
    exact hleads.mirrored.db.shown_of_open (hakin.opened ▸ hentry)
  obtain ⟨header, hv⟩ := hsound.hasHeap hfind rfl
  obtain ⟨header', hw⟩ := hadded.moves.heap
  refine ⟨hheap ▸ hfile, hakin.nextId, fun other hne => ?_, _, _, header, header',
    h.shown_alone hhandles, hshown, hv, hw, hadded.size, hadded.fresh, hadded.record?⟩
  exact shown_of_only hmirrored.db hleads.mirrored.db hakin hentry hadded.moves.only.others hne

/-- After an insert there is room for one record less. -/
theorem Ready.insert_ok {k : Nat} (hk : n = k + 1) {u : HeapState DiskFiles}
    (hrun : HeapFile.insert record ⟨s.db, heap⟩ = .ok rid u) :
    u.heap.file = heap.file ∧
      Session.Ready capacity k ⟨u.db, [("", .inserter u.heap)]⟩ ∧
      Gains heap.file.name [(rid, record)] s.db.shown u.db.shown := by
  subst hk
  obtain ⟨hfile, hnext, henters⟩ := h.insert_enters hhandles hrun
  have hput : s.handles.put "" (.inserter u.heap) = [("", .inserter u.heap)] := by
    rw [hhandles]
    rfl
  have hperform := perform_insert_ok (find?_of_alone hhandles) hrun
  rw [hput] at hperform
  have hlevel : (Command.tell "" (.insert record)).OnHeaps := trivial
  have hnumbers : u.db.files.nextId.toNat + 1 < 2 ^ 32 := hnext ▸ h.numbers
  exact ⟨hfile, h.step hlevel (step_of_ok hperform) (fun _ _ => nofun) (henters.haveRoom h.room)
    hnumbers, henters.gains⟩

/-- On a first page without records a record that is not too long is inserted. -/
theorem Ready.exists_insert (hcurrent : heap.currentPage? = some ⟨2⟩)
    (hshown : s.db.shown heap.file.name = some v) (hempty : ∀ slot, v.record? ⟨⟨2⟩, slot⟩ = none)
    (hlen : record.length ≤ maxRecordSize) :
    ∃ rid u, HeapFile.insert record ⟨s.db, heap⟩ = .ok rid u := by
  have hfind := find?_of_alone hhandles
  obtain ⟨hmirrored, hsound, hsmall⟩ := h.inOrder.sound_mirror h.few ""
  have hattached : HeapFile.Attached law _ ⟨(s.mirror "").db, heap⟩ := hsound.attached hfind rfl
  obtain ⟨header, hv⟩ := hsound.hasHeap hfind rfl
  have hvolume : HeapFile.volume law ⟨(s.mirror "").db, heap⟩ = v :=
    Option.some.inj ((h.shown_alone hhandles).symm.trans hshown)
  obtain ⟨pin, hpin, hpage⟩ := Option.map_eq_some_iff.1 hcurrent
  have hdata : (HeapFile.volume law ⟨(s.mirror "").db, heap⟩).IsData pin.key.page :=
    hpage ▸ hv.isData_two
  have hslots (slot : SlotId) :
      ((HeapFile.volume law ⟨(s.mirror "").db, heap⟩).data pin.key.page).record? slot = none := by
    have hrecord : (HeapFile.volume law ⟨(s.mirror "").db, heap⟩).record? ⟨pin.key.page, slot⟩ =
        _ := Volume.record?_of_isData hdata
    rw [← hrecord, hvolume, hpage]
    exact hempty slot
  have hfits := (hv.wellFormed _ hdata).neededFor_le_of_empty hslots hlen
  -- The record goes to the first page, so that no page is added.
  obtain ⟨answer, w, hrun, rid, rfl, -⟩ := (HeapFile.ensures_tryInsert_of_fits hattached hv hpin
    hdata hlen (hsmall _).records hfits).exists_ok
  have hparallel : HeapFile.Parallel (DiskFiles.parallel True s.db.files s.db.pool.capacity)
      heap.file ⟨s.db, heap⟩ ⟨(s.mirror "").db, heap⟩ := ⟨hmirrored.db.parallel, rfl, rfl⟩
  obtain ⟨u, hrun', -⟩ := (HeapFile.keeps_tryInsert record hparallel).exists_ok trivial hrun
  have hchosen : HeapFile.choosePage ⟨s.db, heap⟩ = .ok () ⟨s.db, heap⟩ := by
    refine (bind_run_ok rfl _).trans ?_
    dsimp only
    rw [hpin]
    rfl
  refine ⟨rid, u, ?_⟩
  rw [HeapFile.insert_of_le hlen]
  exact (bind_run_ok hchosen _).trans (bind_run_ok hrun' _)

/-- The first insert is refused for a long record only, and then nothing was done. -/
theorem Ready.insert_refused (hcurrent : heap.currentPage? = some ⟨2⟩) {e : StorageError}
    {u : HeapState DiskFiles} (hrun : HeapFile.insert record ⟨s.db, heap⟩ = .error (.error e) u) :
    maxRecordSize < record.length ∧ u = ⟨s.db, heap⟩ := by
  by_cases hlong : maxRecordSize < record.length
  · rw [HeapFile.insert_of_long hlong] at hrun
    cases hrun
    exact ⟨hlong, rfl⟩
  have hfind := find?_of_alone hhandles
  have hperform := perform_insert_error hfind hrun
  have hlevel : (Command.tell "" (.insert record)).HeapLevel := trivial
  have hone : s.handles.length ≤ 1 := by
    rw [hhandles]
    exact Nat.le_refl 1
  obtain ⟨hmirrored, hsound, hsmall⟩ := h.inOrder.sound_mirror h.few ""
  have hagrees : Agrees False (tellHandle "" (.insert record)) (tellHandle "" (.insert record))
      s (s.mirror "") _ _ := agrees_tell hmirrored hsound "" id fun _ => id
  obtain ⟨t', hperform', -⟩ := hagrees.of_error hperform
  obtain ⟨-, -, -, -, hcause⟩ :=
    (ensures_tell_insert hsound hfind hsmall record).of_error hperform'
  obtain ⟨header, hv⟩ := hsound.hasHeap hfind rfl
  refine absurd (hcause (Nat.le_of_not_lt hlong) fun pin hpin => ?_)
    (h.ne_exhausted hone hlevel (step_of_refused hperform))
  unfold HeapFile.currentPage? at hcurrent
  rw [hpin] at hcurrent
  have hpage : pin.key.page = ⟨2⟩ := Option.some.inj hcurrent
  exact hpage ▸ hv.isData_two

end Alone

/-! ## Reading -/

/-- A session in order that has one handle, for reading, and the session over its mirror. -/
structure Browses (s : Session DiskFiles) (t : Session MemoryFiles) (heap : HeapFile) : Prop where
  mirrored : s.Mirrored t
  sound : t.Sound
  handles : s.handles = [("", .heap heap)]
  names : ∀ name, s.db.files.named.has name = true → FileName.check name = .ok ()
  heaps : s.AllHeaps
  few : s.FewPages

section Browses

variable (h : s.Browses t heap)
include h

theorem Browses.inOrder : s.InOrder := ⟨⟨t, h.mirrored, h.sound⟩, h.names, h.heaps⟩

theorem Browses.find? : t.handles.find? "" = some (.heap heap) := by
  rw [h.mirrored.handles]
  exact find?_of_alone h.handles

theorem Browses.attached : HeapFile.Attached law (pinsOf (t.handles.erase "")) ⟨t.db, heap⟩ :=
  h.sound.attached h.find? rfl

/-- What can be read in memory without a change of any page is read from the directory, which then
shows what it did before. -/
theorem Browses.read {α : Type} {x : HeapAction DiskFiles α} {y : HeapAction MemoryFiles α}
    (hkeeps : Keeps True (HeapFile.Parallel
      (DiskFiles.parallel True s.db.files s.db.pool.capacity) heap.file) x y)
    {post : α → HeapState MemoryFiles → Prop}
    (hy : y.Ensures ⟨t.db, heap⟩ (fun a w => StaysAt t "" heap w ∧ post a w) Never) :
    ∃ a u w, x ⟨s.db, heap⟩ = .ok a u ∧ post a w ∧ w.heap = u.heap ∧ u.db.shown = s.db.shown ∧
      Browses ⟨u.db, [("", .heap u.heap)]⟩ ⟨w.db, [("", .heap u.heap)]⟩ u.heap := by
  have hhandles : t.handles = [("", .heap heap)] := h.mirrored.handles.trans h.handles
  have hparallel : HeapFile.Parallel (DiskFiles.parallel True s.db.files s.db.pool.capacity)
      heap.file ⟨s.db, heap⟩ ⟨t.db, heap⟩ := ⟨h.mirrored.db.parallel, rfl, rfl⟩
  obtain ⟨a, w, hrun, hstays, hpost⟩ := hy.exists_ok
  obtain ⟨u, hrun', hdb, hheap, hfile⟩ := (hkeeps hparallel).exists_ok trivial hrun
  have hakin := hdb.files.akin
  have hmirrored := Database.mirrored_of_parallel hdb
  have hvolume : law.volume w.db = law.volume t.db := PageStore.Reliable.volume_of_same hstays.same
  have hshown : u.db.shown = s.db.shown := by
    funext name
    refine (Database.settled_of_akin hakin w.db).shown_eq hmirrored (by rw [hakin.named]) ?_
    rintro entry hentry
    rw [hakin.opened, or_self] at hentry
    rw [hvolume]
    exact h.mirrored.db.shown_of_open hentry
  have hheld : heldFiles [("", .heap u.heap)] = heldFiles s.handles := by
    have hfiles : filesOf [("", .heap u.heap)] = filesOf [("", .heap heap)] :=
      congrArg (fun file => [("", some file)]) hfile
    unfold heldFiles
    rw [hfiles, h.handles]
  have hsound : Sound ⟨w.db, t.handles.put "" (.heap u.heap)⟩ := by
    obtain ⟨header, hv⟩ := h.sound.hasHeap h.find? rfl
    have hmoves := hstays.moves hv
    have hevolves := Database.Evolves.of_moves h.sound.orderly (h.sound.hasHeap h.find? rfl) hmoves
    exact h.sound.put hevolves (congrArg some hheap.symm) hmoves.attached hmoves.heap
  rw [hhandles] at hsound
  refine ⟨a, u, w, hrun', hpost, hheap, hshown, ⟨hmirrored, rfl, ?_⟩, hsound, rfl, ?_, ?_, ?_, ?_⟩
  · rw [hheld]
    exact hakin.opened ▸ h.mirrored.tallies
  · intro name hname
    exact h.names name (hakin.named ▸ hname)
  · intro name v hv
    exact h.heaps name v (hshown ▸ hv)
  · intro name v hv
    exact h.few.files name v (hshown ▸ hv)
  · change u.db.files.nextId.toNat + 1 < 2 ^ 32
    rw [hakin.nextId]
    exact h.few.numbers

end Browses

/-! ## Closing -/

/-- What gives up the only handle leaves a session in order that shows what it did before. -/
theorem InOrder.exists_close (h : s.InOrder) (hfew : s.FewPages)
    (hhandles : s.handles = [(name, handle)]) {close : Action (Database DiskFiles) Unit}
    (hperform : perform (.tell name .close) s =
      (do forgetHandle name; onDatabase close; return .done : SessionAction DiskFiles Reply) s) :
    ∃ d', close s.db = .ok () d' ∧ perform (.tell name .close) s = .ok .done ⟨d', []⟩ ∧
      InOrder ⟨d', []⟩ ∧ FewPages ⟨d', []⟩ ∧ d'.shown = s.db.shown := by
  have hcloses : HandleCommand.close.Closes := trivial
  obtain ⟨reply, s', hstep, herase⟩ := h.exists_closing hfew name hcloses
  obtain ⟨h', hfew', hshown⟩ := h.closing hfew hcloses hstep
  rw [hhandles, Table.erase_singleton] at herase
  obtain ⟨d', handles⟩ := s'
  obtain rfl : handles = [] := herase
  rcases run_of_step hstep with hrun | ⟨e, -, hrun⟩
  · have hdone := hrun
    rw [hperform] at hrun
    obtain ⟨_, s₁, hforget, hrest⟩ := exists_of_bind_ok hrun
    cases hforget
    obtain ⟨_, s₂, hclose, hpure⟩ := exists_of_bind_ok hrest
    cases hpure
    obtain ⟨d'', hrun', heq⟩ := exists_of_onPart_ok hclose
    obtain rfl : d' = d'' := congrArg Session.db heq
    exact ⟨d', hrun', hdone, h', hfew', hshown⟩
  · obtain ⟨hmirrored, hsound, -⟩ := h.sound_mirror hfew ""
    have hagrees : Agrees False (perform (.tell name .close)) (perform (.tell name .close))
        s _ _ _ :=
      agrees_closing hmirrored hsound name hcloses
    obtain ⟨_, -, hfalse⟩ := hagrees.of_error hrun
    exact hfalse.elim

/-- The only handle is closed after reading. -/
theorem Browses.exists_close (h : s.Browses t heap) :
    ∃ d', Database.closeHeap heap s.db = .ok () d' ∧ InOrder ⟨d', []⟩ ∧ d'.shown = s.db.shown := by
  have hperform : perform (.tell "" .close) s = (do
      forgetHandle ""; onDatabase (Database.closeHeap heap); return .done :
        SessionAction DiskFiles Reply) s := by
    refine (bind_run_ok rfl _).trans ?_
    rw [h.handles]
    rfl
  obtain ⟨d', hrun, -, h', -, hshown⟩ := h.inOrder.exists_close h.few h.handles hperform
  exact ⟨d', hrun, h', hshown⟩

/-- The only handle is closed after inserts. -/
theorem Ready.exists_close (h : s.Ready capacity n)
    (hhandles : s.handles = [("", .inserter heap)]) :
    ∃ d', closeInserter heap s.db = .ok () d' ∧ InOrder ⟨d', []⟩ ∧ d'.shown = s.db.shown := by
  obtain ⟨d', hrun, -, h', -, hshown⟩ :=
    h.inOrder.exists_close h.few hhandles (perform_close_inserter (find?_of_alone hhandles))
  exact ⟨d', hrun, h', hshown⟩

/-! ## Leaving the directory -/

/-- Without handles no file is open. -/
theorem InOrder.opened_eq_nil (h : s.InOrder) (hnone : s.handles = []) :
    s.db.files.opened = [] := by
  obtain ⟨t, hmirrored, -⟩ := h.mirrored
  have htallies := hmirrored.tallies
  rw [hnone] at htallies
  exact htallies.eq_nil

/-- Without handles no page is in the pool. -/
theorem InOrder.frames_eq_nil (h : s.InOrder) (hnone : s.handles = []) : s.db.pool.frames = [] := by
  obtain ⟨t, hmirrored, -⟩ := h.mirrored
  refine List.eq_nil_iff_forall_not_mem.2 fun entry hentry => ?_
  obtain ⟨name, found, hfind, -⟩ := hmirrored.db.cached entry.1 (List.mem_map_of_mem hentry)
  rw [h.opened_eq_nil hnone] at hfind
  cases hfind

/-- Without handles there is nothing to write back. -/
theorem InOrder.flushAll_eq (h : s.InOrder) (hnone : s.handles = []) :
    Database.flushAll s.db = .ok () s.db := by
  have hkeys : s.db.pool.frames.keys = [] := by
    rw [h.frames_eq_nil hnone]
    rfl
  have hfiles : Database.cachedFiles s.db.pool = [] := by
    unfold Database.cachedFiles
    rw [hkeys, List.map_nil, List.eraseDups_nil, List.mergeSort_nil]
  refine (bind_run_ok rfl _).trans ?_
  rw [hkeys, hfiles]
  rfl

/-! ## Making and removing heap files -/

section Files

variable (h : s.Ready capacity n) (hnone : s.handles = []) {d' : Database DiskFiles}
include h hnone

/-- Without handles, what settles a name that is there as before shows it as before. -/
theorem Ready.shown_eq {e' : Database MemoryFiles} (hsettled : Database.Settled s.db d' e')
    (hmirrored : d'.Mirrored e') (hopened : d'.files.opened.find? name = none)
    (hnamed : d'.files.named.has name = s.db.files.named.has name) :
    d'.shown name = s.db.shown name := by
  refine hsettled.shown_eq hmirrored hnamed fun entry hentry => ?_
  rw [hopened, h.inOrder.opened_eq_nil hnone] at hentry
  rcases hentry with hentry | hentry
  · cases hentry
  · cases hentry

/-- A heap file that was made is shown without records, where nothing was shown before. -/
theorem Ready.create_ok (hrun : Database.createHeap name s.db = .ok () d') :
    InOrder ⟨d', []⟩ ∧ (∀ other, other ≠ name → d'.shown other = s.db.shown other) ∧
      s.db.shown name = none ∧
      ∃ w, d'.shown name = some w ∧ w.size ≤ 3 ∧ ∀ rid, w.record? rid = none := by
  obtain ⟨hmirrored, hsound, -⟩ := h.inOrder.sound_mirror h.few name
  have hpins := hmirrored.pin_ne hsound fun hopen => hmirrored.db.files.coherent.ne_next hopen rfl
  have hagrees := Database.agrees_createHeap id hmirrored.db DiskFiles.nextId_mirror h.numbers
    hsound.holds hsound.orderly hpins
  obtain ⟨e', -, hadds⟩ := hagrees.of_ok hrun
  obtain ⟨w, hshows, hheap⟩ := hadds.shows
  have hperform : perform (.create name) s = .ok .done ⟨d', s.handles⟩ :=
    bind_run_ok (onPart_run_ok hrun) _
  have hlevel : (Command.create name).OnHeaps := trivial
  have hinOrder := h.inOrder.step h.few hlevel (step_of_ok hperform) fun _ _ => nofun
  rw [hnone] at hinOrder
  exact ⟨hinOrder, hshows.others, hshows.free, w, hshows.new, (Volume.size_new hheap).le,
    congrFun (Volume.record?_new hheap)⟩

/-- A heap file that could not be made was not begun. -/
theorem Ready.create_refused {e : StorageError}
    (hrun : Database.createHeap name s.db = .error (.error e) d') : d' = s.db := by
  obtain ⟨hmirrored, hsound, -⟩ := h.inOrder.sound_mirror h.few name
  have hpins := hmirrored.pin_ne hsound fun hopen => hmirrored.db.files.coherent.ne_next hopen rfl
  have hagrees := Database.agrees_createHeap id hmirrored.db DiskFiles.nextId_mirror h.numbers
    hsound.holds hsound.orderly hpins
  obtain ⟨e', -, ⟨rfl, -⟩ | ⟨-, hexhausted, -⟩⟩ := hagrees.of_error hrun
  · rfl
  · have hlevel : (Command.create name).HeapLevel := trivial
    have hfew : s.handles.length ≤ 1 := by
      rw [hnone]
      exact Nat.zero_le 1
    have hperform : perform (.create name) s = .error (.error e) ⟨d', s.handles⟩ :=
      bind_run_error (onPart_run_error hrun) _
    exact absurd hexhausted (h.ne_exhausted hfew hlevel (step_of_refused hperform))

/-- A file that was removed is shown no more. -/
theorem Ready.destroy_ok (hrun : Database.destroyHeap name s.db = .ok () d') :
    InOrder ⟨d', []⟩ ∧ (∀ other, other ≠ name → d'.shown other = s.db.shown other) ∧
      d'.shown name = none := by
  obtain ⟨hmirrored, hsound, -⟩ := h.inOrder.sound_mirror h.few name
  have hagrees : Agrees False _ _ s.db (s.mirror name).db _ _ :=
    Database.agrees_destroyFile hmirrored.db name
  obtain ⟨e', -, hmirrored', hsettled, hnamed, hopened, -⟩ := hagrees.of_ok hrun
  have hperform : perform (.destroy name) s = .ok .done ⟨d', s.handles⟩ :=
    bind_run_ok (onPart_run_ok hrun) _
  have hlevel : (Command.destroy name).OnHeaps := trivial
  have hinOrder := h.inOrder.step h.few hlevel (step_of_ok hperform) fun _ _ => nofun
  rw [hnone] at hinOrder
  refine ⟨hinOrder, fun other hne => h.shown_eq hnone hsettled hmirrored' ?_ ?_, ?_⟩
  · rw [hopened, h.inOrder.opened_eq_nil hnone]
    rfl
  · rw [hnamed, Table.has_erase, decide_eq_false hne]
    rfl
  · refine Option.eq_none_iff_forall_ne_some.2 fun v hv => ?_
    have hhas := Database.has_of_shown hv
    rw [hnamed, Table.has_erase, decide_eq_true rfl] at hhas
    cases hhas

omit hnone in
/-- A file that could not be removed is still there. -/
theorem Ready.destroy_refused {e : StorageError}
    (hrun : Database.destroyHeap name s.db = .error (.error e) d') : d' = s.db := by
  obtain ⟨hmirrored, -, -⟩ := h.inOrder.sound_mirror h.few name
  have hagrees : Agrees False _ _ s.db (s.mirror name).db _ _ :=
    Database.agrees_destroyFile hmirrored.db name
  obtain ⟨e', -, rfl, -⟩ := hagrees.of_error hrun
  rfl

end Files

end Session

end PagedHeap
