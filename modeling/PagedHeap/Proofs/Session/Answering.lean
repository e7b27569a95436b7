import PagedHeap.Proofs.Session.Packing

/-!
# Commands that are answered

A command that can be refused only for want of a frame is answered while the handles leave frames
enough (`Session.Hosts.exists_answer`).  So what is asked of scans and of handles for inserting can
be carried out one after the other, and a scan that goes on and on finds all records that are due
(`Session.Hosts.exists_goes`).

What such a sequence of commands leads to is told by the pages of one file (`Session.Hosts`) and by
what its scans have still to find (`Session.Awaits`).  A scan that cannot go on because the other
handles hold the frames is sent back to the start of its page (`Session.Hosts.exists_restart`).
-/

namespace PagedHeap

open PagedHeap.Action

open MemoryFiles (law)

namespace Session

variable {capacity : Nat} {s s' : Session MemoryFiles} {heaps : Set FileId} {c : Command}
variable {reply : Reply} {name title : String} {handle : Handle} {heap : HeapFile} {scan : Scan}
variable {file : FileHandle} {header : HeapHeader} {v w : Volume}

/-! ## A file on the way -/

/-- Commands led to a session in memory, in which a heap file has a name and these pages. -/
structure Hosts (capacity : Nat) (file : FileHandle) (v : Volume) (s : Session MemoryFiles) :
    Prop where
  run : ∃ heaps, Run capacity s heaps
  volume : law.volume s.db file.id = v
  heap : ∃ header, v.IsHeap header
  named : s.db.files.named.find? file.name = some file.id

/-- The names of the files are as before, and so are the pages of all files but one. -/
structure KeepsOthers (file : FileId) (s s' : Session MemoryFiles) : Prop where
  volume : ∀ other, other ≠ file → law.volume s'.db other = law.volume s.db other
  named : s'.db.files.named = s.db.files.named

/-- The names and the pages of all files are as before. -/
structure KeepsFiles (s s' : Session MemoryFiles) : Prop where
  volume : law.volume s'.db = law.volume s.db
  named : s'.db.files.named = s.db.files.named

theorem KeepsFiles.keepsOthers (h : KeepsFiles s s') (file : FileId) : KeepsOthers file s s' :=
  ⟨fun _ _ => by rw [h.volume], h.named⟩

theorem KeepsOthers.trans {t : Session MemoryFiles} {file : FileId} (h : KeepsOthers file s s')
    (h' : KeepsOthers file s' t) : KeepsOthers file s t :=
  ⟨fun other hother => (h'.volume other hother).trans (h.volume other hother),
    h'.named.trans h.named⟩

/-- What leaves all pages as they are keeps the files. -/
theorem keepsFiles_of_stays {t : HeapState MemoryFiles} (hstays : StaysAt s name heap t)
    (handles : Table String Handle) : KeepsFiles s ⟨t.db, handles⟩ :=
  ⟨PageStore.Reliable.volume_of_same hstays.same, hstays.same.alike.named⟩

/-- What changes one file keeps the others. -/
theorem keepsOthers_of_moves {t : HeapState MemoryFiles} {rest : Multiset Pin}
    (hmoves : HeapFile.Moves law rest ⟨s.db, heap⟩ t) (handles : Table String Handle) :
    KeepsOthers heap.file.id s ⟨t.db, handles⟩ :=
  ⟨fun other hother => hmoves.only.others other hother, hmoves.only.akin.named⟩

namespace Hosts

variable (h : Hosts capacity file v s)
include h

theorem sound : s.Sound := by
  obtain ⟨heaps, run⟩ := h.run
  exact run.sound.1

theorem small : s.Small := by
  obtain ⟨heaps, run⟩ := h.run
  exact run.sound.2.1

theorem inAccount : InAccount MemoryFiles.books capacity s := by
  obtain ⟨heaps, run⟩ := h.run
  exact run.inAccount

theorem hasHeap : s.db.HasHeap file.id := by
  obtain ⟨header, hv⟩ := h.heap
  exact ⟨header, h.volume ▸ hv⟩

/-- Commands that change another file only have been carried out. -/
theorem other (hrun : ∃ heaps, Run capacity s' heaps) {changed : FileId}
    (hkeeps : KeepsOthers changed s s') (hother : file.id ≠ changed) : Hosts capacity file v s' :=
  ⟨hrun, (hkeeps.volume _ hother).trans h.volume, h.heap, hkeeps.named ▸ h.named⟩

/-- A command that changes no page is carried out. -/
theorem keepAll (hlevel : c.HeapLevel) (hstep : Session.step s c = .ok (reply, s'))
    (hkeeps : KeepsFiles s s') : Hosts capacity file v s' := by
  obtain ⟨heaps, run⟩ := h.run
  have hsmall : s'.Small := fun other => by rw [hkeeps.volume]; exact h.small other
  exact ⟨⟨_, run.step hlevel hstep hsmall⟩, by rw [hkeeps.volume, h.volume], h.heap,
    hkeeps.named ▸ h.named⟩

/-- A command that changes no other file leaves few pages if the file has few pages then. -/
theorem small_of_keeps (hkeeps : KeepsOthers file.id s s')
    (hsize : (law.volume s'.db file.id).size ≤ 2 ^ 16) : s'.Small := by
  intro other
  by_cases hother : other = file.id
  · exact hother ▸ Volume.small_of_size hsize
  · rw [hkeeps.volume other hother]
    exact h.small other

/-- A command that changes the pages of the file is carried out. -/
theorem change (hlevel : c.HeapLevel) (hstep : Session.step s c = .ok (reply, s'))
    (hkeeps : KeepsOthers file.id s s') (hv : (law.volume s'.db file.id).IsHeap header)
    (hsize : (law.volume s'.db file.id).size ≤ 2 ^ 16) :
    Hosts capacity file (law.volume s'.db file.id) s' := by
  obtain ⟨heaps, run⟩ := h.run
  exact ⟨⟨_, run.step hlevel hstep (h.small_of_keeps hkeeps hsize)⟩, rfl, ⟨header, hv⟩,
    hkeeps.named ▸ h.named⟩

/-! ## What frames are enough for -/

/-- What can be refused only for want of a frame is answered if there are frames for all handles and
one more pin. -/
theorem exists_answer (hlevel : c.HeapLevel) (hcan : s.CanRun c)
    (hroom : 2 * s.handles.length + 1 < capacity) {ok : Reply → Session MemoryFiles → Prop}
    {refused : StorageError → Session MemoryFiles → Prop}
    (hensures : (perform c).Ensures s ok refused)
    (hcause : ∀ e t, refused e t → e = .bufferPoolExhausted) :
    ∃ reply s', Session.step s c = .ok (reply, s') ∧ ok reply s' := by
  obtain ⟨reply, s', hstep⟩ := exists_step h.sound h.small hlevel hcan
  refine ⟨reply, s', hstep, (of_step hensures hstep).resolve_right ?_⟩
  rintro ⟨e, rfl, hrefused⟩
  have hfull := ((h.inAccount.step hlevel hstep).2 e rfl).2 (hcause e s' hrefused)
  omega

/-- The file is opened if there are frames for two pages besides those that are pinned. -/
theorem exists_open (name : String) (hfree : s.handles.has name = false)
    (hunder : ∀ entry ∈ s.handles, ∀ heap, entry.2.heap? = some heap →
      heap.file.name = file.name → heap.file = file)
    (hroom : (keysOf s.handles).toFinset.card + 2 ≤ capacity) (use : HeapUse) :
    ∃ heap db, Session.step s (.openAs name (.heap use file.name)) =
        .ok (.done, ⟨db, s.handles.put name (handleOf heap use)⟩) ∧
      heap.file = file ∧ heap.At (some ⟨2⟩) none (some ⟨2⟩) ∧
      KeepsFiles s ⟨db, s.handles.put name (handleOf heap use)⟩ := by
  have hheld (other : FileHandle) (hother : other ∈ heldFiles s.handles)
      (hname : other.name = file.name) : other = file := by
    obtain ⟨name, handle, heap, hfind, hheap, rfl⟩ :=
      exists_of_mem_heldFiles h.sound.distinct hother
    exact hunder _ (Table.mem_of_find? hfind) heap hheap hname
  obtain ⟨db, hopened, hnamed⟩ := exists_openFile h.inAccount h.named hheld
  obtain ⟨heap, db', hstep, hfile, hat, hvolume, hsame⟩ := exists_openHeap_of_frames h.sound
    h.inAccount hfree hopened h.hasHeap hroom use
  exact ⟨heap, db', hstep, hfile, hat, hvolume, hsame.trans hnamed⟩

end Hosts

/-! ## Scans -/

/-- A scan without a filter stands in a file, and these are the records that it has still to
find. -/
structure Awaits (file : FileHandle) (v : Volume) (scan : Scan) (rids : List RecordId) : Prop where
  file : scan.heap.file = file
  filter : scan.filter = none
  within : scan.heap.Within v
  due : scan.heap.due v none = rids

/-- A scan that was opened awaits all records of its file. -/
theorem awaits_start {v : Volume} (hfile : heap.file = file)
    (hat : heap.At (some ⟨2⟩) none (some ⟨2⟩)) (hv : v.IsHeap header) :
    Awaits file v (Scan.start heap) (v.rows.map Prod.fst) := by
  refine ⟨hfile, rfl, .page hat.position hv.isData_two fun rid hrid => ?_, ?_⟩
  · cases hat.record.symm.trans hrid
  · rw [HeapFile.due_none hv, List.filter_eq_self]
    intro rid hrid
    rw [hv.map_fst_rows] at hrid
    obtain ⟨bytes, hbytes⟩ := Option.isSome_iff_exists.1 (hv.mem_listing.1 hrid)
    exact decide_eq_true
      (HeapFile.ahead_of_start hat.position hat.record (Volume.isData_of_record? hbytes))

/-- A scan that stands on an address awaits the records behind it. -/
theorem awaits_of_at {rid : RecordId} {page : Option PageId} (hfile : scan.heap.file = file)
    (hfilter : scan.filter = none) (hat : scan.heap.At (some rid.page) (some rid) page)
    (hv : v.IsHeap header) (hdata : v.IsData rid.page) :
    Awaits file v scan ((v.rows.map Prod.fst).filter rid.Before) := by
  refine ⟨hfile, hfilter, .page hat.position hdata fun other hother => ?_, ?_⟩
  · cases hat.record.symm.trans hother
    rfl
  · rw [HeapFile.due_none hv]
    exact List.filter_congr fun other _ =>
      decide_eq_decide.2 (HeapFile.ahead_of_record hat.position hat.record)

/-- A scan answers the first record that it has still to find, or is refused. -/
theorem ensures_next_due (h : s.Sound) (hfind : s.handles.find? name = some (.scan scan))
    (hv : (law.volume s.db scan.heap.file.id).IsHeap header)
    (hwithin : scan.heap.Within (law.volume s.db scan.heap.file.id)) :
    (perform (.tell name .next)).Ensures s
      (fun reply s' => ∃ t, StaysAt s name scan.heap t ∧
        s' = ⟨t.db, s.handles.put name (.scan { scan with heap := t.heap })⟩ ∧
        t.heap.Within (law.volume s.db scan.heap.file.id) ∧
        reply = .address (scan.heap.due (law.volume s.db scan.heap.file.id) scan.filter).head? ∧
        t.heap.due (law.volume s.db scan.heap.file.id) scan.filter =
          (scan.heap.due (law.volume s.db scan.heap.file.id) scan.filter).tail ∧
        ∀ rid, (scan.heap.due (law.volume s.db scan.heap.file.id) scan.filter).head? = some rid →
          t.heap.At (some rid.page) (some rid) (some rid.page))
      (fun e s' => ∃ t, StaysAt s name scan.heap t ∧
        s' = ⟨t.db, s.handles.put name (.scan { scan with heap := t.heap })⟩ ∧
        ∃ first, scan.heap.position = some first ∧
          HeapFile.Stuck law scan.filter ⟨s.db, scan.heap⟩ first e t) := by
  rw [ensures_tell hfind]
  unfold onScan
  dsimp only
  rw [ensures_bind, ensures_onHeap]
  refine (HeapFile.ensures_scanNext_due scan.filter (h.attached hfind rfl) hv hwithin).mono ?_ ?_
  · rintro found t ⟨hstays, hwithin', rfl, hdue, hat⟩
    exact ⟨t, hstays, rfl, hwithin', rfl, hdue, hat⟩
  · rintro e t ⟨hstays, hstuck⟩
    exact ⟨t, hstays, rfl, hstuck⟩

/-- A scan is marked where it is. -/
theorem step_mark (hfind : s.handles.find? name = some (.scan scan)) :
    Session.step s (.tell name .mark) =
      .ok (.done, ⟨s.db, s.handles.put name (.scan { scan with mark := some scan.heap.mark })⟩) :=
  step_of_ok (Ensures.run_eq ((ensures_tell hfind).2 ⟨rfl, rfl⟩))

namespace Hosts

variable (h : Hosts capacity file v s) (hfind : s.handles.find? name = some (.scan scan))
include h hfind

/-- A scan goes on to the first record that it awaits. -/
theorem exists_next {rids : List RecordId} (hawaits : Awaits file v scan rids)
    (hroom : 2 * s.handles.length + 1 < capacity) :
    ∃ t : HeapState MemoryFiles, Session.step s (.tell name .next) = .ok (.address rids.head?,
        ⟨t.db, s.handles.put name (.scan { scan with heap := t.heap })⟩) ∧
      KeepsFiles s ⟨t.db, s.handles.put name (.scan { scan with heap := t.heap })⟩ ∧
      Awaits file v { scan with heap := t.heap } rids.tail ∧
      ∀ rid, rids.head? = some rid → t.heap.At (some rid.page) (some rid) (some rid.page) := by
  obtain ⟨heap, filter, mark⟩ := scan
  obtain ⟨rfl, hfilter, hwithin, rfl⟩ := hawaits
  obtain rfl : filter = none := hfilter
  obtain ⟨header, hv⟩ := h.heap
  obtain rfl := h.volume
  have hlevel : (Command.tell name .next).HeapLevel := trivial
  have hensures := ensures_next_due h.sound hfind hv hwithin
  obtain ⟨_, _, hstep, t, hstays, rfl, hwithin', rfl, hdue, hat⟩ :=
    h.exists_answer hlevel trivial hroom hensures fun e s' hrefused => by
      obtain ⟨t, -, -, first, hfirst, hstuck⟩ := hrefused
      exact (hstuck.kept (h.sound.attached hfind rfl) hv hwithin hfirst).1
  exact ⟨t, hstep, keepsFiles_of_stays hstays _, ⟨hstays.file, rfl, hwithin', hdue⟩, hat⟩

/-- The record on which a scan stands is deleted. -/
theorem exists_delete {rid : RecordId} (hfile : scan.heap.file = file)
    (hat : scan.heap.At (some rid.page) (some rid) (some rid.page))
    (hlive : v.record? rid ≠ none) (hsize : v.size ≤ 2 ^ 16) :
    ∃ t : HeapState MemoryFiles, ∃ w, Session.step s (.tell name .delete) = .ok (.done,
        ⟨t.db, s.handles.put name (.scan { scan with heap := t.heap })⟩) ∧
      KeepsOthers file.id s ⟨t.db, s.handles.put name (.scan { scan with heap := t.heap })⟩ ∧
      Hosts capacity file w ⟨t.db, s.handles.put name (.scan { scan with heap := t.heap })⟩ ∧
      w.record? = Function.update v.record? rid none ∧ w.size = v.size ∧
      t.heap.file = file ∧ t.heap.position = some rid.page ∧ t.heap.record = some rid := by
  obtain ⟨header, hv⟩ := h.heap
  obtain rfl := hfile
  obtain rfl := h.volume
  have hdelete : (perform (.tell name .delete)).Ensures s
      (fun reply s' => reply = .done ∧ ∃ t : HeapState MemoryFiles,
        s' = ⟨t.db, s.handles.put name (.scan { scan with heap := t.heap })⟩ ∧
        HeapFile.Moves law (pinsOf (s.handles.erase name)) ⟨s.db, scan.heap⟩ t ∧
        HeapFile.SamePlace ⟨s.db, scan.heap⟩ t ∧ (HeapFile.volume law t).record? =
          Function.update (law.volume s.db scan.heap.file.id).record? rid none ∧
        (HeapFile.volume law t).size = (law.volume s.db scan.heap.file.id).size) Never := by
    rw [ensures_tell hfind]
    unfold onScan
    dsimp only
    rw [ensures_bind, ensures_onHeap]
    refine (HeapFile.ensures_deleteCurrent (h.sound.attached hfind rfl) hv).mono ?_ ?_
    · rintro _ t ⟨hmoves, hplace, rid', hrid, -, hrecord, hsame⟩
      cases hat.record.symm.trans hrid
      exact ⟨rfl, t, rfl, hmoves, hplace, hrecord, hsame⟩
    · rintro e t ⟨-, -, hgone⟩
      exact hlive (hgone rid hat.record hat.page)
  obtain ⟨_, _, hrun, rfl, t, rfl, hmoves, hplace, hrecord, hsame⟩ := hdelete.exists_ok
  have hlevel : (Command.tell name .delete).HeapLevel := trivial
  have hstep := step_of_ok hrun
  have hkeeps := keepsOthers_of_moves hmoves
    (s.handles.put name (.scan { scan with heap := t.heap }))
  obtain ⟨header', hv'⟩ := hmoves.heap
  have hvolume : HeapFile.volume law t = law.volume t.db scan.heap.file.id := by
    unfold HeapFile.volume
    rw [hmoves.file]
  rw [hvolume] at hv' hrecord hsame
  exact ⟨t, _, hstep, hkeeps, h.change hlevel hstep hkeeps hv' (hsame ▸ hsize), hrecord, hsame,
    hmoves.file, hplace.position.trans hat.position, hplace.record.trans hat.record⟩

/-- A scan goes back to a mark on a page of its file. -/
theorem exists_reset {m : ScanMark} {page : PageId} (hfile : scan.heap.file = file)
    (hmark : scan.mark = some m) (hposition : m.position = some page) (hdata : v.IsData page)
    (hroom : 2 * s.handles.length + 1 < capacity) :
    ∃ t : HeapState MemoryFiles, Session.step s (.tell name .reset) = .ok (.done,
        ⟨t.db, s.handles.put name (.scan { scan with heap := t.heap })⟩) ∧
      KeepsFiles s ⟨t.db, s.handles.put name (.scan { scan with heap := t.heap })⟩ ∧
      t.heap.file = file ∧ t.heap.At (some page) m.record (some page) := by
  obtain rfl := hfile
  obtain rfl := h.volume
  have hattached := h.sound.attached hfind rfl
  have hreset : (perform (.tell name .reset)).Ensures s
      (fun reply s' => reply = .done ∧ ∃ t : HeapState MemoryFiles, StaysAt s name scan.heap t ∧
        s' = ⟨t.db, s.handles.put name (.scan { scan with heap := t.heap })⟩ ∧
        t.heap.At (some page) m.record (some page))
      (fun e _ => e = .bufferPoolExhausted) := by
    rw [ensures_tell hfind]
    unfold onScan
    dsimp only
    rw [ensures_bind, ensures_onHeap]
    refine (HeapFile.ensures_resetTo hattached scan.mark).mono ?_ ?_
    · rintro _ t ⟨hstays, m', hm', hat⟩
      cases hmark.symm.trans hm'
      rw [hposition] at hat
      exact ⟨rfl, t, hstays, rfl, hat⟩
    · rintro e t ⟨-, ⟨hnone, -⟩ | ⟨m', page', hm', hpage', hrun, -⟩⟩
      · cases hmark.symm.trans hnone
      · cases hmark.symm.trans hm'
        cases hposition.symm.trans hpage'
        exact ((HeapFile.ensures_switchTo_at hattached page).of_error hrun).2.1 hdata.has
  have hlevel : (Command.tell name .reset).HeapLevel := trivial
  obtain ⟨_, _, hstep, rfl, t, hstays, rfl, hat⟩ :=
    h.exists_answer hlevel trivial hroom hreset fun _ _ => id
  exact ⟨t, hstep, keepsFiles_of_stays hstays _, hstays.file, hat⟩

end Hosts

/-- A scan goes on again and again, and these are its answers. -/
inductive Goes (name : String) :
    Session MemoryFiles → List (Option RecordId) → Session MemoryFiles → Prop
  /-- It does not go on any more. -/
  | start {s : Session MemoryFiles} : Goes name s [] s
  /-- It goes on to a record or to the end first. -/
  | next {s s' t : Session MemoryFiles} {found : Option RecordId}
      {answers : List (Option RecordId)} :
      Session.step s (.tell name .next) = .ok (.address found, s') → s'.Small →
      Goes name s' answers t → Goes name s (found :: answers) t

/-- A scan goes on to all records that it awaits, and then to the end of the file. -/
theorem Hosts.exists_goes {rids : List RecordId} (h : Hosts capacity file v s)
    (hfind : s.handles.find? name = some (.scan scan)) (hawaits : Awaits file v scan rids)
    (hroom : 2 * s.handles.length + 1 < capacity) :
    ∃ t, Goes name s (rids.map some ++ [none]) t ∧ KeepsFiles s t := by
  have hlevel : (Command.tell name .next).HeapLevel := trivial
  induction rids generalizing s scan with
  | nil =>
    obtain ⟨t, hstep, hkeeps, -⟩ := h.exists_next hfind hawaits hroom
    exact ⟨_, .next hstep (h.keepAll hlevel hstep hkeeps).small .start, hkeeps⟩
  | cons rid rids ih =>
    obtain ⟨t, hstep, hkeeps, hawaits', -⟩ := h.exists_next hfind hawaits hroom
    have h' := h.keepAll hlevel hstep hkeeps
    obtain ⟨u, hgoes, hkeeps'⟩ := ih h' (Table.find?_put_self _ _ _) hawaits'
      (by rwa [Table.length_put_of_find? hfind])
    refine ⟨u, .next hstep h'.small hgoes, ?_, hkeeps'.named.trans hkeeps.named⟩
    exact hkeeps'.volume.trans hkeeps.volume

/-- A scan that goes on and on is on its way. -/
theorem Goes.exists_scanning {answers : List (Option RecordId)} {s₀ s t : Session MemoryFiles}
    {visited : List (Session MemoryFiles)} {rids : List RecordId} (goes : Goes name s answers t)
    (scanning : Scanning name s₀ s visited rids) :
    ∃ visited', Scanning name s₀ t visited' (rids ++ answers.filterMap id) := by
  induction goes generalizing visited rids with
  | start => exact ⟨visited, by rwa [List.filterMap_nil, List.append_nil]⟩
  | @next s s' t found answers hstep hsmall _ ih =>
    cases found with
    | none =>
      exact ih (scanning.ended hstep hsmall)
    | some rid =>
      have hfound := ih (scanning.found hstep hsmall)
      rwa [List.append_assoc] at hfound

/-! ## A scan that is sent back -/

/-- A scan at the start of a page awaits the records of this page and of those behind it. -/
theorem awaits_of_page {page : PageId} {pinned : Option PageId} (hfile : scan.heap.file = file)
    (hfilter : scan.filter = none) (hat : scan.heap.At (some page) none pinned)
    (hv : v.IsHeap header) (hdata : v.IsData page) :
    Awaits file v scan
      ((v.rows.map Prod.fst).filter fun rid => page.val.toNat ≤ rid.page.val.toNat) := by
  refine ⟨hfile, hfilter, .page hat.position hdata fun other hother => ?_, ?_⟩
  · cases hat.record.symm.trans hother
  · rw [HeapFile.due_none hv]
    exact List.filter_congr fun other _ =>
      decide_eq_decide.2 (HeapFile.ahead_of_page hat.position hat.record)

/-- A heap file that stands on a page has pinned this page and the header page. -/
theorem Sound.keys_eq (h : s.Sound) (hfind : s.handles.find? name = some handle)
    (hheap : handle.heap? = some heap) {page : PageId} (hcurrent : heap.currentPage? = some page) :
    heap.keys = {⟨heap.file.id, ⟨1⟩⟩, ⟨heap.file.id, page⟩} := by
  have hattached := h.attached hfind hheap
  obtain ⟨pin, hpin, rfl⟩ := Option.map_eq_some_iff.1 hcurrent
  have hkey : pin.key = ⟨heap.file.id, pin.key.page⟩ := by
    rw [← hattached.currentFile pin hpin]
  unfold HeapFile.keys
  rw [hattached.headerKey, hpin, ← hkey]
  rfl

/-- The pages that the handles have pinned all have their frames. -/
theorem InAccount.card_keysOf_le_capacity (h : InAccount MemoryFiles.books capacity s)
    (hsmall : s.Small) : (keysOf s.handles).toFinset.card ≤ capacity := by
  rw [← h.pinnedPages_eq hsmall.numbered]
  exact (Pool.pinnedPages_le_size _).trans h.accounts.bounded

/-- A scan that has found the last record of its page is refused the next page, if the pages of the
other handles, the header page and that page do not have frames all together.  Then it is sent back
to the start of its page. -/
theorem Hosts.exists_restart {rid next : RecordId} {rids : List RecordId}
    (h : Hosts capacity file v s) (hfind : s.handles.find? name = some (.scan scan))
    (hawaits : Awaits file v scan (next :: rids))
    (hat : scan.heap.At (some rid.page) (some rid) (some rid.page))
    (hnext : next.page.val.toNat = rid.page.val.toNat + 1)
    (hfull : capacity < ({⟨file.id, ⟨1⟩⟩, ⟨file.id, next.page⟩} +
      keysOf (s.handles.erase name)).toFinset.card) :
    ∃ t : HeapState MemoryFiles, Session.step s (.tell name .next) =
        .ok (.failed .bufferPoolExhausted,
          ⟨t.db, s.handles.put name (.scan { scan with heap := t.heap })⟩) ∧
      KeepsFiles s ⟨t.db, s.handles.put name (.scan { scan with heap := t.heap })⟩ ∧
      t.heap.file = file ∧ t.heap.At (some rid.page) none none := by
  obtain ⟨heap, filter, mark⟩ := scan
  obtain ⟨rfl, hfilter, hwithin, hdue⟩ := hawaits
  obtain rfl : filter = none := hfilter
  obtain ⟨header, hv⟩ := h.heap
  obtain rfl := h.volume
  have hlevel : (Command.tell name .next).HeapLevel := trivial
  obtain ⟨reply, s', hstep⟩ := exists_step h.sound h.small hlevel trivial
  rcases of_step (ensures_next_due h.sound hfind hv hwithin) hstep with
    ⟨t, hstays, rfl, -, -, -, hat'⟩ | ⟨e, rfl, t, hstays, rfl, first, hfirst, hstuck⟩
  · -- the scan would be on the next page, and all pages would have their frames
    exfalso
    have h' := h.keepAll hlevel hstep (keepsFiles_of_stays hstays _)
    have hfound : (heap.due (law.volume s.db heap.file.id) none).head? = some next := by
      rw [hdue]
      rfl
    have hkeys := h'.sound.keys_eq (Table.find?_put_self _ _ _) rfl (hat' next hfound).page
    have hframes := h'.inAccount.card_keysOf_le_capacity h'.small
    rw [keysOf_put h.sound.distinct name rfl, hkeys, hstays.file] at hframes
    exact Nat.not_lt.2 hframes hfull
  · cases hat.position.symm.trans hfirst
    have hahead : next ∈ heap.due (law.volume s.db heap.file.id) none := by
      rw [hdue]
      exact List.mem_cons_self ..
    obtain ⟨⟨page, hpage, hahead⟩, hpass⟩ := hv.mem_hits.1 hahead
    cases hpage.symm.trans hat.position
    obtain ⟨hcause, -⟩ := hstuck.kept (h.sound.attached hfind rfl) hv hwithin hat.position
    have hdata : (HeapFile.volume law ⟨s.db, heap⟩).IsData rid.page := by
      cases hwithin with
      | page position data => exact Option.some.inj (position.symm.trans hat.position) ▸ data
      | ended position => cases position.symm.trans hat.position
    exact ⟨t, hcause ▸ hstep, keepsFiles_of_stays hstays _, hstays.file,
      hstuck.at_start hat.page hdata hahead hpass hnext⟩

end Session

end PagedHeap
