import PagedHeap.Proofs.Heap.Filling
import PagedHeap.Proofs.Session.Accounted
import PagedHeap.Proofs.Session.Reading

/-!
# What successive handles insert

A heap file is made and filled through one handle for inserting after the other, and no record is
taken out (`Session.Filling`).  Whoever scans it then finds what was inserted, and what was inserted
through one handle in the order of its inserts (`Session.Fills`).

It is not always the order of all inserts.  Every handle starts on the first page and goes to the
end of the chain only when a record does not fit there, so that a short record may go to the first
page after a long one went behind it.
-/

namespace PagedHeap

open PagedHeap.Action

open MemoryFiles (law)

namespace Session

variable {capacity : Nat} {s s' : Session MemoryFiles} {name title : String} {heap : HeapFile}
variable {c : Command} {c' : HandleCommand} {reply : Reply} {file : FileId}
variable {batches : List (List (RecordId × Bytes))}

/-- Whoever makes a heap file gets no handle. -/
theorem handles_of_create (hstep : Session.step s (.create title) = .ok (reply, s')) :
    s'.handles = s.handles := by
  have hallows : (perform (.create title)).Allows s (fun _ t => t.handles = s.handles)
      fun _ t => t.handles = s.handles :=
    allows_bind (allows_onPart (.of_cases (fun _ _ _ => rfl) fun _ _ _ => rfl))
      fun _ _ hsame => allows_pure hsame
  rcases run_of_step hstep with hrun | ⟨e, -, hrun⟩
  · exact hallows.of_ok hrun
  · exact hallows.of_error hrun

/-! ## Commands to an inserter -/

/-- The inserter behind a handle, if it is still there, has its page of before, none, or the last
one. -/
def StaysNear (s : Session MemoryFiles) (name : String) (heap : HeapFile)
    (s' : Session MemoryFiles) : Prop :=
  ∀ heap', s'.handles.find? name = some (.inserter heap') → heap'.file = heap.file ∧
    HeapFile.Nearby law ⟨s.db, heap⟩ ⟨s'.db, heap'⟩

theorem staysNear_put {t : HeapState MemoryFiles} (hfile : t.heap.file = heap.file)
    (hnear : HeapFile.Nearby law ⟨s.db, heap⟩ t) :
    StaysNear s name heap ⟨t.db, s.handles.put name (.inserter t.heap)⟩ := by
  intro heap' hfind
  rw [Table.find?_put_self] at hfind
  cases hfind
  exact ⟨hfile, hnear⟩

theorem staysNear_erase (db : Database MemoryFiles) :
    StaysNear s name heap ⟨db, s.handles.erase name⟩ := by
  intro heap' hfind
  rw [Table.find?_erase_self] at hfind
  cases hfind

theorem ensures_tell_inserter {ok : Reply → Session MemoryFiles → Prop}
    {refused : StorageError → Session MemoryFiles → Prop}
    (hfind : s.handles.find? name = some (.inserter heap)) :
    (perform (.tell name c')).Ensures s ok refused ↔
      (onInserter name heap c').Ensures s ok refused := by
  change (tellHandle name c').Ensures s _ _ ↔ _
  unfold tellHandle
  rw [ensures_bind, ensures_get]
  simp only [hfind]

section Inserter

variable (h : s.Sound) (hfind : s.handles.find? name = some (.inserter heap))
include h hfind

/-- An insert adds its record on the current page or on the last one, or it changes no page. -/
theorem ensures_tell_insert (hsmall : s.Small) (record : Bytes) :
    (perform (.tell name (.insert record))).Ensures s
      (fun reply s' => ∃ rid t, reply = .address (some rid) ∧
        HeapFile.Added law (pinsOf (s.handles.erase name)) record ⟨s.db, heap⟩ rid t ∧
        s' = ⟨t.db, s.handles.put name (.inserter t.heap)⟩)
      (fun e s' => ∃ t, StaysAt s name heap t ∧ HeapFile.Nearby law ⟨s.db, heap⟩ t ∧
        s' = ⟨t.db, s.handles.put name (.inserter t.heap)⟩ ∧ (record.length ≤ maxRecordSize →
        (∀ pin, heap.current = some pin →
          (law.volume s.db heap.file.id).IsData pin.key.page) → e = .bufferPoolExhausted)) := by
  obtain ⟨header, hv⟩ := h.hasHeap hfind rfl
  rw [ensures_tell_inserter hfind]
  unfold onInserter
  rw [ensures_bind, ensures_onHeap]
  refine (HeapFile.ensures_insert (h.attached hfind rfl) hv (hsmall _) record).mono ?_ ?_
  · intro rid t hadded
    exact ⟨rid, t, rfl, hadded, rfl⟩
  · rintro e t ⟨hstays, hcause, hnear⟩
    exact ⟨t, hstays, hnear, rfl, hcause⟩

/-- Whatever else an inserter is asked leaves it where it is. -/
theorem ensures_staysNear (hlevel : (Command.tell name c').HeapLevel)
    (hother : ∀ record, c' ≠ .insert record) :
    (perform (.tell name c')).Ensures s (fun _ => StaysNear s name heap)
      fun _ => StaysNear s name heap := by
  have hattached := h.attached hfind rfl
  obtain ⟨header, hv⟩ := h.hasHeap hfind rfl
  have hself : StaysNear s name heap s := by
    intro heap' hfind'
    cases hfind.symm.trans hfind'
    exact ⟨rfl, HeapFile.nearby_of_current rfl⟩
  have hclose : (closeInserter heap).Ensures s.db
      (fun _ db => StaysNear s name heap ⟨db, s.handles.erase name⟩)
      fun _ db => StaysNear s name heap ⟨db, s.handles.erase name⟩ :=
    (Database.ensures_closeInserter hattached h.orderly).mono (fun _ db _ => staysNear_erase db)
      fun _ db _ => staysNear_erase db
  have hheader := HeapFile.ensures_header hattached hv.header
  rw [ensures_tell_inserter hfind]
  unfold onInserter
  split
  · next record => exact absurd rfl (hother record)
  · exact hlevel.elim
  · rw [ensures_bind, ensures_forgetHandle, ensures_bind, ensures_onDatabase]
    exact hclose
  · rw [ensures_bind, ensures_forgetHandle, ensures_bind, ensures_onDatabase]
    exact ensures_quietly.2 hclose
  · unfold onAnyHeap
    split
    · exact hself
    · rw [ensures_bind, ensures_onHeap]
      refine hheader.mono ?_ fun _ _ => False.elim
      rintro _ t ⟨-, rfl⟩
      exact staysNear_put rfl (HeapFile.nearby_of_current rfl)
    · rw [ensures_bind, ensures_onHeap]
      refine hheader.mono ?_ fun _ _ => False.elim
      rintro _ t ⟨-, rfl⟩
      exact staysNear_put rfl (HeapFile.nearby_of_current rfl)
    · exact hself
    · exact hself
    · exact hself

/-- After a command, an inserter that is still there has added a record on its current page, or its
current page is the one of before or the last one. -/
theorem inserter_of_step (hsmall : s.Small) (hlevel : c.HeapLevel)
    (hstep : Session.step s c = .ok (reply, s')) {heap' : HeapFile}
    (hfind' : s'.handles.find? name = some (.inserter heap')) :
    (∃ record rid, c = .tell name (.insert record) ∧
      HeapFile.Added law (pinsOf (s.handles.erase name)) record ⟨s.db, heap⟩ rid ⟨s'.db, heap'⟩) ∨
    HeapFile.Nearby law ⟨s.db, heap⟩ ⟨s'.db, heap'⟩ := by
  by_cases htold : ∃ c', c = .tell name c'
  · obtain ⟨c', rfl⟩ := htold
    by_cases hinsert : ∃ record, c' = .insert record
    · obtain ⟨record, rfl⟩ := hinsert
      rcases of_step (ensures_tell_insert h hfind hsmall record) hstep with
        ⟨rid, t, -, hadded, rfl⟩ | ⟨e, -, t, hstays, hnear, rfl, -⟩
      · have hself : Table.find? (s.handles.put name (.inserter t.heap)) name =
            some (.inserter heap') := hfind'
        rw [Table.find?_put_self] at hself
        cases hself
        exact .inl ⟨record, rid, rfl, hadded⟩
      · exact .inr (staysNear_put hstays.file hnear heap' hfind').2
    · have hstays := ensures_staysNear h hfind hlevel fun record heq => hinsert ⟨record, heq⟩
      rcases of_step hstays hstep with hok | ⟨e, -, hrefused⟩
      · exact .inr (hok heap' hfind').2
      · exact .inr (hrefused heap' hfind').2
  · have hkept := (follows_step h hsmall hlevel hstep).others name _ hfind
      fun c' hc' => htold ⟨c', hc'⟩
    cases hkept.symm.trans hfind'
    exact .inr (HeapFile.nearby_of_current rfl)

end Inserter

/-! ## Filling a heap file -/

/-- The handle is one for inserting into the file. -/
def InsertsInto (s : Session MemoryFiles) (name : String) (file : FileId) : Prop :=
  ∃ heap, s.handles.find? name = some (.inserter heap) ∧ heap.file.id = file

/-- A heap file is made, and then filled through one handle after the other.  The rows that were
inserted through each of the handles are a batch.  In between any commands are answered or refused,
as long as they change no record of the file and open no other handle for inserting into it. -/
inductive Filling (capacity : Nat) (file : FileId) :
    Session MemoryFiles → List (List (RecordId × Bytes)) → Prop
  /-- The heap file is made. -/
  | made {s s' : Session MemoryFiles} {heaps : Set FileId} {title : String} :
      Run capacity s heaps → Session.step s (.create title) = .ok (.done, s') → s'.Small →
      file = ⟨s.db.files.nextId⟩ → Filling capacity file s' []
  /-- A handle is opened for inserting into it, and there is no other one. -/
  | opened {s s' : Session MemoryFiles} {batches : List (List (RecordId × Bytes))}
      {name title : String} : Filling capacity file s batches → (∀ n, ¬s.InsertsInto n file) →
      Session.step s (.openAs name (.heap .insert title)) = .ok (.done, s') → s'.Small →
      s'.InsertsInto name file → Filling capacity file s' (batches ++ [[]])
  /-- A record is inserted. -/
  | inserted {s s' : Session MemoryFiles} {batches : List (List (RecordId × Bytes))}
      {batch : List (RecordId × Bytes)} {name : String} {record : Bytes} {rid : RecordId} :
      Filling capacity file s (batches ++ [batch]) → s.InsertsInto name file →
      Session.step s (.tell name (.insert record)) = .ok (.address (some rid), s') → s'.Small →
      Filling capacity file s' (batches ++ [batch ++ [(rid, record)]])
  /-- Any other command is answered, or it is refused. -/
  | other {s s' : Session MemoryFiles} {batches : List (List (RecordId × Bytes))} {c : Command}
      {reply : Reply} : Filling capacity file s batches → c.HeapLevel →
      Session.step s c = .ok (reply, s') → s'.Small → s'.records file = s.records file →
      (∀ n, s'.InsertsInto n file → s.InsertsInto n file) → Filling capacity file s' batches

/-- Filling a heap file that was made is one way to go on. -/
theorem Filling.run (filling : Filling capacity file s batches) :
    ∃ heaps, Run capacity s heaps ∧ file ∈ heaps := by
  induction filling with
  | @made s s' heaps title run hstep hsmall hfile =>
    have hlevel : (Command.create title).HeapLevel := trivial
    exact ⟨_, run.step hlevel hstep hsmall, .inr ⟨⟨title, rfl⟩, rfl, hfile⟩⟩
  | @opened s s' batches name title _ _ hstep hsmall _ ih =>
    obtain ⟨heaps, run, hmade⟩ := ih
    have hlevel : (Command.openAs name (.heap .insert title)).HeapLevel := trivial
    exact ⟨_, run.step hlevel hstep hsmall, .inl hmade⟩
  | @inserted s s' batches batch name record rid _ _ hstep hsmall ih =>
    obtain ⟨heaps, run, hmade⟩ := ih
    have hlevel : (Command.tell name (.insert record)).HeapLevel := trivial
    exact ⟨_, run.step hlevel hstep hsmall, .inl hmade⟩
  | other _ hlevel hstep hsmall _ _ ih =>
    obtain ⟨heaps, run, hmade⟩ := ih
    exact ⟨_, run.step hlevel hstep hsmall, .inl hmade⟩

/-- The file is filled with the batches, and the only handle for inserting into it can go on with
the last one. -/
structure Fills (file : FileId) (s : Session MemoryFiles)
    (batches : List (List (RecordId × Bytes))) : Prop where
  heap : s.db.HasHeap file
  filled : (law.volume s.db file).Filled batches
  alone : ∀ {name other}, s.InsertsInto name file → s.InsertsInto other file → name = other
  goesOn : ∀ {name heap}, s.handles.find? name = some (.inserter heap) → heap.file.id = file →
    ∃ batch, batches.getLast? = some batch ∧
      ∀ page, heap.currentPage? = some page → (law.volume s.db file).GoesOn batch page

/-- A heap file that was made has no records. -/
theorem fills_made (h : s.Sound) (hsmall : s.Small)
    (hstep : Session.step s (.create title) = .ok (.done, s')) :
    Fills ⟨s.db.files.nextId⟩ s' [] := by
  have hlevel : (Command.create title).HeapLevel := trivial
  have hfollows := follows_step h hsmall hlevel hstep
  have hblank := h.orderly.blank_new
  have hnobody (name : String) : ¬s'.InsertsInto name ⟨s.db.files.nextId⟩ := by
    rintro ⟨heap, hfind, hfile⟩
    rw [handles_of_create hstep] at hfind
    obtain ⟨header, hv⟩ := h.hasHeap hfind rfl
    rw [hfile] at hv
    exact hblank.not_isData hv.isData_last
  refine ⟨hfollows.made title rfl rfl, Volume.filled_nil fun rid => ?_,
    fun hname _ => absurd hname (hnobody _),
    fun hfind hfile => absurd ⟨_, hfind, hfile⟩ (hnobody _)⟩
  have hsame : s'.records = s.records :=
    hfollows.effect.unchanged_records (by simp [Command.Changes])
  have hrecords := congrFun (congrFun hsame ⟨s.db.files.nextId⟩) rid
  exact hrecords.trans (Volume.record?_of_not_isData hblank.not_isData)

section Steps

variable (h : s.Sound) (hsmall : s.Small) (hfills : Fills file s batches)
include h hsmall hfills

/-- A new handle for inserting starts on the first page. -/
theorem Fills.opened (hnobody : ∀ n, ¬s.InsertsInto n file)
    (hstep : Session.step s (.openAs name (.heap .insert title)) = .ok (.done, s'))
    (hinto : s'.InsertsInto name file) : Fills file s' (batches ++ [[]]) := by
  have hlevel : (Command.openAs name (.heap .insert title)).HeapLevel := trivial
  have hfollows := follows_step h hsmall hlevel hstep
  have hsame : s'.records = s.records :=
    hfollows.effect.unchanged_records (by simp [Command.Changes])
  obtain ⟨heap, hhandles, hcurrent, -⟩ := exists_of_openAs h hstep
  have honly {n : String} (hn : s'.InsertsInto n file) : n = name := by
    obtain ⟨heap', hfind, hfile⟩ := hn
    rw [hhandles] at hfind
    rcases Table.find?_put_eq_some.1 hfind with ⟨heq, -⟩ | ⟨-, hold⟩
    · exact heq
    · exact absurd ⟨heap', hold, hfile⟩ (hnobody n)
  refine ⟨hfollows.heaps file hfills.heap, (hfills.filled.congr (congrFun hsame file)).start,
    fun hn hm => (honly hn).trans (honly hm).symm, fun {n heap'} hfind hfile => ?_⟩
  obtain rfl := honly ⟨heap', hfind, hfile⟩
  rw [hhandles, Table.find?_put_self] at hfind
  cases hfind
  refine ⟨[], List.getLast?_concat, fun page hpage => .inl ⟨?_, List.forall_mem_nil _⟩⟩
  exact (Option.some.inj (hcurrent.symm.trans hpage)).symm

/-- Other commands leave the file as it is filled, and the handle where it can go on. -/
theorem Fills.other (hlevel : c.HeapLevel) (hstep : Session.step s c = .ok (reply, s'))
    (hsame : s'.records file = s.records file)
    (hkept : ∀ n, s'.InsertsInto n file → s.InsertsInto n file) : Fills file s' batches := by
  have hfollows := follows_step h hsmall hlevel hstep
  refine ⟨hfollows.heaps file hfills.heap, hfills.filled.congr hsame,
    fun hn hm => hfills.alone (hkept _ hn) (hkept _ hm), fun {n heap'} hfind' hfile' => ?_⟩
  obtain ⟨heap, hfind, hfile⟩ := hkept n ⟨heap', hfind', hfile'⟩
  obtain ⟨batch, hlast, hgoes⟩ := hfills.goesOn hfind hfile
  refine ⟨batch, hlast, fun page hpage => ?_⟩
  rcases inserter_of_step h hfind hsmall hlevel hstep hfind' with
    ⟨record, rid, -, hadded⟩ | hnear
  · -- The record would be one that was not there before.
    have hnew : (law.volume s'.db heap'.file.id).record? rid = some record := by
      refine (congrFun hadded.record? rid).trans ?_
      exact Function.update_self ..
    have hfresh : (law.volume s.db heap.file.id).record? rid = none := hadded.fresh
    rw [hfile'] at hnew
    rw [hfile] at hfresh
    cases hnew.symm.trans ((congrFun hsame rid).trans hfresh)
  rcases hnear page hpage with hbefore | hend
  · exact (hgoes page hbefore).congr hsame
  · have hend' : (law.volume s'.db heap'.file.id).IsLast page := hend
    rw [hfile'] at hend'
    exact Volume.goesOn_last hend'

end Steps

/-- A record goes on with the last batch. -/
theorem Fills.inserted {batch : List (RecordId × Bytes)} {record : Bytes} {rid : RecordId}
    (h : s.Sound) (hsmall : s.Small) (hfills : Fills file s (batches ++ [batch]))
    (hinto : s.InsertsInto name file)
    (hstep : Session.step s (.tell name (.insert record)) = .ok (.address (some rid), s')) :
    Fills file s' (batches ++ [batch ++ [(rid, record)]]) := by
  obtain ⟨heap, hfind, rfl⟩ := id hinto
  have hlevel : (Command.tell name (.insert record)).HeapLevel := trivial
  have hfollows := follows_step h hsmall hlevel hstep
  rcases of_step (ensures_tell_insert h hfind hsmall record) hstep with
    ⟨rid', t, heq, hadded, rfl⟩ | ⟨e, he, -⟩
  swap
  · cases he
  cases heq
  have hvolume : HeapFile.volume law t = law.volume t.db heap.file.id := by
    unfold HeapFile.volume
    rw [hadded.moves.file]
  have hrecord : (law.volume t.db heap.file.id).record? =
      Function.update (law.volume s.db heap.file.id).record? rid (some record) :=
    hvolume ▸ hadded.record?
  obtain ⟨last, hlast, hgoes⟩ := hfills.goesOn hfind rfl
  obtain rfl : batch = last := Option.some.inj (List.getLast?_concat.symm.trans hlast)
  have hplace : (law.volume s.db heap.file.id).GoesOn batch rid.page := by
    rcases hadded.place with ⟨-, hcurrent⟩ | hend
    · exact hgoes _ hcurrent
    · exact Volume.goesOn_of_last hrecord (hvolume ▸ hend)
  have honly {n : String} (hn : InsertsInto ⟨t.db, s.handles.put name (.inserter t.heap)⟩ n
      heap.file.id) : n = name := by
    obtain ⟨heap', hfind', hfile'⟩ := hn
    rcases Table.find?_put_eq_some.1 hfind' with ⟨heq, -⟩ | ⟨-, hold⟩
    · exact heq
    · exact hfills.alone ⟨heap', hold, hfile'⟩ hinto
  refine ⟨hfollows.heaps _ hfills.heap,
    hfills.filled.insert hadded.fresh hplace hadded.below hrecord,
    fun hn hm => (honly hn).trans (honly hm).symm, fun {n heap'} hfind' hfile' => ?_⟩
  obtain rfl := honly ⟨heap', hfind', hfile'⟩
  have hself : Table.find? (s.handles.put n (.inserter t.heap)) n = some (.inserter heap') := hfind'
  rw [Table.find?_put_self] at hself
  cases hself
  refine ⟨_, List.getLast?_concat, fun page hpage => ?_⟩
  obtain rfl := Option.some.inj (hadded.current.symm.trans hpage)
  exact hplace.insert hrecord

/-- Wherever filling leads, the file is filled with the batches. -/
theorem Filling.fills (filling : Filling capacity file s batches) : Fills file s batches := by
  induction filling with
  | made run hstep _ hfile =>
    obtain ⟨hsound, hsmall, -⟩ := run.sound
    exact hfile ▸ fills_made hsound hsmall hstep
  | opened before hnobody hstep _ hinto ih =>
    obtain ⟨heaps, run, -⟩ := before.run
    obtain ⟨hsound, hsmall, -⟩ := run.sound
    exact ih.opened hsound hsmall hnobody hstep hinto
  | inserted before hinto hstep _ ih =>
    obtain ⟨heaps, run, -⟩ := before.run
    obtain ⟨hsound, hsmall, -⟩ := run.sound
    exact ih.inserted hsound hsmall hinto hstep
  | other before hlevel hstep _ hsame hkept ih =>
    obtain ⟨heaps, run, -⟩ := before.run
    obtain ⟨hsound, hsmall, -⟩ := run.sound
    exact ih.other hsound hsmall hlevel hstep hsame hkept

/-! ## Scanning what was inserted -/

/-- A handle has at most two pins. -/
theorem card_pinsOf_le (handles : Table String Handle) :
    (pinsOf handles).card ≤ 2 * handles.length := by
  have hheap (heap : HeapFile) : heap.pins.card ≤ 2 := by
    unfold HeapFile.pins
    rw [Multiset.card_cons]
    cases heap.current with
    | none => exact Nat.le_succ 1
    | some pin => exact Nat.le_refl 2
  refine Table.card_total_le (fun handle => ?_) handles
  cases handle with
  | heap heap | scan scan | inserter heap => exact hheap _
  | file file => exact Nat.zero_le 2
  | page pin => exact Nat.le_succ 1

/-- The pins of the other handles and two more are no more than all handles may have. -/
theorem card_pinsOf_erase_le {handles : Table String Handle} {handle : Handle}
    (hfind : handles.find? name = some handle) :
    (pinsOf (handles.erase name)).card + 2 ≤ 2 * handles.length := by
  have hlength := Table.length_erase_lt hfind
  have hcard := card_pinsOf_le (handles.erase name)
  omega

/-- A run is accounted for. -/
theorem Run.inAccount {heaps : Set FileId} (run : Run capacity s heaps) :
    InAccount MemoryFiles.books capacity s :=
  run.course.inAccount (inAccount_start MemoryFiles.regular_empty rfl capacity)

section Frames

variable (h : s.Sound) (haccount : InAccount MemoryFiles.books capacity s)
  (hfree : s.handles.has name = false) {opened : FileHandle} {db : Database MemoryFiles}
  (hopened : Database.onFiles (FileStore.openFile title) s.db = .ok opened db)
  (hheap : s.db.HasHeap opened.id)
include h haccount hopened hheap

/-- A heap file is opened, and stands on its first page, if there are frames for two pages besides
those that are pinned. -/
theorem exists_openHeap_run (hroom : (keysOf s.handles).toFinset.card + 2 ≤ capacity) :
    ∃ heap db', Database.openHeap title s.db = .ok heap db' ∧
      heap.file = opened ∧ heap.At (some ⟨2⟩) none (some ⟨2⟩) ∧ law.volume db' = law.volume s.db ∧
      db'.files.named = db.files.named := by
  have hopen : (Database.openHeap title).Ensures s.db
      (fun heap db' => heap.file = opened ∧ heap.position = some ⟨2⟩ ∧ heap.record = none ∧
        law.volume db' = law.volume s.db ∧ db'.files.named = db.files.named) Never := by
    refine (Database.ensures_openHeap h.holds h.orderly h.usable title).and_run.mono ?_ ?_
    · rintro heap db' ⟨⟨hsteady, -, -, hposition, hrecord, db₁, hfile, hnamed⟩, -⟩
      cases hfile.symm.trans hopened
      exact ⟨rfl, hposition, hrecord, hsteady.volume, hnamed⟩
    · -- the pages of the handles and one more cannot take all frames
      rintro e db' ⟨⟨-, hcause⟩, hrun⟩
      obtain ⟨he, -⟩ := hcause opened db hopened hheap
      have hfull := ((Database.allows_openHeap haccount.accounts title).of_error hrun).1 he
      omega
  obtain ⟨heap, db', hrun, hfile, hposition, hrecord, hsame⟩ := hopen.exists_ok
  have hcurrent := (Database.allows_openHeap_current title).of_ok hrun
  exact ⟨heap, db', hrun, hfile, ⟨hposition, hrecord, hcurrent.trans hposition⟩, hsame⟩

include hfree

theorem exists_openHeap_of_frames (hroom : (keysOf s.handles).toFinset.card + 2 ≤ capacity)
    (use : HeapUse) : ∃ heap db', Session.step s (.openAs name (.heap use title)) =
        .ok (.done, ⟨db', s.handles.put name (handleOf heap use)⟩) ∧
      heap.file = opened ∧ heap.At (some ⟨2⟩) none (some ⟨2⟩) ∧ law.volume db' = law.volume s.db ∧
      db'.files.named = db.files.named := by
  obtain ⟨heap, db', hrun, hpost⟩ := exists_openHeap_run h haccount hopened hheap hroom
  exact ⟨heap, db', step_of_ok (perform_openAs hfree hrun use), hpost⟩

/-- A heap file is opened if there are frames for one more handle. -/
theorem exists_openHeap_of_length (hroom : 2 * s.handles.length + 2 ≤ capacity) (use : HeapUse) :
    ∃ heap db', Session.step s (.openAs name (.heap use title)) =
        .ok (.done, ⟨db', s.handles.put name (handleOf heap use)⟩) ∧
      heap.file = opened ∧ heap.At (some ⟨2⟩) none (some ⟨2⟩) ∧ law.volume db' = law.volume s.db ∧
      db'.files.named = db.files.named := by
  have hcard := card_keysOf_le s.handles
  exact exists_openHeap_of_frames h haccount hfree hopened hheap (by omega) use

end Frames

/-- If there are frames for all handles, there is room for the pages of each of them. -/
theorem roomy_of_length (h : s.Sound) (haccount : InAccount MemoryFiles.books capacity s)
    {handle : Handle} (hfind : s.handles.find? name = some handle)
    (hheap : handle.heap? = some heap)
    (hroom : 2 * s.handles.length ≤ capacity) :
    HeapFile.Roomy law (pinsOf (s.handles.erase name)) ⟨s.db, heap⟩ := by
  refine ⟨h.attached hfind hheap, haccount.accounts.tracked, ?_⟩
  rw [haccount.accounts.capacity]
  exact (card_pinsOf_erase_le hfind).trans hroom

/-- A session with frames for one more handle presents the pages of a heap file. -/
theorem Sound.presents (h : s.Sound) (hsmall : s.Small)
    (haccount : InAccount MemoryFiles.books capacity s) {opened : FileHandle}
    {db : Database MemoryFiles}
    (hopened : Database.onFiles (FileStore.openFile title) s.db = .ok opened db)
    {header : HeapHeader} (hv : (law.volume s.db opened.id).IsHeap header)
    (hroom : 2 * s.handles.length + 2 ≤ capacity) :
    s.Presents title header (law.volume s.db opened.id) := by
  intro handle hfree
  obtain ⟨heap, db', hstep, hfile, hat, hvolume, -⟩ :=
    exists_openHeap_of_length h haccount hfree hopened ⟨header, hv⟩ hroom .scan
  have hlevel : (Command.openAs handle (.heap .scan title)).HeapLevel := trivial
  have hsound' := (follows_step h hsmall hlevel hstep).sound
  have hfind : (s.handles.put handle (handleOf heap .scan)).find? handle =
      some (.scan (Scan.start heap)) := Table.find?_put_self ..
  have hlength := Table.length_put_le s.handles handle (handleOf heap .scan)
  have hroom' : 2 * (s.handles.put handle (handleOf heap .scan)).length ≤ capacity := by omega
  have hroomy := roomy_of_length hsound' (haccount.step hlevel hstep).1 hfind rfl hroom'
  refine ⟨_, hstep, ?_⟩
  rw [← hvolume, ← hfile] at hv ⊢
  exact hsound'.tells hfind hroomy hv hat.position hat.record

/-- A file that has a name is opened under its number, unless it is open under another one. -/
theorem exists_openFile (haccount : InAccount MemoryFiles.books capacity s) {file : FileHandle}
    (hnamed : s.db.files.named.find? file.name = some file.id)
    (hheld : ∀ other ∈ heldFiles s.handles, other.name = file.name → other = file) :
    ∃ db, Database.onFiles (FileStore.openFile file.name) s.db = .ok file db ∧
      db.files.named = s.db.files.named := by
  obtain ⟨-, hvalid⟩ := haccount.accounts.valid.named hnamed
  cases hfind : s.db.files.opened.find? file.name with
  | none => exact ⟨_, onPart_run_ok (MemoryFiles.openFile_eq hvalid hfind hnamed), rfl⟩
  | some entry =>
    obtain ⟨hname, hpos, hcount⟩ := haccount.accounts.tallies.counted hfind
    rw [hcount, Multiset.count_pos] at hpos
    obtain rfl := hheld _ hpos hname
    exact ⟨_, onPart_run_ok (MemoryFiles.openFile_of_open hvalid hfind), rfl⟩

end Session

end PagedHeap
