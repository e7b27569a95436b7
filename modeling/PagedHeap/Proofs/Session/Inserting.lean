import PagedHeap.Proofs.Heap.Attempts
import PagedHeap.Proofs.Session.Stocking

/-!
# Inserting with other handles open

Whatever other handles have done, an insert is answered (`Session.Run.insert_ends`).  A record that
is too long is refused.  Any other record is stored, or there is no frame for the page that it
should go to; and there is one as soon as two frames of the pool are free of pins.  An insert that
is refused has changed no page and leaves the handle ready for the next insert.

The loop over the pages that an insert tries is described in `HeapFile.Trying`.  It starts on a data
page, because no handle for inserting ever goes to the header page
(`Session.Run.inserter_ne_header`).
-/

namespace PagedHeap

open PagedHeap.Action

open MemoryFiles (law)

/-- Whether a handle is one for inserting. -/
def Handle.inserts : Handle → Bool
  | .inserter _ => true
  | _ => false

namespace Session

/-! ## Which handles are for inserting -/

section Inserters

variable {σ α : Type} {s t : Session σ} {name other : String} {handle new : Handle}
variable {heap : HeapFile} {wrap : HeapFile → Handle}

/-- The handle is open for inserting. -/
def Inserts (s : Session σ) (name : String) : Prop :=
  (s.handles.find? name).any Handle.inserts = true

theorem inserts_iff : s.Inserts name ↔ ∃ heap, s.handles.find? name = some (.inserter heap) := by
  unfold Inserts
  rw [Option.any_eq_true]
  constructor
  · rintro ⟨handle, hfind, hinserts⟩
    cases handle with
    | inserter heap => exact ⟨heap, hfind⟩
    | heap | scan | file | page => cases hinserts
  · rintro ⟨heap, hfind⟩
    exact ⟨_, hfind, rfl⟩

/-- No handle is open for inserting that was not before. -/
def NoNewInserter (s t : Session σ) : Prop := ∀ name, t.Inserts name → s.Inserts name

theorem noNewInserter_of_handles (h : t.handles = s.handles) : NoNewInserter s t := by
  intro name hinserts
  unfold Inserts at hinserts ⊢
  rwa [h] at hinserts

theorem noNewInserter_put (hfind : s.handles.find? name = some handle)
    (h : t.handles = s.handles.put name new) (hkind : new.inserts = handle.inserts) :
    NoNewInserter s t := by
  intro other hinserts
  unfold Inserts at hinserts ⊢
  rw [h] at hinserts
  by_cases heq : name = other
  · subst heq
    rw [Table.find?_put_self, Option.any_some, hkind] at hinserts
    rwa [hfind]
  · rwa [Table.find?_put_of_ne heq] at hinserts

theorem noNewInserter_erase (h : t.handles = s.handles.erase name) : NoNewInserter s t := by
  intro other hinserts
  unfold Inserts at hinserts ⊢
  rw [h] at hinserts
  by_cases heq : name = other
  · subst heq
    rw [Table.find?_erase_self] at hinserts
    cases hinserts
  · rwa [Table.find?_erase_of_ne heq] at hinserts

/-- From `s` the action opens no handle for inserting. -/
def OpensNone (action : SessionAction σ α) (s : Session σ) : Prop :=
  action.Allows s (fun _ => NoNewInserter s) fun _ => NoNewInserter s

theorem opensNone_pure (a : α) : OpensNone (pure a) s :=
  allows_pure (noNewInserter_of_handles rfl)

/-- An operation on the database keeps the handles. -/
theorem opensNone_onDatabase {x : Action (Database σ) α} (reply : α → Reply) :
    OpensNone (do return reply (← onDatabase x)) s :=
  allows_bind (p := fun _ => NoNewInserter s) (allows_onPart
    (.of_cases (fun _ _ _ => noNewInserter_of_handles rfl)
      fun _ _ _ => noNewInserter_of_handles rfl)) fun _ _ h => allows_pure h

section Handles

variable (hfind : s.handles.find? name = some handle)
include hfind

/-- An operation on the heap file behind a handle keeps what the handle is for. -/
theorem opensNone_onHeap {x : HeapAction σ α} (reply : α → Reply)
    (hwrap : ∀ h, (wrap h).inserts = handle.inserts) :
    OpensNone (do return reply (← onHeap name heap wrap x)) s :=
  allows_bind (p := fun _ => NoNewInserter s) (allows_onPart
    (.of_cases (fun _ _ _ => noNewInserter_put hfind rfl (hwrap _))
      fun _ _ _ => noNewInserter_put hfind rfl (hwrap _))) fun _ _ h => allows_pure h

omit hfind in
/-- A handle is given up. -/
theorem opensNone_close {close : Action (Database σ) Unit} (reply : Reply) :
    OpensNone (do forgetHandle name; onDatabase close; return reply) s :=
  allows_modify_bind (allows_bind (p := fun _ => NoNewInserter s) (allows_onPart
    (.of_cases (fun _ _ _ => noNewInserter_erase rfl) fun _ _ _ => noNewInserter_erase rfl))
    fun _ _ h => allows_pure h)

theorem opensNone_onAnyHeap (hwrap : ∀ h, (wrap h).inserts = handle.inserts) (c : HandleCommand) :
    OpensNone (onAnyHeap name heap wrap c) s := by
  unfold onAnyHeap
  split
  · exact opensNone_pure _
  · exact opensNone_onHeap hfind _ hwrap
  · exact opensNone_onHeap hfind _ hwrap
  · exact opensNone_pure _
  · exact opensNone_pure _
  · exact opensNone_pure _

end Handles

theorem opensNone_filter {scan : Scan} (hfind : s.handles.find? name = some (.scan scan))
    (result : Result (Option Filter)) :
    OpensNone (do
      let filter ← Action.ofResult result
      setHandle name (.scan { scan with filter := filter })
      return .done : SessionAction σ Reply) s := by
  refine allows_ofResult_bind (fun filter _ => ?_) fun _ _ => noNewInserter_of_handles rfl
  exact allows_modify_bind (allows_pure (noNewInserter_put hfind rfl rfl))

variable [FileStore σ]

theorem opensNone_onScan {scan : Scan} (hfind : s.handles.find? name = some (.scan scan))
    (c : HandleCommand) : OpensNone (onScan name scan c) s := by
  have hwrap (heap : HeapFile) : (Handle.scan { scan with heap := heap }).inserts = false := rfl
  unfold onScan
  split
  · exact opensNone_onHeap hfind _ hwrap
  · exact opensNone_filter hfind _
  · exact opensNone_filter hfind _
  · exact opensNone_pure _
  · exact opensNone_onHeap hfind _ hwrap
  · exact opensNone_onHeap hfind (fun answer : _ × _ => .rows answer.1 answer.2) hwrap
  · exact opensNone_onHeap hfind _ hwrap
  · exact opensNone_onHeap hfind (fun _ => .done) hwrap
  · exact opensNone_onHeap hfind (fun _ => .done) hwrap
  · exact allows_modify_bind (allows_pure (noNewInserter_put hfind rfl rfl))
  · exact opensNone_onHeap hfind (fun _ => .done) hwrap
  · exact opensNone_onHeap hfind (fun _ => .done) hwrap
  · exact opensNone_onHeap hfind (fun _ => .done) hwrap
  · exact opensNone_pure _
  · exact opensNone_close _
  · exact opensNone_close _
  · exact opensNone_onAnyHeap hfind hwrap _

/-- A command to the handle of a heap file opens no other handle. -/
theorem opensNone_tellHandle (hfind : s.handles.find? name = some handle)
    (hheap : handle.heap? = some heap) (c : HandleCommand) : OpensNone (tellHandle name c) s := by
  refine allows_get ?_
  rw [hfind]
  cases handle with
  | heap heap =>
    have hwrap (h : HeapFile) : (Handle.heap h).inserts = false := rfl
    change OpensNone (onLookup name heap c) s
    unfold onLookup
    split
    · exact opensNone_onHeap hfind _ hwrap
    · exact opensNone_close _
    · exact opensNone_close _
    · exact opensNone_onAnyHeap hfind hwrap _
  | scan scan => exact opensNone_onScan hfind c
  | inserter heap =>
    have hwrap (h : HeapFile) : (Handle.inserter h).inserts = true := rfl
    change OpensNone (onInserter name heap c) s
    unfold onInserter
    split
    · exact opensNone_onHeap hfind _ hwrap
    · exact opensNone_onHeap hfind (fun answer : _ × _ => .inserted answer.1 answer.2) hwrap
    · exact opensNone_close _
    · exact opensNone_close _
    · exact opensNone_onAnyHeap hfind hwrap _
  | file | page => cases hheap

/-- Of a handle that a command opens it says so in its reply. -/
theorem allows_openAs (use : HeapUse) (title : String) :
    (perform (.openAs name (.heap use title))).Allows s
      (fun reply t => reply = .done ∨ t.handles = s.handles) fun _ t => t.handles = s.handles := by
  refine allows_get ?_
  split
  · exact allows_pure (.inr rfl)
  · refine allows_bind (p := fun _ _ => True) (allows_onPart
      (.of_cases (fun _ _ _ => trivial) fun _ _ _ => rfl)) fun _ _ _ => ?_
    exact allows_modify_bind (allows_pure (.inl rfl))

end Inserters

variable {capacity : Nat} {s s' : Session MemoryFiles} {heaps : Set FileId} {name title : String}
variable {heap : HeapFile} {c : Command} {reply : Reply} {record : Bytes} {rid : RecordId}

/-- A handle for inserting was there before, or was opened now. -/
theorem inserts_of_step (h : s.Sound) (hlevel : c.HeapLevel)
    (hstep : Session.step s c = .ok (reply, s')) (hinserts : s'.Inserts name) :
    s.Inserts name ∨ ∃ title, c = .openAs name (.heap .insert title) ∧ reply = .done := by
  have hnone (hopens : OpensNone (perform c) s) : s.Inserts name := by
    rcases run_of_step hstep with hrun | ⟨e, -, hrun⟩
    · exact hopens.of_ok hrun name hinserts
    · exact hopens.of_error hrun name hinserts
  cases c with
  | create | destroy | flush | createFile | destroyFile =>
    exact .inl (hnone (opensNone_onDatabase fun _ => .done))
  | hasFile => exact .inl (hnone (opensNone_onDatabase _))
  | capacity => exact .inl (hnone (allows_get (opensNone_pure _)))
  | unusable => exact .inl (hnone (opensNone_pure _))
  | tell other c' =>
    refine .inl (hnone ?_)
    cases hfind : s.handles.find? other with
    | none =>
      refine allows_get ?_
      rw [hfind]
      exact opensNone_pure _
    | some handle =>
      obtain ⟨heap, hheap, -⟩ := h.standing other handle hfind
      exact opensNone_tellHandle hfind hheap c'
  | openAs other opening =>
    cases opening with
    | file | pin | allocate => exact hlevel.elim
    | unusable =>
      refine .inl (hnone (allows_get ?_))
      split
      · exact opensNone_pure _
      · exact opensNone_pure _
    | heap use title =>
      have hreply : reply = .done ∨ s'.handles = s.handles := by
        rcases run_of_step hstep with hrun | ⟨e, -, hrun⟩
        · exact (allows_openAs use title).of_ok hrun
        · exact .inr ((allows_openAs use title).of_error hrun)
      rcases hreply with rfl | hsame
      · obtain ⟨heap, hhandles, -⟩ := exists_of_openAs h hstep
        obtain ⟨heap', hfind'⟩ := inserts_iff.1 hinserts
        rw [hhandles] at hfind'
        rcases Table.find?_put_eq_some.1 hfind' with ⟨rfl, hnew⟩ | ⟨-, hold⟩
        · cases use with
          | insert => exact .inr ⟨title, rfl, rfl⟩
          | lookup | scan => cases hnew
        · exact .inl (inserts_iff.2 ⟨heap', hold⟩)
      · exact .inl (noNewInserter_of_handles hsame name hinserts)

/-- A handle for inserting is never at the header page. -/
theorem Run.inserter_ne_header (run : Run capacity s heaps)
    (hfind : s.handles.find? name = some (.inserter heap)) : heap.currentPage? ≠ some ⟨1⟩ := by
  induction run generalizing name heap with
  | start => cases hfind
  | @step s s' heaps c reply run hlevel hstep _ ih =>
    obtain ⟨hsound, hsmall, -⟩ := run.sound
    have hsound' := (follows_step hsound hsmall hlevel hstep).sound
    obtain ⟨header, hv⟩ := hsound'.hasHeap hfind rfl
    rcases inserts_of_step hsound hlevel hstep (inserts_iff.2 ⟨heap, hfind⟩) with
      hold | ⟨title, rfl, rfl⟩
    · obtain ⟨old, hold⟩ := inserts_iff.1 hold
      rcases inserter_of_step hsound hold hsmall hlevel hstep hfind with
        ⟨record, rid, -, hadded⟩ | hnear
      · have hlive : (law.volume s'.db heap.file.id).record? rid = some record :=
          (congrFun hadded.record? rid).trans (Function.update_self ..)
        rw [hadded.current]
        exact fun heq => (Volume.isData_of_record? hlive).ne_one (Option.some.inj heq)
      · intro hpage
        rcases hnear _ hpage with hbefore | hlast
        · exact ih hold hbefore
        · have hdata : (law.volume s'.db heap.file.id).IsData ⟨1⟩ :=
            hv.eq_lastPage hlast ▸ hv.isData_last
          exact hdata.ne_one rfl
    · obtain ⟨opened, hhandles, hcurrent, -⟩ := exists_of_openAs hsound hstep
      rw [hhandles, Table.find?_put_self] at hfind
      cases hfind
      rw [hcurrent]
      decide

/-! ## How an insert ends -/

/-- An insert through the handle `name` of the heap file `heap` with its reply. -/
structure InsertEnds (capacity : Nat) (heaps : Set FileId) (s : Session MemoryFiles) (name : String)
    (heap : HeapFile) (record : Bytes) (reply : Reply) (s' : Session MemoryFiles) : Prop where
  /-- A record that is too long is refused for that. -/
  long : maxRecordSize < record.length →
    reply = .failed (.invalidRecordLength record.length maxRecordSize)
  /-- Any other record is inserted, or there is no frame for the page that it should go to. -/
  fitting : record.length ≤ maxRecordSize →
    (∃ rid, reply = .address (some rid)) ∨ reply = .failed .bufferPoolExhausted
  /-- There is one if two frames of the pool have no pins. -/
  room : record.length ≤ maxRecordSize → s.db.pool.pinnedPages + 2 ≤ s.db.pool.capacity →
    ∃ rid, reply = .address (some rid)
  /-- The address of an inserted record was free, and no other record changes. -/
  stored : ∀ rid, reply = .address (some rid) → s.records heap.file.id rid = none ∧
    s'.records = s.recordsWith heap.file.id rid (some record)
  /-- The heap file grows by one page at most, and no other file changes. -/
  size : (law.volume s'.db heap.file.id).size ≤ (law.volume s.db heap.file.id).size + 1 ∧
    ∀ file, file ≠ heap.file.id → law.volume s'.db file = law.volume s.db file
  /-- An insert that is refused has changed no page of any file, and the handle is still there. -/
  refused : ∀ e, reply = .failed e → law.volume s'.db = law.volume s.db ∧
    Run capacity s' heaps ∧
    ∃ heap', s'.handles.find? name = some (.inserter heap') ∧ heap'.file = heap.file
  /-- From the page on which the insert starts, at most two pages without room are tried before the
  one to which the record goes, and at most one page is linked.  So whoever allows more than three
  attempts gets the same. -/
  attempts : record.length ≤ maxRecordSize →
    ∀ t, HeapFile.choosePage ⟨s.db, heap⟩ = .ok () t →
      (∀ k u, HeapFile.Retries record t k u → k ≤ 2 ∧
        (HeapFile.volume law u).size ≤ (law.volume s.db heap.file.id).size + 1) ∧
      ∀ k, HeapFile.insertWithin record (k + 3) t = HeapFile.insertWithin record 3 t

/-- A record that is too long is refused. -/
theorem failed_of_long (hfind : s.handles.find? name = some (.inserter heap))
    (hlong : maxRecordSize < record.length)
    (hstep : Session.step s (.tell name (.insert record)) = .ok (reply, s')) :
    reply = .failed (.invalidRecordLength record.length maxRecordSize) := by
  have hrefused : (perform (.tell name (.insert record))).Ensures s (fun _ _ => False)
      fun e _ => e = .invalidRecordLength record.length maxRecordSize := by
    rw [ensures_tell_inserter hfind]
    unfold onInserter
    rw [ensures_bind, ensures_onHeap, HeapFile.insert_of_long hlong, ensures_refuse]
  rcases of_step hrefused hstep with hnot | ⟨e, rfl, rfl⟩
  · exact hnot.elim
  · rfl

section Inserter

variable (run : Run capacity s heaps) (hfind : s.handles.find? name = some (.inserter heap))
include run hfind

/-- A handle for inserting is at a data page, if it is at a page. -/
theorem Run.isData_current {pin : Pin} (hcurrent : heap.current = some pin) :
    (law.volume s.db heap.file.id).IsData pin.key.page := by
  by_contra hdata
  have hhas := (run.sound.1.attached hfind rfl).has_current hcurrent
  have hheader : pin.key.page = ⟨1⟩ := Volume.eq_one_of_not_isData hhas hdata
  refine run.inserter_ne_header hfind ?_
  unfold HeapFile.currentPage?
  rw [hcurrent, Option.map_some, hheader]

/-- The attempts of an insert come to an end. -/
theorem Run.attempts (hlen : record.length ≤ maxRecordSize) {t : HeapState MemoryFiles}
    (hchosen : HeapFile.choosePage ⟨s.db, heap⟩ = .ok () t) :
    (∀ k u, HeapFile.Retries record t k u → k ≤ 2 ∧
      (HeapFile.volume law u).size ≤ (law.volume s.db heap.file.id).size + 1) ∧
    ∀ k, HeapFile.insertWithin record (k + 3) t = HeapFile.insertWithin record 3 t := by
  obtain ⟨hsound, hsmall, -⟩ := run.sound
  obtain ⟨header, hv⟩ := hsound.hasHeap hfind rfl
  obtain ⟨hstays, n, hn, htrying⟩ := (HeapFile.ensures_choosePage (hsound.attached hfind rfl) hv
    (hsmall _) fun _ => run.isData_current hfind).of_ok hchosen
  refine ⟨fun k u hretries => ?_, fun k => ?_⟩
  · obtain ⟨m, hle, hpassed⟩ := htrying.retries hlen hretries
    refine ⟨(Nat.le_add_left k m).trans (hle.trans hn), hpassed.size_le.trans_eq ?_⟩
    exact congrArg (fun v : Volume => v.size + 1) hstays.volume_eq
  · obtain ⟨d, hd⟩ := Nat.exists_eq_add_of_le hn
    have hthree (k : Nat) : k + 3 = k + d + (n + 1) := by omega
    calc HeapFile.insertWithin record (k + 3) t
        = HeapFile.insertWithin record (n + 1) t := by
          rw [hthree]
          exact htrying.insertWithin_eq hlen _
      _ = HeapFile.insertWithin record (0 + 3) t := by
          rw [hthree]
          exact (htrying.insertWithin_eq hlen _).symm

/-- If there is no frame for an insert, one frame at most has no pins. -/
theorem Run.capacity_le_of_exhausted
    (hstep : Session.step s (.tell name (.insert record)) =
      .ok (.failed .bufferPoolExhausted, s')) :
    s.db.pool.capacity ≤ s.db.pool.pinnedPages + 1 := by
  have haccount := run.inAccount
  have hfull := haccount.crowded_of_insert hfind hstep rfl
  have hpages := haccount.pinnedPages_eq run.sound.2.1.numbered
  have hheader : heap.headerPin.key = ⟨heap.file.id, ⟨1⟩⟩ :=
    (haccount.entrusted hfind rfl).onFile.headerKey
  have hsub : ((⟨heap.file.id, ⟨1⟩⟩ : FrameKey) ::ₘ keysOf (s.handles.erase name)).toFinset ⊆
      (keysOf s.handles).toFinset := by
    rw [keysOf_eq haccount.distinct hfind rfl, ← hheader]
    unfold HeapFile.keys
    rw [Multiset.cons_add]
    refine Multiset.toFinset_subset.2 (Multiset.subset_of_le ?_)
    exact Multiset.cons_le_cons _ (Multiset.le_add_left _ _)
  rw [hpages, haccount.accounts.capacity]
  exact hfull.trans (Nat.succ_le_succ (Finset.card_le_card hsub))

/-- Whatever handles are open and whatever was done with them, an insert is answered: a record that
is too long is refused, any other one is inserted, or there is no frame for the page that it should
go to.  What is refused changes nothing, and the next insert through the same handle succeeds once
two frames of the pool are free of pins. -/
theorem Run.insert_ends (record : Bytes) : ∃ reply s',
    Session.step s (.tell name (.insert record)) = .ok (reply, s') ∧
    InsertEnds capacity heaps s name heap record reply s' := by
  obtain ⟨hsound, hsmall, -⟩ := run.sound
  have hlevel : (Command.tell name (.insert record)).HeapLevel := trivial
  obtain ⟨reply, s', hstep⟩ := exists_step hsound hsmall hlevel trivial
  have hattempts (hlen : record.length ≤ maxRecordSize) (t : HeapState MemoryFiles) :=
    run.attempts hfind hlen (t := t)
  have hlong (hlt : maxRecordSize < record.length) := failed_of_long hfind hlt hstep
  refine ⟨reply, s', hstep, ?_⟩
  rcases of_step (ensures_tell_insert hsound hfind hsmall record) hstep with
    ⟨rid, t, rfl, hadded, rfl⟩ | ⟨e, rfl, t, hstays, -, rfl, hcause⟩
  · have hvolume : HeapFile.volume law t = law.volume t.db heap.file.id := by
      unfold HeapFile.volume
      rw [hadded.moves.file]
    refine ⟨fun h => ?_, fun _ => .inl ⟨rid, rfl⟩, fun _ _ => ⟨rid, rfl⟩, ?_, ⟨?_, ?_⟩, nofun,
      hattempts⟩
    · cases hlong h
    · rintro _ ⟨⟩
      exact ⟨hadded.fresh, records_of_moves hadded.moves hadded.record?⟩
    · exact hvolume ▸ hadded.size
    · exact hadded.moves.only.others
  · have hvolume : law.volume t.db = law.volume s.db :=
      PageStore.Reliable.volume_of_same hstays.same
    have hexhausted (hlen : record.length ≤ maxRecordSize) : e = .bufferPoolExhausted :=
      hcause hlen fun _ => run.isData_current hfind
    refine ⟨hlong, fun hlen => .inr (congrArg _ (hexhausted hlen)), fun hlen hroom => ?_, nofun,
      ⟨?_, ?_⟩, ?_, hattempts⟩
    · obtain rfl := hexhausted hlen
      have hfull := run.capacity_le_of_exhausted hfind hstep
      omega
    · rw [hvolume]
      exact Nat.le_succ _
    · exact fun file _ => congrFun hvolume file
    · rintro _ ⟨⟩
      have hsmall' : Session.Small ⟨t.db, s.handles.put name (.inserter t.heap)⟩ := by
        intro file
        rw [hvolume]
        exact hsmall file
      have hnone : s.madeBy (.tell name (.insert record)) (.failed e) = ∅ := by
        refine Set.eq_empty_iff_forall_notMem.2 ?_
        rintro file ⟨⟨title, ⟨⟩⟩, -⟩
      have hrun := run.step hlevel hstep hsmall'
      rw [hnone, Set.union_empty] at hrun
      exact ⟨hvolume, hrun, t.heap, Table.find?_put_self _ _ _, hstays.file⟩

end Inserter

/-- One more record is inserted through the only handle there is. -/
theorem Run.insert_ends_alone : ∃ s heaps heap rid s', Run 8 s heaps ∧
    s.handles.find? "i" = some (.inserter heap) ∧
    s.db.pool.pinnedPages + 2 ≤ s.db.pool.capacity ∧
    Session.step s (.tell "i" (.insert [4, 5])) = .ok (.address (some rid), s') := by
  obtain ⟨_, s, _, heap, -, hstocked, -⟩ := exists_stocked_first
  obtain ⟨heaps, run⟩ := hstocked.hosts.run
  have hhandles := hstocked.handles
  have hfind : s.handles.find? "i" = some (.inserter heap) := find?_of_alone hhandles
  have haccount := run.inAccount
  have hroom : s.db.pool.pinnedPages + 2 ≤ s.db.pool.capacity := by
    have hcard := card_keysOf_le s.handles
    rw [hhandles, List.length_singleton, ← hhandles] at hcard
    rw [haccount.pinnedPages_eq run.sound.2.1.numbered, haccount.accounts.capacity]
    omega
  obtain ⟨reply, s', hstep, hends⟩ := Run.insert_ends run hfind [4, 5]
  have hlen : ([4, 5] : Bytes).length ≤ maxRecordSize := by decide
  obtain ⟨rid, rfl⟩ := hends.room hlen hroom
  exact ⟨s, heaps, heap, rid, s', run, hfind, hroom, hstep⟩

end Session

end PagedHeap
