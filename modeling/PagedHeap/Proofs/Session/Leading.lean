import PagedHeap.Proofs.Heap.Places
import PagedHeap.Proofs.Session.Parallel
import PagedHeap.Proofs.Session.Run

/-!
# Where commands lead a scan

A scan is told to go on, to look up a record or to go back, and stays where it is with everything
else.  Where it is afterwards depends on whether it has answered (`HandleCommand.Leads`) or was
refused (`HandleCommand.Strands`).  Its file is the same, and so are its filter and its mark, unless
the command sets them (`Scan.Led`).

The commands are gone through once, in `Session.ensures_led`.  What holds of a scan wherever it is
used follows by cases over the command, without the actions that carry it out.
-/

namespace PagedHeap

open PagedHeap.Action

open MemoryFiles (law)

namespace HandleCommand

/-- The places to which a scan at the place `m` comes by a command that it answers, if `saved` is
its mark.  At the end of the file it stays on the record on which it stands. -/
def Leads (saved : Option ScanMark) (m : ScanMark) : HandleCommand → ScanMark → Prop
  | .readAt rid, m' => m' = ⟨some rid.page, some rid⟩
  | .next, m' => (m.position = none → m' = ⟨none, m.record⟩) ∧
      (m.position ≠ none → ∃ found : Option RecordId, m' = ⟨found.map RecordId.page, found⟩)
  | .reset, m' => saved = some m'
  | .endScan, m' => m' = ⟨some ⟨2⟩, none⟩
  | _, m' => m' = m

/-- The places to which a scan at the place `m` comes by a command that is refused.  A lookup may
have gone to the page of the address, and a scan that goes on may have come to another page. -/
def Strands (m : ScanMark) : HandleCommand → ScanMark → Prop
  | .readAt rid, m' => m' = m ∨ m' = ⟨some rid.page, m.record⟩
  | .next, m' => m' = m ∨ ∃ page, m' = ⟨some page, none⟩
  | _, m' => m' = m

theorem strands_self (c : HandleCommand) (m : ScanMark) : c.Strands m m := by
  cases c with
  | readAt | next => exact .inl rfl
  | _ => exact rfl

/-- Whether a command gives a filter to a scan. -/
def Filters : HandleCommand → Prop
  | .startScan _ | .setFilter _ => True
  | _ => False

end HandleCommand

namespace HeapFile

theorem At.mark {h : HeapFile} {position : Option PageId} {record : Option RecordId}
    {page : Option PageId} (hat : h.At position record page) : h.mark = ⟨position, record⟩ := by
  unfold HeapFile.mark
  rw [hat.position, hat.record]

theorem SamePlace.mark {σ : Type} {s s' : HeapState σ} (hplace : SamePlace s s') :
    s'.heap.mark = s.heap.mark := by
  unfold HeapFile.mark
  rw [hplace.position, hplace.record]

/-- A scan that is refused when it goes on is where it was, or at the start of another page. -/
theorem Stuck.strands {σ : Type} [PageStore σ] {law : PageStore.Reliable σ}
    {filter : Option Filter} {s s' : HeapState σ} {first : PageId} {e : StorageError}
    (hstuck : Stuck law filter s first e s') (hfirst : s.heap.position = some first) :
    HandleCommand.next.Strands s.heap.mark s'.heap.mark := by
  cases hstuck with
  | unpinned _ here => exact .inl here.mark
  | unreadable _ _ here =>
    rw [← hfirst] at here
    exact .inl here.mark
  | @behind page _ _ _ here => exact .inr ⟨page, here.mark⟩

end HeapFile

/-- What a scan `scan'` has in common with the scan `scan` that was told the command `c`, and one of
the places at which it is. -/
structure Scan.Led (scan : Scan) (c : HandleCommand) (place : ScanMark → Prop) (scan' : Scan) :
    Prop where
  file : scan'.heap.file = scan.heap.file
  filter : scan'.filter = scan.filter ∨ c.Filters
  mark : scan'.mark = scan.mark ∨ c = .mark ∧ scan'.mark = some scan.heap.mark
  place : place scan'.heap.mark

namespace Session

variable {s s' : Session MemoryFiles} {c : Command} {c' : HandleCommand} {reply : Reply}
variable {name : String} {scan : Scan} {place : ScanMark → Prop}

/-- The scan behind a handle was led to one of some places. -/
def LedTo (name : String) (scan : Scan) (c : HandleCommand) (place : ScanMark → Prop)
    (s : Session MemoryFiles) : Prop :=
  ∃ scan', s.handles.find? name = some (.scan scan') ∧ scan.Led c place scan'

/-- A command on a scan is carried out by the scan. -/
theorem ensures_tell {ok : Reply → Session MemoryFiles → Prop}
    {refused : StorageError → Session MemoryFiles → Prop}
    (hfind : s.handles.find? name = some (.scan scan)) :
    (perform (.tell name c')).Ensures s ok refused ↔
      (onScan name scan c').Ensures s ok refused := by
  change (tellHandle name c').Ensures s _ _ ↔ _
  unfold tellHandle
  rw [ensures_bind, ensures_get]
  simp only [hfind]

/-- An operation leads a scan where it leads the heap file behind it. -/
theorem ensures_led_onHeap {α : Type} {x : HeapAction MemoryFiles α} (reply : α → Reply)
    {place' : ScanMark → Prop}
    (hx : x.Ensures ⟨s.db, scan.heap⟩
      (fun _ t => t.heap.file = scan.heap.file ∧ place t.heap.mark)
      fun _ t => t.heap.file = scan.heap.file ∧ place' t.heap.mark) :
    (do return reply (← onHeap name scan.heap (fun heap => .scan { scan with heap := heap }) x) :
      SessionAction MemoryFiles Reply).Ensures s (fun _ => LedTo name scan c' place)
      fun _ => LedTo name scan c' place' := by
  rw [ensures_bind, ensures_onHeap]
  refine hx.mono ?_ ?_
  · rintro a t ⟨hfile, hplace⟩
    exact ⟨_, Table.find?_put_self _ _ _, hfile, .inl rfl, .inl rfl, hplace⟩
  · rintro e t ⟨hfile, hplace⟩
    exact ⟨_, Table.find?_put_self _ _ _, hfile, .inl rfl, .inl rfl, hplace⟩

/-- A scan that is given a filter, or is refused one, stays where it is. -/
theorem ensures_led_filtered {result : Result (Option Filter)}
    (hfind : s.handles.find? name = some (.scan scan)) (hfilters : c'.Filters)
    (hplace : place scan.heap.mark) (hresult : ∀ t, result ≠ .error (.trap t)) :
    (do
      let filter ← Action.ofResult result
      setHandle name (.scan { scan with filter := filter })
      return .done : SessionAction MemoryFiles Reply).Ensures s
      (fun _ => LedTo name scan c' place) fun _ => LedTo name scan c' place := by
  rw [ensures_bind]
  cases result with
  | ok filter =>
    rw [ensures_ofResult_ok rfl, ensures_bind, ensures_setHandle, ensures_pure]
    exact ⟨_, Table.find?_put_self _ _ _, rfl, .inr hfilters, .inl rfl, hplace⟩
  | error f =>
    cases f with
    | error e => exact ⟨scan, hfind, rfl, .inl rfl, .inl rfl, hplace⟩
    | trap t => exact absurd rfl (hresult t)

/-- Whatever is told to a scan that is not closed by it leads it to a place. -/
theorem ensures_led (h : s.Sound) (hfind : s.handles.find? name = some (.scan scan))
    (hopen : ¬c'.Closes) (hlevel : (Command.tell name c').HeapLevel)
    (hcan : s.CanRun (.tell name c')) :
    (perform (.tell name c')).Ensures s
      (fun _ => LedTo name scan c' (c'.Leads scan.mark scan.heap.mark))
      fun _ => LedTo name scan c' (c'.Strands scan.heap.mark) := by
  have hattached := h.attached hfind rfl
  obtain ⟨header, hv⟩ := h.hasHeap hfind rfl
  have hheader := HeapFile.ensures_header hattached hv.header
  have hself {c : HandleCommand} {place : ScanMark → Prop} (hplace : place scan.heap.mark) :
      LedTo name scan c place s := ⟨scan, hfind, rfl, .inl rfl, .inl rfl, hplace⟩
  rw [ensures_tell hfind]
  cases c' with
  | readAt rid =>
    refine ensures_led_onHeap .record ((HeapFile.ensures_getRecord hattached hv rid).mono ?_ ?_)
    · rintro bytes t ⟨hstays, -, -, hat⟩
      exact ⟨hstays.file, hat.mark⟩
    · rintro e t ⟨hstays, ⟨-, -, hat⟩ | ⟨-, -, hat⟩⟩
      · exact ⟨hstays.file, .inl hat.mark⟩
      · exact ⟨hstays.file, .inr hat.mark⟩
  | next =>
    refine ensures_led_onHeap .address (((HeapFile.ensures_scanNext scan.filter hattached hv).and
      (HeapFile.ensures_scanNext_at scan.filter hattached hv)).mono ?_ ?_)
    · rintro found t ⟨⟨hstays, -⟩, hend, hfound⟩
      refine ⟨hstays.file, fun hposition => ?_, fun hposition => ?_⟩
      · obtain ⟨-, hat⟩ := hend hposition
        exact hat.mark
      · obtain ⟨page, hat, -⟩ := hfound hposition
        exact ⟨found, hat.mark⟩
    · rintro e t ⟨hstays, first, hfirst, hstuck⟩
      exact ⟨hstays.file, hstuck.strands hfirst⟩
  | reset =>
    refine ensures_led_onHeap (fun _ => .done)
      ((HeapFile.ensures_resetTo hattached scan.mark).mono ?_ ?_)
    · rintro _ t ⟨hstays, m, hm, hat⟩
      exact ⟨hstays.file, hm.trans (congrArg some hat.mark.symm)⟩
    · rintro e t ⟨hstays, ⟨-, rfl, -⟩ | ⟨-, -, -, -, -, hat⟩⟩
      · exact ⟨rfl, rfl⟩
      · exact ⟨hstays.file, hat.mark⟩
  | endScan =>
    refine ensures_led_onHeap (fun _ => .done) ((HeapFile.ensures_endScan hattached).mono ?_
      fun _ _ => False.elim)
    rintro _ t ⟨hstays, hposition, hrecord⟩
    rw [hattached.firstPage] at hposition
    exact ⟨hstays.file, congrArg₂ ScanMark.mk hposition hrecord⟩
  | read =>
    refine ensures_led_onHeap .record ((HeapFile.ensures_readCurrent hattached hv).mono ?_ ?_)
    · rintro _ t ⟨rfl, -⟩
      exact ⟨rfl, rfl⟩
    · rintro _ t rfl
      exact ⟨rfl, rfl⟩
  | modify offset bytes =>
    refine ensures_led_onHeap (fun _ => .done)
      ((HeapFile.ensures_modifyCurrent hattached hv _).mono ?_ ?_)
    · rintro _ t ⟨hmoves, hplace, -⟩
      exact ⟨hmoves.file, hplace.mark⟩
    · rintro _ t ⟨hstays, hplace⟩
      exact ⟨hstays.file, hplace.mark⟩
  | delete =>
    refine ensures_led_onHeap (fun _ => .done)
      ((HeapFile.ensures_deleteCurrent hattached hv).mono ?_ ?_)
    · rintro _ t ⟨hmoves, hplace, -⟩
      exact ⟨hmoves.file, hplace.mark⟩
    · rintro _ t ⟨hstays, hplace, -⟩
      exact ⟨hstays.file, hplace.mark⟩
  | markDirty =>
    refine ensures_led_onHeap (fun _ => .done) ((HeapFile.ensures_markDirty hattached).mono ?_
      fun _ _ => False.elim)
    rintro _ t ⟨hstays, hplace⟩
    exact ⟨hstays.file, hplace.mark⟩
  | recordCount =>
    refine ensures_led_onHeap (fun header => .number header.recordCount.toNat)
      (hheader.mono ?_ fun _ _ => False.elim)
    rintro _ t ⟨-, rfl⟩
    exact ⟨rfl, rfl⟩
  | header =>
    refine ensures_led_onHeap .heapHeader (hheader.mono ?_ fun _ _ => False.elim)
    rintro _ t ⟨-, rfl⟩
    exact ⟨rfl, rfl⟩
  | mark => exact ⟨_, Table.find?_put_self _ _ _, rfl, .inl rfl, .inr ⟨rfl, rfl⟩, rfl⟩
  | startScan request => exact ensures_led_filtered hfind trivial rfl (hcan scan hfind)
  | setFilter request => exact ensures_led_filtered hfind trivial rfl (hcan scan hfind)
  | close | drop => exact (hopen trivial).elim
  | scan limit => exact hlevel.elim
  | _ => exact hself rfl

/-- A scan that was told something is where the answer has led it, or where the refusal has. -/
theorem led_of_tell (h : s.Sound) (hfind : s.handles.find? name = some (.scan scan))
    (hopen : ¬c'.Closes) (hlevel : (Command.tell name c').HeapLevel)
    (hstep : Session.step s (.tell name c') = .ok (reply, s')) :
    LedTo name scan c' (c'.Leads scan.mark scan.heap.mark) s' ∨
      (∃ e, reply = .failed e) ∧ LedTo name scan c' (c'.Strands scan.heap.mark) s' := by
  by_cases hcan : s.CanRun (.tell name c')
  · rcases of_step (ensures_led h hfind hopen hlevel hcan) hstep with hled | ⟨e, he, hled⟩
    · exact .inl hled
    · exact .inr ⟨⟨e, he⟩, hled⟩
  · obtain ⟨e, he, rfl⟩ := refused_of_not_canRun hcan hstep
    exact .inr ⟨⟨e, he⟩, scan, hfind, rfl, .inl rfl, .inl rfl, c'.strands_self _⟩

/-- No step but those that are told to a scan leads it anywhere. -/
theorem led_of_step (h : s.Sound) (hsmall : s.Small)
    (hfind : s.handles.find? name = some (.scan scan)) (hlevel : c.HeapLevel)
    (hopen : ∀ c', c = .tell name c' → ¬c'.Closes) (hstep : Session.step s c = .ok (reply, s')) :
    s'.handles.find? name = some (.scan scan) ∨
      ∃ c', c = .tell name c' ∧
        (LedTo name scan c' (c'.Leads scan.mark scan.heap.mark) s' ∨
          (∃ e, reply = .failed e) ∧ LedTo name scan c' (c'.Strands scan.heap.mark) s') := by
  by_cases htold : ∃ c', c = .tell name c'
  · obtain ⟨c', rfl⟩ := htold
    exact .inr ⟨c', rfl, led_of_tell h hfind (hopen c' rfl) hlevel hstep⟩
  · exact .inl ((follows_step h hsmall hlevel hstep).others name _ hfind
      fun c' hc' => htold ⟨c', hc'⟩)

end Session

end PagedHeap
