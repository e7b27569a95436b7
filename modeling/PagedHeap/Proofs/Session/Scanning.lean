import PagedHeap.Proofs.Session.Leading

/-!
# Scans on their way

A scan goes through a heap file while other handles, and the scan itself, change the file between
its steps (`Session.Scanning`).  What is ahead of the scan is all that it can still return.  Records
are inserted and deleted on both sides of it, but a record that stays where it is, ahead of the
scan, is returned before the scan passes it, and what the scan has passed is not returned again
(`Session.Progress`).
-/

namespace PagedHeap

open PagedHeap.Action

open MemoryFiles (law)

/-- Whether a command leaves a scan where it stands.  The others send it elsewhere, give it another
filter or close it. -/
def HandleCommand.Rests : HandleCommand → Prop
  | .next | .scan _ | .readAt _ | .reset | .endScan | .startScan _ | .setFilter _ => False
  | .close | .drop => False
  | _ => True

section Rests

variable {c : HandleCommand} {saved : Option ScanMark} {m m' : ScanMark} (hrests : c.Rests)
include hrests

theorem HandleCommand.Rests.not_closes : ¬c.Closes := by
  cases c with
  | close | drop => exact hrests.elim
  | _ => exact id

theorem HandleCommand.Rests.not_filters : ¬c.Filters := by
  cases c with
  | startScan | setFilter => exact hrests.elim
  | _ => exact id

theorem HandleCommand.Rests.eq_of_leads (h : c.Leads saved m m') : m' = m := by
  cases c with
  | next | readAt | reset | endScan => exact hrests.elim
  | _ => exact h

theorem HandleCommand.Rests.eq_of_strands (h : c.Strands m m') : m' = m := by
  cases c with
  | next | readAt => exact hrests.elim
  | _ => exact h

end Rests

namespace Session

variable {capacity : Nat} {s s' : Session MemoryFiles} {heaps : Set FileId} {c : Command}
variable {c' : HandleCommand} {reply : Reply} {name : String} {scan : Scan}

/-- The scan behind a handle is at the same place of the same file, with the same filter. -/
def Stands (name : String) (scan : Scan) (s : Session MemoryFiles) : Prop :=
  ∃ scan', s.handles.find? name = some (.scan scan') ∧ scan'.filter = scan.filter ∧
    scan'.heap.file = scan.heap.file ∧ scan'.heap.position = scan.heap.position ∧
    scan'.heap.record = scan.heap.record

/-- The scan behind a handle is at the start of the same file, with the same filter. -/
def StandsAtStart (name : String) (s : Session MemoryFiles) : Prop :=
  ∃ scan, s.handles.find? name = some (.scan scan) ∧ scan.heap.position = some ⟨2⟩ ∧
    scan.heap.record = none

/-! ## Steps of a scan -/

/-- A scan that was led to where it was stands there. -/
theorem stands_of_led {place : ScanMark → Prop} (hled : LedTo name scan c' place s)
    (hrests : c'.Rests) (hplace : ∀ m, place m → m = scan.heap.mark) : Stands name scan s := by
  obtain ⟨scan', hfind, hled⟩ := hled
  have hmark := hplace _ hled.place
  exact ⟨scan', hfind, hled.filter.resolve_right hrests.not_filters, hled.file,
    congrArg ScanMark.position hmark, congrArg ScanMark.record hmark⟩

/-- Whatever is not told to a scan, or leaves it where it stands, does so. -/
theorem stands_of_step (h : s.Sound) (hsmall : s.Small)
    (hfind : s.handles.find? name = some (.scan scan)) (hlevel : c.HeapLevel)
    (hrests : ∀ c', c = .tell name c' → c'.Rests) (hstep : Session.step s c = .ok (reply, s')) :
    Stands name scan s' := by
  have hopen (c' : HandleCommand) (hc' : c = .tell name c') : ¬c'.Closes :=
    (hrests c' hc').not_closes
  rcases led_of_step h hsmall hfind hlevel hopen hstep with
    hfind' | ⟨c', rfl, hled | ⟨-, hled⟩⟩
  · exact ⟨scan, hfind', rfl, rfl, rfl, rfl⟩
  · exact stands_of_led hled (hrests c' rfl) fun _ => (hrests c' rfl).eq_of_leads
  · exact stands_of_led hled (hrests c' rfl) fun _ => (hrests c' rfl).eq_of_strands

/-- A scan goes on to the first record ahead of it that passes its filter. -/
theorem ensures_next (h : s.Sound) (hfind : s.handles.find? name = some (.scan scan)) :
    (perform (.tell name .next)).Ensures s
      (fun reply s' => ∃ found scan', reply = .address found ∧
        s'.handles.find? name = some (.scan scan') ∧ scan'.filter = scan.filter ∧
        scan'.heap.file = scan.heap.file ∧
        (law.volume s.db scan.heap.file.id).Finds scan.filter scan.heap.Ahead found ∧
        scan'.heap.position = found.map RecordId.page ∧
        ∀ rid, found = some rid → scan'.heap.record = some rid)
      (fun _ _ => True) := by
  obtain ⟨header, hv⟩ := h.hasHeap hfind rfl
  rw [ensures_tell hfind]
  unfold onScan
  dsimp only
  rw [ensures_bind, ensures_onHeap]
  refine (HeapFile.ensures_scanNext scan.filter (h.attached hfind rfl) hv).mono ?_
    fun _ _ _ => trivial
  rintro found t ⟨hstays, hfinds, hposition, hrecord⟩
  exact ⟨found, _, rfl, Table.find?_put_self _ _ _, rfl, hstays.file, hfinds, hposition, hrecord⟩

/-! ## Where a scan starts -/

/-- A heap file that was opened stands on its first page. -/
theorem ensures_openAs (h : s.Sound) (use : HeapUse) (title : String) :
    (perform (.openAs name (.heap use title))).Ensures s
      (fun reply s' => reply = .done → ∃ heap, s'.handles = s.handles.put name (handleOf heap use) ∧
        heap.currentPage? = some ⟨2⟩ ∧ heap.position = some ⟨2⟩ ∧ heap.record = none)
      fun _ _ => True := by
  unfold perform
  rw [ensures_bind, ensures_get]
  split
  · rw [ensures_pure]
    intro hdone
    cases hdone
  · unfold openHandle
    rw [ensures_bind, ensures_onDatabase]
    refine (Database.ensures_openHeap h.holds h.orderly h.usable title).and_run.mono ?_
      fun _ _ _ => trivial
    rintro heap db ⟨⟨-, -, -, hposition, hrecord, -⟩, hrun⟩
    have hcurrent := (Database.allows_openHeap_current title).of_ok hrun
    rw [ensures_bind, ensures_setHandle, ensures_pure]
    refine fun _ => ⟨heap, ?_, hcurrent.trans hposition, hposition, hrecord⟩
    cases use <;> rfl

theorem exists_of_openAs (h : s.Sound) {use : HeapUse}
    (hstep : Session.step s (.openAs name (.heap use title)) = .ok (.done, s')) :
    ∃ heap, s'.handles = s.handles.put name (handleOf heap use) ∧
      heap.currentPage? = some ⟨2⟩ ∧ heap.position = some ⟨2⟩ ∧ heap.record = none := by
  rcases of_step (ensures_openAs h use title) hstep with hopened | ⟨e, he, -⟩
  · exact hopened rfl
  · cases he

/-- A scan that was sent back is at the start. -/
theorem ensures_endScan (h : s.Sound) :
    (perform (.tell name .endScan)).Ensures s
      (fun reply s' => reply = .done → StandsAtStart name s') (fun _ _ => True) := by
  cases hfind : s.handles.find? name with
  | none =>
    change (tellHandle name .endScan).Ensures s _ _
    unfold tellHandle
    rw [ensures_bind, ensures_get, hfind]
    exact nofun
  | some handle =>
    obtain ⟨heap, hheap, -⟩ := h.standing name handle hfind
    cases handle with
    | scan scan =>
      have hlevel : (Command.tell name .endScan).HeapLevel := trivial
      refine (ensures_led h hfind id hlevel trivial).mono ?_ fun _ _ _ => trivial
      rintro _ t ⟨scan', hfind', hled⟩ -
      exact ⟨scan', hfind', congrArg ScanMark.position hled.place,
        congrArg ScanMark.record hled.place⟩
    | heap heap | inserter heap =>
      change (tellHandle name .endScan).Ensures s _ _
      unfold tellHandle
      rw [ensures_bind, ensures_get, hfind]
      exact nofun
    | file file | page pin => cases hheap

/-- Sessions in which a scan is at its start: it was just opened or sent back, and may then have
been given a filter. -/
inductive Begins (capacity : Nat) (name : String) : Session MemoryFiles → Prop
  /-- The scan was opened. -/
  | opened {s s' : Session MemoryFiles} {heaps : Set FileId} {file : String} :
      Run capacity s heaps →
      Session.step s (.openAs name (.heap .scan file)) = .ok (.done, s') → s'.Small →
      Begins capacity name s'
  /-- The scan was sent back to its start. -/
  | ended {s s' : Session MemoryFiles} {heaps : Set FileId} :
      Run capacity s heaps → Session.step s (.tell name .endScan) = .ok (.done, s') → s'.Small →
      Begins capacity name s'
  /-- The scan was given a filter. -/
  | filtered {s s' : Session MemoryFiles} {request : Option FilterRequest} :
      Begins capacity name s →
      Session.step s (.tell name (.setFilter request)) = .ok (.done, s') → s'.Small →
      Begins capacity name s'
  /-- The scan was given a filter by its parameters. -/
  | started {s s' : Session MemoryFiles} {request : ScanRequest} :
      Begins capacity name s →
      Session.step s (.tell name (.startScan request)) = .ok (.done, s') → s'.Small →
      Begins capacity name s'

/-- A scan that was given a filter is where it was. -/
theorem StandsAtStart.filtered (h : s.Sound) (hstart : StandsAtStart name s)
    (hc : (∃ request, c' = .setFilter request) ∨ ∃ request, c' = .startScan request)
    (hstep : Session.step s (.tell name c') = .ok (.done, s')) : StandsAtStart name s' := by
  obtain ⟨scan, hfind, hposition, hrecord⟩ := hstart
  have hplace {scan' : Scan} (hled : scan.Led c' (c'.Leads scan.mark scan.heap.mark) scan') :
      scan'.heap.mark = scan.heap.mark := by
    rcases hc with ⟨request, rfl⟩ | ⟨request, rfl⟩
    · exact hled.place
    · exact hled.place
  have htold : ¬c'.Closes ∧ (Command.tell name c').HeapLevel := by
    rcases hc with ⟨request, rfl⟩ | ⟨request, rfl⟩
    · exact ⟨id, trivial⟩
    · exact ⟨id, trivial⟩
  rcases led_of_tell h hfind htold.1 htold.2 hstep with ⟨scan', hfind', hled⟩ | ⟨⟨e, he⟩, -⟩
  · exact ⟨scan', hfind', (congrArg ScanMark.position (hplace hled)).trans hposition,
      (congrArg ScanMark.record (hplace hled)).trans hrecord⟩
  · cases he

/-- At the start of a scan the session is one that commands lead to. -/
theorem Begins.atStart (begins : Begins capacity name s) :
    (∃ heaps, Run capacity s heaps) ∧ StandsAtStart name s := by
  have hlevel (c' : HandleCommand) (hc' : (Command.tell name c').HeapLevel)
      {s s' : Session MemoryFiles} {heaps : Set FileId} (run : Run capacity s heaps)
      (hstep : Session.step s (.tell name c') = .ok (.done, s')) (hsmall : s'.Small) :
      ∃ heaps, Run capacity s' heaps := ⟨_, run.step hc' hstep hsmall⟩
  induction begins with
  | @opened s s' heaps file run hstep hsmall =>
    have hopen : (Command.openAs name (.heap .scan file)).HeapLevel := trivial
    refine ⟨⟨_, run.step hopen hstep hsmall⟩, ?_⟩
    obtain ⟨heap, hhandles, -, hposition, hrecord⟩ := exists_of_openAs run.sound.1 hstep
    have hfind : s'.handles.find? name = some (handleOf heap .scan) := by
      rw [hhandles]
      exact Table.find?_put_self _ _ _
    exact ⟨_, hfind, hposition, hrecord⟩
  | ended run hstep hsmall =>
    refine ⟨hlevel .endScan trivial run hstep hsmall, ?_⟩
    rcases of_step (ensures_endScan run.sound.1) hstep with hok | ⟨e, he, -⟩
    · exact hok rfl
    · cases he
  | @filtered s s' request _ hstep hsmall ih =>
    obtain ⟨⟨heaps, run⟩, hstart⟩ := ih
    exact ⟨hlevel (.setFilter request) trivial run hstep hsmall,
      hstart.filtered run.sound.1 (.inl ⟨request, rfl⟩) hstep⟩
  | @started s s' request _ hstep hsmall ih =>
    obtain ⟨⟨heaps, run⟩, hstart⟩ := ih
    exact ⟨hlevel (.startScan request) trivial run hstep hsmall,
      hstart.filtered run.sound.1 (.inr ⟨request, rfl⟩) hstep⟩

/-! ## The progress of a scan -/

/-- What a scan has returned so far, in the sessions that it has visited, and what is ahead of it.
-/
structure Progress (file : FileId) (filter : Option Filter)
    (visited : List (Session MemoryFiles)) (rids : List RecordId) (ahead : RecordId → Prop) :
    Prop where
  sorted : rids.Pairwise RecordId.Before
  behind : ∀ rid ∈ rids, ∀ other, ahead other → rid.Before other
  covered : ∀ rid bytes, (∀ t ∈ visited, t.records file rid = some bytes) →
    passes filter bytes = true → rid ∈ rids ∨ ahead rid
  live : ∀ rid ∈ rids, ∃ t ∈ visited, (law.volume t.db file).Passing filter rid

namespace Progress

variable {file : FileId} {filter : Option Filter} {visited : List (Session MemoryFiles)}
variable {rids : List RecordId} {ahead ahead' : RecordId → Prop}

/-- What is not there in one more session does not have to be returned. -/
theorem visit (h : Progress file filter visited rids ahead) (s' : Session MemoryFiles) :
    Progress file filter (s' :: visited) rids ahead where
  sorted := h.sorted
  behind := h.behind
  covered rid bytes hlive hpass := h.covered rid bytes (fun t ht => hlive t (.tail _ ht)) hpass
  live rid hrid := by
    obtain ⟨t, ht, hpassing⟩ := h.live rid hrid
    exact ⟨t, .tail _ ht, hpassing⟩

/-- The first record ahead that passes is returned. -/
theorem found (h : Progress file filter visited rids ahead) (hs : s ∈ visited) {rid : RecordId}
    (hfinds : (law.volume s.db file).Finds filter ahead (some rid)) :
    Progress file filter visited (rids ++ [rid]) (rid.Before ·) := by
  obtain ⟨hahead, hpassing, hfirst⟩ := hfinds
  refine ⟨?_, ?_, ?_, ?_⟩
  · refine List.pairwise_append.2 ⟨h.sorted, List.pairwise_singleton _ _, fun r hr x hx => ?_⟩
    obtain rfl := List.mem_singleton.1 hx
    exact h.behind r hr _ hahead
  · intro r hr x hx
    rcases List.mem_append.1 hr with hr | hr
    · exact (h.behind r hr _ hahead).trans hx
    · exact List.mem_singleton.1 hr ▸ hx
  · intro x bytes hlive hpass
    rcases h.covered x bytes hlive hpass with hx | hx
    · exact .inl (List.mem_append_left _ hx)
    · rcases RecordId.Before.trichotomy x rid with hbefore | rfl | hbehind
      · exact absurd ⟨bytes, hlive s hs, hpass⟩ (hfirst x hx hbefore)
      · exact .inl (List.mem_append_right _ (List.mem_singleton_self _))
      · exact .inr hbehind
  · intro r hr
    rcases List.mem_append.1 hr with hr | hr
    · exact h.live r hr
    · exact ⟨s, hs, List.mem_singleton.1 hr ▸ hpassing⟩

/-- When no record ahead passes, all that had to be returned was. -/
theorem complete (h : Progress file filter visited rids ahead) (hs : s ∈ visited)
    (hfinds : (law.volume s.db file).Finds filter ahead none) {rid : RecordId} {bytes : Bytes}
    (hlive : ∀ t ∈ visited, t.records file rid = some bytes)
    (hpass : passes filter bytes = true) : rid ∈ rids := by
  rcases h.covered rid bytes hlive hpass with hrid | hrid
  · exact hrid
  · exact absurd ⟨bytes, hlive s hs, hpass⟩ (hfinds rid hrid)

/-- What is not ahead any more must have been returned. -/
theorem ended (h : Progress file filter visited rids ahead) (hs : s ∈ visited)
    (hfinds : (law.volume s.db file).Finds filter ahead none)
    (hnone : ∀ rid, ¬ahead' rid) : Progress file filter visited rids ahead' where
  sorted := h.sorted
  behind _ _ other hother := absurd hother (hnone other)
  covered _ _ hlive hpass := .inl (h.complete hs hfinds hlive hpass)
  live := h.live

end Progress

/-! ## Scanning -/

/-- A scan goes on from the session at its start, with commands in between that leave it where it
stands; the sessions that it has visited, the last one in front, and the addresses that it has
returned. -/
inductive Scanning (name : String) (start : Session MemoryFiles) :
    Session MemoryFiles → List (Session MemoryFiles) → List RecordId → Prop
  /-- At first nothing is returned. -/
  | start : Scanning name start start [start] []
  /-- The scan goes on to a record. -/
  | found {s s' : Session MemoryFiles} {visited : List (Session MemoryFiles)}
      {rids : List RecordId} {rid : RecordId} :
      Scanning name start s visited rids →
      Session.step s (.tell name .next) = .ok (.address (some rid), s') → s'.Small →
      Scanning name start s' (s' :: visited) (rids ++ [rid])
  /-- The scan comes to the end. -/
  | ended {s s' : Session MemoryFiles} {visited : List (Session MemoryFiles)}
      {rids : List RecordId} :
      Scanning name start s visited rids →
      Session.step s (.tell name .next) = .ok (.address none, s') → s'.Small →
      Scanning name start s' (s' :: visited) rids
  /-- Any other command is carried out, or refused. -/
  | other {s s' : Session MemoryFiles} {visited : List (Session MemoryFiles)}
      {rids : List RecordId} {c : Command} {reply : Reply} :
      Scanning name start s visited rids → c.HeapLevel →
      (∀ c', c = .tell name c' → c'.Rests) → Session.step s c = .ok (reply, s') → s'.Small →
      Scanning name start s' (s' :: visited) rids

variable {s₀ : Session MemoryFiles} {visited : List (Session MemoryFiles)} {rids : List RecordId}

/-- What a scan finds in the sessions that it visits, and what is ahead of it then, when at first
the addresses in `first` are. -/
inductive Finding (file : FileId) (filter : Option Filter) (s₀ : Session MemoryFiles)
    (first : RecordId → Prop) :
    List (Session MemoryFiles) → List RecordId → (RecordId → Prop) → Prop
  /-- At first nothing is found. -/
  | start : Finding file filter s₀ first [s₀] [] first
  /-- The first record ahead that passes the filter is found. -/
  | found {s s' : Session MemoryFiles} {visited : List (Session MemoryFiles)}
      {rids : List RecordId} {rid : RecordId} {ahead : RecordId → Prop} :
      Finding file filter s₀ first visited rids ahead → s ∈ visited →
      (law.volume s.db file).Finds filter ahead (some rid) →
      Finding file filter s₀ first (s' :: visited) (rids ++ [rid]) (rid.Before ·)
  /-- No record ahead passes the filter. -/
  | ended {s s' : Session MemoryFiles} {visited : List (Session MemoryFiles)}
      {rids : List RecordId} {ahead : RecordId → Prop} :
      Finding file filter s₀ first visited rids ahead → s ∈ visited →
      (law.volume s.db file).Finds filter ahead none →
      Finding file filter s₀ first (s' :: visited) rids fun _ => False
  /-- The scan stays where it is. -/
  | other {s' : Session MemoryFiles} {visited : List (Session MemoryFiles)}
      {rids : List RecordId} {ahead : RecordId → Prop} :
      Finding file filter s₀ first visited rids ahead →
      Finding file filter s₀ first (s' :: visited) rids ahead

/-- A scan that has returned some records when it starts returns others behind them. -/
theorem Finding.progress {file : FileId} {filter : Option Filter} {first ahead : RecordId → Prop}
    {returned : List RecordId} (h : Progress file filter [s₀] returned first)
    (finding : Finding file filter s₀ first visited rids ahead) :
    Progress file filter visited (returned ++ rids) ahead := by
  induction finding with
  | start => rwa [List.append_nil]
  | found _ hs hfinds ih =>
    rw [← List.append_assoc]
    exact (ih.found hs hfinds).visit _
  | ended _ hs hfinds ih => exact (ih.ended hs hfinds fun _ => id).visit _
  | other _ ih => exact ih.visit _

/-- What is found, and what is ahead then, was ahead at first. -/
theorem Finding.within {file : FileId} {filter : Option Filter} {first ahead : RecordId → Prop}
    (hfirst : ∀ a b, first a → a.Before b → first b)
    (finding : Finding file filter s₀ first visited rids ahead) :
    (∀ rid ∈ rids, first rid) ∧ ∀ rid, ahead rid → first rid := by
  induction finding with
  | start => exact ⟨nofun, fun _ => id⟩
  | found _ _ hfinds ih =>
    obtain ⟨hrids, hahead⟩ := ih
    have hfound := hahead _ hfinds.1
    refine ⟨fun r hr => ?_, fun r => hfirst _ r hfound⟩
    rcases List.mem_append.1 hr with hr | hr
    · exact hrids r hr
    · exact List.mem_singleton.1 hr ▸ hfound
  | ended _ _ _ ih => exact ⟨ih.1, fun _ => False.elim⟩
  | other _ ih => exact ih

/-- Where a scan has come to, and what it has found so far. -/
structure Underway (name : String) (file : FileId) (filter : Option Filter)
    (first : RecordId → Prop) (s₀ s : Session MemoryFiles) (visited : List (Session MemoryFiles))
    (rids : List RecordId) : Prop where
  sound : s.Sound
  small : s.Small
  here : s ∈ visited
  heaps : ∀ t ∈ visited, t.db.HasHeap file
  scan : ∃ scan, s.handles.find? name = some (.scan scan) ∧ scan.filter = filter ∧
    scan.heap.file.id = file ∧ Finding file filter s₀ first visited rids scan.heap.Ahead

/-- One more session is visited. -/
theorem Underway.visit {file : FileId} {filter : Option Filter} {first : RecordId → Prop}
    (h : Underway name file filter first s₀ s visited rids) (hlevel : c.HeapLevel)
    (hstep : Session.step s c = .ok (reply, s')) (hsmall : s'.Small) {rids' : List RecordId}
    (hscan : ∃ scan, s'.handles.find? name = some (.scan scan) ∧ scan.filter = filter ∧
      scan.heap.file.id = file ∧
      Finding file filter s₀ first (s' :: visited) rids' scan.heap.Ahead) :
    Underway name file filter first s₀ s' (s' :: visited) rids' := by
  have hfollows := follows_step h.sound h.small hlevel hstep
  refine ⟨hfollows.sound, hsmall, .head _, fun t ht => ?_, hscan⟩
  rcases List.mem_cons.1 ht with rfl | ht
  · exact hfollows.heaps file (h.heaps s h.here)
  · exact h.heaps t ht

/-- What is ahead of a scan does not change where it stands. -/
theorem ahead_of_stands {scan' : Scan} (hposition : scan'.heap.position = scan.heap.position)
    (hrecord : scan'.heap.record = scan.heap.record) : scan'.heap.Ahead = scan.heap.Ahead := by
  funext rid
  unfold HeapFile.Ahead HeapFile.AheadFrom HeapFile.scanStart
  rw [hposition, hrecord]

/-- A scan finds what is ahead of it, wherever it starts. -/
theorem Scanning.underway (hsound : s₀.Sound) (hsmall : s₀.Small)
    (hfind : s₀.handles.find? name = some (.scan scan))
    (scanning : Scanning name s₀ s visited rids) :
    Underway name scan.heap.file.id scan.filter scan.heap.Ahead s₀ s visited rids := by
  induction scanning with
  | start =>
    refine ⟨hsound, hsmall, List.mem_singleton_self _, fun t ht => ?_, scan, hfind, rfl, rfl,
      .start⟩
    rw [List.mem_singleton.1 ht]
    exact hsound.hasHeap hfind rfl
  | found _ hstep hsmall ih =>
    have hlevel : (Command.tell name .next).HeapLevel := trivial
    obtain ⟨scan', hfind', hfilter', hfile', hfinding⟩ := ih.scan
    rcases of_step (ensures_next ih.sound hfind') hstep with
      ⟨found, scan'', heq, hfind'', hfilter, hfile, hfinds, hposition, hrecord⟩ | ⟨e, he, -⟩
    · cases heq
      rw [hfilter', hfile'] at hfinds
      refine ih.visit hlevel hstep hsmall
        ⟨scan'', hfind'', hfilter.trans hfilter', hfile ▸ hfile', ?_⟩
      have hahead : scan''.heap.Ahead = (RecordId.Before _ ·) :=
        funext fun other => propext (HeapFile.ahead_of_record hposition (hrecord _ rfl))
      rw [hahead]
      exact hfinding.found ih.here hfinds
    · cases he
  | ended _ hstep hsmall ih =>
    have hlevel : (Command.tell name .next).HeapLevel := trivial
    obtain ⟨scan', hfind', hfilter', hfile', hfinding⟩ := ih.scan
    rcases of_step (ensures_next ih.sound hfind') hstep with
      ⟨found, scan'', heq, hfind'', hfilter, hfile, hfinds, hposition, -⟩ | ⟨e, he, -⟩
    · cases heq
      rw [hfilter', hfile'] at hfinds
      refine ih.visit hlevel hstep hsmall
        ⟨scan'', hfind'', hfilter.trans hfilter', hfile ▸ hfile', ?_⟩
      have hahead : scan''.heap.Ahead = fun _ => False :=
        funext fun other => propext ⟨HeapFile.not_ahead_of_end hposition, False.elim⟩
      rw [hahead]
      exact hfinding.ended ih.here hfinds
    · cases he
  | @other s s' visited rids c reply _ hlevel hrests hstep hsmall ih =>
    obtain ⟨scan', hfind', hfilter', hfile', hfinding⟩ := ih.scan
    obtain ⟨scan'', hfind'', hfilter, hfile, hposition, hrecord⟩ :=
      stands_of_step ih.sound ih.small hfind' hlevel hrests hstep
    refine ih.visit hlevel hstep hsmall
      ⟨scan'', hfind'', hfilter.trans hfilter', hfile ▸ hfile', ?_⟩
    rw [ahead_of_stands hposition hrecord]
    exact hfinding.other

/-- What a scan answers next is the first record ahead that passes the filter. -/
theorem Underway.exists_ahead {file : FileId} {filter : Option Filter} {first : RecordId → Prop}
    (h : Underway name file filter first s₀ s visited rids) :
    ∃ ahead, Finding file filter s₀ first visited rids ahead ∧
      ∀ found s', Session.step s (.tell name .next) = .ok (.address found, s') →
        (law.volume s.db file).Finds filter ahead found := by
  obtain ⟨scan, hfind, rfl, rfl, hfinding⟩ := h.scan
  refine ⟨_, hfinding, fun found s' hstep => ?_⟩
  rcases of_step (ensures_next h.sound hfind) hstep with
    ⟨found, scan', heq, -, -, -, hfinds, -⟩ | ⟨e, he, -⟩
  · cases heq
    exact hfinds
  · cases he

/-- Where a scan is on its way, and what it has returned so far. -/
structure OnTheWay (name : String) (file : FileId) (filter : Option Filter)
    (s : Session MemoryFiles) (visited : List (Session MemoryFiles)) (rids : List RecordId) :
    Prop where
  sound : s.Sound
  small : s.Small
  here : s ∈ visited
  heaps : ∀ t ∈ visited, t.db.HasHeap file
  scan : ∃ scan, s.handles.find? name = some (.scan scan) ∧ scan.filter = filter ∧
    scan.heap.file.id = file ∧ Progress file filter visited rids scan.heap.Ahead

/-- What a scan had returned when it started and what it has found since are what it has returned.
-/
theorem Underway.onTheWay {file : FileId} {filter : Option Filter} {first : RecordId → Prop}
    {returned : List RecordId} (h : Underway name file filter first s₀ s visited rids)
    (hprogress : Progress file filter [s₀] returned first) :
    OnTheWay name file filter s visited (returned ++ rids) := by
  obtain ⟨scan, hfind, hfilter, hfile, hfinding⟩ := h.scan
  exact ⟨h.sound, h.small, h.here, h.heaps, scan, hfind, hfilter, hfile,
    hfinding.progress hprogress⟩

/-- At its start a scan has returned nothing, and all records are ahead of it. -/
theorem progress_of_start (hfind : s₀.handles.find? name = some (.scan scan))
    (hstart : StandsAtStart name s₀) :
    Progress scan.heap.file.id scan.filter [s₀] [] scan.heap.Ahead := by
  obtain ⟨_, hfind', hposition, hrecord⟩ := hstart
  rw [hfind] at hfind'
  cases hfind'
  refine ⟨.nil, nofun, fun rid bytes hlive _ => .inr ?_, nofun⟩
  have hrid : (law.volume s₀.db scan.heap.file.id).record? rid = some bytes :=
    hlive s₀ (List.mem_singleton_self _)
  exact HeapFile.ahead_of_start hposition hrecord (Volume.isData_of_record? hrid)

/-- Along a scan all is as it should be. -/
theorem Scanning.onTheWay (begins : Begins capacity name s₀)
    (hfind : s₀.handles.find? name = some (.scan scan))
    (scanning : Scanning name s₀ s visited rids) :
    OnTheWay name scan.heap.file.id scan.filter s visited rids := by
  obtain ⟨⟨heaps, run⟩, hstart⟩ := begins.atStart
  obtain ⟨hsound, hsmall, -⟩ := run.sound
  exact (scanning.underway hsound hsmall hfind).onTheWay (progress_of_start hfind hstart)

/-- What is returned next is there and passes the filter. -/
theorem OnTheWay.live {file : FileId} {filter : Option Filter} {rid : RecordId}
    (h : OnTheWay name file filter s visited rids)
    (hstep : Session.step s (.tell name .next) = .ok (.address (some rid), s')) :
    ∃ bytes, s.records file rid = some bytes ∧ s'.records file rid = some bytes ∧
      passes filter bytes = true := by
  obtain ⟨scan, hfind, rfl, rfl, -⟩ := h.scan
  have hlevel : (Command.tell name .next).HeapLevel := trivial
  have heffect := (follows_step h.sound h.small hlevel hstep).effect
  rcases of_step (ensures_next h.sound hfind) hstep with
    ⟨found, scan', heq, -, -, -, hfinds, -⟩ | ⟨e, he, -⟩
  · cases heq
    obtain ⟨-, ⟨bytes, hbytes, hpass⟩, -⟩ := hfinds
    have hrecords : s'.records = s.records :=
      heffect.unchanged_records (by simp [Command.Changes])
    refine ⟨bytes, hbytes, ?_, hpass⟩
    rw [hrecords]
    exact hbytes
  · cases he

end Session

end PagedHeap
