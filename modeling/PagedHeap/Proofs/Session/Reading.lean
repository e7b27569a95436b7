import PagedHeap.Proofs.Heap.Room
import PagedHeap.Proofs.Session.Reopening
import PagedHeap.Proofs.Session.Scanning

/-!
# What a session finds in a heap file

`Session.Presents` says what a session answers when it opens the heap file of a name for a scan and
asks for the header, reads records at their addresses and scans all of them.  Every handle of a
session over a directory recalls the header and the records of its file
(`Session.Mirrored.recalls`), and a scan that was just opened reads all of them, if the pool has
room for its pages (`Session.Mirrored.tells`).
-/

namespace PagedHeap

open PagedHeap.Action

open MemoryFiles (law)

namespace Session

section Answers

variable {σ : Type} [FileStore σ]

/-- The session answers a command with this reply. -/
def Answers (s : Session σ) (c : Command) (reply : Reply) : Prop :=
  ∃ s', Session.step s c = .ok (reply, s')

/-- What is read through a handle of a heap file is its header, and records that are there. -/
structure Recalls (s : Session σ) (handle : String) (header : HeapHeader) (v : Volume) : Prop where
  header : s.Answers (.tell handle .header) (.heapHeader header)
  records : ∀ rid bytes, s.Answers (.tell handle (.readAt rid)) (.record bytes) →
    v.record? rid = some bytes

/-- All records are read through a scan of a heap file, one after the other and each at its address.
-/
structure Tells (s : Session σ) (handle : String) (header : HeapHeader) (v : Volume) : Prop
    extends s.Recalls handle header v where
  found : ∀ rid bytes, v.record? rid = some bytes →
    s.Answers (.tell handle (.readAt rid)) (.record bytes)
  rows : ∀ limit, v.rows.length < limit →
    s.Answers (.tell handle (.scan limit)) (.rows v.rows .endOfFile)

/-- Whoever opens the heap file of this name for a scan reads this header and the records of these
pages. -/
def Presents (s : Session σ) (name : String) (header : HeapHeader) (v : Volume) : Prop :=
  ∀ handle, s.handles.has handle = false →
    ∃ s', Session.step s (.openAs handle (.heap .scan name)) = .ok (.done, s') ∧
      s'.Tells handle header v

end Answers

end Session

namespace HeapFile

variable {σ : Type} [FileStore σ] {law : PageStore.Reliable σ} {rest : Multiset Pin}
variable {s : HeapState σ} {header : HeapHeader}

/-! ## Scanning all records -/

/-- Without a filter every record passes. -/
theorem passing_none_iff {v : Volume} {rid : RecordId} :
    v.Passing none rid ↔ (v.record? rid).isSome := by
  unfold Volume.Passing
  rw [Option.isSome_iff_exists]
  exact exists_congr fun bytes => and_iff_left rfl

/-- Behind the first one of the records ahead that pass there are the others. -/
theorem mem_behind_iff {v : Volume} {h : HeapFile} {filter : Option Filter} {rid : RecordId}
    {rids : List RecordId} (hbefore : ∀ other ∈ rids, rid.Before other) (hahead : h.Ahead rid)
    (hmem : ∀ other, other ∈ rid :: rids ↔ h.Ahead other ∧ v.Passing filter other)
    (other : RecordId) : other ∈ rids ↔ rid.Before other ∧ v.Passing filter other := by
  constructor
  · intro hin
    exact ⟨hbefore other hin, ((hmem other).1 (List.mem_cons_of_mem _ hin)).2⟩
  · rintro ⟨hbehind, hpasses⟩
    rcases List.mem_cons.1 ((hmem other).2 ⟨hahead.of_before hbehind, hpasses⟩) with rfl | hin
    · exact absurd hbehind (RecordId.Before.irrefl _)
    · exact hin

/-- A scan with room reads all records ahead of it that pass, and changes no page. -/
theorem Roomy.readRows (filter : Option Filter) (rids : List RecordId) (limit : Nat)
    {s : HeapState σ} (h : Roomy law rest s) (hv : (volume law s).IsHeap header)
    (hposition : ∀ page, s.heap.position = some page → (volume law s).IsData page)
    (hsorted : rids.Pairwise RecordId.Before)
    (hmem : ∀ rid, rid ∈ rids ↔ s.heap.Ahead rid ∧ (volume law s).Passing filter rid)
    (hlimit : rids.length < limit) :
    (Session.readRows filter limit).Ensures s
      (fun answer s' => answer = ((volume law s).rowsAt rids, .endOfFile) ∧ Roomy law rest s' ∧
        volume law s' = volume law s) Never := by
  induction rids generalizing s limit with
  | nil =>
    obtain ⟨k, rfl⟩ : ∃ k, limit = k + 1 := ⟨limit - 1, by rw [List.length_nil] at hlimit; omega⟩
    unfold Session.readRows
    rw [ensures_bind, ensures_attempt]
    refine (h.scanNext hv filter hposition).mono ?_ fun _ _ => False.elim
    rintro found s₁ ⟨h₁, hvolume, hfinds, -⟩
    obtain rfl := eq_head?_of_finds hfinds hsorted hmem
    exact ⟨rfl, h₁, hvolume⟩
  | cons rid rids ih =>
    obtain ⟨k, rfl⟩ : ∃ k, limit = k + 1 := ⟨limit - 1, by rw [List.length_cons] at hlimit; omega⟩
    obtain ⟨hbefore, hsorted'⟩ := List.pairwise_cons.1 hsorted
    obtain ⟨hahead, bytes, hbytes, -⟩ := (hmem rid).1 (List.mem_cons_self ..)
    unfold Session.readRows
    rw [ensures_bind, ensures_attempt]
    refine (h.scanNext hv filter hposition).mono ?_ fun _ _ => False.elim
    rintro found s₁ ⟨h₁, hvolume, hfinds, hplace, hfound⟩
    obtain rfl : found = some rid := eq_head?_of_finds hfinds hsorted hmem
    obtain ⟨hrecord, hpage⟩ := hfound rid rfl
    have hv₁ := hvolume ▸ hv
    simp only
    rw [ensures_bind]
    refine (ensures_readCurrent_of_page h₁.attached hv₁ hrecord hpage (hvolume ▸ hbytes)).mono ?_
      fun _ _ => id
    rintro _ s₁ ⟨rfl, rfl⟩
    have hahead₁ (other : RecordId) : s₁.heap.Ahead other ↔ rid.Before other :=
      ahead_of_record hplace hrecord
    have hmem₁ (other : RecordId) : other ∈ rids ↔
        s₁.heap.Ahead other ∧ (volume law s₁).Passing filter other := by
      rw [hahead₁, hvolume]
      exact mem_behind_iff hbefore hahead hmem other
    have hposition₁ : ∀ page, s₁.heap.position = some page → (volume law s₁).IsData page := by
      intro page heq
      rw [hplace] at heq
      obtain rfl := Option.some.inj heq
      rw [hvolume]
      exact Volume.isData_of_record? hbytes
    rw [ensures_bind]
    refine (ih k h₁ hv₁ hposition₁ hsorted' hmem₁ (Nat.lt_of_succ_lt_succ hlimit)).mono ?_
      fun _ _ => id
    rintro _ s₂ ⟨rfl, h₂, hvolume₂⟩
    refine ⟨?_, h₂, hvolume₂.trans hvolume⟩
    rw [hvolume]
    unfold Volume.rowsAt
    rw [List.filterMap_cons, hbytes]
    rfl

/-- Whatever a scan reads, it changes no page. -/
theorem stays_readRows (filter : Option Filter) (limit : Nat) {s : HeapState σ}
    (h : Attached law rest s) (hv : (volume law s).IsHeap header) :
    (Session.readRows filter limit).Ensures s (fun _ => Stays law rest s)
      fun _ => Stays law rest s := by
  induction limit generalizing s with
  | zero => exact ⟨h, .refl _, rfl⟩
  | succ k ih =>
    unfold Session.readRows
    rw [ensures_bind, ensures_attempt]
    refine (ensures_scanNext filter h hv).mono ?_ fun _ _ => id
    rintro found s₁ ⟨hstays, -⟩
    have h₁ := hstays.attached
    have hv₁ := hv
    rw [← hstays.volume_eq] at hv₁
    cases found with
    | none => exact hstays
    | some rid =>
      simp only
      rw [ensures_bind]
      refine (ensures_readCurrent h₁ hv₁).mono ?_ ?_
      · rintro record _ ⟨rfl, -⟩
        rw [ensures_bind]
        exact (ih h₁ hv₁).mono (fun _ _ => hstays.trans) fun _ _ => hstays.trans
      · rintro e _ rfl
        exact hstays

end HeapFile

/-! ## Opening what is shown -/

namespace Database

variable {d : Database DiskFiles} {e : Database MemoryFiles} {name : String} {v : Volume}

/-- A file that was opened has the pages that it was shown with. -/
theorem Mirrored.volume_of_opens (h : d.Mirrored e) (hoffers : d.files.Offers e.files name)
    {file : FileHandle} {d' : DiskFiles} (hopens : d.files.Opens name file d')
    (hshown : d.shown name = some v) : law.volume e file.id = v := by
  obtain ⟨count, -, hold | ⟨hnone, -, rfl⟩⟩ := hopens.opened
  · exact Option.some.inj ((h.shown_of_open hold).symm.trans hshown)
  · have hclosed := Table.has_of_find?_none hnone
    rw [shown_of_closed hclosed] at hshown
    unfold DiskFiles.imageNamed? at hshown
    rw [Option.map_map] at hshown
    obtain ⟨i, hi, rfl⟩ := Option.map_eq_some_iff.1 hshown
    rw [volume_eq_over (hoffers hclosed i hi).2 e.pool]
    refine Pool.over_eq (fun key hkey => ?_) _
    rw [h.pool] at hkey
    exact h.files.coherent.ne_next (h.cached key hkey)

/-- A file that is shown is opened in the mirror, if it is offered. -/
theorem Mirrored.exists_openFile (h : d.Mirrored e) (hbooked : e.files.Booked)
    (hoffers : d.files.Offers e.files name) (hroom : d.files.nextId.toNat + 1 < 2 ^ 32)
    (hcheck : FileName.check name = .ok ()) (hshown : d.shown name = some v) :
    ∃ file e', onFiles (FileStore.openFile name) e = .ok file e' ∧ law.volume e file.id = v := by
  have hagrees : Agrees True _ _ d e _ _ := agrees_openFile h hoffers hroom
  cases hrun : (onFiles (FileStore.openFile name) : Action (Database DiskFiles) FileHandle) d with
  | ok file d' =>
    obtain ⟨e', hrun', -, hopens, -⟩ := hagrees.of_ok hrun
    exact ⟨file, e', hrun', h.volume_of_opens hoffers hopens hshown⟩
  | error f d' =>
    cases f with
    | error cause =>
      obtain ⟨-, -, -, -, hunnamed⟩ := hagrees.of_error hrun
      have hnamed := has_of_shown hshown
      rw [hunnamed hcheck] at hnamed
      cases hnamed
    | trap c =>
      obtain ⟨e', hrun'⟩ := hagrees.of_trap trivial hrun
      have hopens : (onFiles (FileStore.openFile name)).Ensures e (fun _ _ => True)
          fun _ _ => True :=
        ensures_onPart.2 ((MemoryFiles.ensures_openFile hbooked name).mono (fun _ _ _ => trivial)
          fun _ _ _ => trivial)
      exact absurd hrun' hopens.not_trap

end Database

/-! ## Reading through a handle -/

namespace Session

variable {s : Session DiskFiles} {t : Session MemoryFiles} {name handle : String} {v : Volume}
variable {header : HeapHeader} {rest : Multiset Pin} {heap : HeapFile} {c : HandleCommand}
variable {reply : Reply}

/-- What is answered over the mirror is answered over the directory. -/
theorem answers_of_ensures (h : s.Mirrored t) (hsound : t.Sound) (hopen : ¬c.Closes)
    (hinserts : ¬c.Inserts)
    (hx : (perform (.tell handle c)).Ensures t (fun answer _ => answer = reply) Never) :
    s.Answers (.tell handle c) reply := by
  obtain ⟨_, t', hrun, rfl⟩ := hx.exists_ok
  obtain ⟨s', hrun', -⟩ :=
    (agrees_tell h hsound handle hopen fun hin => absurd hin hinserts).exists_ok
    trivial hrun
  exact ⟨s', step_of_ok hrun'⟩

/-- What is answered over the directory is answered over the mirror. -/
theorem Answers.of_ensures (hanswers : s.Answers (.tell handle c) reply) (h : s.Mirrored t)
    (hsound : t.Sound) (hopen : ¬c.Closes) {ok : Reply → Session MemoryFiles → Prop}
    {refused : StorageError → Session MemoryFiles → Prop}
    (hx : (perform (.tell handle c)).Ensures t ok refused) :
    (∃ t', ok reply t') ∨ ∃ e, reply = .failed e := by
  obtain ⟨s', hstep⟩ := hanswers
  have hagrees : Agrees False (perform (.tell handle c)) (perform (.tell handle c)) s t _ _ :=
    agrees_tell h hsound handle hopen fun _ => id
  obtain ⟨t', hstep', -⟩ := exists_step_of_agrees hagrees hstep
  rcases of_step hx hstep' with hok | ⟨e, he, -⟩
  · exact .inl ⟨t', hok⟩
  · exact .inr ⟨e, he⟩

/-- Every handle of a heap file answers its header. -/
theorem ensures_tell_header (hsound : t.Sound) {opened : Handle}
    (hfind : t.handles.find? handle = some opened) (hheap : opened.heap? = some heap)
    (hv : (law.volume t.db heap.file.id).IsHeap header) :
    (perform (.tell handle .header)).Ensures t (fun answer _ => answer = .heapHeader header)
      Never := by
  have hany (wrap : HeapFile → Handle) : (onAnyHeap handle heap wrap .header).Ensures t
      (fun answer _ => answer = .heapHeader header) Never := by
    unfold onAnyHeap
    rw [ensures_bind, ensures_onHeap]
    refine (HeapFile.ensures_header (hsound.attached hfind hheap) hv.header).mono ?_ fun _ _ => id
    rintro _ _ ⟨rfl, -⟩
    rfl
  change (tellHandle handle .header).Ensures t _ _
  unfold tellHandle
  rw [ensures_bind, ensures_get, hfind]
  cases opened with
  | heap heap | scan scan | inserter heap =>
    cases hheap
    exact hany _
  | file file | page pin => cases hheap

/-- A record that a handle of a heap file answers is there. -/
theorem ensures_tell_readAt (hsound : t.Sound) {opened : Handle}
    (hfind : t.handles.find? handle = some opened) (hheap : opened.heap? = some heap)
    (hv : (law.volume t.db heap.file.id).IsHeap header) (rid : RecordId) :
    (perform (.tell handle (.readAt rid))).Ensures t
      (fun answer _ => ∀ bytes, answer = .record bytes →
        (law.volume t.db heap.file.id).record? rid = some bytes) fun _ _ => True := by
  have hget (wrap : HeapFile → Handle) :
      (do return Reply.record (← onHeap handle heap wrap (HeapFile.getRecord rid)) :
        SessionAction MemoryFiles Reply).Ensures t
          (fun answer _ => ∀ bytes, answer = .record bytes →
          (law.volume t.db heap.file.id).record? rid = some bytes) fun _ _ => True := by
    rw [ensures_bind, ensures_onHeap]
    refine (HeapFile.ensures_getRecord (hsound.attached hfind hheap) hv rid).mono ?_
      fun _ _ _ => trivial
    rintro bytes _ ⟨-, hbytes, -⟩
    intro other heq
    cases heq
    exact hbytes
  change (tellHandle handle (.readAt rid)).Ensures t _ _
  unfold tellHandle
  rw [ensures_bind, ensures_get, hfind]
  cases opened with
  | heap heap | scan scan =>
    cases hheap
    exact hget _
  | inserter heap => exact nofun
  | file file | page pin => cases hheap

/-- What a handle answers is what its file is shown with. -/
theorem Mirrored.recalls (h : s.Mirrored t) (hsound : t.Sound) {opened : Handle}
    (hfind : t.handles.find? handle = some opened) (hheap : opened.heap? = some heap)
    (hv : (law.volume t.db heap.file.id).IsHeap header) :
    s.Recalls handle header (law.volume t.db heap.file.id) where
  header := answers_of_ensures h hsound id id (ensures_tell_header hsound hfind hheap hv)
  records rid bytes hanswers := by
    rcases hanswers.of_ensures h hsound id (ensures_tell_readAt hsound hfind hheap hv rid) with
      ⟨-, hbytes⟩ | ⟨e, he⟩
    · exact hbytes bytes rfl
    · cases he

/-- A scan at its start in a pool with room reads all rows of its heap file. -/
theorem ensures_scan_rows (hfind : t.handles.find? handle = some (.scan (Scan.start heap)))
    (hroomy : HeapFile.Roomy law rest ⟨t.db, heap⟩)
    (hv : (law.volume t.db heap.file.id).IsHeap header) (hposition : heap.position = some ⟨2⟩)
    (hrecord : heap.record = none) {limit : Nat}
    (hlimit : (law.volume t.db heap.file.id).rows.length < limit) :
    (perform (.tell handle (.scan limit))).Ensures t
      (fun answer _ => answer = .rows (law.volume t.db heap.file.id).rows .endOfFile) Never := by
  rw [hv.length_rows] at hlimit
  have hahead (rid : RecordId) : rid ∈ Volume.listing (law.volume t.db heap.file.id)
      (Volume.dataPages (law.volume t.db heap.file.id)) ↔
      heap.Ahead rid ∧ Volume.Passing (law.volume t.db heap.file.id) none rid := by
    rw [hv.mem_listing, HeapFile.passing_none_iff]
    refine ⟨fun hsome => ⟨?_, hsome⟩, And.right⟩
    obtain ⟨bytes, hbytes⟩ := Option.isSome_iff_exists.1 hsome
    exact HeapFile.ahead_of_start hposition hrecord (Volume.isData_of_record? hbytes)
  have hplace (page : PageId) (hpage : heap.position = some page) :
      Volume.IsData (law.volume t.db heap.file.id) page := by
    obtain rfl := Option.some.inj (hposition.symm.trans hpage)
    exact hv.isData_two
  rw [ensures_tell hfind]
  unfold onScan
  dsimp only
  rw [ensures_bind, ensures_onHeap]
  refine (hroomy.readRows none _ limit hv hplace hv.sorted_listing hahead hlimit).mono ?_
    fun _ _ => id
  rintro _ _ ⟨rfl, -⟩
  rfl

/-- A scan in a pool with room reads a record that is there. -/
theorem ensures_scan_readAt (hfind : t.handles.find? handle = some (.scan (Scan.start heap)))
    (hroomy : HeapFile.Roomy law rest ⟨t.db, heap⟩)
    (hv : (law.volume t.db heap.file.id).IsHeap header) {rid : RecordId} {bytes : Bytes}
    (hbytes : (law.volume t.db heap.file.id).record? rid = some bytes) :
    (perform (.tell handle (.readAt rid))).Ensures t (fun answer _ => answer = .record bytes)
      Never := by
  rw [ensures_tell hfind]
  unfold onScan
  dsimp only
  rw [ensures_bind, ensures_onHeap]
  refine (hroomy.getRecord hv hbytes).mono ?_ fun _ _ => id
  rintro _ _ rfl
  rfl

/-- What a command ensures in memory, it answers. -/
theorem Answers.of_memory {c : Command}
    (hx : (perform c).Ensures t (fun answer _ => answer = reply) Never) : t.Answers c reply := by
  obtain ⟨_, t', hrun, rfl⟩ := hx.exists_ok
  exact ⟨t', step_of_ok hrun⟩

/-- In memory, too, a scan at its start in a pool with room reads all of its heap file. -/
theorem Sound.tells (hsound : t.Sound)
    (hfind : t.handles.find? handle = some (.scan (Scan.start heap)))
    (hroomy : HeapFile.Roomy law rest ⟨t.db, heap⟩)
    (hv : (law.volume t.db heap.file.id).IsHeap header) (hposition : heap.position = some ⟨2⟩)
    (hrecord : heap.record = none) : t.Tells handle header (law.volume t.db heap.file.id) where
  header := .of_memory (ensures_tell_header hsound hfind rfl hv)
  records rid bytes hanswers := by
    obtain ⟨t', hstep⟩ := hanswers
    rcases of_step (ensures_tell_readAt hsound hfind rfl hv rid) hstep with hbytes | ⟨e, he, -⟩
    · exact hbytes bytes rfl
    · cases he
  found _ _ hbytes := .of_memory (ensures_scan_readAt hfind hroomy hv hbytes)
  rows _ hlimit := .of_memory (ensures_scan_rows hfind hroomy hv hposition hrecord hlimit)

/-- A scan at its start in a pool with room reads all of its heap file. -/
theorem Mirrored.tells (h : s.Mirrored t) (hsound : t.Sound)
    (hfind : t.handles.find? handle = some (.scan (Scan.start heap)))
    (hroomy : HeapFile.Roomy law rest ⟨t.db, heap⟩)
    (hv : (law.volume t.db heap.file.id).IsHeap header) (hposition : heap.position = some ⟨2⟩)
    (hrecord : heap.record = none) : s.Tells handle header (law.volume t.db heap.file.id) where
  toRecalls := h.recalls hsound hfind rfl hv
  found _ _ hbytes :=
    answers_of_ensures h hsound id id (ensures_scan_readAt hfind hroomy hv hbytes)
  rows _ hlimit := answers_of_ensures h hsound id id
    (ensures_scan_rows hfind hroomy hv hposition hrecord hlimit)

end Session

end PagedHeap
