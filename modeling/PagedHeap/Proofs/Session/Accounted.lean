import PagedHeap.Proofs.File.DiskBooks
import PagedHeap.Proofs.File.MemoryBooks
import PagedHeap.Proofs.Session.Accounts
import PagedHeap.Proofs.Session.Handles

/-!
# Pins and openings at every step

Commands on heap files follow one another over either store, answered or refused (`Session.Course`).
At every step the pins on a page are those of the handles that hold it, and the openings of a file
those of the handles on it (`Session.Accounted`).  So what is refused leaves both as they were, and
once all handles are given up nothing is pinned and every file can be removed
(`Session.Course.accounted`).

So pins and openings fit into counters of 32 bits (`Session.Course.counters_lt`).  A pool with two
frames for each handle, and two more, is never exhausted (`Session.Course.not_exhausted`).
-/

namespace PagedHeap

open PagedHeap.Action

/-- No file in memory has more pages than there are page numbers, so that they tell its pages
apart. -/
def MemoryFiles.FewPages (files : MemoryFiles) : Prop := ∀ file, (files.pages file).size ≤ 2 ^ 32

/-- The command makes a heap file or opens one. -/
def Command.Brings : Command → Prop
  | .create _ | .openAs _ (.heap ..) => True
  | _ => False

theorem Command.Brings.heapLevel {c : Command} (h : c.Brings) : c.HeapLevel := by
  cases c with
  | create => trivial
  | openAs handle opening =>
    cases opening with
    | heap => trivial
    | _ => exact h.elim
  | _ => exact h.elim

/-- Without pins on any page there are none in all. -/
theorem Pool.pinned_eq_zero {p : Pool} (hnodup : p.frames.keys.Nodup)
    (hpins : ∀ key, p.pinCount key = 0) : p.pinned = 0 := by
  have hzero (entry : FrameKey × Frame) (hentry : entry ∈ p.frames) : entry.2.pins = 0 := by
    rw [← pinCount_of_find? (Table.find?_of_mem hnodup hentry)]
    exact hpins entry.1
  have hsum (frames : Table FrameKey Frame) (hframes : ∀ entry ∈ frames, entry.2.pins = 0) :
      frames.foldr (fun entry n => entry.2.pins + n) 0 = 0 := by
    induction frames with
    | nil => rfl
    | cons entry frames ih =>
      rw [List.foldr_cons, hframes entry (List.mem_cons_self ..), Nat.zero_add]
      exact ih fun other hother => hframes other (List.mem_cons_of_mem _ hother)
  exact hsum p.frames hzero

/-! ## What a handle holds -/

namespace Handle

/-- Whether a handle holds a page as the header page of its heap file. -/
def holdsHeader (key : FrameKey) (handle : Handle) : Bool :=
  handle.heap?.any fun heap => heap.headerPin.key = key

/-- Whether a handle holds a page as the current page of its heap file. -/
def holdsData (key : FrameKey) (handle : Handle) : Bool :=
  handle.heap?.any fun heap => heap.current.any fun pin => pin.key = key

/-- Whether a handle is one of a heap file with this name. -/
def isOn (name : String) (handle : Handle) : Bool :=
  handle.heap?.any fun heap => heap.file.name = name

/-- A handle pins its header page once and its current page once. -/
theorem count_keys (handle : Handle) (key : FrameKey) :
    handle.keys.count key = (handle.holdsHeader key).toNat + (handle.holdsData key).toNat := by
  unfold keys holdsHeader holdsData
  cases handle.heap? with
  | none => rfl
  | some heap =>
    have hheader : (decide (heap.headerPin.key = key)).toNat =
        if key = heap.headerPin.key then 1 else 0 := by
      by_cases heq : heap.headerPin.key = key
      · rw [decide_eq_true heq, if_pos heq.symm]
        rfl
      · rw [decide_eq_false heq, if_neg (Ne.symm heq)]
        rfl
    have hdata : Multiset.count key ((heap.current.map Pin.key).elim 0 fun key => {key}) =
        (heap.current.any fun pin => decide (pin.key = key)).toNat := by
      cases heap.current with
      | none => exact Multiset.count_zero key
      | some pin =>
        change Multiset.count key {pin.key} = (decide (pin.key = key)).toNat
        rw [Multiset.count_singleton]
        by_cases heq : pin.key = key
        · rw [decide_eq_true heq, if_pos heq.symm]
          rfl
        · rw [decide_eq_false heq, if_neg (Ne.symm heq)]
          rfl
    change Multiset.count key heap.keys = (decide (heap.headerPin.key = key)).toNat + _
    unfold HeapFile.keys
    rw [Multiset.count_cons, hdata, hheader, Nat.add_comm]
    rfl

end Handle

namespace Session

/-- The number of handles with a property. -/
def countHandles {σ : Type} (s : Session σ) (p : Handle → Bool) : Nat :=
  s.handles.countP fun entry => p entry.2

/-- The pins are those of the handles. -/
theorem count_keysOf {σ : Type} (s : Session σ) (key : FrameKey) :
    (keysOf s.handles).count key =
      s.countHandles (Handle.holdsHeader key) + s.countHandles (Handle.holdsData key) := by
  unfold countHandles
  induction s.handles with
  | nil => exact Multiset.count_zero key
  | cons entry handles ih =>
    have hcons : keysOf (entry :: handles) = entry.2.keys + keysOf handles := List.sum_cons
    rw [hcons, Multiset.count_add, Handle.count_keys, ih, List.countP_cons, List.countP_cons]
    cases Handle.holdsHeader key entry.2 <;> cases Handle.holdsData key entry.2 <;>
      simp only [Bool.toNat_true, Bool.toNat_false, if_true, Bool.false_eq_true, if_false] <;> omega

/-- The openings of a name are those of the handles. -/
theorem countP_heldFiles {σ : Type} (s : Session σ) (name : String) :
    (heldFiles s.handles).countP (fun file => file.name = name) =
      s.countHandles (Handle.isOn name) := by
  unfold countHandles
  induction s.handles with
  | nil => exact Multiset.countP_zero _
  | cons entry handles ih =>
    have hcons : heldFiles (entry :: handles) = heldBy entry.2 + heldFiles handles := by
      rw [heldFiles_eq_total, heldFiles_eq_total]
      exact List.sum_cons
    have hentry : (heldBy entry.2).countP (fun file => file.name = name) =
        if Handle.isOn name entry.2 then 1 else 0 := by
      unfold heldBy Handle.isOn
      cases entry.2.heap? with
      | none => exact Multiset.countP_zero _
      | some heap =>
        change Multiset.countP _ {heap.file} = if decide (heap.file.name = name) then 1 else 0
        rw [← Multiset.cons_zero, Multiset.countP_cons, Multiset.countP_zero, Nat.zero_add]
        simp only [decide_eq_true_eq]
    rw [hcons, Multiset.countP_add, hentry, ih, List.countP_cons, Nat.add_comm]

/-! ## What holds at every step -/

variable {σ : Type} [FileStore σ] {few : σ → Prop} {books : FileStore.Books σ} {capacity : Nat}
variable {s s' : Session σ} {c : Command} {reply : Reply} {name : String} {e : StorageError}

/-- Commands on heap files lead from one session to another, whether they are answered or
refused. -/
inductive Course (s : Session σ) : Session σ → Prop
  /-- At first nothing is done. -/
  | start : Course s s
  /-- One more command is answered or refused. -/
  | step {s' s'' : Session σ} {c : Command} {reply : Reply} : Course s s' → c.HeapLevel →
      Session.step s' c = .ok (reply, s'') → Course s s''

/-- The pins and openings of a session are those of its handles.  Pins can be told apart only if
there are few enough pages. -/
structure Accounted (opened : σ → OpenTable) (few : σ → Prop) (s : Session σ) : Prop where
  /-- A page is pinned by the handles that hold it as header page and by those that are at it. -/
  pins : few s.db.files → ∀ key, s.db.pool.pinCount key =
    s.countHandles (Handle.holdsHeader key) + s.countHandles (Handle.holdsData key)
  /-- However many pages there are, no page has a pin that no handle holds. -/
  covered : ∀ key, s.db.pool.pinCount key ≤
    s.countHandles (Handle.holdsHeader key) + s.countHandles (Handle.holdsData key)
  /-- Every handle holds the header page of its heap file, and is at one of its pages at most. -/
  handles : ∀ entry ∈ s.handles, ∃ heap, entry.2.heap? = some heap ∧ heap.OnFile
  /-- A file was opened once for each handle on it. -/
  openings : ∀ name, (opened s.db.files).openings name = s.countHandles (Handle.isOn name)
  /-- If a heap file could not be made or opened, pins and openings are as before. -/
  failed : ∀ {c e s'}, c.Brings → step s c = .ok (.failed e, s') →
    (few s.db.files → few s'.db.files →
      ∀ key, s'.db.pool.pinCount key = s.db.pool.pinCount key) ∧
    ∀ name, (opened s'.db.files).openings name = (opened s.db.files).openings name
  /-- Without handles nothing is pinned, and every file can be removed. -/
  done : s.handles = [] → s.db.pool.pinned = 0 ∧ ∀ {name t},
    step s (.hasFile name) = .ok (.flag true, t) →
    ∃ s', step s (.destroy name) = .ok (.done, s')
  /-- No file is removed on which there is a handle. -/
  busy : ∀ {name}, 0 < s.countHandles (Handle.isOn name) →
    step s (.destroy name) = .ok (.failed (.fileOpen name), s)

/-- A command is answered without an error, or it is refused with a cause that the handles justify.
-/
theorem InAccount.step (h : InAccount books capacity s) (hlevel : c.HeapLevel)
    (hstep : Session.step s c = .ok (reply, s')) : InAccount books capacity s' ∧
      ∀ e, reply = .failed e → perform c s = .error (.error e) s' ∧
        e.Justified capacity (2 * s.handles.length + 1) := by
  have hkeeps := keepsAccount_perform h hlevel
  rcases run_of_step hstep with hrun | ⟨e, rfl, hrun⟩
  · obtain ⟨hanswered, h'⟩ := hkeeps.of_ok hrun
    exact ⟨h', fun e he => absurd he (hanswered e)⟩
  · obtain ⟨hcause, h'⟩ := hkeeps.of_error hrun
    refine ⟨h', ?_⟩
    rintro _ ⟨⟩
    exact ⟨hrun, hcause⟩

/-- Wherever commands lead, the session is accounted for. -/
theorem Course.inAccount (course : Course s s') (h : InAccount books capacity s) :
    InAccount books capacity s' := by
  induction course with
  | start => exact h
  | step _ hlevel hstep ih => exact (ih.step hlevel hstep).1

/-! ### Commands that are refused -/

/-- If a heap file cannot be made or opened, the handles are as before. -/
theorem handles_of_refused (hbrings : c.Brings) (hrun : perform c s = .error (.error e) s') :
    s'.handles = s.handles := by
  have hpart {α : Type} (x : Action (Database σ) α) :
      (onDatabase x).Allows s (fun _ _ => True) fun _ t => t.handles = s.handles :=
    allows_onPart (.of_cases (fun _ _ _ => trivial) fun _ _ _ => rfl)
  have hallows : (perform c).Allows s (fun _ _ => True) fun _ t => t.handles = s.handles := by
    cases c with
    | create name => exact allows_bind (hpart _) fun _ _ _ => allows_pure trivial
    | openAs name opening =>
      cases opening with
      | heap use title =>
        refine allows_get ?_
        split
        · exact allows_pure trivial
        · exact allows_bind (hpart _) fun _ _ _ => allows_modify_bind (allows_pure trivial)
      | _ => exact hbrings.elim
    | _ => exact hbrings.elim
  exact hallows.of_error hrun

theorem perform_destroy_ok {t : σ} (h : FileStore.destroy name s.db.files = .ok () t) :
    perform (.destroy name) s = .ok .done ⟨⟨t, s.db.pool⟩, s.handles⟩ := by
  have hrun : onDatabase (Database.destroyHeap name) s = .ok () ⟨⟨t, s.db.pool⟩, s.handles⟩ := by
    unfold onDatabase Database.destroyHeap Database.onFiles onPart
    simp only [h]
  exact bind_run_ok hrun _

theorem perform_destroy_error
    (h : FileStore.destroy name s.db.files = .error (.error e) s.db.files) :
    perform (.destroy name) s = .error (.error e) s := by
  refine bind_run_error ?_ _
  unfold onDatabase Database.destroyHeap Database.onFiles onPart
  simp only [h]

/-- Whether a file is there is what the store says. -/
theorem hasFile_of_step {t : Session σ}
    (hstep : Session.step s (.hasFile name) = .ok (.flag true, t)) :
    FileStore.hasFile name s.db.files = .ok true t.db.files := by
  have hallows : (perform (.hasFile name)).Allows s
      (fun reply t => reply = .flag true → FileStore.hasFile name s.db.files = .ok true t.db.files)
      fun _ _ => True := by
    refine allows_bind
      (p := fun found t => FileStore.hasFile name s.db.files = .ok found t.db.files)
      (allows_onPart (allows_onPart (.of_cases (fun _ _ => id) fun _ _ _ => trivial))) ?_
    intro found t hfound
    refine allows_pure ?_
    rintro ⟨⟩
    exact hfound
  rcases run_of_step hstep with hrun | ⟨_, ⟨⟩, -⟩
  exact hallows.of_ok hrun rfl

/-- If there is no frame for an insert, the header page of the heap file and the pages of the other
handles take all frames but one. -/
theorem InAccount.crowded_of_insert {heap : HeapFile} {record : Bytes}
    (h : InAccount books capacity s)
    (hfind : s.handles.find? name = some (.inserter heap))
    (hstep : Session.step s (.tell name (.insert record)) = .ok (.failed e, s')) :
    HeapFile.Crowded capacity heap.file (keysOf (s.handles.erase name)) e := by
  have hcrowded : (perform (.tell name (.insert record))).Allows s
      (fun reply _ => ∀ e, reply ≠ .failed e) fun e _ =>
        HeapFile.Crowded capacity heap.file (keysOf (s.handles.erase name)) e := by
    refine allows_get ?_
    rw [hfind]
    refine allows_bind (p := fun _ _ => True) (allows_onPart ?_) fun _ _ _ => allows_pure nofun
    exact (HeapFile.preserves_insert (mem_heldFiles h.distinct hfind rfl) record
      (h.entrusted hfind rfl)).mono (fun _ _ _ => trivial) fun _ _ hpost => hpost.1
  rcases run_of_step hstep with hrun | ⟨_, ⟨⟩, hrun⟩
  · exact absurd rfl (hcrowded.of_ok hrun e)
  · exact hcrowded.of_error hrun

/-! ### All that is said of a session -/

/-- In a small session every page has a number of its own. -/
theorem Small.numbered {s : Session MemoryFiles} (h : s.Small) :
    MemoryFiles.books.Numbered s.db.files := fun file => (Nat.le_succ _).trans (h file).size.le

theorem Run.course {s : Session MemoryFiles} {heaps : Set FileId} (run : Run capacity s heaps) :
    Course (Session.start .empty capacity) s := by
  induction run with
  | start => exact .start
  | step _ hlevel hstep _ ih => exact ih.step hlevel hstep

theorem DirectoryRun.exists_course {s : Session DiskFiles} (run : DirectoryRun s) :
    ∃ files capacity, Course (Session.start (.ofDirectory files) capacity) s := by
  induction run with
  | start => exact ⟨_, _, .start⟩
  | step _ hlevel hstep _ _ ih =>
    obtain ⟨files, capacity, course⟩ := ih
    exact ⟨files, capacity, course.step hlevel.heapLevel hstep⟩

/-- In a session that is accounted for, pins and openings are those of the handles. -/
theorem InAccount.toAccounted (h : InAccount books capacity s)
    (hfew : ∀ t, few t → books.Numbered t) : s.Accounted books.opened few where
  pins hs key := (h.accounts.counted (hfew _ hs) key).trans (count_keysOf s key)
  covered key := (h.accounts.covered key).trans_eq (count_keysOf s key)
  handles _ hentry := h.standing (Table.find?_of_mem h.distinct hentry)
  openings name := (h.accounts.tallies.openings_eq name).trans (countP_heldFiles s name)
  failed {c e s'} hbrings hstep := by
    obtain ⟨h', hrefused⟩ := h.step hbrings.heapLevel hstep
    have hhandles := handles_of_refused hbrings (hrefused e rfl).1
    refine ⟨fun hs hs' key => ?_, fun name => ?_⟩
    · rw [h'.accounts.counted (hfew _ hs'), hhandles]
      exact (h.accounts.counted (hfew _ hs) key).symm
    · rw [h'.accounts.tallies.openings_eq, hhandles]
      exact (h.accounts.tallies.openings_eq name).symm
  done hnone := by
    have htallies := h.accounts.tallies
    have hcovered := h.accounts.covered
    rw [hnone] at htallies hcovered
    have hpins (key : FrameKey) : s.db.pool.pinCount key = 0 := Nat.le_zero.1 (hcovered key)
    refine ⟨Pool.pinned_eq_zero h.accounts.tracked.nodup hpins, fun {name t} hstep => ?_⟩
    have hclosed : (books.opened s.db.files).has name = false := by
      rw [OpenTable.Tallies.eq_nil htallies]
      rfl
    obtain ⟨u, hdestroy⟩ :=
      books.destroy_closed h.accounts.valid hclosed (hasFile_of_step hstep)
    exact ⟨_, step_of_ok (perform_destroy_ok hdestroy)⟩
  busy {name} hpos := by
    rw [← countP_heldFiles, Multiset.countP_pos] at hpos
    obtain ⟨file, hfile, rfl⟩ := hpos
    obtain ⟨entry, hfind, -⟩ := h.accounts.tallies.entered file hfile
    have hopened := Table.has_of_find? hfind
    exact step_of_refused (perform_destroy_error (books.destroy_open h.accounts.valid hopened))

/-- Commands on heap files in memory, or in any directory, leave pins and openings to the
handles. -/
theorem Course.accounted (capacity : Nat) :
    (∀ {s}, Course (Session.start .empty capacity) s →
      s.Accounted MemoryFiles.opened MemoryFiles.FewPages) ∧
    ∀ {files s}, Course (Session.start (DiskFiles.ofDirectory files) capacity) s →
      s.Accounted DiskFiles.opened fun _ => True := by
  refine ⟨fun {s} course => ?_, fun {files s} course => ?_⟩
  · have h : InAccount MemoryFiles.books capacity s :=
      course.inAccount (inAccount_start MemoryFiles.regular_empty rfl capacity)
    exact h.toAccounted fun _ => id
  · have h : InAccount DiskFiles.books capacity s :=
      course.inAccount (inAccount_start (DiskFiles.regular_ofDirectory files) rfl capacity)
    exact h.toAccounted fun t _ => DiskFiles.numbered_books t

/-- A heap file that is open for inserting, in memory and in a directory. -/
theorem Course.accounted_inserter :
    (∃ s heap, Course (Session.start .empty 8) s ∧ s.handles.find? "h" = some (.inserter heap) ∧
      MemoryFiles.FewPages s.db.files ∧ s.Accounted MemoryFiles.opened MemoryFiles.FewPages) ∧
    ∃ files capacity s heap, Course (Session.start (DiskFiles.ofDirectory files) capacity) s ∧
      s.handles.find? "h" = some (.inserter heap) ∧
      s.Accounted DiskFiles.opened fun _ => True := by
  constructor
  · obtain ⟨s, heaps, s', heap, run, -, hstep, hsmall, hfind⟩ := run_open .insert
    have hlevel : (Command.openAs "h" (.heap .insert "t")).HeapLevel := trivial
    have course := run.course.step hlevel hstep
    have hfew : MemoryFiles.FewPages s'.db.files := fun file =>
      (Nat.le_succ _).trans (hsmall file).size.le
    exact ⟨s', heap, course, hfind, hfew, (Course.accounted 8).1 course⟩
  · obtain ⟨s, v, heap, run, hfind, -⟩ := directoryRun_open
    obtain ⟨files, capacity, course⟩ := run.exists_course
    exact ⟨files, capacity, s, heap, course, hfind, (Course.accounted capacity).2 course⟩

/-! ## Counters that are long enough -/

/-- No page has more pins than two for each handle, and no file was opened more often than there are
handles. -/
theorem InAccount.counters_le (h : InAccount books capacity s) :
    (∀ key, s.db.pool.pinCount key ≤ 2 * s.handles.length) ∧
      ∀ name, (books.opened s.db.files).openings name ≤ s.handles.length := by
  have hle (p : Handle → Bool) : s.countHandles p ≤ s.handles.length := List.countP_le_length
  refine ⟨fun key => ?_, fun name => ?_⟩
  · have hcovered := h.accounts.covered key
    rw [count_keysOf] at hcovered
    have hheader := hle (Handle.holdsHeader key)
    have hdata := hle (Handle.holdsData key)
    omega
  · rw [h.accounts.tallies.openings_eq, countP_heldFiles]
    exact hle _

theorem InAccount.counters_lt (h : InAccount books capacity s) (hfew : s.handles.length < 2 ^ 31) :
    (∀ key, s.db.pool.pinCount key < 2 ^ 32) ∧
      ∀ name, (books.opened s.db.files).openings name < 2 ^ 32 := by
  obtain ⟨hpins, hopenings⟩ := h.counters_le
  exact ⟨fun key => (hpins key).trans_lt (by omega),
    fun name => (hopenings name).trans_lt (by omega)⟩

/-- While there are fewer than 2³¹ handles, counters of 32 bits take the pins on every page and the
openings of every file, in memory and in any directory. -/
theorem Course.counters_lt (capacity : Nat) :
    (∀ {s}, Course (Session.start .empty capacity) s → s.handles.length < 2 ^ 31 →
      (∀ key, s.db.pool.pinCount key < 2 ^ 32) ∧
        ∀ name, (MemoryFiles.opened s.db.files).openings name < 2 ^ 32) ∧
    ∀ {files s}, Course (Session.start (DiskFiles.ofDirectory files) capacity) s →
      s.handles.length < 2 ^ 31 → (∀ key, s.db.pool.pinCount key < 2 ^ 32) ∧
        ∀ name, (DiskFiles.opened s.db.files).openings name < 2 ^ 32 := by
  constructor
  · intro s course hfew
    have h : InAccount MemoryFiles.books capacity s :=
      course.inAccount (inAccount_start MemoryFiles.regular_empty rfl capacity)
    exact h.counters_lt hfew
  · intro files s course hfew
    have h : InAccount DiskFiles.books capacity s :=
      course.inAccount (inAccount_start (DiskFiles.regular_ofDirectory files) rfl capacity)
    exact h.counters_lt hfew

/-! ## Frames enough -/

/-- As long as there are two frames for each of the handles and two more, no command in memory is
refused because there is no frame left. -/
theorem Course.not_exhausted {k : Nat} {s s' : Session MemoryFiles}
    (course : Course (Session.start .empty capacity) s)
    (hcapacity : 2 * k + 2 ≤ capacity) (hhandles : s.handles.length ≤ k) (hlevel : c.HeapLevel)
    (hstep : Session.step s c = .ok (reply, s')) : reply ≠ .failed .bufferPoolExhausted := by
  have h : InAccount MemoryFiles.books capacity s :=
    course.inAccount (inAccount_start MemoryFiles.regular_empty rfl capacity)
  intro hreply
  have hfull := ((h.step hlevel hstep).2 _ hreply).2 rfl
  omega

/-- A heap file is opened over a pool with frames for three handles. -/
theorem Course.not_exhausted_open : ∃ s s',
    Course (Session.start MemoryFiles.empty 8) s ∧
    2 * 3 + 2 ≤ 8 ∧ s.handles.length ≤ 3 ∧
    Session.step s (.openAs "h" (.heap .insert "t")) = .ok (.done, s') ∧
    Reply.done ≠ .failed .bufferPoolExhausted := by
  obtain ⟨s, heaps, db, run, hmade, hhandles, hopened, hroom, -⟩ := run_create
  obtain ⟨hsound, -, hheaps⟩ := run.sound
  have hfree : s.handles.has "h" = false := by
    rw [hhandles]
    rfl
  obtain ⟨heap, db', hstep, -⟩ :=
    exists_openHeap hsound hfree hopened (hheaps _ hmade) hroom .insert
  have course := run.course
  have hcapacity : 2 * 3 + 2 ≤ 8 := Nat.le_refl 8
  have hlength : s.handles.length ≤ 3 := by
    rw [hhandles]
    exact Nat.zero_le 3
  have hlevel : (Command.openAs "h" (.heap .insert "t")).HeapLevel := trivial
  exact ⟨s, _, course, hcapacity, hlength, hstep,
    Course.not_exhausted course hcapacity hlength hlevel hstep⟩

end Session

end PagedHeap
