import PagedHeap.Proofs.Session.Commands

/-!
# Runs of commands on heap files

Any number of handles on any number of heap files are used in any order, over a pool of any size
(`Session.Run`).  After every command, answered or refused, the session is sound, and the files that
were made are heap files (`Session.Run.sound`).
-/

namespace PagedHeap

open PagedHeap.Action

open MemoryFiles (law)

namespace Session

/-- The file that a command made as a heap file, if its reply says so. -/
def madeBy (s : Session MemoryFiles) (c : Command) (reply : Reply) : Set FileId :=
  {file | (∃ name, c = .create name) ∧ reply = .done ∧ file = ⟨s.db.files.nextId⟩}

/-- The sessions in memory that commands on heap files lead to, with the heap files that were made.
No file grows to as many pages or records as there are numbers for. -/
inductive Run (capacity : Nat) : Session MemoryFiles → Set FileId → Prop
  /-- At first there are no files. -/
  | start : Run capacity (Session.start .empty capacity) ∅
  /-- Commands follow one another, whether they are answered or refused. -/
  | step {s s' : Session MemoryFiles} {heaps : Set FileId} {c : Command} {reply : Reply} :
      Run capacity s heaps → c.HeapLevel → Session.step s c = .ok (reply, s') → s'.Small →
      Run capacity s' (heaps ∪ s.madeBy c reply)

variable {capacity : Nat} {s s' : Session MemoryFiles} {heaps : Set FileId} {c : Command}
variable {reply : Reply} {file : FileId}

/-- A session without files is small. -/
theorem small_start (capacity : Nat) : (Session.start MemoryFiles.empty capacity).Small := by
  intro file
  have hsize := size_start capacity file
  refine ⟨by omega, ?_⟩
  unfold Volume.recordCount
  rw [hsize, Finset.Ico_eq_empty (by omega), Finset.sum_empty]
  omega

/-- Wherever commands lead, the session is sound and the heap files that were made are heap files.
-/
theorem Run.sound (run : Run capacity s heaps) :
    s.Sound ∧ s.Small ∧ ∀ file ∈ heaps, s.db.HasHeap file := by
  induction run with
  | start => exact ⟨sound_start _, small_start _, nofun⟩
  | step run hlevel hstep hsmall' ih =>
    obtain ⟨hsound, hsmall, hheaps⟩ := ih
    have hfollows := follows_step hsound hsmall hlevel hstep
    refine ⟨hfollows.sound, hsmall', ?_⟩
    rintro file (hold | ⟨⟨name, hcreate⟩, hdone, rfl⟩)
    · exact hfollows.heaps file (hheaps file hold)
    · exact hfollows.made name hcreate hdone

/-! ## Making a heap file and opening it -/

/-- In a session with few pages every file is small. -/
theorem small_of_size (hsize : ∀ file, (law.volume s.db file).size ≤ 2 ^ 16) : s.Small :=
  fun file => Volume.small_of_size (hsize file)

/-- The handle of a heap file that was opened. -/
def handleOf (heap : HeapFile) : HeapUse → Handle
  | .lookup => .heap heap
  | .scan => .scan (Scan.start heap)
  | .insert => .inserter heap

/-- A heap file that was opened gets a handle. -/
theorem perform_openAs {σ : Type} [FileStore σ] {s : Session σ} {name title : String}
    {heap : HeapFile} {db : Database σ}
    (hfree : s.handles.has name = false) (hrun : Database.openHeap title s.db = .ok heap db)
    (use : HeapUse) : perform (.openAs name (.heap use title)) s =
      .ok .done ⟨db, s.handles.put name (handleOf heap use)⟩ := by
  refine Ensures.run_eq ?_
  unfold perform
  rw [ensures_bind, ensures_get, hfree]
  simp only [Bool.false_eq_true, if_false]
  unfold openHandle
  rw [ensures_bind, ensures_onDatabase]
  refine .of_run hrun ?_
  rw [ensures_bind, ensures_setHandle, ensures_pure]
  cases use <;> exact ⟨rfl, rfl⟩

/-- A heap file that has a name is opened if the pool has room for two more pages. -/
theorem exists_openHeap (h : s.Sound) {name title : String} {opened : FileHandle}
    {db : Database MemoryFiles} (hfree : s.handles.has name = false)
    (hopened : Database.onFiles (FileStore.openFile title) s.db = .ok opened db)
    (hheap : s.db.HasHeap opened.id) (hroom : s.db.pool.size + 2 ≤ s.db.pool.capacity)
    (use : HeapUse) :
    ∃ heap db', Session.step s (.openAs name (.heap use title)) =
        .ok (.done, ⟨db', s.handles.put name (handleOf heap use)⟩) ∧
      law.volume db' = law.volume s.db := by
  have hopen := (Database.ensures_openHeap h.holds h.orderly h.usable title).mono (fun _ _ => id)
    fun _ _ hpost => (by have := (hpost.2 _ _ hopened hheap).2; omega : False)
  obtain ⟨heap, db', hrun, hsteady, -⟩ := hopen.exists_ok
  exact ⟨heap, db', step_of_ok (perform_openAs hfree hrun use), hsteady.volume⟩

/-- A heap file is made in a session without files, which has room to open it then. -/
theorem exists_made : ∃ s db, Session.step (Session.start MemoryFiles.empty 8) (.create "t") =
      .ok (.done, s) ∧ s.handles = [] ∧
    Database.onFiles (FileStore.openFile "t") s.db = .ok ⟨⟨1⟩, "t"⟩ db ∧
    s.db.pool.size + 2 ≤ s.db.pool.capacity ∧
    (∀ file, (law.volume s.db file).size ≤ 3) ∧
    ∀ file, file ≠ ⟨1⟩ → (law.volume s.db file).size = 0 := by
  have hcreate : ∃ (s : Session MemoryFiles) (db : Database MemoryFiles) (pages : Array Page),
      Session.step (Session.start MemoryFiles.empty 8) (.create "t") = .ok (.done, s) ∧
      s.handles = [] ∧ s.db.pool.size = 0 ∧ s.db.pool.capacity = 8 ∧
      s.db.files.contents = [(⟨1⟩, pages)] ∧ pages.size = 3 ∧
      Database.onFiles (FileStore.openFile "t") s.db = .ok ⟨⟨1⟩, "t"⟩ db :=
    ⟨_, _, _, rfl, rfl, rfl, rfl, rfl, rfl, rfl⟩
  obtain ⟨s, db, pages, hstep, hhandles, hsize, hcapacity, hcontents, hpages, hopened⟩ := hcreate
  have hfew (file : FileId) : (law.volume s.db file).size = if ⟨1⟩ = file then 3 else 0 := by
    change (s.db.files.pages file).size = _
    unfold MemoryFiles.pages
    rw [hcontents, Table.find?_cons]
    split
    · exact hpages
    · rfl
  refine ⟨s, db, hstep, hhandles, hopened, ?_, fun file => ?_, fun file hne => ?_⟩
  · rw [hsize, hcapacity]
    decide
  · rw [hfew]
    split
    · exact Nat.le_refl 3
    · exact Nat.zero_le 3
  · rw [hfew, if_neg (Ne.symm hne)]

/-- A session in which a heap file was made, and which has room to open it. -/
theorem run_create : ∃ s heaps db, Run 8 s heaps ∧ ⟨1⟩ ∈ heaps ∧ s.handles = [] ∧
    Database.onFiles (FileStore.openFile "t") s.db = .ok ⟨⟨1⟩, "t"⟩ db ∧
    s.db.pool.size + 2 ≤ s.db.pool.capacity ∧
    ∀ file, (law.volume s.db file).size ≤ 3 := by
  obtain ⟨s, db, hstep, hhandles, hopened, hroom, hfew, -⟩ := exists_made
  have hlevel : (Command.create "t").HeapLevel := trivial
  have hsmall : s.Small := small_of_size fun file => (hfew file).trans (by decide)
  refine ⟨s, _, db, Run.start.step hlevel hstep hsmall, ?_, hhandles, hopened, hroom, hfew⟩
  exact .inr ⟨⟨"t", rfl⟩, rfl, rfl⟩

/-- A session in which a heap file was made and then opened. -/
theorem run_open (use : HeapUse) : ∃ s heaps s' heap, Run 8 s heaps ∧ ⟨1⟩ ∈ heaps ∧
    Session.step s (.openAs "h" (.heap use "t")) = .ok (.done, s') ∧ s'.Small ∧
    s'.handles.find? "h" = some (handleOf heap use) := by
  obtain ⟨s, heaps, db, run, hmade, hhandles, hopened, hroom, hfew⟩ := run_create
  obtain ⟨hsound, -, hheaps⟩ := run.sound
  have hfree : s.handles.has "h" = false := by
    rw [hhandles]
    rfl
  obtain ⟨heap, db', hstep, hvolume⟩ :=
    exists_openHeap hsound hfree hopened (hheaps _ hmade) hroom use
  refine ⟨s, heaps, _, heap, run, hmade, hstep, small_of_size fun file => ?_,
    Table.find?_put_self _ _ _⟩
  rw [hvolume]
  exact (hfew file).trans (by decide)

end Session

end PagedHeap
