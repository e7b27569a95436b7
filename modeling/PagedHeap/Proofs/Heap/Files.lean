import PagedHeap.Proofs.File.Names
import PagedHeap.Proofs.Heap.Open
import PagedHeap.Proofs.Heap.Scan
import PagedHeap.Proofs.Heap.Record
import PagedHeap.Session.Run

/-!
# Heap files in memory, by name

Over files in memory, opening, closing and removing heap files changes no page, and the pins are
counted.
-/

namespace PagedHeap

open PagedHeap.Action

namespace Database

open MemoryFiles (law)

variable {db db' : Database MemoryFiles} {pins rest : Multiset Pin} {heap : HeapFile}

/-- What a file in memory looks like through the pool depends on its pages only. -/
theorem volume_congr {m m' : MemoryFiles} {file : FileId} (h : m'.pages file = m.pages file)
    (pool : Pool) : law.volume ⟨m', pool⟩ file = law.volume ⟨m, pool⟩ file := by
  have hview (page : PageId) : pool.overlay (law.contents m') ⟨file, page⟩ =
      pool.overlay (law.contents m) ⟨file, page⟩ := by
    have hcontents : law.contents m' ⟨file, page⟩ = law.contents m ⟨file, page⟩ :=
      congrArg (fun pages : Array Page => (pages[page.val.toNat]?).getD _) h
    unfold Pool.overlay
    rw [hcontents]
  have hsize : law.size m' file = law.size m file := congrArg Array.size h
  unfold PageStore.Reliable.volume
  rw [← hsize]
  exact congrArg (Volume.mk _) (funext hview)

/-- Every open file has a name, and only numbers that were given out have pages. -/
structure Orderly (db : Database MemoryFiles) : Prop where
  booked : db.files.Booked
  fresh : ∀ file, 0 < (law.volume db file).size → file.val.toNat < db.files.nextId.toNat

/-- No page changed, and the pins are counted. -/
structure Steady (pins : Multiset Pin) (db db' : Database MemoryFiles) : Prop where
  holds : law.Holds pins db'
  volume : law.volume db' = law.volume db
  orderly : db'.Orderly

theorem Steady.refl (h : law.Holds pins db) (ho : db.Orderly) : Steady pins db db := ⟨h, rfl, ho⟩

theorem Steady.trans {db'' : Database MemoryFiles} (h : Steady rest db db')
    (h' : Steady pins db' db'') : Steady pins db db'' :=
  ⟨h'.holds, h'.volume.trans h.volume, h'.orderly⟩

/-- A file that changes alone, and is there, leaves the files in order. -/
theorem Orderly.of_only {file : FileId} (ho : db.Orderly) (honly : law.Only file db db')
    (hpos : 0 < (law.volume db file).size) : db'.Orderly where
  booked := by
    intro name hname
    rw [honly.akin.named]
    rw [honly.akin.opened] at hname
    exact ho.booked name hname
  fresh := by
    intro other hother
    rw [honly.akin.nextId]
    by_cases heq : other = file
    · exact heq ▸ ho.fresh file hpos
    · rw [honly.others other heq] at hother
      exact ho.fresh other hother

theorem Orderly.of_same (ho : db.Orderly) (hsame : law.Same db db') : db'.Orderly where
  booked := by
    intro name hname
    rw [hsame.alike.named]
    rw [hsame.alike.opened] at hname
    exact ho.booked name hname
  fresh := by
    intro file hfile
    rw [hsame.alike.nextId]
    rw [PageStore.Reliable.volume_of_same hsame] at hfile
    exact ho.fresh file hfile

theorem Steady.of_same (h : law.Holds pins db') (ho : db.Orderly) (hsame : law.Same db db') :
    Steady pins db db' := ⟨h, PageStore.Reliable.volume_of_same hsame, ho.of_same hsame⟩

/-- New names and openings change no page. -/
theorem Steady.of_samePages (h : law.Holds pins db) (ho : db.Orderly) {files : MemoryFiles}
    (hpages : db.files.SamePages files) (hbooked : files.Booked) :
    Steady pins db { db with files := files } := by
  have heq (file : FileId) : files.pages file = db.files.pages file := by
    unfold MemoryFiles.pages
    rw [hpages.contents]
  have hcontents : law.contents files = law.contents db.files := by
    funext key
    change files.contentsOf key = db.files.contentsOf key
    unfold MemoryFiles.contentsOf
    rw [heq]
  have hvolume : law.volume { db with files := files } = law.volume db :=
    funext fun file => volume_congr (heq file) db.pool
  refine ⟨Pool.Held.mono (PageStore.Law.Held.of_contents h hcontents) ?_, hvolume, hbooked, ?_⟩
  · intro key hkey
    change files.Has key
    unfold MemoryFiles.Has
    rw [heq]
    exact hkey
  · intro file hfile
    rw [hvolume] at hfile
    have hlt := ho.fresh file hfile
    rwa [← hpages.nextId] at hlt

/-! ## Opening and closing -/

/-- An action on the names of files changes no page. -/
theorem steady_onFiles {α : Type} {x : Action MemoryFiles α} {ok : α → Prop}
    (hsteady : Steady pins db db')
    (hx : x.Ensures db'.files (fun a t => db'.files.SamePages t ∧ t.Booked ∧ ok a)
      (fun _ t => t = db'.files)) :
    (onFiles x).Ensures db' (fun a db'' => Steady pins db db'' ∧ db''.pool = db'.pool ∧ ok a)
      (fun _ db'' => Steady pins db db'') := by
  unfold onFiles
  rw [ensures_onPart]
  refine hx.mono ?_ ?_
  · rintro a files ⟨hpages, hbooked, hok⟩
    exact ⟨hsteady.trans (.of_samePages hsteady.holds hsteady.orderly hpages hbooked), rfl, hok⟩
  · rintro e files rfl
    exact hsteady

/-- Giving back an opening changes no page, even if it is refused. -/
theorem steady_close (hsteady : Steady pins db db') (file : FileHandle) :
    (onFiles (FileStore.close file)).Ensures db' (fun _ db'' => Steady pins db db'')
      (fun _ db'' => Steady pins db db'') := by
  have hclose : (MemoryFiles.close file).Ensures db'.files
      (fun _ t => db'.files.SamePages t ∧ t.Booked ∧ True) (fun _ t => t = db'.files) :=
    (MemoryFiles.ensures_close hsteady.orderly.booked file).mono
      (fun _ _ hpost => ⟨hpost.1, hpost.2, trivial⟩) fun _ _ => id
  exact (steady_onFiles hsteady hclose).mono (fun _ _ hpost => hpost.1) fun _ _ => id

/-- A heap file is opened and stands at the start of its chain, or its pins are given back.  A heap
file that has a name is opened if the pool has room for two more pages. -/
theorem ensures_openHeap (h : law.Holds pins db) (ho : db.Orderly)
    (hfiles : ∀ file, Usable law db file) (name : String) :
    (openHeap name).Ensures db
      (fun heap db' => Steady (heap.pins + pins) db db' ∧
        HeapFile.Attached law pins ⟨db', heap⟩ ∧
        (∃ header, (law.volume db heap.file.id).IsHeap header) ∧
        heap.position = some ⟨2⟩ ∧ heap.record = none ∧
        ∃ db₁, onFiles (FileStore.openFile name) db = .ok heap.file db₁ ∧
          db'.files.named = db₁.files.named)
      (fun e db' => Steady pins db db' ∧
        ∀ file db₁, onFiles (FileStore.openFile name) db = .ok file db₁ →
          (∃ header, (law.volume db file.id).IsHeap header) →
          e = .bufferPoolExhausted ∧ db.pool.capacity ≤ db.pool.size + 1) := by
  unfold openHeap
  rw [ensures_bind]
  refine (steady_onFiles (.refl h ho)
    (MemoryFiles.ensures_openFile ho.booked name)).and_run.mono ?_ ?_
  · rintro file db₁ ⟨⟨hsteady₁, hpool, -⟩, hrun⟩
    have husable : Usable law db₁ file.id := by
      unfold Usable
      rw [hsteady₁.volume]
      exact hfiles _
    rw [ensures_orClean]
    refine (ensures_pinFirstPages hsteady₁.holds file husable).mono ?_ ?_
    · rintro heap db₂ hopened
      refine ⟨hsteady₁.trans (.of_same hopened.attached.holds hsteady₁.orderly hopened.same),
        hopened.attached, ?_, hopened.position, hopened.record, db₁, ?_, hopened.same.alike.named⟩
      · rw [hopened.handle, ← hsteady₁.volume]
        exact hopened.isHeap
      · rw [hopened.handle]
        exact hrun
    · rintro e db₂ ⟨h₂, hsame₂, hfull⟩
      have hcause : ∀ file db₁, onFiles (FileStore.openFile name) db = .ok file db₁ →
          (∃ header, (law.volume db file.id).IsHeap header) →
          e = .bufferPoolExhausted ∧ db.pool.capacity ≤ db.pool.size + 1 := by
        intro file' db' hrun' hheap
        cases hrun.symm.trans hrun'
        rw [hsteady₁.volume, hpool] at hfull
        exact hfull hheap
      exact (steady_close (hsteady₁.trans (.of_same h₂ hsteady₁.orderly hsame₂)) file).mono
        (fun _ _ hpost => ⟨hpost, hcause⟩) fun _ _ hpost => ⟨hpost, hcause⟩
  · rintro e db₁ ⟨hsteady₁, hrun⟩
    refine ⟨hsteady₁, fun file db' hrun' => ?_⟩
    cases hrun.symm.trans hrun'

/-- Gives up a page, if there is one. -/
def releaseHeld {σ : Type} [PageStore σ] : Option Pin → Action (Database σ) Unit
  | some pin => release pin
  | none => pure ()

/-- Gives up the pages of a heap file and writes its file back. -/
def giveUp {σ : Type} [PageStore σ] (heap : HeapFile) : Action (Database σ) Unit :=
  releaseHeld heap.current
    |>.thenAlways (release heap.headerPin)
    |>.thenAlways (flushFile heap.file.id)

theorem closeHeap_eq {σ : Type} [FileStore σ] (heap : HeapFile) :
    (closeHeap heap : Action (Database σ) Unit) =
      (giveUp heap).thenAlways (onFiles (FileStore.close heap.file)) := rfl

/-- When its pages are given up, the pins of a heap file are given back and no page changes. -/
theorem holds_giveUp (h : law.Holds (heap.pins + pins) db) :
    (giveUp heap).Ensures db (fun _ db' => law.Holds pins db' ∧ law.Same db db') Never := by
  have hcurrent : (releaseHeld heap.current).Ensures db
      (fun _ db' => law.Holds (heap.headerPin ::ₘ pins) db' ∧ law.Same db db') Never := by
    cases hpin : heap.current with
    | none =>
      rw [HeapFile.pins_add_of_none hpin] at h
      exact ⟨h, .refl _⟩
    | some pin =>
      rw [HeapFile.pins_add_of_some hpin] at h
      exact holds_release h
  unfold giveUp
  rw [ensures_thenAlways, ensures_thenAlways]
  refine hcurrent.mono ?_ fun _ _ => False.elim
  rintro _ db₁ ⟨h₁, hsame₁⟩
  refine (holds_release h₁).mono ?_ fun _ _ => False.elim
  rintro _ db₂ ⟨h₂, hsame₂⟩
  refine (holds_flushFile h₂ heap.file.id).mono ?_ fun _ _ => False.elim
  rintro _ db₃ ⟨h₃, hsame₃⟩
  exact ⟨h₃, hsame₁.trans (hsame₂.trans hsame₃)⟩

theorem ensures_giveUp (h : law.Holds (heap.pins + pins) db) (ho : db.Orderly) :
    (giveUp heap).Ensures db (fun _ db' => Steady pins db db') Never :=
  (holds_giveUp h).mono (fun _ _ hpost => .of_same hpost.1 ho hpost.2) fun _ _ => id

/-- The pins of a heap file are given back when it is closed. -/
theorem ensures_closeHeap (h : law.Holds (heap.pins + pins) db) (ho : db.Orderly) :
    (closeHeap heap).Ensures db (fun _ db' => Steady pins db db')
      (fun _ db' => Steady pins db db') := by
  rw [closeHeap_eq, ensures_thenAlways]
  exact (ensures_giveUp h ho).mono (fun _ _ hsteady => steady_close hsteady heap.file)
    fun _ _ => False.elim

/-- A closed scan has given back its pins. -/
theorem ensures_closeScan (h : HeapFile.Attached law pins ⟨db, heap⟩) (ho : db.Orderly) :
    (Session.closeScan heap).Ensures db (fun _ db' => Steady pins db db')
      (fun _ db' => Steady pins db db') := by
  unfold Session.closeScan
  rw [ensures_onPart, ensures_thenAlways]
  refine (HeapFile.ensures_endScan h).mono ?_ fun _ _ => False.elim
  rintro _ s₁ ⟨hstays, -, -⟩
  have hsteady : Steady (s₁.heap.pins + pins) db s₁.db :=
    .of_same hstays.attached.holds ho hstays.same
  rw [ensures_bind, ensures_get, HeapFile.ensures_onDatabase]
  exact (ensures_closeHeap hsteady.holds hsteady.orderly).mono
    (fun _ _ hpost => hsteady.trans hpost) fun _ _ hpost => hsteady.trans hpost

/-- A closed inserter has given back its pins. -/
theorem ensures_closeInserter (h : HeapFile.Attached law pins ⟨db, heap⟩) (ho : db.Orderly) :
    (Session.closeInserter heap).Ensures db (fun _ db' => Steady pins db db')
      (fun _ db' => Steady pins db db') := by
  have hmarked := ((HeapFile.ensures_markDirty h).of_ok rfl).1.attached
  exact ensures_closeHeap hmarked.holds ho

end Database

end PagedHeap
