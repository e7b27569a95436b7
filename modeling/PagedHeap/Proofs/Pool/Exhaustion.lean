import PagedHeap.Proofs.File.DiskBooks
import PagedHeap.Proofs.File.MemoryBooks
import PagedHeap.Proofs.Pool.Transparency
import PagedHeap.Proofs.Pool.Usage

/-!
# When there is no frame

A page is refused for want of a frame if and only if as many pages have pins as the pool may have
frames, and the page itself has none (`Usage.Run.exhausted_iff`).  Which other pages happen to be in
the pool makes no difference, because any of them can be given up.
-/

namespace PagedHeap

open PagedHeap.Action

/-- The files know nothing of frames: no access to them is refused for want of one. -/
structure PageStore.NotExhausted (σ : Type) [PageStore σ] : Prop where
  read : ∀ file page, Preserves (fun _ : σ => True) Database.NotExhausted (readPage file page)
  write : ∀ file page (data : Page),
    Preserves (fun _ : σ => True) Database.NotExhausted (writePage file page data)
  allocate : ∀ file, Preserves (fun _ : σ => True) Database.NotExhausted (allocatePage file)
  sync : ∀ file, Preserves (fun _ : σ => True) Database.NotExhausted (PageStore.sync file)

/-- Files in memory know nothing of frames. -/
theorem MemoryFiles.notExhausted : PageStore.NotExhausted MemoryFiles := by
  refine ⟨fun file page s hs => ?_, fun file page data s hs => ?_, fun file s hs => ?_,
    fun _ => preserves_pure ()⟩
  · refine allows_get (allows_ofResult_bind (fun _ _ => ?_)
      fun e he => ⟨PageId.notExhausted_check _ _ e he, hs⟩)
    split
    · exact allows_pure hs
    · exact allows_stop
  · change (writePage file page data).Allows s _ _
    refine allows_ofResult_bind (fun _ _ => ?_) fun e he => nomatch he
    exact allows_get (allows_ofResult_bind (fun _ _ => allows_modify hs)
      fun e he => ⟨PageId.notExhausted_check _ _ e he, hs⟩)
  · change (allocatePage file).Allows s _ _
    refine allows_get ?_
    exact allows_modify_bind (allows_pure hs)

/-- Files in a directory know nothing of frames. -/
theorem DiskFiles.notExhausted : PageStore.NotExhausted DiskFiles := by
  have forget {α : Type} {x : Action DiskFiles α} {s : DiskFiles} {ok : α → DiskFiles → Prop}
      (h : x.Allows s ok (Refused s)) :
      x.Allows s (fun _ _ => True) fun e _ => Database.NotExhausted e ∧ True :=
    h.mono (fun _ _ _ => trivial) fun _ _ hrefused => ⟨hrefused.1, trivial⟩
  refine ⟨fun file page s _ => forget (allows_readPage file page),
    fun file page data s _ => forget (allows_writePage file page data), fun file s _ => ?_,
    fun file s _ => forget (allows_flushHeader file)⟩
  refine allows_openFileOf_bind (fun f _ => allows_ofResult_bind (fun grown _ => ?_)
    fun e he => absurd he (FileHeader.allocate_ne_refused _)) ⟨by simp, trivial⟩
  refine allows_modify_bind (allows_bind (forget (allows_storePage _ _ _)) fun _ t _ => ?_)
  exact allows_bind (forget (allows_flushHeader file)) fun _ _ _ => allows_pure trivial

/-! ## Pages with pins -/

namespace Pool

variable {capacity : Nat} {uses : List FrameKey} {p : Pool} {key : FrameKey}

/-- No frame can be given up if and only if all pages in the pool have pins. -/
theorem Tracked.victim?_eq_none_iff (h : p.Tracked) :
    p.victim? = none ↔ ∀ key ∈ p.frames.keys, 0 < p.pinCount key := by
  constructor
  · intro hnone key hkey
    obtain ⟨frame, hfind⟩ := Option.isSome_iff_exists.1 (Table.mem_keys.1 hkey)
    rw [pinCount_of_find? hfind]
    refine Nat.pos_of_ne_zero fun hzero => ?_
    obtain ⟨victim, hvictim⟩ := h.exists_victim hfind hzero
    cases hnone.symm.trans hvictim
  · intro hpinned
    refine Option.eq_none_iff_forall_ne_some.2 fun victim hvictim => ?_
    obtain ⟨frame, hfind, hzero⟩ := h.exists_of_victim hvictim
    have hpos := hpinned victim (Table.mem_keys_of_find? hfind)
    rw [pinCount_of_find? hfind, hzero] at hpos
    exact Nat.lt_irrefl 0 hpos

/-- As many pages have pins as there may be frames if and only if the pool is full and no frame can
be given up. -/
theorem ByAge.pinnedPages_eq_iff (h : p.ByAge capacity uses) :
    p.pinnedPages = capacity ↔ p.capacity ≤ p.size ∧ p.victim? = none := by
  have hle := pinnedPages_le_size p
  have hbounded := h.bounded
  have hall : p.victim? = none ↔ p.pinnedPages = p.size := by
    rw [h.tracked.victim?_eq_none_iff, size_eq]
    unfold pinnedPages
    rw [List.countP_eq_length]
    simp only [decide_eq_true_eq]
  rw [hall, h.capacity]
  omega

/-- If as many pages have pins as there may be frames, a page without pins has no frame. -/
theorem ByAge.find?_eq_none (h : p.ByAge capacity uses) (hfull : p.pinnedPages = capacity)
    (hzero : p.pinCount key = 0) : p.frames.find? key = none := by
  have hpinned := h.tracked.victim?_eq_none_iff.1 (h.pinnedPages_eq_iff.1 hfull).2
  refine Option.eq_none_iff_forall_ne_some.2 fun frame hfind => ?_
  have hpos := hpinned key (Table.mem_keys_of_find? hfind)
  rw [hzero] at hpos
  exact Nat.lt_irrefl 0 hpos

end Pool

/-! ## Calls that need a frame -/

namespace Database

section Blames

variable {σ : Type} {db db' : Database σ} {capacity : Nat} {uses : List FrameKey}

/-- Nothing but a pool that is full of pinned pages is a reason to say that there is no frame, and
then nothing has changed. -/
abbrev Blames (capacity : Nat) (db : Database σ) (e : StorageError) (db' : Database σ) : Prop :=
  e = .bufferPoolExhausted → db.pool.pinnedPages = capacity ∧ db' = db

/-- The files are not to blame. -/
theorem blames_onFiles {α : Type} {x : Action σ α}
    (hx : Preserves (fun _ => True) NotExhausted x) :
    (onFiles x).Allows db' (fun _ _ => True) (Blames capacity db) :=
  allows_onPart ((hx trivial).mono (fun _ _ => id) fun _ _ hne heq => absurd heq hne.1)

variable [PageStore σ]

theorem blames_makeRoom (hfiles : PageStore.NotExhausted σ) (h : db.ByAge capacity uses) :
    makeRoom.Allows db (fun _ _ => True) (Blames capacity db) := by
  refine allows_get ?_
  simp only
  split
  · next hfull =>
    cases hvictim : db.pool.victim? with
    | none => exact allows_refuse fun _ => ⟨h.pinnedPages_eq_iff.2 ⟨hfull, hvictim⟩, rfl⟩
    | some key =>
      refine allows_bind (p := fun _ _ => True) (allows_get ?_) fun _ _ _ => allows_modify trivial
      split
      · split
        · exact blames_onFiles (hfiles.write _ _ _)
        · exact allows_pure trivial
      · exact allows_pure trivial
  · exact allows_pure trivial

/-- If the pool is full of pinned pages no room can be made. -/
theorem makeRoom_eq (h : db.ByAge capacity uses) (hpinned : db.pool.pinnedPages = capacity) :
    makeRoom db = .error (.error .bufferPoolExhausted) db := by
  obtain ⟨hfull, hvictim⟩ := h.pinnedPages_eq_iff.1 hpinned
  refine Ensures.run_refused ?_
  unfold makeRoom
  rw [ensures_bind, ensures_get]
  simp only [if_pos hfull, hvictim]
  rw [ensures_refuse]
  exact ⟨rfl, rfl⟩

/-- Pinning a page that is not in the pool. -/
theorem pin_eq_of_find?_none {file : FileId} {page : PageId}
    (hfind : db.pool.frames.find? ⟨file, page⟩ = none) :
    pin file page db = (do
      makeRoom
      let data ← onFiles (PageStore.readPage file page)
      load ⟨file, page⟩ data false : Action (Database σ) Pin) db := by
  unfold pin
  rw [bind_run_ok (x := get) rfl, hfind]

/-- There is no frame for a page if and only if it has no pin and the pool is full of pages that
have. -/
theorem pin_exhausted_iff (hfiles : PageStore.NotExhausted σ) (h : db.ByAge capacity uses)
    (file : FileId) (page : PageId) :
    pin file page db = .error (.error .bufferPoolExhausted) db' ↔
      db.pool.pinCount ⟨file, page⟩ = 0 ∧ db.pool.pinnedPages = capacity ∧ db' = db := by
  constructor
  · have hpin : (pin file page).Allows db (fun _ _ => True) fun e t =>
        e = .bufferPoolExhausted →
          db.pool.pinCount ⟨file, page⟩ = 0 ∧ db.pool.pinnedPages = capacity ∧ t = db := by
      refine allows_get ?_
      cases hfind : db.pool.frames.find? ⟨file, page⟩ with
      | some frame => exact allows_modify_bind (allows_pure trivial)
      | none =>
        have hload : (do
            makeRoom
            let data ← onFiles (PageStore.readPage file page)
            load ⟨file, page⟩ data false : Action (Database σ) Pin).Allows db (fun _ _ => True)
            (Blames capacity db) := by
          refine allows_bind (blames_makeRoom hfiles h) fun _ db₁ _ => ?_
          refine allows_bind (blames_onFiles (hfiles.read _ _)) fun data db₂ _ => ?_
          exact allows_get (allows_set_bind (allows_pure trivial))
        exact hload.mono (fun _ _ => id) fun e t hblames heq =>
          ⟨Pool.pinCount_of_find?_none hfind, hblames heq⟩
    exact fun hrun => hpin.of_error hrun rfl
  · rintro ⟨hzero, hpinned, rfl⟩
    rw [pin_eq_of_find?_none (h.find?_eq_none hpinned hzero)]
    exact bind_run_error (makeRoom_eq h hpinned) _

/-- There is no frame for a new page if and only if the pool is full of pages that have pins. -/
theorem allocate_exhausted_iff (hfiles : PageStore.NotExhausted σ) (h : db.ByAge capacity uses)
    (file : FileId) :
    allocate file db = .error (.error .bufferPoolExhausted) db' ↔
      db.pool.pinnedPages = capacity ∧ db' = db := by
  constructor
  · have hallocate : (allocate file).Allows db (fun _ _ => True) (Blames capacity db) := by
      refine allows_bind (blames_makeRoom hfiles h) fun _ db₁ _ => ?_
      refine allows_bind (blames_onFiles (hfiles.allocate _)) fun page db₂ _ => ?_
      exact allows_get (allows_set_bind (allows_pure trivial))
    exact fun hrun => hallocate.of_error hrun rfl
  · rintro ⟨hpinned, rfl⟩
    exact bind_run_error (makeRoom_eq h hpinned) _

end Blames

/-! ## Calls that need none -/

section NotExhausted

variable {σ : Type}

/-- Giving a pin back is not refused for want of a frame. -/
theorem notExhausted_unpin (key : FrameKey) (dirty : Bool) :
    Preserves (fun _ : Database σ => True) NotExhausted (unpin key dirty) := by
  refine preserves_get fun db h => ?_
  split
  · exact allows_refuse ⟨by simp, h⟩
  · split
    · exact allows_refuse ⟨by simp, h⟩
    · exact allows_modify h

theorem notExhausted_release (pin : Pin) :
    Preserves (fun _ : Database σ => True) NotExhausted (release pin) :=
  preserves_bind (preserves_modify fun _ => id) fun _ => notExhausted_unpin pin.key pin.dirty

theorem notExhausted_onFiles {α : Type} {x : Action σ α}
    (hx : Preserves (fun _ => True) NotExhausted x) :
    Preserves (fun _ : Database σ => True) NotExhausted (onFiles x) := fun _ _ =>
  allows_onPart (hx trivial)

variable [PageStore σ] (hfiles : PageStore.NotExhausted σ)
include hfiles

theorem notExhausted_writeBack (key : FrameKey) :
    Preserves (fun _ : Database σ => True) NotExhausted (writeBack key) := by
  refine preserves_get fun db h => ?_
  split
  · split
    · exact notExhausted_onFiles (hfiles.write _ _ _) h
    · exact allows_pure h
  · exact allows_pure h

/-- Writing the pages of a file back is not refused for want of a frame. -/
theorem notExhausted_flushFile (file : FileId) :
    Preserves (fun _ : Database σ => True) NotExhausted (flushFile file) := by
  refine preserves_get fun db h => preserves_forM _ (fun key => ?_) h
  refine preserves_bind (notExhausted_writeBack hfiles key) fun _ =>
    preserves_bind (preserves_modify fun _ => id) fun _ => preserves_get fun db h => ?_
  split
  · split
    · exact allows_modify h
    · exact allows_pure h
  · exact allows_pure h

/-- Writing all pages back is not refused for want of a frame. -/
theorem notExhausted_flushAll :
    Preserves (fun _ : Database σ => True) NotExhausted flushAll :=
  preserves_get fun _ h => preserves_bind
    (preserves_forM _ fun key => preserves_bind (notExhausted_writeBack hfiles key) fun _ =>
      preserves_modify fun _ => id)
    (fun _ => preserves_forM _ fun file => notExhausted_onFiles (hfiles.sync file)) h

end NotExhausted

end Database

/-! ## Runs -/

namespace Usage

variable {σ : Type} [PageStore σ] {u : Usage σ} {capacity : Nat}

/-- Frames are rationed: there are never more than the pool may have, the order of last use knows
the pages in the pool and no others, and a call that needs a frame is refused one exactly if as many
pages have pins as there may be frames.  Such a refusal leaves everything as it was, the files
included, and no other call is refused in this way. -/
structure Rationed (capacity : Nat) (u : Usage σ) : Prop where
  bounded : u.db.pool.size ≤ capacity
  cached : u.db.pool.frames.keys.Nodup
  ordered : u.db.pool.recency.toList.Nodup
  listed : ∀ key, key ∈ u.db.pool.recency.toList ↔ key ∈ u.db.pool.frames.keys
  pin : ∀ file page db, Database.pin file page u.db = .error (.error .bufferPoolExhausted) db ↔
    u.db.pool.pinCount ⟨file, page⟩ = 0 ∧ u.db.pool.pinnedPages = capacity ∧ db = u.db
  allocate : ∀ file db, Database.allocate file u.db = .error (.error .bufferPoolExhausted) db ↔
    u.db.pool.pinnedPages = capacity ∧ db = u.db
  unpin : ∀ key dirty db,
    Database.unpin key dirty u.db ≠ .error (.error .bufferPoolExhausted) db
  release : ∀ pin db, Database.release pin u.db ≠ .error (.error .bufferPoolExhausted) db
  flushFile : ∀ file db, Database.flushFile file u.db ≠ .error (.error .bufferPoolExhausted) db
  flushAll : ∀ db, Database.flushAll u.db ≠ .error (.error .bufferPoolExhausted) db

/-- Whether there is a frame does not depend on which pages without pins are in the pool. -/
theorem Run.exhausted_iff (run : Run capacity u) (hfiles : PageStore.NotExhausted σ) :
    u.Rationed capacity := by
  have h := run.byAge
  have never {α : Type} {x : Action (Database σ) α}
      (hx : Preserves (fun _ => True) Database.NotExhausted x) (db : Database σ) :
      x u.db ≠ .error (.error .bufferPoolExhausted) db := fun hrun =>
    ((hx trivial).of_error hrun).1 rfl
  exact {
    bounded := h.bounded
    cached := h.tracked.nodup
    ordered := h.tracked.valid.nodup_toList
    listed := fun key => h.tracked.listed key
    pin := fun file page db => Database.pin_exhausted_iff hfiles h file page
    allocate := fun file db => Database.allocate_exhausted_iff hfiles h file
    unpin := fun key dirty => never (Database.notExhausted_unpin key dirty)
    release := fun pin => never (Database.notExhausted_release pin)
    flushFile := fun file => never (Database.notExhausted_flushFile hfiles file)
    flushAll := never (Database.notExhausted_flushAll hfiles) }

/-- While the only frame is pinned there is none for another page, and none for a new one. -/
theorem Run.exhausted_iff_single : ∃ u : Usage MemoryFiles, Run 1 u ∧ u.Rationed 1 ∧
    Database.pin ⟨1⟩ ⟨2⟩ u.db = .error (.error .bufferPoolExhausted) u.db ∧
    Database.allocate ⟨1⟩ u.db = .error (.error .bufferPoolExhausted) u.db := by
  have run := (Run.start Holders.oneFile : Run 1 _).step
    (@Step.allocate _ _ _ ⟨1⟩ ⟨⟨⟨1⟩, ⟨1⟩⟩, 0, true⟩ _ rfl)
  have rationed := run.exhausted_iff MemoryFiles.notExhausted
  exact ⟨_, run, rationed, (rationed.pin _ _ _).2 ⟨rfl, rfl, rfl⟩,
    (rationed.allocate _ _).2 ⟨rfl, rfl⟩⟩

end Usage

end PagedHeap
