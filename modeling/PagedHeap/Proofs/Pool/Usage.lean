import PagedHeap.Proofs.Pool.Accounts

/-!
# The use of pages

Whoever works with a database pins pages, allocates new ones, stores bytes into them, gives pins
back and has files flushed, in any order and with any refusals in between.  A page is used when it
is pinned or allocated and when a pin on it is given back.  `Usage` is a database together with all
uses of pages so far, and `Usage.Run` says which can be reached.

The pages in the pool stand in its order of last use by their age (`Pool.ByAge`): the more uses
there were since a page was last used itself, the earlier it comes.  Every call keeps it so
(`Usage.Run.byAge`), and there are never more frames than the pool may have.

A page never has more pins than it was used (`Usage.Run.pinCount_le`).
-/

namespace PagedHeap

open PagedHeap.Action

/-! ## The age of pages -/

namespace Pool

/-- The pages in a pool of bounded size were used, and stand in the order of their last use.  In
`uses` the latest use comes first, so that the position of a page in it is its age. -/
structure ByAge (capacity : Nat) (uses : List FrameKey) (p : Pool) : Prop where
  tracked : p.Tracked
  bounded : p.size ≤ capacity
  used : ∀ key ∈ p.frames.keys, key ∈ uses
  ordered : p.recency.toList.Pairwise fun a b => uses.idxOf b < uses.idxOf a
  capacity : p.capacity = capacity
  counted : ∀ key, p.pinCount key ≤ uses.count key

variable {capacity : Nat} {uses : List FrameKey} {p q : Pool} {key : FrameKey}

theorem byAge_empty (capacity : Nat) : (empty capacity).ByAge capacity [] where
  tracked := tracked_empty capacity
  capacity := rfl
  bounded := Nat.zero_le _
  used _ hkey := absurd hkey List.not_mem_nil
  ordered := by
    change ((Recency.empty : Recency FrameKey).toList).Pairwise _
    rw [Recency.toList_empty]
    exact .nil
  counted _ := Nat.le_refl 0

/-- Frames change, but neither which there are, nor when they were used, nor their pins. -/
theorem ByAge.of_keys (h : p.ByAge capacity uses) (hkeys : q.frames.keys = p.frames.keys)
    (hrecency : q.recency = p.recency) (hcapacity : q.capacity = p.capacity)
    (hpins : ∀ key, q.pinCount key = p.pinCount key) : q.ByAge capacity uses where
  tracked := h.tracked.of_keys hkeys hrecency
  capacity := hcapacity.trans h.capacity
  bounded := (size_congr hkeys).trans_le h.bounded
  used key hkey := h.used key (hkeys ▸ hkey)
  ordered := hrecency ▸ h.ordered
  counted key := (hpins key).trans_le (h.counted key)

/-- The page that is used becomes the youngest, and all others grow older alike. -/
theorem ordered_touch {uses order : List FrameKey} (hnodup : order.Nodup)
    (h : order.Pairwise fun a b => uses.idxOf b < uses.idxOf a) (key : FrameKey) :
    (order.erase key ++ [key]).Pairwise
      fun a b => (key :: uses).idxOf b < (key :: uses).idxOf a :=
  Recency.pairwise_touch hnodup h List.idxOf_cons_self fun _ hne => List.idxOf_cons_ne _ hne.symm

/-- A page that has a frame is used, and gets one more pin at most. -/
theorem ByAge.touch (h : p.ByAge capacity uses) (hkey : key ∈ p.frames.keys) {f : Frame → Frame}
    (hf : ∀ frame, (f frame).pins ≤ frame.pins + 1) : ByAge capacity (key :: uses)
      { p with frames := p.frames.adjust key f, recency := p.recency.touch key } where
  tracked := h.tracked.touch hkey (Table.keys_adjust _ _ _) rfl
  capacity := h.capacity
  bounded := (size_congr (Table.keys_adjust _ _ _)).trans_le h.bounded
  used k hk := by
    rw [Table.keys_adjust] at hk
    exact List.mem_cons_of_mem _ (h.used k hk)
  ordered := by
    rw [(h.tracked.valid.touch key).2]
    exact ordered_touch h.tracked.valid.nodup_toList h.ordered key
  counted k := by
    rw [pinCount_adjust]
    split
    · next hk =>
      obtain ⟨frame, hfind⟩ := Option.isSome_iff_exists.1 (Table.mem_keys.1 hkey)
      have hle := h.counted key
      rw [pinCount_of_find? hfind] at hle
      rw [hk, hfind, List.count_cons_self]
      exact (hf frame).trans (Nat.succ_le_succ hle)
    · next hk =>
      rw [List.count_cons_of_ne (Ne.symm hk)]
      exact h.counted k

/-- A page gets a frame, if there is room for one. -/
theorem ByAge.load (h : p.ByAge capacity uses) (hroom : p.size < capacity) (page : Page)
    (dirty : Bool) : (p.load key page dirty).2.ByAge capacity (key :: uses) where
  tracked := h.tracked.load key page dirty
  capacity := h.capacity
  bounded := (Table.length_put_le _ _ _).trans hroom
  used k hk := by
    rcases Table.mem_keys_put.1 hk with rfl | hold
    · exact List.mem_cons_self
    · exact List.mem_cons_of_mem _ (h.used k hold)
  ordered := by
    change ((p.recency.touch key).toList).Pairwise _
    rw [(h.tracked.valid.touch key).2]
    exact ordered_touch h.tracked.valid.nodup_toList h.ordered key
  counted k := by
    rw [pinCount_load]
    split
    · next hk =>
      rw [hk, List.count_cons_self]
      exact Nat.le_add_left 1 _
    · next hk =>
      rw [List.count_cons_of_ne (Ne.symm hk)]
      exact h.counted k

/-- A frame is given up. -/
theorem ByAge.unload (h : p.ByAge capacity uses) (key : FrameKey) :
    (p.unload key).ByAge capacity uses where
  tracked := h.tracked.unload key
  capacity := h.capacity
  bounded := (List.length_filter_le _ _).trans h.bounded
  used k hk := h.used k (Table.mem_keys_erase.1 hk).2
  ordered := by
    change ((p.recency.forget key).toList).Pairwise _
    rw [(h.tracked.valid.forget key).2]
    exact h.ordered.sublist List.erase_sublist
  counted k := by
    rw [pinCount_unload]
    split
    · exact Nat.zero_le _
    · exact h.counted k

end Pool

/-! ## Calls -/

/-- A database and the pages that were used so far, the latest use first. -/
structure Usage (σ : Type) where
  /-- The database. -/
  db : Database σ
  /-- The pages that were pinned or allocated, and those on which a pin was given back. -/
  uses : List FrameKey

namespace Usage

variable {σ : Type} [PageStore σ]

/-- How many uses there were since the page was last used itself. -/
def age (u : Usage σ) (key : FrameKey) : Nat := u.uses.idxOf key

/-- One call, answered or refused.  Whoever goes away with a pin gives it back, if there is one to
be given back.  Between the calls the files may be changed by others. -/
inductive Step (u : Usage σ) : Usage σ → Prop where
  /-- A page is pinned. -/
  | pin {file : FileId} {page : PageId} {pin : Pin} {db : Database σ}
      (run : Database.pin file page u.db = .ok pin db) : Step u ⟨db, ⟨file, page⟩ :: u.uses⟩
  /-- A page is not pinned. -/
  | pinRefused {file : FileId} {page : PageId} {e : StorageError} {db : Database σ}
      (run : Database.pin file page u.db = .error (.error e) db) : Step u { u with db := db }
  /-- A new page is allocated. -/
  | allocate {file : FileId} {pin : Pin} {db : Database σ}
      (run : Database.allocate file u.db = .ok pin db) : Step u ⟨db, pin.key :: u.uses⟩
  /-- No page is allocated. -/
  | allocateRefused {file : FileId} {e : StorageError} {db : Database σ}
      (run : Database.allocate file u.db = .error (.error e) db) : Step u { u with db := db }
  /-- A holder stores bytes into its page. -/
  | store {pin : Pin} {page : Page} {db : Database σ}
      (run : Database.setPage pin page u.db = .ok () db) : Step u { u with db := db }
  /-- A holder gives its pin back. -/
  | release {pin : Pin} {db : Database σ} (run : Database.release pin u.db = .ok () db) :
      Step u ⟨db, pin.key :: u.uses⟩
  /-- A pin is not given back. -/
  | releaseRefused {pin : Pin} {e : StorageError} {db : Database σ}
      (run : Database.release pin u.db = .error (.error e) db) : Step u { u with db := db }
  /-- A holder goes away. -/
  | drop {pin : Pin} {db : Database σ} (run : Database.drop pin u.db = .ok () db) :
      Step u ⟨db, if 0 < u.db.pool.pinCount pin.key then pin.key :: u.uses else u.uses⟩
  /-- A pin is given back by the number of its page. -/
  | unpin {key : FrameKey} {dirty : Bool} {db : Database σ}
      (run : Database.unpin key dirty u.db = .ok () db) : Step u ⟨db, key :: u.uses⟩
  /-- There is no pin on the page that could be given back. -/
  | unpinRefused {key : FrameKey} {dirty : Bool} {e : StorageError} {db : Database σ}
      (run : Database.unpin key dirty u.db = .error (.error e) db) : Step u { u with db := db }
  /-- The pages of a file are written back. -/
  | flushFile {file : FileId} {db : Database σ} (ends : (Database.flushFile file).Ends u.db db) :
      Step u { u with db := db }
  /-- All pages are written back. -/
  | flushAll {db : Database σ} (ends : Database.flushAll.Ends u.db db) : Step u { u with db := db }
  /-- The files are changed by others. -/
  | files {files : σ} : Step u { u with db := { u.db with files := files } }

/-- What can be reached with a pool of some capacity, whatever the files are at first. -/
inductive Run (capacity : Nat) : Usage σ → Prop where
  /-- At first the pool is empty and nothing was used. -/
  | start (files : σ) : Run capacity ⟨⟨files, .empty capacity⟩, []⟩
  /-- Calls follow one another. -/
  | step {u t : Usage σ} : Run capacity u → Step u t → Run capacity t

end Usage

/-! ## What calls do to the order -/

namespace Database

variable {σ : Type} {db : Database σ} {capacity : Nat} {uses : List FrameKey}

/-- The pool of a database is in the order of age. -/
abbrev ByAge (capacity : Nat) (uses : List FrameKey) (db : Database σ) : Prop :=
  db.pool.ByAge capacity uses

theorem ByAge.of_pool {db' : Database σ} (h : db.ByAge capacity uses) (hpool : db'.pool = db.pool) :
    db'.ByAge capacity uses := by
  unfold ByAge
  rw [hpool]
  exact h

theorem preserves_onFiles_byAge {α : Type} (x : Action σ α) :
    Preserves (ByAge (σ := σ) capacity uses) (fun _ => True) (onFiles x) := fun _ h =>
  allows_onPart (.of_cases (fun _ _ _ => h) fun _ _ _ => ⟨trivial, h⟩)

theorem preserves_setClean_byAge (key : FrameKey) :
    Preserves (ByAge (σ := σ) capacity uses) (fun _ => True) (modifyPool (·.setClean key)) :=
  preserves_modify fun _ h =>
    h.of_keys (Pool.keys_setClean _ key) rfl rfl (Pool.pinCount_setClean _ key)

/-- A page on which a pin was given back was used; if there was none, nothing has changed. -/
theorem allows_unpin_byAge (h : db.ByAge capacity uses) (key : FrameKey) (dirty : Bool) :
    (unpin key dirty).Allows db
      (fun _ db' => 0 < db.pool.pinCount key ∧ db'.ByAge capacity (key :: uses))
      fun _ db' => db.pool.pinCount key = 0 ∧ db'.ByAge capacity uses := by
  refine allows_get ?_
  unfold Pool.pinCount
  cases hfind : db.pool.frames.find? key with
  | none => exact allows_refuse ⟨rfl, h⟩
  | some frame =>
    simp only
    split
    · next hzero => exact allows_refuse ⟨hzero, h⟩
    · next hpos =>
      have hkey := Table.mem_keys_of_find? hfind
      exact allows_modify ⟨Nat.pos_of_ne_zero hpos,
        h.touch hkey fun frame => (Nat.sub_le _ _).trans (Nat.le_succ frame.pins)⟩

theorem allows_release_byAge (h : db.ByAge capacity uses) (pin : Pin) :
    (release pin).Allows db
      (fun _ db' => 0 < db.pool.pinCount pin.key ∧ db'.ByAge capacity (pin.key :: uses))
      fun _ db' => db.pool.pinCount pin.key = 0 ∧ db'.ByAge capacity uses := by
  have h₁ : ByAge capacity uses { db with pool := db.pool.forgetHolder pin } :=
    h.of_keys (Pool.keys_forgetHolder _ pin) rfl rfl (Pool.pinCount_forgetHolder _ pin)
  rw [← Pool.pinCount_forgetHolder db.pool pin]
  exact allows_modify_bind (allows_unpin_byAge h₁ pin.key pin.dirty)

/-- Whoever goes away has given back a pin if there was one. -/
theorem allows_drop_byAge (h : db.ByAge capacity uses) (pin : Pin) :
    (drop pin).Allows db
      (fun _ db' => db'.ByAge capacity
        (if 0 < db.pool.pinCount pin.key then pin.key :: uses else uses))
      fun _ _ => False := by
  refine allows_quietly ((allows_release_byAge h pin).mono ?_ ?_)
  · rintro _ db' ⟨hpos, h'⟩
    rwa [if_pos hpos]
  · rintro e db' ⟨hzero, h'⟩
    rwa [if_neg (hzero ▸ Nat.lt_irrefl 0)]

variable [PageStore σ]

/-- Writing a page back leaves the pool as it is. -/
theorem allows_writeBack_pool (key : FrameKey) :
    (writeBack key).Allows db (fun _ db' => db'.pool = db.pool)
      fun _ db' => db'.pool = db.pool := by
  refine allows_get ?_
  split
  · split
    · exact allows_onPart (.of_cases (fun _ _ _ => rfl) fun _ _ _ => rfl)
    · exact allows_pure rfl
  · exact allows_pure rfl

theorem preserves_writeBack_byAge (key : FrameKey) :
    Preserves (ByAge (σ := σ) capacity uses) (fun _ => True) (writeBack key) := fun _ h =>
  (allows_writeBack_pool key).mono (fun _ _ hpool => h.of_pool hpool)
    fun _ _ hpool => ⟨trivial, h.of_pool hpool⟩

/-- After room was made there is one frame less than the pool may have. -/
theorem allows_makeRoom_byAge (h : db.ByAge capacity uses) :
    makeRoom.Allows db (fun _ db' => db'.ByAge capacity uses ∧ db'.pool.size < capacity)
      fun _ db' => db'.ByAge capacity uses := by
  refine allows_get ?_
  simp only
  split
  · next hfull =>
    cases hvictim : db.pool.victim? with
    | none => exact allows_refuse h
    | some key =>
      refine allows_bind ((allows_writeBack_pool key).mono (fun _ _ => id) fun _ _ => h.of_pool) ?_
      intro _ db' hpool
      have h' := h.of_pool hpool
      obtain ⟨frame, hfind, -⟩ := h.tracked.exists_of_victim hvictim
      rw [← hpool] at hfind
      exact allows_modify ⟨h'.unload key, (Table.length_erase_lt hfind).trans_le h'.bounded⟩
  · next hroom => exact allows_pure ⟨h, h.capacity ▸ Nat.lt_of_not_le hroom⟩

/-- A page that is pinned was used. -/
theorem allows_pin_byAge (h : db.ByAge capacity uses) (file : FileId) (page : PageId) :
    (pin file page).Allows db (fun _ db' => db'.ByAge capacity (⟨file, page⟩ :: uses))
      fun _ db' => db'.ByAge capacity uses := by
  refine allows_get ?_
  cases hfind : db.pool.frames.find? ⟨file, page⟩ with
  | some frame =>
    have hkey := Table.mem_keys_of_find? hfind
    exact allows_modify_bind (allows_pure (h.touch hkey fun _ => Nat.le_refl _))
  | none =>
    refine allows_bind (allows_makeRoom_byAge h) ?_
    rintro _ db₁ ⟨h₁, hroom⟩
    refine allows_bind (p := fun _ db₂ => db₂.ByAge capacity uses ∧ db₂.pool.size < capacity)
      (allows_onPart (.of_cases (fun _ _ _ => ⟨h₁, hroom⟩) fun _ _ _ => h₁)) ?_
    rintro data db₂ ⟨h₂, hroom₂⟩
    exact allows_get (allows_set_bind (allows_pure (h₂.load hroom₂ data false)))

/-- A page that was allocated was used. -/
theorem allows_allocate_byAge (h : db.ByAge capacity uses) (file : FileId) :
    (allocate file).Allows db (fun pin db' => db'.ByAge capacity (pin.key :: uses))
      fun _ db' => db'.ByAge capacity uses := by
  refine allows_bind (allows_makeRoom_byAge h) ?_
  rintro _ db₁ ⟨h₁, hroom⟩
  refine allows_bind (p := fun _ db₂ => db₂.ByAge capacity uses ∧ db₂.pool.size < capacity)
    (allows_onPart (.of_cases (fun _ _ _ => ⟨h₁, hroom⟩) fun _ _ _ => h₁)) ?_
  rintro page db₂ ⟨h₂, hroom₂⟩
  exact allows_get (allows_set_bind (allows_pure (h₂.load hroom₂ _ true)))

/-! ### Writing back -/

theorem preserves_flushPage_byAge (key : FrameKey) :
    Preserves (ByAge (σ := σ) capacity uses) (fun _ => True) (flushPage key) := by
  refine preserves_bind (preserves_writeBack_byAge key) fun _ =>
    preserves_bind (preserves_setClean_byAge key) fun _ => preserves_get fun db h => ?_
  split
  · split
    · exact allows_modify (h.unload key)
    · exact allows_pure h
  · exact allows_pure h

theorem preserves_flushFile_byAge (file : FileId) :
    Preserves (ByAge (σ := σ) capacity uses) (fun _ => True) (flushFile file) :=
  preserves_get fun _ h => preserves_forM _ preserves_flushPage_byAge h

theorem preserves_flushAll_byAge :
    Preserves (ByAge (σ := σ) capacity uses) (fun _ => True) flushAll :=
  preserves_get fun _ h => preserves_bind
    (preserves_forM _ fun key => preserves_bind (preserves_writeBack_byAge key) fun _ =>
      preserves_setClean_byAge key)
    (fun _ => preserves_forM _ fun _ => preserves_onFiles_byAge _) h

end Database

/-! ## Runs -/

namespace Usage

variable {σ : Type} [PageStore σ] {u t : Usage σ} {capacity : Nat}

/-- Every call keeps the order of age. -/
theorem Step.byAge (step : Step u t) (h : u.db.ByAge capacity u.uses) :
    t.db.ByAge capacity t.uses := by
  cases step with
  | pin run => exact (Database.allows_pin_byAge h _ _).of_ok run
  | pinRefused run => exact (Database.allows_pin_byAge h _ _).of_error run
  | allocate run => exact (Database.allows_allocate_byAge h _).of_ok run
  | allocateRefused run => exact (Database.allows_allocate_byAge h _).of_error run
  | @store pin page db run =>
    cases run
    exact h.of_keys (Pool.keys_setPage _ pin page) rfl rfl (Pool.pinCount_setPage _ pin page)
  | release run => exact ((Database.allows_release_byAge h _).of_ok run).2
  | releaseRefused run => exact ((Database.allows_release_byAge h _).of_error run).2
  | drop run => exact (Database.allows_drop_byAge h _).of_ok run
  | unpin run => exact ((Database.allows_unpin_byAge h _ _).of_ok run).2
  | unpinRefused run => exact ((Database.allows_unpin_byAge h _ _).of_error run).2
  | @flushFile file db ends =>
    rcases ends with ⟨_, run⟩ | ⟨e, run⟩
    · exact (Database.preserves_flushFile_byAge file h).of_ok run
    · exact ((Database.preserves_flushFile_byAge file h).of_error run).2
  | @flushAll db ends =>
    rcases ends with ⟨_, run⟩ | ⟨e, run⟩
    · exact (Database.preserves_flushAll_byAge h).of_ok run
    · exact ((Database.preserves_flushAll_byAge h).of_error run).2
  | files => exact h

/-- Wherever calls lead, the pages in the pool stand in the order of their age. -/
theorem Run.byAge (run : Run capacity u) : u.db.ByAge capacity u.uses := by
  induction run with
  | start files => exact Pool.byAge_empty capacity
  | step _ hstep ih => exact hstep.byAge ih

/-- A page never has more pins than it was used. -/
theorem Run.pinCount_le (run : Run capacity u) (key : FrameKey) :
    u.db.pool.pinCount key ≤ u.uses.count key := run.byAge.counted key

/-- So a counter of 32 bits takes the pins on a page until there were as many uses as it has
values. -/
theorem Run.pinCount_lt (run : Run capacity u) (huses : u.uses.length < 2 ^ 32) (key : FrameKey) :
    u.db.pool.pinCount key < 2 ^ 32 :=
  ((run.pinCount_le key).trans List.count_le_length).trans_lt huses

end Usage

end PagedHeap
