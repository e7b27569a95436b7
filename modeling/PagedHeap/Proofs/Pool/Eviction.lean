import PagedHeap.Proofs.Pool.Exhaustion

/-!
# Which frame is given up

A full pool gives a frame up before it takes in another page: of the pages without pins the one
whose last use is the longest ago in the history of all calls (`Pool.ByAge.oldest`).  It is written
into its own file if its frame is dirty, and nothing is written otherwise; if that is refused the
frame stays.  No other frame changes, and the others stand in the order in which they stood
(`Usage.Run.evictsOldest`).
-/

namespace PagedHeap

open PagedHeap.Action

/-! ## The pool before and after -/

namespace Pool

variable {capacity : Nat} {uses : List FrameKey} {p q : Pool} {key victim : FrameKey}

/-- The page whose frame is given up was last used before all others that have no pins. -/
theorem ByAge.oldest (h : p.ByAge capacity uses) (hvictim : p.victim? = some victim) {frame : Frame}
    (hfind : p.frames.find? key = some frame) (hzero : frame.pins = 0) (hne : key ≠ victim) :
    uses.idxOf key < uses.idxOf victim := by
  obtain ⟨-, older, younger, hsplit, hpinned⟩ := List.find?_eq_some_iff_append.1 hvictim
  have hordered := h.ordered
  have hlisted := (h.tracked.listed key).2 (Table.mem_keys_of_find? hfind)
  rw [hsplit] at hordered hlisted
  rcases List.mem_append.1 hlisted with holder | hrest
  · -- the pages that come before it in the order have pins
    have hbusy := hpinned key holder
    simp only [hfind, hzero, beq_self_eq_true, Bool.not_true, Bool.false_eq_true] at hbusy
  · rcases List.mem_cons.1 hrest with rfl | hyounger
    · exact absurd rfl hne
    · exact List.rel_of_pairwise_cons (List.pairwise_append.1 hordered).2.1 hyounger

/-- One frame was given up, and nothing else happened to the frames and their order. -/
structure Without (p : Pool) (victim : FrameKey) (q : Pool) : Prop where
  frames : ∀ key, q.frames.find? key = if key = victim then none else p.frames.find? key
  order : q.recency.toList = p.recency.toList.erase victim

/-- One frame was given up for another, which has one pin and was used last. -/
structure Exchanged (p : Pool) (victim new : FrameKey) (q : Pool) : Prop where
  absent : p.frames.find? new = none
  frames : ∀ key, key ≠ new →
    q.frames.find? key = if key = victim then none else p.frames.find? key
  loaded : ∃ frame, q.frames.find? new = some frame ∧ frame.pins = 1
  order : q.recency.toList = p.recency.toList.erase victim ++ [new]

theorem Tracked.without (h : p.Tracked) (victim : FrameKey) :
    p.Without victim (p.unload victim) where
  frames key := by
    change (p.frames.erase victim).find? key = _
    split
    · next heq => rw [heq, Table.find?_erase_self]
    · next hne => rw [Table.find?_erase_of_ne (Ne.symm hne)]
  order := (h.valid.forget victim).2

theorem Without.exchanged (h : p.Without victim q) (hq : q.Tracked) {new : FrameKey}
    (hne : new ≠ victim) (habsent : p.frames.find? new = none) (page : Page) (dirty : Bool) :
    p.Exchanged victim new (q.load new page dirty).2 where
  absent := habsent
  frames key hkey := by
    change (q.frames.put new _).find? key = _
    rw [Table.find?_put_of_ne (Ne.symm hkey), h.frames key]
  loaded := ⟨_, Table.find?_put_self _ _ _, rfl⟩
  order := by
    have hunlisted : new ∉ q.recency.toList := by
      rw [hq.listed new]
      intro hkey
      obtain ⟨frame, hfind⟩ := Option.isSome_iff_exists.1 (Table.mem_keys.1 hkey)
      rw [h.frames new, if_neg hne, habsent] at hfind
      cases hfind
    change (q.recency.touch new).toList = _
    rw [(hq.valid.touch new).2, List.erase_of_not_mem hunlisted, h.order]

end Pool

/-! ## Calls that give a frame up -/

section Calls

variable {σ α : Type} [PageStore σ]

/-- A frame's page is written into its file if the frame is dirty; otherwise no file is touched. -/
def Frame.WrittenBack (key : FrameKey) (frame : Frame) (s t : σ) : Prop :=
  if frame.dirty then PageStore.writePage key.file key.page frame.page s = .ok () t else t = s

/-- How a call ends that needs the frame of another page: the page `new a` for the answer `a` of
`fetch`, which reads or allocates it. -/
inductive Database.Evicts (db : Database σ) (victim : FrameKey) (frame : Frame) (fetch : Action σ α)
    (new : α → FrameKey) : EStateM.Result Failure (Database σ) Pin → Prop where
  /-- The page could not be written into its file, and its frame stays. -/
  | kept {e : Failure} {files : σ} (dirty : frame.dirty = true)
      (write : PageStore.writePage victim.file victim.page frame.page db.files = .error e files) :
      Evicts db victim frame fetch new (.error e { db with files := files })
  /-- The frame was given up, but the other page could not be had. -/
  | refused {e : Failure} {s files : σ} {pool : Pool}
      (written : frame.WrittenBack victim db.files s)
      (fetched : fetch s = .error e files) (evicted : db.pool.Without victim pool) :
      Evicts db victim frame fetch new (.error e ⟨files, pool⟩)
  /-- The frame was given up for the other page. -/
  | done {a : α} {s files : σ} {pin : Pin} {pool : Pool}
      (written : frame.WrittenBack victim db.files s) (fetched : fetch s = .ok a files)
      (evicted : db.pool.Exchanged victim (new a) pool) (key : pin.key = new a) :
      Evicts db victim frame fetch new (.ok pin ⟨files, pool⟩)

namespace Database

variable {db : Database σ} {capacity : Nat} {uses : List FrameKey} {victim : FrameKey}
variable {frame : Frame}

/-- A page is written back as its frame says. -/
theorem writeBack_cases (hfind : db.pool.frames.find? victim = some frame) :
    (∃ s, frame.WrittenBack victim db.files s ∧
      writeBack victim db = .ok () { db with files := s }) ∨
    ∃ e s, frame.dirty = true ∧
      PageStore.writePage victim.file victim.page frame.page db.files = .error e s ∧
      writeBack victim db = .error e { db with files := s } := by
  have hrun : writeBack victim db =
      (if frame.dirty then onFiles (PageStore.writePage victim.file victim.page frame.page)
        else pure () : Action (Database σ) Unit) db := by
    unfold writeBack
    rw [bind_run_ok (x := get) rfl, hfind]
  unfold Frame.WrittenBack
  by_cases hdirty : frame.dirty = true
  · rw [if_pos hdirty] at hrun
    cases hwrite : PageStore.writePage victim.file victim.page frame.page db.files with
    | ok _ s => exact .inl ⟨s, (if_pos hdirty).mpr rfl, hrun.trans (onPart_run_ok hwrite)⟩
    | error e s => exact .inr ⟨e, s, hdirty, rfl, hrun.trans (onPart_run_error hwrite)⟩
  · rw [if_neg hdirty] at hrun
    exact .inl ⟨db.files, (if_neg hdirty).mpr rfl, hrun⟩

/-- A full pool makes room by giving up the frame of its victim, unless that cannot be written. -/
theorem makeRoom_cases (hfull : db.pool.capacity ≤ db.pool.size)
    (hvictim : db.pool.victim? = some victim) (hfind : db.pool.frames.find? victim = some frame) :
    (∃ s, frame.WrittenBack victim db.files s ∧ makeRoom db = .ok () ⟨s, db.pool.unload victim⟩) ∨
    ∃ e s, frame.dirty = true ∧
      PageStore.writePage victim.file victim.page frame.page db.files = .error e s ∧
      makeRoom db = .error e { db with files := s } := by
  have hrun : makeRoom db =
      (do writeBack victim; modifyPool (·.unload victim) : Action (Database σ) Unit) db := by
    unfold makeRoom
    rw [bind_run_ok (x := get) rfl]
    simp only [if_pos hfull, hvictim]
  rcases writeBack_cases hfind with ⟨s, hwritten, hwrote⟩ | ⟨e, s, hdirty, hwrite, hfailed⟩
  · exact .inl ⟨s, hwritten, hrun.trans (bind_run_ok hwrote _)⟩
  · exact .inr ⟨e, s, hdirty, hwrite, hrun.trans (bind_run_error hfailed _)⟩

/-- Room is made for a page that is not in the pool, and then the page is fetched. -/
theorem evicts (h : db.ByAge capacity uses) (hfull : capacity ≤ db.pool.size)
    (hvictim : db.pool.victim? = some victim) (hfind : db.pool.frames.find? victim = some frame)
    {fetch : Action σ α} {new : α → FrameKey} (data : α → Page) (dirty : Bool)
    (habsent : ∀ {s a t}, frame.WrittenBack victim db.files s → fetch s = .ok a t →
      db.pool.frames.find? (new a) = none) :
    db.Evicts victim frame fetch new ((do
      makeRoom
      let a ← onFiles fetch
      load (new a) (data a) dirty : Action (Database σ) Pin) db) := by
  rcases makeRoom_cases (h.capacity ▸ hfull) hvictim hfind with
    ⟨s, hwritten, hroom⟩ | ⟨e, s, hdirty, hwrite, hroom⟩
  · have hwithout := h.tracked.without victim
    rw [bind_run_ok hroom]
    cases hfetch : fetch s with
    | error e files =>
      have hfailed : (onFiles fetch) ⟨s, db.pool.unload victim⟩ =
        .error e ⟨files, db.pool.unload victim⟩ := onPart_run_error hfetch
      rw [bind_run_error hfailed]
      exact .refused hwritten hfetch hwithout
    | ok a files =>
      have hfetched : (onFiles fetch) ⟨s, db.pool.unload victim⟩ =
        .ok a ⟨files, db.pool.unload victim⟩ := onPart_run_ok hfetch
      rw [bind_run_ok hfetched]
      have habsent := habsent hwritten hfetch
      have hne : new a ≠ victim := by
        intro heq
        rw [heq, hfind] at habsent
        cases habsent
      exact .done hwritten hfetch
        (hwithout.exchanged (h.tracked.unload victim) hne habsent (data a) dirty) rfl
  · rw [bind_run_error hroom]
    exact .kept hdirty hwrite

end Database

end Calls

/-! ## Runs -/

namespace Usage

variable {σ : Type} [PageStore σ] {u : Usage σ} {capacity : Nat}

/-- A page is the one that makes room for others: of those without pins it was used longest ago, and
every call that needs a frame for a page outside the pool takes the frame of this page and no other.
A page that is allocated is outside the pool because it was never used. -/
structure EvictsOldest (u : Usage σ) (victim : FrameKey) (frame : Frame) : Prop where
  cached : u.db.pool.frames.find? victim = some frame
  free : frame.pins = 0
  oldest : ∀ key other, u.db.pool.frames.find? key = some other → other.pins = 0 → key ≠ victim →
    u.age key < u.age victim
  pin : ∀ file page, u.db.pool.frames.find? ⟨file, page⟩ = none →
    u.db.Evicts victim frame (PageStore.readPage file page) (fun _ => ⟨file, page⟩)
      (Database.pin file page u.db)
  allocate : ∀ file, (∀ s page t, frame.WrittenBack victim u.db.files s →
      PageStore.allocatePage file s = .ok page t → ⟨file, page⟩ ∉ u.uses) →
    u.db.Evicts victim frame (PageStore.allocatePage file) (fun page => ⟨file, page⟩)
      (Database.allocate file u.db)

/-- Wherever calls lead, a full pool with a frame without pins gives up the frame whose page was
used longest ago. -/
theorem Run.evictsOldest (run : Run capacity u) (hfull : capacity ≤ u.db.pool.size) {key : FrameKey}
    {free : Frame} (hfind : u.db.pool.frames.find? key = some free) (hzero : free.pins = 0) :
    ∃ victim frame, u.EvictsOldest victim frame := by
  have h := run.byAge
  obtain ⟨victim, hvictim⟩ := h.tracked.exists_victim hfind hzero
  obtain ⟨frame, hcached, hfree⟩ := h.tracked.exists_of_victim hvictim
  refine ⟨victim, frame, hcached, hfree, fun key other => h.oldest hvictim,
    fun file page habsent => ?_, fun file hfresh => ?_⟩
  · rw [Database.pin_eq_of_find?_none habsent]
    exact Database.evicts h hfull hvictim hcached id false fun _ _ => habsent
  · refine Database.evicts h hfull hvictim hcached (fun _ => Block.zero pageSize) true ?_
    intro s page t hwritten hallocate
    refine Option.eq_none_iff_forall_ne_some.2 fun other hother => ?_
    exact hfresh s page t hwritten hallocate (h.used _ (Table.mem_keys_of_find? hother))

/-- Of two pages the first is used again, so that the second makes room although it was allocated
later. -/
theorem Run.evictsOldest_second : ∃ u : Usage MemoryFiles, Run 2 u ∧ u.db.pool.size = 2 ∧
    ∃ frame, u.EvictsOldest ⟨⟨1⟩, ⟨2⟩⟩ frame := by
  have run := (((((Run.start Holders.oneFile : Run 2 _).step
    (@Step.allocate _ _ _ ⟨1⟩ ⟨⟨⟨1⟩, ⟨1⟩⟩, 0, true⟩ _ rfl)).step
    (@Step.release _ _ _ ⟨⟨⟨1⟩, ⟨1⟩⟩, 0, true⟩ _ rfl)).step
    (@Step.allocate _ _ _ ⟨1⟩ ⟨⟨⟨1⟩, ⟨2⟩⟩, 1, true⟩ _ rfl)).step
    (@Step.release _ _ _ ⟨⟨⟨1⟩, ⟨2⟩⟩, 1, true⟩ _ rfl)).step
    (@Step.pin _ _ _ ⟨1⟩ ⟨1⟩ ⟨⟨⟨1⟩, ⟨1⟩⟩, 0, false⟩ _ rfl)
  have again := run.step (@Step.release _ _ _ ⟨⟨⟨1⟩, ⟨1⟩⟩, 0, false⟩ _ rfl)
  obtain ⟨victim, frame, h⟩ := @Run.evictsOldest _ _ _ _ again (Nat.le_refl 2) ⟨⟨1⟩, ⟨1⟩⟩ _ rfl rfl
  have hcached : victim ∈ [(⟨⟨1⟩, ⟨1⟩⟩ : FrameKey), ⟨⟨1⟩, ⟨2⟩⟩] := Table.mem_keys_of_find? h.cached
  obtain rfl : victim = ⟨⟨1⟩, ⟨2⟩⟩ := by
    rcases List.mem_pair.1 hcached with rfl | rfl
    · exact absurd (h.oldest ⟨⟨1⟩, ⟨2⟩⟩ _ rfl rfl (by decide)) (by decide)
    · rfl
  exact ⟨_, again, rfl, frame, h⟩

end Usage

end PagedHeap
