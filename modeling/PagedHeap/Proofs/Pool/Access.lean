import PagedHeap.Proofs.Pool.Law

/-!
# Every access to the pool keeps it in order

One lemma for each operation on a database: what it does to the pins, and that no page that can be
seen changes but the one it is about.  The refused cases leave all pages and all pins as they were.
An operation that makes room is refused only if every frame is pinned, if a page cannot be written
back, or if the page it is about cannot be read.
-/

namespace PagedHeap

open PagedHeap.Action

namespace Database

variable {σ : Type} [PageStore σ] {law : PageStore.Law σ} {db : Database σ}
variable {resident : Set FrameKey} {pins : Multiset Pin}

/-! ## Bytes of a held page -/

/-- A holder reads the page as it is seen through the pool. -/
theorem ensures_pageOf (h : law.Held resident pins db) {pin : Pin} (hpin : pin ∈ pins) :
    (pageOf pin).Ensures db (fun page db' => db' = db ∧ page = law.view db pin.key) Never := by
  unfold pageOf
  rw [ensures_bind, ensures_get, ensures_pure]
  exact ⟨rfl, h.page_eq hpin⟩

/-- A holder that calls its page changed stores bytes into that page and no other. -/
theorem ensures_setPage (h : law.Held resident pins db) {pin : Pin} (hpin : pin ∈ pins)
    (hdirty : pin.dirty = true) (page : Page) :
    (setPage pin page).Ensures db
      (fun _ db' => law.Held resident pins db' ∧ db'.files = db.files ∧
        law.view db' = Function.update (law.view db) pin.key page) Never := by
  unfold setPage modifyPool
  rw [ensures_modify]
  obtain ⟨hheld, hview⟩ := Pool.Held.setPage h hpin hdirty page
  exact ⟨hheld, rfl, hview⟩

/-! ## Making room -/

/-- Writing a frame back brings its page in the file up to date. -/
theorem ensures_writeBack (h : law.Held resident pins db) (key : FrameKey) :
    (writeBack key).Ensures db
      (fun _ db' => law.Held resident pins db' ∧ law.Same db db' ∧ db'.pool = db.pool ∧
        ∀ frame, db.pool.frames.find? key = some frame → frame.dirty = true →
          frame.page = law.contents db'.files key)
      (fun _ db' => law.Held resident pins db' ∧ law.Same db db' ∧ db'.pool = db.pool ∧
        ¬law.Sound resident db) := by
  unfold writeBack
  rw [ensures_bind, ensures_get]
  cases hfind : db.pool.frames.find? key with
  | none =>
    simp only
    rw [ensures_pure]
    exact ⟨h, .refl _, rfl, nofun⟩
  | some frame =>
    simp only
    cases hdirty : frame.dirty with
    | false =>
      simp only [Bool.false_eq_true, if_false]
      rw [ensures_pure]
      refine ⟨h, .refl _, rfl, fun f hf hd => ?_⟩
      obtain rfl := Option.some.inj hf
      rw [hdirty] at hd
      cases hd
    | true =>
      simp only [if_true]
      unfold onFiles
      rw [ensures_onPart]
      refine (law.write db.files key.file key.page frame.page).mono ?_ ?_
      · rintro _ files ⟨halike, hcontents⟩
        obtain ⟨hheld, hview⟩ := Pool.Held.written h hfind
        rw [← hcontents] at hheld hview
        refine ⟨hheld, ⟨halike, hview⟩, rfl, fun f hf _ => ?_⟩
        obtain rfl := Option.some.inj hf
        rw [hcontents, Function.update_self]
      · rintro e files ⟨halike, hcontents, hfault⟩
        exact ⟨h.of_contents hcontents, .of_contents halike hcontents, rfl, fun hsound =>
          hsound.1 (hfault (hsound.2 key (h.resident key frame hfind)))⟩

/-- The page that is given up has no pin. -/
theorem pins_eq_zero_of_victim {p : Pool} {key : FrameKey} (hvictim : p.victim? = some key)
    {frame : Frame} (hfind : p.frames.find? key = some frame) : frame.pins = 0 := by
  have hfree := List.find?_some hvictim
  simp only [hfind, beq_iff_eq] at hfree
  exact hfree

/-- A frame without pins that was written back agrees with its file. -/
theorem agrees_of_written (h : law.Held resident pins db) {key : FrameKey} {frame : Frame}
    (hfind : db.pool.frames.find? key = some frame) (hpins : frame.pins = 0)
    (hwritten : frame.dirty = true → frame.page = law.contents db.files key) :
    frame.page = law.contents db.files key := by
  cases hdirty : frame.dirty with
  | true => exact hwritten hdirty
  | false =>
    exact h.clean key frame hfind hdirty fun pin hpin hkey =>
      absurd hkey (h.ne_of_pins_eq_zero hfind hpins pin hpin)

/-- Making room takes at most a frame that nobody holds out of the pool. -/
theorem ensures_makeRoom (h : law.Held resident pins db) :
    makeRoom.Ensures db
      (fun _ db' => law.Held resident pins db' ∧ law.Same db db' ∧
        (∀ key, db.pool.frames.find? key = none → db'.pool.frames.find? key = none) ∧
        db'.pool.capacity = db.pool.capacity ∧ db'.pool.size ≤ db.pool.size)
      (fun e db' => law.Held resident pins db' ∧ law.Same db db' ∧
        (law.Sound resident db → e = .bufferPoolExhausted) ∧
        db.pool.capacity ≤ db.pool.size) := by
  unfold makeRoom
  rw [ensures_bind, ensures_get]
  by_cases hfull : db.pool.capacity ≤ db.pool.size
  · simp only [if_pos hfull]
    cases hvictim : db.pool.victim? with
    | none =>
      simp only
      rw [ensures_refuse]
      exact ⟨h, .refl _, fun _ => rfl, hfull⟩
    | some key =>
      simp only
      rw [ensures_bind]
      refine (ensures_writeBack h key).mono ?_ ?_
      · rintro _ db' ⟨hheld, hsame, hpool, hwritten⟩
        unfold modifyPool
        rw [ensures_modify]
        have hfree : ∀ frame, db'.pool.frames.find? key = some frame → frame.pins = 0 := by
          rw [hpool]
          exact fun frame => pins_eq_zero_of_victim hvictim
        rw [← hpool] at hwritten
        have hnobody : ∀ pin ∈ pins, pin.key ≠ key := by
          cases hfind : db'.pool.frames.find? key with
          | none => exact hheld.ne_of_find?_none hfind
          | some frame => exact hheld.ne_of_pins_eq_zero hfind (hfree frame hfind)
        obtain ⟨hheld', hview, hgone⟩ := Pool.Held.unload hheld hnobody fun frame hfind =>
          agrees_of_written hheld hfind (hfree frame hfind) (hwritten frame hfind)
        refine ⟨hheld', hsame.trans (.of_overlay hview), fun k hk => ?_,
          (congrArg Pool.capacity hpool :), ?_⟩
        · by_cases heq : k = key
          · rw [heq]
            exact hgone
          · rw [← hpool] at hk
            exact (Table.find?_erase_of_ne (Ne.symm heq) _).trans hk
        · rw [← hpool]
          exact List.length_filter_le _ _
      · rintro e db' ⟨hheld, hsame, -, hunsound⟩
        exact ⟨hheld, hsame, fun hsound => absurd hsound hunsound, hfull⟩
  · simp only [hfull, if_false]
    rw [ensures_pure]
    exact ⟨h, .refl _, fun _ hk => hk, rfl, Nat.le_refl _⟩

/-! ## Pins -/

/-- Pinning a page gives one more holder and changes no page. -/
theorem ensures_pin (h : law.Held resident pins db) (file : FileId) (page : PageId) :
    (pin file page).Ensures db
      (fun pin db' => pin.key = ⟨file, page⟩ ∧ pin.dirty = false ∧
        law.Held (insert ⟨file, page⟩ resident) (pin ::ₘ pins) db' ∧ law.Same db db' ∧
        (⟨file, page⟩ ∈ resident ∨ law.present db.files ⟨file, page⟩) ∧
        db'.pool.capacity = db.pool.capacity ∧ db'.pool.size ≤ db.pool.size + 1)
      (fun e db' => law.Held resident pins db' ∧ law.Same db db' ∧
        (law.Sound resident db → law.present db.files ⟨file, page⟩ →
          e = .bufferPoolExhausted ∧ db.pool.capacity ≤ db.pool.size)) := by
  unfold pin
  rw [ensures_bind, ensures_get]
  cases hfind : db.pool.frames.find? ⟨file, page⟩ with
  | some frame =>
    simp only
    rw [ensures_bind]
    unfold modifyPool
    rw [ensures_modify, ensures_pure]
    obtain ⟨hheld, hview⟩ := Pool.Held.pin_again
      (q := { db.pool with
        frames := db.pool.frames.adjust ⟨file, page⟩ fun f =>
          { f with pins := f.pins + 1, holders := f.holders + 1 }
        recency := db.pool.recency.touch ⟨file, page⟩ }) h hfind rfl
    refine ⟨rfl, rfl, hheld.mono (Set.subset_insert _ _), ⟨law.alike_refl _, hview⟩,
      .inl (h.resident _ _ hfind), rfl, ?_⟩
    exact Nat.le_succ_of_le (List.length_map _).le
  | none =>
    simp only
    rw [ensures_bind]
    refine (ensures_makeRoom h).mono ?_ ?_
    · rintro _ db₁ ⟨hheld, hsame, hkept, hcapacity, hsize⟩
      rw [ensures_bind]
      unfold onFiles
      rw [ensures_onPart]
      refine (law.read db₁.files file page).mono ?_ ?_
      · rintro data files ⟨halike, hcontents, hpresent, hdata⟩
        unfold load
        rw [ensures_bind, ensures_get]
        simp only
        rw [ensures_bind, ensures_set, ensures_pure]
        obtain ⟨hheld', hview⟩ := Pool.Held.load hheld (hkept _ hfind) data false
          (law.contents files) (fun k _ => by rw [hcontents]) fun _ => by rw [hcontents, hdata]
        have hfile : db₁.pool.overlay (law.contents db₁.files) ⟨file, page⟩ =
            law.contents db₁.files ⟨file, page⟩ := Pool.overlay_of_find?_none (hkept _ hfind)
        refine ⟨rfl, rfl, hheld', hsame.trans ⟨halike, hview.trans ?_⟩,
          .inr (hsame.present_iff.1 hpresent), hcapacity, ?_⟩
        · rw [hdata, ← hfile]
          exact Function.update_eq_self _ _
        · exact Nat.le_trans (Table.length_put_le _ _ _) (Nat.succ_le_succ hsize)
      · rintro e files ⟨halike, hcontents, hfault⟩
        exact ⟨hheld.of_contents hcontents, hsame.trans (.of_contents halike hcontents),
          fun hsound hpresent => absurd (hfault (hsame.present_iff.2 hpresent)) hsound.1⟩
    · rintro e db' ⟨hheld, hsame, hcause, hfull⟩
      exact ⟨hheld, hsame, fun hsound _ => ⟨hcause hsound, hfull⟩⟩

/-- A pin that is held can be given up, and tells the frame whether its holder changed the page. -/
theorem ensures_release {pin : Pin} (h : law.Held resident (pin ::ₘ pins) db) :
    (release pin).Ensures db
      (fun _ db' => law.Held resident pins db' ∧ law.Same db db') Never := by
  obtain ⟨frame, hfind, hserial⟩ := h.held pin (Multiset.mem_cons_self _ _)
  have hforgotten (k : FrameKey) : (db.pool.forgetHolder pin).frames.find? k =
      (db.pool.frames.find? k).map fun f =>
        if k = pin.key then { f with holders := f.holders - 1 } else f := by
    unfold Pool.forgetHolder
    rw [Table.find?_adjust]
    by_cases hk : k = pin.key
    · rw [if_pos hk, hk, hfind]
      simp only [Option.map_some, hserial, if_true]
    · simp only [hk, if_false, Option.map_id']
  have hpins : frame.pins ≠ 0 := by
    rw [(h.counted _ _ hfind).1, Multiset.countP_cons, if_pos rfl]
    exact Nat.succ_ne_zero _
  unfold release unpin modifyPool
  rw [ensures_bind, ensures_modify, ensures_bind, ensures_get]
  simp only [hforgotten, hfind, Option.map_some, if_true, hpins, if_false]
  rw [ensures_modify]
  obtain ⟨hheld, hview⟩ := Pool.Held.unpin
    (q := { db.pool.forgetHolder pin with
      frames := (db.pool.forgetHolder pin).frames.adjust pin.key fun f =>
        { f with pins := f.pins - 1, dirty := f.dirty || pin.dirty }
      recency := (db.pool.forgetHolder pin).recency.touch pin.key }) h fun k => by
    rw [Table.find?_adjust, hforgotten]
    by_cases hk : k = pin.key
    · simp only [hk, if_true, Option.map_map]
      rfl
    · simp only [hk, if_false]
  exact ⟨hheld, law.alike_refl _, hview⟩

/-- Letting go of a pin that is held gives it up. -/
theorem ensures_drop {pin : Pin} (h : law.Held resident (pin ::ₘ pins) db) :
    (drop pin).Ensures db
      (fun _ db' => law.Held resident pins db' ∧ law.Same db db') Never := by
  unfold drop
  rw [ensures_quietly]
  exact (ensures_release h).mono (fun _ _ hpost => hpost) fun _ _ hpost => hpost.elim

/-- A new page that was never in the pool reads as zeros and has one holder, who calls it changed.
-/
theorem ensures_allocate (h : law.Held resident pins db) (file : FileId) :
    (allocate file).Ensures db
      (fun pin db' => pin.key.file = file ∧ pin.dirty = true ∧
        (pin.key ∉ resident → law.Held (insert pin.key resident) (pin ::ₘ pins) db' ∧
          law.view db' = Function.update (law.view db) pin.key (Block.zero pageSize)) ∧
        ∃ files, law.alike db.files files ∧
          PageStore.allocatePage file files = .ok pin.key.page db'.files)
      (fun e db' => law.Held resident pins db' ∧ law.Same db db' ∧
        (law.Sound resident db → e = .bufferPoolExhausted ∨
          ∃ files, law.alike db.files files ∧
            PageStore.allocatePage file files = .error (.error e) db'.files)) := by
  unfold allocate
  rw [ensures_bind]
  refine (ensures_makeRoom h).mono ?_ ?_
  · rintro _ db₁ ⟨hheld, hsame, -, -⟩
    rw [ensures_bind]
    unfold onFiles
    rw [ensures_onPart]
    refine (law.allocate db₁.files file).and_run.mono ?_ ?_
    · rintro page files ⟨hcontents, hrun⟩
      unfold load
      rw [ensures_bind, ensures_get]
      simp only
      rw [ensures_bind, ensures_set, ensures_pure]
      refine ⟨rfl, rfl, fun hfresh => ?_, db₁.files, hsame.alike, hrun⟩
      have hnone : db₁.pool.frames.find? ⟨file, page⟩ = none := by
        cases hfind : db₁.pool.frames.find? ⟨file, page⟩ with
        | none => rfl
        | some frame => exact absurd (hheld.resident _ _ hfind) hfresh
      obtain ⟨hheld', hview⟩ := Pool.Held.load hheld hnone (Block.zero pageSize) true
        (law.contents files) hcontents nofun
      refine ⟨hheld', hview.trans ?_⟩
      rw [← hsame.view]
      rfl
    · rintro e files ⟨⟨halike, hcontents⟩, hrun⟩
      exact ⟨hheld.of_contents hcontents, hsame.trans (.of_contents halike hcontents),
        fun _ => .inr ⟨db₁.files, hsame.alike, hrun⟩⟩
  · rintro e db' ⟨hheld, hsame, hcause, -⟩
    exact ⟨hheld, hsame, fun hsound => .inl (hcause hsound)⟩

/-! ## Writing back -/

/-- Writing one page back keeps all pins. -/
theorem ensures_flushPage (h : law.Held resident pins db) (key : FrameKey) :
    (flushPage key).Ensures db
      (fun _ db' => law.Held resident pins db' ∧ law.Same db db')
      (fun _ db' => law.Held resident pins db' ∧ law.Same db db' ∧ ¬law.Sound resident db) := by
  unfold flushPage modifyPool
  rw [ensures_bind]
  refine (ensures_writeBack h key).mono ?_ fun _ _ hpost => ⟨hpost.1, hpost.2.1, hpost.2.2.2⟩
  rintro _ db₁ ⟨hheld, hsame, hpool, hwritten⟩
  rw [← hpool] at hwritten
  rw [ensures_bind, ensures_modify, ensures_bind, ensures_get]
  obtain ⟨hheld₂, hview⟩ := Pool.Held.setClean hheld hwritten
  have hsame₂ := hsame.trans (.of_overlay hview)
  have hfind (k : FrameKey) : (db₁.pool.setClean key).frames.find? k =
      (db₁.pool.frames.find? k).map fun f => if k = key then { f with dirty := false } else f :=
    Pool.find?_of_adjust rfl k
  cases hkey : db₁.pool.frames.find? key with
  | none =>
    simp only [hfind, hkey, Option.map_none]
    rw [ensures_pure]
    exact ⟨hheld₂, hsame₂⟩
  | some frame =>
    simp only [hfind, hkey, Option.map_some, if_true]
    by_cases hpins : frame.pins = 0
    · simp only [hpins, if_true]
      rw [ensures_modify]
      obtain ⟨hheld₃, hview₃, -⟩ := Pool.Held.unload hheld₂
        (hheld.ne_of_pins_eq_zero hkey hpins) fun f hf => by
          rw [hfind, hkey, Option.map_some, if_pos rfl] at hf
          have hpage := agrees_of_written hheld hkey hpins (hwritten frame hkey)
          exact (congrArg Frame.page (Option.some.inj hf)).symm.trans hpage
      exact ⟨hheld₃, hsame₂.trans (.of_overlay hview₃)⟩
    · simp only [hpins, if_false]
      rw [ensures_pure]
      exact ⟨hheld₂, hsame₂⟩

/-- Writing a file back keeps all pins and changes no page. -/
theorem ensures_flushFile (h : law.Held resident pins db) (file : FileId) :
    (flushFile file).Ensures db
      (fun _ db' => law.Held resident pins db' ∧ law.Same db db')
      (fun _ db' => law.Held resident pins db' ∧ law.Same db db' ∧ ¬law.Sound resident db) := by
  unfold flushFile
  rw [ensures_bind, ensures_get]
  refine ensures_forM (fun db' => law.Held resident pins db' ∧ law.Same db db') ?_
    ⟨h, .refl _⟩
  rintro key - db₁ ⟨hheld, hsame⟩
  exact (ensures_flushPage hheld key).mono (fun _ _ hpost => ⟨hpost.1, hsame.trans hpost.2⟩)
    fun _ _ hpost => ⟨hpost.1, hsame.trans hpost.2.1, fun h => hpost.2.2 (h.of_same hsame)⟩

end Database

end PagedHeap
