import PagedHeap.Proofs.Pool.Parallel
import PagedHeap.Proofs.Pool.Volume

/-!
# A pool with fewer pins than frames

As long as there are fewer pins than the pool may have frames, a page can be pinned: if the pool is
full, one of its frames has no pin and can be given up.
-/

namespace PagedHeap

open PagedHeap.Action

/-- If there are fewer pins than frames, some frame can be given up. -/
theorem Pool.Tracked.exists_victim_of_card {p : Pool} (h : p.Tracked) {base : FrameKey → Page}
    {resident : Set FrameKey} {pins : Multiset Pin} (hheld : Held base resident pins p)
    (hcard : pins.card < p.size) : ∃ key, p.victim? = some key := by
  by_contra hnone
  have hpinned : ∀ key ∈ p.frames.keys, key ∈ pins.map Pin.key := by
    intro key hkey
    obtain ⟨frame, hfind⟩ := Option.isSome_iff_exists.1 (Table.mem_keys.1 hkey)
    have hpins : frame.pins ≠ 0 := fun hzero => hnone (h.exists_victim hfind hzero)
    rw [(hheld.counted key frame hfind).1, ← Nat.pos_iff_ne_zero, Multiset.countP_pos] at hpins
    obtain ⟨pin, hpin, rfl⟩ := hpins
    exact Multiset.mem_map_of_mem _ hpin
  have hle : (p.frames.keys : Multiset FrameKey) ≤ pins.map Pin.key :=
    (Multiset.le_iff_subset (Multiset.coe_nodup.2 h.nodup)).2 hpinned
  have hcount := Multiset.card_le_card hle
  rw [Multiset.coe_card, Multiset.card_map] at hcount
  have hsize : p.frames.keys.length = p.size := List.length_map _
  omega

namespace Database

variable {σ α : Type} [PageStore σ] {law : PageStore.Reliable σ} {db : Database σ}
variable {pins : Multiset Pin}

/-- Whatever an operation does to a database beside itself keeps its pool tracked. -/
theorem ensures_tracked {x : Action (Database σ) α}
    (hkeeps : Keeps True (PageStore.Parallel.same True σ db.pool.capacity).Db x x)
    (h : db.pool.Tracked) {ok : α → Database σ → Prop} {refused : StorageError → Database σ → Prop}
    (hx : x.Ensures db ok refused) :
    x.Ensures db (fun a db' => ok a db' ∧ db'.pool.Tracked ∧
      db'.pool.capacity = db.pool.capacity) refused := by
  refine hx.and_run.mono ?_ fun _ _ => And.left
  rintro a db' ⟨hok, hrun⟩
  obtain ⟨db'', -, hdb⟩ := (hkeeps ⟨rfl, rfl, fun _ _ => trivial, h, rfl⟩).of_ok hrun
  exact ⟨hok, hdb.tracked, hdb.capacity⟩

/-- Room can be made if there are fewer pins than the pool may have frames. -/
theorem ensures_makeRoom_of_card (h : law.Holds pins db) (htracked : db.pool.Tracked)
    (hcard : pins.card < db.pool.capacity) :
    makeRoom.Ensures db (fun _ db' => law.Holds pins db' ∧ law.Same db db') Never := by
  have hmake : makeRoom.Ensures db (fun _ _ => True) Never := by
    unfold makeRoom
    rw [ensures_bind, ensures_get]
    by_cases hfull : db.pool.capacity ≤ db.pool.size
    · obtain ⟨key, hvictim⟩ := htracked.exists_victim_of_card h (Nat.lt_of_lt_of_le hcard hfull)
      simp only [if_pos hfull, hvictim]
      rw [ensures_bind]
      exact (ensures_writeBack h key).mono (fun _ _ _ => trivial) fun _ _ hpost =>
        hpost.2.2.2 PageStore.Reliable.sound_present
    · simp only [hfull, if_false]
      trivial
  refine ((ensures_makeRoom h).and hmake).mono ?_ fun _ _ => And.right
  rintro _ db' ⟨⟨hheld, hsame, -⟩, -⟩
  exact ⟨.of_held hheld hsame.alike, hsame⟩

/-- A page of a file is pinned if there are fewer pins than the pool may have frames. -/
theorem ensures_pin_of_card (h : law.Holds pins db) (htracked : db.pool.Tracked)
    (hcard : pins.card < db.pool.capacity) {file : FileId} {page : PageId}
    (hhas : (law.volume db file).Has page) :
    (pin file page).Ensures db
      (fun pin db' => pin.key = ⟨file, page⟩ ∧ law.Holds (pin ::ₘ pins) db' ∧ law.Same db db' ∧
        db'.pool.Tracked ∧ db'.pool.capacity = db.pool.capacity) Never := by
  have hpin : (pin file page).Ensures db (fun _ _ => True) Never := by
    unfold pin
    rw [ensures_bind, ensures_get]
    cases db.pool.frames.find? ⟨file, page⟩ with
    | some frame => trivial
    | none =>
      simp only
      rw [ensures_bind]
      refine (ensures_makeRoom_of_card h htracked hcard).mono ?_ fun _ _ => id
      rintro _ db₁ ⟨-, hsame⟩
      unfold onFiles
      rw [ensures_bind, ensures_onPart]
      refine (law.read db₁.files file page).mono (fun _ _ _ => trivial) fun _ _ hpost => ?_
      exact law.sound (hpost.2.2 (hsame.present_iff.2 (PageStore.Reliable.present_volume.2 hhas)))
  refine (ensures_tracked (keeps_pin trivial page) htracked
    ((holds_pin h file page).and hpin)).mono ?_ fun _ _ => And.right
  rintro pin db' ⟨⟨⟨hkey, hholds, hsame, -⟩, -⟩, hpost⟩
  exact ⟨hkey, hholds, hsame, hpost⟩

end Database

end PagedHeap
