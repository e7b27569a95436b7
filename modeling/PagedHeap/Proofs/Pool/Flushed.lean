import PagedHeap.Proofs.Pool.Access

/-!
# What is in the files when everything was written back

A frame is told of a change when the holder who made it lets go of the page, and only the frames
that are called changed are written back.  `PageStore.Law.due` are the pages as the files have them
once that is done.  No step on the way changes what is due, and in the end no frame is called
changed; so the files have what was due at first, and the frames have the bytes that they had
(`Database.flushes_flushAll`).
-/

namespace PagedHeap

open PagedHeap.Action

/-- The frame when its page was written back. -/
def Frame.clean (frame : Frame) : Frame := { frame with dirty := false }

@[simp] theorem Frame.dirty_clean (frame : Frame) : frame.clean.dirty = false := rfl

theorem Frame.clean_eq {frame : Frame} (h : frame.dirty = false) : frame.clean = frame := by
  unfold clean
  rw [← h]

namespace PageStore.Law

variable {σ : Type} [PageStore σ] (law : PageStore.Law σ)

/-- The pages as the files have them once all frames that are called changed were written back. -/
def due (db : Database σ) (key : FrameKey) : Page :=
  match db.pool.frames.find? key with
  | some frame => if frame.dirty then frame.page else law.contents db.files key
  | none => law.contents db.files key

/-- Some frames were written back: no frame has other bytes, and the same is due. -/
structure Flushing (db db' : Database σ) : Prop where
  frames : ∀ key, (db'.pool.frames.find? key).map Frame.clean =
    (db.pool.frames.find? key).map Frame.clean
  due : law.due db' = law.due db

/-- All frames were written back: they have the bytes that they had, and what was due is in the
files. -/
structure Flushed (db db' : Database σ) : Prop where
  frames : ∀ key, db'.pool.frames.find? key = (db.pool.frames.find? key).map Frame.clean
  contents : law.contents db'.files = law.due db

variable {law} {db db' db'' : Database σ} {key : FrameKey} {frame : Frame}

theorem due_of_dirty (hfind : db.pool.frames.find? key = some frame) (hdirty : frame.dirty = true) :
    law.due db key = frame.page := by
  unfold due
  simp only [hfind, hdirty, if_true]

theorem due_of_clean (hfind : db.pool.frames.find? key = some frame)
    (hclean : frame.dirty = false) : law.due db key = law.contents db.files key := by
  unfold due
  simp only [hfind, hclean, Bool.false_eq_true, if_false]

theorem due_of_none (hfind : db.pool.frames.find? key = none) :
    law.due db key = law.contents db.files key := by
  unfold due
  simp only [hfind]

theorem Flushing.refl (db : Database σ) : law.Flushing db db := ⟨fun _ => rfl, rfl⟩

theorem Flushing.trans (h : law.Flushing db db') (h' : law.Flushing db' db'') :
    law.Flushing db db'' :=
  ⟨fun key => (h'.frames key).trans (h.frames key), h'.due.trans h.due⟩

/-- Other files with the same pages. -/
theorem Flushing.of_contents {files : σ} (h : law.contents files = law.contents db.files) :
    law.Flushing db { db with files := files } := by
  refine ⟨fun _ => rfl, funext fun key => ?_⟩
  unfold Law.due
  rw [h]

/-- A frame whose page was written back counts as clean. -/
theorem Flushing.of_written {files : σ}
    (h : law.contents files = Function.update (law.contents db.files) key (law.due db key)) :
    law.Flushing db ⟨files, db.pool.setClean key⟩ := by
  have hfind (k : FrameKey) : (db.pool.setClean key).frames.find? k =
      (db.pool.frames.find? k).map fun f => if k = key then f.clean else f :=
    Pool.find?_of_adjust rfl k
  constructor
  · intro k
    simp only [hfind, Option.map_map]
    refine congrArg (Option.map · _) (funext fun f => ?_)
    simp only [Function.comp]
    split <;> rfl
  · funext k
    by_cases hk : k = key
    · subst hk
      have hwritten : law.contents files k = law.due db k := by rw [h, Function.update_self]
      rw [← hwritten]
      cases hframe : db.pool.frames.find? k with
      | none => exact due_of_none (by simp only [hfind, hframe, Option.map_none])
      | some f =>
        have hclean : (db.pool.setClean k).frames.find? k = some f.clean := by
          simp only [hfind, hframe, Option.map_some, if_true]
        exact due_of_clean hclean f.dirty_clean
    · have hother : law.contents files k = law.contents db.files k := by
        rw [h, Function.update_of_ne hk]
      unfold Law.due
      simp only [hfind, hk, if_false, Option.map_id', hother]

/-- If no frame is called changed any more, everything was written back. -/
theorem Flushing.flushed (h : law.Flushing db db')
    (hclean : ∀ key frame, db'.pool.frames.find? key = some frame → frame.dirty = false) :
    law.Flushed db db' := by
  constructor
  · intro key
    rw [← h.frames]
    cases hfind : db'.pool.frames.find? key with
    | none => rfl
    | some frame => rw [Option.map_some, Frame.clean_eq (hclean key frame hfind)]
  · rw [← h.due]
    funext key
    cases hfind : db'.pool.frames.find? key with
    | none => exact (due_of_none hfind).symm
    | some frame => exact (due_of_clean hfind (hclean key frame hfind)).symm

end PageStore.Law

namespace Database

variable {σ : Type} [PageStore σ] {law : PageStore.Law σ} {db : Database σ}
variable {resident : Set FrameKey} {pins : Multiset Pin}

/-- Writing a frame back puts what is due for its page into the file. -/
theorem stores_writeBack (law : PageStore.Law σ) (db : Database σ) (key : FrameKey) :
    (writeBack key).Ensures db
      (fun _ db' => law.contents db'.files =
        Function.update (law.contents db.files) key (law.due db key))
      fun _ _ => True := by
  unfold writeBack
  rw [ensures_bind, ensures_get]
  cases hfind : db.pool.frames.find? key with
  | none =>
    simp only
    rw [ensures_pure, PageStore.Law.due_of_none hfind, Function.update_eq_self]
  | some frame =>
    simp only
    cases hdirty : frame.dirty with
    | false =>
      simp only [Bool.false_eq_true, if_false]
      rw [ensures_pure, PageStore.Law.due_of_clean hfind hdirty, Function.update_eq_self]
    | true =>
      simp only [if_true]
      unfold onFiles
      rw [ensures_onPart, PageStore.Law.due_of_dirty hfind hdirty]
      exact (law.write db.files key.file key.page frame.page).mono (fun _ _ hpost => hpost.2)
        fun _ _ _ => trivial

/-- Whether the frame of a page, if it has one, is not called changed. -/
def IsClean (key : FrameKey) (db : Database σ) : Prop :=
  ∀ frame, db.pool.frames.find? key = some frame → frame.dirty = false

/-- A page that is written back counts as clean, and so does every other one that did. -/
theorem flushes_frame (h : law.Held resident pins db) (key : FrameKey) :
    (do writeBack key; modifyPool (·.setClean key) : Action (Database σ) Unit).Ensures db
      (fun _ db' => (law.Held resident pins db' ∧ law.Same db db' ∧ law.Flushing db db') ∧
        IsClean key db' ∧ ∀ other, IsClean other db → IsClean other db')
      (fun _ db' => law.Held resident pins db' ∧ law.Same db db' ∧ ¬law.Sound resident db) := by
  unfold modifyPool
  rw [ensures_bind]
  refine ((ensures_writeBack h key).and (stores_writeBack law db key)).mono ?_ ?_
  · rintro _ ⟨files, pool⟩ ⟨⟨hheld, hsame, rfl, hwritten⟩, hcontents⟩
    rw [ensures_modify]
    obtain ⟨hheld', hview⟩ := Pool.Held.setClean hheld hwritten
    have hfind (k : FrameKey) : (db.pool.setClean key).frames.find? k =
        (db.pool.frames.find? k).map fun f => if k = key then f.clean else f :=
      Pool.find?_of_adjust rfl k
    refine ⟨⟨hheld', hsame.trans (.of_overlay hview), .of_written hcontents⟩, ?_, ?_⟩
    · intro frame hframe
      simp only [hfind, if_true] at hframe
      obtain ⟨old, -, rfl⟩ := Option.map_eq_some_iff.1 hframe
      exact old.dirty_clean
    · intro k hclean frame hframe
      simp only [hfind] at hframe
      obtain ⟨old, hold, rfl⟩ := Option.map_eq_some_iff.1 hframe
      split
      · exact old.dirty_clean
      · exact hclean old hold
  · rintro _ db' ⟨⟨hheld, hsame, -, hunsound⟩, -⟩
    exact ⟨hheld, hsame, hunsound⟩

/-- Bringing files up to date leaves their pages and the pool as they are. -/
theorem flushes_files (h : law.Held resident pins db) (files : List FileId) :
    (files.forM fun file => onFiles (PageStore.sync file) : Action (Database σ) Unit).Ensures db
      (fun _ db' => (law.Held resident pins db' ∧ law.Same db db' ∧ law.Flushing db db') ∧
        db'.pool = db.pool)
      (fun e db' => law.Held resident pins db' ∧ law.Same db db' ∧
        ∃ (file : FileId) (files files' : σ),
          PageStore.sync file files = .error (.error e) files') := by
  refine ensures_forM (fun db' => (law.Held resident pins db' ∧ law.Same db db' ∧
    law.Flushing db db') ∧ db'.pool = db.pool) ?_ ⟨⟨h, .refl _, .refl _⟩, rfl⟩
  rintro file - db₁ ⟨⟨hheld, hsame, hflushing⟩, hpool⟩
  unfold onFiles
  rw [ensures_onPart]
  refine (law.sync db₁.files file).and_run.mono ?_ ?_
  · rintro _ files ⟨⟨halike, hcontents⟩, -⟩
    exact ⟨⟨hheld.of_contents hcontents, hsame.trans (.of_contents halike hcontents),
      hflushing.trans (.of_contents hcontents)⟩, hpool⟩
  · rintro e files ⟨⟨halike, hcontents⟩, hrun⟩
    exact ⟨hheld.of_contents hcontents, hsame.trans (.of_contents halike hcontents), file, _, _,
      hrun⟩

/-- Writing everything back keeps all pins and changes no page that can be seen.  It is refused only
if a page cannot be written or a file cannot be brought up to date. -/
theorem flushes_flushAll (h : law.Held resident pins db) :
    flushAll.Ensures db
      (fun _ db' => law.Held resident pins db' ∧ law.Same db db' ∧ law.Flushed db db')
      (fun e db' => law.Held resident pins db' ∧ law.Same db db' ∧
        (law.Sound resident db → ∃ (file : FileId) (files files' : σ),
          PageStore.sync file files = .error (.error e) files')) := by
  unfold flushAll
  rw [ensures_bind, ensures_get]
  simp only
  rw [ensures_bind]
  refine (ensures_forM_each
    (fun db' => law.Held resident pins db' ∧ law.Same db db' ∧ law.Flushing db db') IsClean ?_
    ⟨h, .refl _, .refl _⟩).mono ?_ fun _ _ hpost => hpost
  · rintro key - db₁ ⟨hheld, hsame, hflushing⟩
    refine (flushes_frame hheld key).mono ?_ ?_
    · rintro _ db₂ ⟨⟨hheld₂, hsame₂, hflushing₂⟩, hclean⟩
      exact ⟨⟨hheld₂, hsame.trans hsame₂, hflushing.trans hflushing₂⟩, hclean⟩
    · rintro _ db₂ ⟨hheld₂, hsame₂, hunsound⟩
      exact ⟨hheld₂, hsame.trans hsame₂, fun hsound => absurd (hsound.of_same hsame) hunsound⟩
  · rintro _ db₁ ⟨⟨⟨hheld, hsame, hflushing⟩, hall⟩, -⟩
    have hclean (key : FrameKey) (frame : Frame)
        (hfind : db₁.pool.frames.find? key = some frame) : frame.dirty = false := by
      refine hall key ?_ frame hfind
      have hframes := hflushing.frames key
      rw [hfind] at hframes
      obtain ⟨old, hold, -⟩ := Option.map_eq_some_iff.1 hframes.symm
      exact Table.mem_keys_of_find? hold
    refine (flushes_files hheld _).mono ?_ ?_
    · rintro _ db₂ ⟨⟨hheld₂, hsame₂, hflushing₂⟩, hpool⟩
      refine ⟨hheld₂, hsame.trans hsame₂, (hflushing.trans hflushing₂).flushed ?_⟩
      intro key frame hfind
      rw [hpool] at hfind
      exact hclean key frame hfind
    · rintro e db₂ ⟨hheld₂, hsame₂, hsync⟩
      exact ⟨hheld₂, hsame.trans hsame₂, fun _ => hsync⟩

/-- Writing all pages back keeps all pins and changes no page. -/
theorem ensures_flushAll (h : law.Held resident pins db) :
    flushAll.Ensures db
      (fun _ db' => law.Held resident pins db' ∧ law.Same db db')
      (fun _ db' => law.Held resident pins db' ∧ law.Same db db') :=
  (flushes_flushAll h).mono (fun _ _ hpost => ⟨hpost.1, hpost.2.1⟩)
    fun _ _ hpost => ⟨hpost.1, hpost.2.1⟩

end Database

end PagedHeap
