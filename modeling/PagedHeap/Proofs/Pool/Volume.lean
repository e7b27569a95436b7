import PagedHeap.Proofs.Pool.Flushed

/-!
# Files without faults, seen through the pool

Over a store without faults a file is a `Volume`: a number of pages, and the bytes of each as they
are seen through the pool.  The operations of the database are described once more by what they do
to volumes.  Nothing but a pool whose frames are all pinned, or a page that the file does not have,
is then a reason to refuse.
-/

namespace PagedHeap

open PagedHeap.Action

/-- The pages of a file. -/
structure Volume where
  /-- The number of pages, the store's own page included. -/
  size : Nat
  /-- The bytes of each page. -/
  page : PageId → Page

namespace Volume

/-- Whether the volume has a page that callers can access. -/
def Has (v : Volume) (p : PageId) : Prop := 0 < p.val.toNat ∧ p.val.toNat < v.size

/-- The volume with other bytes in one page. -/
def store (v : Volume) (p : PageId) (data : Page) : Volume where
  size := v.size
  page := Function.update v.page p data

/-- The volume with one more page of zeros. -/
def grow (v : Volume) : Volume where
  size := v.size + 1
  page := Function.update v.page ⟨UInt32.ofNat v.size⟩ (Block.zero pageSize)

@[simp] theorem size_store (v : Volume) (p : PageId) (data : Page) :
    (v.store p data).size = v.size := rfl

@[simp] theorem size_grow (v : Volume) : v.grow.size = v.size + 1 := rfl

theorem page_grow_self (v : Volume) :
    v.grow.page ⟨UInt32.ofNat v.size⟩ = Block.zero pageSize := Function.update_self _ _ _

@[simp] theorem page_store_self (v : Volume) (p : PageId) (data : Page) :
    (v.store p data).page p = data := Function.update_self _ _ _

theorem page_store_of_ne (v : Volume) {p q : PageId} (h : q ≠ p) (data : Page) :
    (v.store p data).page q = v.page q := Function.update_of_ne h _ _

end Volume

namespace PageStore.Reliable

variable {σ : Type} [PageStore σ] (law : PageStore.Reliable σ)

/-- A file as it is seen through the pool. -/
def volume (db : Database σ) (file : FileId) : Volume where
  size := law.size db.files file
  page p := law.view db ⟨file, p⟩

/-- The pool has counted all pins, and only pages that the files have are in it. -/
def Holds (pins : Multiset Pin) (db : Database σ) : Prop :=
  law.Held {key | law.present db.files key} pins db

/-- Nothing changed but the pages of one file. -/
structure Only (file : FileId) (db db' : Database σ) : Prop where
  akin : law.akin db.files db'.files
  others : ∀ other, other ≠ file → law.volume db' other = law.volume db other

variable {law} {db db' : Database σ} {pins : Multiset Pin}

theorem present_volume {key : FrameKey} :
    law.present db.files key ↔ (law.volume db key.file).Has key.page := law.present_iff _ _

theorem volume_of_same (h : law.Same db db') : law.volume db' = law.volume db := by
  funext file
  have hsize := congrFun (law.size_of_alike h.alike) file
  have hpage : (fun p => law.view db' ⟨file, p⟩) = fun p => law.view db ⟨file, p⟩ := by rw [h.view]
  simp only [volume, hsize, hpage]

theorem Only.of_same (h : law.Same db db') (file : FileId) : law.Only file db db' :=
  ⟨law.akin_of_alike h.alike, fun other _ => congrFun (volume_of_same h) other⟩

theorem Only.trans {file : FileId} {db'' : Database σ} (h : law.Only file db db')
    (h' : law.Only file db' db'') : law.Only file db db'' :=
  ⟨law.akin_trans h.akin h'.akin, fun other hother =>
    (h'.others other hother).trans (h.others other hother)⟩

/-- Every page in the pool can be written back. -/
theorem sound_present : law.Sound {key | law.present db.files key} db :=
  ⟨law.sound, fun _ hkey => hkey⟩

/-- The invariant moves on to files that are alike. -/
theorem Holds.of_held (hheld : law.Held {key | law.present db.files key} pins db')
    (halike : law.alike db.files db'.files) : law.Holds pins db' :=
  Pool.Held.mono hheld fun _ hkey => (law.present_congr halike).2 hkey

/-- A change of one page that can be seen, file by file. -/
theorem view_update (law : PageStore.Reliable σ) {file : FileId} {p : PageId} {data : Page}
    (hview : law.view db' = Function.update (law.view db) ⟨file, p⟩ data) :
    ((fun q => law.view db' ⟨file, q⟩) =
        Function.update (fun q => law.view db ⟨file, q⟩) p data) ∧
      ∀ other, other ≠ file →
        (fun q => law.view db' ⟨other, q⟩) = fun q => law.view db ⟨other, q⟩ := by
  refine ⟨funext fun q => ?_, fun other hother => funext fun q => ?_⟩
  · rw [hview]
    by_cases hq : q = p
    · rw [hq, Function.update_self, Function.update_self]
    · rw [Function.update_of_ne hq,
        Function.update_of_ne fun heq => hq (congrArg FrameKey.page heq)]
  · rw [hview, Function.update_of_ne fun heq => hother (congrArg FrameKey.file heq)]

end PageStore.Reliable

namespace Database

variable {σ : Type} [PageStore σ] {law : PageStore.Reliable σ} {db : Database σ}
variable {pins : Multiset Pin}

/-- Storing into a held page changes that page of its file. -/
theorem stores_setPage (h : law.Holds pins db) {pin : Pin} (hpin : pin ∈ pins)
    (hdirty : pin.dirty = true) (data : Page) :
    (setPage pin data).Ensures db
      (fun _ db' => law.Holds pins db' ∧ law.Only pin.key.file db db' ∧
        law.volume db' pin.key.file = (law.volume db pin.key.file).store pin.key.page data)
      Never := by
  refine (ensures_setPage h hpin hdirty data).mono ?_ fun _ _ => id
  rintro _ db' ⟨hheld, hfiles, hview⟩
  have halike : law.alike db.files db'.files := by
    rw [hfiles]
    exact law.alike_refl _
  have hsize := law.size_of_alike halike
  obtain ⟨hpage, hothers⟩ := law.view_update hview
  refine ⟨.of_held hheld halike, ⟨law.akin_of_alike halike, fun other hother => ?_⟩, ?_⟩
  · unfold PageStore.Reliable.volume
    rw [hsize, hothers other hother]
  · unfold PageStore.Reliable.volume Volume.store
    rw [hsize, hpage]

/-- A page that its file has is pinned if there is a frame for it. -/
theorem holds_pin (h : law.Holds pins db) (file : FileId) (page : PageId) :
    (pin file page).Ensures db
      (fun pin db' => pin.key = ⟨file, page⟩ ∧ law.Holds (pin ::ₘ pins) db' ∧ law.Same db db' ∧
        (law.volume db file).Has page ∧
        db'.pool.capacity = db.pool.capacity ∧ db'.pool.size ≤ db.pool.size + 1)
      (fun e db' => law.Holds pins db' ∧ law.Same db db' ∧
        ((law.volume db file).Has page →
          e = .bufferPoolExhausted ∧ db.pool.capacity ≤ db.pool.size)) := by
  refine (ensures_pin h file page).mono ?_ ?_
  · rintro pin db' ⟨hkey, -, hheld, hsame, hpresent, hgrown⟩
    have hhas : (⟨file, page⟩ : FrameKey) ∈ {key | law.present db.files key} :=
      hpresent.elim id id
    rw [Set.insert_eq_of_mem hhas] at hheld
    exact ⟨hkey, .of_held hheld hsame.alike, hsame, PageStore.Reliable.present_volume.1 hhas,
      hgrown⟩
  · rintro e db' ⟨hheld, hsame, hcause⟩
    exact ⟨.of_held hheld hsame.alike, hsame, fun hhas =>
      hcause PageStore.Reliable.sound_present (PageStore.Reliable.present_volume.2 hhas)⟩

/-- A pin that is held is given up. -/
theorem holds_release {pin : Pin} (h : law.Holds (pin ::ₘ pins) db) :
    (release pin).Ensures db (fun _ db' => law.Holds pins db' ∧ law.Same db db') Never := by
  refine (ensures_release h).mono ?_ fun _ _ => id
  exact fun _ db' hpost => ⟨.of_held hpost.1 hpost.2.alike, hpost.2⟩

theorem holds_drop {pin : Pin} (h : law.Holds (pin ::ₘ pins) db) :
    (drop pin).Ensures db (fun _ db' => law.Holds pins db' ∧ law.Same db db') Never := by
  refine (ensures_drop h).mono ?_ fun _ _ => id
  exact fun _ db' hpost => ⟨.of_held hpost.1 hpost.2.alike, hpost.2⟩

/-- A file is flushed. -/
theorem holds_flushFile (h : law.Holds pins db) (file : FileId) :
    (flushFile file).Ensures db (fun _ db' => law.Holds pins db' ∧ law.Same db db') Never := by
  refine (ensures_flushFile h file).mono ?_ ?_
  · exact fun _ db' hpost => ⟨.of_held hpost.1 hpost.2.alike, hpost.2⟩
  · exact fun _ db' hpost => hpost.2.2 PageStore.Reliable.sound_present

theorem holds_flushAll (h : law.Holds pins db) :
    flushAll.Ensures db (fun _ db' => law.Holds pins db' ∧ law.Same db db')
      (fun _ db' => law.Holds pins db' ∧ law.Same db db') := by
  refine (ensures_flushAll h).mono ?_ ?_
  · exact fun _ db' hpost => ⟨.of_held hpost.1 hpost.2.alike, hpost.2⟩
  · exact fun _ db' hpost => ⟨.of_held hpost.1 hpost.2.alike, hpost.2⟩

/-- A file gets one more page, if there is a frame for it. -/
theorem grows_allocate (h : law.Holds pins db) (file : FileId)
    (hpos : 0 < (law.volume db file).size) (hlt : (law.volume db file).size < 2 ^ 32) :
    (allocate file).Ensures db
      (fun pin db' => pin.key = ⟨file, ⟨UInt32.ofNat (law.volume db file).size⟩⟩ ∧
        pin.dirty = true ∧ law.Holds (pin ::ₘ pins) db' ∧ law.Only file db db' ∧
        law.volume db' file = (law.volume db file).grow)
      (fun e db' => law.Holds pins db' ∧ law.Same db db' ∧ e = .bufferPoolExhausted) := by
  refine (ensures_allocate h file).mono ?_ ?_
  · rintro ⟨⟨f, page⟩, serial, dirty⟩ db' ⟨hfile, hdirty, hnew, files, halike, hrun⟩
    obtain rfl : f = file := hfile
    have hsize := congrFun (law.size_of_alike halike) f
    obtain ⟨hakin, hpage, hgrown⟩ :=
      (law.grow files f (hsize ▸ hpos) (hsize ▸ hlt)).of_ok hrun
    rw [law.size_of_alike halike] at hpage hgrown
    have hnumber : page = ⟨UInt32.ofNat (law.size db.files f)⟩ := by
      rw [← hpage, UInt32.ofNat_toNat]
    have hfresh : (⟨f, page⟩ : FrameKey) ∉ {key | law.present db.files key} := fun hkey =>
      absurd (((law.present_iff _ _).1 hkey).2) (by simp only [hpage]; omega)
    obtain ⟨hheld, hview⟩ := hnew hfresh
    have hkept : insert ⟨f, page⟩ {key | law.present db.files key} ⊆
        {key | law.present db'.files key} := by
      rintro key (rfl | hkey)
      · refine (law.present_iff _ _).2 ⟨?_, ?_⟩
        · simp only [hpage]
          exact hpos
        · simp only [hpage, hgrown, Function.update_self]
          exact Nat.lt_succ_self _
      · obtain ⟨hzero, hin⟩ := (law.present_iff _ _).1 hkey
        refine (law.present_iff _ _).2 ⟨hzero, Nat.lt_of_lt_of_le hin ?_⟩
        rw [hgrown]
        by_cases hother : key.file = f
        · rw [hother, Function.update_self]
          exact Nat.le_succ _
        · rw [Function.update_of_ne hother]
    obtain ⟨hvolume, hothers⟩ := law.view_update hview
    refine ⟨congrArg (FrameKey.mk f) hnumber, hdirty, Pool.Held.mono hheld hkept,
      ⟨law.akin_trans (law.akin_of_alike halike) hakin, fun other hother => ?_⟩, ?_⟩
    · unfold PageStore.Reliable.volume
      rw [hgrown, Function.update_of_ne hother, hothers other hother]
    · unfold PageStore.Reliable.volume Volume.grow
      rw [hgrown, Function.update_self, hvolume, hnumber]
  · rintro e db' ⟨hheld, hsame, hcause⟩
    refine ⟨.of_held hheld hsame.alike, hsame, ?_⟩
    rcases hcause PageStore.Reliable.sound_present with he | ⟨files, halike, hrun⟩
    · exact he
    · have hsize := congrFun (law.size_of_alike halike) file
      exact ((law.grow files file (hsize ▸ hpos) (hsize ▸ hlt)).of_error hrun).elim

end Database

end PagedHeap
