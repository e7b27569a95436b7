import PagedHeap.Proofs.File.Memory
import PagedHeap.Proofs.Pool.Flushed

/-!
# The pool is transparent

Holders pin pages, allocate new ones, store bytes into the pages they hold, call them changed, and
let go of them; between their calls files are flushed.  Calls may be refused.  `Holders` is a
database together with the pins that are out and with what a reader is entitled to see: the bytes
last stored into each page through any of its holders.

Whatever the order of the calls and whatever is evicted or refused on the way, every holder sees
those bytes (`Run.transparent`).  Where a store into a page goes, which frames are given up and when
they are written back cannot be told from what the holders read.
-/

namespace PagedHeap

open PagedHeap.Action

/-- A database, the pins on its pages that are out, and what was stored through them. -/
structure Holders (σ : Type) where
  /-- The database. -/
  db : Database σ
  /-- The pins that are out. -/
  pins : Multiset Pin
  /-- The bytes last stored into a page through any of its holders, if any were. -/
  stored : FrameKey → Option Page
  /-- The pages that were ever pinned or allocated. -/
  used : Set FrameKey

namespace Holders

variable {σ : Type} [PageStore σ]

/-- One call of a holder, or one flush.  A page that is allocated must not have been used before,
and only a pin that is out can be used and given up. -/
inductive Step (s : Holders σ) : Holders σ → Prop where
  /-- A page is pinned. -/
  | pin {file : FileId} {page : PageId} {pin : Pin} {db : Database σ}
      (run : Database.pin file page s.db = .ok pin db) :
      Step s { s with db := db, pins := pin ::ₘ s.pins, used := insert pin.key s.used }
  /-- A page is not pinned. -/
  | pinRefused {file : FileId} {page : PageId} {e : StorageError} {db : Database σ}
      (run : Database.pin file page s.db = .error (.error e) db) : Step s { s with db := db }
  /-- A new page is allocated. -/
  | allocate {file : FileId} {pin : Pin} {db : Database σ}
      (run : Database.allocate file s.db = .ok pin db) (fresh : pin.key ∉ s.used) :
      Step s ⟨db, pin ::ₘ s.pins, Function.update s.stored pin.key (some (Block.zero pageSize)),
        insert pin.key s.used⟩
  /-- No page is allocated. -/
  | allocateRefused {file : FileId} {e : StorageError} {db : Database σ}
      (run : Database.allocate file s.db = .error (.error e) db) : Step s { s with db := db }
  /-- A holder stores bytes into its page. -/
  | store {pin : Pin} {rest : Multiset Pin} {page : Page} {db : Database σ}
      (held : s.pins = pin ::ₘ rest) (run : Database.setPage pin.markDirty page s.db = .ok () db) :
      Step s { s with
        db := db
        pins := pin.markDirty ::ₘ rest
        stored := Function.update s.stored pin.key (some page) }
  /-- A holder calls its page changed. -/
  | markDirty {pin : Pin} {rest : Multiset Pin} (held : s.pins = pin ::ₘ rest) :
      Step s { s with pins := pin.markDirty ::ₘ rest }
  /-- A pin is given back. -/
  | release {pin : Pin} {rest : Multiset Pin} {db : Database σ} (held : s.pins = pin ::ₘ rest)
      (ends : (Database.release pin).Ends s.db db) : Step s { s with db := db, pins := rest }
  /-- A holder goes away. -/
  | drop {pin : Pin} {rest : Multiset Pin} {db : Database σ} (held : s.pins = pin ::ₘ rest)
      (ends : (Database.drop pin).Ends s.db db) : Step s { s with db := db, pins := rest }
  /-- The pages of a file are written back. -/
  | flushFile {file : FileId} {db : Database σ} (ends : (Database.flushFile file).Ends s.db db) :
      Step s { s with db := db }
  /-- All pages are written back. -/
  | flushAll {db : Database σ} (ends : Database.flushAll.Ends s.db db) : Step s { s with db := db }

/-- Files under a pool without pages, and no holders. -/
def start (files : σ) (capacity : Nat) : Holders σ :=
  ⟨⟨files, .empty capacity⟩, 0, fun _ => none, ∅⟩

/-- What can be reached with a pool of some capacity on some files. -/
inductive Run (files : σ) (capacity : Nat) : Holders σ → Prop where
  /-- At first nothing is pinned. -/
  | start : Run files capacity (start files capacity)
  /-- Calls follow one another. -/
  | step {s t : Holders σ} : Run files capacity s → Step s t → Run files capacity t

variable {law : PageStore.Law σ} {files : σ} {capacity : Nat} {s t : Holders σ}

/-- What a reader of a page is entitled to see: the bytes last stored into it, or those that it had
in its file at first. -/
def entitled (law : PageStore.Law σ) (files : σ) (s : Holders σ) (key : FrameKey) : Page :=
  (s.stored key).getD (law.contents files key)

/-- The pool has counted the pins that are out, and shows what readers are entitled to see. -/
structure Sound (law : PageStore.Law σ) (files : σ) (s : Holders σ) : Prop where
  held : law.Held s.used s.pins s.db
  view : law.view s.db = s.entitled law files

/-- A call that keeps the pins and all pages keeps the books right. -/
theorem Sound.of_same (h : Sound law files s) {db : Database σ} {pins : Multiset Pin}
    (hkept : law.Held s.used pins db ∧ law.Same s.db db) :
    Sound law files { s with db := db, pins := pins } :=
  ⟨hkept.1, hkept.2.view.trans h.view⟩

/-- What is stored into a page is what readers of that page are entitled to see. -/
theorem entitled_store (s : Holders σ) (db : Database σ) (pins : Multiset Pin)
    (used : Set FrameKey) (key : FrameKey) (page : Page) :
    entitled law files ⟨db, pins, Function.update s.stored key (some page), used⟩ =
      Function.update (s.entitled law files) key page := by
  funext k
  by_cases hk : k = key
  · subst hk
    simp only [entitled, Function.update_self, Option.getD_some]
  · simp only [entitled, Function.update_of_ne hk]

/-- Every call keeps the books right. -/
theorem Step.sound (hstep : Step s t) (h : Sound law files s) : Sound law files t := by
  cases hstep with
  | pin run =>
    obtain ⟨hkey, -, hheld, hsame, -⟩ := (Database.ensures_pin h.held _ _).of_ok run
    rw [← hkey] at hheld
    exact ⟨hheld, hsame.view.trans h.view⟩
  | pinRefused run =>
    obtain ⟨hheld, hsame, -⟩ := (Database.ensures_pin h.held _ _).of_error run
    exact h.of_same ⟨hheld, hsame⟩
  | allocate run fresh =>
    obtain ⟨-, -, hnew, -⟩ := (Database.ensures_allocate h.held _).of_ok run
    obtain ⟨hheld, hview⟩ := hnew fresh
    refine ⟨hheld, hview.trans ?_⟩
    rw [h.view, entitled_store]
  | allocateRefused run =>
    obtain ⟨hheld, hsame, -⟩ := (Database.ensures_allocate h.held _).of_error run
    exact h.of_same ⟨hheld, hsame⟩
  | @store pin rest page db held run =>
    have hmarked : law.Held s.used (pin.markDirty ::ₘ rest) s.db :=
      Pool.Held.markDirty (held ▸ h.held)
    obtain ⟨hheld, -, hview⟩ :=
      (Database.ensures_setPage hmarked (Multiset.mem_cons_self _ _) rfl page).of_ok run
    refine ⟨hheld, hview.trans ?_⟩
    rw [h.view, entitled_store]
    rfl
  | markDirty held => exact ⟨Pool.Held.markDirty (held ▸ h.held), h.view⟩
  | @release pin rest db held ends =>
    have hheld : law.Held s.used (pin ::ₘ rest) s.db := held ▸ h.held
    have hrelease := Database.ensures_release hheld
    exact h.of_same ((hrelease.mono (fun _ _ hpost => hpost) fun _ _ => False.elim).of_ends ends)
  | @drop pin rest db held ends =>
    have hheld : law.Held s.used (pin ::ₘ rest) s.db := held ▸ h.held
    have hdrop := Database.ensures_drop hheld
    exact h.of_same ((hdrop.mono (fun _ _ hpost => hpost) fun _ _ => False.elim).of_ends ends)
  | @flushFile file db ends =>
    have hflush := Database.ensures_flushFile h.held file
    exact h.of_same ((hflush.mono (fun _ _ hpost => hpost)
      fun _ _ hpost => And.intro hpost.1 hpost.2.1).of_ends ends)
  | flushAll ends => exact h.of_same ((Database.ensures_flushAll h.held).of_ends ends)

/-- The books are right wherever calls can lead. -/
theorem Run.sound (h : Run files capacity s) : Sound law files s := by
  induction h with
  | start => exact ⟨PageStore.Law.held_start _ _, rfl⟩
  | step _ hstep ih => exact hstep.sound ih

/-- Every holder sees the bytes last stored into its page through any of its holders, zeros after
the page was allocated, and what was in the file if nothing was ever stored; holders of one page
see the same; and a frame that nobody holds and that is not called changed agrees with its file. -/
theorem Run.transparent (law : PageStore.Law σ) (h : Run files capacity s) :
    (∀ pin ∈ s.pins, s.db.pool.page pin = s.entitled law files pin.key) ∧
      (∀ pin ∈ s.pins, ∀ pin' ∈ s.pins, pin.key = pin'.key →
        s.db.pool.page pin = s.db.pool.page pin') ∧
      ∀ key frame, s.db.pool.frames.find? key = some frame → frame.pins = 0 →
        frame.dirty = false → frame.page = law.contents s.db.files key := by
  have hsound : Sound law files s := h.sound
  have hseen : ∀ pin ∈ s.pins, s.db.pool.page pin = s.entitled law files pin.key := by
    intro pin hpin
    rw [← hsound.view]
    exact hsound.held.page_eq hpin
  refine ⟨hseen, fun pin hpin pin' hpin' hkey => ?_, fun key frame hfind hpins hclean => ?_⟩
  · rw [hseen pin hpin, hseen pin' hpin', hkey]
  · exact hsound.held.clean key frame hfind hclean fun pin hpin hkey =>
      absurd hkey (hsound.held.ne_of_pins_eq_zero hfind hpins pin hpin)

/-! ## A page that was evicted -/

section Evicted

/-- A file in memory that has no pages yet but its own. -/
def oneFile : MemoryFiles := ⟨[(⟨1⟩, #[Block.zero pageSize])], [], [], 2⟩

/-- The bytes that are stored. -/
def sample : Page := (Block.zero pageSize).overwrite 0 [0xAB]

/-- With a single frame, a page is allocated, changed and let go of; another page takes the frame;
and when the first is pinned again, its holder sees what was stored. -/
theorem Run.transparent_evicted : ∃ s pin, Run oneFile 1 s ∧ pin ∈ s.pins ∧
    pin.key = ⟨⟨1⟩, ⟨1⟩⟩ ∧ s.entitled MemoryFiles.law.toLaw oneFile pin.key = sample ∧
    s.db.pool.page pin = sample := by
  have fresh : (⟨⟨1⟩, ⟨2⟩⟩ : FrameKey) ∉ insert ⟨⟨1⟩, ⟨1⟩⟩ (∅ : Set FrameKey) := by
    rintro (h | h)
    · exact absurd h (by decide)
    · exact h
  have held (s : Holders MemoryFiles) (pin : Pin) (h : s.pins = pin ::ₘ 0) : pin ∈ s.pins :=
    h ▸ Multiset.mem_cons_self _ _
  have allocated := (Run.start : Run oneFile 1 _).step
    (@Step.allocate _ _ _ ⟨1⟩ ⟨⟨⟨1⟩, ⟨1⟩⟩, 0, true⟩ _ rfl (Set.notMem_empty _))
  have changed := allocated.step (@Step.store _ _ _ ⟨⟨⟨1⟩, ⟨1⟩⟩, 0, true⟩ 0 sample _ rfl rfl)
  have dropped := changed.step (@Step.drop _ _ _ ⟨⟨⟨1⟩, ⟨1⟩⟩, 0, true⟩ 0 _ rfl (.inl ⟨(), rfl⟩))
  have evicted := (dropped.step
    (@Step.allocate _ _ _ ⟨1⟩ ⟨⟨⟨1⟩, ⟨2⟩⟩, 1, true⟩ _ rfl fresh)).step
    (@Step.drop _ _ _ ⟨⟨⟨1⟩, ⟨2⟩⟩, 1, true⟩ 0 _ rfl (.inl ⟨(), rfl⟩))
  have again := evicted.step (@Step.pin _ _ _ ⟨1⟩ ⟨1⟩ ⟨⟨⟨1⟩, ⟨1⟩⟩, 2, false⟩ _ rfl)
  have seen := (Run.transparent MemoryFiles.law.toLaw again).1 _ (held _ _ rfl)
  exact ⟨_, _, again, held _ _ rfl, rfl, rfl, seen.trans rfl⟩

end Evicted

end Holders

end PagedHeap
