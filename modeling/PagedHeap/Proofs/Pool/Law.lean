import PagedHeap.File.Store
import PagedHeap.Pool.Access
import PagedHeap.Proofs.Ensures
import PagedHeap.Proofs.Pool.Held

/-!
# What the pool needs from its files

A `PageStore.Law` says of a store of files what the pool relies on: reading a page gives what is
there and changes nothing that counts, writing a page changes that page only, and a new page leaves
the others alone.  A read or a write may be refused, and then changes nothing; whether that happens
to pages that are there is for the store to say.

A database whose pool keeps its invariant over such a store (`Law.Held`) shows its pages through the
pool (`Law.view`).
-/

namespace PagedHeap

open PagedHeap.Action

/-- The pages that a store holds, and what its operations do to them. -/
structure PageStore.Law (σ : Type) [PageStore σ] where
  /-- The bytes of every page in the files. -/
  contents : σ → FrameKey → Page
  /-- The states agree but for the bytes of pages. -/
  alike : σ → σ → Prop
  /-- The pages that can be read and written. -/
  present : σ → FrameKey → Prop
  /-- Even such pages may be refused. -/
  faulty : Prop
  alike_refl : ∀ s, alike s s
  alike_trans : ∀ {s t u}, alike s t → alike t u → alike s u
  present_congr : ∀ {s t key}, alike s t → (present t key ↔ present s key)
  /-- A page is read as it is. -/
  read : ∀ s file page, (readPage file page).Ensures s
    (fun data t => alike s t ∧ contents t = contents s ∧ present s ⟨file, page⟩ ∧
      data = contents s ⟨file, page⟩)
    (fun _ t => alike s t ∧ contents t = contents s ∧ (present s ⟨file, page⟩ → faulty))
  /-- A page that was written has the new bytes, and the other pages have their old ones. -/
  write : ∀ s file page (data : Page), (writePage file page data).Ensures s
    (fun _ t => alike s t ∧ contents t = Function.update (contents s) ⟨file, page⟩ data)
    (fun _ t => alike s t ∧ contents t = contents s ∧ (present s ⟨file, page⟩ → faulty))
  /-- A new page leaves the others alone. -/
  allocate : ∀ s file, (allocatePage file).Ensures s
    (fun page t => ∀ key, key ≠ ⟨file, page⟩ → contents t key = contents s key)
    (fun _ t => alike s t ∧ contents t = contents s)
  /-- Bringing a file up to date changes no page. -/
  sync : ∀ s file, (sync file).Ensures s
    (fun _ t => alike s t ∧ contents t = contents s)
    (fun _ t => alike s t ∧ contents t = contents s)

/-- A store without faults: it reads and writes every page that it has, and numbers new pages by the
size of their file. -/
structure PageStore.Reliable (σ : Type) [PageStore σ] extends PageStore.Law σ where
  /-- The number of pages of a file, the store's own page included; zero if there is no file. -/
  size : σ → FileId → Nat
  /-- The states agree but for the pages of their files. -/
  akin : σ → σ → Prop
  akin_trans : ∀ {s t u}, akin s t → akin t u → akin s u
  akin_of_alike : ∀ {s t}, alike s t → akin s t
  size_of_alike : ∀ {s t}, alike s t → size t = size s
  sound : ¬faulty
  present_iff : ∀ s key,
    present s key ↔ 0 < key.page.val.toNat ∧ key.page.val.toNat < size s key.file
  /-- A file that has room for one more page gets it. -/
  grow : ∀ s file, 0 < size s file → size s file < 2 ^ 32 → (allocatePage file).Ensures s
    (fun page t => akin s t ∧ page.val.toNat = size s file ∧
      size t = Function.update (size s) file (size s file + 1)) Never
  /-- Pages are counted. -/
  count : ∀ s file, (pageCount file).Ensures s
    (fun n t => t = s ∧ n = UInt32.ofNat (size s file)) Never

namespace PageStore.Law

variable {σ : Type} [PageStore σ] (law : PageStore.Law σ)

/-- The pool of a database has counted all pins, and what it does not call changed agrees with the
files. -/
def Held (resident : Set FrameKey) (pins : Multiset Pin) (db : Database σ) : Prop :=
  Pool.Held (law.contents db.files) resident pins db.pool

/-- The pages of a database as they are seen through its pool. -/
def view (db : Database σ) : FrameKey → Page := db.pool.overlay (law.contents db.files)

/-- No page of the database changed, nor anything else about its files. -/
structure Same (db db' : Database σ) : Prop where
  alike : law.alike db.files db'.files
  view : law.view db' = law.view db

/-- Every page in the pool can be written back. -/
def Sound (resident : Set FrameKey) (db : Database σ) : Prop :=
  ¬law.faulty ∧ ∀ key ∈ resident, law.present db.files key

variable {law}

theorem Same.refl (db : Database σ) : law.Same db db := ⟨law.alike_refl _, rfl⟩

theorem Same.trans {db db' db'' : Database σ} (h : law.Same db db') (h' : law.Same db' db'') :
    law.Same db db'' :=
  ⟨law.alike_trans h.alike h'.alike, h'.view.trans h.view⟩

theorem Same.present_iff {db db' : Database σ} (h : law.Same db db') {key : FrameKey} :
    law.present db'.files key ↔ law.present db.files key := law.present_congr h.alike

/-- Other files with the same pages can be put under a pool. -/
theorem Held.of_contents {resident : Set FrameKey} {pins : Multiset Pin} {db : Database σ}
    {files : σ} (h : law.Held resident pins db)
    (hcontents : law.contents files = law.contents db.files) :
    law.Held resident pins { db with files := files } := by
  unfold Held
  rw [hcontents]
  exact h

theorem Same.of_contents {db : Database σ} {files : σ} (halike : law.alike db.files files)
    (hcontents : law.contents files = law.contents db.files) :
    law.Same db { db with files := files } := by
  refine ⟨halike, ?_⟩
  unfold Law.view
  rw [hcontents]

theorem Same.of_overlay {db : Database σ} {pool : Pool}
    (hview : pool.overlay (law.contents db.files) = db.pool.overlay (law.contents db.files)) :
    law.Same db { db with pool := pool } := ⟨law.alike_refl _, hview⟩

/-- Whether all pages can be written back depends on the files only. -/
theorem Sound.of_same {resident : Set FrameKey} {db db' : Database σ}
    (h : law.Sound resident db) (hsame : law.Same db db') : law.Sound resident db' :=
  ⟨h.1, fun key hkey => hsame.present_iff.2 (h.2 key hkey)⟩

theorem held_start (files : σ) (capacity : Nat) : law.Held ∅ 0 ⟨files, .empty capacity⟩ :=
  Pool.held_empty _ _ _

end PageStore.Law

end PagedHeap
