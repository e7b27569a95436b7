import PagedHeap.Proofs.Allows
import PagedHeap.Proofs.Causes
import PagedHeap.Proofs.File.Checks
import PagedHeap.Proofs.File.Tallies

/-!
# The books of a store of files

Whatever the bytes of its files are, a store knows how many pages each file has and which files are
open how often (`FileStore.Register`).  `FileStore.Books` says what each operation does to this:
files only grow, a new page has the number of pages that there were before, and only opening and
closing a file changes what is open.  A store has no frames, so that it never answers that there are
none left.
-/

namespace PagedHeap

open PagedHeap.Action

/-- What a store knows of its files besides their bytes. -/
structure FileStore.Register (σ : Type) where
  /-- The number of pages of a file, the store's own page included; zero if there is no file. -/
  size : σ → FileId → Nat
  /-- The files that are open. -/
  opened : σ → OpenTable
  /-- The states in which the tables of the store fit together. -/
  valid : σ → Prop

namespace FileStore.Register

variable {σ : Type} (r : FileStore.Register σ)

/-- Files only grow. -/
structure Grows (s t : σ) : Prop where
  valid : r.valid t
  size : ∀ file, r.size s file ≤ r.size t file

/-- Files only grow, and the same files are open. -/
structure Same (s t : σ) : Prop extends Grows r s t where
  opened : r.opened t = r.opened s

/-- An operation is refused, and not because there is no frame left. -/
def Refused (s : σ) (e : StorageError) (t : σ) : Prop := e ≠ .bufferPoolExhausted ∧ r.Same s t

/-- A file was opened once more. -/
def Opened (s : σ) (file : FileHandle) (t : σ) : Prop :=
  r.Grows s t ∧ ∃ count, ((r.opened s).find? file.name = some ⟨file, count⟩ ∨
    (r.opened s).find? file.name = none ∧ count = 0) ∧
    r.opened t = (r.opened s).put file.name ⟨file, count + 1⟩

/-- One of the openings of a file was given back, and `count` are left. -/
def Closed (s : σ) (file : FileHandle) (count : Nat) (t : σ) : Prop :=
  r.Grows s t ∧ r.opened t =
    if count = 0 then (r.opened s).erase file.name else (r.opened s).put file.name ⟨file, count⟩

variable {r} {s t u : σ}

theorem Grows.refl (hs : r.valid s) : r.Grows s s := ⟨hs, fun _ => Nat.le_refl _⟩

theorem Grows.trans (h : r.Grows s t) (h' : r.Grows t u) : r.Grows s u :=
  ⟨h'.valid, fun file => (h.size file).trans (h'.size file)⟩

theorem Same.refl (hs : r.valid s) : r.Same s s := ⟨.refl hs, rfl⟩

theorem Same.trans (h : r.Same s t) (h' : r.Same t u) : r.Same s u :=
  ⟨h.toGrows.trans h'.toGrows, h'.opened.trans h.opened⟩

end FileStore.Register

/-- The books of a store, and what its operations do to them. -/
structure FileStore.Books (σ : Type) [FileStore σ] extends FileStore.Register σ where
  /-- A page that is read is one of the file. -/
  read : ∀ {s}, valid s → ∀ file page, (PageStore.readPage file page).Allows s
    (fun _ t => toRegister.Same s t ∧ page.val.toNat < size s file) (toRegister.Refused s)
  write : ∀ {s}, valid s → ∀ file page (data : Page), (PageStore.writePage file page data).Allows s
    (fun _ => toRegister.Same s) (toRegister.Refused s)
  /-- A new page of an open file has the number of pages that there were before, as long as there
  are numbers for them. -/
  allocate : ∀ {s}, valid s → ∀ {file}, (opened s).IsOpen file →
    (PageStore.allocatePage file).Allows s
      (fun page t => toRegister.Same s t ∧ size t file = size s file + 1 ∧
        (size s file < 2 ^ 32 → page.val.toNat = size s file))
      (toRegister.Refused s)
  count : ∀ {s}, valid s → ∀ file, (PageStore.pageCount file).Allows s
    (fun _ => toRegister.Same s) (toRegister.Refused s)
  sync : ∀ {s}, valid s → ∀ file, (PageStore.sync file).Allows s
    (fun _ => toRegister.Same s) (toRegister.Refused s)
  create : ∀ {s}, valid s → ∀ name, (FileStore.create name).Allows s
    (fun _ => toRegister.Same s) (toRegister.Refused s)
  openFile : ∀ {s}, valid s → ∀ name, (FileStore.openFile name).Allows s
    (fun file t => file.name = name ∧ toRegister.Opened s file t) (toRegister.Refused s)
  /-- An opening is given back even if writing the header of the file back is refused. -/
  close : ∀ {s}, valid s → ∀ {file count}, (opened s).find? file.name = some ⟨file, count + 1⟩ →
    (FileStore.close file).Allows s (fun _ => toRegister.Closed s file count)
      (fun e t => e ≠ .bufferPoolExhausted ∧ toRegister.Closed s file count t)
  destroy : ∀ {s}, valid s → ∀ name, (FileStore.destroy name).Allows s
    (fun _ => toRegister.Same s) (toRegister.Refused s)
  /-- A file that is open is not removed. -/
  destroy_open : ∀ {s}, valid s → ∀ {name}, (opened s).has name = true →
    FileStore.destroy name s = .error (.error (.fileOpen name)) s
  /-- A file that is there and not open is removed. -/
  destroy_closed : ∀ {s t}, valid s → ∀ {name}, (opened s).has name = false →
    FileStore.hasFile name s = .ok true t → ∃ u, FileStore.destroy name s = .ok () u
  hasFile : ∀ {s}, valid s → ∀ name, (FileStore.hasFile name).Allows s
    (fun _ => toRegister.Same s) (toRegister.Refused s)

/-- No file has more pages than there are numbers for. -/
def FileStore.Books.Numbered {σ : Type} [FileStore σ] (books : FileStore.Books σ) (s : σ) : Prop :=
  ∀ file, books.size s file ≤ 2 ^ 32

/-! ## The table of open files -/

namespace OpenTable

variable {t : OpenTable} {file : FileHandle} {count : Nat}

/-- Every entry is that of a file with a name, under this name. -/
structure Named (t : OpenTable) : Prop where
  valid : ∀ {name entry}, t.find? name = some entry →
    entry.file.name = name ∧ FileName.isValid name = true

/-- One of the openings of a file is given back. -/
theorem release_eq (h : t.find? file.name = some ⟨file, count + 1⟩) :
    ∃ last, t.release file = .ok (last,
      if count = 0 then t.erase file.name else t.put file.name ⟨file, count⟩) := by
  unfold release
  rw [h]
  simp only [if_true]
  by_cases hlast : count = 0
  · subst hlast
    exact ⟨true, rfl⟩
  · have hmore : ¬count + 1 ≤ 1 := by omega
    exact ⟨false, by rw [if_neg hmore, if_neg hlast]; rfl⟩

theorem Named.erase (h : t.Named) (name : String) : Named (t.erase name) :=
  ⟨fun hfind => h.valid (Table.find?_erase_eq_some.1 hfind).2⟩

theorem Named.put (h : t.Named) {file : FileHandle} (hvalid : FileName.isValid file.name = true)
    (count : Nat) : Named (t.put file.name ⟨file, count⟩) := by
  refine ⟨fun hfind => ?_⟩
  rcases Table.find?_put_eq_some.1 hfind with ⟨rfl, rfl⟩ | ⟨-, hold⟩
  · exact ⟨rfl, hvalid⟩
  · exact h.valid hold

theorem Named.closed (h : t.Named) (hfind : t.find? file.name = some ⟨file, count + 1⟩) :
    Named (if count = 0 then t.erase file.name else t.put file.name ⟨file, count⟩) := by
  split
  · exact h.erase _
  · exact h.put (h.valid hfind).2 _

end OpenTable

/-! ## Checks -/

/-- What follows the check of a name may rely on it. -/
theorem FileName.allows_check_bind {σ α : Type} {s : σ} {name : String} {f : Unit → Action σ α}
    {ok : α → σ → Prop} {refused : StorageError → σ → Prop}
    (hok : isValid name = true → (f ()).Allows s ok refused)
    (hrefused : refused (.invalidFileName name) s) :
    (ofResult (check name) >>= f).Allows s ok refused := by
  unfold check
  cases hvalid : isValid name with
  | true => exact hok hvalid
  | false => exact hrefused

end PagedHeap
