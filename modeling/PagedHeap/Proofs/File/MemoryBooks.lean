import PagedHeap.Proofs.File.Books
import PagedHeap.Proofs.File.Names

/-!
# The books of files in memory

A file has its number from the time it is made, and is open under this number or not at all
(`MemoryFiles.Regular`).  Every operation keeps this, so that the books of files in memory are kept
(`MemoryFiles.books`).
-/

namespace PagedHeap

open PagedHeap.Action

namespace MemoryFiles

/-- The tables fit together: numbers are given out in order, every name is one of a file and every
file that is open was made. -/
structure Regular (s : MemoryFiles) : Prop where
  numbered : ∀ {file}, s.contents.has file = true → file.val.toNat < s.nextId.toNat
  named : ∀ {name id}, s.named.find? name = some id →
    s.contents.has id = true ∧ FileName.isValid name = true
  opened : s.opened.Named
  present : ∀ {name entry}, s.opened.find? name = some entry → s.contents.has entry.file.id = true

/-- What is known of files in memory. -/
def register : FileStore.Register MemoryFiles where
  size s file := (s.pages file).size
  opened := MemoryFiles.opened
  valid := Regular

variable {s t : MemoryFiles} {name : String} {file : FileHandle} {count : Nat}

theorem regular_empty : empty.Regular := ⟨nofun, nofun, ⟨nofun⟩, nofun⟩

/-- Only the pages of a file changed, and there are no fewer. -/
theorem Regular.adjust (h : s.Regular) (file : FileId) (f : Array Page → Array Page)
    (hf : ∀ pages, pages.size ≤ (f pages).size) :
    register.Same s { s with contents := s.contents.adjust file f } := by
  have hhas (other : FileId) : (s.contents.adjust file f).has other = s.contents.has other := by
    rw [Bool.eq_iff_iff, ← Table.mem_keys, ← Table.mem_keys, Table.keys_adjust]
  refine ⟨⟨⟨fun hother => ?_, fun hname => ?_, h.opened, fun hname => ?_⟩, fun other => ?_⟩, rfl⟩
  · exact h.numbered ((hhas _).symm.trans hother)
  · exact ⟨(hhas _).trans (h.named hname).1, (h.named hname).2⟩
  · exact (hhas _).trans (h.present hname)
  · change (s.pages other).size ≤ (MemoryFiles.pages _ other).size
    rw [pages_adjust]
    split
    · exact hf _
    · exact Nat.le_refl _

/-- Only what is open changed. -/
theorem Regular.reopened (h : s.Regular) {opened : OpenTable} (hnamed : opened.Named)
    (hpresent : ∀ {name entry}, opened.find? name = some entry →
      s.contents.has entry.file.id = true) :
    register.Grows s { s with opened := opened } :=
  ⟨⟨h.numbered, h.named, hnamed, hpresent⟩, fun _ => Nat.le_refl _⟩

/-- A file that was made is opened once more. -/
theorem Regular.enter (h : s.Regular) (hhas : s.contents.has file.id = true)
    (hvalid : FileName.isValid file.name = true)
    (hfind : s.opened.find? file.name = some ⟨file, count⟩ ∨
      s.opened.find? file.name = none ∧ count = 0) :
    register.Opened s file { s with opened := s.opened.put file.name ⟨file, count + 1⟩ } := by
  refine ⟨h.reopened (h.opened.put hvalid _) fun hother => ?_, count, hfind, rfl⟩
  rcases Table.find?_put_eq_some.1 hother with ⟨-, rfl⟩ | ⟨-, hold⟩
  · exact hhas
  · exact h.present hold

theorem Regular.closed (h : s.Regular) (hfind : s.opened.find? file.name = some ⟨file, count + 1⟩) :
    register.Closed s file count { s with
      opened := if count = 0 then s.opened.erase file.name
        else s.opened.put file.name ⟨file, count⟩ } := by
  refine ⟨h.reopened (h.opened.closed hfind) fun hother => ?_, rfl⟩
  split at hother
  · exact h.present (Table.find?_erase_eq_some.1 hother).2
  · rcases Table.find?_put_eq_some.1 hother with ⟨-, rfl⟩ | ⟨-, hold⟩
    · exact (h.present hfind :)
    · exact h.present hold

/-- A file gets its number when it is made. -/
theorem Regular.made (h : s.Regular) (hvalid : FileName.isValid name = true)
    (hnext : (UInt32.ofNat (s.nextId.toNat + 1)).toNat = s.nextId.toNat + 1) :
    register.Same s (s.made name) := by
  have hnew : s.contents.has ⟨s.nextId⟩ = false := by
    cases hhas : s.contents.has ⟨s.nextId⟩ with
    | false => rfl
    | true => exact absurd (h.numbered hhas) (Nat.lt_irrefl _)
  have hkept {file : FileId} (hfile : s.contents.has file = true) :
      (s.contents.put ⟨s.nextId⟩ #[Block.zero pageSize]).has file = true := by
    rw [Table.has_put, hfile, Bool.or_true]
  refine ⟨⟨⟨fun {file} hfile => ?_, fun {name' id} hname => ?_, h.opened, fun hname =>
    hkept (h.present hname)⟩, fun file => ?_⟩, rfl⟩
  · change file.val.toNat < (UInt32.ofNat (s.nextId.toNat + 1)).toNat
    rw [hnext]
    rw [MemoryFiles.made, Table.has_put, Bool.or_eq_true, decide_eq_true_eq] at hfile
    rcases hfile with rfl | hold
    · exact Nat.lt_succ_self _
    · exact Nat.lt_succ_of_lt (h.numbered hold)
  · rcases Table.find?_put_eq_some.1 hname with ⟨rfl, rfl⟩ | ⟨-, hold⟩
    · refine ⟨?_, hvalid⟩
      change (s.contents.put ⟨s.nextId⟩ #[Block.zero pageSize]).has ⟨s.nextId⟩ = true
      rw [Table.has_put, decide_eq_true rfl, Bool.true_or]
    · exact ⟨hkept (h.named hold).1, (h.named hold).2⟩
  · change (s.pages file).size ≤ ((s.made name).pages file).size
    unfold MemoryFiles.pages MemoryFiles.made
    by_cases hfile : file = ⟨s.nextId⟩
    · rw [hfile, Table.find?_of_has_eq_false hnew]
      exact Nat.zero_le _
    · rw [Table.find?_put_of_ne (Ne.symm hfile)]

theorem Regular.destroyed (h : s.Regular) (name : String) :
    register.Same s { s with named := s.named.erase name } :=
  ⟨⟨⟨h.numbered, fun hname => h.named (Table.find?_erase_eq_some.1 hname).2, h.opened, h.present⟩,
    fun _ => Nat.le_refl _⟩, rfl⟩

section Operations

variable (hs : s.Regular)
include hs

theorem allows_readPage (file : FileId) (page : PageId) :
    (readPage file page).Allows s
      (fun _ t => register.Same s t ∧ page.val.toNat < (s.pages file).size)
      (register.Refused s) := by
  refine allows_get (allows_ofResult_bind (fun _ hcheck => ?_) fun e hcheck =>
    ⟨PageId.notExhausted_check _ _ e hcheck, .refl hs⟩)
  split
  · exact allows_pure ⟨.refl hs, (PageId.lt_of_check hcheck).2⟩
  · exact allows_stop

theorem allows_writePage (file : FileId) (page : PageId) (data : Page) :
    (writePage file page data).Allows s (fun _ => register.Same s) (register.Refused s) := by
  refine allows_get (allows_ofResult_bind (fun _ hcheck => ?_) fun e hcheck =>
    ⟨PageId.notExhausted_check _ _ e hcheck, .refl hs⟩)
  exact allows_modify (hs.adjust file _ fun pages => Array.size_setIfInBounds.ge)

theorem allows_allocatePage {file : FileId} (hopen : s.opened.IsOpen file) :
    (allocatePage file).Allows s
      (fun page t => register.Same s t ∧ (t.pages file).size = (s.pages file).size + 1 ∧
        ((s.pages file).size < 2 ^ 32 → page.val.toNat = (s.pages file).size))
      (register.Refused s) := by
  obtain ⟨name, entry, hfind, rfl⟩ := hopen
  refine allows_get (allows_modify_bind (allows_pure ⟨hs.adjust _ _ fun pages => ?_, ?_, ?_⟩))
  · rw [Array.size_push]
    exact Nat.le_succ _
  · rw [pages_adjust, if_pos ⟨rfl, hs.present hfind⟩, Array.size_push]
  · exact fun hlt => UInt32.toNat_ofNat_of_lt' hlt

theorem allows_create (name : String) :
    (create name).Allows s (fun _ => register.Same s) (register.Refused s) := by
  refine FileName.allows_check_bind (fun hvalid => allows_get ?_) ⟨by simp, .refl hs⟩
  split
  · exact allows_refuse ⟨by simp, .refl hs⟩
  · refine allows_ofResult_bind (fun next hnext => ?_) fun e he => absurd he count32_ne_refused
    have hcount := toNat_of_count32 hnext
    have hmade : UInt32.ofNat (s.nextId.toNat + 1) = next := by rw [← hcount, UInt32.ofNat_toNat]
    have hsame := hs.made hvalid (by rw [hmade, hcount])
    unfold made at hsame
    rw [hmade] at hsame
    exact allows_set hsame

theorem allows_openFile (name : String) :
    (openFile name).Allows s (fun file t => file.name = name ∧ register.Opened s file t)
      (register.Refused s) := by
  refine FileName.allows_check_bind (fun _ => allows_get ?_) ⟨by simp, .refl hs⟩
  unfold OpenTable.reopen?
  cases hopened : s.opened.find? name with
  | some entry =>
    obtain ⟨rfl, hvalid⟩ := hs.opened.valid hopened
    exact allows_set_bind (allows_pure ⟨rfl, hs.enter (hs.present hopened) hvalid (.inl hopened)⟩)
  | none =>
    cases hnamed : s.named.find? name with
    | none => exact allows_refuse ⟨by simp, .refl hs⟩
    | some id =>
      obtain ⟨hhas, hvalid⟩ := hs.named hnamed
      let file : FileHandle := ⟨id, name⟩
      have hentered : register.Opened s file { s with opened := s.opened.enter file } :=
        hs.enter hhas hvalid (.inr ⟨hopened, rfl⟩)
      exact allows_set_bind (allows_pure ⟨rfl, hentered⟩)

theorem allows_close (hfind : s.opened.find? file.name = some ⟨file, count + 1⟩) :
    (close file).Allows s (fun _ => register.Closed s file count)
      (fun e t => e ≠ .bufferPoolExhausted ∧ register.Closed s file count t) := by
  obtain ⟨last, hrelease⟩ := OpenTable.release_eq hfind
  refine allows_get (allows_ofResult_bind (fun _ hanswer => ?_) fun e he => ?_)
  · cases hrelease.symm.trans hanswer
    exact allows_set (hs.closed hfind)
  · cases hrelease.symm.trans he

theorem allows_destroy (name : String) :
    (destroy name).Allows s (fun _ => register.Same s) (register.Refused s) := by
  refine FileName.allows_check_bind (fun _ => allows_get ?_) ⟨by simp, .refl hs⟩
  split
  · exact allows_refuse ⟨by simp, .refl hs⟩
  · split
    · exact allows_set (hs.destroyed name)
    · exact allows_refuse ⟨by simp, .refl hs⟩

omit hs in
/-- What removing a file does after the name was checked. -/
theorem destroy_run (hvalid : FileName.isValid name = true) :
    destroy name s = (if s.opened.has name then refuse (.fileOpen name)
      else if s.named.has name then set { s with named := s.named.erase name }
      else refuse (.fileNotFound name) : Action MemoryFiles Unit) s := by
  unfold destroy
  rw [FileName.check_eq_ok hvalid]
  rfl

theorem destroy_of_open (hopen : s.opened.has name = true) :
    destroy name s = .error (.error (.fileOpen name)) s := by
  obtain ⟨entry, hfind⟩ := Option.isSome_iff_exists.1 hopen
  rw [destroy_run (hs.opened.valid hfind).2, if_pos hopen]
  rfl

theorem destroy_of_closed (hclosed : s.opened.has name = false) (hhas : s.named.has name = true) :
    destroy name s = .ok () { s with named := s.named.erase name } := by
  obtain ⟨entry, hfind⟩ := Option.isSome_iff_exists.1 hhas
  rw [destroy_run (hs.named hfind).2, hclosed, hhas]
  rfl

end Operations

/-- The books of files in memory. -/
def books : FileStore.Books MemoryFiles where
  toRegister := register
  read := allows_readPage
  write := allows_writePage
  allocate hs _ hopen := allows_allocatePage hs hopen
  count hs _ := FileStore.Register.Same.refl hs
  sync hs _ := FileStore.Register.Same.refl hs
  create := allows_create
  openFile := allows_openFile
  close hs _ _ := allows_close hs
  destroy := allows_destroy
  destroy_open hs _ := destroy_of_open hs
  destroy_closed hs _ hclosed hhas :=
    ⟨_, destroy_of_closed hs hclosed (EStateM.Result.ok.inj hhas).1⟩
  hasFile hs _ := FileStore.Register.Same.refl hs

end MemoryFiles

end PagedHeap
