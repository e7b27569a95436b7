import PagedHeap.Proofs.File.Holding

/-!
# Pages in a directory and pages in memory

The same calls are made on a new file in a directory and on a new file in memory.  Whatever calls
these are, the next one is answered alike in both places, or refused in both with errors of one
kind, and a call that is refused changes nothing (`PageCall.Compared`).

There is one exception.  Data of a wrong length for a page that the file does not have is wrong in
two ways, and the stores check in different orders: the directory misses the page, the memory
refuses the data.
-/

namespace PagedHeap

open PagedHeap.Action

namespace PageCall

/-- How a call turns out on a file in a directory and on one in memory, of `pageCount` pages both.
-/
inductive Compared (c : PageCall) (pageCount : Nat) (file mirror : FileId) (d : DiskFiles)
    (m : MemoryFiles) : Prop where
  | answered (placed : ¬c.Misplaced pageCount) (a : PageAnswer) (d' : DiskFiles) (m' : MemoryFiles)
      (disk : c.carryOut file d = .ok a d') (memory : c.carryOut mirror m = .ok a m')
  | refused (placed : ¬c.Misplaced pageCount) (e e' : StorageError) (alike : e.Alike e')
      (disk : c.carryOut file d = .error (.error e) d)
      (memory : c.carryOut mirror m = .error (.error e') m)
  | parted (misplaced : c.Misplaced pageCount) (page : PageId) (size : Nat) (data : Block size)
      (call : c = write page data)
      (disk : c.carryOut file d = .error (.error (.pageNotFound page)) d)
      (memory : c.carryOut mirror m = .error
        (.error (.invalidOperation s!"page data must be {pageSize} bytes, got {size}")) m)

/-- A file in a directory and one in memory have the same pages. -/
def Matched (pageCount : Nat) (file : FileHandle) (mirror : FileId) (d : DiskFiles)
    (m : MemoryFiles) : Prop :=
  ∃ pages : Array Page, pages.size = pageCount ∧ d.Holds file pages ∧ m.Holds mirror pages

namespace Matched

variable {pageCount : Nat} {file : FileHandle} {mirror : FileId} {d : DiskFiles} {m : MemoryFiles}

/-- One call on both files. -/
theorem step (h : Matched pageCount file mirror d m) (hfew : pageCount + 1 < 2 ^ 32)
    (c : PageCall) :
    c.Compared pageCount file.id mirror d m ∧
      Matched (pageCount + c.adds) file mirror (c.left file.id d) (c.left mirror m) := by
  obtain ⟨pages, rfl, hd, hm⟩ := h
  by_cases hplaced : c.Misplaced pages.size
  · cases c with
    | @write page size data =>
      have hdisk := hd.writePage_of_le hfew hplaced.2 data
      have hmemory := MemoryFiles.writePage_of_size m mirror page data hplaced.1
      rw [left_of_error hdisk, left_of_error hmemory]
      exact ⟨.parted hplaced page size data rfl hdisk hmemory, pages, rfl, hd, hm⟩
    | _ => exact hplaced.elim
  · have hobeys := hm.obeys (Nat.lt_of_succ_lt hfew) hplaced
    rcases (hd.obeys hfew c).cases with ⟨a, d', pages', hdisk, hon, hd'⟩ | ⟨e, e', hdisk, hon, rfl⟩
    · obtain ⟨m', hmemory, hm'⟩ := hobeys.exists_ok hon
      rw [left_of_ok hdisk, left_of_ok hmemory]
      exact ⟨.answered hplaced a d' m' hdisk hmemory, pages', size_of_onPages hon, hd', hm'⟩
    · obtain ⟨e', hmemory, halike⟩ := hobeys.exists_refusal hon
      rw [left_of_error hdisk, left_of_error hmemory, adds_of_refused hon]
      exact ⟨.refused hplaced e e' halike.symm hdisk hmemory, pages, rfl, hd, hm⟩

/-- Several calls on both files. -/
theorem after (cs : List PageCall) (h : Matched pageCount file mirror d m)
    (hfew : pageCount + allocations cs + 1 < 2 ^ 32) :
    Matched (pageCount + allocations cs) file mirror (PageCall.after file.id cs d)
      (PageCall.after mirror cs m) := by
  induction cs generalizing pageCount d m with
  | nil => exact h
  | cons c cs ih =>
    have hsum : pageCount + allocations (c :: cs) = pageCount + c.adds + allocations cs := by
      rw [allocations_cons, Nat.add_assoc]
    rw [hsum] at hfew ⊢
    exact ih (h.step (by omega) c).2 hfew

end Matched

end PageCall

/-- New files hold the store's own page. -/
theorem MemoryFiles.ensures_fresh {name : String} (hvalid : FileName.isValid name = true) :
    (FileStore.fresh name).Ensures MemoryFiles.empty
      (fun file m => m.Holds file.id #[Block.zero pageSize]) Never := by
  have hcheck := FileName.check_eq_ok hvalid
  have hmade : create name empty = .ok () (empty.made name) := by
    unfold create
    rw [hcheck]
    rfl
  change (create name >>= fun _ => openFile name).Ensures _ _ _
  rw [ensures_bind]
  refine .of_run hmade ?_
  have hreopen : (empty.made name).opened.reopen? name = none := rfl
  unfold openFile
  rw [ensures_bind, ensures_ofResult_ok hcheck, ensures_bind, ensures_get]
  simp only [hreopen, find?_made]
  rw [ensures_bind, ensures_set, ensures_pure]
  refine ⟨?_, Nat.one_pos⟩
  exact (pages_made empty name _).trans (if_pos rfl)

/-- The same calls on a new file in a directory and on a new file in memory leave the two files
alike, and so does the next call turn out. -/
theorem PageCall.compared {directory : Directory} {name : String}
    (hvalid : FileName.isValid name = true) (hfree : directory.find? name = none) :
    ∃ file d mirror m, FileStore.fresh name (DiskFiles.ofDirectory directory) = .ok file d ∧
      FileStore.fresh name MemoryFiles.empty = .ok mirror m ∧
      ∀ cs c, allocations cs + 2 < 2 ^ 32 → Compared c (allocations cs + 1) file.id mirror.id
        (after file.id cs d) (after mirror.id cs m) := by
  obtain ⟨file, d, hdisk, hd⟩ := DiskFiles.exists_fresh directory name hvalid hfree
  obtain ⟨mirror, m, hmemory, hm⟩ := (MemoryFiles.ensures_fresh hvalid).exists_ok
  refine ⟨file, d, mirror, m, hdisk, hmemory, fun cs c hfew => ?_⟩
  have hstart : Matched 1 file mirror.id d m := ⟨_, rfl, hd, hm⟩
  have hafter := hstart.after cs (by omega)
  rw [Nat.add_comm 1] at hafter
  exact (hafter.step hfew c).1

/-- One byte is to be written into page 9 of a file without pages. -/
theorem PageCall.compared_misplaced : ∃ file d mirror m,
    FileStore.fresh "t" (DiskFiles.ofDirectory []) = .ok file d ∧
      FileStore.fresh "t" MemoryFiles.empty = .ok mirror m ∧
      (write ⟨9⟩ (Block.zero 1)).carryOut file.id d = .error (.error (.pageNotFound ⟨9⟩)) d ∧
      (write ⟨9⟩ (Block.zero 1)).carryOut mirror.id m =
        .error (.error (.invalidOperation "page data must be 4096 bytes, got 1")) m := by
  obtain ⟨file, d, mirror, m, hdisk, hmemory, hcompared⟩ :=
    @PageCall.compared [] "t" (by decide) rfl
  have hmisplaced : (write ⟨9⟩ (Block.zero 1)).Misplaced 1 := ⟨by decide, by decide⟩
  refine ⟨file, d, mirror, m, hdisk, hmemory, ?_⟩
  cases hcompared [] (write ⟨9⟩ (Block.zero 1)) (by decide) with
  | answered placed => exact absurd hmisplaced placed
  | refused placed => exact absurd hmisplaced placed
  | parted _ page size data call disk memory =>
    cases call
    exact ⟨disk, memory⟩

end PagedHeap
