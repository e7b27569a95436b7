import PagedHeap.File.Memory
import PagedHeap.Proofs.File.Checks
import PagedHeap.Proofs.Pool.Law

/-!
# Files in memory keep the law

The store whose files are lists of pages reads what was written and never fails on a page that it
has.  States of the store are alike if they have the same names, the same open files and files of
the same sizes.
-/

namespace PagedHeap

open PagedHeap.Action

namespace MemoryFiles

/-- The bytes of every page in the files. -/
def contentsOf (s : MemoryFiles) (key : FrameKey) : Page :=
  ((s.pages key.file)[key.page.val.toNat]?).getD (Block.zero pageSize)

/-- The states have the same names and open files. -/
structure Akin (s t : MemoryFiles) : Prop where
  named : t.named = s.named
  opened : t.opened = s.opened
  nextId : t.nextId = s.nextId

/-- The states have the same names and open files, and files of the same sizes. -/
structure Alike (s t : MemoryFiles) : Prop extends Akin s t where
  size : ∀ file, (t.pages file).size = (s.pages file).size

theorem Akin.trans {s t u : MemoryFiles} (h : Akin s t) (h' : Akin t u) : Akin s u :=
  ⟨h'.named.trans h.named, h'.opened.trans h.opened, h'.nextId.trans h.nextId⟩

theorem Alike.refl (s : MemoryFiles) : Alike s s := ⟨⟨rfl, rfl, rfl⟩, fun _ => rfl⟩

theorem Alike.trans {s t u : MemoryFiles} (h : Alike s t) (h' : Alike t u) : Alike s u :=
  ⟨h.toAkin.trans h'.toAkin, fun file => (h'.size file).trans (h.size file)⟩

/-- Whether a file has a page that callers can access. -/
def Has (s : MemoryFiles) (key : FrameKey) : Prop :=
  0 < key.page.val.toNat ∧ key.page.val.toNat < (s.pages key.file).size

theorem ensures_readPages (s : MemoryFiles) (file : FileId)
    {ok : Array Page → MemoryFiles → Prop} {refused : StorageError → MemoryFiles → Prop} :
    (readPages file).Ensures s ok refused ↔ ok (s.pages file) s := Iff.rfl

/-- A page that the file has is read, any other is refused by the check of its number. -/
theorem ensures_readPage (s : MemoryFiles) (file : FileId) (page : PageId) :
    (readPage file page).Ensures s
      (fun data t => t = s ∧ s.Has ⟨file, page⟩ ∧ data = s.contentsOf ⟨file, page⟩)
      (fun e t => t = s ∧ ¬s.Has ⟨file, page⟩ ∧
        page.check (s.pages file).size = .error (.error e)) := by
  unfold readPage
  rw [ensures_bind, ensures_readPages, ensures_bind]
  rcases PageId.check_ok_or_refused page (s.pages file).size with
    ⟨hcheck, hhas⟩ | ⟨e, hcheck, hhas⟩
  · rw [ensures_ofResult_ok hcheck]
    have hlt : page.val.toNat < (s.pages file).size := hhas.2
    have hfind : (s.pages file)[page.val.toNat]? = some (s.pages file)[page.val.toNat] :=
      Array.getElem?_eq_getElem hlt
    simp only [hfind]
    rw [ensures_pure]
    refine ⟨rfl, hhas, ?_⟩
    simp only [contentsOf, hfind, Option.getD_some]
  · rw [ensures_ofResult_refuse hcheck]
    exact ⟨rfl, hhas, hcheck⟩

/-- The pages of the files when those of one file are changed. -/
theorem pages_adjust (s : MemoryFiles) (file : FileId) (f : Array Page → Array Page)
    (other : FileId) :
    ({ s with contents := s.contents.adjust file f } : MemoryFiles).pages other =
      if other = file ∧ (s.contents.find? file).isSome then f (s.pages other)
      else s.pages other := by
  unfold pages
  simp only [Table.find?_adjust]
  by_cases hfile : other = file
  · subst hfile
    cases s.contents.find? other <;> simp
  · simp only [hfile, if_false, false_and]

/-- A file with pages is in the table. -/
theorem isSome_of_pos {s : MemoryFiles} {file : FileId} (h : 0 < (s.pages file).size) :
    (s.contents.find? file).isSome := by
  unfold pages at h
  cases hfind : s.contents.find? file with
  | some pages => rfl
  | none =>
    rw [hfind] at h
    exact absurd h (Nat.lt_irrefl 0)

/-- A page that the file has is written, any other is refused. -/
theorem ensures_writePage (s : MemoryFiles) (file : FileId) (page : PageId) (data : Page) :
    (writePage file page data).Ensures s
      (fun _ t => Alike s t ∧ t.contentsOf = Function.update s.contentsOf ⟨file, page⟩ data)
      (fun _ t => t = s ∧ ¬s.Has ⟨file, page⟩) := by
  have hdata : Page.ofBlock data = .ok data := rfl
  unfold writePage
  rw [ensures_bind, ensures_ofResult_ok hdata, ensures_bind, ensures_readPages, ensures_bind]
  rcases PageId.check_ok_or_refused page (s.pages file).size with
    ⟨hcheck, hhas⟩ | ⟨e, hcheck, hhas⟩
  · rw [ensures_ofResult_ok hcheck, ensures_modify]
    have hsome := isSome_of_pos (Nat.lt_of_le_of_lt (Nat.zero_le _) hhas.2)
    refine ⟨⟨⟨rfl, rfl, rfl⟩, fun other => ?_⟩, ?_⟩
    · rw [pages_adjust]
      split
      · exact Array.size_setIfInBounds
      · rfl
    · funext key
      obtain ⟨f, q⟩ := key
      unfold contentsOf
      simp only [pages_adjust, hsome, and_true]
      by_cases hf : f = file
      · subst hf
        simp only [if_true]
        by_cases hq : q = page
        · subst hq
          rw [Function.update_self, Array.getElem?_setIfInBounds_self_of_lt hhas.2,
            Option.getD_some]
        · have hne : page.val.toNat ≠ q.val.toNat := fun heq => hq (by
            obtain ⟨q⟩ := q
            obtain ⟨page⟩ := page
            exact congrArg PageId.mk (UInt32.toNat_inj.1 heq.symm))
          rw [Function.update_of_ne fun heq => hq (congrArg FrameKey.page heq),
            Array.getElem?_setIfInBounds_ne hne]
      · rw [if_neg hf, Function.update_of_ne fun heq => hf (congrArg FrameKey.file heq)]
  · rw [ensures_ofResult_refuse hcheck]
    exact ⟨rfl, hhas⟩

/-- A file gets one more page, which has the number of pages that there were before. -/
theorem ensures_allocatePage (s : MemoryFiles) (file : FileId) :
    (allocatePage file).Ensures s
      (fun page t => Akin s t ∧ page = ⟨UInt32.ofNat (s.pages file).size⟩ ∧
        (∀ other, other ≠ file → t.pages other = s.pages other) ∧
        (0 < (s.pages file).size → t.pages file = (s.pages file).push (Block.zero pageSize)) ∧
        ∀ key, key ≠ ⟨file, page⟩ → t.contentsOf key = s.contentsOf key) Never := by
  unfold allocatePage
  rw [ensures_bind, ensures_readPages, ensures_bind, ensures_modify, ensures_pure]
  refine ⟨⟨rfl, rfl, rfl⟩, rfl, fun other hother => ?_, fun hpos => ?_, fun ⟨f, q⟩ hkey => ?_⟩
  · rw [pages_adjust, if_neg fun h => hother h.1]
  · rw [pages_adjust, if_pos ⟨rfl, isSome_of_pos hpos⟩]
  · unfold contentsOf
    simp only [pages_adjust]
    split
    · next h =>
      obtain ⟨rfl, -⟩ := h
      have hne : q.val.toNat ≠ (s.pages f).size := fun heq => hkey (by
        obtain ⟨q⟩ := q
        simp only at heq
        rw [← heq, UInt32.ofNat_toNat])
      rw [Array.getElem?_push, if_neg hne]
    · rfl

/-- States that are alike have the same pages. -/
theorem Alike.has_iff {s t : MemoryFiles} (h : Alike s t) {key : FrameKey} :
    t.Has key ↔ s.Has key := by
  unfold Has
  rw [h.size]

/-- The law of files in memory. -/
def law : PageStore.Reliable MemoryFiles where
  contents := contentsOf
  alike := Alike
  present := Has
  faulty := False
  alike_refl := Alike.refl
  alike_trans := Alike.trans
  present_congr h := h.has_iff
  read s file page := by
    refine (ensures_readPage s file page).mono ?_ ?_
    · rintro data t ⟨rfl, hhas, hdata⟩
      exact ⟨.refl _, rfl, hhas, hdata⟩
    · rintro e t ⟨rfl, hhas, -⟩
      exact ⟨.refl _, rfl, hhas⟩
  write s file page data := by
    refine (ensures_writePage s file page data).mono (fun _ _ hpost => hpost) ?_
    rintro e t ⟨rfl, hhas⟩
    exact ⟨.refl _, rfl, hhas⟩
  allocate s file :=
    (ensures_allocatePage s file).mono (fun _ _ hpost => hpost.2.2.2.2) fun _ _ => False.elim
  sync s _ := ⟨.refl s, rfl⟩
  size s file := (s.pages file).size
  akin := Akin
  akin_trans := Akin.trans
  akin_of_alike := Alike.toAkin
  size_of_alike h := funext h.size
  sound := not_false
  present_iff _ _ := Iff.rfl
  grow s file hpos hlt := by
    refine (ensures_allocatePage s file).mono ?_ fun _ _ => False.elim
    rintro page t ⟨hakin, rfl, hothers, hpushed, -⟩
    refine ⟨hakin, UInt32.toNat_ofNat_of_lt' hlt, funext fun other => ?_⟩
    by_cases hother : other = file
    · rw [hother, Function.update_self, hpushed hpos, Array.size_push]
    · rw [Function.update_of_ne hother, hothers other hother]
  count s file := ⟨rfl, rfl⟩

end MemoryFiles

end PagedHeap
