import PagedHeap.File.Image
import PagedHeap.Filter.Text
import PagedHeap.Heap.Scan

/-!
# Computations know nothing of frames

Computations without state read and change headers, pages and filters.  If one of them has no
result, then not because there is no frame left (`Result.NotExhausted`).
-/

namespace PagedHeap

namespace Result

variable {α β : Type}

/-- If there is no result, then not because there is no frame left: computations without state know
nothing of the pool. -/
def NotExhausted (r : Result α) : Prop := ∀ e, r = .error (.error e) → e ≠ .bufferPoolExhausted

theorem notExhausted_ok (a : α) : NotExhausted (.ok a) := nofun

theorem notExhausted_stop (c : Trap) : NotExhausted (stop c : Result α) := nofun

theorem notExhausted_refuse {e : StorageError} (he : e ≠ .bufferPoolExhausted) :
    NotExhausted (refuse e : Result α) := by
  rintro _ ⟨⟩
  exact he

theorem NotExhausted.ite {p : Prop} [Decidable p] {x y : Result α} (hx : x.NotExhausted)
    (hy : y.NotExhausted) : NotExhausted (if p then x else y) := by
  split
  · exact hx
  · exact hy

theorem NotExhausted.bind {x : Result α} {f : α → Result β} (hx : x.NotExhausted)
    (hf : ∀ a, (f a).NotExhausted) : (x >>= f).NotExhausted := by
  cases x with
  | ok a => exact hf a
  | error failure =>
    rintro e ⟨⟩
    exact hx e rfl

theorem NotExhausted.map {x : Result α} (hx : x.NotExhausted) (f : α → β) :
    NotExhausted (x.map f) := by
  cases x with
  | ok a => exact notExhausted_ok _
  | error failure =>
    rintro e ⟨⟩
    exact hx e rfl

end Result

open Result

/-! ## Headers of files -/

/-- The check of a page number does not ask for frames. -/
theorem PageId.notExhausted_check (page : PageId) (size : Nat) : (page.check size).NotExhausted :=
  .ite (notExhausted_refuse (by simp))
    (.ite (notExhausted_refuse (by simp)) (notExhausted_ok _))

/-- Reading the header of a file does not ask for frames. -/
theorem FileImage.notExhausted_readHeader (f : FileImage) (name : String) :
    (f.readHeader name).NotExhausted := by
  unfold FileImage.readHeader FileHeader.read
  refine .ite (notExhausted_refuse (by simp)) ?_
  refine .ite (notExhausted_refuse (by simp)) ?_
  refine .ite (notExhausted_refuse (by simp)) ?_
  refine .ite (notExhausted_refuse (by simp)) ?_
  refine .ite (notExhausted_refuse (by simp)) ?_
  exact .ite (notExhausted_refuse (by simp)) (notExhausted_ok _)

/-! ## Headers and pages of heap files -/

theorem notExhausted_count32 (n : Nat) : (count32 n).NotExhausted :=
  .ite (notExhausted_ok _) (notExhausted_stop _)

theorem notExhausted_count16 (n : Nat) : (count16 n).NotExhausted :=
  .ite (notExhausted_ok _) (notExhausted_stop _)

theorem HeapHeader.notExhausted_read {n : Nat} (b : Block n) : (read b).NotExhausted := by
  unfold read
  refine .ite (notExhausted_refuse (by simp)) ?_
  refine .ite (notExhausted_refuse (by simp)) ?_
  refine .ite (notExhausted_refuse (by simp)) ?_
  refine .ite (notExhausted_refuse (by simp)) ?_
  split
  · exact notExhausted_refuse (by simp)
  · exact .ite (notExhausted_refuse (by simp)) (notExhausted_ok _)

theorem HeapHeader.notExhausted_write {n : Nat} (h : HeapHeader) (b : Block n) :
    (h.write b).NotExhausted := .ite (notExhausted_stop _) (notExhausted_ok _)

theorem HeapHeader.notExhausted_new (name : String) (page : PageId) :
    (new name page).NotExhausted := .ite (notExhausted_refuse (by simp)) (notExhausted_ok _)

namespace SlottedPage

theorem notExhausted_ofBlock {n : Nat} {α : Type} (b : Block n) {f : Page → Result α}
    (hf : ∀ page, (f page).NotExhausted) : (ofBlock b f).NotExhausted := by
  unfold ofBlock
  split
  · exact hf _
  · exact notExhausted_refuse (by simp)

theorem notExhausted_read {n : Nat} (b : Block n) : (read b).NotExhausted := by
  refine notExhausted_ofBlock b fun page => ?_
  split
  · exact notExhausted_refuse (by simp)
  · exact .ite (notExhausted_refuse (by simp))
      (.ite (notExhausted_refuse (by simp)) (notExhausted_ok _))

theorem notExhausted_format {n : Nat} (b : Block n) (page : PageId) :
    (format b page).NotExhausted := notExhausted_ofBlock b fun _ => notExhausted_ok _

variable (p : SlottedPage)

theorem notExhausted_liveSlot (slot : SlotId) : (p.liveSlot slot).NotExhausted :=
  .ite (notExhausted_ok _) (notExhausted_refuse (by simp))

theorem notExhausted_get (slot : SlotId) : (p.get slot).NotExhausted :=
  (p.notExhausted_liveSlot slot).bind fun _ => notExhausted_ok _

theorem notExhausted_setSlot (i : Nat) (entry : Slot) : (p.setSlot i entry).NotExhausted :=
  .ite (notExhausted_ok _) (notExhausted_stop _)

theorem notExhausted_pack (start : Nat) (slot : SlotId) (bytes : Bytes) :
    (pack start p slot bytes).NotExhausted := by
  refine NotExhausted.bind (.ite (notExhausted_ok _) (notExhausted_stop _)) fun offset => ?_
  refine NotExhausted.bind (.ite (notExhausted_ok _) (notExhausted_stop _)) fun q => ?_
  exact (q.notExhausted_setSlot _ _).bind fun _ => notExhausted_ok _

theorem notExhausted_packAll (start : Nat) (records : List (SlotId × Bytes)) :
    (packAll start p records).NotExhausted := by
  induction records generalizing start p with
  | nil => exact notExhausted_ok _
  | cons record rest ih =>
    obtain ⟨slot, bytes⟩ := record
    exact (p.notExhausted_pack start slot bytes).bind fun packed => ih packed.2 packed.1

theorem notExhausted_withRoom (needed : Nat) : (p.withRoom needed).NotExhausted := by
  refine .ite (notExhausted_ok _) (.ite (notExhausted_refuse (by simp)) ?_)
  exact (p.notExhausted_packAll _ _).bind fun _ => notExhausted_ok _

theorem notExhausted_place (reuse : Option SlotId) (record : Bytes) :
    (p.place reuse record).NotExhausted := by
  cases reuse with
  | none =>
    exact (notExhausted_count16 _).bind fun _ => (p.notExhausted_pack _ _ _).bind fun _ =>
      notExhausted_ok _
  | some slot => exact (p.notExhausted_pack _ _ _).bind fun _ => notExhausted_ok _

theorem notExhausted_insert (record : Bytes) : (p.insert record).NotExhausted := by
  refine .ite (notExhausted_refuse (by simp)) ?_
  exact (p.notExhausted_withRoom _).bind fun q => q.notExhausted_place _ _

theorem notExhausted_delete (slot : SlotId) : (p.delete slot).NotExhausted :=
  (p.notExhausted_liveSlot slot).bind fun _ => (p.notExhausted_setSlot _ _).bind fun _ =>
    (notExhausted_count16 _).bind fun _ => notExhausted_ok _

theorem notExhausted_modify (slot : SlotId) (edit : Edit) : (p.modify slot edit).NotExhausted :=
  (p.notExhausted_liveSlot slot).bind fun _ => notExhausted_ok _

theorem notExhausted_findPassing (filter : Option Filter) (slots : List SlotId) :
    (p.findPassing filter slots).NotExhausted := by
  induction slots with
  | nil => exact notExhausted_ok _
  | cons slot slots ih =>
    exact (p.notExhausted_get slot).bind fun _ => .ite (notExhausted_ok _) ih

end SlottedPage

/-! ## Filters -/

theorem Datatype.notExhausted_ofText (text : String) : (ofText text).NotExhausted :=
  .ite (notExhausted_ok _) (.ite (notExhausted_ok _) (.ite (notExhausted_ok _)
    (notExhausted_refuse (by simp))))

theorem Comparison.notExhausted_ofText (text : String) : (ofText text).NotExhausted :=
  .ite (notExhausted_ok _) (.ite (notExhausted_ok _) (.ite (notExhausted_ok _)
    (.ite (notExhausted_ok _) (.ite (notExhausted_ok _) (.ite (notExhausted_ok _)
      (notExhausted_refuse (by simp)))))))

theorem Filter.notExhausted_decodeValue (datatype : Datatype) (length : Nat) (value : Bytes) :
    (decodeValue datatype length value).NotExhausted := by
  unfold decodeValue
  split
  · exact .ite (notExhausted_refuse (by simp)) (.ite (notExhausted_refuse (by simp))
      (notExhausted_ok _))
  · exact .ite (notExhausted_refuse (by simp)) (.ite (notExhausted_stop _) (notExhausted_ok _))

theorem Filter.notExhausted_new (offset length : UInt64) (datatype : Datatype) (value : Bytes)
    (comparison : Comparison) : (new offset length datatype value comparison).NotExhausted :=
  .ite (notExhausted_refuse (by simp)) (.ite (notExhausted_refuse (by simp))
    ((notExhausted_decodeValue _ _ _).bind fun _ => notExhausted_ok _))

end PagedHeap
