import PagedHeap.File.Image
import PagedHeap.Proofs.File.Header

/-!
# The pages of an image

The bytes of a file that was written page by page are its header and the pages behind it.
`FileImage.Stored` says that an image has the header on page zero and as many pages as the header
counts; `FileImage.pages` are these pages, with zeros in the place of the header.
-/

namespace PagedHeap

namespace FileImage

variable {f : FileImage} {i j : Nat} {page : Page}

/-! ## Chunks -/

theorem chunk_writePage_self (f : FileImage) (i : Nat) (page : Page) :
    (f.writePage i page).chunk i = page := by
  unfold writePage chunk
  rw [Table.find?_put_self]
  rfl

theorem chunk_writePage_of_ne (f : FileImage) (h : i ≠ j) (page : Page) :
    (f.writePage i page).chunk j = f.chunk j := by
  unfold writePage chunk
  rw [Table.find?_put_of_ne h]

/-! ## Bytes -/

theorem length_flatMap_range {g : Nat → Bytes} {k : Nat} (hg : ∀ i, (g i).length = k) (n : Nat) :
    ((List.range n).flatMap g).length = n * k := by
  induction n with
  | zero => rw [Nat.zero_mul]; rfl
  | succ n ih =>
    rw [List.range_succ, List.flatMap_append, List.flatMap_singleton, List.length_append, ih, hg,
      Nat.succ_mul]

/-- A byte of several strings of one length that stand in a row. -/
theorem getElem?_flatMap_range {g : Nat → Bytes} {k : Nat} (hk : 0 < k) (hg : ∀ i, (g i).length = k)
    {n j : Nat} (hj : j < n * k) : ((List.range n).flatMap g)[j]? = (g (j / k))[j % k]? := by
  induction n with
  | zero => omega
  | succ n ih =>
    rw [List.range_succ, List.flatMap_append, List.flatMap_singleton, List.getElem?_append,
      length_flatMap_range hg]
    by_cases hbefore : j < n * k
    · rw [if_pos hbefore, ih hbefore]
    · rw [Nat.succ_mul] at hj
      obtain ⟨r, hr, rfl⟩ : ∃ r, r < k ∧ j = r + k * n := by
        refine ⟨j - n * k, by omega, ?_⟩
        rw [Nat.mul_comm k]
        omega
      rw [if_neg hbefore, Nat.mul_comm n, Nat.add_sub_cancel, Nat.add_mul_div_left _ _ hk,
        Nat.div_eq_of_lt hr, Nat.zero_add, Nat.add_mul_mod_self_left, Nat.mod_eq_of_lt hr]

/-- The chunks have room for all bytes of the file. -/
theorem le_chunkCount_mul (size : Nat) : size ≤ chunkCount size * pageSize := by
  unfold chunkCount
  have := Nat.lt_div_mul_add (a := size + pageSize - 1) (b := pageSize) (by decide)
  omega

theorem length_bytes (f : FileImage) : f.bytes.length = f.size := by
  unfold bytes
  rw [List.length_take, length_flatMap_range fun i => Block.length_bytes (f.chunk i)]
  exact Nat.min_eq_left (le_chunkCount_mul f.size)

/-- A byte of the file stands in the chunk of its position. -/
theorem getElem?_bytes (f : FileImage) (j : Nat) : f.bytes[j]? =
    if j < f.size then some ((f.chunk (j / pageSize)).byteAt (j % pageSize)) else none := by
  split
  · next hj =>
    have hin : j % pageSize < pageSize := Nat.mod_lt j (by decide)
    unfold bytes
    rw [List.getElem?_take_of_lt hj, getElem?_flatMap_range (by decide)
      (fun i => Block.length_bytes (f.chunk i)) (Nat.lt_of_lt_of_le hj (le_chunkCount_mul f.size))]
    unfold Block.bytes Block.byteAt
    rw [Vector.getElem?_toList, Vector.getElem?_eq_getElem hin]
    rfl
  · next hj =>
    refine List.getElem?_eq_none ?_
    rw [length_bytes]
    exact Nat.le_of_not_lt hj

/-! ## Pages -/

/-- The number of whole pages. -/
def pageCount (f : FileImage) : Nat := f.size / pageSize

/-- The pages of the file, with zeros in the place of page zero. -/
def pages (f : FileImage) : Array Page :=
  Array.ofFn fun i : Fin f.pageCount => if i.val = 0 then Block.zero pageSize else f.chunk i

@[simp] theorem size_pages (f : FileImage) : f.pages.size = f.pageCount := Array.size_ofFn

theorem getElem?_pages (f : FileImage) (i : Nat) : f.pages[i]? =
    if i < f.pageCount then some (if i = 0 then Block.zero pageSize else f.chunk i) else none := by
  unfold pages
  rw [Array.getElem?_ofFn]
  split <;> rfl

/-- The header is stored on page zero, and the file has as many pages as it counts. -/
structure Stored (f : FileImage) (h : FileHeader) : Prop where
  valid : h.Valid
  size : f.size = h.pageCount.toNat * pageSize
  header : f.chunk 0 = h.toPage

variable {h : FileHeader}

theorem Stored.pageCount_eq (hf : f.Stored h) : f.pageCount = h.pageCount.toNat := by
  unfold pageCount
  rw [hf.size, Nat.mul_div_cancel _ (by decide)]

theorem Stored.pos (hf : f.Stored h) : 0 < h.pageCount.toNat := by
  refine Nat.pos_of_ne_zero fun hzero => hf.valid.count ?_
  exact UInt32.toNat_inj.1 hzero

/-- The stored header is read. -/
theorem Stored.readHeader_eq (hf : f.Stored h) (name : String) : f.readHeader name = .ok h := by
  have hpos := hf.pos
  unfold readHeader
  rw [if_neg, hf.header, hf.valid.read_toPage]
  rw [hf.size, Nat.not_lt]
  exact Nat.le_mul_of_pos_left _ hpos

theorem stored_fresh : fresh.Stored .fresh := ⟨FileHeader.valid_fresh, rfl, rfl⟩

theorem pages_fresh : fresh.pages = #[Block.zero pageSize] := by
  have hcount : fresh.pageCount = 1 := rfl
  refine Array.ext_getElem? fun i => ?_
  rw [getElem?_pages, hcount]
  cases i with
  | zero => rfl
  | succ i => rfl

/-- A page that the file has is found. -/
theorem Stored.page?_eq (hf : f.Stored h) (hi : i < h.pageCount.toNat) :
    f.page? i = some (f.chunk i) := by
  unfold page?
  rw [if_pos]
  rw [hf.size]
  exact Nat.mul_le_mul_right _ hi

/-- A page is written. -/
theorem Stored.writePage (hf : f.Stored h) (hpos : 0 < i) (hi : i < h.pageCount.toNat)
    (page : Page) :
    (f.writePage i page).Stored h ∧ (f.writePage i page).pages = f.pages.setIfInBounds i page := by
  have hsize : (f.writePage i page).size = f.size := by
    unfold FileImage.writePage
    refine Nat.max_eq_left ?_
    rw [hf.size]
    exact Nat.mul_le_mul_right _ hi
  have hcount : (f.writePage i page).pageCount = f.pageCount := by
    unfold pageCount
    rw [hsize]
  refine ⟨⟨hf.valid, hsize.trans hf.size, ?_⟩, Array.ext_getElem? fun j => ?_⟩
  · rw [chunk_writePage_of_ne f (Nat.ne_of_gt hpos), hf.header]
  · rw [Array.getElem?_setIfInBounds, getElem?_pages, getElem?_pages, hcount]
    by_cases hij : i = j
    · subst hij
      have hne : i ≠ 0 := Nat.ne_of_gt hpos
      simp only [hf.pageCount_eq, hi, hne, chunk_writePage_self, if_true, if_false, size_pages]
    · simp only [hij, chunk_writePage_of_ne f hij, if_false]

/-- The header is written again. -/
theorem Stored.writeHeader (hf : f.Stored h) :
    (f.writePage 0 h.toPage).Stored h ∧ (f.writePage 0 h.toPage).pages = f.pages := by
  have hpos := hf.pos
  have hsize : (f.writePage 0 h.toPage).size = f.size := by
    unfold FileImage.writePage
    refine Nat.max_eq_left ?_
    rw [hf.size]
    exact Nat.mul_le_mul_right _ hpos
  have hcount : (f.writePage 0 h.toPage).pageCount = f.pageCount := by
    unfold pageCount
    rw [hsize]
  refine ⟨⟨hf.valid, hsize.trans hf.size, chunk_writePage_self _ _ _⟩,
    Array.ext_getElem? fun j => ?_⟩
  rw [getElem?_pages, getElem?_pages, hcount]
  by_cases hj : j = 0
  · simp only [hj, if_true]
  · rw [chunk_writePage_of_ne f (Ne.symm hj)]

/-- One more page is written, and counted in the header. -/
theorem Stored.grow (hf : f.Stored h) {g : FileHeader} (hsize' : g.pageSize = h.pageSize)
    (hcount' : g.pageCount.toNat = h.pageCount.toNat + 1) (page : Page) :
    ((f.writePage h.pageCount.toNat page).writePage 0 g.toPage).Stored g ∧
      ((f.writePage h.pageCount.toNat page).writePage 0 g.toPage).pages = f.pages.push page := by
  have hpos := hf.pos
  have hsize : ((f.writePage h.pageCount.toNat page).writePage 0 g.toPage).size =
      g.pageCount.toNat * pageSize := by
    unfold FileImage.writePage
    simp only [hf.size, hcount']
    rw [Nat.max_eq_right (Nat.mul_le_mul_right _ (Nat.le_succ _)), Nat.max_eq_left]
    exact Nat.mul_le_mul_right _ (Nat.succ_pos _)
  have hcount : ((f.writePage h.pageCount.toNat page).writePage 0 g.toPage).pageCount =
      f.pageCount + 1 := by
    rw [hf.pageCount_eq, ← hcount']
    unfold pageCount
    rw [hsize, Nat.mul_div_cancel _ (by decide)]
  have hvalid : g.Valid := by
    refine ⟨hsize'.trans hf.valid.size, fun hzero => ?_⟩
    rw [hzero] at hcount'
    cases hcount'
  refine ⟨⟨hvalid, hsize, chunk_writePage_self _ _ _⟩, Array.ext_getElem? fun j => ?_⟩
  rw [Array.getElem?_push, getElem?_pages, getElem?_pages, hcount, size_pages, hf.pageCount_eq]
  by_cases hlast : j = h.pageCount.toNat
  · subst hlast
    rw [chunk_writePage_of_ne _ (Nat.ne_of_lt hpos), chunk_writePage_self]
    have hne : h.pageCount.toNat ≠ 0 := Nat.ne_of_gt hpos
    simp only [Nat.lt_succ_self, hne, if_true, if_false]
  · by_cases hj : j = 0
    · subst hj
      simp only [hpos, Nat.succ_pos, if_true, hlast, if_false]
    · rw [chunk_writePage_of_ne _ (Ne.symm hj), chunk_writePage_of_ne _ (Ne.symm hlast)]
      have hlt : j < h.pageCount.toNat + 1 ↔ j < h.pageCount.toNat := by omega
      simp only [hlt, hlast, if_false]

end FileImage

end PagedHeap
