import PagedHeap.Proofs.Checksum
import PagedHeap.Proofs.File.Header
import PagedHeap.Proofs.Heap.Header

/-!
# Damaged headers are not read

The two headers are guarded in the same way: the number behind their first bytes is the checksum of
these bytes (`Block.Sealed`). A block that is sealed is not sealed any more once bytes of it were
changed, if all changed bytes lie in four on end that the checksum covers, or in the checksum
itself (`Damaged.not_sealed`). Which header it was and what stands behind the checksum does not
matter for this.

A header is looked at before its checksum is: the damage may be reported as a block of another
kind. `damaged_headers_refused` tells the cause by the bytes that mark a header.
-/

namespace PagedHeap

namespace Block

variable {n : Nat}

/-- The number behind the first `size` bytes is their checksum. -/
def Sealed (size : Nat) (b : Block n) : Prop :=
  UInt32.ofNat (b.number size 4) = crc32 (b.slice 0 size)

end Block

variable {n size : Nat} {b c : Block n}

/-- Bytes of a block were changed, all of them among the four from `start` on. The checksum covers
these four, or they are the checksum. -/
structure Damaged (size start : Nat) (b c : Block n) : Prop where
  ne : c ≠ b
  place : start + 4 ≤ size ∨ start = size
  near {i : Nat} : c.byteAt i ≠ b.byteAt i → start ≤ i ∧ i < start + 4

namespace Damaged

variable {start : Nat}

theorem byteAt_eq (damaged : Damaged size start b c) {i : Nat} (h : i < start ∨ start + 4 ≤ i) :
    c.byteAt i = b.byteAt i := by
  refine Decidable.byContradiction fun hne => ?_
  have hnear := damaged.near hne
  omega

/-- One of the four bytes is another one. -/
theorem exists_byteAt_ne (damaged : Damaged size start b c) :
    ∃ i, start ≤ i ∧ i < start + 4 ∧ c.byteAt i ≠ b.byteAt i := by
  refine Classical.byContradiction fun hnone => damaged.ne (Block.ext_byteAt fun i _ => ?_)
  refine Decidable.byContradiction fun hne => ?_
  obtain ⟨hle, hlt⟩ := damaged.near hne
  exact hnone ⟨i, hle, hlt, hne⟩

/-- Storing up to four bytes is damage, unless the block stays as it was. -/
theorem overwrite {xs : Bytes} (hlength : xs.length ≤ 4) (place : start + 4 ≤ size ∨ start = size)
    (hne : b.overwrite start xs ≠ b) : Damaged size start b (b.overwrite start xs) where
  ne := hne
  place := place
  near {i} hi := by
    refine Decidable.byContradiction fun hout => hi ?_
    by_cases hin : i < n
    · exact b.byteAt_overwrite_of_not_mem start xs i hin (by omega)
    · unfold Block.byteAt
      rw [Vector.getElem?_eq_none (Nat.le_of_not_lt hin),
        Vector.getElem?_eq_none (Nat.le_of_not_lt hin)]

/-- Damage breaks the seal. -/
theorem not_sealed (damaged : Damaged size start b c) (room : size + 4 ≤ n)
    (hb : b.Sealed size) : ¬c.Sealed size := by
  intro hc
  unfold Block.Sealed at hb hc
  obtain ⟨i, hle, hlt, hne⟩ := damaged.exists_byteAt_ne
  rcases damaged.place with covered | rfl
  · have hsum : UInt32.ofNat (c.number size 4) = UInt32.ofNat (b.number size 4) := by
      rw [Block.number_congr fun j hj _ => damaged.byteAt_eq (by omega)]
    rw [hb, hc] at hsum
    obtain ⟨rest, rfl⟩ := Nat.exists_eq_add_of_le covered
    have hbefore : c.slice 0 start = b.slice 0 start :=
      Block.slice_congr fun j _ hj => damaged.byteAt_eq (by omega)
    have hafter : c.slice (start + 4) rest = b.slice (start + 4) rest :=
      Block.slice_congr fun j hj _ => damaged.byteAt_eq (by omega)
    rw [Block.slice_add, Block.slice_add, Block.slice_add, Block.slice_add, Nat.zero_add,
      Nat.zero_add, hbefore, hafter] at hsum
    have hlength (d : Block n) : (d.slice start 4).length = 4 :=
      d.length_slice_of_le (by omega)
    have hsame := eq_of_crc32_eq (by rw [hlength, hlength]) (Nat.le_of_eq (hlength c)) hsum
    exact hne (Block.byteAt_eq_of_slice_eq hsame hle hlt)
  · rw [Block.slice_congr fun j _ hj => damaged.byteAt_eq (i := j) (by omega), ← hb] at hc
    exact hne (Block.byteAt_eq_of_ofNat_eq hc hle hlt)

end Damaged

/-! ## The two headers -/

/-- The cause for which a block of another kind or with a broken seal is refused as a file's
header. -/
def FileHeader.damage (c : Block n) : StorageError :=
  if c.slice 0 16 = magic then .corruption "file header checksum mismatch"
  else .invalidDatabaseFile "invalid magic bytes"

/-- The cause for which a block of another kind or with a broken seal is refused as a heap file's
header. -/
def HeapHeader.damage (c : Block n) : StorageError :=
  if PageKind.ofByte? (c.byteAt 0) = some .heapHeader ∧ c.slice 4 8 = magic then
    .corruption "heap header checksum mismatch"
  else .invalidDatabaseFile "not a heap file header page"

theorem FileHeader.read_of_not_sealed (room : checkedSize + 4 ≤ n) (h : ¬c.Sealed checkedSize) :
    read c = .refuse (damage c) := by
  unfold read damage
  rw [if_neg (Nat.not_lt.2 room)]
  by_cases hmark : c.slice 0 16 = magic
  · rw [if_neg (Decidable.not_not.2 hmark), if_pos hmark]
    exact if_pos h
  · rw [if_pos hmark, if_neg hmark]

theorem HeapHeader.read_of_not_sealed (room : encodedSize ≤ n) (h : ¬c.Sealed checkedSize) :
    read c = .refuse (damage c) := by
  unfold read damage
  rw [if_neg (Nat.not_lt.2 room)]
  by_cases hmark : PageKind.ofByte? (c.byteAt 0) = some .heapHeader ∧ c.slice 4 8 = magic
  · rw [if_neg (not_or.2 ⟨Decidable.not_not.2 hmark.1, Decidable.not_not.2 hmark.2⟩), if_pos hmark]
    exact if_pos h
  · rw [if_pos (Decidable.not_and_iff_or_not.1 hmark), if_neg hmark]

/-- What was stored as a header is not read as one, neither as the same nor as another, after bytes
of it were changed within four on end. -/
theorem damaged_headers_refused {start : Nat} :
    (∀ h : FileHeader, h.write b = .ok c → ∀ d, Damaged FileHeader.checkedSize start c d →
      FileHeader.read d = .refuse (FileHeader.damage d)) ∧
    ∀ h : HeapHeader, h.Valid → h.write b = .ok c →
      ∀ d, Damaged HeapHeader.checkedSize start c d →
        HeapHeader.read d = .refuse (HeapHeader.damage d) := by
  constructor
  · intro h hwrite d damaged
    have found := FileHeader.found_of_write hwrite
    exact FileHeader.read_of_not_sealed found.room (damaged.not_sealed found.room found.checksum)
  · intro h valid hwrite d damaged
    have found := valid.found_of_write hwrite
    exact HeapHeader.read_of_not_sealed found.room (damaged.not_sealed found.room found.checksum)

/-- A heap file of seven pages is not taken for one of eight. -/
theorem damaged_headers_refused_count :
    ∃ c, HeapHeader.write ⟨"éü", 7, 300, ⟨2⟩, ⟨8⟩⟩ (Block.zero 97) = .ok c ∧
      HeapHeader.read (c.overwrite 77 (bigEndian 4 8)) =
        .refuse (.corruption "heap header checksum mismatch") := by
  have valid : HeapHeader.Valid ⟨"éü", 7, 300, ⟨2⟩, ⟨8⟩⟩ :=
    ⟨by decide, by decide, by decide, by decide⟩
  obtain ⟨c, hwrite, found⟩ := valid.exists_write (Block.zero 97) (by decide)
  have hne : c.overwrite 77 (bigEndian 4 8) ≠ c := by
    intro hsame
    have hcount := found.pageCount
    rw [← hsame, c.number_overwrite_bigEndian 77 4 8 (by decide)] at hcount
    exact absurd hcount (by decide)
  have hcause : HeapHeader.damage (c.overwrite 77 (bigEndian 4 8)) =
      .corruption "heap header checksum mismatch" := by
    refine if_pos ⟨?_, ?_⟩
    · rw [c.byteAt_overwrite_of_not_mem 77 _ 0 (by decide) (by decide), found.kind,
        PageKind.ofByte?_toByte]
    · rw [c.slice_overwrite_of_disjoint 4 8 77 _ (by decide) (by decide), found.mark]
  refine ⟨c, hwrite, ?_⟩
  rw [damaged_headers_refused.2 _ valid hwrite _
    (.overwrite (by decide) (.inl (by decide)) hne), hcause]

end PagedHeap
