import PagedHeap.File.Header
import PagedHeap.Proofs.Ensures
import PagedHeap.Proofs.Page.Slices

/-!
# Headers of files are read back

What a buffer has to hold for a header to be read from it is `FileHeader.Found`, and nothing else is
read (`FileHeader.read_eq_ok_iff`). A header that is stored into a buffer with room for it is found
there, whatever the buffer held before.
-/

namespace PagedHeap

namespace FileHeader

/-- The header can be stored: it counts its own page, and pages have the one size there is. -/
structure Valid (h : FileHeader) : Prop where
  size : h.pageSize = UInt32.ofNat PagedHeap.pageSize
  count : h.pageCount ≠ 0

theorem valid_fresh : fresh.Valid := ⟨rfl, by decide⟩

theorem length_checkedBytes (h : FileHeader) : h.checkedBytes.length = checkedSize := by
  unfold checkedBytes
  rw [List.length_append, List.length_append, length_bigEndian, length_bigEndian]
  rfl

variable {n : Nat} {h : FileHeader} {a b : Block n}

/-- A buffer starts with the stored form of a header. -/
structure Found (h : FileHeader) (b : Block n) : Prop where
  room : checkedSize + 4 ≤ n
  mark : b.slice 0 16 = magic
  checksum : UInt32.ofNat (b.number checkedSize 4) = crc32 (b.slice 0 checkedSize)
  pageSize : UInt32.ofNat (b.number 16 4) = h.pageSize
  pageCount : UInt32.ofNat (b.number 20 4) = h.pageCount

/-- A header is found where it was stored. -/
theorem found_overwrite (h : FileHeader) (b : Block n) (room : checkedSize + 4 ≤ n) :
    h.Found (b.overwrite 0 h.encode) := by
  have hlength := h.length_checkedBytes
  have hmark : (b.overwrite 0 h.encode).slice 0 16 = magic :=
    b.slice_overwrite_field [] magic
      (bigEndian 4 h.pageSize.toNat ++ bigEndian 4 h.pageCount.toNat ++
        bigEndian 4 (crc32 h.checkedBytes).toNat) (Nat.le_trans (by decide) room)
  have hchecked : (b.overwrite 0 h.encode).slice 0 checkedSize = h.checkedBytes := by
    have hslice := b.slice_overwrite_field [] h.checkedBytes
      (bigEndian 4 (crc32 h.checkedBytes).toNat)
      (by rw [hlength]; exact Nat.le_trans (by decide) room)
    rw [hlength] at hslice
    exact hslice
  have number (before after : Bytes) (x : UInt32) (hroom : before.length + 4 ≤ checkedSize + 4)
      (split : h.encode = before ++ bigEndian 4 x.toNat ++ after) :
      UInt32.ofNat ((b.overwrite 0 h.encode).number before.length 4) = x := by
    have hfield := b.number_overwrite_field 0 4 x.toNat before after (by omega)
    rw [← split, Nat.zero_add] at hfield
    rw [hfield, toNat_mod_valueCount_four, UInt32.ofNat_toNat]
  have hsize := number magic _ h.pageSize (by decide)
    (by simp only [encode, checkedBytes, List.append_assoc]; rfl)
  have hcount := number (magic ++ bigEndian 4 h.pageSize.toNat) _ h.pageCount
    (by rw [List.length_append, length_bigEndian]; decide)
    (by simp only [encode, checkedBytes, List.append_assoc]; rfl)
  have hsum := number h.checkedBytes [] (crc32 h.checkedBytes)
    (Nat.add_le_add_right (Nat.le_of_eq hlength) 4) (by simp only [encode, List.append_nil])
  rw [List.length_append, length_bigEndian] at hcount
  rw [hlength] at hsum
  exact { room, mark := hmark, checksum := by rw [hchecked, hsum], pageSize := hsize,
          pageCount := hcount }

/-- A buffer is read as a header exactly when it starts with the stored form of it. -/
theorem read_eq_ok_iff : read b = .ok h ↔ h.Valid ∧ h.Found b := by
  unfold read
  simp only [Result.ite_refuse_eq_ok, Nat.not_lt, ne_eq, Decidable.not_not]
  constructor
  · rintro ⟨room, mark, checksum, size, count, hread⟩
    cases hread
    exact ⟨⟨size, count⟩, room, mark, checksum, rfl, rfl⟩
  · rintro ⟨valid, found⟩
    rw [found.pageSize, found.pageCount]
    exact ⟨found.room, found.mark, found.checksum, valid.size, valid.count, rfl⟩

/-- A header that can be stored is read back from its page. -/
theorem Valid.read_toPage (valid : h.Valid) : read h.toPage = .ok h := by
  have room : checkedSize + 4 ≤ PagedHeap.pageSize := by decide
  exact read_eq_ok_iff.2 ⟨valid, found_overwrite h (Block.zero PagedHeap.pageSize) room⟩

/-- A header is found in every buffer that it was written into. -/
theorem exists_write (h : FileHeader) (b : Block n) (room : PagedHeap.pageSize ≤ n) :
    ∃ c, h.write b = .ok c ∧ h.Found c := by
  unfold write
  rw [if_neg (Nat.not_lt.2 room)]
  exact ⟨_, rfl, found_overwrite h _ (Nat.le_trans (by decide) room)⟩

/-- What was written holds the header. -/
theorem found_of_write (hwrite : h.write a = .ok b) : h.Found b := by
  unfold write at hwrite
  split at hwrite
  · cases hwrite
  · next room =>
    rw [← Except.ok.inj hwrite]
    exact found_overwrite h _ (Nat.le_trans (by decide) (Nat.not_lt.1 room))

/-- Where a header is found, it fixes every byte of its stored form. -/
theorem Found.byteAt_eq (ha : h.Found a) (hb : h.Found b) {i : Nat} (hi : i < checkedSize + 4) :
    a.byteAt i = b.byteAt i := by
  have before {i : Nat} (hi : i < checkedSize) : a.byteAt i = b.byteAt i := by
    by_cases hmark : i < 16
    · exact Block.byteAt_eq_of_slice_eq (ha.mark.trans hb.mark.symm) (Nat.zero_le _) (by omega)
    · by_cases hsize : i < 20
      · exact Block.byteAt_eq_of_ofNat_eq (ha.pageSize.trans hb.pageSize.symm) (by omega) (by omega)
      · exact Block.byteAt_eq_of_ofNat_eq (ha.pageCount.trans hb.pageCount.symm) (by omega)
          (by simp only [checkedSize] at hi; omega)
  by_cases hlt : i < checkedSize
  · exact before hlt
  · -- the checksum is that of the same bytes
    have hsum : crc32 (a.slice 0 checkedSize) = crc32 (b.slice 0 checkedSize) :=
      congrArg crc32 (Block.slice_congr fun i _ hi => before (by omega))
    rw [← ha.checksum, ← hb.checksum] at hsum
    exact Block.byteAt_eq_of_ofNat_eq hsum (Nat.not_lt.1 hlt) hi

end FileHeader

end PagedHeap
