import PagedHeap.Heap.Header
import PagedHeap.Proofs.Ensures
import PagedHeap.Proofs.Page.Slices

/-!
# Headers of heap files are read back

A header that names its file in at most 64 bytes and has a first and a last page is stored into any
buffer that has room for it, whatever the buffer held before, and read back from there. More is
read than is stored: `HeapHeader.Found` says what a buffer has to hold, and it leaves open what
stands in the reserved bytes and behind the name (`HeapHeader.read_eq_ok_iff`).
-/

namespace PagedHeap

namespace HeapHeader

/-- The header can be stored: its name fits and it has a first and a last page. -/
structure Valid (h : HeapHeader) : Prop where
  name_pos : 0 < h.fileName.utf8ByteSize
  name_le : h.fileName.utf8ByteSize ≤ maxFileNameSize
  first : h.firstPage ≠ .invalid
  last : h.lastPage ≠ .invalid

theorem length_toUTF8 (s : String) : s.toUTF8.data.toList.length = s.utf8ByteSize := rfl

/-- A text is read back from its bytes. -/
theorem fromUTF8?_toUTF8 (s : String) :
    String.fromUTF8? ⟨s.toUTF8.data.toList.toArray⟩ = some s := by
  have hbytes : (⟨s.toUTF8.data.toList.toArray⟩ : ByteArray) = s.toByteArray := by
    rw [Array.toArray_toList]
    rfl
  rw [hbytes]
  unfold String.fromUTF8?
  rw [dif_pos s.isValidUTF8]
  rfl

/-- The bytes that were read as a text are those of the text. -/
theorem toUTF8_of_fromUTF8? {bytes : Bytes} {s : String}
    (h : String.fromUTF8? ⟨bytes.toArray⟩ = some s) : s.toUTF8.data.toList = bytes := by
  unfold String.fromUTF8? at h
  split at h
  · cases h
    rfl
  · cases h

variable {h : HeapHeader}

/-- A name that fits is stored whole. -/
theorem Valid.nameBytes_eq (valid : h.Valid) : h.nameBytes = h.fileName.toUTF8.data.toList :=
  List.take_of_length_le valid.name_le

theorem Valid.length_nameBytes (valid : h.Valid) :
    h.nameBytes.length = h.fileName.utf8ByteSize := by
  rw [valid.nameBytes_eq, length_toUTF8]

/-- The bytes before the counters: the kind, the mark and the name with its length. -/
def nameField (h : HeapHeader) : Bytes :=
  [PageKind.heapHeader.toByte, 0, 0, 0] ++ magic ++ [UInt8.ofNat h.nameBytes.length] ++
    (h.nameBytes ++ List.replicate (maxFileNameSize - h.nameBytes.length) 0)

theorem Valid.length_nameField (valid : h.Valid) : h.nameField.length = 77 := by
  have hname := valid.length_nameBytes
  have hle := valid.name_le
  simp only [nameField, magic, List.length_append, List.length_cons, List.length_nil,
    List.length_replicate, maxFileNameSize] at hle ⊢
  omega

theorem checkedBytes_eq (h : HeapHeader) : h.checkedBytes = h.nameField ++
    bigEndian 4 h.pageCount.toNat ++ bigEndian 4 h.recordCount.toNat ++
    bigEndian 4 h.firstPage.val.toNat ++ bigEndian 4 h.lastPage.val.toNat := rfl

theorem Valid.length_checkedBytes (valid : h.Valid) : h.checkedBytes.length = checkedSize := by
  rw [checkedBytes_eq]
  simp only [List.length_append, length_bigEndian, valid.length_nameField, checkedSize]

theorem Valid.length_encode (valid : h.Valid) : h.encode.length = encodedSize := by
  unfold encode
  rw [List.length_append, valid.length_checkedBytes, length_bigEndian, encodedSize]

/-- What a stored header holds in each of its places. -/
structure Stored (h : HeapHeader) {n : Nat} (b : Block n) : Prop where
  kind : b.byteAt 0 = PageKind.heapHeader.toByte
  mark : b.slice 4 8 = magic
  nameSize : b.byteAt 12 = UInt8.ofNat h.nameBytes.length
  name : b.slice 13 h.nameBytes.length = h.nameBytes
  pageCount : UInt32.ofNat (b.number 77 4) = h.pageCount
  recordCount : UInt32.ofNat (b.number 81 4) = h.recordCount
  firstPage : UInt32.ofNat (b.number 85 4) = h.firstPage.val
  lastPage : UInt32.ofNat (b.number 89 4) = h.lastPage.val
  checksum : UInt32.ofNat (b.number checkedSize 4) = crc32 h.checkedBytes
  checked : b.slice 0 checkedSize = h.checkedBytes

/-- Storing a header puts every part into its place. -/
theorem Valid.stored (valid : h.Valid) {n : Nat} (b : Block n) (room : encodedSize ≤ n) :
    h.Stored (b.overwrite 0 h.encode) := by
  have hname := valid.length_nameField
  have hsize := valid.length_encode
  have inside {before xs after : Bytes} (split : h.encode = before ++ xs ++ after) :
      before.length + xs.length ≤ n := by
    have := congrArg List.length split
    rw [List.length_append, List.length_append, hsize] at this
    omega
  have range (before xs after : Bytes) (split : h.encode = before ++ xs ++ after) :
      (b.overwrite 0 h.encode).slice before.length xs.length = xs := by
    rw [split]
    exact b.slice_overwrite_field before xs after (inside split)
  have number (before after : Bytes) (x : UInt32)
      (split : h.encode = before ++ bigEndian 4 x.toNat ++ after) :
      UInt32.ofNat ((b.overwrite 0 h.encode).number before.length 4) = x := by
    have hin := inside split
    rw [length_bigEndian] at hin
    have := b.number_overwrite_field 0 4 x.toNat before after (by omega)
    rw [← split, Nat.zero_add] at this
    rw [this, toNat_mod_valueCount_four, UInt32.ofNat_toNat]
  have byte (before after : Bytes) (x : UInt8) (split : h.encode = before ++ [x] ++ after) :
      (b.overwrite 0 h.encode).byteAt before.length = x := by
    have hin := inside split
    rw [List.length_singleton] at hin
    rw [Block.byteAt_overwrite _ _ _ _ (by omega), split]
    simp
  have pageCount := number h.nameField _ h.pageCount
    (by simp only [encode, checkedBytes_eq, List.append_assoc]; rfl)
  have recordCount := number (h.nameField ++ bigEndian 4 h.pageCount.toNat) _ h.recordCount
    (by simp only [encode, checkedBytes_eq, List.append_assoc]; rfl)
  have firstPage := number (h.nameField ++ bigEndian 4 h.pageCount.toNat ++
      bigEndian 4 h.recordCount.toNat) _ h.firstPage.val
    (by simp only [encode, checkedBytes_eq, List.append_assoc]; rfl)
  have lastPage := number (h.nameField ++ bigEndian 4 h.pageCount.toNat ++
      bigEndian 4 h.recordCount.toNat ++ bigEndian 4 h.firstPage.val.toNat) _ h.lastPage.val
    (by simp only [encode, checkedBytes_eq, List.append_assoc]; rfl)
  have checksum := number h.checkedBytes [] (crc32 h.checkedBytes)
    (by simp only [encode, List.append_nil])
  have checked := range [] h.checkedBytes _ (by rw [List.nil_append]; rfl)
  simp only [List.length_append, length_bigEndian, hname]
    at pageCount recordCount firstPage lastPage
  rw [valid.length_checkedBytes] at checksum checked
  exact {
    kind := byte [] _ _ (by simp only [encode, checkedBytes, List.append_assoc]; rfl)
    mark := range [PageKind.heapHeader.toByte, 0, 0, 0] magic _
      (by simp only [encode, checkedBytes, List.append_assoc]; rfl)
    nameSize := byte ([PageKind.heapHeader.toByte, 0, 0, 0] ++ magic) _ _
      (by simp only [encode, checkedBytes, List.append_assoc]; rfl)
    name := range ([PageKind.heapHeader.toByte, 0, 0, 0] ++ magic ++
        [UInt8.ofNat h.nameBytes.length]) h.nameBytes _
      (by simp only [encode, checkedBytes, List.append_assoc]; rfl)
    pageCount, recordCount, firstPage, lastPage, checksum, checked }

/-- A buffer starts with the parts of a header. The bytes between the kind and the mark and those
between the name and the counters may be any. -/
structure Found (h : HeapHeader) {n : Nat} (b : Block n) : Prop where
  room : encodedSize ≤ n
  kind : b.byteAt 0 = PageKind.heapHeader.toByte
  mark : b.slice 4 8 = magic
  checksum : UInt32.ofNat (b.number checkedSize 4) = crc32 (b.slice 0 checkedSize)
  nameSize : (b.byteAt 12).toNat = h.fileName.utf8ByteSize
  name : b.slice 13 h.fileName.utf8ByteSize = h.fileName.toUTF8.data.toList
  pageCount : UInt32.ofNat (b.number 77 4) = h.pageCount
  recordCount : UInt32.ofNat (b.number 81 4) = h.recordCount
  firstPage : UInt32.ofNat (b.number 85 4) = h.firstPage.val
  lastPage : UInt32.ofNat (b.number 89 4) = h.lastPage.val

/-- A header is found where it is stored. -/
theorem Stored.found (valid : h.Valid) {n : Nat} {b : Block n} (room : encodedSize ≤ n)
    (stored : h.Stored b) : h.Found b := by
  have hsize : (UInt8.ofNat h.nameBytes.length).toNat = h.fileName.utf8ByteSize := by
    have hle := valid.name_le
    rw [valid.length_nameBytes]
    simp only [maxFileNameSize] at hle
    exact UInt8.toNat_ofNat_of_lt' (by simp only [UInt8.size]; omega)
  have hname := stored.name
  rw [valid.length_nameBytes, valid.nameBytes_eq] at hname
  exact { room, kind := stored.kind, mark := stored.mark,
          checksum := by rw [stored.checksum, stored.checked],
          nameSize := by rw [stored.nameSize, hsize], name := hname,
          pageCount := stored.pageCount, recordCount := stored.recordCount,
          firstPage := stored.firstPage, lastPage := stored.lastPage }

/-- A buffer is read as a header exactly when the parts of a header that can be stored are found at
its start. -/
theorem read_eq_ok_iff {n : Nat} {b : Block n} : read b = .ok h ↔ h.Valid ∧ h.Found b := by
  unfold read
  simp only [Result.ite_refuse_eq_ok, Nat.not_lt, ne_eq, not_or, Decidable.not_not]
  constructor
  · rintro ⟨room, ⟨kind, mark⟩, checksum, ⟨name_pos, name_le⟩, hread⟩
    split at hread
    · cases hread
    · next name htext =>
      obtain ⟨pages, hread⟩ := Result.ite_refuse_eq_ok.1 hread
      cases hread
      have hbytes := toUTF8_of_fromUTF8? htext
      have hsize : (b.byteAt 12).toNat = name.utf8ByteSize := by
        have hin : 13 + (b.byteAt 12).toNat ≤ n := by
          simp only [encodedSize, checkedSize, maxFileNameSize] at room name_le
          omega
        rw [← length_toUTF8, hbytes, Block.length_slice_of_le b hin]
      have hvalid : ∀ page : PageId, page.isValid = true → page ≠ .invalid := fun _ => bne_iff_ne.1
      simp only [Bool.or_eq_true, Bool.not_eq_true', not_or, Bool.not_eq_false] at pages
      rw [hsize] at name_pos name_le
      exact ⟨⟨Nat.pos_of_ne_zero name_pos, name_le, hvalid _ pages.1, hvalid _ pages.2⟩,
        room, (PageKind.toByte_of_ofByte? kind).symm, mark, checksum, hsize,
        by rw [hbytes, hsize], rfl, rfl, rfl, rfl⟩
  · rintro ⟨valid, found⟩
    have hkind : PageKind.ofByte? (b.byteAt 0) = some .heapHeader := by
      rw [found.kind, PageKind.ofByte?_toByte]
    have hpos := valid.name_pos
    have hfirst : h.firstPage.isValid = true := bne_iff_ne.2 valid.first
    have hlast : h.lastPage.isValid = true := bne_iff_ne.2 valid.last
    rw [found.nameSize, found.name, found.pageCount, found.recordCount, found.firstPage,
      found.lastPage, fromUTF8?_toUTF8]
    refine ⟨found.room, ⟨hkind, found.mark⟩, found.checksum, ⟨by omega, valid.name_le⟩, ?_⟩
    simp only [hfirst, hlast, Bool.not_true, Bool.or_self, Bool.false_eq_true, if_false]

/-- A header is read from where it is stored. -/
theorem Stored.read_eq (valid : h.Valid) {n : Nat} {b : Block n} (room : encodedSize ≤ n)
    (stored : h.Stored b) : read b = .ok h :=
  read_eq_ok_iff.2 ⟨valid, stored.found valid room⟩

/-- The places whose bytes a header fixes before its checksum: the kind, the mark, the name with
its length, and the counters. -/
def Fixes (h : HeapHeader) (i : Nat) : Prop :=
  i = 0 ∨ 4 ≤ i ∧ i < 13 + h.fileName.utf8ByteSize ∨ 77 ≤ i ∧ i < checkedSize

/-- Where a header is found, it fixes the bytes of its parts. -/
theorem Found.byteAt_eq {n : Nat} {a b : Block n} (ha : h.Found a) (hb : h.Found b) {i : Nat}
    (hi : h.Fixes i) : a.byteAt i = b.byteAt i := by
  rcases hi with rfl | ⟨hle, hlt⟩ | ⟨hle, hlt⟩
  · rw [ha.kind, hb.kind]
  · by_cases hmark : i < 12
    · exact Block.byteAt_eq_of_slice_eq (ha.mark.trans hb.mark.symm) hle hmark
    by_cases hsize : i = 12
    · subst hsize
      exact UInt8.toNat_inj.1 (ha.nameSize.trans hb.nameSize.symm)
    · exact Block.byteAt_eq_of_slice_eq (ha.name.trans hb.name.symm) (by omega) hlt
  · simp only [checkedSize] at hlt
    by_cases hpages : i < 81
    · exact Block.byteAt_eq_of_ofNat_eq (ha.pageCount.trans hb.pageCount.symm) hle hpages
    by_cases hrecords : i < 85
    · exact Block.byteAt_eq_of_ofNat_eq (ha.recordCount.trans hb.recordCount.symm) (by omega)
        hrecords
    by_cases hfirst : i < 89
    · exact Block.byteAt_eq_of_ofNat_eq (ha.firstPage.trans hb.firstPage.symm) (by omega) hfirst
    · exact Block.byteAt_eq_of_ofNat_eq (ha.lastPage.trans hb.lastPage.symm) (by omega) hlt

/-- The checksum is that of the bytes before it. -/
theorem Found.checksum_eq {n : Nat} {a b : Block n} (ha : h.Found a) (hb : h.Found b)
    (hbefore : ∀ i < checkedSize, a.byteAt i = b.byteAt i) {i : Nat} (hi : i < encodedSize) :
    a.byteAt i = b.byteAt i := by
  by_cases hlt : i < checkedSize
  · exact hbefore i hlt
  · have hsum : crc32 (a.slice 0 checkedSize) = crc32 (b.slice 0 checkedSize) :=
      congrArg crc32 (Block.slice_congr fun i _ hi => hbefore i (by omega))
    rw [← ha.checksum, ← hb.checksum] at hsum
    exact Block.byteAt_eq_of_ofNat_eq hsum (Nat.not_lt.1 hlt) hi

/-- A header that can be stored is found in every buffer that it was written into. -/
theorem Valid.exists_write (valid : h.Valid) {n : Nat} (b : Block n) (room : encodedSize ≤ n) :
    ∃ c, h.write b = .ok c ∧ h.Found c := by
  unfold write
  rw [if_neg (Nat.not_lt.2 room)]
  exact ⟨_, rfl, (valid.stored _ room).found valid room⟩

/-- What was written holds the header. -/
theorem Valid.found_of_write (valid : h.Valid) {n : Nat} {b c : Block n}
    (hwrite : h.write b = .ok c) : h.Found c := by
  unfold write at hwrite
  split at hwrite
  · cases hwrite
  · next room =>
    rw [← Except.ok.inj hwrite]
    exact (valid.stored _ (Nat.not_lt.1 room)).found valid (Nat.not_lt.1 room)

/-- A header that can be stored is read back as it was stored. -/
theorem Valid.read_write (valid : h.Valid) {n : Nat} (b : Block n) (room : encodedSize ≤ n) :
    ∃ c, h.write b = .ok c ∧ read c = .ok h := by
  obtain ⟨c, hwrite, hfound⟩ := valid.exists_write b room
  exact ⟨c, hwrite, read_eq_ok_iff.2 ⟨valid, hfound⟩⟩

end HeapHeader

end PagedHeap
