import PagedHeap.Proofs.File.Header
import PagedHeap.Proofs.Heap.Header

/-!
# Headers survive being written and read

Two headers are stored at the start of a buffer, that of a file and that of a heap file. Both end
with a checksum of the bytes before it, and both are read back by a function that looks at some of
these bytes only: the reserved ones and those behind a short name count for the checksum and for
nothing else. A buffer can therefore be read as a header without being what writing this header
gives, and the two directions are different laws:

* what was written is read back (`HeaderFormat.RoundTrips.read_write`);
* writing what was read gives the bytes that were read, but for those that no part of the header
  fixes and for the checksum, which changes only with them (`HeaderFormat.RoundTrips.write_read`).

`HeaderFormat.Lawful` is what a format has to provide for them.
-/

namespace PagedHeap

/-- A way to store headers at the start of a buffer. -/
structure HeaderFormat (H : Type) where
  /-- The headers that can be stored. -/
  valid : H → Prop
  /-- The header at the start of a buffer. -/
  read : {n : Nat} → Block n → Result H
  /-- Stores a header at the start of a buffer. -/
  write : {n : Nat} → H → Block n → Result (Block n)
  /-- The size of the smallest buffer that headers are stored into. -/
  room : Nat
  /-- The number of bytes that the checksum covers; it stands in the four bytes behind them. -/
  checkedSize : Nat
  /-- The places whose bytes are the same wherever the header is read. -/
  fixes : H → Nat → Prop

namespace HeaderFormat

variable {H : Type} {f : HeaderFormat H}

/-- What is written is read, and what is read is written again up to the bytes that are left open.
-/
structure RoundTrips (f : HeaderFormat H) : Prop where
  read_write {n : Nat} (h : H) (b : Block n) : f.valid h → f.room ≤ n →
    ∃ c, f.write h b = .ok c ∧ f.read c = .ok h
  write_read {n : Nat} (h : H) (a b : Block n) : f.read a = .ok h → f.room ≤ n →
    ∃ c, f.write h b = .ok c ∧ f.read c = .ok h ∧ (∀ i, f.fixes h i → c.byteAt i = a.byteAt i) ∧
      ((∀ i < f.checkedSize, c.byteAt i = a.byteAt i) →
        ∀ i < f.checkedSize + 4, c.byteAt i = a.byteAt i)

/-- A format whose headers are read exactly where they are found: `found h b` says that the buffer
holds the parts of the header and the checksum of its own first bytes. -/
structure Lawful (f : HeaderFormat H) (found : {n : Nat} → H → Block n → Prop) : Prop where
  read_eq_ok_iff {n : Nat} {h : H} {b : Block n} : f.read b = .ok h ↔ f.valid h ∧ found h b
  exists_write {n : Nat} {h : H} (b : Block n) : f.valid h → f.room ≤ n →
    ∃ c, f.write h b = .ok c ∧ found h c
  byteAt_eq {n : Nat} {h : H} {a b : Block n} {i : Nat} : found h a → found h b → f.fixes h i →
    a.byteAt i = b.byteAt i
  checksum_eq {n : Nat} {h : H} {a b : Block n} {i : Nat} : found h a → found h b →
    (∀ i < f.checkedSize, a.byteAt i = b.byteAt i) → i < f.checkedSize + 4 →
    a.byteAt i = b.byteAt i

theorem Lawful.roundTrips {found : {n : Nat} → H → Block n → Prop} (lawful : f.Lawful found) :
    f.RoundTrips where
  read_write h b valid room := by
    obtain ⟨c, hwrite, hfound⟩ := lawful.exists_write b valid room
    exact ⟨c, hwrite, lawful.read_eq_ok_iff.2 ⟨valid, hfound⟩⟩
  write_read h a b hread room := by
    obtain ⟨valid, ha⟩ := lawful.read_eq_ok_iff.1 hread
    obtain ⟨c, hwrite, hc⟩ := lawful.exists_write b valid room
    exact ⟨c, hwrite, lawful.read_eq_ok_iff.2 ⟨valid, hc⟩, fun i => lawful.byteAt_eq hc ha,
      fun hbefore i => lawful.checksum_eq hc ha hbefore⟩

end HeaderFormat

/-! ## The two formats -/

/-- The header of a heap file fixes the kind, the mark, the name with its length and the counters.
-/
def HeapHeader.format : HeaderFormat HeapHeader where
  valid := Valid
  read := read
  write := write
  room := encodedSize
  checkedSize := checkedSize
  fixes := Fixes

/-- The header of a file fixes all its bytes. Writing it fills a page. -/
def FileHeader.format : HeaderFormat FileHeader where
  valid := Valid
  read := read
  write := write
  room := PagedHeap.pageSize
  checkedSize := checkedSize
  fixes _ i := i < checkedSize + 4

theorem HeapHeader.lawful_format : format.Lawful fun h b => h.Found b where
  read_eq_ok_iff := HeapHeader.read_eq_ok_iff
  exists_write b valid room := valid.exists_write b room
  byteAt_eq ha hb hi := ha.byteAt_eq hb hi
  checksum_eq ha hb hbefore hi := ha.checksum_eq hb hbefore hi

theorem FileHeader.lawful_format : format.Lawful fun h b => h.Found b where
  read_eq_ok_iff := FileHeader.read_eq_ok_iff
  exists_write b _ room := exists_write _ b room
  byteAt_eq ha hb hi := ha.byteAt_eq hb hi
  checksum_eq ha hb _ hi := ha.byteAt_eq hb hi

/-- The headers of files and of heap files are read as they were written, and written as they were
read. What is read as the header of a heap file is never too short for writing it. -/
theorem headers_roundTrip :
    HeapHeader.format.RoundTrips ∧ FileHeader.format.RoundTrips ∧
      ∀ {n : Nat} {b : Block n} {h : HeapHeader}, HeapHeader.read b = .ok h →
        HeapHeader.format.room ≤ n :=
  ⟨HeapHeader.lawful_format.roundTrips, FileHeader.lawful_format.roundTrips,
    fun hread => (HeapHeader.read_eq_ok_iff.1 hread).2.room⟩

/-- The header of a file that is named in two letters of two bytes each, in a buffer of ones. -/
theorem headers_roundTrip_named :
    ∃ c, HeapHeader.write ⟨"éü", 7, 300, ⟨2⟩, ⟨8⟩⟩ (Vector.replicate 97 1) = .ok c ∧
      HeapHeader.read c = .ok ⟨"éü", 7, 300, ⟨2⟩, ⟨8⟩⟩ :=
  headers_roundTrip.1.read_write _ _ ⟨by decide, by decide, by decide, by decide⟩ (by decide)

end PagedHeap
