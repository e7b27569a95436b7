import PagedHeap.Proofs.Heap.Filling
import PagedHeap.Proofs.Heap.Insert
import PagedHeap.Proofs.Page.Admission

/-!
# Records are packed next-fit

Whoever inserts records one after the other through one handle fills the file page by page: a record
goes to the last page if it fits there, and to a new page behind it if it does not.  This is
next-fit packing (`Packing`): pages are bins, and every record takes its bytes and an entry of the
directory.

A file is laid out by a packing if its pages hold the bins of it (`Volume.LaidOut`).  A record fits
on a page exactly if it fits into its bin (`Volume.LaidOut.fits_iff`), and an insert at the end goes
where the packing puts the record (`HeapFile.Packed.ensures_insert`).  So the packing tells what the
header says and what is found in the file (`Packing.Describes`).
-/

namespace PagedHeap

open PagedHeap.Action

/-! ## Next-fit packing -/

/-- Records that were packed into bins, of which only the last one takes more. -/
structure Packing where
  /-- The bins that are closed. -/
  closed : List (List Bytes)
  /-- The last bin. -/
  last : List Bytes

namespace Packing

/-- The size of a bin: that of a page without its header. -/
def binSize : Nat := pageSize - dataHeaderSize

example : binSize = 4080 := rfl

/-- The size of a record in a bin, with an entry of the directory. -/
def itemSize (record : Bytes) : Nat := record.length + slotSize

/-- The size of all records in a bin. -/
def load (bin : List Bytes) : Nat := (bin.map itemSize).sum

/-- One bin without records. -/
def empty : Packing := ⟨[], []⟩

/-- Every record adds an entry and its bytes. -/
theorem load_eq (bin : List Bytes) :
    load bin = slotSize * bin.length + (bin.map List.length).sum := by
  unfold load
  induction bin with
  | nil => rfl
  | cons record bin ih =>
    rw [List.map_cons, List.sum_cons, ih, List.length_cons, List.map_cons, List.sum_cons,
      Nat.mul_succ]
    unfold itemSize
    omega

theorem load_concat (bin : List Bytes) (record : Bytes) :
    load (bin ++ [record]) = load bin + itemSize record := by
  unfold load
  rw [List.map_append, List.map_singleton, List.sum_append, List.sum_singleton]

variable (p : Packing) (record : Bytes)

/-- The bins in the order in which they were opened. -/
def bins : List (List Bytes) := p.closed ++ [p.last]

/-- The record fits into the last bin. -/
def Fits : Prop := load p.last + itemSize record ≤ binSize

instance : Decidable (p.Fits record) := inferInstanceAs (Decidable (_ ≤ _))

/-- Puts a record into the last bin if it fits there, and into a new bin otherwise. -/
def add : Packing :=
  if p.Fits record then ⟨p.closed, p.last ++ [record]⟩ else ⟨p.closed ++ [p.last], [record]⟩

/-- The packing of records that were added one after the other. -/
def ofRecords (records : List Bytes) : Packing := records.foldl add empty

/-- The page of a bin: that of the first bin has the number two. -/
def page (bin : Nat) : PageId := ⟨UInt32.ofNat (2 + bin)⟩

/-- The address of a record in a bin. -/
def address (bin index : Nat) : RecordId := ⟨page bin, UInt16.ofNat index⟩

/-- The records of one bin with their addresses. -/
def rowsOf (bin : List Bytes × Nat) : List (RecordId × Bytes) :=
  bin.1.zipIdx.map fun (record, index) => (address bin.2 index, record)

/-- The records of all bins with their addresses. -/
def rows : List (RecordId × Bytes) := p.bins.zipIdx.flatMap rowsOf

/-- Where the next record goes. -/
def place : RecordId :=
  if p.Fits record then address p.closed.length p.last.length else address (p.closed.length + 1) 0

@[simp] theorem length_bins : p.bins.length = p.closed.length + 1 := by
  unfold bins
  rw [List.length_append, List.length_singleton]

theorem getElem?_bins_last : p.bins[p.closed.length]? = some p.last := by
  unfold bins
  rw [List.getElem?_append_right (Nat.le_refl _), Nat.sub_self]
  rfl

variable {p record} in
/-- A bin that does not take a record is not empty. -/
theorem last_ne_nil (hlen : record.length ≤ maxRecordSize) (hfull : ¬p.Fits record) :
    p.last ≠ [] := by
  intro hnil
  apply hfull
  unfold Fits
  rw [hnil]
  unfold load itemSize binSize
  simp only [List.map_nil, List.sum_nil, maxRecordSize, pageSize, dataHeaderSize, slotSize] at *
  omega

/-- A record in the last bin is behind all others. -/
theorem rows_concat_last : (⟨p.closed, p.last ++ [record]⟩ : Packing).rows =
    p.rows ++ [(address p.closed.length p.last.length, record)] := by
  unfold rows bins
  simp only [List.zipIdx_append, List.flatMap_append, List.append_assoc, List.append_cancel_left_eq,
    List.zipIdx_singleton, List.flatMap_singleton, Nat.zero_add]
  unfold rowsOf
  simp only [List.zipIdx_append, List.map_append, List.zipIdx_singleton, List.map_singleton,
    Nat.zero_add]

/-- So is one in a new bin. -/
theorem rows_concat_bin : (⟨p.bins, [record]⟩ : Packing).rows =
    p.rows ++ [(address (p.closed.length + 1) 0, record)] := by
  unfold rows bins
  rw [List.zipIdx_append, List.flatMap_append, List.append_cancel_left_eq, List.zipIdx_singleton,
    List.flatMap_singleton, List.length_append, List.length_singleton, Nat.zero_add]
  rfl

/-- A record takes a place behind all others. -/
theorem rows_add : (p.add record).rows = p.rows ++ [(p.place record, record)] := by
  unfold add place
  split
  · exact p.rows_concat_last record
  · exact p.rows_concat_bin record

theorem ofRecords_concat (records : List Bytes) :
    ofRecords (records ++ [record]) = (ofRecords records).add record := List.foldl_concat _ _ _ _

/-- Records are packed in their order, and none is lost. -/
theorem map_rows_ofRecords (records : List Bytes) :
    (ofRecords records).rows.map Prod.snd = records := by
  induction records using List.reverseRecOn with
  | nil => rfl
  | append_singleton records record ih =>
    rw [ofRecords_concat, rows_add, List.map_append, ih]
    rfl

theorem length_rows_ofRecords (records : List Bytes) :
    (ofRecords records).rows.length = records.length := by
  rw [← List.length_map (f := Prod.snd), map_rows_ofRecords]

/-- At most one bin is opened for each record. -/
theorem length_bins_ofRecords_le (records : List Bytes) :
    (ofRecords records).bins.length ≤ records.length + 1 := by
  induction records using List.reverseRecOn with
  | nil => exact Nat.le_refl 1
  | append_singleton records record ih =>
    rw [length_bins] at ih
    rw [ofRecords_concat, length_bins, List.length_append, List.length_singleton]
    unfold add
    split
    · exact Nat.le_succ_of_le ih
    · rw [List.length_append, List.length_singleton]
      exact Nat.succ_le_succ ih

/-- Two records that do not fit into one bin take two. -/
theorem ofRecords_pair {a b : Bytes} (ha : a.length ≤ maxRecordSize)
    (hfull : binSize < itemSize a + itemSize b) : ofRecords [a, b] = ⟨[[a]], [b]⟩ := by
  have hfirst : empty.Fits a := by
    by_contra hnot
    exact last_ne_nil ha hnot rfl
  have hload : load [a] = itemSize a := Nat.add_zero _
  have hnot : ¬(⟨[], [a]⟩ : Packing).Fits b := by
    unfold Fits
    rw [hload]
    exact Nat.not_le.2 hfull
  change (empty.add a).add b = _
  have hadd : empty.add a = ⟨[], [a]⟩ := if_pos hfirst
  rw [hadd]
  exact if_neg hnot

/-- A record of 2000 bytes and one of 3000 fit on a page, but not both on the same. -/
theorem length_two : ∀ record ∈ [List.replicate 2000 (1 : UInt8), List.replicate 3000 2],
    record.length ≤ maxRecordSize := by
  refine List.forall_mem_cons.2 ⟨?_, List.forall_mem_singleton.2 ?_⟩
  · rw [List.length_replicate]
    decide
  · rw [List.length_replicate]
    decide

theorem ofRecords_two : ofRecords [List.replicate 2000 1, List.replicate 3000 2] =
    ⟨[[List.replicate 2000 1]], [List.replicate 3000 2]⟩ := by
  refine ofRecords_pair (length_two _ (List.mem_cons_self ..)) ?_
  unfold itemSize
  rw [List.length_replicate, List.length_replicate]
  decide

/-- What a packing tells about a heap file with a header. -/
structure Describes (p : Packing) (header : HeapHeader) (v : Volume) : Prop where
  /-- There is one page for each bin. -/
  pageCount : header.pageCount.toNat = p.bins.length
  lastPage : header.lastPage.val.toNat = 1 + header.pageCount.toNat
  recordCount : header.recordCount.toNat = p.rows.length
  /-- The rows are found in the order in which they were packed, and there are no others. -/
  rows : v.rows = p.rows
  found : ∀ rid record, v.record? rid = some record ↔ (rid, record) ∈ p.rows
  /-- The numbers of pages and slots are those of bins and of places in them. -/
  numbers : ∀ b bin, p.bins[b]? = some bin → ∀ index < bin.length,
    (address b index).page.val.toNat = 2 + b ∧ (address b index).slot.toNat = index

end Packing

/-! ## Pages that hold bins -/

namespace SlottedPage

/-- The records of a page are those of a bin, in its first slots. -/
def HoldsBin (p : SlottedPage) (bin : List Bytes) : Prop :=
  ∀ slot, p.record? slot = bin[slot.toNat]?

namespace WellFormed

variable {p : SlottedPage} {bin : List Bytes} (h : p.WellFormed) (hbin : p.HoldsBin bin)
include h hbin

theorem live_iff_of_holdsBin {i : Nat} (hi : i < 2 ^ 16) : p.Live i ↔ i < bin.length := by
  have hslot : (UInt16.ofNat i).toNat = i := UInt16.toNat_ofNat_of_lt' hi
  have hlive : (p.record? (UInt16.ofNat i)).isSome ↔ p.Live (UInt16.ofNat i).toNat :=
    h.isSome_record?
  rw [hbin, hslot, Option.isSome_iff_ne_none, ne_eq, List.getElem?_eq_none_iff, Nat.not_le] at hlive
  exact hlive.symm

/-- The directory has one entry for each record of the bin. -/
theorem slotCount_of_holdsBin : p.slotCount = bin.length := by
  have hlt := p.slotCount_lt
  apply Nat.le_antisymm
  · by_contra hmore
    obtain ⟨k, hk⟩ : ∃ k, p.slotCount = k + 1 := ⟨p.slotCount - 1, by omega⟩
    have hlive := (h.live_iff_of_holdsBin hbin (by omega)).1 ⟨by omega, h.last k hk⟩
    omega
  · by_contra hmore
    have hlive := (h.live_iff_of_holdsBin hbin hlt).2 (Nat.lt_of_not_le hmore)
    exact Nat.lt_irrefl _ hlive.1

/-- The records have the bytes of the bin. -/
theorem recordBytes_of_holdsBin : recordBytes p.records = (bin.map List.length).sum := by
  have hcount := h.slotCount_of_holdsBin hbin
  have hlt := p.slotCount_lt
  have hsize (i : Nat) (hi : i < bin.length) : (p.slotAt i).size = bin[i].length := by
    have hslot : (UInt16.ofNat i).toNat = i :=
      UInt16.toNat_ofNat_of_lt' (hi.trans (hcount ▸ hlt))
    have hrecord : p.record? (UInt16.ofNat i) = some bin[i] := by
      rw [hbin, hslot, List.getElem?_eq_getElem hi]
    rw [h.length_of_mem_records (h.mem_records.2 hrecord), hslot]
  -- the sums are taken over the same initial parts of the directory and of the bin
  have hpart (k : Nat) (hk : k ≤ bin.length) :
      usedBytes p.slotAt k = ((bin.map List.length).take k).sum := by
    induction k with
    | zero => rfl
    | succ k ih =>
      have hk' : k < (bin.map List.length).length := by
        rw [List.length_map]
        exact hk
      rw [usedBytes_succ, ih (by omega), hsize k hk, List.sum_take_succ _ _ hk', List.getElem_map]
  rw [h.recordBytes_records, hcount, hpart _ (Nat.le_refl _), List.take_of_length_le]
  rw [List.length_map]

/-- The entries of the directory and the records take what the bin is loaded with. -/
theorem load_eq_of_holdsBin :
    Packing.load bin = slotSize * p.slotCount + recordBytes p.records := by
  rw [h.slotCount_of_holdsBin hbin, h.recordBytes_of_holdsBin hbin]
  exact Packing.load_eq bin

/-- A bin that is on a page is not overfull. -/
theorem load_le_of_holdsBin : Packing.load bin ≤ Packing.binSize := by
  have haccount := h.layout.account
  have hdirectory := h.layout.directory
  rw [h.load_eq_of_holdsBin hbin, h.recordBytes_records]
  simp only [Packing.binSize, Slot.position, pageSize, dataHeaderSize, slotSize] at *
  omega

/-- A record fits on the page exactly if it fits into the bin. -/
theorem neededFor_le_iff_of_holdsBin (record : Bytes) :
    p.neededFor record ≤ p.freeSpace + p.header.fragmented.toNat ↔
      Packing.load bin + Packing.itemSize record ≤ Packing.binSize := by
  have hcount := h.slotCount_of_holdsBin hbin
  have hlt := p.slotCount_lt
  have hentries : p.entriesWith p.record? = bin.length + 1 := by
    unfold entriesWith
    rw [if_neg, hcount]
    rintro ⟨i, hi, hnone⟩
    refine h.record?_eq_none.1 hnone ?_
    rw [toNat_ofNat_of_lt_slotCount hi]
    exact (h.live_iff_of_holdsBin hbin (hi.trans hlt)).2 (hcount ▸ hi)
  rw [← h.sizeWith_le, h.load_eq_of_holdsBin hbin]
  unfold sizeWith
  rw [hentries, hcount]
  unfold Packing.itemSize Packing.binSize
  simp only [pageSize, dataHeaderSize, slotSize]
  omega

end WellFormed

end SlottedPage

/-! ## Files that are laid out by a packing -/

namespace Volume

variable {v w : Volume} {h : HeapHeader} {bins : List (List Bytes)} {p : Packing}

/-- The data pages hold the bins, one each, and there is nothing else. -/
structure LaidOut (v : Volume) (bins : List (List Bytes)) : Prop where
  size : v.size = bins.length + 2
  pages : ∀ b bin, bins[b]? = some bin →
    ∀ slot : SlotId, v.record? ⟨Packing.page b, slot⟩ = bin[slot.toNat]?

theorem toNat_page {b : Nat} (hb : 2 + b < 2 ^ 32) : (Packing.page b).val.toNat = 2 + b :=
  toNat_ofNat hb

/-- The last page is that of the last bin. -/
theorem LaidOut.eq_page (hlaid : v.LaidOut p.bins) (hsize : v.size < 2 ^ 32) {page : PageId}
    (hlast : v.IsLast page) : page = Packing.page p.closed.length := by
  have hcount := hlaid.size
  rw [Packing.length_bins] at hcount
  apply eq_of_toNat
  rw [toNat_page (by omega)]
  unfold IsLast at hlast
  omega

/-- The page of a bin is a data page. -/
theorem LaidOut.isData (hlaid : v.LaidOut bins) (hsize : v.size < 2 ^ 32) {b : Nat}
    (hb : b < bins.length) : v.IsData (Packing.page b) := by
  have hcount := hlaid.size
  unfold IsData
  rw [toNat_page (by omega)]
  omega

/-- The page of a bin holds the bin. -/
theorem LaidOut.holdsBin (hlaid : v.LaidOut bins) (hsize : v.size < 2 ^ 32) {b : Nat}
    {bin : List Bytes} (hb : bins[b]? = some bin) :
    (v.data (Packing.page b)).HoldsBin bin := by
  intro slot
  have hdata := hlaid.isData hsize (List.getElem?_eq_some_iff.1 hb).1
  have hrecord : v.record? ⟨Packing.page b, slot⟩ = (v.data (Packing.page b)).record? slot :=
    record?_of_isData hdata
  rw [← hrecord]
  exact hlaid.pages b bin hb slot

/-- The last page holds the last bin. -/
theorem LaidOut.holdsBin_last (hlaid : v.LaidOut p.bins) (hv : v.IsHeap h) :
    (v.data h.lastPage).HoldsBin p.last := by
  rw [hlaid.eq_page hv.size_lt hv.isLast]
  exact hlaid.holdsBin hv.size_lt p.getElem?_bins_last

/-- A record fits on the page of a bin exactly if it fits into the bin. -/
theorem LaidOut.fits_iff (hlaid : v.LaidOut bins) (hv : v.IsHeap h) {b : Nat} {bin : List Bytes}
    (hb : bins[b]? = some bin) (record : Bytes) :
    Packing.load bin + Packing.itemSize record ≤ Packing.binSize ↔
      (v.data (Packing.page b)).neededFor record ≤ (v.data (Packing.page b)).freeSpace +
        (v.data (Packing.page b)).header.fragmented.toNat := by
  have hdata := hlaid.isData hv.size_lt (List.getElem?_eq_some_iff.1 hb).1
  exact ((hv.wellFormed _ hdata).neededFor_le_iff_of_holdsBin (hlaid.holdsBin hv.size_lt hb)
    record).symm

/-- A file without records is laid out by one bin without records. -/
theorem laidOut_empty (hsize : v.size = 3) (hnone : ∀ rid, v.record? rid = none) :
    v.LaidOut Packing.empty.bins where
  size := hsize
  pages b bin hb slot := by
    have hmem : bin ∈ Packing.empty.bins := List.mem_of_getElem? hb
    obtain rfl : bin = [] := List.mem_singleton.1 hmem
    rw [hnone]
    rfl

/-- A heap file that is laid out by a packing is described by it. -/
theorem LaidOut.describes (hlaid : v.LaidOut p.bins) (hv : v.IsHeap h)
    (hfilled : v.Filled [p.rows]) :
    p.Describes h v := by
  have hcount := hlaid.size
  have hpages := hv.pages
  have hlast := hv.last
  have hlive (rid : RecordId) (record : Bytes) : v.record? rid = some record ↔
      (rid, record) ∈ p.rows := by
    rw [hfilled.records, List.flatten_singleton]
  have hrows : v.rows = p.rows := by
    refine hv.sorted_rows.eq_of_mem_iff (hfilled.each _ (List.mem_singleton_self _)) fun row => ?_
    rw [hv.mem_rows]
    exact hlive row.1 row.2
  refine ⟨by omega, by omega, ?_, hrows, hlive, fun b bin hb index hindex => ⟨?_, ?_⟩⟩
  · rw [hv.records, ← hv.length_listing, ← hv.length_rows, hrows]
  · have hlt := (List.getElem?_eq_some_iff.1 hb).1
    have hsize := hv.size_lt
    exact toNat_page (by omega)
  · -- every record of the bin takes an entry of the directory of its page
    have hdata := hlaid.isData hv.size_lt (List.getElem?_eq_some_iff.1 hb).1
    have hslots := (hv.wellFormed _ hdata).slotCount_of_holdsBin (hlaid.holdsBin hv.size_lt hb)
    have hfew := (v.data (Packing.page b)).slotCount_lt
    exact UInt16.toNat_ofNat_of_lt' (hindex.trans (hslots ▸ hfew))

section Insert

variable {closed : List (List Bytes)} {bin : List Bytes} {b : Nat} {rid : RecordId} {record : Bytes}
variable (hfresh : v.record? rid = none)
  (hbelow : ∀ slot < rid.slot, v.record? ⟨rid.page, slot⟩ ≠ none)
include hfresh hbelow

/-- A new record on the page of a bin has the place behind those of the bin. -/
theorem eq_address (hbin : ∀ slot : SlotId, v.record? ⟨Packing.page b, slot⟩ = bin[slot.toNat]?)
    (hpage : rid.page = Packing.page b) :
    rid = Packing.address b bin.length ∧ rid.slot.toNat = bin.length := by
  obtain ⟨page, slot⟩ := rid
  obtain rfl : page = Packing.page b := hpage
  have hslot : slot.toNat = bin.length := by
    apply Nat.le_antisymm
    · by_contra hlater
      have hlt : bin.length < slot.toNat := Nat.lt_of_not_le hlater
      have hnat : (UInt16.ofNat bin.length).toNat = bin.length :=
        UInt16.toNat_ofNat_of_lt' (hlt.trans slot.toNat_lt)
      refine hbelow (UInt16.ofNat bin.length) ?_ ?_
      · rw [UInt16.lt_iff_toNat_lt, hnat]
        exact hlt
      · rw [hbin, hnat]
        exact List.getElem?_eq_none (Nat.le_refl _)
    · rw [hbin, List.getElem?_eq_none_iff] at hfresh
      exact hfresh
  refine ⟨?_, hslot⟩
  unfold Packing.address
  rw [← hslot, UInt16.ofNat_toNat]

/-- A record is added to the bin of the last page. -/
theorem laidOut_concat
    (hlast : ∀ slot : SlotId, v.record? ⟨Packing.page closed.length, slot⟩ = bin[slot.toNat]?)
    (hpage : rid.page = Packing.page closed.length) (hclosed : ∀ b bin, closed[b]? = some bin →
      ∀ slot : SlotId, v.record? ⟨Packing.page b, slot⟩ = bin[slot.toNat]?)
    (hrecord : w.record? = Function.update v.record? rid (some record))
    (hsize : w.size = closed.length + 3) (hsmall : w.size < 2 ^ 32) :
    w.LaidOut (closed ++ [bin ++ [record]]) := by
  obtain ⟨haddress, hslot⟩ := eq_address hfresh hbelow hlast hpage
  refine ⟨?_, fun b bin' hb slot => ?_⟩
  · rw [hsize, List.length_append, List.length_singleton]
  rw [hrecord]
  rcases Nat.lt_or_ge b closed.length with hlt | hge
  · rw [List.getElem?_append_left hlt] at hb
    rw [Function.update_of_ne, hclosed b bin' hb]
    rintro rfl
    have heq := congrArg (fun page : PageId => page.val.toNat) hpage
    simp only [toNat_page (b := b) (by omega), toNat_page (b := closed.length) (by omega)] at heq
    omega
  · obtain rfl : b = closed.length := by
      have hb' := (List.getElem?_eq_some_iff.1 hb).1
      rw [List.length_append, List.length_singleton] at hb'
      omega
    rw [List.getElem?_append_right hge, Nat.sub_self] at hb
    obtain rfl := Option.some.inj hb
    by_cases hsame : slot = rid.slot
    · subst hsame
      have hrid : (⟨Packing.page closed.length, rid.slot⟩ : RecordId) = rid := by rw [← hpage]
      rw [hrid, Function.update_self, hslot, List.getElem?_append_right (Nat.le_refl _),
        Nat.sub_self]
      rfl
    · rw [Function.update_of_ne (fun heq => hsame (congrArg RecordId.slot heq)), hlast]
      have hne : slot.toNat ≠ bin.length := fun heq =>
        hsame (UInt16.toNat_inj.1 (heq.trans hslot.symm))
      rcases Nat.lt_or_gt_of_ne hne with hlt | hgt
      · rw [List.getElem?_append_left hlt]
      · rw [List.getElem?_eq_none (Nat.le_of_lt hgt), List.getElem?_eq_none]
        rw [List.length_append, List.length_singleton]
        exact hgt

end Insert

end Volume

/-! ## Inserting into a file that is laid out by a packing -/

namespace HeapFile

variable {σ : Type} [PageStore σ] {law : PageStore.Reliable σ} {rest : Multiset Pin}
variable {s s' : HeapState σ} {p : Packing} {record : Bytes} {rid : RecordId}

/-- A record that fits into the bin of the current page is added behind it, and the file does not
grow. -/
theorem ensures_insert_of_bin {header : HeapHeader} {bins : List (List Bytes)} {bin : List Bytes}
    {b : Nat} (h : Attached law rest s) (hv : (volume law s).IsHeap header)
    (hlaid : (volume law s).LaidOut bins) (hb : bins[b]? = some bin)
    (hcurrent : s.heap.currentPage? = some (Packing.page b)) (hlen : record.length ≤ maxRecordSize)
    (hsmall : (volume law s).Small)
    (hfits : Packing.load bin + Packing.itemSize record ≤ Packing.binSize) :
    (insert record).Ensures s (fun rid s' => rid = Packing.address b bin.length ∧
      Added law rest record s rid s' ∧ (volume law s').size = (volume law s).size) Never := by
  obtain ⟨pin, hpin, hpage⟩ := Option.map_eq_some_iff.1 hcurrent
  have hdata := hlaid.isData hv.size_lt (List.getElem?_eq_some_iff.1 hb).1
  have hroom := (hlaid.fits_iff hv hb record).1 hfits
  rw [← hpage] at hdata hroom
  unfold HeapFile.insert insertWithin
  rw [if_neg (Nat.not_lt.2 hlen), ensures_bind, ensures_get, hpin]
  simp only [Option.isNone_some, Bool.false_eq_true, if_false]
  rw [ensures_bind]
  refine (ensures_tryInsert_of_fits h hv hpin hdata hlen hsmall.records hroom).mono ?_ fun _ _ => id
  rintro _ s' ⟨rid, rfl, hadded, hsize, hrid⟩
  obtain ⟨haddress, -⟩ :=
    Volume.eq_address hadded.fresh hadded.below (hlaid.pages b bin hb) (hrid.trans hpage)
  exact ⟨haddress, hadded, hsize⟩

/-- An open heap file that is laid out by a packing, and at its last page. -/
structure Packed (law : PageStore.Reliable σ) (rest : Multiset Pin) (p : Packing)
    (s : HeapState σ) : Prop where
  attached : Attached law rest s
  heap : ∃ header, (volume law s).IsHeap header
  laid : (volume law s).LaidOut p.bins
  /-- Nothing else was inserted. -/
  filled : (volume law s).Filled [p.rows]
  current : s.heap.currentPage? = some (Packing.page p.closed.length)

namespace Packed

section Insert

variable (h : Packed law rest p s)
include h

/-- The current page is the last one. -/
theorem exists_current {header : HeapHeader} (hv : (volume law s).IsHeap header) :
    ∃ pin, s.heap.current = some pin ∧ pin.key.page = header.lastPage := by
  obtain ⟨pin, hcurrent, hpin⟩ := Option.map_eq_some_iff.1 h.current
  exact ⟨pin, hcurrent, hpin.trans (h.laid.eq_page hv.size_lt hv.isLast).symm⟩

/-- A record that fits is added on the current page, and the file does not grow. -/
theorem ensures_insert_of_fits (hlen : record.length ≤ maxRecordSize)
    (hsmall : (volume law s).Small) (hfits : p.Fits record) :
    (insert record).Ensures s (fun rid s' => Added law rest record s rid s' ∧
      (volume law s').size = (volume law s).size) Never := by
  obtain ⟨header, hv⟩ := h.heap
  exact (ensures_insert_of_bin h.attached hv h.laid p.getElem?_bins_last h.current hlen hsmall
    hfits).mono (fun _ _ => And.right) fun _ _ => id

/-- A record that is added goes behind all others. -/
theorem filled_of_added (hadded : Added law rest record s rid s') :
    (volume law s').Filled [p.rows ++ [(rid, record)]] := by
  obtain ⟨header, hv⟩ := h.heap
  have hgoes : (volume law s).GoesOn p.rows rid.page := by
    rcases hadded.place with ⟨-, hcurrent⟩ | hlast
    · obtain heq := Option.some.inj (hcurrent.symm.trans h.current)
      rw [heq, ← h.laid.eq_page hv.size_lt hv.isLast]
      exact Volume.goesOn_last hv.isLast
    · exact Volume.goesOn_of_last hadded.record? hlast
  have hfilled : (volume law s).Filled ([] ++ [p.rows]) := h.filled
  exact hfilled.insert hadded.fresh hgoes hadded.below hadded.record?

/-- A record that was added on the current page goes behind those of the last bin. -/
theorem packed_of_same (hadded : Added law rest record s rid s')
    (hsize : (volume law s').size = (volume law s).size) :
    rid = Packing.address p.closed.length p.last.length ∧
      Packed law rest ⟨p.closed, p.last ++ [record]⟩ s' := by
  obtain ⟨header, hv⟩ := h.heap
  obtain ⟨header', hv'⟩ := hadded.moves.heap
  have hcount := h.laid.size
  rw [Packing.length_bins] at hcount
  have hpage : rid.page = Packing.page p.closed.length := by
    rcases hadded.place with ⟨-, hcurrent⟩ | hlast
    · exact Option.some.inj (hcurrent.symm.trans h.current)
    · exact h.laid.eq_page hv.size_lt (hlast.trans hsize)
  have hlast := h.laid.pages _ _ p.getElem?_bins_last
  have hclosed (b : Nat) (bin : List Bytes) (hb : p.closed[b]? = some bin) :
      ∀ slot : SlotId, (volume law s).record? ⟨Packing.page b, slot⟩ = bin[slot.toNat]? := by
    refine h.laid.pages b bin ?_
    unfold Packing.bins
    rw [List.getElem?_append_left (List.getElem?_eq_some_iff.1 hb).1]
    exact hb
  obtain ⟨hrid, -⟩ := Volume.eq_address hadded.fresh hadded.below hlast hpage
  refine ⟨hrid, hadded.moves.attached, ⟨header', hv'⟩, ?_, ?_, ?_⟩
  · exact Volume.laidOut_concat hadded.fresh hadded.below hlast hpage hclosed hadded.record?
      (hsize.trans hcount) hv'.size_lt
  · rw [p.rows_concat_last record, ← hrid]
    exact h.filled_of_added hadded
  · rw [hadded.current, hpage]

/-- A record that was added on a new page is the first one of a new bin. -/
theorem packed_of_grown (hadded : Added law rest record s rid s')
    (hsize : (volume law s').size = (volume law s).size + 1) :
    rid = Packing.address (p.closed.length + 1) 0 ∧ Packed law rest ⟨p.bins, [record]⟩ s' := by
  obtain ⟨header, hv⟩ := h.heap
  obtain ⟨header', hv'⟩ := hadded.moves.heap
  have hcount := h.laid.size
  have hnumber := p.length_bins
  have hbound := hv'.size_lt
  have hpage : rid.page = Packing.page p.bins.length := by
    rcases hadded.place with ⟨hsame, -⟩ | hlast
    · omega
    · apply Volume.eq_of_toNat
      rw [Volume.toNat_page (by omega)]
      unfold Volume.IsLast at hlast
      omega
  have hlast (slot : SlotId) : (volume law s).record? ⟨Packing.page p.bins.length, slot⟩ =
      ([] : List Bytes)[slot.toNat]? := by
    refine Volume.record?_of_not_isData fun hdata => ?_
    have hlt := hdata.2
    rw [Volume.toNat_page (by omega)] at hlt
    omega
  obtain ⟨hrid, -⟩ := Volume.eq_address hadded.fresh hadded.below hlast hpage
  rw [hnumber, List.length_nil] at hrid
  refine ⟨hrid, hadded.moves.attached, ⟨header', hv'⟩, ?_, ?_, ?_⟩
  · refine Volume.laidOut_concat hadded.fresh hadded.below hlast hpage h.laid.pages hadded.record?
      ?_ hv'.size_lt
    omega
  · rw [p.rows_concat_bin record, ← hrid]
    exact h.filled_of_added hadded
  · rw [hadded.current, hpage]

/-- A file in which a record fits on no page that it has keeps its pages. -/
theorem size_le_of_added (hlen : record.length ≤ maxRecordSize) (hfull : ¬p.Fits record)
    (hadded : Added law rest record s rid s') : (volume law s).size ≤ (volume law s').size := by
  have hcount := h.laid.size
  have hlast : (volume law s).record? ⟨Packing.page p.closed.length, 0⟩ = p.last[0]? :=
    h.laid.pages _ _ p.getElem?_bins_last 0
  have hpos := List.length_pos_of_ne_nil (Packing.last_ne_nil hlen hfull)
  rw [List.getElem?_eq_getElem hpos] at hlast
  have hne : (⟨Packing.page p.closed.length, 0⟩ : RecordId) ≠ rid := by
    rintro rfl
    rw [hadded.fresh] at hlast
    cases hlast
  -- the first record of the last bin is still there
  have hkept : (volume law s').record? ⟨Packing.page p.closed.length, 0⟩ = some p.last[0] := by
    rw [hadded.record?, Function.update_of_ne hne]
    exact hlast
  have hdata := (Volume.isData_of_record? hkept).2
  obtain ⟨header, hv⟩ := h.heap
  have hbound := hv.size_lt
  rw [Packing.length_bins] at hcount
  rw [Volume.toNat_page (by omega)] at hdata
  omega

/-- What is added goes where the packing puts it. -/
theorem packed_of_added (hlen : record.length ≤ maxRecordSize)
    (hadded : Added law rest record s rid s')
    (hgrows : p.Fits record → (volume law s').size = (volume law s).size) :
    rid = p.place record ∧ Packed law rest (p.add record) s' := by
  unfold Packing.place Packing.add
  by_cases hfits : p.Fits record
  · rw [if_pos hfits, if_pos hfits]
    exact h.packed_of_same hadded (hgrows hfits)
  · rw [if_neg hfits, if_neg hfits]
    refine h.packed_of_grown hadded (Nat.le_antisymm hadded.size ?_)
    by_contra hless
    -- the last page would hold the last bin with the record
    have hle := h.size_le_of_added hlen hfits hadded
    have hsame : (volume law s').size = (volume law s).size := by omega
    obtain ⟨-, hpacked⟩ := h.packed_of_same hadded hsame
    obtain ⟨header', hv'⟩ := hpacked.heap
    have hload := (hv'.wellFormed _ hv'.isData_last).load_le_of_holdsBin
      (hpacked.laid.holdsBin_last hv')
    rw [Packing.load_concat] at hload
    exact hfits hload

/-- An insert puts the record where the packing does, or every frame is pinned. -/
theorem ensures_insert (hlen : record.length ≤ maxRecordSize) (hsmall : (volume law s).Small) :
    (insert record).Ensures s
      (fun rid s' => rid = p.place record ∧ Packed law rest (p.add record) s' ∧
        Added law rest record s rid s')
      (fun e _ => e = .bufferPoolExhausted) := by
  obtain ⟨header, hv⟩ := h.heap
  by_cases hfits : p.Fits record
  · refine (h.ensures_insert_of_fits hlen hsmall hfits).mono ?_ fun _ _ => False.elim
    rintro rid s' ⟨hadded, hsize⟩
    obtain ⟨hrid, hpacked⟩ := h.packed_of_added hlen hadded fun _ => hsize
    exact ⟨hrid, hpacked, hadded⟩
  · refine (HeapFile.ensures_insert h.attached hv hsmall record).mono ?_ ?_
    · intro rid s' hadded
      obtain ⟨hrid, hpacked⟩ := h.packed_of_added hlen hadded fun hfits' => absurd hfits' hfits
      exact ⟨hrid, hpacked, hadded⟩
    · rintro e s' ⟨-, hcause, -⟩
      refine hcause hlen fun pin hcurrent => ?_
      obtain ⟨_, hsame, hlast⟩ := h.exists_current hv
      cases hcurrent.symm.trans hsame
      exact hlast ▸ hv.isData_last

end Insert

end Packed

end HeapFile

end PagedHeap
