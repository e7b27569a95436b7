import Mathlib.Algebra.BigOperators.Intervals
import PagedHeap.Proofs.Heap.Header
import PagedHeap.Proofs.Page.Change
import PagedHeap.Proofs.Pool.Volume

/-!
# A heap file as a volume

The pages of a heap file are numbered in the order of its chain: page one has the header, and every
page from the second on is a data page that links to the one behind it.  `Volume.IsHeap` says so,
together with what the header says about the chain and about the number of records.

As a whole a heap file is the map `Volume.record?` from addresses to bytes.
-/

namespace PagedHeap

/-- The data page that the bytes of a page stand for. -/
def SlottedPage.ofPage (data : Page) : SlottedPage :=
  ⟨data, (DataHeader.read? data).getD (.empty .header)⟩

/-- A page that can be read as a data page stands for what is read. -/
theorem SlottedPage.ofPage_of_read {data : Page} {p : SlottedPage}
    (h : SlottedPage.read data = .ok p) : ofPage data = p := by
  unfold SlottedPage.read ofBlock at h
  rw [dif_pos rfl] at h
  simp only [Vector.cast_rfl] at h
  unfold ofPage
  cases hread : DataHeader.read? data with
  | none =>
    rw [hread] at h
    cases h
  | some header =>
    rw [hread] at h
    simp only at h
    split at h
    · cases h
    · split at h
      · cases h
      · exact Except.ok.inj h

/-- A page of another kind is not read as a data page. -/
theorem SlottedPage.read_of_byteAt_zero {data : Page}
    (h : PageKind.ofByte? (data.byteAt 0) ≠ some .heapData) :
    ∃ reason, SlottedPage.read data = .error (.error (.invalidPage reason)) := by
  unfold SlottedPage.read ofBlock
  rw [dif_pos rfl]
  simp only [Vector.cast_rfl]
  unfold DataHeader.read?
  rw [if_neg (by decide)]
  cases hkind : PageKind.ofByte? (data.byteAt 0) with
  | none => exact ⟨_, rfl⟩
  | some kind =>
    have hne : kind ≠ .heapData := fun heq => h (heq ▸ hkind)
    simp only [Option.map_some, hne, ne_eq, not_false_eq_true, if_true]
    exact ⟨_, rfl⟩

/-- A page with a header of a heap file is not a data page. -/
theorem HeapHeader.byteAt_zero_of_read {n : Nat} {b : Block n} {h : HeapHeader}
    (hread : HeapHeader.read b = .ok h) : PageKind.ofByte? (b.byteAt 0) = some .heapHeader := by
  unfold HeapHeader.read at hread
  split at hread
  · cases hread
  · split at hread
    · cases hread
    · next hkind => exact not_not.1 fun hne => hkind (.inl hne)

namespace Volume

variable {v w : Volume} {h h' : HeapHeader} {p : PageId}

/-- The data page with the given number. -/
def data (v : Volume) (p : PageId) : SlottedPage := .ofPage (v.page p)

/-- Whether this is the number of a data page. -/
def IsData (v : Volume) (p : PageId) : Prop := 2 ≤ p.val.toNat ∧ p.val.toNat < v.size

instance (v : Volume) (p : PageId) : Decidable (v.IsData p) := inferInstanceAs (Decidable (_ ∧ _))

/-- The number of the page behind a page, if there is one. -/
def nextOf (v : Volume) (p : PageId) : Option PageId :=
  if p.val.toNat + 1 < v.size then some ⟨UInt32.ofNat (p.val.toNat + 1)⟩ else none

/-- The number of live records on all data pages. -/
def recordCount (v : Volume) : Nat :=
  ∑ i ∈ Finset.Ico 2 v.size, (v.data ⟨UInt32.ofNat i⟩).recordCount

/-- The bytes of the record at an address, if there is one. -/
def record? (v : Volume) (rid : RecordId) : Option Bytes :=
  if v.IsData rid.page then (v.data rid.page).record? rid.slot else none

/-- The volume is a heap file with the given header. -/
structure IsHeap (v : Volume) (h : HeapHeader) : Prop where
  /-- The header is stored on the first page. -/
  header : HeapHeader.read (v.page ⟨1⟩) = .ok h
  /-- It can be stored again. -/
  valid : h.Valid
  /-- The first data page is the one behind it. -/
  first : h.firstPage = ⟨2⟩
  /-- The last page of the chain is that of the file. -/
  last : h.lastPage.val.toNat + 1 = v.size
  /-- All pages but the first two are data pages. -/
  pages : h.pageCount.toNat + 2 = v.size
  /-- There is a data page. -/
  three_le : 3 ≤ v.size
  /-- Every page has a number. -/
  size_lt : v.size < 2 ^ 32
  /-- Data pages are in order. -/
  wellFormed : ∀ p, v.IsData p → (v.data p).WellFormed
  /-- Data pages know their numbers. -/
  number : ∀ p, v.IsData p → (v.data p).page = p
  /-- Every data page links to the one behind it. -/
  next : ∀ p, v.IsData p → (v.data p).next = v.nextOf p
  /-- The header counts the records. -/
  records : h.recordCount.toNat = v.recordCount

theorem nextOf_ne_invalid (hsize : v.size < 2 ^ 32) : v.nextOf p ≠ some .invalid := by
  unfold nextOf
  split
  · next hlt =>
    intro heq
    have hval : UInt32.ofNat (p.val.toNat + 1) = 0xFFFFFFFF :=
      congrArg PageId.val (Option.some.inj heq)
    have hnat := congrArg UInt32.toNat hval
    rw [UInt32.toNat_ofNat_of_lt' (by simp only [UInt32.size]; omega)] at hnat
    have : (0xFFFFFFFF : UInt32).toNat = 2 ^ 32 - 1 := rfl
    omega
  · nofun

theorem ofNat_toNat (p : PageId) : (⟨UInt32.ofNat p.val.toNat⟩ : PageId) = p := by
  rw [UInt32.ofNat_toNat]

/-- The number of a data page is not that of the header page. -/
theorem IsData.ne_one (hp : v.IsData p) : p ≠ ⟨1⟩ := by
  rintro rfl
  exact absurd hp.1 (by decide)

/-- A page of the file is the header page or a data page. -/
theorem eq_one_of_not_isData (hhas : v.Has p) (hp : ¬v.IsData p) : p = ⟨1⟩ := by
  have hone : p.val.toNat = 1 := by
    have := hhas.1
    by_contra hne
    exact hp ⟨by omega, hhas.2⟩
  obtain ⟨val⟩ := p
  exact congrArg PageId.mk (UInt32.toNat_inj.1 hone)

theorem IsData.has (hp : v.IsData p) : v.Has p := ⟨by have := hp.1; omega, hp.2⟩

theorem data_store_self (v : Volume) (p : PageId) {q : SlottedPage}
    (hread : SlottedPage.read q.data = .ok q) : (v.store p q.data).data p = q := by
  unfold data
  rw [page_store_self]
  exact SlottedPage.ofPage_of_read hread

theorem data_store_of_ne (v : Volume) {o p : PageId} (hop : o ≠ p) (page : Page) :
    (v.store p page).data o = v.data o := by
  unfold data
  rw [page_store_of_ne v hop]

theorem page_grow_of_ne (v : Volume) {o : PageId} (ho : o ≠ ⟨UInt32.ofNat v.size⟩) :
    v.grow.page o = v.page o := Function.update_of_ne ho _ _

theorem data_grow_of_ne (v : Volume) {o : PageId} (ho : o ≠ ⟨UInt32.ofNat v.size⟩) :
    v.grow.data o = v.data o := by
  unfold data
  rw [page_grow_of_ne v ho]

/-- The volume has room for one more page and one more record. -/
structure Small (v : Volume) : Prop where
  size : v.size + 1 < 2 ^ 32
  records : v.recordCount + 1 < 2 ^ 32

/-- There is room in a volume of few pages. -/
theorem small_of_size (hsize : v.size ≤ 2 ^ 16) : v.Small := by
  have hle : v.recordCount ≤ (v.size - 2) * (2 ^ 16 - 1) := by
    unfold recordCount
    refine (Finset.sum_le_card_nsmul _ _ (2 ^ 16 - 1) fun i _ => ?_).trans ?_
    · exact Nat.le_sub_one_of_lt (SlottedPage.recordCount_lt _)
    · rw [Nat.card_Ico]
      exact Nat.le_refl _
  have hmul : (v.size - 2) * (2 ^ 16 - 1) ≤ 2 ^ 16 * (2 ^ 16 - 1) :=
    Nat.mul_le_mul_right _ (by omega)
  exact ⟨by omega, by omega⟩

/-! ## Reading pages of a heap file -/

/-- The data pages of a heap file are read as they are. -/
theorem IsHeap.read_data (hv : v.IsHeap h) (hp : v.IsData p) :
    SlottedPage.read (v.page p) = .ok (v.data p) := by
  have hnext : (v.data p).next ≠ some .invalid := by
    rw [hv.next p hp]
    exact nextOf_ne_invalid hv.size_lt
  exact (hv.wellFormed p hp).read hnext

/-- The header page of a heap file is not read as a data page. -/
theorem IsHeap.read_one (hv : v.IsHeap h) :
    ∃ reason, SlottedPage.read (v.page ⟨1⟩) = .error (.error (.invalidPage reason)) := by
  refine SlottedPage.read_of_byteAt_zero ?_
  rw [HeapHeader.byteAt_zero_of_read hv.header]
  decide

theorem record?_of_isData {rid : RecordId} (hp : v.IsData rid.page) :
    v.record? rid = (v.data rid.page).record? rid.slot := if_pos hp

theorem record?_of_not_isData {rid : RecordId} (hp : ¬v.IsData rid.page) : v.record? rid = none :=
  if_neg hp

theorem isData_of_record? {rid : RecordId} {bytes : Bytes} (hr : v.record? rid = some bytes) :
    v.IsData rid.page := by
  by_contra hp
  rw [record?_of_not_isData hp] at hr
  cases hr

/-- The first page of the chain is a data page. -/
theorem IsHeap.isData_two (hv : v.IsHeap h) : v.IsData ⟨2⟩ := by
  have htwo : (2 : UInt32).toNat = 2 := rfl
  have hthree := hv.three_le
  exact ⟨htwo.ge, by rw [htwo]; omega⟩

/-- The last page of the chain is a data page. -/
theorem IsHeap.isData_last (hv : v.IsHeap h) : v.IsData h.lastPage := by
  have hlast := hv.last
  have hthree := hv.three_le
  unfold IsData
  omega

/-- Whether this is the number of the last page. -/
def IsLast (v : Volume) (p : PageId) : Prop := p.val.toNat + 1 = v.size

/-- No data page has a number above that of the last page. -/
theorem IsData.le_last (hp : v.IsData p) {q : PageId} (hq : v.IsLast q) :
    p.val.toNat ≤ q.val.toNat := by
  have hlt := hp.2
  unfold IsLast at hq
  omega

theorem IsHeap.isLast (hv : v.IsHeap h) : v.IsLast h.lastPage := hv.last

/-- There is no page behind the last one. -/
theorem IsHeap.nextOf_last (hv : v.IsHeap h) : v.nextOf h.lastPage = none := by
  unfold nextOf
  rw [if_neg (by rw [hv.last]; exact Nat.lt_irrefl _)]

/-- The number of a page, from its value. -/
theorem toNat_ofNat {n : Nat} (hn : n < 2 ^ 32) : (⟨UInt32.ofNat n⟩ : PageId).val.toNat = n :=
  UInt32.toNat_ofNat_of_lt' hn

theorem eq_of_toNat {p q : PageId} (heq : p.val.toNat = q.val.toNat) : p = q := by
  obtain ⟨p⟩ := p
  obtain ⟨q⟩ := q
  exact congrArg PageId.mk (UInt32.toNat_inj.1 heq)

/-- The page that the header names is the last one. -/
theorem IsHeap.eq_lastPage (hv : v.IsHeap h) (hp : v.IsLast p) : p = h.lastPage :=
  eq_of_toNat (Nat.succ.inj (hp.trans hv.last.symm))

/-! ## A page changes -/

/-- If one data page changes, so does the number of records, by as many. -/
theorem recordCount_add (hp : v.IsData p) (hsize : w.size = v.size) (hsmall : v.size < 2 ^ 32)
    (hothers : ∀ q, v.IsData q → q ≠ p → w.data q = v.data q) :
    w.recordCount + (v.data p).recordCount = v.recordCount + (w.data p).recordCount := by
  have hmem : p.val.toNat ∈ Finset.Ico 2 v.size := Finset.mem_Ico.2 hp
  have hrest : ∀ i ∈ (Finset.Ico 2 v.size).erase p.val.toNat,
      (w.data ⟨UInt32.ofNat i⟩).recordCount = (v.data ⟨UInt32.ofNat i⟩).recordCount := by
    intro i hi
    obtain ⟨hne, hi⟩ := Finset.mem_erase.1 hi
    obtain ⟨hlo, hhi⟩ := Finset.mem_Ico.1 hi
    have hval := toNat_ofNat (n := i) (by omega)
    rw [hothers ⟨UInt32.ofNat i⟩ ⟨by rw [hval]; exact hlo, by rw [hval]; exact hhi⟩]
    rintro rfl
    exact hne hval.symm
  unfold recordCount
  rw [hsize, ← Finset.add_sum_erase _ _ hmem, ← Finset.add_sum_erase _ _ hmem,
    Finset.sum_congr rfl hrest, ofNat_toNat]
  omega

/-- A data page has no more records than all of them. -/
theorem recordCount_le (hp : v.IsData p) : (v.data p).recordCount ≤ v.recordCount := by
  have hle := Finset.single_le_sum (s := Finset.Ico 2 v.size)
    (f := fun i => (v.data ⟨UInt32.ofNat i⟩).recordCount) (fun _ _ => Nat.zero_le _)
    (Finset.mem_Ico.2 hp)
  simp only [ofNat_toNat] at hle
  exact hle

/-- A data page of a heap file may be replaced by one with the same number and the same link, if the
header counts the records of the new one. -/
theorem IsHeap.change (hv : v.IsHeap h) (hp : v.IsData p) {q : SlottedPage} {count : UInt32}
    (hq : q.WellFormed) (hnumber : q.page = p) (hnext : q.next = (v.data p).next)
    (hsize : w.size = v.size) (hdata : w.data p = q)
    (hothers : ∀ o, v.IsData o → o ≠ p → w.data o = v.data o)
    (hheader : HeapHeader.read (w.page ⟨1⟩) = .ok { h with recordCount := count })
    (hcount : count.toNat + (v.data p).recordCount = h.recordCount.toNat + q.recordCount) :
    w.IsHeap { h with recordCount := count } := by
  have hdatas : ∀ o, w.IsData o ↔ v.IsData o := fun o => by unfold IsData; rw [hsize]
  have hnexts : ∀ o, w.nextOf o = v.nextOf o := fun o => by unfold nextOf; rw [hsize]
  have hcases : ∀ o, v.IsData o → (o = p ∧ w.data o = q) ∨ w.data o = v.data o := fun o ho => by
    by_cases hop : o = p
    · exact .inl ⟨hop, hop ▸ hdata⟩
    · exact .inr (hothers o ho hop)
  refine ⟨hheader, ⟨hv.valid.name_pos, hv.valid.name_le, hv.valid.first, hv.valid.last⟩, hv.first,
    hsize ▸ hv.last, hsize ▸ hv.pages, hsize ▸ hv.three_le, hsize ▸ hv.size_lt, fun o ho => ?_,
    fun o ho => ?_, fun o ho => ?_, ?_⟩
  · rcases hcases o ((hdatas o).1 ho) with ⟨-, heq⟩ | heq
    · exact heq ▸ hq
    · exact heq ▸ hv.wellFormed o ((hdatas o).1 ho)
  · rcases hcases o ((hdatas o).1 ho) with ⟨rfl, heq⟩ | heq
    · rw [heq, hnumber]
    · rw [heq, hv.number o ((hdatas o).1 ho)]
  · rcases hcases o ((hdatas o).1 ho) with ⟨rfl, heq⟩ | heq
    · rw [heq, hnext, hv.next o hp, hnexts]
    · rw [heq, hv.next o ((hdatas o).1 ho), hnexts]
  · have hadd := recordCount_add hp hsize hv.size_lt hothers
    rw [hdata] at hadd
    have hrecords := hv.records
    simp only
    omega

/-- The records of a volume one of whose data pages changed. -/
theorem record?_change (hp : v.IsData p) {slot : SlotId} {value : Option Bytes}
    (hsize : w.size = v.size)
    (hothers : ∀ o, v.IsData o → o ≠ p → w.data o = v.data o)
    (hrecord : (w.data p).record? = Function.update (v.data p).record? slot value) :
    w.record? = Function.update v.record? ⟨p, slot⟩ value := by
  funext ⟨o, s⟩
  have hdatas : w.IsData o ↔ v.IsData o := by unfold IsData; rw [hsize]
  by_cases ho : v.IsData o
  · have hw : w.record? ⟨o, s⟩ = (w.data o).record? s := record?_of_isData (hdatas.2 ho)
    have hv : v.record? ⟨o, s⟩ = (v.data o).record? s := record?_of_isData ho
    by_cases hop : o = p
    · subst hop
      by_cases hs : s = slot
      · rw [hs, Function.update_self, ← hs, hw, hrecord, hs, Function.update_self]
      · rw [Function.update_of_ne fun heq => hs (congrArg RecordId.slot heq), hw, hv, hrecord,
          Function.update_of_ne hs]
    · rw [Function.update_of_ne fun heq => hop (congrArg RecordId.page heq), hw, hv,
        hothers o ho hop]
  · have hop : o ≠ p := fun heq => ho (heq ▸ hp)
    rw [Function.update_of_ne fun heq => hop (congrArg RecordId.page heq),
      record?_of_not_isData (v := v) ho, record?_of_not_isData fun hw => ho (hdatas.1 hw)]

section Changed

variable {q : SlottedPage} (hv : v.IsHeap h) (hp : v.IsData p) (hq : q.WellFormed)
  (hnumber : q.page = (v.data p).page) (hnext : q.next = (v.data p).next)
include hv hp hq hnext

/-- A page that takes the place of a data page is read as it is. -/
theorem IsHeap.read_changed : SlottedPage.read q.data = .ok q := by
  refine hq.read ?_
  rw [hnext, hv.next p hp]
  exact nextOf_ne_invalid hv.size_lt

/-- The records after a change of one data page. -/
theorem IsHeap.record?_store {slot : SlotId} {value : Option Bytes}
    (hrecord : q.record? = Function.update (v.data p).record? slot value) :
    (v.store p q.data).record? = Function.update v.record? ⟨p, slot⟩ value := by
  have hread := hv.read_changed hp hq hnext
  refine record?_change hp rfl (fun o _ hop => data_store_of_ne v hop _) ?_
  rw [data_store_self v p hread, hrecord]

include hnumber

/-- A data page changes without a change of the number of records. -/
theorem IsHeap.store (hcount : q.recordCount = (v.data p).recordCount) :
    (v.store p q.data).IsHeap h := by
  have hread := hv.read_changed hp hq hnext
  refine hv.change hp hq (hnumber.trans (hv.number p hp)) hnext rfl (data_store_self v p hread)
    (fun o _ hop => data_store_of_ne v hop _) ?_ (by rw [hcount])
  rw [page_store_of_ne v hp.ne_one.symm]
  exact hv.header

/-- A data page changes, and the header counts its records. -/
theorem IsHeap.store_store {count : UInt32} {headerPage : Page}
    (hheader : HeapHeader.read headerPage = .ok { h with recordCount := count })
    (hcount : count.toNat + (v.data p).recordCount = h.recordCount.toNat + q.recordCount) :
    ((v.store p q.data).store ⟨1⟩ headerPage).IsHeap { h with recordCount := count } := by
  have hread := hv.read_changed hp hq hnext
  refine hv.change hp hq (hnumber.trans (hv.number p hp)) hnext rfl ?_
    (fun o ho hop => ?_) ?_ hcount
  · rw [data_store_of_ne _ hp.ne_one, data_store_self v p hread]
  · rw [data_store_of_ne _ ho.ne_one, data_store_of_ne v hop]
  · rw [page_store_self]
    exact hheader

end Changed

/-- The header page holds no records. -/
theorem record?_store_one (v : Volume) (page : Page) : (v.store ⟨1⟩ page).record? = v.record? := by
  funext rid
  by_cases hp : v.IsData rid.page
  · have hw : (v.store ⟨1⟩ page).IsData rid.page := hp
    rw [record?_of_isData hp, record?_of_isData hw, data_store_of_ne v hp.ne_one]
  · have hw : ¬(v.store ⟨1⟩ page).IsData rid.page := hp
    rw [record?_of_not_isData hp, record?_of_not_isData hw]

/-! ## A page is added -/

/-- The number of the new page is not the one that stands for no page. -/
theorem new_ne_invalid (hsmall : v.size + 1 < 2 ^ 32) :
    (⟨UInt32.ofNat v.size⟩ : PageId) ≠ .invalid := fun heq => by
  have hval := congrArg (fun p : PageId => p.val.toNat) heq
  simp only [toNat_ofNat (n := v.size) (by omega)] at hval
  have hinvalid : PageId.invalid.val.toNat = 2 ^ 32 - 1 := rfl
  omega

section Append

variable {tail : SlottedPage} (hv : v.IsHeap h) (hsmall : v.size + 1 < 2 ^ 32)
  (hsize : w.size = v.size + 1) (hlast : w.data h.lastPage = tail)
  (hnew : w.data ⟨UInt32.ofNat v.size⟩ = .empty ⟨UInt32.ofNat v.size⟩)
  (hothers : ∀ o, v.IsData o → o ≠ h.lastPage → w.data o = v.data o)
  (hrecord : tail.record? = (v.data h.lastPage).record?)
include hv hsmall hsize hlast hnew hothers hrecord

omit hv hlast hnew hothers hrecord in
/-- The data pages are the old ones and the new one. -/
theorem isData_append {o : PageId} (ho : w.IsData o) :
    v.IsData o ∨ o = ⟨UInt32.ofNat v.size⟩ := by
  by_cases hlt : o.val.toNat < v.size
  · exact .inl ⟨ho.1, hlt⟩
  · have := ho.2
    refine .inr (eq_of_toNat ?_)
    rw [toNat_ofNat (by omega)]
    omega

omit hv in
/-- A new empty page changes no record. -/
theorem record?_append : w.record? = v.record? := by
  funext ⟨o, s⟩
  by_cases ho : v.IsData o
  · have hw : w.IsData o := ⟨ho.1, by have := ho.2; omega⟩
    rw [record?_of_isData hw, record?_of_isData ho]
    by_cases hop : o = h.lastPage
    · subst hop
      rw [hlast, hrecord]
    · rw [hothers o ho hop]
  · rw [record?_of_not_isData (v := v) ho]
    by_cases hw : w.IsData o
    · rcases isData_append hsmall hsize hw with hold | rfl
      · exact absurd hold ho
      · rw [record?_of_isData hw, hnew, SlottedPage.record?_empty]
    · exact record?_of_not_isData hw

omit hsmall hsize hnew hrecord in
/-- The old pages are as they were, except the last one. -/
theorem data_append {o : PageId} (ho : v.IsData o) :
    (o = h.lastPage ∧ w.data o = tail) ∨ (o.val.toNat + 1 < v.size ∧ w.data o = v.data o) := by
  by_cases hop : o = h.lastPage
  · exact .inl ⟨hop, hop ▸ hlast⟩
  · refine .inr ⟨?_, hothers o ho hop⟩
    have hvlast := hv.last
    have hlt := ho.2
    by_contra hnot
    exact hop (eq_of_toNat (by omega))

/-- A new empty page has no record to be counted. -/
theorem recordCount_append (hwell : tail.WellFormed) : w.recordCount = v.recordCount := by
  have hthree := hv.three_le
  have hsame : ∀ i ∈ Finset.Ico 2 v.size,
      (w.data ⟨UInt32.ofNat i⟩).recordCount = (v.data ⟨UInt32.ofNat i⟩).recordCount := by
    intro i hi
    obtain ⟨hlo, hhi⟩ := Finset.mem_Ico.1 hi
    have hi := toNat_ofNat (n := i) (by omega)
    have hold : v.IsData ⟨UInt32.ofNat i⟩ := ⟨by rw [hi]; exact hlo, by rw [hi]; exact hhi⟩
    rcases data_append hv hlast hothers hold with ⟨heq, htail⟩ | ⟨-, heq⟩
    · rw [htail]
      refine (hv.wellFormed _ hold).recordCount_congr hwell fun slot => ?_
      rw [hrecord, heq]
    · rw [heq]
  have hzero : (w.data ⟨UInt32.ofNat v.size⟩).recordCount = 0 := by
    rw [hnew]
    exact SlottedPage.recordCount_empty _
  unfold recordCount
  rw [hsize, Finset.sum_Ico_succ_top (by omega), Finset.sum_congr rfl hsame, hzero, Nat.add_zero]

/-- A new empty page is linked after the last one, and the header says so. -/
theorem IsHeap.append {count : UInt32} (hwell : tail.WellFormed)
    (hnumber : tail.page = h.lastPage) (hnext : tail.next = some ⟨UInt32.ofNat v.size⟩)
    (hcount : count.toNat = h.pageCount.toNat + 1)
    (hheader : HeapHeader.read (w.page ⟨1⟩) =
      .ok { h with lastPage := ⟨UInt32.ofNat v.size⟩, pageCount := count }) :
    w.IsHeap { h with lastPage := ⟨UInt32.ofNat v.size⟩, pageCount := count } := by
  have hval := toNat_ofNat (n := v.size) (by omega)
  have hvlast := hv.last
  have hthree := hv.three_le
  have hpages := hv.pages
  have hvalid : HeapHeader.Valid
      { h with lastPage := ⟨UInt32.ofNat v.size⟩, pageCount := count } :=
    ⟨hv.valid.name_pos, hv.valid.name_le, hv.valid.first, new_ne_invalid hsmall⟩
  refine ⟨hheader, hvalid, hv.first, ?_, ?_, ?_, ?_, fun o ho => ?_, fun o ho => ?_,
    fun o ho => ?_, ?_⟩
  · rw [hsize, hval]
  · simp only
    omega
  · omega
  · omega
  · rcases isData_append hsmall hsize ho with hold | rfl
    · rcases data_append hv hlast hothers hold with ⟨-, heq⟩ | ⟨-, heq⟩
      · exact heq ▸ hwell
      · exact heq ▸ hv.wellFormed o hold
    · rw [hnew]
      exact SlottedPage.wellFormed_empty _
  · rcases isData_append hsmall hsize ho with hold | rfl
    · rcases data_append hv hlast hothers hold with ⟨rfl, heq⟩ | ⟨-, heq⟩
      · rw [heq, hnumber]
      · rw [heq, hv.number o hold]
    · rw [hnew, SlottedPage.page_empty]
  · rcases isData_append hsmall hsize ho with hold | rfl
    · rcases data_append hv hlast hothers hold with ⟨rfl, heq⟩ | ⟨hlt, heq⟩
      · rw [heq, hnext]
        unfold nextOf
        rw [hvlast, hsize, if_pos (Nat.lt_succ_self _)]
      · rw [heq, hv.next o hold]
        unfold nextOf
        rw [if_pos hlt, if_pos (by omega)]
    · rw [hnew, SlottedPage.next_empty]
      unfold nextOf
      rw [hval, hsize, if_neg (Nat.lt_irrefl _)]
  · rw [recordCount_append hv hsmall hsize hlast hnew hothers hrecord hwell]
    exact hv.records

end Append

/-- The volume with a new empty page linked after the last page of the chain, and another header
page. -/
def linked (v : Volume) (last : PageId) (headerPage : Page) : Volume :=
  ((v.grow.store ⟨UInt32.ofNat v.size⟩ (SlottedPage.empty ⟨UInt32.ofNat v.size⟩).data).store last
    ((v.data last).setNext (some ⟨UInt32.ofNat v.size⟩)).data).store ⟨1⟩ headerPage

section Linked

variable (hv : v.IsHeap h) (hsmall : v.size + 1 < 2 ^ 32)
include hsmall

/-- The number of the new page is new. -/
theorem Has.ne_new {o : PageId} (ho : v.Has o) : o ≠ ⟨UInt32.ofNat v.size⟩ := by
  rintro rfl
  have := ho.2
  rw [toNat_ofNat (by omega)] at this
  omega

include hv

theorem IsHeap.new_ne_one : (⟨UInt32.ofNat v.size⟩ : PageId) ≠ ⟨1⟩ := fun heq => by
  have hval := congrArg (fun p : PageId => p.val.toNat) heq
  simp only [toNat_ofNat (n := v.size) (by omega)] at hval
  have hone : (1 : UInt32).toNat = 1 := rfl
  have := hv.three_le
  omega

/-- Linking a new page gives a heap file with the same records. -/
theorem IsHeap.linked {count : UInt32} {headerPage : Page}
    (hcount : count.toNat = h.pageCount.toNat + 1)
    (hheader : HeapHeader.read headerPage =
      .ok { h with lastPage := ⟨UInt32.ofNat v.size⟩, pageCount := count }) :
    (v.linked h.lastPage headerPage).IsHeap
        { h with lastPage := ⟨UInt32.ofNat v.size⟩, pageCount := count } ∧
      (v.linked h.lastPage headerPage).record? = v.record? ∧
      (v.linked h.lastPage headerPage).data ⟨UInt32.ofNat v.size⟩ =
        .empty ⟨UInt32.ofNat v.size⟩ := by
  have hlast := hv.isData_last
  have hone : (⟨1⟩ : PageId) ≠ ⟨UInt32.ofNat v.size⟩ := (hv.new_ne_one hsmall).symm
  have hfar : (⟨UInt32.ofNat v.size⟩ : PageId) ≠ h.lastPage := (hlast.has.ne_new hsmall).symm
  obtain ⟨hwell, hnumber, hnext, hrecord⟩ :=
    (hv.wellFormed _ hlast).setNext (some ⟨UInt32.ofNat v.size⟩)
  have htail := hwell.read (by
    rw [hnext]
    exact fun heq => new_ne_invalid hsmall (Option.some.inj heq))
  have hempty := (SlottedPage.wellFormed_empty ⟨UInt32.ofNat v.size⟩).read
    (by rw [SlottedPage.next_empty]; nofun)
  have hlastData : (v.linked h.lastPage headerPage).data h.lastPage =
      (v.data h.lastPage).setNext (some ⟨UInt32.ofNat v.size⟩) := by
    unfold Volume.linked
    rw [data_store_of_ne _ hlast.ne_one, data_store_self _ _ htail]
  have hnewData : (v.linked h.lastPage headerPage).data ⟨UInt32.ofNat v.size⟩ =
      .empty ⟨UInt32.ofNat v.size⟩ := by
    unfold Volume.linked
    rw [data_store_of_ne _ hone.symm, data_store_of_ne _ hfar, data_store_self _ _ hempty]
  have hothers : ∀ o, v.IsData o → o ≠ h.lastPage →
      (v.linked h.lastPage headerPage).data o = v.data o := by
    intro o ho hne
    have hnew := ho.has.ne_new hsmall
    unfold Volume.linked
    rw [data_store_of_ne _ ho.ne_one, data_store_of_ne _ hne, data_store_of_ne _ hnew,
      data_grow_of_ne _ hnew]
  have hheader' : HeapHeader.read ((v.linked h.lastPage headerPage).page ⟨1⟩) =
      .ok { h with lastPage := ⟨UInt32.ofNat v.size⟩, pageCount := count } := by
    unfold Volume.linked
    rw [page_store_self, hheader]
  exact ⟨hv.append hsmall rfl hlastData hnewData hothers hrecord hwell
    (hnumber.trans (hv.number _ hlast)) hnext hcount hheader',
    record?_append hsmall rfl hlastData hnewData hothers hrecord, hnewData⟩

end Linked

end Volume

end PagedHeap
