import PagedHeap.Proofs.Heap.Scan

/-!
# The chain of data pages

`Volume.Chain` follows the links of data pages as they are read from their bytes.  In a heap file
the walk from the first page visits every data page once, in the order of their numbers, and ends
where the header says.
-/

namespace PagedHeap

/-- A data page has no more records than bytes. -/
theorem SlottedPage.WellFormed.recordCount_le {p : SlottedPage} (h : p.WellFormed) :
    p.recordCount ≤ pageSize := by
  have hslots : p.recordCount ≤ p.slotCount := by
    unfold recordCount slots slotsFrom
    rw [List.length_map]
    exact (List.length_filter_le ..).trans_eq List.length_range'
  have hposition : p.slotCount ≤ Slot.position p.slotCount := by
    unfold Slot.position
    exact (Nat.le_mul_of_pos_right _ (by decide)).trans (Nat.le_add_left _ _)
  exact hslots.trans (hposition.trans (h.layout.directory.trans h.layout.content))

namespace Volume

variable {v : Volume} {h : HeapHeader} {p : PageId}

/-- The pages that are met when the links of data pages are followed to the end. -/
inductive Chain (v : Volume) : Option PageId → List PageId → Prop
  /-- The walk ends where there is no link. -/
  | nil : Chain v none []
  /-- It goes on from a page to the one that the page links to. -/
  | cons {p : PageId} {page : SlottedPage} {ps : List PageId}
      (read : SlottedPage.read (v.page p) = .ok page) (rest : Chain v page.next ps) :
      Chain v (some p) (p :: ps)

/-- The chain that the header of a heap file describes: it visits distinct data pages that know
their numbers, as many as the header counts, from its first page to its last, which alone has no
link; the header counts the records on them, and no other page was allocated but that of the header.
-/
structure IsChain (v : Volume) (h : HeapHeader) (chain : List PageId) : Prop where
  walk : v.Chain (some h.firstPage) chain
  distinct : chain.Nodup
  length : chain.length = h.pageCount.toNat
  last : chain.getLast? = some h.lastPage
  page : ∀ p ∈ chain, ∃ page, SlottedPage.read (v.page p) = .ok page ∧ page.page = p ∧
    (page.next = none ↔ p = h.lastPage)
  records : h.recordCount.toNat = (chain.map fun p => (v.data p).recordCount).sum
  size : v.size = h.pageCount.toNat + 2

/-- The walk from the same page meets the same pages. -/
theorem Chain.unique {start : Option PageId} {ps qs : List PageId} (hp : v.Chain start ps)
    (hq : v.Chain start qs) : ps = qs := by
  induction hp generalizing qs with
  | nil => cases hq; rfl
  | cons hread _ ih =>
    cases hq with
    | cons hread' hrest =>
      obtain rfl := Except.ok.inj (hread.symm.trans hread')
      rw [ih hrest]

/-- The numbers of `count` pages from a number on. -/
def numbers (start count : Nat) : List PageId :=
  (List.range' start count).map fun i => ⟨UInt32.ofNat i⟩

theorem length_numbers (start count : Nat) : (numbers start count).length = count := by
  unfold numbers
  rw [List.length_map, List.length_range']

theorem mem_numbers {start count : Nat} (hsmall : start + count ≤ 2 ^ 32) :
    p ∈ numbers start count ↔ start ≤ p.val.toNat ∧ p.val.toNat < start + count := by
  unfold numbers
  rw [List.mem_map]
  constructor
  · rintro ⟨i, hi, rfl⟩
    rw [List.mem_range'_1] at hi
    rw [toNat_ofNat (by omega)]
    exact hi
  · intro hp
    exact ⟨p.val.toNat, List.mem_range'_1.2 hp, ofNat_toNat p⟩

/-- Pages are numbered in increasing order. -/
theorem sorted_numbers {start count : Nat} (hsmall : start + count ≤ 2 ^ 32) :
    (numbers start count).Pairwise fun p q => p.val.toNat < q.val.toNat := by
  unfold numbers
  rw [List.pairwise_map]
  refine (List.pairwise_lt_range' (s := start) (n := count)).imp_of_mem ?_
  intro i j hi hj hlt
  rw [List.mem_range'_1] at hi hj
  rw [toNat_ofNat (by omega), toNat_ofNat (by omega)]
  exact hlt

theorem numbers_succ (p : PageId) (count : Nat) :
    numbers p.val.toNat (count + 1) = p :: numbers (p.val.toNat + 1) count := by
  unfold numbers
  rw [List.range'_succ, List.map_cons, ofNat_toNat]

/-- From a data page on the chain goes through the data pages behind it. -/
theorem IsHeap.chain_from (hv : v.IsHeap h) (k : Nat) (hp : v.IsData p)
    (hk : p.val.toNat + k + 1 = v.size) : v.Chain (some p) (numbers p.val.toNat (k + 1)) := by
  have hsize := hv.size_lt
  induction k generalizing p with
  | zero =>
    rw [numbers_succ]
    refine .cons (hv.read_data hp) ?_
    rw [hv.next p hp]
    unfold nextOf
    rw [if_neg (by omega)]
    exact .nil
  | succ k ih =>
    have hval := toNat_ofNat (n := p.val.toNat + 1) (by omega)
    have hnext : v.IsData ⟨UInt32.ofNat (p.val.toNat + 1)⟩ := by
      have := hp.1
      unfold IsData
      rw [hval]
      omega
    rw [numbers_succ]
    refine .cons (hv.read_data hp) ?_
    rw [hv.next p hp]
    unfold nextOf
    rw [if_pos (by omega)]
    have hrest := ih hnext (by rw [hval]; omega)
    rwa [hval] at hrest

/-- The data pages of a volume, in the order of their numbers. -/
def dataPages (v : Volume) : List PageId := numbers 2 (v.size - 2)

theorem IsHeap.mem_dataPages (hv : v.IsHeap h) : p ∈ v.dataPages ↔ v.IsData p := by
  have hthree := hv.three_le
  have hsize := hv.size_lt
  unfold dataPages IsData
  rw [mem_numbers (by omega)]
  omega

/-- The chain of a heap file goes through its data pages in the order of their numbers. -/
theorem IsHeap.sorted_dataPages (hv : v.IsHeap h) :
    v.dataPages.Pairwise fun p q => p.val.toNat < q.val.toNat := by
  have hsize := hv.size_lt
  have hthree := hv.three_le
  exact sorted_numbers (by omega)

/-- The chain of a heap file is as its header says. -/
theorem IsHeap.isChain (hv : v.IsHeap h) : v.IsChain h v.dataPages := by
  have hthree := hv.three_le
  have hsize := hv.size_lt
  have hpages := hv.pages
  have hlast := hv.last
  have hfirst : (⟨2⟩ : PageId).val.toNat = 2 := rfl
  obtain ⟨k, hk⟩ : ∃ k, v.size - 2 = k + 1 := ⟨v.size - 3, by omega⟩
  have hlength : v.dataPages.length = v.size - 2 := length_numbers _ _
  refine ⟨?_, ?_, by omega, ?_, fun p hp => ?_, ?_, hpages.symm⟩
  · have hchain := hv.chain_from (p := ⟨2⟩) k ⟨hfirst.ge, by omega⟩ (by omega)
    rw [hfirst, ← hk] at hchain
    rw [hv.first]
    exact hchain
  · exact hv.sorted_dataPages.imp fun hlt heq => by rw [heq] at hlt; omega
  · rw [List.getLast?_eq_getElem?, hlength]
    unfold dataPages numbers
    rw [List.getElem?_map, List.getElem?_range' (by omega), Option.map_some]
    refine congrArg some (eq_of_toNat ?_)
    rw [toNat_ofNat (by omega)]
    omega
  · have hdata := hv.mem_dataPages.1 hp
    refine ⟨_, hv.read_data hdata, hv.number p hdata, ?_⟩
    rw [hv.next p hdata]
    unfold nextOf
    constructor
    · intro hnone
      have hle : ¬p.val.toNat + 1 < v.size := fun hlt => by
        rw [if_pos hlt] at hnone
        cases hnone
      have := hdata.2
      exact eq_of_toNat (by omega)
    · rintro rfl
      rw [if_neg (by omega)]
  · rw [hv.records]
    unfold recordCount dataPages numbers
    rw [Nat.Ico_eq_range', List.map_map]
    exact Multiset.sum_coe _

/-- The chain that the header of a heap file describes is the chain of its data pages. -/
theorem IsHeap.chain_unique (hv : v.IsHeap h) {chain : List PageId} (hchain : v.IsChain h chain) :
    chain = v.dataPages := hchain.walk.unique hv.isChain.walk

/-- The addresses of the records on some pages, page after page and slot after slot. -/
def listing (v : Volume) (chain : List PageId) : List RecordId :=
  chain.flatMap fun p => (v.data p).slots.map fun slot => ⟨p, slot⟩

/-- The records of a heap file are those on its data pages. -/
theorem IsHeap.mem_listing (hv : v.IsHeap h) {rid : RecordId} :
    rid ∈ v.listing v.dataPages ↔ (v.record? rid).isSome := by
  have hslots (hdata : v.IsData rid.page) :
      rid.slot ∈ (v.data rid.page).slots ↔ ((v.data rid.page).record? rid.slot).isSome := by
    unfold SlottedPage.slots
    rw [SlottedPage.mem_slotsFrom, (hv.wellFormed _ hdata).isSome_record?]
    exact and_iff_right (Nat.zero_le _)
  unfold listing
  rw [List.mem_flatMap]
  constructor
  · rintro ⟨p, hp, hrid⟩
    obtain ⟨slot, hslot, rfl⟩ := List.mem_map.1 hrid
    have hdata := hv.mem_dataPages.1 hp
    rw [record?_of_isData hdata]
    exact (hslots hdata).1 hslot
  · intro hsome
    obtain ⟨bytes, hbytes⟩ := Option.isSome_iff_exists.1 hsome
    have hdata := isData_of_record? hbytes
    rw [record?_of_isData hdata] at hsome
    exact ⟨rid.page, hv.mem_dataPages.2 hdata,
      List.mem_map.2 ⟨rid.slot, (hslots hdata).2 hsome, rfl⟩⟩

/-- They are listed in the order of their addresses. -/
theorem IsHeap.sorted_listing (hv : v.IsHeap h) :
    (v.listing v.dataPages).Pairwise RecordId.Before := by
  unfold listing
  rw [List.pairwise_flatMap]
  refine ⟨fun p _ => ?_, hv.sorted_dataPages.imp fun hlt a ha b hb => ?_⟩
  · rw [List.pairwise_map]
    exact ((v.data p).sortedLT_slotsFrom 0).imp fun hlt => .inr ⟨rfl, hlt⟩
  · obtain ⟨i, -, rfl⟩ := List.mem_map.1 ha
    obtain ⟨j, -, rfl⟩ := List.mem_map.1 hb
    exact .inl hlt

/-- The records at some addresses, with the addresses. -/
def rowsAt (v : Volume) (rids : List RecordId) : List (RecordId × Bytes) :=
  rids.filterMap fun rid => (v.record? rid).map (Prod.mk rid)

/-- The records of a heap file in the order of its chain and then of the slots, with their
addresses. -/
def rows (v : Volume) : List (RecordId × Bytes) := v.rowsAt (v.listing v.dataPages)

/-- Addresses of records are those of the records there. -/
theorem map_fst_rowsAt {rids : List RecordId}
    (h : ∀ rid ∈ rids, (v.record? rid).isSome) : (v.rowsAt rids).map Prod.fst = rids := by
  induction rids with
  | nil => rfl
  | cons rid rids ih =>
    obtain ⟨bytes, hbytes⟩ := Option.isSome_iff_exists.1 (h rid (List.mem_cons_self ..))
    unfold rowsAt
    rw [List.filterMap_cons, hbytes]
    exact congrArg (rid :: ·) (ih fun other hother => h other (List.mem_cons_of_mem _ hother))

/-- The rows have the addresses that are listed. -/
theorem IsHeap.map_fst_rows (hv : v.IsHeap h) : v.rows.map Prod.fst = v.listing v.dataPages :=
  map_fst_rowsAt fun _ hrid => hv.mem_listing.1 hrid

/-- A heap file has as many records as are listed. -/
theorem IsHeap.length_rows (hv : v.IsHeap h) :
    v.rows.length = (v.listing v.dataPages).length := by
  rw [← hv.map_fst_rows, List.length_map]

/-- They are as many as the header counts. -/
theorem IsHeap.length_listing (hv : v.IsHeap h) :
    (v.listing v.dataPages).length = v.recordCount := by
  rw [← hv.records, hv.isChain.records]
  unfold listing
  rw [List.length_flatMap]
  refine congrArg List.sum (List.map_congr_left fun p _ => ?_)
  rw [List.length_map]
  rfl

/-- A heap file has no more records than bytes. -/
theorem IsHeap.recordCount_le (hv : v.IsHeap h) : v.recordCount ≤ v.size * pageSize := by
  have hpage (i : Nat) (hi : i ∈ Finset.Ico 2 v.size) :
      (v.data ⟨UInt32.ofNat i⟩).recordCount ≤ pageSize := by
    obtain ⟨htwo, hlt⟩ := Finset.mem_Ico.1 hi
    refine (hv.wellFormed _ ?_).recordCount_le
    unfold IsData
    rw [toNat_ofNat (hlt.trans hv.size_lt)]
    exact ⟨htwo, hlt⟩
  refine (Finset.sum_le_card_nsmul _ _ pageSize hpage).trans ?_
  rw [Nat.card_Ico]
  exact Nat.mul_le_mul_right pageSize (Nat.sub_le v.size 2)

/-- No address is listed twice. -/
theorem IsHeap.nodup_listing (hv : v.IsHeap h) : (v.listing v.dataPages).Nodup := by
  refine hv.sorted_listing.imp ?_
  rintro rid _ hbefore rfl
  exact hbefore.irrefl

/-- A record at an address that was free is one more. -/
theorem IsHeap.recordCount_of_update {w : Volume} {h' : HeapHeader} (hv : v.IsHeap h)
    (hw : w.IsHeap h') {rid : RecordId} {bytes : Bytes} (hfree : v.record? rid = none)
    (hrecord : w.record? = Function.update v.record? rid (some bytes)) :
    w.recordCount = v.recordCount + 1 := by
  have hnew : rid ∉ v.listing v.dataPages := by
    rw [hv.mem_listing, hfree]
    exact Bool.false_ne_true
  rw [← hw.length_listing, ← hv.length_listing, ← List.length_cons]
  refine List.Perm.length_eq ((List.perm_ext_iff_of_nodup hw.nodup_listing
    (List.nodup_cons.2 ⟨hnew, hv.nodup_listing⟩)).2 fun other => ?_)
  rw [List.mem_cons, hw.mem_listing, hv.mem_listing, hrecord]
  by_cases heq : other = rid
  · rw [heq, Function.update_self]
    exact iff_of_true rfl (.inl rfl)
  · rw [Function.update_of_ne heq]
    exact (or_iff_right heq).symm

end Volume

end PagedHeap
