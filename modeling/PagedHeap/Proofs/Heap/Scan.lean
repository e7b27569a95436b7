import PagedHeap.Proofs.Heap.Attached

/-!
# Scans walk through a heap file

Addresses are ordered by page and then by slot (`RecordId.Before`), which in a heap file is the
order of its chain.  A scan that goes on finds the first address ahead of it with a record that
passes the filter, or there is none.  It looks at no more pages than the file has data pages.
-/

namespace PagedHeap

open PagedHeap.Action

/-- The order of addresses: by page, then by slot. -/
def RecordId.Before (a b : RecordId) : Prop :=
  a.page.val.toNat < b.page.val.toNat ∨ a.page = b.page ∧ a.slot < b.slot

instance RecordId.decidableBefore (a b : RecordId) : Decidable (a.Before b) :=
  inferInstanceAs (Decidable (_ ∨ _ ∧ _))

theorem RecordId.Before.trans {a b c : RecordId} (h : a.Before b) (h' : b.Before c) :
    a.Before c := by
  rcases h with h | ⟨h, hs⟩
  · rcases h' with h' | ⟨h', -⟩
    · exact .inl (Nat.lt_trans h h')
    · exact .inl (h' ▸ h)
  · rcases h' with h' | ⟨h', hs'⟩
    · exact .inl (h ▸ h')
    · exact .inr ⟨h.trans h', UInt16.lt_trans hs hs'⟩

theorem RecordId.Before.irrefl (a : RecordId) : ¬a.Before a := by
  rintro (h | ⟨-, h⟩)
  · exact Nat.lt_irrefl _ h
  · exact UInt16.lt_irrefl _ h

theorem RecordId.Before.trichotomy (a b : RecordId) : a.Before b ∨ a = b ∨ b.Before a := by
  obtain ⟨p, i⟩ := a
  obtain ⟨q, j⟩ := b
  rcases Nat.lt_trichotomy p.val.toNat q.val.toNat with hlt | heq | hlt
  · exact .inl (.inl hlt)
  · obtain rfl := Volume.eq_of_toNat heq
    rcases Nat.lt_trichotomy i.toNat j.toNat with hlt | heq | hlt
    · exact .inl (.inr ⟨rfl, UInt16.lt_iff_toNat_lt.2 hlt⟩)
    · exact .inr (.inl (congrArg (RecordId.mk p) (UInt16.toNat_inj.1 heq)))
    · exact .inr (.inr (.inr ⟨rfl, UInt16.lt_iff_toNat_lt.2 hlt⟩))
  · exact .inr (.inr (.inl hlt))

instance : Std.Irrefl RecordId.Before := ⟨RecordId.Before.irrefl⟩

instance : Std.Antisymm RecordId.Before :=
  ⟨fun a _ h h' => absurd (h.trans h') (RecordId.Before.irrefl a)⟩

/-- Whether there is a record at an address that passes the filter. -/
def Volume.Passing (v : Volume) (filter : Option Filter) (rid : RecordId) : Prop :=
  ∃ bytes, v.record? rid = some bytes ∧ passes filter bytes = true

/-- The first of some addresses with a record that passes the filter, or there is none. -/
def Volume.Finds (v : Volume) (filter : Option Filter) (among : RecordId → Prop) :
    Option RecordId → Prop
  | some rid => among rid ∧ v.Passing filter rid ∧
      ∀ other, among other → other.Before rid → ¬v.Passing filter other
  | none => ∀ other, among other → ¬v.Passing filter other

namespace SlottedPage

variable {p : SlottedPage} {filter : Option Filter}

/-- Whether the record in a slot, if there is one, passes the filter. -/
def passesAt (p : SlottedPage) (filter : Option Filter) (slot : SlotId) : Bool :=
  (p.record? slot).any (passes filter)

/-- Among slots in use, the first whose record passes the filter is found. -/
theorem WellFormed.findPassing_eq (h : p.WellFormed) {slots : List SlotId}
    (hlive : ∀ slot ∈ slots, (p.record? slot).isSome) :
    p.findPassing filter slots = .ok (slots.find? (p.passesAt filter)) := by
  induction slots with
  | nil => rfl
  | cons slot slots ih =>
    obtain ⟨bytes, hbytes⟩ := Option.isSome_iff_exists.1 (hlive slot (List.mem_cons_self ..))
    have hat : p.passesAt filter slot = passes filter bytes := by
      unfold passesAt
      rw [hbytes]
      rfl
    unfold findPassing
    rw [h.get_of_record? hbytes, Result.bind_ok, List.find?_cons, hat]
    cases passes filter bytes with
    | true => rfl
    | false => exact ih fun s hs => hlive s (List.mem_cons_of_mem _ hs)

/-- The first slot from `start` on whose record passes the filter is found, if there is one. -/
theorem WellFormed.findPassing_slotsFrom (h : p.WellFormed) (filter : Option Filter) (start : Nat) :
    (∃ slot, p.findPassing filter (p.slotsFrom start) = .ok (some slot) ∧ start ≤ slot.toNat ∧
        p.passesAt filter slot = true ∧
        ∀ other : SlotId, start ≤ other.toNat → other < slot → p.passesAt filter other = false) ∨
      p.findPassing filter (p.slotsFrom start) = .ok none ∧
        ∀ other : SlotId, start ≤ other.toNat → p.passesAt filter other = false := by
  have hmem (slot : SlotId) : slot ∈ p.slotsFrom start ↔
      start ≤ slot.toNat ∧ (p.record? slot).isSome := by
    rw [mem_slotsFrom, h.isSome_record?]
  have hdead (slot : SlotId) (hstart : start ≤ slot.toNat) (hnot : slot ∉ p.slotsFrom start) :
      p.passesAt filter slot = false := by
    unfold passesAt
    cases hrecord : p.record? slot with
    | none => rfl
    | some bytes => exact absurd ((hmem slot).2 ⟨hstart, by rw [hrecord]; rfl⟩) hnot
  rw [h.findPassing_eq fun slot hslot => ((hmem slot).1 hslot).2]
  cases hfind : (p.slotsFrom start).find? (p.passesAt filter) with
  | none =>
    refine .inr ⟨rfl, fun other hstart => ?_⟩
    by_cases hother : other ∈ p.slotsFrom start
    · exact Bool.eq_false_iff.2 (List.find?_eq_none.1 hfind other hother)
    · exact hdead other hstart hother
  | some slot =>
    obtain ⟨hpass, before, after, heq, hbefore⟩ := List.find?_eq_some_iff_append.1 hfind
    refine .inl ⟨slot, rfl, ((hmem slot).1 (List.mem_of_find?_eq_some hfind)).1, hpass,
      fun other hstart hlt => ?_⟩
    by_cases hother : other ∈ p.slotsFrom start
    · have hsorted := p.sortedLT_slotsFrom start
      rw [heq] at hother hsorted
      rcases List.mem_append.1 hother with hin | hin
      · exact Bool.eq_false_iff.2 fun hpass' => by simpa [hpass'] using hbefore other hin
      · rcases List.mem_cons.1 hin with rfl | hin
        · exact absurd hlt (UInt16.lt_irrefl _)
        · have hgt := (List.pairwise_cons.1 (List.pairwise_append.1 hsorted).2.1).1 other hin
          exact absurd (UInt16.lt_trans hlt hgt) (UInt16.lt_irrefl _)
    · exact hdead other hstart hother

end SlottedPage

namespace HeapFile

variable {σ : Type} [PageStore σ] {law : PageStore.Reliable σ} {rest : Multiset Pin}
variable {s s' : HeapState σ} {pin : Pin} {header : HeapHeader} {filter : Option Filter}

/-! ## Where a scan goes on -/

/-- A scan goes back to its start. -/
theorem ensures_endScan (h : Attached law rest s) :
    endScan.Ensures s
      (fun _ s' => Stays law rest s s' ∧ s'.heap.position = some s.heap.firstPage ∧
        s'.heap.record = none) Never := by
  unfold endScan
  rw [ensures_thenAlways]
  refine (ensures_releaseCurrent h).mono ?_ fun _ _ => False.elim
  rintro _ s₁ ⟨h₁, hsame₁, hheap₁⟩
  unfold modifyHeap
  rw [ensures_modify]
  exact ⟨⟨h₁.of_heap rfl rfl rfl rfl rfl, hsame₁, by simp only [hheap₁]⟩, by simp only [hheap₁],
    rfl⟩

/-- Going back to a mark restores the place that was marked and changes no page.  Where that is
refused there is no mark, or its page cannot be pinned. -/
theorem ensures_resetTo (h : Attached law rest s) (mark : Option ScanMark) :
    (resetTo mark).Ensures s
      (fun _ s' => Stays law rest s s' ∧ ∃ m, mark = some m ∧
        s'.heap.At m.position m.record (m.position.or s.heap.currentPage?))
      (fun e s' => Stays law rest s s' ∧
        (mark = none ∧ s' = s ∧ e = .invalidOperation "reset_scan without mark_scan" ∨
          ∃ m page, mark = some m ∧ m.position = some page ∧
            switchTo page s = .error (.error e) s' ∧
            s'.heap.At s.heap.position s.heap.record none)) := by
  unfold resetTo
  cases mark with
  | none => exact ⟨⟨h, .refl _, rfl⟩, .inl ⟨rfl, rfl, rfl⟩⟩
  | some mark =>
    cases hposition : mark.position with
    | none =>
      simp only [hposition]
      refine ⟨⟨h.of_heap rfl rfl rfl rfl rfl, .refl _, rfl⟩, mark, rfl, hposition.symm, rfl, ?_⟩
      rw [hposition]
      rfl
    | some page =>
      simp only [hposition]
      rw [ensures_bind]
      refine (ensures_switchTo_at h page).and_run.mono ?_ ?_
      · rintro _ s₁ ⟨⟨⟨h₁, hsame₁, hfile₁⟩, -, hat₁⟩, -⟩
        unfold modifyHeap
        rw [ensures_modify]
        refine ⟨⟨h₁.of_heap rfl rfl rfl rfl rfl, hsame₁, hfile₁⟩, mark, rfl,
          hat₁.position.trans hposition.symm, rfl, ?_⟩
        rw [hposition]
        exact hat₁.page
      · rintro e s₁ ⟨⟨hstays₁, -, hat₁⟩, hrun⟩
        exact ⟨hstays₁, .inr ⟨mark, page, rfl, hposition, hrun, hat₁⟩⟩

/-- Whether an address is ahead of a scan that goes on from the given page. -/
def AheadFrom (h : HeapFile) (page : PageId) (rid : RecordId) : Prop :=
  page.val.toNat < rid.page.val.toNat ∨ rid.page = page ∧ h.scanStart page ≤ rid.slot.toNat

/-- Whether an address is ahead of a scan. -/
def Ahead (h : HeapFile) (rid : RecordId) : Prop :=
  ∃ page, h.position = some page ∧ h.AheadFrom page rid

/-- At the start of a heap file every record is ahead. -/
theorem ahead_of_start {h : HeapFile} {v : Volume} {rid : RecordId}
    (hposition : h.position = some ⟨2⟩) (hrecord : h.record = none) (hdata : v.IsData rid.page) :
    h.Ahead rid := by
  refine ⟨⟨2⟩, hposition, ?_⟩
  have htwo : (2 : UInt32).toNat = 2 := rfl
  rcases Nat.lt_or_eq_of_le hdata.1 with hlt | heq
  · exact .inl hlt
  · refine .inr ⟨Volume.eq_of_toNat heq.symm, ?_⟩
    unfold scanStart
    rw [hrecord]
    exact Nat.zero_le _

/-- At a record, the addresses behind it are ahead. -/
theorem ahead_of_record {h : HeapFile} {rid other : RecordId}
    (hposition : h.position = some rid.page) (hrecord : h.record = some rid) :
    h.Ahead other ↔ rid.Before other := by
  have hstart : h.scanStart rid.page = rid.slot.toNat + 1 := by
    unfold scanStart
    simp only [hrecord, if_true]
  constructor
  · rintro ⟨page, hpage, hahead⟩
    obtain rfl := Option.some.inj (hposition.symm.trans hpage)
    rcases hahead with hlt | ⟨heq, hslot⟩
    · exact .inl hlt
    · rw [hstart] at hslot
      exact .inr ⟨heq.symm, UInt16.lt_iff_toNat_lt.2 hslot⟩
  · rintro (hlt | ⟨heq, hslot⟩)
    · exact ⟨rid.page, hposition, .inl hlt⟩
    · refine ⟨rid.page, hposition, .inr ⟨heq.symm, ?_⟩⟩
      rw [hstart]
      exact UInt16.lt_iff_toNat_lt.1 hslot

/-- At the end of the chain nothing is ahead. -/
theorem not_ahead_of_end {h : HeapFile} {rid : RecordId} (hposition : h.position = none) :
    ¬h.Ahead rid := by
  rintro ⟨page, hpage, -⟩
  cases hposition.symm.trans hpage

/-- What is behind an address ahead of a scan is ahead as well. -/
theorem Ahead.of_before {h : HeapFile} {rid other : RecordId} (hahead : h.Ahead rid)
    (hbefore : rid.Before other) : h.Ahead other := by
  obtain ⟨page, hpage, hahead⟩ := hahead
  refine ⟨page, hpage, ?_⟩
  rcases hahead with hlt | ⟨heq, hslot⟩
  · rcases hbefore with hlt' | ⟨heq', -⟩
    · exact .inl (Nat.lt_trans hlt hlt')
    · exact .inl (heq' ▸ hlt)
  · rcases hbefore with hlt' | ⟨heq', hslot'⟩
    · exact .inl (heq ▸ hlt')
    · exact .inr ⟨heq'.symm.trans heq, hslot.trans (Nat.le_of_lt (UInt16.lt_iff_toNat_lt.1 hslot'))⟩

/-- The first one of the records ahead that pass is found. -/
theorem eq_head?_of_finds {v : Volume} {filter : Option Filter} {ahead : RecordId → Prop}
    {rids : List RecordId} {found : Option RecordId} (hfinds : v.Finds filter ahead found)
    (hsorted : rids.Pairwise RecordId.Before)
    (hmem : ∀ rid, rid ∈ rids ↔ ahead rid ∧ v.Passing filter rid) : found = rids.head? := by
  cases rids with
  | nil =>
    cases found with
    | none => rfl
    | some rid =>
      obtain ⟨hahead, hpass, -⟩ := hfinds
      cases (hmem rid).2 ⟨hahead, hpass⟩
  | cons rid rids =>
    obtain ⟨hbefore, -⟩ := List.pairwise_cons.1 hsorted
    obtain ⟨hahead, hpasses⟩ := (hmem rid).1 (List.mem_cons_self ..)
    cases found with
    | none => exact absurd hpasses (hfinds rid hahead)
    | some other =>
      obtain ⟨hother, hpass, hfirst⟩ := hfinds
      rcases List.mem_cons.1 ((hmem other).2 ⟨hother, hpass⟩) with rfl | hin
      · rfl
      · exact absurd hpasses (hfirst rid hahead (hbefore other hin))

/-- Whether a record passes the filter is seen on its page. -/
theorem passing_iff {v : Volume} {rid : RecordId} (hdata : v.IsData rid.page) :
    v.Passing filter rid ↔ (v.data rid.page).passesAt filter rid.slot = true := by
  unfold Volume.Passing SlottedPage.passesAt
  rw [Volume.record?_of_isData hdata, Option.any_eq_true]

/-- Looking through the rest of a page leaves it pinned.  It finds the first record that passes, on
which the scan then stands, or leads to the page behind it.  Where it is refused, the page could not
be pinned or it is the header page. -/
theorem ensures_scanPage (h : Attached law rest s) (hv : (volume law s).IsHeap header)
    (filter : Option Filter) (page : PageId) :
    (scanPage filter page).Ensures s
      (fun answer s' => Stays law rest s s' ∧ (volume law s).IsData page ∧
        s'.heap.At (some page) answer.getLeft? (some page) ∧
        ((∃ rid, answer = .inl rid ∧ rid.page = page ∧ s.heap.scanStart page ≤ rid.slot.toNat ∧
            (volume law s).Passing filter rid ∧
            ∀ other, other.page = page → s.heap.scanStart page ≤ other.slot.toNat →
              other.slot < rid.slot → ¬(volume law s).Passing filter other) ∨
          answer = .inr ((volume law s).nextOf page) ∧
            ∀ other, other.page = page → s.heap.scanStart page ≤ other.slot.toNat →
              ¬(volume law s).Passing filter other))
      (fun e s' => Stays law rest s s' ∧
        (switchTo page s = .error (.error e) s' ∧
            s'.heap.At s.heap.position s.heap.record none ∨
          page = ⟨1⟩ ∧ SlottedPage.read ((volume law s).page ⟨1⟩) = .error (.error e) ∧
            s'.heap.At (some page) s.heap.record (some page))) := by
  unfold scanPage
  rw [ensures_bind]
  refine (ensures_switchTo_at h page).and_run.mono ?_ ?_
  · rintro _ s₁ ⟨⟨hstays, hhas, hat⟩, -⟩
    obtain ⟨pin, hcurrent, hpage⟩ := hat.exists_current
    have h₁ := hstays.attached
    have hvolume := hstays.volume_eq
    have hstart : s₁.heap.scanStart page = s.heap.scanStart page := by
      unfold scanStart
      rw [hat.record]
    rw [ensures_bind, ensures_get]
    simp only
    rw [hstart, ensures_bind]
    by_cases hdata : (volume law s).IsData page
    · have hread : SlottedPage.read ((volume law s₁).page pin.key.page) =
          .ok ((volume law s).data page) := by
        rw [hvolume, hpage, hv.read_data hdata]
      refine (ensures_currentPage h₁ hcurrent hread).mono ?_ fun _ _ => False.elim
      rintro p s₁ ⟨rfl, rfl⟩
      have hmoved (record : Option RecordId) :
          Stays law rest s ⟨s₁.db, { s₁.heap with record := record }⟩ :=
        ⟨h₁.of_heap rfl rfl rfl rfl rfl, hstays.same, hstays.file⟩
      have hdead {other : RecordId} (hother : other.page = page)
          (hpass : ((volume law s).data page).passesAt filter other.slot = false) :
          ¬(volume law s).Passing filter other := by
        subst hother
        rw [passing_iff hdata, hpass]
        exact Bool.false_ne_true
      rw [ensures_bind]
      rcases (hv.wellFormed _ hdata).findPassing_slotsFrom filter (s.heap.scanStart page) with
        ⟨slot, hfind, hle, hpass, hbefore⟩ | ⟨hfind, hnone⟩
      · rw [ensures_ofResult_ok hfind]
        simp only
        unfold modifyHeap
        rw [ensures_bind, ensures_modify, ensures_pure]
        have hfound : (volume law s).Passing filter ⟨page, slot⟩ := (passing_iff hdata).2 hpass
        exact ⟨hmoved _, hdata, ⟨hat.position, rfl, hat.page⟩, .inl ⟨_, rfl, rfl, hle, hfound,
          fun other hother hstart hlt => hdead hother (hbefore _ hstart hlt)⟩⟩
      · rw [ensures_ofResult_ok hfind]
        simp only
        unfold modifyHeap
        rw [ensures_bind, ensures_modify, ensures_pure]
        exact ⟨hmoved _, hdata, ⟨hat.position, rfl, hat.page⟩, .inr ⟨by rw [hv.next _ hdata],
          fun other hother hstart => hdead hother (hnone _ hstart)⟩⟩
    · have hone := Volume.eq_one_of_not_isData hhas hdata
      obtain ⟨reason, hread⟩ := hv.read_one
      have hread₁ : SlottedPage.read ((volume law s₁).page pin.key.page) =
          .error (.error (.invalidPage reason)) := by rw [hvolume, hpage, hone, hread]
      refine (refuses_currentPage h₁ hcurrent hread₁).mono (fun _ _ => False.elim) ?_
      rintro _ s₁ ⟨rfl, rfl⟩
      exact ⟨hstays, .inr ⟨hone, hread, hat⟩⟩
  · rintro e s₁ ⟨⟨hstays, -, hat⟩, hrun⟩
    exact ⟨hstays, .inl ⟨hrun, hat⟩⟩

/-! ## Walking the chain -/

/-- Enough steps to walk from a page to the end of the chain. -/
def Enough (v : Volume) (start : Option PageId) (steps : Nat) : Prop :=
  ∀ page, start = some page → 0 < steps ∧ (v.IsData page → v.size ≤ page.val.toNat + steps)

/-- As many steps as there are data pages are enough. -/
theorem enough_pageCount {v : Volume} (hv : v.IsHeap header) (start : Option PageId) :
    Enough v start header.pageCount.toNat := by
  have hpages := hv.pages
  have hthree := hv.three_le
  rintro page -
  exact ⟨by omega, fun hdata => by have := hdata.1; omega⟩

/-- Enough steps from a page are one for it and enough from the page behind it. -/
theorem Enough.next {v : Volume} {page : PageId} {k : Nat} (hsize : v.size < 2 ^ 32)
    (h : Enough v (some page) (k + 1)) (hdata : v.IsData page) : Enough v (v.nextOf page) k := by
  intro next hnext
  unfold Volume.nextOf at hnext
  split at hnext
  · next hlt =>
    have hval := congrArg (fun p : PageId => p.val.toNat) (Option.some.inj hnext)
    simp only [Volume.toNat_ofNat (n := page.val.toNat + 1) (by omega)] at hval
    have henough := (h page rfl).2 hdata
    exact ⟨by omega, fun _ => by omega⟩
  · cases hnext

/-- Behind a page there are the addresses on the page that it links to and those behind that one. -/
theorem aheadFrom_next {v : Volume} {page : PageId} {rid : RecordId} {h : HeapFile}
    (hsize : v.size < 2 ^ 32) (hrecord : h.record = none) (hdata : v.IsData rid.page)
    (hlt : page.val.toNat < rid.page.val.toNat) :
    ∃ next, v.nextOf page = some next ∧ h.AheadFrom next rid := by
  have hbound := hdata.2
  have hval := Volume.toNat_ofNat (n := page.val.toNat + 1) (by omega)
  refine ⟨_, if_pos (by omega), ?_⟩
  unfold AheadFrom
  rw [hval]
  rcases Nat.lt_or_eq_of_le (Nat.succ_le_of_lt hlt) with hbehind | heq
  · exact .inl hbehind
  · refine .inr ⟨Volume.eq_of_toNat (heq.symm.trans hval.symm), ?_⟩
    unfold scanStart
    rw [hrecord]
    exact Nat.zero_le _

theorem aheadFrom_of_next {v : Volume} {page next : PageId} {rid : RecordId} {h : HeapFile}
    (hsize : v.size < 2 ^ 32) (hnext : v.nextOf page = some next) (hahead : h.AheadFrom next rid) :
    page.val.toNat < rid.page.val.toNat := by
  unfold Volume.nextOf at hnext
  split at hnext
  · next hlt =>
    obtain rfl := Option.some.inj hnext
    have hval := Volume.toNat_ofNat (n := page.val.toNat + 1) (by omega)
    unfold AheadFrom at hahead
    rw [hval] at hahead
    rcases hahead with hlt | ⟨heq, -⟩
    · omega
    · rw [heq, hval]
      omega
  · cases hnext

/-- The first record that passes on a page is the first one from there on. -/
theorem finds_of_page {v : Volume} {h : HeapFile} {rid : RecordId}
    (hle : h.scanStart rid.page ≤ rid.slot.toNat) (hpass : v.Passing filter rid)
    (hbefore : ∀ other, other.page = rid.page → h.scanStart rid.page ≤ other.slot.toNat →
      other.slot < rid.slot → ¬v.Passing filter other) :
    v.Finds filter (fun other => ∃ page, some rid.page = some page ∧ h.AheadFrom page other)
      (some rid) := by
  refine ⟨⟨_, rfl, .inr ⟨rfl, hle⟩⟩, hpass, ?_⟩
  rintro other ⟨page, heq, hahead⟩ hlt
  obtain rfl := Option.some.inj heq
  rcases hahead with hbehind | ⟨hpage, hstart⟩
  · rcases hlt with hlt | ⟨hpage, -⟩
    · exact absurd hlt (Nat.lt_asymm hbehind)
    · rw [hpage] at hbehind
      exact absurd hbehind (Nat.lt_irrefl _)
  · rcases hlt with hlt | ⟨-, hslot⟩
    · rw [hpage] at hlt
      exact absurd hlt (Nat.lt_irrefl _)
    · exact hbefore other hpage hstart hslot

/-- If no record passes on a page, what is found from the next page on is the first one from the
page on. -/
theorem finds_of_next {v : Volume} {page : PageId} {h h₁ : HeapFile} {found : Option RecordId}
    (hsize : v.size < 2 ^ 32) (hrecord : h₁.record = none)
    (hnone : ∀ other, other.page = page → h.scanStart page ≤ other.slot.toNat →
      ¬v.Passing filter other)
    (hfinds : v.Finds filter (fun rid => ∃ next, v.nextOf page = some next ∧ h₁.AheadFrom next rid)
      found) :
    v.Finds filter (fun rid => ∃ first, some page = some first ∧ h.AheadFrom first rid) found := by
  have hon {other : RecordId} (hpass : v.Passing filter other) (hahead : h.AheadFrom page other) :
      ∃ next, v.nextOf page = some next ∧ h₁.AheadFrom next other := by
    have hdata := Volume.isData_of_record? hpass.choose_spec.1
    rcases hahead with hbehind | ⟨hpage, hstart⟩
    · exact aheadFrom_next hsize hrecord hdata hbehind
    · exact absurd hpass (hnone other hpage hstart)
  cases found with
  | none =>
    rintro other ⟨first, heq, hahead⟩ hpass
    obtain rfl := Option.some.inj heq
    exact hfinds other (hon hpass hahead) hpass
  | some rid =>
    obtain ⟨⟨next, hnext, hahead⟩, hpass, hbefore⟩ := hfinds
    refine ⟨⟨page, rfl, .inl (aheadFrom_of_next hsize hnext hahead)⟩, hpass, ?_⟩
    rintro other ⟨first, heq, hahead⟩ hlt hpass
    obtain rfl := Option.some.inj heq
    exact hbefore other (hon hpass hahead) hlt hpass

/-- At the end of the chain nothing is found, and the scan stays there. -/
theorem ensures_scanChain_none (filter : Option Filter) (steps : Nat) {s : HeapState σ}
    (h : Attached law rest s) :
    (scanChain filter steps none).Ensures s
      (fun found s' => found = none ∧ Stays law rest s s' ∧
        s'.heap.At none s.heap.record s.heap.currentPage?) Never := by
  have heq : (scanChain filter steps none : HeapAction σ (Option RecordId)) =
      (do modifyHeap fun h => { h with position := none }; return none) := by
    cases steps <;> rfl
  rw [heq]
  unfold modifyHeap
  rw [ensures_bind, ensures_modify, ensures_pure]
  exact ⟨rfl, ⟨h.of_heap rfl rfl rfl rfl rfl, .refl _, rfl⟩, rfl, rfl, rfl⟩

/-- Looking through the chain from a page on finds the first record ahead that passes. -/
theorem ensures_scanChain (filter : Option Filter) (steps : Nat) {s : HeapState σ}
    {start : Option PageId} (h : Attached law rest s) (hv : (volume law s).IsHeap header)
    (henough : Enough (volume law s) start steps) :
    (scanChain filter steps start).Ensures s
      (fun found s' => Stays law rest s s' ∧
        (volume law s).Finds filter
          (fun rid => ∃ page, start = some page ∧ s.heap.AheadFrom page rid) found ∧
        s'.heap.position = found.map RecordId.page ∧
        ∀ rid, found = some rid → s'.heap.record = some rid)
      (fun _ s' => Stays law rest s s') := by
  induction steps generalizing s start with
  | zero =>
    cases start with
    | none =>
      refine (ensures_scanChain_none filter 0 h).mono ?_ fun _ _ => False.elim
      rintro _ s' ⟨rfl, hstays, hat⟩
      exact ⟨hstays, fun _ hahead => by simp at hahead, hat.position, nofun⟩
    | some page => exact absurd (henough page rfl).1 (Nat.lt_irrefl 0)
  | succ k ih =>
    cases start with
    | none =>
      refine (ensures_scanChain_none filter (k + 1) h).mono ?_ fun _ _ => False.elim
      rintro _ s' ⟨rfl, hstays, hat⟩
      exact ⟨hstays, fun _ hahead => by simp at hahead, hat.position, nofun⟩
    | some page =>
      unfold scanChain
      rw [ensures_bind]
      refine (ensures_scanPage h hv filter page).mono ?_ fun _ _ => And.left
      rintro answer s₁ ⟨hstays, hdata, hat,
        ⟨rid, rfl, rfl, hle, hpass, hbefore⟩ | ⟨rfl, hnone⟩⟩
      · rw [ensures_pure]
        refine ⟨hstays, finds_of_page hle hpass hbefore, hat.position, fun other hother => ?_⟩
        obtain rfl := Option.some.inj hother
        exact hat.record
      · have hvolume := hstays.volume_eq
        have hmore : Enough (volume law s₁) ((volume law s).nextOf page) k := by
          rw [hvolume]
          exact henough.next hv.size_lt hdata
        refine (ih hstays.attached (hvolume ▸ hv) hmore).mono ?_
          fun _ _ hpost => hstays.trans hpost
        rintro found s₂ ⟨hstays₂, hfinds, hrest⟩
        rw [hvolume] at hfinds
        exact ⟨hstays.trans hstays₂, finds_of_next hv.size_lt hat.record hnone hfinds, hrest⟩

/-- What a walk does after it has looked through a page. -/
def scanRest (filter : Option Filter) (steps : Nat) :
    RecordId ⊕ Option PageId → HeapAction σ (Option RecordId)
  | .inl rid => pure (some rid)
  | .inr next => scanChain filter steps next

theorem scanChain_succ (filter : Option Filter) (steps : Nat) (page : PageId) :
    (scanChain filter (steps + 1) (some page) : HeapAction σ (Option RecordId)) =
      scanPage filter page >>= scanRest filter steps := rfl

/-- A walk that comes to an end within some steps is the same with more of them. -/
theorem scanChain_add (filter : Option Filter) (k m : Nat) {s : HeapState σ}
    {start : Option PageId}
    (hends : ∀ s', scanChain filter k start s ≠ .error (.trap .endless) s') :
    scanChain filter (k + m) start s = scanChain filter k start s := by
  induction k generalizing s start with
  | zero =>
    cases start with
    | none => cases m <;> rfl
    | some page => exact absurd rfl (hends s)
  | succ k ih =>
    cases start with
    | none => cases m <;> rfl
    | some page =>
      rw [Nat.add_right_comm, scanChain_succ, scanChain_succ]
      rw [scanChain_succ] at hends
      cases hpage : scanPage filter page s with
      | ok answer s₁ =>
        rw [bind_run_ok hpage] at hends
        rw [bind_run_ok hpage, bind_run_ok hpage]
        cases answer with
        | inl rid => rfl
        | inr next => exact ih hends
      | error e s₁ => rw [bind_run_error hpage, bind_run_error hpage]

/-- The steps that a scan is given. -/
theorem scanNext_eq (law : PageStore.Reliable σ) (filter : Option Filter) (s : HeapState σ) :
    scanNext filter s = scanChain filter
      ((UInt32.ofNat (volume law s).size).toNat + s.db.pool.size + 2) s.heap.position s := by
  have hcount : walkBound.Ensures s (fun bound s' =>
      bound = (UInt32.ofNat (volume law s).size).toNat + s.db.pool.size + 2 ∧ s' = s) Never := by
    unfold walkBound Database.onFiles
    rw [ensures_bind, ensures_get, ensures_bind, ensures_onDatabase, ensures_onPart]
    refine (law.count s.db.files s.heap.file.id).mono ?_ fun _ _ => id
    rintro n files ⟨rfl, rfl⟩
    exact ⟨rfl, rfl⟩
  exact bind_run_ok hcount.run_eq fun bound => do scanChain filter bound (← get).heap.position

/-- A scan looks at no more pages than the file has data pages. -/
theorem scanNext_eq_scanChain (filter : Option Filter) (h : Attached law rest s)
    (hv : (volume law s).IsHeap header) :
    scanNext filter s = scanChain filter header.pageCount.toNat s.heap.position s := by
  have hpages := hv.pages
  have hends (s' : HeapState σ) : scanChain filter header.pageCount.toNat s.heap.position s ≠
      .error (.trap .endless) s' :=
    (ensures_scanChain filter _ h hv (enough_pageCount hv _)).not_trap
  obtain ⟨m, hm⟩ : ∃ m, (UInt32.ofNat (volume law s).size).toNat + s.db.pool.size + 2 =
      header.pageCount.toNat + m := by
    rw [UInt32.toNat_ofNat_of_lt' hv.size_lt]
    exact ⟨s.db.pool.size + 4, by omega⟩
  rw [scanNext_eq law, hm, scanChain_add filter _ m hends]

/-- A scan goes on to the first record ahead of it that passes the filter. -/
theorem ensures_scanNext (filter : Option Filter) (h : Attached law rest s)
    (hv : (volume law s).IsHeap header) :
    (scanNext filter).Ensures s
      (fun found s' => Stays law rest s s' ∧
        (volume law s).Finds filter s.heap.Ahead found ∧
        s'.heap.position = found.map RecordId.page ∧
        ∀ rid, found = some rid → s'.heap.record = some rid)
      (fun _ s' => Stays law rest s s') := by
  exact (ensures_scanChain filter _ h hv (enough_pageCount hv _)).of_run_eq
    (scanNext_eq_scanChain filter h hv)

end HeapFile

end PagedHeap
