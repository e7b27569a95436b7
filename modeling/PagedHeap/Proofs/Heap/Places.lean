import PagedHeap.Proofs.Heap.Chain
import PagedHeap.Proofs.Heap.Record
import PagedHeap.Proofs.Heap.Room

/-!
# Where a scan is left when it goes on

A scan that goes on leaves its page pinned and stands on what it has found (`HeapFile.At`).  Where
it is when it is refused matters as much: a caller that tries again starts from there.

A scan that cannot pin the page on which it stands is where it was.  One that has looked through
that page and cannot pin the next one has given its record up, but not its page
(`HeapFile.Stuck`).  So what it has still to find (`HeapFile.due`) is what it had to find before,
or else it begins its page again.
-/

namespace PagedHeap

open PagedHeap.Action

namespace Volume

/-- The addresses among some whose records pass the filter, in the order of a chain. -/
def hits (v : Volume) (chain : List PageId) (filter : Option Filter) (among : RecordId → Prop)
    [DecidablePred among] : List RecordId :=
  (v.listing chain).filter fun rid => (v.record? rid).any (passes filter) && decide (among rid)

variable {v : Volume} {header : HeapHeader} {filter : Option Filter} {among : RecordId → Prop}
variable [DecidablePred among]

theorem IsHeap.mem_hits (hv : v.IsHeap header) {rid : RecordId} :
    rid ∈ v.hits v.dataPages filter among ↔ among rid ∧ v.Passing filter rid := by
  unfold hits Passing
  rw [List.mem_filter, hv.mem_listing, Bool.and_eq_true, Option.any_eq_true, decide_eq_true_iff]
  constructor
  · rintro ⟨-, hpass, hamong⟩
    exact ⟨hamong, hpass⟩
  · rintro ⟨hamong, bytes, hbytes, hpass⟩
    exact ⟨Option.isSome_iff_exists.2 ⟨bytes, hbytes⟩, ⟨bytes, hbytes, hpass⟩, hamong⟩

theorem IsHeap.sorted_hits (hv : v.IsHeap header) :
    (v.hits v.dataPages filter among).Pairwise RecordId.Before := hv.sorted_listing.filter _

/-- Which addresses are looked at matters only where there is something to be found. -/
theorem IsHeap.hits_congr_among (hv : v.IsHeap header) {among' : RecordId → Prop}
    [DecidablePred among'] (hsame : ∀ rid, v.Passing filter rid → (among rid ↔ among' rid)) :
    v.hits v.dataPages filter among = v.hits v.dataPages filter among' := by
  refine hv.sorted_hits.eq_of_mem_iff hv.sorted_hits fun rid => ?_
  rw [hv.mem_hits, hv.mem_hits]
  exact and_congr_left (hsame rid)

/-- What is to be found depends on the records of a heap file only. -/
theorem IsHeap.hits_congr {w : Volume} {header' : HeapHeader} (hv : v.IsHeap header)
    (hw : w.IsHeap header') (hsame : v.record? = w.record?) :
    v.hits v.dataPages filter among = w.hits w.dataPages filter among := by
  refine hv.sorted_hits.eq_of_mem_iff hw.sorted_hits fun rid => ?_
  rw [hv.mem_hits, hw.mem_hits]
  unfold Passing
  rw [hsame]

end Volume

namespace HeapFile

variable {σ : Type} [PageStore σ] {law : PageStore.Reliable σ} {rest : Multiset Pin}
variable {s s' : HeapState σ} {pin : Pin} {header : HeapHeader} {filter : Option Filter}

/-! ## Going on -/

/-- What a scan that goes on from the page `first` leaves behind when it is refused. -/
inductive Stuck (law : PageStore.Reliable σ) (filter : Option Filter) (s : HeapState σ)
    (first : PageId) (e : StorageError) (s' : HeapState σ) : Prop
  /-- The first page cannot be pinned. -/
  | unpinned (refused : switchTo first s = .error (.error e) s')
      (here : s'.heap.At s.heap.position s.heap.record none)
  /-- The first page is the header page. -/
  | unreadable (first_eq : first = ⟨1⟩)
      (cause : SlottedPage.read ((volume law s).page ⟨1⟩) = .error (.error e))
      (here : s'.heap.At (some first) s.heap.record (some first))
  /-- There is no frame for the page behind one that was looked through. -/
  | behind {page : PageId} (data : (volume law s).IsData page)
      (reached : first.val.toNat ≤ page.val.toNat) (cause : e = .bufferPoolExhausted)
      (here : s'.heap.At (some page) none none)
      (passed : ∀ rid, s.heap.AheadFrom first rid → rid.page.val.toNat ≤ page.val.toNat →
        ¬(volume law s).Passing filter rid)

/-- A scan on a page that is pinned, which has nothing before it but a record on the next page, is
at the start of its page when it is refused. -/
theorem Stuck.at_start {first : PageId} {e : StorageError} {rid : RecordId}
    (hcurrent : s.heap.currentPage? = some first) (hdata : (volume law s).IsData first)
    (hahead : s.heap.AheadFrom first rid) (hpass : (volume law s).Passing filter rid)
    (hnext : rid.page.val.toNat = first.val.toNat + 1) (hstuck : Stuck law filter s first e s') :
    s'.heap.At (some first) none none := by
  cases hstuck with
  | unpinned refused =>
    have hpinned : (switchTo first).Ensures s (fun _ _ => True) Never := by
      unfold switchTo
      rw [ensures_bind, ensures_get]
      simp only [hcurrent, ne_eq, not_true_eq_false, if_false]
      unfold modifyHeap
      rw [ensures_modify]
      trivial
    exact (hpinned.of_error refused).elim
  | unreadable first_eq => exact absurd first_eq hdata.ne_one
  | @behind page data reached cause here passed =>
    obtain rfl : page = first := by
      apply Volume.eq_of_toNat
      by_contra hne
      exact passed rid hahead (by omega) hpass
    exact here

/-- A scan that is stuck behind the first page has looked through it. -/
theorem Stuck.next {s₁ : HeapState σ} {page next : PageId} {e : StorageError}
    (hv : (volume law s).IsHeap header) (hstays : Stays law rest s s₁)
    (hdata : (volume law s).IsData page) (hat : s₁.heap.At (some page) none (some page))
    (hnone : ∀ other, other.page = page → s.heap.scanStart page ≤ other.slot.toNat →
      ¬(volume law s).Passing filter other)
    (hnext : (volume law s).nextOf page = some next) (hstuck : Stuck law filter s₁ next e s') :
    Stuck law filter s page e s' := by
  have hvolume := hstays.volume_eq
  have hdata' : (volume law s).IsData next := Volume.isData_of_nextOf hv.size_lt hdata hnext
  have hhere (rid : RecordId) (hahead : s.heap.AheadFrom page rid)
      (hle : rid.page.val.toNat ≤ page.val.toNat) : ¬(volume law s).Passing filter rid := by
    rcases hahead with hlt | ⟨heq, hslot⟩
    · exact absurd hle (Nat.not_le.2 hlt)
    · exact hnone rid heq hslot
  cases hstuck with
  | unpinned refused here =>
    have hcause := ((ensures_switchTo hstays.attached next).of_error refused).2.2.1
    refine .behind hdata (Nat.le_refl _) (hcause ?_) ⟨?_, ?_, here.page⟩ hhere
    · rw [hvolume]
      exact hdata'.has
    · rw [here.position, hat.position]
    · rw [here.record, hat.record]
  | unreadable first_eq => exact absurd first_eq hdata'.ne_one
  | @behind last data reached cause here passed =>
    rw [hvolume] at data passed
    have hfirst : s₁.heap.AheadFrom next ⟨next, 0⟩ := by
      refine .inr ⟨rfl, ?_⟩
      unfold scanStart
      rw [hat.record]
      exact Nat.zero_le _
    have hlt : page.val.toNat < next.val.toNat := aheadFrom_of_next hv.size_lt hnext hfirst
    refine .behind data ((Nat.le_of_lt hlt).trans reached) cause here ?_
    rintro rid hahead hle ⟨bytes, hbytes, hpass⟩
    have hrid : (volume law s).IsData rid.page := Volume.isData_of_record? hbytes
    rcases Nat.lt_or_ge page.val.toNat rid.page.val.toNat with hbehind | hbefore
    · obtain ⟨other, hother, hahead'⟩ :=
        aheadFrom_next (h := s₁.heap) hv.size_lt hat.record hrid hbehind
      cases hother.symm.trans hnext
      exact passed rid hahead' hle ⟨bytes, hbytes, hpass⟩
    · exact hhere rid hahead hbefore ⟨bytes, hbytes, hpass⟩

/-- Looking through the chain leaves the page of what was found pinned, or the last page. -/
theorem ensures_scanChain_at (filter : Option Filter) (steps : Nat) {s : HeapState σ}
    {start : Option PageId} (h : Attached law rest s) (hv : (volume law s).IsHeap header)
    (henough : Enough (volume law s) start steps) :
    (scanChain filter steps start).Ensures s
      (fun found s' => (start = none →
          found = none ∧ s'.heap.At none s.heap.record s.heap.currentPage?) ∧
        (start ≠ none → ∃ page, s'.heap.At (found.map RecordId.page) found (some page) ∧
          ∀ rid, found = some rid → page = rid.page))
      (fun e s' => ∃ first, start = some first ∧ Stuck law filter s first e s') := by
  induction steps generalizing s start with
  | zero =>
    cases start with
    | none =>
      exact (ensures_scanChain_none filter 0 h).mono
        (fun _ _ hpost => ⟨fun _ => ⟨hpost.1, hpost.2.2⟩, fun hsome => absurd rfl hsome⟩)
        fun _ _ => False.elim
    | some page => exact absurd (henough page rfl).1 (Nat.lt_irrefl 0)
  | succ k ih =>
    cases start with
    | none =>
      exact (ensures_scanChain_none filter (k + 1) h).mono
        (fun _ _ hpost => ⟨fun _ => ⟨hpost.1, hpost.2.2⟩, fun hsome => absurd rfl hsome⟩)
        fun _ _ => False.elim
    | some page =>
      have hsome {p : Prop} (hend : some page = none) : p := absurd hend (Option.some_ne_none page)
      rw [scanChain_succ, ensures_bind]
      refine (ensures_scanPage h hv filter page).mono ?_ ?_
      · rintro answer s₁ ⟨hstays, hdata, hat, ⟨rid, rfl, hpage, -⟩ | ⟨rfl, hnone⟩⟩
        · refine ⟨hsome, fun _ => ⟨page, ?_, fun other hother => ?_⟩⟩
          · exact ⟨hat.position.trans (congrArg some hpage.symm), hat.record, hat.page⟩
          · cases hother
            exact hpage.symm
        · have hvolume := hstays.volume_eq
          have hmore : Enough (volume law s₁) ((volume law s).nextOf page) k := by
            rw [hvolume]
            exact henough.next hv.size_lt hdata
          refine (ih hstays.attached (hvolume ▸ hv) hmore).mono ?_ ?_
          · rintro found s₂ ⟨hend, hfound⟩
            refine ⟨hsome, fun _ => ?_⟩
            by_cases hlast : (volume law s).nextOf page = none
            · obtain ⟨rfl, hat₂⟩ := hend hlast
              refine ⟨page, ⟨hat₂.position, ?_, ?_⟩, fun _ hfound => ?_⟩
              · rw [hat₂.record, hat.record]
                rfl
              · rw [hat₂.page, hat.page]
              · exact absurd hfound.symm (Option.some_ne_none _)
            · exact hfound hlast
          · rintro e s₂ ⟨next, hnext, hstuck⟩
            exact ⟨page, rfl, hstuck.next hv hstays hdata hat hnone hnext⟩
      · rintro e s₁ ⟨-, ⟨hrun, hat⟩ | ⟨hone, hread, hat⟩⟩
        · exact ⟨page, rfl, .unpinned hrun hat⟩
        · exact ⟨page, rfl, .unreadable hone hread hat⟩

/-- Going on leaves the page of what was found pinned, and the scan stands there. -/
theorem ensures_scanNext_at (filter : Option Filter) (h : Attached law rest s)
    (hv : (volume law s).IsHeap header) :
    (scanNext filter).Ensures s
      (fun found s' => (s.heap.position = none →
          found = none ∧ s'.heap.At none s.heap.record s.heap.currentPage?) ∧
        (s.heap.position ≠ none → ∃ page, s'.heap.At (found.map RecordId.page) found (some page) ∧
          ∀ rid, found = some rid → page = rid.page))
      (fun e s' => ∃ first, s.heap.position = some first ∧ Stuck law filter s first e s') :=
  (ensures_scanChain_at filter _ h hv (enough_pageCount hv _)).of_run_eq
    (scanNext_eq_scanChain filter h hv)

/-! ## What is still to be found -/

section Due

variable {h h' : HeapFile} {v : Volume}

instance decidableAheadFrom (h : HeapFile) (page : PageId) (rid : RecordId) :
    Decidable (h.AheadFrom page rid) := inferInstanceAs (Decidable (_ ∨ _ ∧ _))

instance decidableAhead (h : HeapFile) (rid : RecordId) : Decidable (h.Ahead rid) :=
  match hposition : h.position with
  | none => .isFalse (not_ahead_of_end hposition)
  | some page => decidable_of_iff (h.AheadFrom page rid)
      ⟨fun hahead => ⟨page, hposition, hahead⟩, fun ⟨_, hpage, hahead⟩ =>
        Option.some.inj (hpage.symm.trans hposition) ▸ hahead⟩

/-- The records that a scan has still to find. -/
def due (h : HeapFile) (v : Volume) (filter : Option Filter) : List RecordId :=
  v.hits v.dataPages filter h.Ahead

/-- Without a filter they are the rows ahead of it. -/
theorem due_none (hv : v.IsHeap header) : h.due v none = (v.rows.map Prod.fst).filter h.Ahead := by
  unfold due Volume.hits
  rw [hv.map_fst_rows]
  refine List.filter_congr fun rid hrid => ?_
  obtain ⟨bytes, hbytes⟩ := Option.isSome_iff_exists.1 (hv.mem_listing.1 hrid)
  rw [hbytes]
  rfl

/-- At the same place the same records are to be found. -/
theorem due_of_place (hposition : h'.position = h.position) (hrecord : h'.record = h.record) :
    h'.due v filter = h.due v filter := by
  have hahead : h'.Ahead = h.Ahead := by
    funext rid
    unfold Ahead AheadFrom scanStart
    rw [hposition, hrecord]
  unfold due
  simp only [hahead]

/-- A scan finds the first of the records that are to be found. -/
theorem head?_due (hv : v.IsHeap header) {found : Option RecordId}
    (hfinds : v.Finds filter h.Ahead found) : found = (h.due v filter).head? :=
  eq_head?_of_finds hfinds hv.sorted_hits fun _ => hv.mem_hits

/-- What was found is not to be found any more. -/
theorem due_of_found (hv : v.IsHeap header) {rid : RecordId}
    (hfinds : v.Finds filter h.Ahead (some rid)) (hposition : h'.position = some rid.page)
    (hrecord : h'.record = some rid) : h'.due v filter = (h.due v filter).tail := by
  have hsorted : (h.due v filter).Pairwise RecordId.Before := hv.sorted_hits
  have hmem (other : RecordId) : other ∈ h.due v filter ↔
      h.Ahead other ∧ v.Passing filter other := hv.mem_hits
  have hmem' (other : RecordId) : other ∈ h'.due v filter ↔
      rid.Before other ∧ v.Passing filter other := by
    rw [← ahead_of_record hposition hrecord]
    exact hv.mem_hits
  have hsorted' : (h'.due v filter).Pairwise RecordId.Before := hv.sorted_hits
  have hhead := head?_due hv hfinds
  generalize h.due v filter = rids at hsorted hmem hhead ⊢
  cases rids with
  | nil => cases hhead
  | cons first rids =>
    obtain rfl := Option.some.inj hhead
    obtain ⟨hbefore, hrest⟩ := List.pairwise_cons.1 hsorted
    refine hsorted'.eq_of_mem_iff hrest fun other => ?_
    rw [hmem']
    constructor
    · rintro ⟨hbehind, hpass⟩
      rcases List.mem_cons.1 ((hmem other).2 ⟨hfinds.1.of_before hbehind, hpass⟩) with rfl | hin
      · exact absurd hbehind (RecordId.Before.irrefl _)
      · exact hin
    · intro hin
      exact ⟨hbefore other hin, ((hmem other).1 (List.mem_cons_of_mem _ hin)).2⟩

/-- At the end there is nothing to be found. -/
theorem due_of_end (hv : v.IsHeap header) (hposition : h.position = none) :
    h.due v filter = [] :=
  List.eq_nil_iff_forall_not_mem.2 fun _ hrid =>
    not_ahead_of_end hposition (hv.mem_hits.1 hrid).1

/-- At the start of a page all records from there on are ahead. -/
theorem ahead_of_page {page : PageId} {rid : RecordId} (hposition : h.position = some page)
    (hrecord : h.record = none) : h.Ahead rid ↔ page.val.toNat ≤ rid.page.val.toNat := by
  have hstart : h.scanStart page = 0 := by
    unfold scanStart
    rw [hrecord]
  constructor
  · rintro ⟨_, hpage, hahead⟩
    obtain rfl := Option.some.inj (hposition.symm.trans hpage)
    rcases hahead with hlt | ⟨heq, -⟩
    · exact Nat.le_of_lt hlt
    · rw [heq]
  · intro hle
    refine ⟨page, hposition, ?_⟩
    rcases Nat.lt_or_eq_of_le hle with hlt | heq
    · exact .inl hlt
    · exact .inr ⟨Volume.eq_of_toNat heq.symm, hstart ▸ Nat.zero_le _⟩

end Due

/-- The open heap file goes on from a data page, on which its record is if it stands on one, or it
is at the end. -/
inductive Within (v : Volume) (h : HeapFile) : Prop
  /-- It is on a page. -/
  | page {page : PageId} (position : h.position = some page) (data : v.IsData page)
      (record : ∀ rid, h.record = some rid → rid.page = page)
  /-- It is at the end. -/
  | ended (position : h.position = none) (record : h.record = none)

theorem Within.of_place {v : Volume} {h h' : HeapFile} (hwithin : h.Within v)
    (hposition : h'.position = h.position) (hrecord : h'.record = h.record) : h'.Within v := by
  cases hwithin with
  | page position data record => exact .page (hposition.trans position) data (hrecord ▸ record)
  | ended position record => exact .ended (hposition.trans position) (hrecord.trans record)

/-- A scan that is refused is so because there is no frame for a page.  What it has to find is what
it had to find before, unless it has given up a record and goes on from the start of its page. -/
theorem Stuck.kept {first : PageId} {e : StorageError} (h : Attached law rest s)
    (hv : (volume law s).IsHeap header) (hwithin : s.heap.Within (volume law s))
    (hfirst : s.heap.position = some first) (hstuck : Stuck law filter s first e s') :
    e = .bufferPoolExhausted ∧ s'.heap.Within (volume law s) ∧
      ((∃ rid, s.heap.record = some rid ∧ s'.heap.position = some rid.page ∧
          s'.heap.record = none) ∨
        s'.heap.due (volume law s) filter = s.heap.due (volume law s) filter) := by
  obtain ⟨hdata, honPage⟩ : (volume law s).IsData first ∧
      ∀ rid, s.heap.record = some rid → rid.page = first := by
    cases hwithin with
    | page position data record =>
      obtain rfl := Option.some.inj (position.symm.trans hfirst)
      exact ⟨data, record⟩
    | ended position => cases position.symm.trans hfirst
  cases hstuck with
  | unpinned refused here =>
    have hposition : s'.heap.position = some first := here.position.trans hfirst
    refine ⟨((ensures_switchTo_at h first).of_error refused).2.1 hdata.has, ?_,
      .inr (due_of_place here.position here.record)⟩
    refine .page hposition hdata fun rid hrid => ?_
    rw [here.record] at hrid
    exact honPage rid hrid
  | unreadable first_eq => exact absurd first_eq hdata.ne_one
  | @behind page data reached cause here passed =>
    have hnone (rid : RecordId) (hrid : s'.heap.record = some rid) : rid.page = page := by
      rw [here.record] at hrid
      cases hrid
    refine ⟨cause, .page here.position data hnone, ?_⟩
    by_cases hrestart : page = first ∧ ∃ rid, s.heap.record = some rid
    · obtain ⟨rfl, rid, hrid⟩ := hrestart
      exact .inl ⟨rid, hrid, honPage rid hrid ▸ here.position, here.record⟩
    · refine .inr (hv.hits_congr_among fun rid hpass => ?_)
      rw [ahead_of_page here.position here.record]
      constructor
      · intro hle
        refine ⟨first, hfirst, ?_⟩
        rcases Nat.lt_or_eq_of_le (reached.trans hle) with hlt | heq
        · exact .inl hlt
        · have hpage : page = first := Volume.eq_of_toNat (by omega)
          have hrecord : s.heap.record = none :=
            Option.eq_none_iff_forall_not_mem.2 fun rid hrid => hrestart ⟨hpage, rid, hrid⟩
          refine .inr ⟨Volume.eq_of_toNat heq.symm, ?_⟩
          unfold scanStart
          rw [hrecord]
          exact Nat.zero_le _
      · rintro ⟨_, hposition, hahead⟩
        obtain rfl := Option.some.inj (hposition.symm.trans hfirst)
        by_contra hlt
        exact passed rid hahead (Nat.le_of_not_le hlt) hpass

/-- A scan that goes on finds the first record that it has still to find, and has then to find the
others.  Where it is left when it is refused is known, too. -/
theorem ensures_scanNext_due (filter : Option Filter) (h : Attached law rest s)
    (hv : (volume law s).IsHeap header) (hwithin : s.heap.Within (volume law s)) :
    (scanNext filter).Ensures s
      (fun found s' => Stays law rest s s' ∧ s'.heap.Within (volume law s) ∧
        found = (s.heap.due (volume law s) filter).head? ∧
        s'.heap.due (volume law s) filter = (s.heap.due (volume law s) filter).tail ∧
        ∀ rid, found = some rid → s'.heap.At (some rid.page) (some rid) (some rid.page))
      (fun e s' => Stays law rest s s' ∧
        ∃ first, s.heap.position = some first ∧ Stuck law filter s first e s') := by
  refine ((ensures_scanNext filter h hv).and (ensures_scanNext_at filter h hv)).mono ?_ ?_
  · rintro found s' ⟨⟨hstays, hfinds, hposition, hrecord⟩, hend, hfound⟩
    have hhead := head?_due hv hfinds
    refine ⟨hstays, ?_, hhead, ?_, ?_⟩
    · cases found with
      | some rid =>
        obtain ⟨-, ⟨bytes, hbytes, -⟩, -⟩ := hfinds
        refine .page hposition (Volume.isData_of_record? hbytes) fun other hother => ?_
        cases hother.symm.trans (hrecord rid rfl)
        rfl
      | none =>
        refine .ended hposition ?_
        by_cases hlast : s.heap.position = none
        · obtain ⟨-, hat⟩ := hend hlast
          cases hwithin with
          | page position => cases hlast.symm.trans position
          | ended _ record => exact hat.record.trans record
        · obtain ⟨page, hat, -⟩ := hfound hlast
          exact hat.record
    · cases found with
      | some rid => exact due_of_found hv hfinds hposition (hrecord rid rfl)
      | none =>
        rw [List.head?_eq_none_iff.1 hhead.symm]
        exact due_of_end hv hposition
    · rintro rid rfl
      by_cases hlast : s.heap.position = none
      · obtain ⟨hnone, -⟩ := hend hlast
        cases hnone
      · obtain ⟨page, hat, hpage⟩ := hfound hlast
        obtain rfl : page = rid.page := hpage rid rfl
        exact hat
  · rintro e s' ⟨hstays, hstuck⟩
    exact ⟨hstays, hstuck⟩

end HeapFile

end PagedHeap
