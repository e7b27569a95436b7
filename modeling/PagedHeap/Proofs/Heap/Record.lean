import PagedHeap.Proofs.Heap.Attached

/-!
# Reading, changing and deleting records

Reading a record at an address gives the record that is there and changes no page.  Changing the
current record in place keeps its length; deleting it takes it out of the file, and the header
counts one record less.  What is refused leaves all pages as they are, and after all operations on
the current record the scan stands where it stood.
-/

namespace PagedHeap

open PagedHeap.Action

namespace HeapFile

variable {σ : Type} [PageStore σ] {law : PageStore.Reliable σ} {rest : Multiset Pin}
variable {s s' : HeapState σ} {pin : Pin} {header : HeapHeader}

/-- The scan stands where it stood. -/
structure SamePlace (s s' : HeapState σ) : Prop where
  position : s'.heap.position = s.heap.position
  record : s'.heap.record = s.heap.record

/-! ## Records at an address -/

/-- Reading a record at an address gives the record that is there, and the scan then stands on it.
If none is there, the scan goes on from the start of that page.  It keeps its place if the page
cannot be pinned, which for a page with records is so only because all frames are. -/
theorem ensures_getRecord (h : Attached law rest s) (hv : (volume law s).IsHeap header)
    (rid : RecordId) :
    (getRecord rid).Ensures s
      (fun bytes s' => Stays law rest s s' ∧ (volume law s).record? rid = some bytes ∧
        (∃ t, switchTo rid.page s = .ok () t) ∧
        s'.heap.At (some rid.page) (some rid) (some rid.page))
      (fun e s' => Stays law rest s s' ∧
        (((volume law s).IsData rid.page → e = .bufferPoolExhausted) ∧
            switchTo rid.page s = .error (.error e) s' ∧
            s'.heap.At s.heap.position s.heap.record none ∨
          (volume law s).Has rid.page ∧ (volume law s).record? rid = none ∧
            s'.heap.At (some rid.page) s.heap.record (some rid.page))) := by
  unfold getRecord
  rw [ensures_bind]
  refine (ensures_switchTo_at h rid.page).and_run.mono ?_ ?_
  · rintro _ s₁ ⟨⟨hstays, hhas, hat⟩, hrun⟩
    obtain ⟨pin, hcurrent, hpage⟩ := hat.exists_current
    have h₁ := hstays.attached
    have hvolume := hstays.volume_eq
    rw [ensures_bind]
    by_cases hdata : (volume law s).IsData rid.page
    · have hread : SlottedPage.read ((volume law s₁).page pin.key.page) =
          .ok ((volume law s).data rid.page) := by
        rw [hvolume, hpage, hv.read_data hdata]
      refine (ensures_currentPage h₁ hcurrent hread).mono ?_ fun _ _ => False.elim
      rintro p s₁ ⟨rfl, rfl⟩
      have hwell := hv.wellFormed _ hdata
      have hrecord : (volume law s).record? rid =
          ((volume law s).data rid.page).record? rid.slot := Volume.record?_of_isData hdata
      cases hget : ((volume law s).data rid.page).record? rid.slot with
      | some bytes =>
        rw [hwell.get_of_record? hget]
        simp only
        unfold modifyHeap
        rw [ensures_bind, ensures_modify, ensures_pure]
        exact ⟨⟨h₁.of_heap rfl rfl rfl rfl rfl, hstays.same, hstays.file⟩, hrecord.trans hget,
          ⟨s₁, hrun⟩, hat.position, rfl, hat.page⟩
      | none =>
        rw [hwell.get_of_record?_none hget]
        simp only
        rw [ensures_refuse]
        exact ⟨hstays, .inr ⟨hhas, hrecord.trans hget, hat⟩⟩
    · obtain ⟨reason, hread⟩ := hv.read_one
      rw [← Volume.eq_one_of_not_isData hhas hdata, ← hvolume, ← hpage] at hread
      refine (refuses_currentPage h₁ hcurrent hread).mono (fun _ _ => False.elim) ?_
      rintro e s₁ ⟨rfl, rfl⟩
      exact ⟨hstays, .inr ⟨hhas, Volume.record?_of_not_isData hdata, hat⟩⟩
  · rintro e s₁ ⟨⟨hstays, hcause, hat⟩, hrun⟩
    exact ⟨hstays, .inl ⟨fun hdata => hcause hdata.has, hrun, hat⟩⟩

/-! ## The current record -/

omit [PageStore σ] in
/-- The current record is on the current page; there is none if the record that the scan stands on
is on another page. -/
theorem ensures_currentRecord (s : HeapState σ) :
    currentRecord.Ensures s
      (fun rid s' => s' = s ∧ s.heap.record = some rid ∧
        ∃ pin, s.heap.current = some pin ∧ pin.key.page = rid.page)
      (fun _ s' => s' = s ∧
        ∀ rid, s.heap.record = some rid → s.heap.currentPage? ≠ some rid.page) := by
  unfold currentRecord
  rw [ensures_bind, ensures_get]
  simp only
  cases hrecord : s.heap.record with
  | none =>
    simp only
    rw [ensures_refuse]
    exact ⟨rfl, fun _ hrid => nomatch hrid⟩
  | some rid =>
    simp only
    split
    · next hpage =>
      rw [ensures_pure]
      obtain ⟨pin, hcurrent, hkey⟩ := Option.map_eq_some_iff.1 hpage
      exact ⟨rfl, rfl, pin, hcurrent, hkey⟩
    · next hpage =>
      rw [ensures_refuse]
      refine ⟨rfl, fun rid' hrid => ?_⟩
      obtain rfl := Option.some.inj hrid
      exact hpage

/-- Reading the current record gives the record at its address. -/
theorem ensures_readCurrent (h : Attached law rest s) (hv : (volume law s).IsHeap header) :
    readCurrent.Ensures s
      (fun bytes s' => s' = s ∧
        ∃ rid, s.heap.record = some rid ∧ (volume law s).record? rid = some bytes)
      (fun _ s' => s' = s) := by
  unfold readCurrent
  rw [ensures_bind]
  refine (ensures_currentRecord s).mono ?_ fun _ _ => And.left
  rintro rid s ⟨rfl, hrecord, pin, hcurrent, hpage⟩
  rw [ensures_bind]
  by_cases hdata : (volume law s).IsData pin.key.page
  · refine (ensures_currentPage h hcurrent (hv.read_data hdata)).mono ?_ fun _ _ => False.elim
    rintro p s ⟨rfl, rfl⟩
    have hwell := hv.wellFormed _ hdata
    cases hget : ((volume law s).data pin.key.page).record? rid.slot with
    | some bytes =>
      rw [ensures_ofResult_ok (hwell.get_of_record? hget)]
      refine ⟨rfl, rid, hrecord, ?_⟩
      rw [Volume.record?_of_isData (hpage ▸ hdata), ← hpage, hget]
    | none =>
      rw [ensures_ofResult_refuse (hwell.get_of_record?_none hget)]
  · obtain ⟨reason, hread⟩ := hv.read_one
    rw [← Volume.eq_one_of_not_isData (h.has_current hcurrent) hdata] at hread
    exact (refuses_currentPage h hcurrent hread).mono (fun _ _ => False.elim) fun _ _ hpost =>
      hpost.2

/-- A change of the current page that cannot be made leaves all pages and the scan as they are. -/
theorem refuses_edit (h : Attached law rest s) (hv : (volume law s).IsHeap header)
    (hcurrent : s.heap.current = some pin) {f : SlottedPage → Result (Unit × SlottedPage)}
    (hf : (volume law s).IsData pin.key.page →
      ∃ e, f ((volume law s).data pin.key.page) = .error (.error e)) :
    (updatePage f).Ensures s (fun _ _ => False)
      (fun _ s' => Stays law rest s s' ∧ SamePlace s s') := by
  have hrefused : ∃ e, (SlottedPage.read ((volume law s).page pin.key.page) >>= f) =
      .error (.error e) := by
    by_cases hdata : (volume law s).IsData pin.key.page
    · obtain ⟨e, he⟩ := hf hdata
      rw [hv.read_data hdata]
      exact ⟨e, he⟩
    · obtain ⟨reason, hread⟩ := hv.read_one
      rw [Volume.eq_one_of_not_isData (h.has_current hcurrent) hdata, hread]
      exact ⟨_, rfl⟩
  obtain ⟨e, he⟩ := hrefused
  refine (refuses_updatePage h hcurrent he).mono (fun _ _ => False.elim) ?_
  rintro _ ⟨db₁, heap₁⟩ ⟨rfl, h₁, rfl, rfl⟩
  exact ⟨⟨h₁, .refl _, rfl⟩, rfl, rfl⟩

/-- Changing the current record in place changes its bytes and nothing else. -/
theorem ensures_modifyCurrent (h : Attached law rest s) (hv : (volume law s).IsHeap header)
    (edit : Edit) :
    (modifyCurrent edit).Ensures s
      (fun _ s' => Moves law rest s s' ∧ SamePlace s s' ∧
        ∃ rid old, s.heap.record = some rid ∧ (volume law s).record? rid = some old ∧
          (volume law s').record? = Function.update (volume law s).record? rid
            (some (edit old.length (Block.ofBytes old)).bytes))
      (fun _ s' => Stays law rest s s' ∧ SamePlace s s') := by
  unfold modifyCurrent
  rw [ensures_bind]
  refine (ensures_currentRecord s).mono ?_ ?_
  · rintro ⟨page, slot⟩ s ⟨rfl, hrecord, pin, hcurrent, rfl⟩
    cases hold : (volume law s).record? ⟨pin.key.page, slot⟩ with
    | none =>
      refine (refuses_edit h hv hcurrent fun hdata => ?_).mono (fun _ _ => False.elim)
        fun _ _ => id
      rw [Volume.record?_of_isData hdata] at hold
      rw [(hv.wellFormed _ hdata).modify_of_none hold]
      exact ⟨_, rfl⟩
    | some old =>
      have hdata : (volume law s).IsData pin.key.page := Volume.isData_of_record? hold
      have hslot := hold
      rw [Volume.record?_of_isData hdata] at hslot
      have hwell := hv.wellFormed _ hdata
      obtain ⟨q, hq, hwellq, hnumber, hnext, hupdate⟩ := hwell.modify_eq hslot edit
      have hcount : q.recordCount = ((volume law s).data pin.key.page).recordCount :=
        hwell.recordCount_congr hwellq fun other => by
          rw [hupdate]
          by_cases hother : other = slot
          · subst hother
            rw [Function.update_self, hslot]
            rfl
          · rw [Function.update_of_ne hother]
      refine (ensures_updatePage h hcurrent (hv.read_data hdata) (by rw [hq]; rfl)).mono ?_
        fun _ _ => False.elim
      rintro _ s₁ ⟨-, h₁, honly₁, hheap₁, hvolume₁⟩
      have hheap := hv.store hdata hwellq hnumber hnext hcount
      refine ⟨⟨h₁, honly₁, by rw [hheap₁], header, hvolume₁ ▸ hheap⟩,
        ⟨by rw [hheap₁], by rw [hheap₁]⟩, _, old, hrecord, hold, ?_⟩
      rw [hvolume₁]
      exact hv.record?_store hdata hwellq hnext hupdate
  · rintro e _ ⟨rfl, -⟩
    exact ⟨⟨h, .refl _, rfl⟩, rfl, rfl⟩

/-- Deleting the current record takes it out and changes nothing else.  It is refused only if the
record is not there any more, or its page is not the current one. -/
theorem ensures_deleteCurrent (h : Attached law rest s) (hv : (volume law s).IsHeap header) :
    deleteCurrent.Ensures s
      (fun _ s' => Moves law rest s s' ∧ SamePlace s s' ∧
        ∃ rid, s.heap.record = some rid ∧ ((volume law s).record? rid).isSome ∧
          (volume law s').record? = Function.update (volume law s).record? rid none ∧
          (volume law s').size = (volume law s).size)
      (fun _ s' => Stays law rest s s' ∧ SamePlace s s' ∧
        ∀ rid, s.heap.record = some rid → s.heap.currentPage? = some rid.page →
          (volume law s).record? rid = none) := by
  unfold deleteCurrent
  rw [ensures_bind]
  refine (ensures_currentRecord s).mono ?_ ?_
  · rintro ⟨page, slot⟩ s ⟨rfl, hrecord, pin, hcurrent, rfl⟩
    rw [ensures_bind]
    cases hold : (volume law s).record? ⟨pin.key.page, slot⟩ with
    | none =>
      refine (refuses_edit h hv hcurrent fun hdata => ?_).mono (fun _ _ => False.elim) ?_
      · have hslot := hold
        rw [Volume.record?_of_isData hdata] at hslot
        rw [(hv.wellFormed _ hdata).delete_of_none hslot]
        exact ⟨_, rfl⟩
      · rintro _ s' ⟨hstays, hplace⟩
        refine ⟨hstays, hplace, fun rid hrid _ => ?_⟩
        obtain rfl := Option.some.inj (hrecord.symm.trans hrid)
        exact hold
    | some old =>
      have hdata : (volume law s).IsData pin.key.page := Volume.isData_of_record? hold
      have hslot := hold
      rw [Volume.record?_of_isData hdata] at hslot
      have hwell := hv.wellFormed _ hdata
      obtain ⟨q, hq, hwellq, hnumber, hnext, hupdate⟩ := hwell.delete_eq (by rw [hslot]; rfl)
      have hcount : ((volume law s).data pin.key.page).recordCount = q.recordCount + 1 := by
        have hgone : q.record? slot = none := by rw [hupdate, Function.update_self]
        have hback : ((volume law s).data pin.key.page).record? =
            Function.update q.record? slot (some old) := by
          rw [hupdate, Function.update_idem, ← hslot, Function.update_eq_self]
        exact hwellq.recordCount_succ hwell hgone hback
      have hle := Volume.recordCount_le hdata
      have hrecords := hv.records
      have hlt := header.recordCount.toNat_lt
      have hcounted : (UInt32.ofNat (header.recordCount.toNat - 1)).toNat =
          header.recordCount.toNat - 1 := UInt32.toNat_ofNat_of_lt' (by
        simp only [UInt32.size]
        omega)
      have hdeleted : (((volume law s).data pin.key.page).delete slot).map (Prod.mk ()) =
          .ok ((), q) := by
        rw [hq]
        rfl
      refine (ensures_updatePage h hcurrent (hv.read_data hdata) hdeleted).mono ?_
        fun _ _ => False.elim
      rintro _ s₁ ⟨-, h₁, honly₁, hheap₁, hvolume₁⟩
      have hnew : (UInt32.ofNat (header.recordCount.toNat - 1)).toNat +
          ((volume law s).data pin.key.page).recordCount =
          header.recordCount.toNat + q.recordCount := by
        omega
      refine (ensures_recount h₁ hvolume₁ hv hdata hwellq hnumber hnext
        (f := fun h => .ok { h with recordCount := UInt32.ofNat (h.recordCount.toNat - 1) })
        rfl hnew).mono ?_ fun _ _ => False.elim
      rintro _ s₂ ⟨h₂, honly₂, hheap₂, hisHeap, hrecord₂⟩
      have hfile : s₁.heap.file = s.heap.file := by rw [hheap₁]
      refine ⟨⟨h₂, honly₁.trans (hfile ▸ honly₂), by rw [hheap₂, hfile], _, hisHeap⟩,
        ⟨by rw [hheap₂, hheap₁], by rw [hheap₂, hheap₁]⟩, _, hrecord, by rw [hold]; rfl, ?_, ?_⟩
      · rw [hrecord₂]
        exact hv.record?_store hdata hwellq hnext hupdate
      · exact hisHeap.pages.symm.trans hv.pages
  · rintro e _ ⟨rfl, helsewhere⟩
    exact ⟨⟨h, .refl _, rfl⟩, ⟨rfl, rfl⟩, fun rid hrid hpage => (helsewhere rid hrid hpage).elim⟩

/-- The current page counts as changed; the scan stays where it is. -/
theorem ensures_markDirty (h : Attached law rest s) :
    markDirty.Ensures s (fun _ s' => Stays law rest s s' ∧ SamePlace s s') Never := by
  unfold markDirty modifyHeap
  rw [ensures_modify]
  refine ⟨⟨?_, .refl _, rfl⟩, rfl, rfl⟩
  simp only
  cases hcurrent : s.heap.current with
  | none =>
    refine h.of_heap ?_ rfl rfl hcurrent.symm rfl
    unfold pins
    rw [hcurrent]
    rfl
  | some pin => exact h.markCurrent hcurrent

end HeapFile

end PagedHeap
