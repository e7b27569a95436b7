import PagedHeap.Proofs.Heap.Chain

/-!
# The order in which a heap file is filled

Records are put into a heap file in batches, one for each time that it was opened, and none is taken
out.  Every batch starts on the first page, as long as there is room, and goes on at the end of the
chain (`Volume.GoesOn`).  So a record goes behind all others, or to the first page although there
are records on later ones (`Volume.LandsAfter`).

The rows of the file are then those on the first page and behind them the others, each in the order
in which they were put there (`Volume.Filled.rows_eq`), and the rows of one batch are in this order,
too (`Volume.Filled.sublist`).  It is the order of all rows if nothing went to the first page any
more once there was something behind it (`Volume.Filled.rows_eq_flatten`).
-/

namespace PagedHeap

namespace Volume

/-- The order of rows is that of their addresses. -/
def RowBefore (a b : RecordId × Bytes) : Prop := a.1.Before b.1

/-- The second row went behind the first one, or to the first page although the first one is on a
later page. -/
def LandsAfter (a b : RecordId × Bytes) : Prop :=
  RowBefore a b ∨ b.1.page = ⟨2⟩ ∧ a.1.page ≠ ⟨2⟩

/-- Whether a row is on the first page of the chain. -/
def onFirst (row : RecordId × Bytes) : Bool := row.1.page = ⟨2⟩

/-- The rows of all batches, those on the first page in front. -/
def arranged (batches : List (List (RecordId × Bytes))) : List (RecordId × Bytes) :=
  batches.flatten.filter onFirst ++ batches.flatten.filter fun row => !onFirst row

instance : Std.Irrefl RowBefore := ⟨fun a => RecordId.Before.irrefl a.1⟩

instance : Std.Antisymm RowBefore :=
  ⟨fun a _ h h' => absurd (h.trans h') (RecordId.Before.irrefl a.1)⟩

/-- The rows of the batches are all records of the file, and none was taken out. -/
structure Filled (v : Volume) (batches : List (List (RecordId × Bytes))) : Prop where
  records : ∀ rid bytes, v.record? rid = some bytes ↔ (rid, bytes) ∈ batches.flatten
  /-- No slot is free before one that is in use. -/
  dense : ∀ {page slot}, v.record? ⟨page, slot⟩ ≠ none →
    ∀ other < slot, v.record? ⟨page, other⟩ ≠ none
  sorted : batches.flatten.Pairwise LandsAfter
  each : ∀ batch ∈ batches, batch.Pairwise RowBefore

/-- A page on which a batch goes on: the first one, if the batch did not leave it, or one without
records behind it. -/
def GoesOn (v : Volume) (batch : List (RecordId × Bytes)) (page : PageId) : Prop :=
  (page = ⟨2⟩ ∧ ∀ row ∈ batch, row.1.page = ⟨2⟩) ∨
    ∀ rid, v.record? rid ≠ none → rid.page.val.toNat ≤ page.val.toNat

variable {v w : Volume} {h : HeapHeader} {batch : List (RecordId × Bytes)}
variable {batches : List (List (RecordId × Bytes))} {rid : RecordId} {bytes : Bytes}

theorem flatten_concat_row (batches : List (List (RecordId × Bytes)))
    (batch : List (RecordId × Bytes)) (row : RecordId × Bytes) :
    (batches ++ [batch ++ [row]]).flatten = (batches ++ [batch]).flatten ++ [row] := by
  rw [List.flatten_concat, List.flatten_concat, List.append_assoc]

theorem length_arranged (batches : List (List (RecordId × Bytes))) :
    (arranged batches).length = batches.flatten.length := by
  unfold arranged
  rw [List.length_append, ← List.length_eq_length_filter_add]

/-- At first there is no batch and no record. -/
theorem filled_nil (hnone : ∀ rid, v.record? rid = none) : v.Filled [] where
  records rid bytes := by
    rw [hnone]
    exact ⟨nofun, nofun⟩
  dense hsome := absurd (hnone _) hsome
  sorted := .nil
  each := nofun

/-- Only the records matter. -/
theorem Filled.congr (hfilled : v.Filled batches) (hsame : w.record? = v.record?) :
    w.Filled batches where
  records := hsame ▸ hfilled.records
  dense := hsame ▸ hfilled.dense
  sorted := hfilled.sorted
  each := hfilled.each

theorem GoesOn.congr {page : PageId} (hgoes : v.GoesOn batch page) (hsame : w.record? = v.record?) :
    w.GoesOn batch page := by
  unfold GoesOn
  rw [hsame]
  exact hgoes

/-- A batch can always go on on the last page. -/
theorem goesOn_last {page : PageId} (hlast : w.IsLast page) : w.GoesOn batch page := by
  refine .inr fun rid hrid => ?_
  obtain ⟨bytes, hbytes⟩ := Option.ne_none_iff_exists'.1 hrid
  exact (isData_of_record? hbytes).le_last hlast

/-- A batch can go on on the page that is the last one once its next record is there. -/
theorem goesOn_of_last (hrecord : w.record? = Function.update v.record? rid (some bytes))
    (hlast : w.IsLast rid.page) : v.GoesOn batch rid.page := by
  refine .inr fun other hother => ?_
  by_cases heq : other = rid
  · rw [heq]
  · obtain ⟨value, hvalue⟩ := Option.ne_none_iff_exists'.1 hother
    have hw : w.record? other = some value := by
      rw [hrecord, Function.update_of_ne heq]
      exact hvalue
    exact (isData_of_record? hw).le_last hlast

/-- One more batch starts, and has no rows yet. -/
theorem Filled.start (hfilled : v.Filled batches) : v.Filled (batches ++ [[]]) where
  records := by
    rw [List.flatten_concat, List.append_nil]
    exact hfilled.records
  dense := hfilled.dense
  sorted := by
    rw [List.flatten_concat, List.append_nil]
    exact hfilled.sorted
  each other hother := by
    rcases List.mem_append.1 hother with hold | hnew
    · exact hfilled.each other hold
    · rw [List.mem_singleton.1 hnew]
      exact .nil

section Insert

variable (hfilled : v.Filled (batches ++ [batch])) (hfresh : v.record? rid = none)
  (hgoes : v.GoesOn batch rid.page)
include hfilled hfresh

/-- On the page of a new record all others have smaller slots. -/
theorem Filled.slot_lt {row : RecordId × Bytes} (hrow : row ∈ (batches ++ [batch]).flatten)
    (hpage : row.1.page = rid.page) : row.1.slot < rid.slot := by
  obtain ⟨⟨page, slot⟩, bytes⟩ := row
  obtain ⟨page', slot'⟩ := rid
  obtain rfl : page = page' := hpage
  have hlive := (hfilled.records _ bytes).2 hrow
  rw [← UInt16.not_le]
  intro hle
  rcases UInt16.lt_or_eq_of_le hle with hlt | heq
  · exact hfilled.dense (hlive.symm ▸ nofun) _ hlt hfresh
  · change slot' = slot at heq
    rw [heq, hlive] at hfresh
    cases hfresh

include hgoes

/-- A new record lands behind all others. -/
theorem Filled.landsAfter {row : RecordId × Bytes} (hrow : row ∈ (batches ++ [batch]).flatten) :
    LandsAfter row (rid, bytes) := by
  by_cases hpage : row.1.page = rid.page
  · exact .inl (.inr ⟨hpage, hfilled.slot_lt hfresh hrow hpage⟩)
  rcases hgoes with ⟨hfirst, -⟩ | hlast
  · exact .inr ⟨hfirst, fun heq => hpage (heq.trans hfirst.symm)⟩
  · have hlive := (hfilled.records row.1 row.2).2 hrow
    have hle := hlast row.1 (hlive.symm ▸ nofun)
    exact .inl (.inl (Nat.lt_of_le_of_ne hle fun heq => hpage (eq_of_toNat heq)))

/-- Within its batch a new record goes behind all others. -/
theorem Filled.rowBefore {row : RecordId × Bytes} (hrow : row ∈ batch) :
    RowBefore row (rid, bytes) := by
  have hmem : row ∈ (batches ++ [batch]).flatten := by
    rw [List.flatten_concat]
    exact List.mem_append_right _ hrow
  have hlands : LandsAfter row (rid, bytes) := hfilled.landsAfter hfresh hgoes hmem
  rcases hlands with hbefore | ⟨hfirst, hother⟩
  · exact hbefore
  · -- The batch has left the first page, so that its page is not the first one any more.
    rcases hgoes with ⟨-, hall⟩ | hlast
    · exact absurd (hall row hrow) hother
    · have hlive := (hfilled.records row.1 row.2).2 hmem
      have hle := hlast row.1 (hlive.symm ▸ nofun)
      have hne : row.1.page.val.toNat ≠ rid.page.val.toNat := fun heq =>
        hother ((eq_of_toNat heq).trans hfirst)
      exact .inl (Nat.lt_of_le_of_ne hle hne)

/-- A record is put into the last batch. -/
theorem Filled.insert (hbelow : ∀ slot < rid.slot, v.record? ⟨rid.page, slot⟩ ≠ none)
    (hrecord : w.record? = Function.update v.record? rid (some bytes)) :
    w.Filled (batches ++ [batch ++ [(rid, bytes)]]) where
  records := by
    intro other value
    rw [flatten_concat_row, List.mem_append, List.mem_singleton, Prod.mk.injEq, hrecord]
    by_cases hother : other = rid
    · subst hother
      rw [Function.update_self, ← hfilled.records, hfresh]
      exact ⟨fun heq => .inr ⟨rfl, (Option.some.inj heq).symm⟩,
        fun hor => hor.elim nofun fun heq => congrArg some heq.2.symm⟩
    · rw [Function.update_of_ne hother, hfilled.records]
      exact ⟨.inl, fun hor => hor.elim id fun heq => absurd heq.1 hother⟩
  dense := by
    intro page slot hsome other hother
    rw [hrecord] at hsome ⊢
    by_cases hnew : (⟨page, other⟩ : RecordId) = rid
    · rw [hnew, Function.update_self]
      nofun
    rw [Function.update_of_ne hnew]
    by_cases hslot : (⟨page, slot⟩ : RecordId) = rid
    · subst hslot
      exact hbelow other hother
    · rw [Function.update_of_ne hslot] at hsome
      exact hfilled.dense hsome other hother
  sorted := by
    rw [flatten_concat_row]
    refine List.pairwise_append.2 ⟨hfilled.sorted, List.pairwise_singleton _ _, ?_⟩
    intro row hrow new hnew
    rw [List.mem_singleton.1 hnew]
    exact hfilled.landsAfter hfresh hgoes hrow
  each := by
    intro other hother
    rcases List.mem_append.1 hother with hold | hnew
    · exact hfilled.each other (List.mem_append_left _ hold)
    · rw [List.mem_singleton.1 hnew]
      have hbatch := hfilled.each batch (List.mem_append_right _ (List.mem_singleton_self _))
      refine List.pairwise_append.2 ⟨hbatch, List.pairwise_singleton _ _, ?_⟩
      intro row hrow new hnew
      rw [List.mem_singleton.1 hnew]
      exact hfilled.rowBefore hfresh hgoes hrow

omit hfilled hfresh in
/-- The batch goes on on the page of its last record. -/
theorem GoesOn.insert (hrecord : w.record? = Function.update v.record? rid (some bytes)) :
    w.GoesOn (batch ++ [(rid, bytes)]) rid.page := by
  rcases hgoes with ⟨hfirst, hall⟩ | hlast
  · refine .inl ⟨hfirst, fun row hrow => ?_⟩
    rcases List.mem_append.1 hrow with hold | hnew
    · exact hall row hold
    · rw [List.mem_singleton.1 hnew]
      exact hfirst
  · refine .inr fun other hother => ?_
    rw [hrecord] at hother
    by_cases heq : other = rid
    · rw [heq]
    · rw [Function.update_of_ne heq] at hother
      exact hlast other hother

end Insert

/-! ## The rows of a heap file that was filled -/

section Rows

variable (hv : v.IsHeap h)
include hv

/-- The rows of a heap file are its records. -/
theorem IsHeap.mem_rows {row : RecordId × Bytes} : row ∈ v.rows ↔ v.record? row.1 = some row.2 := by
  unfold rows rowsAt
  rw [List.mem_filterMap]
  constructor
  · rintro ⟨rid, -, hmap⟩
    obtain ⟨bytes, hbytes, rfl⟩ := Option.map_eq_some_iff.1 hmap
    exact hbytes
  · intro hrecord
    refine ⟨row.1, hv.mem_listing.2 ?_, ?_⟩
    · rw [hrecord]
      rfl
    · rw [hrecord]
      rfl

/-- They are in the order of their addresses. -/
theorem IsHeap.sorted_rows : v.rows.Pairwise RowBefore := by
  have hsorted := hv.sorted_listing
  rw [← hv.map_fst_rows, List.pairwise_map] at hsorted
  exact hsorted

/-- When a record is deleted its row is gone. -/
theorem IsHeap.rows_of_deleted {h' : HeapHeader} (hw : w.IsHeap h') {rid : RecordId}
    (hrecord : w.record? = Function.update v.record? rid none) :
    w.rows = v.rows.filter fun row => row.1 ≠ rid := by
  refine hw.sorted_rows.eq_of_mem_iff (hv.sorted_rows.filter _) fun row => ?_
  rw [hw.mem_rows, hrecord, List.mem_filter, hv.mem_rows, decide_eq_true_iff]
  by_cases hrid : row.1 = rid
  · rw [hrid, Function.update_self]
    exact ⟨nofun, fun hrow => absurd rfl hrow.2⟩
  · rw [Function.update_of_ne hrid]
    exact ⟨fun hrow => ⟨hrow, hrid⟩, And.left⟩

variable (hfilled : v.Filled batches)
include hfilled

theorem Filled.mem_rows {row : RecordId × Bytes} : row ∈ v.rows ↔ row ∈ batches.flatten := by
  rw [hv.mem_rows, hfilled.records]

/-- The rows on the first page come in front of all others. -/
theorem Filled.rows_eq : v.rows = arranged batches := by
  refine hv.sorted_rows.eq_of_mem_iff ?_ fun row => ?_
  · refine List.pairwise_append.2 ⟨?_, ?_, fun a ha b hb => ?_⟩
    · refine (List.pairwise_filter.2 (hfilled.sorted.imp ?_))
      intro a b hlands ha hb
      rcases hlands with hbefore | ⟨-, hother⟩
      · exact hbefore
      · exact absurd (of_decide_eq_true ha) hother
    · refine (List.pairwise_filter.2 (hfilled.sorted.imp ?_))
      intro a b hlands ha hb
      rcases hlands with hbefore | ⟨hfirst, -⟩
      · exact hbefore
      · unfold onFirst at hb
        rw [hfirst] at hb
        cases hb
    · obtain ⟨-, hfirst⟩ := List.mem_filter.1 ha
      obtain ⟨hmem, hlater⟩ := List.mem_filter.1 hb
      have hpage : a.1.page = ⟨2⟩ := of_decide_eq_true hfirst
      have hdata := isData_of_record? ((hfilled.records b.1 b.2).2 hmem)
      have hne : b.1.page.val.toNat ≠ 2 := by
        intro htwo
        have heq : b.1.page = ⟨2⟩ := eq_of_toNat htwo
        unfold onFirst at hlater
        rw [heq] at hlater
        cases hlater
      refine .inl ?_
      rw [hpage]
      exact Nat.lt_of_le_of_ne hdata.1 (Ne.symm hne)
  · rw [hfilled.mem_rows hv]
    unfold arranged
    rw [List.mem_append, List.mem_filter, List.mem_filter, ← and_or_left]
    cases onFirst row <;> simp only [Bool.not_true, Bool.not_false, Bool.false_eq_true, or_false,
      or_true, and_true]

/-- The rows of one batch are in the order in which they were put there. -/
theorem Filled.sublist (hbatch : batch ∈ batches) : batch.Sublist v.rows := by
  classical
  have heq : batch = v.rows.filter (· ∈ batch) := by
    refine (hfilled.each batch hbatch).eq_of_mem_iff (hv.sorted_rows.filter _) fun row => ?_
    rw [List.mem_filter, decide_eq_true_eq, hfilled.mem_rows hv]
    exact ⟨fun hrow => ⟨List.mem_flatten.2 ⟨batch, hbatch, hrow⟩, hrow⟩, And.right⟩
  rw [heq]
  exact List.filter_sublist

/-- If nothing goes to the first page once there is something behind it, all rows are in the order
in which they were put there. -/
theorem Filled.rows_eq_flatten
    (hfirst : batches.flatten.Pairwise fun a b => b.1.page = ⟨2⟩ → a.1.page = ⟨2⟩) :
    v.rows = batches.flatten := by
  refine hv.sorted_rows.eq_of_mem_iff ?_ fun row => hfilled.mem_rows hv
  refine (hfilled.sorted.and hfirst).imp ?_
  rintro a b ⟨hbefore | ⟨hpage, hother⟩, hboth⟩
  · exact hbefore
  · exact absurd (hboth hpage) hother

end Rows

end Volume

end PagedHeap
