import PagedHeap.Proofs.Heap.Insert

/-!
# Making a heap file

A new file gets a header page and an empty data page.  If there is no frame for one of them, or the
header cannot be laid out, the file is left without a header: it stays blank, and is no heap file.
-/

namespace PagedHeap

open PagedHeap.Action

namespace Volume

variable {v : Volume}

/-- The file has at most a header page, and nothing is stored there yet. -/
def Blank (v : Volume) : Prop := v.size ≤ 1 ∨ v.size = 2 ∧ v.page ⟨1⟩ = Block.zero pageSize

theorem Blank.size_le (hv : v.Blank) : v.size ≤ 2 := by
  rcases hv with hsize | ⟨hsize, -⟩ <;> omega

/-- A blank file has no data pages. -/
theorem Blank.not_isData (hv : v.Blank) {p : PageId} : ¬v.IsData p := by
  rintro ⟨hlo, hhi⟩
  rcases hv with hsize | ⟨hsize, -⟩ <;> omega

/-- A blank file has no records. -/
theorem Blank.record?_eq (hv : v.Blank) : v.record? = fun _ => none :=
  funext fun _ => record?_of_not_isData hv.not_isData

/-- The header of a new heap file. -/
def newHeader (name : String) : HeapHeader := ⟨name, 1, 0, ⟨2⟩, ⟨2⟩⟩

/-- The pages of a new heap file. -/
def formatted (v : Volume) (headerPage : Page) : Volume :=
  (v.grow.grow.store ⟨2⟩ (SlottedPage.empty ⟨2⟩).data).store ⟨1⟩ headerPage

variable {headerPage : Page} {name : String}

theorem size_formatted (headerPage : Page) (hsize : v.size = 1) :
    (v.formatted headerPage).size = 3 := by
  unfold formatted
  rw [size_store, size_store, size_grow, size_grow, hsize]

/-- The only data page of a new heap file. -/
theorem isData_formatted (hsize : v.size = 1) {p : PageId} :
    (v.formatted headerPage).IsData p ↔ p = ⟨2⟩ := by
  have htwo : (2 : UInt32).toNat = 2 := rfl
  unfold IsData formatted
  simp only [size_store, size_grow, hsize]
  constructor
  · rintro ⟨hlo, hhi⟩
    exact eq_of_toNat (by rw [htwo]; omega)
  · rintro rfl
    exact ⟨htwo.ge, by rw [htwo]; omega⟩

theorem data_formatted (v : Volume) (headerPage : Page) :
    (v.formatted headerPage).data ⟨2⟩ = .empty ⟨2⟩ := by
  have hread := (SlottedPage.wellFormed_empty ⟨2⟩).read (by rw [SlottedPage.next_empty]; nofun)
  unfold formatted
  rw [data_store_of_ne _ (by decide), data_store_self _ _ hread]

/-- A new heap file is one. -/
theorem isHeap_formatted (hsize : v.size = 1) (hvalid : (newHeader name).Valid)
    (hheader : HeapHeader.read headerPage = .ok (newHeader name)) :
    (v.formatted headerPage).IsHeap (newHeader name) := by
  have htwo : (2 : UInt32).toNat = 2 := rfl
  have hthree := size_formatted headerPage hsize
  have hnext : (v.formatted headerPage).nextOf ⟨2⟩ = none := by
    unfold nextOf
    rw [if_neg (by rw [hthree, htwo]; omega)]
  refine ⟨?_, hvalid, rfl, hthree.symm, hthree.symm, hthree.ge, by omega, fun p hp => ?_,
    fun p hp => ?_, fun p hp => ?_, ?_⟩
  · unfold formatted
    rw [page_store_self, hheader]
  · obtain rfl := (isData_formatted hsize).1 hp
    rw [data_formatted]
    exact SlottedPage.wellFormed_empty _
  · obtain rfl := (isData_formatted hsize).1 hp
    rw [data_formatted, SlottedPage.page_empty]
  · obtain rfl := (isData_formatted hsize).1 hp
    rw [data_formatted, SlottedPage.next_empty, hnext]
  · have hone : (v.formatted headerPage).recordCount = 0 := by
      unfold recordCount
      rw [hthree, Finset.sum_Ico_succ_top (by omega), Finset.Ico_self, Finset.sum_empty,
        Nat.zero_add]
      exact (congrArg SlottedPage.recordCount (data_formatted v headerPage)).trans
        (SlottedPage.recordCount_empty _)
    rw [hone]
    rfl

/-- A new heap file has two pages besides the one with the file header. -/
theorem size_new (hv : v.IsHeap (newHeader name)) : v.size = 3 := hv.pages.symm

/-- A new heap file has no records. -/
theorem record?_new (hv : v.IsHeap (newHeader name)) : v.record? = fun _ => none := by
  have hcount : v.recordCount = 0 := hv.records.symm
  funext ⟨page, slot⟩
  by_cases hdata : v.IsData page
  · rw [record?_of_isData hdata]
    have hwell := hv.wellFormed page hdata
    have hrecords : (v.data page).records = [] := by
      refine List.eq_nil_of_length_eq_zero ?_
      rw [hwell.length_records]
      exact Nat.le_zero.1 (hcount ▸ recordCount_le hdata)
    refine Option.eq_none_iff_forall_ne_some.2 fun bytes hbytes => ?_
    have hmem := hwell.mem_records.2 hbytes
    rw [hrecords] at hmem
    cases hmem
  · exact record?_of_not_isData hdata

end Volume

namespace Database

variable {σ : Type} [FileStore σ] {law : PageStore.Reliable σ} {db : Database σ}
variable {pins : Multiset Pin} {headerPin firstPin : Pin} {name : String}

/-- Lays out the two pages of a new heap file. -/
def layOut (headerPin firstPin : Pin) (name : String) : Action (Database σ) Unit := do
  let first ← Action.ofResult (SlottedPage.format (← pageOf firstPin) firstPin.key.page)
  setPage firstPin first.data
  let header ← Action.ofResult (HeapHeader.new name firstPin.key.page)
  setPage headerPin (← Action.ofResult (header.write (← pageOf headerPin)))

theorem formatHeap_eq (file : FileHandle) (name : String) :
    (formatHeap file name : Action (Database σ) Unit) = (do
      let headerPin ← allocate file.id
      let firstPin ← (allocate file.id).orClean (drop headerPin)
      (layOut headerPin firstPin name).orClean do
        drop firstPin
        drop headerPin
      (release headerPin).orClean (drop firstPin)
      release firstPin
      flushFile file.id) := rfl

/-- The header of a new heap file can be stored. -/
theorem valid_newHeader (hpos : 0 < name.utf8ByteSize) (hle : name.utf8ByteSize ≤ maxFileNameSize) :
    (Volume.newHeader name).Valid :=
  ⟨hpos, hle, (by decide : (⟨2⟩ : PageId) ≠ .invalid), (by decide : (⟨2⟩ : PageId) ≠ .invalid)⟩

/-- Two new pages are laid out as a heap file. -/
theorem ensures_layOut {file : FileId} {v : Volume} (hvalid : (Volume.newHeader name).Valid)
    (h : law.Holds (firstPin ::ₘ headerPin ::ₘ pins) db) (hheader : headerPin.key = ⟨file, ⟨1⟩⟩)
    (hfirst : firstPin.key = ⟨file, ⟨2⟩⟩) (hdirty : headerPin.dirty = true)
    (hdirty' : firstPin.dirty = true) (hgrown : law.volume db file = v.grow.grow) :
    (layOut headerPin firstPin name).Ensures db
      (fun _ db' => law.Holds (firstPin ::ₘ headerPin ::ₘ pins) db' ∧ law.Only file db db' ∧
        ∃ data, HeapHeader.read data = .ok (Volume.newHeader name) ∧
          law.volume db' file = v.formatted data) Never := by
  have hmem : firstPin ∈ firstPin ::ₘ headerPin ::ₘ pins := Multiset.mem_cons_self _ _
  have hmem' : headerPin ∈ firstPin ::ₘ headerPin ::ₘ pins :=
    Multiset.mem_cons_of_mem (Multiset.mem_cons_self _ _)
  have hnew : HeapHeader.new name firstPin.key.page = .ok (Volume.newHeader name) := by
    have hempty : name.isEmpty = false := beq_false_of_ne hvalid.name_pos.ne'
    have hlong : decide (maxFileNameSize < name.utf8ByteSize) = false :=
      decide_eq_false (Nat.not_lt.2 hvalid.name_le)
    unfold HeapHeader.new
    rw [hempty, hfirst, hlong]
    rfl
  unfold layOut
  rw [ensures_bind]
  refine (ensures_pageOf h hmem).mono ?_ fun _ _ => id
  rintro page db ⟨rfl, -⟩
  rw [ensures_bind, ensures_ofResult_ok (HeapFile.format_eq _ _), ensures_bind]
  refine (stores_setPage h hmem hdirty' _).mono ?_ fun _ _ => id
  rintro _ db₁ ⟨h₁, honly₁, hvolume₁⟩
  rw [hfirst] at honly₁ hvolume₁
  rw [ensures_bind, ensures_ofResult_ok hnew, ensures_bind]
  refine (ensures_pageOf h₁ hmem').mono ?_ fun _ _ => id
  rintro page db₁ ⟨rfl, -⟩
  obtain ⟨data, hwrite, hdata⟩ := hvalid.read_write page (by decide)
  rw [ensures_bind, ensures_ofResult_ok hwrite]
  refine (stores_setPage h₁ hmem' hdirty data).mono ?_ fun _ _ => id
  rintro _ db₂ ⟨h₂, honly₂, hvolume₂⟩
  rw [hheader] at honly₂ hvolume₂
  refine ⟨h₂, honly₁.trans honly₂, data, hdata, ?_⟩
  simp only at hvolume₁ hvolume₂
  rw [hvolume₂, hvolume₁, hgrown]
  rfl

/-- A new file becomes a heap file without records, or it stays blank because there is no frame for
its pages. -/
theorem ensures_formatHeap (h : law.Holds pins db) (file : FileHandle)
    (hvalid : (Volume.newHeader name).Valid) (hsize : (law.volume db file.id).size = 1) :
    (formatHeap file name).Ensures db
      (fun _ db' => law.Holds pins db' ∧ law.Only file.id db db' ∧
        ∃ data, HeapHeader.read data = .ok (Volume.newHeader name) ∧
          law.volume db' file.id = (law.volume db file.id).formatted data)
      (fun e db' => law.Holds pins db' ∧ law.Only file.id db db' ∧
        (law.volume db' file.id).Blank ∧ e = .bufferPoolExhausted) := by
  rw [formatHeap_eq, ensures_bind]
  refine (grows_allocate h file.id (by omega) (by omega)).mono ?_ ?_
  · rintro headerPin db₁ ⟨hkey₁, hdirty₁, h₁, honly₁, hvolume₁⟩
    have hsize₁ : (law.volume db₁ file.id).size = 2 := by rw [hvolume₁, Volume.size_grow, hsize]
    rw [hsize] at hkey₁
    rw [ensures_bind, ensures_orClean]
    refine (grows_allocate h₁ file.id (by omega) (by omega)).mono ?_ ?_
    · rintro firstPin db₂ ⟨hkey₂, hdirty₂, h₂, honly₂, hvolume₂⟩
      rw [hsize₁] at hkey₂
      rw [hvolume₁] at hvolume₂
      rw [ensures_bind, ensures_orClean]
      refine (ensures_layOut hvalid h₂ hkey₁ hkey₂ hdirty₁ hdirty₂ hvolume₂).mono ?_
        fun _ _ => False.elim
      rintro _ db₃ ⟨h₃, honly₃, data, hdata, hvolume₃⟩
      rw [Multiset.cons_swap] at h₃
      rw [ensures_bind, ensures_orClean]
      refine (holds_release h₃).mono ?_ fun _ _ => False.elim
      rintro _ db₄ ⟨h₄, hsame₄⟩
      rw [ensures_bind]
      refine (holds_release h₄).mono ?_ fun _ _ => False.elim
      rintro _ db₅ ⟨h₅, hsame₅⟩
      refine (holds_flushFile h₅ file.id).mono ?_ fun _ _ => False.elim
      rintro _ db₆ ⟨h₆, hsame₆⟩
      have hsame := (hsame₄.trans hsame₅).trans hsame₆
      refine ⟨h₆, ((honly₁.trans honly₂).trans honly₃).trans (.of_same hsame _), data, hdata, ?_⟩
      rw [PageStore.Reliable.volume_of_same hsame, hvolume₃]
    · rintro e db₂ ⟨h₂, hsame₂, hcause⟩
      have hblank : (law.volume db₁ file.id).Blank := by
        have hzero := Volume.page_grow_self (law.volume db file.id)
        rw [hsize, ← hvolume₁] at hzero
        exact .inr ⟨hsize₁, hzero⟩
      refine (holds_drop h₂).mono ?_ fun _ _ => False.elim
      rintro _ db₃ ⟨h₃, hsame₃⟩
      have hsame := hsame₂.trans hsame₃
      refine ⟨h₃, honly₁.trans (.of_same hsame _), ?_, hcause⟩
      rw [PageStore.Reliable.volume_of_same hsame]
      exact hblank
  · rintro e db₁ ⟨h₁, hsame₁, hcause⟩
    refine ⟨h₁, .of_same hsame₁ _, .inl ?_, hcause⟩
    rw [PageStore.Reliable.volume_of_same hsame₁, hsize]

end Database

end PagedHeap
