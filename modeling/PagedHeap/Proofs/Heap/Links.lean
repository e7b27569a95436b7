import PagedHeap.Proofs.Heap.Housed

/-!
# Scans follow the links that they find

A scan goes from a page to the one that it names as the next, whatever page that is: nothing but the
bytes of the page is asked, and no account is kept of the pages that were visited. What is proved
here of one call of a scan holds for pages of any bytes, over both stores, wherever the scan stands.

`HeapFile.Passes` is the way of a scan that finds nothing. Each of its steps leads through one page
of the file. If the links never lead back to a page that was looked through, the pages of the way
are different ones, so that it is no longer than the file, and the scan ends
(`HeapFile.scans_advance`). If they do lead back, it need not end at all
(`HeapFile.endless_circular`).
-/

namespace PagedHeap

open PagedHeap.Action

namespace HeapFile

variable {σ : Type} [FileStore σ] {store : FileStore.Measured σ} {s t : HeapState σ}

/-! ## The way of a scan -/

/-- From `s` a scan goes through `pages`, in this order, and finds nothing there.  The page that it
comes to is `next`; then it is in the state `t`. -/
inductive Passes (filter : Option Filter) (s : HeapState σ) :
    List PageId → Option PageId → HeapState σ → Prop
  | start : Passes filter s [] s.heap.position s
  | step {pages : List PageId} {page : PageId} {next : Option PageId} {t t' : HeapState σ} :
    Passes filter s pages (some page) t → scanPage filter page t = .ok (.inr next) t' →
    Passes filter s (pages ++ [page]) next t'

/-- None of the links that a scan follows leads back to a page that it looked through. -/
def Forward (filter : Option Filter) (s : HeapState σ) : Prop :=
  ∀ ⦃pages page t⦄, Passes filter s pages (some page) t → page ∉ pages

/-- No page is looked through after this one. -/
def Halts (filter : Option Filter) (page : Option PageId) (t : HeapState σ) : Prop :=
  ∀ p, page = some p → ∀ next t', scanPage filter p t ≠ .ok (.inr next) t'

variable {filter : Option Filter} {pages : List PageId} {page : PageId} {next : Option PageId}

/-- Every page on the way is one of the file. -/
theorem Passes.moved (passes : Passes filter s pages next t) (h : Housed store s) :
    Moved store s t ∧ ∀ page ∈ pages, store.Has s.db.files ⟨s.heap.file.id, page⟩ := by
  induction passes with
  | start => exact ⟨h.moved, nofun⟩
  | step _ hscan ih =>
    obtain ⟨ht, hall⟩ := ih
    obtain ⟨ht', hhas, -⟩ := (housed_scanPage ht.housed filter _).of_ok hscan
    refine ⟨ht.trans ht', fun page hpage => ?_⟩
    rcases List.mem_append.1 hpage with hold | hnew
    · exact hall page hold
    · rw [List.mem_singleton.1 hnew]
      exact ht.has_iff.1 hhas

/-- The way has as many steps as it has pages. -/
theorem Passes.scanChain_eq (passes : Passes filter s pages next t) (k : Nat) :
    scanChain filter (pages.length + k) s.heap.position s = scanChain filter k next t := by
  induction passes generalizing k with
  | start => rw [List.length_nil, Nat.zero_add]
  | step _ hscan ih =>
    rw [List.length_append, List.length_singleton, Nat.add_assoc, Nat.add_comm 1, ih,
      scanChain_succ, bind_run_ok hscan]
    rfl

/-- If no link leads back, the pages on the way are different ones. -/
theorem Passes.nodup (passes : Passes filter s pages next t) (h : Forward filter s) :
    pages.Nodup := by
  induction passes with
  | start => exact .nil
  | step passes _ ih =>
    rw [← List.concat_eq_append]
    exact .concat (h passes) ih

/-- The way has any number of pages, unless it comes to an end before. -/
theorem exists_passes (filter : Option Filter) (s : HeapState σ) (n : Nat) :
    (∃ pages next t, Passes filter s pages next t ∧ pages.length = n) ∨
      ∃ pages next t, Passes filter s pages next t ∧ pages.length < n ∧ Halts filter next t := by
  induction n with
  | zero => exact .inl ⟨[], _, s, .start, rfl⟩
  | succ n ih =>
    rcases ih with ⟨pages, next, t, passes, hlength⟩ | ⟨pages, next, t, passes, hlt, hhalts⟩
    · by_cases hhalts : Halts filter next t
      · exact .inr ⟨pages, next, t, passes, by omega, hhalts⟩
      · unfold Halts at hhalts
        push Not at hhalts
        obtain ⟨page, rfl, next', t', hscan⟩ := hhalts
        refine .inl ⟨_, next', t', passes.step hscan, ?_⟩
        rw [List.length_append, hlength]
        rfl
    · exact .inr ⟨pages, next, t, passes, by omega, hhalts⟩

/-- Different pages of a file are no more than the file has. -/
theorem length_le_of_has {n : Nat} (hnodup : pages.Nodup)
    (hhas : ∀ page ∈ pages, 0 < page.val.toNat ∧ page.val.toNat < n) : pages.length ≤ n - 1 := by
  have hinjective : Function.Injective fun page : PageId => page.val.toNat :=
    fun _ _ => Volume.eq_of_toNat
  have hnumbers : (pages.map fun page => page.val.toNat).Nodup := hnodup.map hinjective
  have hsubset : (pages.map fun page => page.val.toNat).toFinset ⊆ Finset.Ioo 0 n := by
    intro i hi
    obtain ⟨page, hpage, rfl⟩ := List.mem_map.1 (List.mem_toFinset.1 hi)
    exact Finset.mem_Ioo.2 (hhas page hpage)
  calc pages.length = (pages.map fun page => page.val.toNat).toFinset.card := by
        rw [List.toFinset_card_of_nodup hnumbers, List.length_map]
    _ ≤ (Finset.Ioo 0 n).card := Finset.card_le_card hsubset
    _ = n - 1 := by rw [Nat.card_Ioo, Nat.sub_zero]

/-- Where the way comes to an end, the scan ends with one more step. -/
theorem Halts.ends (h : Halts filter next t) (ht : Housed store t) :
    (∃ t', (scanChain filter 1 next).Ends t t') ∧
      ∀ k, scanChain filter (k + 1) next t = scanChain filter 1 next t := by
  cases next with
  | none => exact ⟨⟨_, .inl ⟨none, rfl⟩⟩, fun _ => rfl⟩
  | some page =>
    have hscan := housed_scanPage ht filter page
    refine ⟨?_, fun k => ?_⟩
    · rw [scanChain_succ]
      cases hrun : scanPage filter page t with
      | ok answer t' =>
        cases answer with
        | inl rid => exact ⟨t', .inl ⟨some rid, bind_run_ok hrun _⟩⟩
        | inr next => exact absurd hrun (h page rfl next t')
      | error failure t' =>
        cases failure with
        | error e => exact ⟨t', .inr ⟨e, bind_run_error hrun _⟩⟩
        | trap cause => exact absurd hrun hscan.not_trap
    · rw [scanChain_succ, scanChain_succ]
      cases hrun : scanPage filter page t with
      | ok answer t' =>
        cases answer with
        | inl rid => rw [bind_run_ok hrun, bind_run_ok hrun]; rfl
        | inr next => exact absurd hrun (h page rfl next t')
      | error failure t' => rw [bind_run_error hrun, bind_run_error hrun]

/-- How one call of a scan goes on, whatever is on the pages of the file. -/
structure Advances (store : FileStore.Measured σ) (filter : Option Filter) (s : HeapState σ) :
    Prop where
  /-- Every page that is looked through is one of the file, and the page that comes next is the one
  that its bytes name. -/
  linked : ∀ {pages page next t t'}, Passes filter s pages (some page) t →
    scanPage filter page t = .ok (.inr next) t' →
    store.Has s.db.files ⟨s.heap.file.id, page⟩ ∧ LinksTo t' page next
  /-- The scan does not stop with a fault.  If it does not end within some steps, it has gone
  through as many pages. -/
  sound : ∀ {steps cause t}, scanChain filter steps s.heap.position s = .error (.trap cause) t →
    cause = .endless ∧ ∃ pages page, Passes filter s pages (some page) t ∧ pages.length = steps
  /-- If no link leads back, no page is visited twice. -/
  once : Forward filter s → ∀ {pages page t}, Passes filter s pages (some page) t →
    (pages ++ [page]).Nodup
  /-- Then the scan ends after at most as many steps as the file has pages. -/
  ends : Forward filter s →
    (∃ t, (scanChain filter (store.size s.db.files s.heap.file.id) s.heap.position).Ends s t) ∧
    ∀ k, scanChain filter (store.size s.db.files s.heap.file.id + k) s.heap.position s =
      scanChain filter (store.size s.db.files s.heap.file.id) s.heap.position s
  /-- If the pages can be counted, these are steps enough for going on. -/
  next : Forward filter s → store.size s.db.files s.heap.file.id < 2 ^ 32 →
    scanNext filter s = scanChain filter (store.size s.db.files s.heap.file.id) s.heap.position s

/-- As many steps as the file has pages are enough if no link leads back. -/
theorem Housed.ends (h : Housed store s) (hforward : Forward filter s) :
    (∃ t, (scanChain filter (store.size s.db.files s.heap.file.id) s.heap.position).Ends s t) ∧
      ∀ k, scanChain filter (store.size s.db.files s.heap.file.id + k) s.heap.position s =
        scanChain filter (store.size s.db.files s.heap.file.id) s.heap.position s := by
  have hlength {pages next t} (passes : Passes filter s pages next t) :
      pages.length ≤ store.size s.db.files s.heap.file.id - 1 :=
    length_le_of_has (passes.nodup hforward) (passes.moved h).2
  have hsize : 1 < store.size s.db.files s.heap.file.id := h.header.2
  rcases exists_passes filter s (store.size s.db.files s.heap.file.id) with
    ⟨pages, next, t, passes, heq⟩ | ⟨pages, next, t, passes, hlt, hhalts⟩
  · have := hlength passes
    omega
  · obtain ⟨⟨t', hends⟩, hmore⟩ := hhalts.ends (passes.moved h).1.housed
    have hall (k : Nat) : scanChain filter (store.size s.db.files s.heap.file.id + k)
        s.heap.position s = scanChain filter 1 next t := by
      rw [← hmore (store.size s.db.files s.heap.file.id - pages.length - 1 + k),
        ← passes.scanChain_eq]
      congr 1
      omega
    refine ⟨⟨t', ?_⟩, fun k => (hall k).trans (hall 0).symm⟩
    unfold Ends at hends ⊢
    rwa [← Nat.add_zero (store.size s.db.files s.heap.file.id), hall]

/-- A scan counts the pages of its file and those in the pool. -/
theorem Housed.scanNext_eq (h : Housed store s)
    (hsize : store.size s.db.files s.heap.file.id < 2 ^ 32) (filter : Option Filter) :
    scanNext filter s = scanChain filter
      (store.size s.db.files s.heap.file.id + (s.db.pool.size + 2)) s.heap.position s := by
  have hcount : walkBound.Ensures s (fun bound s' =>
      bound = store.size s.db.files s.heap.file.id + (s.db.pool.size + 2) ∧ s' = s) Never := by
    unfold walkBound Database.onFiles
    rw [ensures_bind, ensures_get, ensures_bind, ensures_onDatabase, ensures_onPart]
    refine (store.counting s.db.files s.heap.file.id).mono ?_ ?_
    · rintro n files ⟨rfl, rfl⟩
      rw [ensures_pure, UInt32.toNat_ofNat_of_lt' hsize, Nat.add_assoc]
      exact ⟨rfl, rfl⟩
    · rintro e files ⟨-, hzero⟩
      exact absurd h.header.2 (by rw [hzero]; exact Nat.not_lt_zero _)
  exact bind_run_ok hcount.run_eq fun bound => do scanChain filter bound (← get).heap.position

/-- A scan stops with no fault but that its steps do not lead it to an end. -/
theorem Housed.sound {steps : Nat} {cause : Trap} (h : Housed store s)
    (htrap : scanChain filter steps s.heap.position s = .error (.trap cause) t) :
    cause = .endless ∧
      ∃ pages page, Passes filter s pages (some page) t ∧ pages.length = steps := by
  rcases exists_passes filter s steps with
    ⟨pages, next, t', passes, rfl⟩ | ⟨pages, next, t', passes, hlt, hhalts⟩
  · have hrun := passes.scanChain_eq 0
    rw [Nat.add_zero, htrap] at hrun
    cases next with
    | none => cases hrun
    | some page =>
      cases hrun
      exact ⟨rfl, pages, page, passes, rfl⟩
  · obtain ⟨⟨u, hends⟩, hmore⟩ := hhalts.ends (passes.moved h).1.housed
    obtain ⟨k, rfl⟩ : ∃ k, steps = pages.length + (k + 1) := ⟨steps - pages.length - 1, by omega⟩
    rw [passes.scanChain_eq, hmore] at htrap
    rcases hends with ⟨answer, hrun⟩ | ⟨e, hrun⟩
    · cases hrun.symm.trans htrap
    · cases hrun.symm.trans htrap

/-- The page that comes next was not looked through either, if no link leads back. -/
theorem Passes.nodup_concat (passes : Passes filter s pages (some page) t)
    (h : Forward filter s) : (pages ++ [page]).Nodup := by
  rw [← List.concat_eq_append]
  exact .concat (h passes) (passes.nodup h)

/-- A scan goes from page to page by the links that it finds, and never stops with a fault.  Unless
they lead back to a page that it looked through, it visits no page twice, and is answered or refused
after at most as many steps as the file has pages. -/
theorem Housed.advances (h : Housed store s) (filter : Option Filter) :
    Advances store filter s where
  linked passes hscan := by
    obtain ⟨ht, -⟩ := passes.moved h
    obtain ⟨-, hhas, hlink⟩ := (housed_scanPage ht.housed filter _).of_ok hscan
    exact ⟨ht.has_iff.1 hhas, hlink _ rfl⟩
  sound := h.sound
  once hforward _ _ _ passes := passes.nodup_concat hforward
  ends := h.ends
  next hforward hsize := (h.scanNext_eq hsize filter).trans ((h.ends hforward).2 _)

/-- Every file that is opened as a heap file can be scanned, whatever is on its pages.  Wherever the
scan stands and whatever it looks for, one call of it goes on by the links that it finds. -/
theorem scans_advance (store : FileStore.Measured σ) :
    (∀ db : Database σ, store.valid db.files → Database.Stocked store db → ∀ name heap db',
      Database.openHeap name db = .ok heap db' → Housed store ⟨db', heap⟩) ∧
    ∀ s : HeapState σ, Housed store s → ∀ position record filter,
      Advances store filter ⟨s.db, { s.heap with position := position, record := record }⟩ := by
  constructor
  · intro db hvalid hstocked name heap db' hopen
    exact (Database.housed_openHeap hvalid hstocked name).of_ok hopen
  · intro s h position record filter
    exact (h.sent position record).advances filter

/-- A scan of a file whose only data page names a page that is not there. -/
theorem advances_dangling : ∃ heap db,
    Database.openHeap "t" ⟨twoPages headerPage (linkingPage (some ⟨9⟩)).data, .empty 8⟩ =
      .ok heap db ∧
    Housed MemoryFiles.measured ⟨db, heap⟩ ∧ Forward none ⟨db, heap⟩ ∧
    Advances MemoryFiles.measured none ⟨db, heap⟩ := by
  have hlinking := read_linkingPage (by decide : some ⟨9⟩ ≠ some PageId.invalid)
  have hscan := scanPage_opened (a := headerPage) hlinking rfl none
  have hopen := openHeap_twoPages read_headerPage hlinking
  have hhoused := (scans_advance MemoryFiles.measured).1
    ⟨twoPages headerPage (linkingPage (some ⟨9⟩)).data, .empty 8⟩ (regular_twoPages _ _) nofun _ _ _
    hopen
  have hway {pages next t} (passes : Passes none
      (opened headerPage (linkingPage (some ⟨9⟩)).data) pages next t) :
      pages = [] ∧ next = some ⟨2⟩ ∧ t = opened headerPage (linkingPage (some ⟨9⟩)).data ∨
        pages = [⟨2⟩] ∧ next = some ⟨9⟩ ∧
          t = opened headerPage (linkingPage (some ⟨9⟩)).data := by
    induction passes with
    | start => exact .inl ⟨rfl, rfl, rfl⟩
    | step _ hstep ih =>
      rcases ih with ⟨rfl, hpage, rfl⟩ | ⟨rfl, hpage, rfl⟩
      · cases hpage
        cases hscan.symm.trans hstep
        exact .inr ⟨rfl, rfl, rfl⟩
      · cases hpage
        obtain ⟨-, hhas, -⟩ := (housed_scanPage hhoused none ⟨9⟩).of_ok hstep
        exact absurd hhas.2 (by decide)
  refine ⟨_, _, hopen, hhoused, fun pages page t passes => ?_,
    (scans_advance MemoryFiles.measured).2 _ hhoused (some ⟨2⟩) none none⟩
  rcases hway passes with ⟨rfl, -, -⟩ | ⟨rfl, hpage, -⟩
  · exact List.not_mem_nil
  · cases hpage
    decide

/-- A page without records that names itself as the next is looked through again and again. -/
theorem endless_circular : ∃ heap db,
    Database.openHeap "t" ⟨twoPages headerPage (linkingPage (some ⟨2⟩)).data, .empty 8⟩ =
      .ok heap db ∧
    heap.position = some ⟨2⟩ ∧
    (∀ n, Passes none ⟨db, heap⟩ (List.replicate n ⟨2⟩) (some ⟨2⟩) ⟨db, heap⟩) ∧
    ∀ steps, scanChain none steps heap.position ⟨db, heap⟩ =
      .error (.trap .endless) ⟨db, heap⟩ := by
  have hlinking := read_linkingPage (by decide : some ⟨2⟩ ≠ some PageId.invalid)
  have hscan := scanPage_opened (a := headerPage) hlinking rfl none
  have hpasses (n : Nat) : Passes none (opened headerPage (linkingPage (some ⟨2⟩)).data)
      (List.replicate n ⟨2⟩) (some ⟨2⟩) (opened headerPage (linkingPage (some ⟨2⟩)).data) := by
    induction n with
    | zero => exact .start
    | succ n ih =>
      rw [List.replicate_succ']
      exact ih.step hscan
  refine ⟨_, _, openHeap_twoPages read_headerPage hlinking, rfl, hpasses, fun steps => ?_⟩
  have hrun := (hpasses steps).scanChain_eq 0
  rwa [List.length_replicate] at hrun

end HeapFile

end PagedHeap
