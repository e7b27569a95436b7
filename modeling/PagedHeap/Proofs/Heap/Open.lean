import PagedHeap.Proofs.Allows
import PagedHeap.Proofs.Heap.Attached
import PagedHeap.Proofs.Heap.Create

/-!
# Pinning the first pages of a heap file

An open heap file starts with its header page and its first data page pinned.  A blank file is not
opened, and gives back the pins that were taken on the way.
-/

namespace PagedHeap

open PagedHeap.Action

namespace HeapHeader

/-- A page of zeros is no header of a heap file. -/
theorem read_zero : ∃ e, HeapHeader.read (Block.zero pageSize) = .error (.error e) := by
  have hkind : PageKind.ofByte? ((Block.zero pageSize).byteAt 0) ≠ some .heapHeader := by
    rw [Block.byteAt_zero]
    decide
  unfold HeapHeader.read
  rw [if_neg (by decide), if_pos (.inl hkind)]
  exact ⟨_, rfl⟩

end HeapHeader

namespace PageStore.Reliable

variable {σ : Type} [PageStore σ] (law : PageStore.Reliable σ)

/-- The first page of a file is there if the file has more pages than its own. -/
theorem ensures_firstPage (s : σ) (file : FileId) (hsize : law.size s file < 2 ^ 32) :
    (PageStore.firstPage file).Ensures s (fun page t => t = s ∧ page = ⟨1⟩ ∧ 1 < law.size s file)
      (fun _ t => t = s ∧ law.size s file ≤ 1) := by
  unfold PageStore.firstPage
  rw [ensures_bind]
  refine (law.count s file).mono ?_ fun _ _ => False.elim
  rintro n t ⟨rfl, rfl⟩
  rw [UInt32.toNat_ofNat_of_lt' hsize]
  split
  · next hlt => exact ⟨rfl, rfl, hlt⟩
  · next hle => exact ⟨rfl, Nat.le_of_not_lt hle⟩

end PageStore.Reliable

namespace Database

variable {σ : Type} [PageStore σ] {law : PageStore.Reliable σ} {db : Database σ}
variable {pins : Multiset Pin} {headerPin : Pin} {header : HeapHeader}

/-- The file is a heap file, or was never laid out as one. -/
def Usable (law : PageStore.Reliable σ) (db : Database σ) (file : FileId) : Prop :=
  (law.volume db file).Blank ∨ ∃ header, (law.volume db file).IsHeap header

theorem Usable.size_lt {file : FileId} (h : Usable law db file) :
    law.size db.files file < 2 ^ 32 := by
  rcases h with (hsize | ⟨hsize, -⟩) | ⟨header, hv⟩
  · exact Nat.lt_of_le_of_lt hsize (by decide)
  · exact Nat.lt_of_le_of_lt hsize.le (by decide)
  · exact hv.size_lt

/-- Pins the first data page of a heap file whose header page is pinned. -/
def pinChain (file : FileHandle) (headerPin : Pin) : Action (Database σ) HeapFile := do
  let header ← Action.ofResult (HeapHeader.read (← pageOf headerPin))
  let firstPin ← pin file.id header.firstPage
  let check : Action (Database σ) Unit := do
    let _ ← Action.ofResult (SlottedPage.read (← pageOf firstPin))
  check.orClean (drop firstPin)
  return {
    file := file
    name := header.fileName
    firstPage := header.firstPage
    headerPin := headerPin
    current := some firstPin
    position := some header.firstPage
    record := none }

theorem pinFirstPages_eq (file : FileHandle) :
    (pinFirstPages file : Action (Database σ) HeapFile) = (do
      let headerPin ← pin file.id (← onFiles (PageStore.firstPage file.id))
      (pinChain file headerPin).orClean (drop headerPin)) := rfl

/-- A heap file that was just opened stands at the start of its chain. -/
structure Opened (law : PageStore.Reliable σ) (pins : Multiset Pin) (file : FileHandle)
    (db : Database σ) (heap : HeapFile) (db' : Database σ) : Prop where
  attached : HeapFile.Attached law pins ⟨db', heap⟩
  same : law.Same db db'
  handle : heap.file = file
  isHeap : ∃ header, (law.volume db file.id).IsHeap header
  position : heap.position = some ⟨2⟩
  record : heap.record = none

/-- The first data page of a heap file is checked and kept, if it can be pinned. -/
theorem ensures_pinChain_of_pin {file : FileHandle}
    {refused : StorageError → Database σ → Prop} (h : law.Holds (headerPin ::ₘ pins) db)
    (hkey : headerPin.key = ⟨file.id, ⟨1⟩⟩) (hv : (law.volume db file.id).IsHeap header)
    (hpin : (pin file.id ⟨2⟩).Ensures db
      (fun pin db' => pin.key = ⟨file.id, ⟨2⟩⟩ ∧ law.Holds (pin ::ₘ headerPin ::ₘ pins) db' ∧
        law.Same db db') refused) :
    (pinChain file headerPin).Ensures db (Opened law pins file db) refused := by
  have hview : law.view db headerPin.key = (law.volume db file.id).page ⟨1⟩ := by
    rw [hkey]
    rfl
  unfold pinChain
  rw [ensures_bind]
  refine (ensures_pageOf h (Multiset.mem_cons_self _ _)).mono ?_ fun _ _ => False.elim
  rintro page db ⟨rfl, rfl⟩
  rw [ensures_bind, hview, ensures_ofResult_ok hv.header, hv.first, ensures_bind]
  refine hpin.mono ?_ fun _ _ => id
  rintro firstPin db₁ ⟨hkey₁, h₁, hsame₁⟩
  have hview₁ : law.view db₁ firstPin.key = (law.volume db file.id).page ⟨2⟩ := by
    rw [hkey₁, ← PageStore.Reliable.volume_of_same hsame₁]
    rfl
  rw [ensures_bind, ensures_orClean, ensures_bind]
  refine (ensures_pageOf h₁ (Multiset.mem_cons_self _ _)).mono ?_ fun _ _ => False.elim
  rintro page db₁ ⟨rfl, rfl⟩
  rw [ensures_bind, hview₁, ensures_ofResult_ok (hv.read_data hv.isData_two), ensures_pure,
    ensures_pure]
  refine ⟨⟨?_, hkey, ?_, rfl⟩, hsame₁, rfl, ⟨header, hv⟩, rfl, rfl⟩
  · rw [HeapFile.pins_add_of_some rfl]
    exact h₁
  · intro other hother
    obtain rfl := Option.some.inj hother
    exact congrArg FrameKey.file hkey₁

/-- The first data page of a heap file is pinned. -/
theorem ensures_pinChain (file : FileHandle) (h : law.Holds (headerPin ::ₘ pins) db)
    (hkey : headerPin.key = ⟨file.id, ⟨1⟩⟩) (hv : (law.volume db file.id).IsHeap header) :
    (pinChain file headerPin).Ensures db (Opened law pins file db)
      (fun e db' => law.Holds (headerPin ::ₘ pins) db' ∧ law.Same db db' ∧
        e = .bufferPoolExhausted ∧ db.pool.capacity ≤ db.pool.size) :=
  ensures_pinChain_of_pin h hkey hv ((holds_pin h file.id ⟨2⟩).mono
    (fun _ _ hpost => ⟨hpost.1, hpost.2.1, hpost.2.2.1⟩)
    fun _ _ hpost => ⟨hpost.1, hpost.2.1, hpost.2.2 hv.isData_two.has⟩)

/-- The first pages of a heap file are pinned, if the pool has room for them; those of a blank file
are not. -/
theorem ensures_pinFirstPages (h : law.Holds pins db) (file : FileHandle)
    (hfile : Usable law db file.id) :
    (pinFirstPages file).Ensures db (Opened law pins file db)
      (fun e db' => law.Holds pins db' ∧ law.Same db db' ∧
        ((∃ header, (law.volume db file.id).IsHeap header) →
          e = .bufferPoolExhausted ∧ db.pool.capacity ≤ db.pool.size + 1)) := by
  rw [pinFirstPages_eq, ensures_bind]
  unfold onFiles
  rw [ensures_onPart]
  refine (law.ensures_firstPage db.files file.id hfile.size_lt).mono ?_ ?_
  · rintro page files ⟨rfl, rfl, hlt⟩
    rw [ensures_bind]
    have hone : (law.volume db file.id).Has ⟨1⟩ := ⟨Nat.one_pos, hlt⟩
    refine (holds_pin h file.id ⟨1⟩).mono ?_ fun _ _ hpost =>
      ⟨hpost.1, hpost.2.1, fun _ => (hpost.2.2 hone).imp_right Nat.le_succ_of_le⟩
    rintro headerPin db₁ ⟨hkey, h₁, hsame₁, -, hcapacity, hsize⟩
    have hvolume₁ : law.volume db₁ file.id = law.volume db file.id :=
      congrFun (PageStore.Reliable.volume_of_same hsame₁) _
    have hdrop {db₂ : Database σ} {cause : Prop} (h₂ : law.Holds (headerPin ::ₘ pins) db₂)
        (hsame₂ : law.Same db₁ db₂) (hcause : cause) :
        (drop headerPin).Ensures db₂ (fun _ db' => law.Holds pins db' ∧ law.Same db db' ∧ cause)
          (fun _ db' => law.Holds pins db' ∧ law.Same db db' ∧ cause) := by
      refine (holds_drop h₂).mono ?_ fun _ _ => False.elim
      rintro _ db₃ ⟨h₃, hsame₃⟩
      exact ⟨h₃, (hsame₁.trans hsame₂).trans hsame₃, hcause⟩
    rw [ensures_orClean]
    rcases hfile with hblank | ⟨header, hv⟩
    · have hzero : (law.volume db file.id).page ⟨1⟩ = Block.zero pageSize :=
        hblank.elim (fun hsize => absurd hlt (Nat.not_lt.2 hsize)) And.right
      obtain ⟨e, he⟩ := HeapHeader.read_zero
      have hview : law.view db₁ headerPin.key = Block.zero pageSize := by
        rw [hkey, ← hzero, ← hvolume₁]
        rfl
      unfold pinChain
      rw [ensures_bind]
      refine (ensures_pageOf h₁ (Multiset.mem_cons_self _ _)).mono ?_ fun _ _ => False.elim
      rintro page db₁ ⟨rfl, rfl⟩
      rw [ensures_bind, hview, ensures_ofResult_refuse he]
      refine hdrop h₁ (.refl _) ?_
      rintro ⟨header, hv⟩
      have hheader := hv.header
      rw [hzero, he] at hheader
      cases hheader
    · rw [← hvolume₁] at hv
      refine (ensures_pinChain file h₁ hkey hv).mono ?_ ?_
      · intro heap db₂ hopened
        exact ⟨hopened.attached, hsame₁.trans hopened.same, hopened.handle,
          hvolume₁ ▸ hopened.isHeap, hopened.position, hopened.record⟩
      · rintro e db₂ ⟨h₂, hsame₂, hcause, hfull⟩
        exact hdrop h₂ hsame₂ fun _ => ⟨hcause, by omega⟩
  · rintro e files ⟨rfl, hle⟩
    refine ⟨h, .refl _, ?_⟩
    rintro ⟨header, hv⟩
    have hthree : 3 ≤ law.size db.files file.id := hv.three_le
    omega

/-! ## Where a heap file is when it was opened -/

/-- A pin is on the page that was asked for. -/
theorem allows_pin_key (file : FileId) (page : PageId) :
    (pin file page).Allows db (fun pin _ => pin.key = ⟨file, page⟩) fun _ _ => True := by
  refine allows_get ?_
  split
  · exact allows_modify_bind (allows_pure rfl)
  · refine allows_bind (.trivial _ _) fun _ _ _ => allows_bind (.trivial _ _) fun _ _ _ => ?_
    exact allows_get (allows_set_bind (allows_pure rfl))

/-- The current page of a heap file that was opened is the one at which it stands. -/
theorem allows_openHeap_current {σ : Type} [FileStore σ] {db : Database σ} (name : String) :
    (openHeap name).Allows db (fun heap _ => heap.currentPage? = heap.position)
      fun _ _ => True := by
  refine allows_bind (.trivial _ _) fun file db₁ _ => Allows.orClean_of_ok ?_
  rw [pinFirstPages_eq]
  refine allows_bind (.trivial _ _) fun page db₂ _ => allows_bind (.trivial _ _)
    fun headerPin db₃ _ => Allows.orClean_of_ok ?_
  refine allows_bind (.trivial _ _) fun page db₄ _ => allows_bind (.trivial _ _)
    fun header db₅ _ => allows_bind (allows_pin_key _ _) fun firstPin db₆ hkey => ?_
  refine allows_bind (Allows.trivial _ _).orClean_of_ok fun _ db₇ _ => allows_pure ?_
  exact congrArg some (congrArg FrameKey.page hkey)

end Database

end PagedHeap
