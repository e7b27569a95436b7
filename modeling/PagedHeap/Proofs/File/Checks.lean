import Mathlib.Algebra.GroupWithZero.Nat
import PagedHeap.File.Store

/-!
# Checks and counters of stores

Both stores check what callers pass: the number of a page, the length of its data and the name of a
file.  A check passes or is refused, in few ways, and what is known of that which passes is stated
beside it.  Pages and files are counted in numbers of 32 bits, which may run out.
-/

namespace PagedHeap

namespace PageId

variable {page : PageId} {count : Nat}

theorem eq_header_iff : page = .header ↔ page.val.toNat = 0 := by
  constructor
  · rintro rfl
    rfl
  · intro h
    obtain ⟨val⟩ := page
    exact congrArg PageId.mk (UInt32.toNat_inj.1 h)

theorem check_of_lt (hpos : 0 < page.val.toNat) (hlt : page.val.toNat < count) :
    page.check count = .ok () := by
  unfold check
  rw [if_neg fun heq => Nat.ne_of_gt hpos (eq_header_iff.1 heq), if_neg (Nat.not_le.2 hlt)]

theorem check_of_le (hne : page ≠ .header) (hle : count ≤ page.val.toNat) :
    page.check count = .refuse (.pageNotFound page) := by
  unfold check
  rw [if_neg hne, if_pos hle]

/-- A page is one that callers can access, the store's own one or one that the file does not have.
-/
theorem check_cases (page : PageId) (count : Nat) :
    (page.check count = .ok () ∧ 0 < page.val.toNat ∧ page.val.toNat < count) ∨
      (page.check count = .refuse (.invalidOperation "cannot access file header page directly") ∧
        page.val.toNat = 0) ∨
      page.check count = .refuse (.pageNotFound page) ∧ count ≤ page.val.toNat := by
  by_cases hheader : page = .header
  · exact .inr (.inl ⟨if_pos hheader, eq_header_iff.1 hheader⟩)
  · have hpos : 0 < page.val.toNat :=
      Nat.pos_of_ne_zero fun hzero => hheader (eq_header_iff.2 hzero)
    by_cases hle : count ≤ page.val.toNat
    · exact .inr (.inr ⟨check_of_le hheader hle, hle⟩)
    · exact .inl ⟨check_of_lt hpos (Nat.lt_of_not_le hle), hpos, Nat.lt_of_not_le hle⟩

/-- The pages that callers can access pass the check, and no others. -/
theorem check_ok_or_refused (page : PageId) (count : Nat) :
    (page.check count = .ok () ∧ 0 < page.val.toNat ∧ page.val.toNat < count) ∨
      ∃ e, page.check count = .refuse e ∧ ¬(0 < page.val.toNat ∧ page.val.toNat < count) := by
  rcases check_cases page count with hok | ⟨hheader, hzero⟩ | ⟨hmissing, hle⟩
  · exact .inl hok
  · exact .inr ⟨_, hheader, fun hhas => Nat.ne_of_gt hhas.1 hzero⟩
  · exact .inr ⟨_, hmissing, fun hhas => Nat.not_lt.2 hle hhas.2⟩

theorem lt_of_check (h : page.check count = .ok ()) :
    0 < page.val.toNat ∧ page.val.toNat < count := by
  rcases check_ok_or_refused page count with ⟨-, hhas⟩ | ⟨e, hrefused, -⟩
  · exact hhas
  · cases h.symm.trans hrefused

end PageId

/-- Data of the size of a page is taken as a page, other data is refused. -/
theorem Page.ofBlock_cases {size : Nat} (data : Block size) :
    (∃ h : size = pageSize, Page.ofBlock data = .ok (data.cast h)) ∨
      size ≠ pageSize ∧ Page.ofBlock data =
        .refuse (.invalidOperation s!"page data must be {pageSize} bytes, got {size}") := by
  unfold Page.ofBlock
  by_cases h : size = pageSize
  · rw [dif_pos h]
    exact .inl ⟨h, rfl⟩
  · rw [dif_neg h]
    exact .inr ⟨h, rfl⟩

namespace FileName

variable {name : String}

/-- A name is one of a file, or it is refused. -/
theorem check_cases (name : String) :
    (check name = .ok () ∧ isValid name = true) ∨
      check name = .error (.error (.invalidFileName name)) := by
  unfold check
  cases isValid name with
  | true => exact .inl ⟨rfl, rfl⟩
  | false => exact .inr rfl

theorem isValid_of_check (h : check name = .ok ()) : isValid name = true := by
  rcases check_cases name with ⟨-, hvalid⟩ | hcheck
  · exact hvalid
  · cases h.symm.trans hcheck

theorem check_eq_ok (h : isValid name = true) : check name = .ok () := by
  unfold check
  rw [h]
  rfl

/-- A file name can be the name of a heap file. -/
theorem size_of_isValid (h : isValid name = true) :
    0 < name.utf8ByteSize ∧ name.utf8ByteSize ≤ maxFileNameSize := by
  unfold isValid at h
  simp only [Bool.not_eq_true', Bool.or_eq_false_iff, decide_eq_false_iff_not] at h
  obtain ⟨⟨⟨⟨hempty, hlong⟩, -⟩, -⟩, -⟩ := h
  refine ⟨Nat.pos_of_ne_zero fun hzero => ?_, Nat.le_of_not_lt hlong⟩
  unfold String.isEmpty at hempty
  rw [hzero] at hempty
  cases hempty

end FileName

/-! ## Counters -/

/-- The next number is given out while there are numbers left. -/
theorem count32_eq_ok {n : Nat} (hroom : n < 2 ^ 32) : count32 n = .ok (UInt32.ofNat n) :=
  if_pos hroom

/-- A counter that moves on by one does so in its numbers, too. -/
theorem toNat_of_count32 {n : Nat} {count : UInt32} (h : count32 n = .ok count) :
    count.toNat = n := by
  unfold count32 at h
  split at h
  · next hlt =>
    cases h
    exact UInt32.toNat_ofNat_of_lt' hlt
  · cases h

/-- A counter is never refused. -/
theorem count32_ne_refused {n : Nat} {e : StorageError} : count32 n ≠ .error (.error e) := by
  unfold count32
  split <;> simp [Result.stop]

end PagedHeap
