import Mathlib.Data.List.Basic
import PagedHeap.CommandLine

/-!
# What is printed can be read back

An address is printed as its two numbers, and a command prints lines.  Different addresses have
different texts (`RecordId.text_injective`), and from what an insert printed one can tell which
addresses it were, in their order (`CommandLine.eq_of_unlines_text`).
-/

namespace PagedHeap

/-- Two texts that are followed by the same mark, which neither of them has, are the same. -/
theorem eq_of_append_mark {mark : Char} {xs ys xs' ys' : List Char} (hxs : mark ∉ xs)
    (hys : mark ∉ ys) (h : xs ++ mark :: xs' = ys ++ mark :: ys') : xs = ys ∧ xs' = ys' := by
  induction xs generalizing ys with
  | nil =>
    cases ys with
    | nil => exact ⟨rfl, (List.cons.inj h).2⟩
    | cons y ys => exact absurd ((List.cons.inj h).1 ▸ List.mem_cons_self ..) hys
  | cons x xs ih =>
    cases ys with
    | nil => exact absurd ((List.cons.inj h).1 ▸ List.mem_cons_self ..) hxs
    | cons y ys =>
      obtain ⟨rfl, hrest⟩ := List.cons.inj h
      obtain ⟨rfl, hrest'⟩ := ih (fun hin => hxs (List.mem_cons_of_mem _ hin))
        (fun hin => hys (List.mem_cons_of_mem _ hin)) hrest
      exact ⟨rfl, hrest'⟩

/-- A number is printed with digits only. -/
theorem isDigit_of_mem_toString {n : Nat} {c : Char} (h : c ∈ (toString n).toList) :
    c.isDigit = true := by
  rw [Nat.toString_eq_repr, Nat.toList_repr] at h
  exact Nat.isDigit_of_mem_toDigits (by decide) (by decide) h

theorem eq_of_toString {n m : Nat} (h : toString n = toString m) : n = m := by
  have hdigits := congrArg String.toList h
  rw [Nat.toString_eq_repr, Nat.toString_eq_repr, Nat.toList_repr, Nat.toList_repr] at hdigits
  have hvalue := congrArg (fun digits => Nat.ofDigitChars 10 digits 0) hdigits
  simpa only [Nat.ofDigitChars_toDigits (by decide : 1 < 10) (by decide : 10 ≤ 10)] using hvalue

namespace PageId

variable {p q : PageId}

theorem eq_of_toString_val (h : toString p.val.toNat = toString q.val.toNat) : p = q :=
  congrArg PageId.mk (UInt32.toNat_inj.1 (eq_of_toString h))

/-- A number is not the word for the number of no page. -/
theorem toString_ne_invalid (n : Nat) : toString n ≠ "INVALID" := by
  intro h
  have hdigit : 'I'.isDigit = true := isDigit_of_mem_toString (n := n) (by rw [h]; decide)
  exact absurd hdigit (by decide)

theorem text_injective : Function.Injective text := by
  intro p q h
  unfold text at h
  by_cases hp : p = invalid <;> by_cases hq : q = invalid
  · rw [hp, hq]
  · rw [if_pos hp, if_neg hq] at h
    exact absurd h.symm (toString_ne_invalid _)
  · rw [if_neg hp, if_pos hq] at h
    exact absurd h (toString_ne_invalid _)
  · rw [if_neg hp, if_neg hq] at h
    exact eq_of_toString_val h

/-- The text of a page number is a word or has digits only. -/
theorem not_mem_text {c : Char} (hdigit : c.isDigit = false) (hword : c ∉ "INVALID".toList)
    (p : PageId) : c ∉ p.text.toList := by
  unfold text
  split
  · exact hword
  · intro hin
    rw [isDigit_of_mem_toString hin] at hdigit
    cases hdigit

end PageId

namespace RecordId

/-- The text of an address, letter by letter. -/
theorem toList_text (rid : RecordId) : rid.text.toList =
    '(' :: (rid.page.text.toList ++ ',' :: ' ' :: ((toString rid.slot.toNat).toList ++ [')'])) := by
  unfold text
  simp only [String.toList_append, List.append_assoc]
  rfl

/-- Different addresses have different texts. -/
theorem text_injective : Function.Injective text := by
  intro a b h
  have hlist := congrArg String.toList h
  rw [toList_text, toList_text] at hlist
  obtain ⟨hpage, hrest⟩ := eq_of_append_mark (PageId.not_mem_text (by decide) (by decide) _)
    (PageId.not_mem_text (by decide) (by decide) _) (List.cons.inj hlist).2
  have hslot := List.append_cancel_right (List.cons.inj hrest).2
  have hnumber := eq_of_toString (String.toList_injective hslot)
  obtain ⟨page, slot⟩ := a
  obtain ⟨page', slot'⟩ := b
  obtain rfl : page = page' := PageId.text_injective (String.toList_injective hpage)
  obtain rfl : slot = slot' := UInt16.toNat_inj.1 hnumber
  rfl

/-- The text of an address is on one line. -/
theorem newline_not_mem_text (rid : RecordId) : '\n' ∉ rid.text.toList := by
  rw [toList_text]
  have hpage : '\n' ∉ rid.page.text.toList := PageId.not_mem_text (by decide) (by decide) _
  have hslot : '\n' ∉ (toString rid.slot.toNat).toList := fun hin =>
    absurd (isDigit_of_mem_toString hin) (by decide)
  simp only [List.mem_cons, List.mem_append, List.not_mem_nil, hpage, hslot]
  decide

end RecordId

namespace CommandLine

theorem toList_unlines_cons (line : String) (lines : List String) :
    (unlines (line :: lines)).toList = line.toList ++ '\n' :: (unlines lines).toList := by
  unfold unlines
  rw [List.map_cons, String.join_cons, String.toList_append, String.toList_append,
    List.append_assoc]
  rfl

/-- Something is printed if there is a line. -/
theorem eq_nil_of_unlines {lines : List String} (h : unlines lines = "") : lines = [] := by
  cases lines with
  | nil => rfl
  | cons line lines =>
    have hlist := congrArg String.toList h
    rw [toList_unlines_cons] at hlist
    exact absurd hlist (List.append_ne_nil_of_right_ne_nil _ (List.cons_ne_nil _ _))

/-- The addresses that were printed, one on each line, are read back. -/
theorem eq_of_unlines_text {rids rids' : List RecordId}
    (h : unlines (rids.map RecordId.text) = unlines (rids'.map RecordId.text)) : rids = rids' := by
  induction rids generalizing rids' with
  | nil => exact (List.map_eq_nil_iff.1 (eq_nil_of_unlines h.symm)).symm
  | cons rid rids ih =>
    cases rids' with
    | nil => exact absurd (List.map_eq_nil_iff.1 (eq_nil_of_unlines h)) (List.cons_ne_nil _ _)
    | cons rid' rids' =>
      have hlist := congrArg String.toList h
      rw [List.map_cons, List.map_cons, toList_unlines_cons, toList_unlines_cons] at hlist
      obtain ⟨htext, hrest⟩ := eq_of_append_mark rid.newline_not_mem_text
        rid'.newline_not_mem_text hlist
      obtain rfl := RecordId.text_injective (String.toList_injective htext)
      rw [ih (String.toList_injective hrest)]

end CommandLine

end PagedHeap
