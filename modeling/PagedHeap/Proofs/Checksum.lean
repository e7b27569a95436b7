import Mathlib.Algebra.GroupWithZero.Nat
import PagedHeap.Bytes
import PagedHeap.Checksum

/-!
# Bursts change the checksum

The register of the checksum is linear: what becomes of the exclusive or of two registers is the
exclusive or of what becomes of them, byte by byte of what they are fed (`Crc32.foldl_feed_xor`).
Two strings that differ in one place therefore lead to registers whose difference is what an empty
register makes of the difference of the strings. No step of the register loses anything
(`Crc32.eq_zero_of_shift`), so the difference stays as long as the strings go on alike.

It remains to see that at most four bytes that are not all zero do not leave the register empty. A
string of at most four bytes empties exactly one register, the one that holds these bytes
(`Crc32.eq_ofNat_of_foldl_feed`): the first byte is compared with the lowest eight bits and the rest
is what the next bytes are compared with. Nothing of the kind holds of longer strings, five bytes
that are not zero can leave an empty register empty.
-/

namespace PagedHeap

namespace Crc32

variable {r s : UInt32}

/-! ## The shift register is linear and loses nothing -/

theorem toNat_and_one (r : UInt32) : (r &&& 1).toNat = r.toNat % 2 := by
  rw [UInt32.toNat_and]
  exact Nat.and_one_is_mod _

theorem toNat_shiftRight_one (r : UInt32) : (r >>> 1).toNat = r.toNat / 2 := by
  rw [UInt32.toNat_shiftRight]
  exact Nat.shiftRight_eq_div_pow _ 1

theorem and_one_eq (r : UInt32) : r &&& 1 = 0 ∨ r &&& 1 = 1 := by
  rcases Nat.mod_two_eq_zero_or_one r.toNat with h | h
  · exact .inl (UInt32.toNat_inj.1 ((toNat_and_one r).trans h))
  · exact .inr (UInt32.toNat_inj.1 ((toNat_and_one r).trans h))

theorem shift_of_even (h : r &&& 1 = 0) : shift r = r >>> 1 := by
  rw [shift, h]
  rfl

theorem shift_of_odd (h : r &&& 1 = 1) : shift r = (r >>> 1) ^^^ generator := by
  rw [shift, if_pos h]

theorem shift_xor (r s : UInt32) : shift (r ^^^ s) = shift r ^^^ shift s := by
  have hbit : (r ^^^ s) &&& 1 = (r &&& 1) ^^^ (s &&& 1) := by
    apply UInt32.toNat_inj.1
    simp only [UInt32.toNat_and, UInt32.toNat_xor]
    exact Nat.and_xor_distrib_right ..
  have hrest : (r ^^^ s) >>> 1 = (r >>> 1) ^^^ (s >>> 1) := UInt32.shiftRight_xor
  rcases and_one_eq r with hr | hr <;> rcases and_one_eq s with hs | hs <;> rw [hr, hs] at hbit
  · rw [shift_of_even hbit, shift_of_even hr, shift_of_even hs, hrest]
  · rw [shift_of_odd hbit, shift_of_even hr, shift_of_odd hs, hrest, UInt32.xor_assoc]
  · rw [shift_of_odd hbit, shift_of_odd hr, shift_of_even hs, hrest]
    ac_rfl
  · -- the generator was subtracted twice
    rw [shift_of_even hbit, shift_of_odd hr, shift_of_odd hs, hrest]
    calc (r >>> 1) ^^^ (s >>> 1) = (r >>> 1) ^^^ (s >>> 1) ^^^ (generator ^^^ generator) := by
          rw [UInt32.xor_self, UInt32.xor_zero]
      _ = (r >>> 1) ^^^ generator ^^^ ((s >>> 1) ^^^ generator) := by ac_rfl

/-- Only an empty register is empty after a step: the generator has the highest bit, which a
register that was moved has not. -/
theorem eq_zero_of_shift (h : shift r = 0) : r = 0 := by
  have hmoved := toNat_shiftRight_one r
  have hlow := toNat_and_one r
  have hlt := r.toNat_lt
  rcases and_one_eq r with hr | hr
  · rw [shift_of_even hr] at h
    rw [h, UInt32.toNat_zero] at hmoved
    rw [hr, UInt32.toNat_zero] at hlow
    apply UInt32.toNat_inj.1
    rw [UInt32.toNat_zero]
    omega
  · rw [shift_of_odd hr, UInt32.xor_eq_zero_iff] at h
    have hgenerator : generator.toNat = 0xEDB88320 := rfl
    rw [h, hgenerator] at hmoved
    omega

theorem shifts_xor (k : Nat) (r s : UInt32) : shifts k (r ^^^ s) = shifts k r ^^^ shifts k s := by
  induction k generalizing r s with
  | zero => rfl
  | succ k ih => rw [shifts, shifts, shifts, shift_xor, ih]

theorem eq_zero_of_shifts {k : Nat} (h : shifts k r = 0) : r = 0 := by
  induction k generalizing r with
  | zero => exact h
  | succ k ih => exact eq_zero_of_shift (ih h)

theorem shifts_injective {k : Nat} (h : shifts k r = shifts k s) : r = s := by
  rw [← UInt32.xor_eq_zero_iff, ← shifts_xor] at h
  exact UInt32.xor_eq_zero_iff.1 (eq_zero_of_shifts h)

/-- As long as the bits that leave are zero, the register is only moved. -/
theorem shifts_ofNat {k m : Nat} (h : 2 ^ k * m < UInt32.size) :
    shifts k (UInt32.ofNat (2 ^ k * m)) = UInt32.ofNat m := by
  induction k with
  | zero => rw [Nat.pow_zero, Nat.one_mul]; rfl
  | succ k ih =>
    have hdouble : 2 ^ (k + 1) * m = 2 * (2 ^ k * m) := by
      rw [Nat.pow_succ, Nat.mul_comm (2 ^ k) 2, Nat.mul_assoc]
    have hlt : 2 ^ k * m < UInt32.size := by omega
    have hnumber : (UInt32.ofNat (2 ^ (k + 1) * m)).toNat = 2 * (2 ^ k * m) := by
      rw [UInt32.toNat_ofNat_of_lt' h, hdouble]
    have heven : UInt32.ofNat (2 ^ (k + 1) * m) &&& 1 = 0 := by
      apply UInt32.toNat_inj.1
      rw [toNat_and_one, hnumber, Nat.mul_mod_right]
      rfl
    have hhalf : UInt32.ofNat (2 ^ (k + 1) * m) >>> 1 = UInt32.ofNat (2 ^ k * m) := by
      apply UInt32.toNat_inj.1
      rw [toNat_shiftRight_one, hnumber, UInt32.toNat_ofNat_of_lt' hlt,
        Nat.mul_div_cancel_left _ (by decide)]
    rw [shifts, shift_of_even heven, hhalf, ih hlt]

/-! ## What strings of bytes make of a register -/

theorem feed_xor (r s : UInt32) (a b : UInt8) :
    feed (r ^^^ s) (a ^^^ b) = feed r a ^^^ feed s b := by
  unfold feed
  rw [← shifts_xor, UInt8.toUInt32_xor]
  congr 1
  ac_rfl

/-- The register is linear in what it holds and what it is fed. -/
theorem foldl_feed_xor {xs ys : Bytes} (hlength : xs.length = ys.length) (r s : UInt32) :
    (List.zipWith (· ^^^ ·) xs ys).foldl feed (r ^^^ s) = xs.foldl feed r ^^^ ys.foldl feed s := by
  induction xs generalizing ys r s with
  | nil =>
    rw [List.length_nil, eq_comm, List.length_eq_zero_iff] at hlength
    rw [hlength]
    rfl
  | cons x xs ih =>
    obtain ⟨y, ys, rfl⟩ := List.exists_cons_of_length_eq_add_one hlength.symm
    rw [List.zipWith_cons_cons, List.foldl_cons, List.foldl_cons, List.foldl_cons, feed_xor,
      ih (Nat.succ.inj hlength)]

/-- Different registers stay different if they are fed the same. -/
theorem foldl_feed_injective {xs : Bytes} (h : xs.foldl feed r = xs.foldl feed s) : r = s := by
  induction xs generalizing r s with
  | nil => exact h
  | cons x xs ih => exact (UInt32.xor_left_inj _).1 (shifts_injective (ih h))

theorem ofLittleEndian_lt (bs : Bytes) : ofLittleEndian bs < 256 ^ bs.length := by
  induction bs with
  | nil => exact Nat.one_pos
  | cons b bs ih =>
    have hb := b.toNat_lt
    rw [ofLittleEndian, List.length_cons, Nat.pow_succ]
    omega

/-- The register that a string of at most four bytes empties holds these bytes, the first in the
lowest bits. -/
theorem eq_ofNat_of_foldl_feed {ds : Bytes} (hlength : ds.length ≤ 4)
    (h : ds.foldl feed r = 0) : r = UInt32.ofNat (ofLittleEndian ds) := by
  induction ds generalizing r with
  | nil => exact h
  | cons d ds ih =>
    have hlt : 2 ^ 8 * ofLittleEndian ds < UInt32.size := by
      have hrest := ofLittleEndian_lt ds
      have hpow : 256 ^ ds.length ≤ 256 ^ 3 :=
        Nat.pow_le_pow_right (by decide) (Nat.le_of_succ_le_succ hlength)
      simp only [UInt32.size]
      omega
    -- the eight steps leave the register that the other bytes empty
    have hrest : feed r d = UInt32.ofNat (ofLittleEndian ds) := ih (Nat.le_of_succ_le hlength) h
    rw [feed, ← shifts_ofNat hlt] at hrest
    have hregister := shifts_injective hrest
    have hsplit : 2 ^ 8 * ofLittleEndian ds ^^^ d.toNat = ofLittleEndian (d :: ds) := by
      rw [← Nat.div_add_mod (2 ^ 8 * ofLittleEndian ds ^^^ d.toNat) (2 ^ 8), Nat.xor_div_two_pow,
        Nat.xor_mod_two_pow, Nat.mul_mod_right, Nat.mul_div_cancel_left _ (by decide),
        Nat.div_eq_of_lt d.toNat_lt, Nat.mod_eq_of_lt d.toNat_lt, Nat.xor_zero, Nat.zero_xor]
      exact Nat.add_comm _ _
    calc r = r ^^^ d.toUInt32 ^^^ d.toUInt32 := by
          rw [UInt32.xor_assoc, UInt32.xor_self, UInt32.xor_zero]
      _ = UInt32.ofNat (2 ^ 8 * ofLittleEndian ds) ^^^ UInt32.ofNat d.toNat := by
          rw [hregister, UInt32.ofNat_uInt8ToNat]
      _ = UInt32.ofNat (ofLittleEndian (d :: ds)) := by rw [← UInt32.ofNat_xor, hsplit]

theorem eq_zero_of_ofLittleEndian {bs : Bytes} (h : ofLittleEndian bs = 0) : ∀ b ∈ bs, b = 0 := by
  induction bs with
  | nil => exact fun _ hb => nomatch hb
  | cons b bs ih =>
    rw [ofLittleEndian] at h
    have hfirst : b = 0 := UInt8.toNat_inj.1 (Nat.eq_zero_of_add_eq_zero_right h)
    exact List.forall_mem_cons.2 ⟨hfirst, ih (by omega)⟩

theorem zipWith_xor_eq {xs ys : Bytes} (hlength : xs.length = ys.length)
    (h : ∀ d ∈ List.zipWith (· ^^^ ·) xs ys, d = 0) : xs = ys := by
  induction xs generalizing ys with
  | nil =>
    rw [List.length_nil, eq_comm, List.length_eq_zero_iff] at hlength
    exact hlength.symm
  | cons x xs ih =>
    obtain ⟨y, ys, rfl⟩ := List.exists_cons_of_length_eq_add_one hlength.symm
    obtain ⟨hfirst, hrest⟩ := List.forall_mem_cons.1 h
    rw [UInt8.xor_eq_zero_iff.1 hfirst, ih (Nat.succ.inj hlength) hrest]

end Crc32

/-- Strings that differ in at most four bytes on end have different checksums. -/
theorem eq_of_crc32_eq {before after xs ys : Bytes} (hlength : xs.length = ys.length)
    (hburst : xs.length ≤ 4)
    (h : crc32 (before ++ xs ++ after) = crc32 (before ++ ys ++ after)) : xs = ys := by
  have hfold := (UInt32.xor_left_inj _).1 h
  rw [List.foldl_append, List.foldl_append, List.foldl_append, List.foldl_append] at hfold
  have hsame := Crc32.foldl_feed_injective hfold
  -- the difference of the two strings leaves an empty register empty
  rw [← UInt32.xor_eq_zero_iff, ← Crc32.foldl_feed_xor hlength, UInt32.xor_self] at hsame
  have hshort : (List.zipWith (· ^^^ ·) xs ys).length ≤ 4 := by
    rw [List.length_zipWith]
    omega
  have hnumber := congrArg UInt32.toNat (Crc32.eq_ofNat_of_foldl_feed hshort hsame)
  have hlt : ofLittleEndian (List.zipWith (· ^^^ ·) xs ys) < UInt32.size :=
    Nat.lt_of_lt_of_le (Crc32.ofLittleEndian_lt _) (Nat.pow_le_pow_right (by decide) hshort)
  rw [UInt32.toNat_ofNat_of_lt' hlt, UInt32.toNat_zero] at hnumber
  exact Crc32.zipWith_xor_eq hlength (Crc32.eq_zero_of_ofLittleEndian hnumber.symm)

end PagedHeap
