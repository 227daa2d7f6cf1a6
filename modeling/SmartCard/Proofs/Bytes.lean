import Mathlib.Algebra.Group.Nat.Defs
import SmartCard.Bytes

/-!
# Big-endian numbers

Reading and writing big-endian numbers undo each other: `ofBigEndian_bigEndian` on numbers that
fit the width, `bigEndian_ofBigEndian` on all byte strings.
-/

namespace SmartCard

/-- A byte string with one byte more than `n` has a last byte. -/
theorem exists_append_singleton {n : Nat} {bs : Bytes} (h : bs.length = n + 1) :
    ∃ init last, bs = init ++ [last] ∧ init.length = n := by
  have hne : bs ≠ [] := List.ne_nil_of_length_eq_add_one h
  refine ⟨bs.dropLast, bs.getLast hne, (List.dropLast_concat_getLast hne).symm, ?_⟩
  rw [List.length_dropLast, h]
  rfl

theorem ofBigEndian_lt (bs : Bytes) : ofBigEndian bs < 256 ^ bs.length := by
  induction h : bs.length generalizing bs with
  | zero =>
    rw [List.length_eq_zero_iff.mp h]
    decide
  | succ n ih =>
    obtain ⟨init, last, rfl, hinit⟩ := exists_append_singleton h
    have hlast := last.toNat_lt
    have hinit := ih init hinit
    rw [ofBigEndian_append_singleton, Nat.pow_succ]
    omega

theorem ofBigEndian_bigEndian {width n : Nat} (h : n < 256 ^ width) :
    ofBigEndian (bigEndian width n) = n := by
  induction width generalizing n with
  | zero => rw [show n = 0 by simpa using h]; rfl
  | succ width ih =>
    rw [Nat.pow_succ] at h
    rw [bigEndian, ofBigEndian_append_singleton, ih (by omega), UInt8.toNat_ofNat']
    omega

theorem bigEndian_ofBigEndian (bs : Bytes) : bigEndian bs.length (ofBigEndian bs) = bs := by
  induction h : bs.length generalizing bs with
  | zero => rw [List.length_eq_zero_iff.mp h]; rfl
  | succ n ih =>
    obtain ⟨init, last, rfl, hinit⟩ := exists_append_singleton h
    have hlast := last.toNat_lt
    have hhigh : (ofBigEndian init * 256 + last.toNat) / 256 = ofBigEndian init := by omega
    have hlow : UInt8.ofNat (ofBigEndian init * 256 + last.toNat) = last := by
      apply UInt8.toNat_inj.mp
      rw [UInt8.toNat_ofNat']
      omega
    rw [ofBigEndian_append_singleton, bigEndian, hhigh, hlow, ih init hinit]

theorem bigEndian_one (n : Nat) : bigEndian 1 n = [UInt8.ofNat n] := rfl

theorem bigEndian_two (n : Nat) : bigEndian 2 n = [UInt8.ofNat (n / 256), UInt8.ofNat n] := rfl

end SmartCard
