import SmartCard.Cipher.Block

/-! Padding with one marker byte and zeros, to a whole number of blocks. -/

namespace SmartCard.Cipher

def paddingMarker : UInt8 := 0x80

/-- A whole block is added to data that is a whole number of blocks already. -/
def pad (data : Bytes) : Bytes :=
  data ++ paddingMarker :: List.replicate (15 - data.length % 16) 0

/-- Drop zeros and one marker from the end. The marker has to stand in the last sixteen bytes. -/
def unpad? (padded : Bytes) : Option Bytes :=
  match padded.reverse.dropWhile (· = 0) with
  | marker :: rest =>
    if marker = paddingMarker ∧ padded.length ≤ rest.length + 16 then some rest.reverse else none
  | [] => none

theorem length_pad (data : Bytes) : (pad data).length = (data.length / 16 + 1) * 16 := by
  simp only [pad, List.length_append, List.length_cons, List.length_replicate]
  omega

theorem dropWhile_replicate_append (n : Nat) (rest : Bytes) :
    (List.replicate n (0 : UInt8) ++ rest).dropWhile (· = 0) = rest.dropWhile (· = 0) := by
  induction n with
  | zero => rfl
  | succ n ih => rw [List.replicate_succ, List.cons_append, List.dropWhile_cons_of_pos (by simp), ih]

/-- Padding is recognised whatever the data ends in. -/
@[simp] theorem unpad?_pad (data : Bytes) : unpad? (pad data) = some data := by
  have stripped : (pad data).reverse.dropWhile (· = 0) = paddingMarker :: data.reverse := by
    rw [pad, List.reverse_append, List.reverse_cons, List.reverse_replicate, List.append_assoc,
      dropWhile_replicate_append]
    rfl
  have short : (pad data).length ≤ data.reverse.length + 16 := by
    rw [length_pad, List.length_reverse]
    omega
  rw [unpad?, stripped]
  exact (if_pos ⟨rfl, short⟩).trans (congrArg some data.reverse_reverse)

theorem takeWhile_zero (bs : Bytes) :
    bs.takeWhile (· = 0) = List.replicate (bs.takeWhile (· = 0)).length 0 := by
  refine List.eq_replicate_iff.mpr ⟨rfl, fun b hb => ?_⟩
  have := List.all_eq_true.mp List.all_takeWhile b hb
  simpa using this

/-- Among whole blocks only padded data has its padding recognised. -/
theorem eq_pad_of_unpad? {padded data : Bytes} (whole : padded.length % 16 = 0)
    (h : unpad? padded = some data) : padded = pad data := by
  have parts := List.takeWhile_append_dropWhile (p := (· = 0)) (l := padded.reverse)
  have zeros := takeWhile_zero padded.reverse
  generalize (padded.reverse.takeWhile (· = 0)).length = n at zeros
  unfold unpad? at h
  split at h
  next marker rest stripped =>
    split at h
    next marked =>
      obtain ⟨rfl, short⟩ := marked
      obtain rfl := Option.some.inj h
      rw [zeros, stripped] at parts
      have eq : padded = rest.reverse ++ paddingMarker :: List.replicate n 0 := by
        rw [← List.reverse_reverse padded, ← parts]
        simp
      rw [eq] at whole short
      simp only [List.length_append, List.length_reverse, List.length_cons,
        List.length_replicate] at whole short
      rw [eq, pad]
      congr 2
      congr 1
      rw [List.length_reverse]
      omega
    next => cases h
  next => cases h

end SmartCard.Cipher
