import SmartCard.Proofs.Messaging.ObjectGrammar

/-!
# Sequences of data objects

`decodeAll` reads a byte string as objects one after another. `decodeAll_encodeAll`: it reads back
every sequence that was encoded.
-/

namespace SmartCard.DataObject

/-- What is left after an object is shorter, by the tag and the length field at least. -/
theorem length_of_decode {bs rest : Bytes} {o : DataObject} (h : decode bs = .ok (o, rest)) :
    rest.length + 2 ≤ bs.length := by
  obtain ⟨front, hspell, rfl⟩ := decode_eq_ok_iff.mp h
  have := hspell.length
  rw [List.length_append]
  omega

/-- The objects that a byte string consists of, with nothing left over. -/
def decodeAll (bs : Bytes) : Except Malformation (List DataObject) :=
  if bs = [] then .ok []
  else match _h : decode bs with
    | .error e => .error e
    | .ok (o, rest) => (decodeAll rest).map (o :: ·)
termination_by bs.length
decreasing_by
  have := length_of_decode _h
  omega

@[simp] theorem decodeAll_nil : decodeAll [] = .ok [] := by
  unfold decodeAll
  exact if_pos rfl

theorem decodeAll_of_decode {bs rest : Bytes} {o : DataObject} (h : decode bs = .ok (o, rest)) :
    decodeAll bs = (decodeAll rest).map (o :: ·) := by
  have hne : bs ≠ [] := by
    rintro rfl
    cases h
  conv => lhs; unfold decodeAll
  rw [if_neg hne]
  split
  next hdecode =>
    rw [h] at hdecode
    cases hdecode
  next hdecode =>
    rw [h] at hdecode
    cases hdecode
    rfl

theorem decodeAll_encodeAll {objects : List DataObject}
    (h : ∀ o ∈ objects, o.value.length < 2 ^ 32) : decodeAll (encodeAll objects) = .ok objects := by
  induction objects with
  | nil => exact decodeAll_nil
  | cons o rest ih =>
    have hdecode := decode_encode_append (h o List.mem_cons_self) (encodeAll rest)
    rw [encodeAll_cons, decodeAll_of_decode hdecode,
      ih fun o' ho' => h o' (List.mem_cons_of_mem o ho')]
    rfl

end SmartCard.DataObject
