import SmartCard.Proofs.Messaging.ObjectFaults
import SmartCard.Proofs.Messaging.ObjectSequence

/-!
# Objects read off an input

`read` takes one object off the front of an input and moves along it. `readMany` does so a number of
times, `readings` until nothing is left or a call fails.

* `sequences_read_back`: what was written is read back, and what follows it is left.
* `exact_grammar`: what a call reads is one spelling, of which the encoding is the shortest. A call
  that fails leaves the input alone, and every other one moves it on by two bytes at least, so that
  `readings` comes to an end.
-/

namespace SmartCard

/-! ## Readers -/

/-- A computation that moves along an input. -/
abbrev Reader := ExceptT MessagingError (StateM Bytes)

/-- What a reader answers, and what it leaves of the input. -/
def Reader.on {α : Type} (reader : Reader α) (input : Bytes) : Except MessagingError α × Bytes :=
  reader.run.run input

theorem Reader.on_bind_of_ok {α β : Type} {reader : Reader α} {input left : Bytes} {a : α}
    (h : reader.on input = (.ok a, left)) (next : α → Reader β) :
    (reader >>= next).on input = (next a).on left := by
  show ExceptT.bindCont next (reader.on input).1 (reader.on input).2 = _
  rw [h]
  rfl

namespace DataObject

/-- Read one object. The input moves on once all of it is there. -/
def read : Reader DataObject := do
  let (o, rest) ← (decode (← get)).mapError MessagingError.malformed
  set rest
  return o

/-- Read so many objects one after another. -/
def readMany : Nat → Reader (List DataObject)
  | 0 => return []
  | n + 1 => do return (← read) :: (← readMany n)

variable {o : DataObject} {input front rest : Bytes}

theorem on_read (input : Bytes) :
    read.on input =
      match decode input with
      | .ok (o, rest) => (.ok o, rest)
      | .error reason => (.error (.malformed reason), input) := by
  have hget : (get : Reader Bytes).on input = (.ok input, input) := rfl
  refine (Reader.on_bind_of_ok hget _).trans ?_
  cases decode input with
  | error reason => rfl
  | ok read => rfl

theorem on_read_of_fault {reason : Malformation} (h : ObjectFault input reason) :
    read.on input = (.error (.malformed reason), input) := by
  rw [on_read, decode_eq_error_iff.mpr h]

theorem on_read_eq_ok_iff :
    read.on input = (.ok o, rest) ↔ ∃ front, o.Spelling front ∧ input = front ++ rest := by
  rw [on_read, ← decode_eq_ok_iff]
  cases decode input with
  | error reason => simp
  | ok read => simp [Prod.ext_iff]

theorem on_read_of_spelling (h : o.Spelling front) (rest : Bytes) :
    read.on (front ++ rest) = (.ok o, rest) :=
  on_read_eq_ok_iff.mpr ⟨front, h, rfl⟩

/-- What begins with no spelling has a fault. -/
theorem spelling_or_fault (input : Bytes) :
    (∃ (o : DataObject) (front rest : Bytes), o.Spelling front ∧ input = front ++ rest) ∨
      ∃ reason, ObjectFault input reason := by
  cases h : decode input with
  | error reason => exact .inr ⟨reason, decode_eq_error_iff.mp h⟩
  | ok read =>
    obtain ⟨front, hfront, heq⟩ := decode_eq_ok_iff.mp h
    exact .inl ⟨read.1, front, read.2, hfront, heq⟩

/-! ## Reading a number of objects -/

theorem on_readMany {objects : List DataObject} (h : ∀ o ∈ objects, o.value.length < 2 ^ 32)
    (rest : Bytes) :
    (readMany objects.length).on (encodeAll objects ++ rest) = (.ok objects, rest) := by
  induction objects with
  | nil => rfl
  | cons o tail ih =>
    have hread : read.on (o.encode ++ (encodeAll tail ++ rest)) = (.ok o, encodeAll tail ++ rest) :=
      on_read_of_spelling (spelling_encode (h o List.mem_cons_self)) _
    have htail := ih fun o' ho' => h o' (List.mem_cons_of_mem o ho')
    rw [encodeAll_cons, List.append_assoc]
    exact (Reader.on_bind_of_ok hread _).trans (Reader.on_bind_of_ok htail _)

theorem encodeAll_inj {objects objects' : List DataObject}
    (h : ∀ o ∈ objects, o.value.length < 2 ^ 32) (h' : ∀ o ∈ objects', o.value.length < 2 ^ 32)
    (heq : encodeAll objects = encodeAll objects') : objects = objects' := by
  have hall := decodeAll_encodeAll h
  rw [heq, decodeAll_encodeAll h'] at hall
  exact (Except.ok.inj hall).symm

/-- **Sequences are read back.** As many calls as objects were written read these objects, in their
order, and leave what follows them. An encoding is as long as foretold; no two sequences are written
alike, and no encoding begins with that of another object. -/
theorem sequences_read_back (objects : List DataObject)
    (h : ∀ o ∈ objects, o.value.length < 2 ^ 32) :
    (∀ rest, (readMany objects.length).on (encodeAll objects ++ rest) = (.ok objects, rest)) ∧
      (∀ o ∈ objects, o.encode.length = o.encodedLength) ∧
      (∀ objects' : List DataObject, (∀ o ∈ objects', o.value.length < 2 ^ 32) →
        encodeAll objects = encodeAll objects' → objects = objects') ∧
      ∀ o ∈ objects, ∀ o' : DataObject, o'.value.length < 2 ^ 32 →
        o.encode <+: o'.encode → o = o' := by
  refine ⟨on_readMany h, fun o _ => length_encode o, fun objects' h' => encodeAll_inj h h', ?_⟩
  rintro o ho o' ho' ⟨rest, heq⟩
  have hnil : o.encode ++ rest = o'.encode ++ [] := by rw [heq, List.append_nil]
  exact (Spelling.unique (spelling_encode (h o ho)) (spelling_encode ho') hnil).1

/-- Lengths in two and in four bytes, and then a cut-off object. -/
theorem sequences_read_back_long :
    let objects : List DataObject :=
      [⟨.encryptedData, List.replicate 0x80 0x01⟩, ⟨.plainData, List.replicate 0x10000 0x87⟩]
    (∀ o ∈ objects, o.value.length < 2 ^ 32) ∧
      (readMany 2).on (0x87 :: 0x81 :: 0x80 :: List.replicate 0x80 0x01 ++
          (0x81 :: 0x83 :: 0x01 :: 0x00 :: 0x00 :: List.replicate 0x10000 0x87 ++ [0x99, 0x02])) =
        (.ok objects, [0x99, 0x02]) := by
  intro objects
  have hlengths : ∀ o ∈ objects, o.value.length < 2 ^ 32 := by
    intro o ho
    simp only [objects, List.mem_cons, List.not_mem_nil, or_false] at ho
    obtain rfl | rfl := ho <;> rw [List.length_replicate] <;> decide
  have hwritten : encodeAll objects =
      0x87 :: 0x81 :: 0x80 :: List.replicate 0x80 0x01 ++
        (0x81 :: 0x83 :: 0x01 :: 0x00 :: 0x00 :: List.replicate 0x10000 0x87) := by
    simp only [objects, encodeAll_cons, encodeAll_nil, encode, List.length_replicate,
      List.append_nil]
    rfl
  have hread := (sequences_read_back objects hlengths).1 [0x99, 0x02]
  rw [hwritten, List.append_assoc] at hread
  exact ⟨hlengths, hread⟩

/-! ## Reading to the end -/

/-- One call of the reader. -/
structure Reading where
  input : Bytes
  answer : Except MessagingError DataObject
  left : Bytes

namespace Reading

def of (input : Bytes) : Reading := ⟨input, (read.on input).1, (read.on input).2⟩

/-- The bytes that the input was moved on by. -/
def consumed (r : Reading) : Bytes := r.input.take (r.input.length - r.left.length)

/-- Nothing is left to read, or the call failed. -/
def isLast (r : Reading) : Bool := r.left.isEmpty || !r.answer.isOk

theorem of_spelling (h : o.Spelling front) (rest : Bytes) :
    of (front ++ rest) = ⟨front ++ rest, .ok o, rest⟩ := by
  unfold of
  rw [on_read_of_spelling h]

theorem of_fault {reason : Malformation} (h : ObjectFault input reason) :
    of input = ⟨input, .error (.malformed reason), input⟩ := by
  unfold of
  rw [on_read_of_fault h]

theorem consumed_append_left (input : Bytes) : (of input).consumed ++ (of input).left = input := by
  obtain ⟨o, front, rest, hfront, rfl⟩ | ⟨reason, hfault⟩ := spelling_or_fault input
  · rw [of_spelling hfront]
    simp [consumed]
  · rw [of_fault hfault]
    simp [consumed]

theorem length_left_of_not_isLast (h : ¬ (of input).isLast) :
    (of input).left.length + 2 ≤ input.length := by
  obtain ⟨o, front, rest, hfront, rfl⟩ | ⟨reason, hfault⟩ := spelling_or_fault input
  · have := hfront.length
    rw [of_spelling hfront, List.length_append]
    show rest.length + 2 ≤ _
    omega
  · rw [of_fault hfault] at h
    exact absurd (by simp [isLast, Except.isOk, Except.toBool]) h

end Reading

/-- The calls on an input, one after another, until nothing is left or one fails. -/
def readings (input : Bytes) : List Reading :=
  if (Reading.of input).isLast then [Reading.of input]
  else Reading.of input :: readings (Reading.of input).left
termination_by input.length
decreasing_by
  have := Reading.length_left_of_not_isLast ‹¬ (Reading.of input).isLast›
  omega

theorem length_readings (input : Bytes) : (readings input).length ≤ input.length / 2 + 1 := by
  fun_induction readings input with
  | case1 input last => simp
  | case2 input more ih =>
    have := Reading.length_left_of_not_isLast more
    rw [List.length_cons]
    omega

/-- Only the last call leaves nothing or fails, and what it leaves follows all that was consumed. -/
theorem exists_last_reading (input : Bytes) :
    ∃ earlier last, readings input = earlier ++ [last] ∧ last.isLast ∧
      (∀ r ∈ earlier, ¬ r.isLast) ∧
      (readings input).flatMap Reading.consumed ++ last.left = input := by
  fun_induction readings input with
  | case1 input last =>
    refine ⟨[], _, rfl, last, by simp, ?_⟩
    simpa using Reading.consumed_append_left input
  | case2 input more ih =>
    obtain ⟨earlier, last, heq, hlast, hearlier, hconsumed⟩ := ih
    refine ⟨Reading.of input :: earlier, last, ?_, hlast, ?_, ?_⟩
    · rw [heq, List.cons_append]
    · intro r hr
      obtain rfl | hr := List.mem_cons.mp hr
      · exact more
      · exact hearlier r hr
    · rw [List.flatMap_cons, List.append_assoc, hconsumed]
      exact Reading.consumed_append_left input

/-- **The exact grammar.** A call succeeds exactly if the input begins with a spelling of an object;
then it answers this object and leaves what follows the spelling. Every other input has a fault,
which is told, and is left alone. A spelling has two bytes at least and no fewer than the encoding;
an input that begins with it begins with the encoding only if they are as long. Calls one after
another come to an end, within half as many of them as bytes and one, and what they consume and leave
makes up the input. -/
theorem exact_grammar (input : Bytes) :
    (∀ o rest, read.on input = (.ok o, rest) ↔
      ∃ front, o.Spelling front ∧ input = front ++ rest) ∧
    ((¬ ∃ (o : DataObject) (front rest : Bytes), o.Spelling front ∧ input = front ++ rest) →
      ∃ reason, ObjectFault input reason ∧ read.on input = (.error (.malformed reason), input)) ∧
    (∀ (o : DataObject) (front rest : Bytes), o.Spelling front → input = front ++ rest →
      max 2 o.encodedLength ≤ front.length ∧
        (o.encode <+: input ↔ front.length = o.encodedLength) ∧
        read.on (o.encode ++ rest) = (.ok o, rest)) ∧
    (readings input).length ≤ input.length / 2 + 1 ∧
    ∃ earlier last, readings input = earlier ++ [last] ∧ last.isLast ∧
      (∀ r ∈ earlier, ¬ r.isLast) ∧
      (readings input).flatMap Reading.consumed ++ last.left = input := by
  refine ⟨fun o rest => on_read_eq_ok_iff, ?_, ?_, length_readings input,
    exists_last_reading input⟩
  · intro hnone
    obtain hspelling | ⟨reason, hfault⟩ := spelling_or_fault input
    · exact absurd hspelling hnone
    · exact ⟨reason, hfault, on_read_of_fault hfault⟩
  · rintro o front rest hfront rfl
    have htwo : 2 ≤ front.length := by
      have := hfront.length
      omega
    exact ⟨Nat.max_le.mpr ⟨htwo, hfront.encodedLength_le⟩, hfront.encode_prefix_iff rest,
      on_read_of_spelling (spelling_encode hfront.value_lt) rest⟩

/-- A length in one byte more than it needs. -/
example : read.on [0x99, 0x81, 0x02, 0x90, 0x00, 0x8E] = (.ok ⟨.status, [0x90, 0x00]⟩, [0x8E]) := by
  rfl

end DataObject

end SmartCard
