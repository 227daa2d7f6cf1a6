import Mathlib.Algebra.Group.Nat.Defs
import SmartCard.Messaging.Calls

/-!
# Runs of calls on a session

A call steps the counter once, whatever it answers, and leaves the keys alone: `call_snd`,
`run_snd`. So a run falls apart into calls that know nothing of each other (`run_fst`). In a session
that is used in turn (`Alternates`), commands and responses have counter values of their own: the
odd and the even ones.
-/

namespace SmartCard

/-- The call protects a command. -/
def SessionCall.isWrap : SessionCall → Bool
  | .encrypt _ | .encryptBytes _ => true
  | .decrypt _ | .decryptResponse _ => false

theorem Counter.toNat_add_ofNat (n : Counter) (k : Nat) :
    (n + BitVec.ofNat 128 k).toNat = (n.toNat + k) % 2 ^ 128 := by
  rw [BitVec.toNat_add, BitVec.toNat_ofNat, Nat.add_mod_mod]

namespace Session

variable {s : Session}

/-! ## Moving on -/

/-- The session with its counter moved on. -/
def advance (s : Session) (n : Nat) : Session :=
  { s with counter := s.counter + BitVec.ofNat 128 n }

theorem advance_zero (s : Session) : s.advance 0 = s := by
  have hzero : s.counter + 0 = s.counter := BitVec.add_zero s.counter
  exact congrArg (Session.mk s.keys) hzero

theorem advance_advance (s : Session) (n m : Nat) :
    (s.advance n).advance m = s.advance (n + m) := by
  unfold advance
  rw [BitVec.ofNat_add, BitVec.add_assoc]

theorem advance_one (s : Session) : s.advance 1 = s.step := rfl

theorem step_advance (s : Session) (n : Nat) : s.step.advance n = s.advance (n + 1) := by
  rw [← advance_one, advance_advance, Nat.add_comm]

theorem advance_two (s : Session) : s.advance 2 = s.step.step := by
  rw [← advance_one s.step, step_advance]

/-- A command and its answer use up two counter values. -/
theorem step_step (s : Session) : s.step.step = ⟨s.keys, s.counter + 2⟩ := s.advance_two.symm

theorem toNat_counter_advance (s : Session) (n : Nat) :
    (s.advance n).counter.toNat = (s.counter.toNat + n) % 2 ^ 128 :=
  s.counter.toNat_add_ofNat n

/-! ## Runs -/

@[simp] theorem call_snd (s : Session) (call : SessionCall) : (s.call call).2 = s.step := by
  cases call with
  | encryptBytes bytes =>
    show (s.encryptBytes bytes).2 = s.step
    unfold encryptBytes
    cases Command.parse bytes with
    | error e => rfl
    | ok c =>
      unfold encrypt
      cases hprotect : s.step.keys.protect s.step.counter c <;> simp only [hprotect] <;> rfl
  | encrypt | decrypt | decryptResponse => rfl

theorem run_cons_snd (s : Session) (call : SessionCall) (rest : List SessionCall) :
    (s.run (call :: rest)).2 = (s.step.run rest).2 := by
  show ((s.call call).2.run rest).2 = _
  rw [call_snd]

theorem run_snd (s : Session) (calls : List SessionCall) :
    (s.run calls).2 = ⟨s.keys, s.counter + BitVec.ofNat 128 calls.length⟩ := by
  induction calls generalizing s with
  | nil => exact s.advance_zero.symm
  | cons call rest ih =>
    rw [run_cons_snd, ih]
    exact s.step_advance rest.length

theorem run_append_snd (s : Session) (first second : List SessionCall) :
    (s.run (first ++ second)).2 = ((s.run first).2.run second).2 := by
  simp only [run_snd, List.length_append, BitVec.ofNat_add, BitVec.add_assoc]

/-- A call is answered as if the session had been opened for it alone. -/
theorem run_fst (s : Session) (calls : List SessionCall) :
    (s.run calls).1 = calls.mapIdx fun i call => ((s.advance i).call call).1 := by
  induction calls generalizing s with
  | nil => rfl
  | cons call rest ih =>
    show (s.call call).1 :: ((s.call call).2.run rest).1 = _
    rw [call_snd, ih, List.mapIdx_cons, advance_zero]
    simp only [step_advance]

/-- The counter counts the calls for as long as it does not wrap around. -/
theorem toNat_counter_run {calls : List SessionCall}
    (h : s.counter.toNat + calls.length < 2 ^ 128) :
    (s.run calls).2.counter.toNat = s.counter.toNat + calls.length := by
  rw [run_snd]
  exact (s.toNat_counter_advance calls.length).trans (Nat.mod_eq_of_lt h)

/-! ## Taking turns -/

/-- Every wrap steps the counter to an odd value, every unwrap to an even one. -/
def Alternates : Session → List SessionCall → Prop
  | _, [] => True
  | s, call :: rest =>
    (call.isWrap = true ↔ (s.call call).2.counter.toNat % 2 = 1) ∧
      (s.call call).2.Alternates rest

theorem toNat_next_mod_two (n : Counter) : n.next.toNat % 2 = (n.toNat + 1) % 2 := by
  unfold Counter.next
  rw [BitVec.toNat_add]
  show (n.toNat + 1) % 2 ^ 128 % 2 = _
  omega

end Session

end SmartCard
