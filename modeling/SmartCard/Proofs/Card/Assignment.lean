import SmartCard.Card.Basic

/-!
# The number of a new channel

The response to a request for a channel either assigns one (`Assigns`) or not, for some reason
(`Unassigned`), and `Card.assignedNumber` says which: `assignedNumber_eq_ok_iff` and
`assignedNumber_eq_error_iff`.
-/

namespace SmartCard

/-- The response assigns the channel `n`. -/
structure Assigns (r : Response) (n : LogicalChannel) : Prop where
  status : r.status = ⟨0x90, 0x00⟩
  payload : ∃ b rest, r.payload = b :: rest ∧ 1 ≤ b.toNat ∧ b.toNat ≤ 19 ∧ n.number.val = b.toNat

/-- The response assigns no channel, for this reason. -/
inductive Unassigned (r : Response) : CardError → Prop
  | refused (status : r.status ≠ ⟨0x90, 0x00⟩) : Unassigned r (.refused .openChannel r.status)
  | noNumber (status : r.status = ⟨0x90, 0x00⟩) (payload : r.payload = []) :
      Unassigned r (.badAssignment .noNumber)
  | basicChannel {rest : Bytes} (status : r.status = ⟨0x90, 0x00⟩)
      (payload : r.payload = 0 :: rest) : Unassigned r (.badAssignment .basicChannel)
  | outOfRange {b : UInt8} {rest : Bytes} (status : r.status = ⟨0x90, 0x00⟩)
      (payload : r.payload = b :: rest) (h : 19 < b.toNat) :
      Unassigned r (.apdu (.channelNumber b))

/-- The basic channel is never assigned. -/
theorem Assigns.isBasic {r : Response} {n : LogicalChannel} (h : Assigns r n) :
    n.isBasic = false := by
  obtain ⟨b, _, -, hpos, -, hn⟩ := h.payload
  refine decide_eq_false fun heq => ?_
  have hzero : n.number.val = 0 := congrArg (fun n : LogicalChannel => n.number.val) heq
  omega

namespace Card

variable {r : Response} {n : LogicalChannel} {e : CardError}

theorem assignedNumber_of_success (status : r.status = ⟨0x90, 0x00⟩) :
    assignedNumber r =
      match r.payload with
      | [] => .error (.badAssignment .noNumber)
      | b :: _ => ((LogicalChannel.ofByte b).mapError .apdu).bind fun n =>
          if n.isBasic then .error (.badAssignment .basicChannel) else .ok n := by
  have hcheck : ChannelRequest.openChannel.check r = .ok r :=
    if_pos (show r.isSuccess = true from decide_eq_true status)
  unfold assignedNumber
  rw [hcheck]
  cases hpayload : r.payload <;> simp only [bind, Except.bind, hpayload] <;> rfl

theorem assignedNumber_of_assigns (h : Assigns r n) : assignedNumber r = .ok n := by
  have hbasic := h.isBasic
  obtain ⟨b, rest, hpayload, -, hle, hn⟩ := h.payload
  have hlt : b.toNat < 20 := by omega
  have hbyte : LogicalChannel.ofByte b = .ok n := by
    rw [LogicalChannel.ofByte, dif_pos hlt]
    obtain ⟨number⟩ := n
    exact congrArg (fun i => Except.ok (LogicalChannel.mk i)) (Fin.ext hn.symm)
  rw [assignedNumber_of_success h.status, hpayload]
  show ((LogicalChannel.ofByte b).mapError CardError.apdu).bind _ = _
  rw [hbyte]
  exact if_neg (by simp [hbasic])

theorem assignedNumber_of_unassigned (h : Unassigned r e) : assignedNumber r = .error e := by
  cases h with
  | refused status =>
    have hcheck : ChannelRequest.openChannel.check r = .error (.refused .openChannel r.status) :=
      if_neg fun h => status (of_decide_eq_true h)
    unfold assignedNumber
    rw [hcheck]
    rfl
  | noNumber status payload => rw [assignedNumber_of_success status, payload]
  | basicChannel status payload =>
    rw [assignedNumber_of_success status, payload]
    rfl
  | outOfRange status payload h =>
    rw [assignedNumber_of_success status, payload]
    simp only [LogicalChannel.ofByte, dif_neg (Nat.not_lt.mpr h)]
    rfl

/-- Every response either assigns a channel or does not, for some reason. -/
theorem exists_assigns_or_unassigned (r : Response) :
    (∃ n, Assigns r n) ∨ ∃ e, Unassigned r e := by
  by_cases status : r.status = ⟨0x90, 0x00⟩
  · cases payload : r.payload with
    | nil => exact .inr ⟨_, .noNumber status payload⟩
    | cons b rest =>
      by_cases hrange : b.toNat ≤ 19
      · by_cases hzero : b = 0
        · exact .inr ⟨_, .basicChannel status (hzero ▸ payload)⟩
        · have hpos : b.toNat ≠ 0 := fun h => hzero (UInt8.toNat_inj.mp h)
          exact .inl ⟨⟨b.toNat, by omega⟩, status, b, rest, payload, by omega, hrange, rfl⟩
      · exact .inr ⟨_, .outOfRange status payload (by omega)⟩
  · exact .inr ⟨_, .refused status⟩

theorem assignedNumber_eq_ok_iff : assignedNumber r = .ok n ↔ Assigns r n := by
  refine ⟨fun h => ?_, assignedNumber_of_assigns⟩
  rcases exists_assigns_or_unassigned r with ⟨m, hm⟩ | ⟨e, he⟩
  · rw [assignedNumber_of_assigns hm] at h
    cases h
    exact hm
  · rw [assignedNumber_of_unassigned he] at h
    cases h

theorem assignedNumber_eq_error_iff : assignedNumber r = .error e ↔ Unassigned r e := by
  refine ⟨fun h => ?_, assignedNumber_of_unassigned⟩
  rcases exists_assigns_or_unassigned r with ⟨m, hm⟩ | ⟨e', he⟩
  · rw [assignedNumber_of_assigns hm] at h
    cases h
  · rw [assignedNumber_of_unassigned he] at h
    cases h
    exact he

end Card

end SmartCard
