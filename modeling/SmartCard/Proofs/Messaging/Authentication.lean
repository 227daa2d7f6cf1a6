import SmartCard.Messaging.Calls
import SmartCard.Proofs.Messaging.CommandForm

/-!
# What the input of a MAC stands for

`Session.runLogged` is a run of calls that keeps a log of the MAC computations on the way; otherwise
it is the plain run (`Session.runLogged_fst`). All that is in the log is well formed: a header
marked as protected with the objects after it, or a data object, if any, and a status object as they
were received.

`macInput_eq_iff`: of two entries of such logs the MAC reads the same bytes only if they are the
same entry. The parts are padded one by one, so the length of the header and the marks in its class
are what tells them apart.
-/

namespace SmartCard

/-! ## Computations -/

/-- What is authenticated besides the counter: the header of a command and the objects after it, or
the objects of a response as they were received. -/
inductive Authenticated
  | command (header objects : Bytes)
  | response (bytes : Bytes)
  deriving DecidableEq

def Authenticated.parts : Authenticated → List Bytes
  | command header objects => [header, objects]
  | response bytes => [bytes]

/-- A MAC computation: a counter value, and what is authenticated at it. -/
structure MacCall where
  counter : Counter
  message : Authenticated
  deriving DecidableEq

namespace MacCall

/-- The bytes that the MAC reads. -/
def input (m : MacCall) : Bytes := Mac.input m.counter.block m.message.parts

def result (m : MacCall) (key : Cipher.Key) : Bytes :=
  (Cipher.cmac key m.input).toBytes.take Mac.macLength

end MacCall

/-! ## Logs -/

namespace SessionKeys

/-- `assemble`, with the MAC that it computes. -/
def assembleLogged (keys : SessionKeys) (n : Counter) (c : Command) (expected : List DataObject) :
    Except Malformation Command × List MacCall :=
  let objects := DataObject.encodeAll (keys.dataObject n c.body ++ expected)
  let call : MacCall := ⟨n, .command (protectedHeader c) objects⟩
  let body := objects ++ (DataObject.mk .mac (call.result keys.mac)).encode
  (if Command.maxExtendedData < body.length then .error .bodyTooLong
    else .ok
      { c with
        cla := c.cla ||| protectedClassBits
        data := some body
        le := some (wireExpectedLength c.le body) },
    [call])

/-- `protect`, with the MAC that it computes, if it comes to that. -/
def protectLogged (keys : SessionKeys) (n : Counter) (c : Command) :
    Except Malformation Command × List MacCall :=
  if c.isProtected then (.error .alreadyProtected, [])
  else match c.le with
    | none => keys.assembleLogged n c []
    | some le =>
      match DataObject.ofExpectedLength le with
      | .error e => (.error e, [])
      | .ok expected => keys.assembleLogged n c [expected]

/-- `unprotect`, with the MAC that it computes, if it comes to that. -/
def unprotectLogged (keys : SessionKeys) (n : Counter) (bytes : Bytes) :
    Except MessagingError Response × List MacCall :=
  match ProtectedResponse.parse bytes with
  | .error e => (.error (.malformed e), [])
  | .ok r =>
    let call : MacCall := ⟨n, .response r.authenticated⟩
    (if Mac.verify (call.result keys.mac) r.mac then (r.payload keys.enc n).map (⟨·, r.status⟩)
      else .error .integrity,
      [call])

theorem protectLogged_fst (keys : SessionKeys) (n : Counter) (c : Command) :
    (keys.protectLogged n c).1 = keys.protect n c := by
  unfold protectLogged protect
  split
  · rfl
  · cases c.le with
    | none => rfl
    | some le =>
      simp only
      cases DataObject.ofExpectedLength le <;> rfl

theorem unprotectLogged_fst (keys : SessionKeys) (n : Counter) (bytes : Bytes) :
    (keys.unprotectLogged n bytes).1 = keys.unprotect n bytes := by
  unfold unprotectLogged unprotect
  cases ProtectedResponse.parse bytes <;> rfl

end SessionKeys

namespace Session

/-- A call on a session, with the MACs that it computes. -/
def callLogged (s : Session) :
    SessionCall → (Except MessagingError SessionReply × Session) × List MacCall
  | .encrypt c =>
    let (result, log) := s.keys.protectLogged s.step.counter c
    (((result.mapError .malformed).map .command, s.step), log)
  | .encryptBytes bytes =>
    match Command.parse bytes with
    | .error _ => ((.error (.malformed .notACommand), s.step), [])
    | .ok c =>
      match s.keys.protectLogged s.step.counter c with
      | (.error e, log) => ((.error (.malformed e), s.step), log)
      | (.ok w, log) =>
        (((w.encode.mapError fun _ => .malformed .notEncodable).map .wire, s.step), log)
  | .decrypt bytes =>
    let (result, log) := s.keys.unprotectLogged s.step.counter bytes
    ((result.map .response, s.step), log)
  | .decryptResponse r =>
    let (result, log) := s.keys.unprotectLogged s.step.counter r.encode
    ((result.map .response, s.step), log)

/-- A run of calls, with the MACs that it computes. -/
def runLogged (s : Session) :
    List SessionCall → (List (Except MessagingError SessionReply) × Session) × List MacCall
  | [] => (([], s), [])
  | call :: rest =>
    let ((reply, s), log) := s.callLogged call
    let ((replies, s), later) := s.runLogged rest
    ((reply :: replies, s), log ++ later)

/-- The MACs that a run of calls computes. -/
def macs (s : Session) (calls : List SessionCall) : List MacCall := (s.runLogged calls).2

theorem callLogged_fst (s : Session) (call : SessionCall) :
    (s.callLogged call).1 = s.call call := by
  cases call with
  | encrypt c =>
    show (((s.keys.protectLogged s.step.counter c).1.mapError _).map _, s.step) = _
    rw [SessionKeys.protectLogged_fst]
    rfl
  | encryptBytes bytes =>
    simp only [callLogged, Session.call, encryptBytes]
    cases Command.parse bytes with
    | error e => rfl
    | ok c =>
      have hprotect := s.keys.protectLogged_fst s.step.counter c
      rcases hlogged : s.keys.protectLogged s.step.counter c with ⟨e | w, log⟩ <;>
        rw [hlogged] at hprotect <;>
        simp only [encrypt, show s.step.keys.protect s.step.counter c = _ from hprotect.symm,
          hlogged] <;> rfl
  | decrypt bytes =>
    show ((s.keys.unprotectLogged s.step.counter bytes).1.map _, s.step) = _
    rw [SessionKeys.unprotectLogged_fst]
    rfl
  | decryptResponse r =>
    show ((s.keys.unprotectLogged s.step.counter r.encode).1.map _, s.step) = _
    rw [SessionKeys.unprotectLogged_fst]
    rfl

/-- Keeping a log changes nothing. -/
theorem runLogged_fst (s : Session) (calls : List SessionCall) :
    (s.runLogged calls).1 = s.run calls := by
  induction calls generalizing s with
  | nil => rfl
  | cons call rest ih =>
    simp only [runLogged, Session.run, callLogged_fst, ih]

end Session

/-! ## What is logged -/

/-- The shape of what sessions authenticate. -/
inductive Authenticated.WellFormed : Authenticated → Prop
  | command (c : Command) (objects : Bytes) :
      WellFormed (.command (SessionKeys.protectedHeader c) objects)
  | response {data : Option DataObject} {status : StatusWord} {dataPart statusPart : Bytes}
      (dataForm : ProtectedResponse.DataForm data dataPart)
      (spelled : DataObject.Spelling ⟨.status, status.toBytes⟩ statusPart) :
      WellFormed (.response (dataPart ++ statusPart))

section WellFormed

variable {keys : SessionKeys} {n : Counter} {m : MacCall}

theorem SessionKeys.wellFormed_of_protectLogged {c : Command}
    (hm : m ∈ (keys.protectLogged n c).2) : m.message.WellFormed := by
  have assembled {expected : List DataObject} (hm : m ∈ (keys.assembleLogged n c expected).2) :
      m.message.WellFormed := by
    obtain rfl := List.mem_singleton.mp hm
    exact .command c _
  unfold protectLogged at hm
  split at hm
  · cases hm
  · split at hm
    · exact assembled hm
    · split at hm
      · cases hm
      · exact assembled hm

theorem SessionKeys.wellFormed_of_unprotectLogged {bytes : Bytes}
    (hm : m ∈ (keys.unprotectLogged n bytes).2) : m.message.WellFormed := by
  unfold unprotectLogged at hm
  split at hm
  next => cases hm
  next r hparse =>
    obtain rfl := List.mem_singleton.mp hm
    obtain ⟨dataPart, statusPart, -, -, -, hdata, hstatus, hauth, -⟩ :=
      ProtectedResponse.form_of_parse hparse
    show (Authenticated.response r.authenticated).WellFormed
    rw [hauth]
    exact .response hdata hstatus

theorem Session.wellFormed_of_callLogged {s : Session} {call : SessionCall}
    (hm : m ∈ (s.callLogged call).2) : m.message.WellFormed := by
  cases call with
  | encrypt c => exact SessionKeys.wellFormed_of_protectLogged hm
  | encryptBytes bytes =>
    simp only [callLogged] at hm
    split at hm
    next => cases hm
    next c _ =>
      apply @SessionKeys.wellFormed_of_protectLogged s.keys s.step.counter m c
      split at hm <;> (rename_i hlogged; rw [hlogged]; exact hm)
  | decrypt bytes => exact SessionKeys.wellFormed_of_unprotectLogged hm
  | decryptResponse r => exact SessionKeys.wellFormed_of_unprotectLogged hm

/-- All that a session authenticates is well formed. -/
theorem Session.wellFormed_of_macs {s : Session} {calls : List SessionCall}
    (hm : m ∈ s.macs calls) : m.message.WellFormed := by
  induction calls generalizing s with
  | nil => cases hm
  | cons call rest ih =>
    rcases List.mem_append.mp hm with hm | hm
    · exact wellFormed_of_callLogged hm
    · exact ih hm

end WellFormed

/-! ## Taking the input apart -/

theorem Cipher.pad_inj {a b : Bytes} : pad a = pad b ↔ a = b := by
  refine ⟨fun h => ?_, congrArg pad⟩
  have := congrArg unpad? h
  simpa using this

theorem Counter.toBytes_block_inj {n m : Counter} :
    n.block.toBytes = m.block.toBytes ↔ n = m := by
  refine ⟨fun h => ?_, congrArg fun n : Counter => n.block.toBytes⟩
  exact block_inj.mp (Option.some.inj (congrArg Cipher.Block.ofBytes? h))

/-- What a part adds to the input. -/
def Mac.padPart (part : Bytes) : Bytes := if part.isEmpty then [] else Cipher.pad part

theorem Mac.padPart_of_ne {part : Bytes} (h : part ≠ []) : padPart part = Cipher.pad part :=
  if_neg (by simpa using h)

/-- No padded part is empty, so an absent one shows. -/
theorem Mac.padPart_inj {a b : Bytes} : padPart a = padPart b ↔ a = b := by
  refine ⟨fun h => ?_, congrArg padPart⟩
  have hne (part : Bytes) : Cipher.pad part ≠ [] := by
    intro h
    have := congrArg List.length h
    rw [Cipher.length_pad, List.length_nil] at this
    omega
  by_cases ha : a = [] <;> by_cases hb : b = []
  · rw [ha, hb]
  · rw [ha, padPart_of_ne hb] at h
    exact absurd h.symm (hne b)
  · rw [hb, padPart_of_ne ha] at h
    exact absurd h (hne a)
  · rw [padPart_of_ne ha, padPart_of_ne hb] at h
    exact Cipher.pad_inj.mp h

/-- The marks of a protected class are in no tag that a response begins with. -/
theorem or_protectedClassBits_ne (cla : UInt8) {t : Tag}
    (ht : t = .plainData ∨ t = .encryptedData ∨ t = .status) :
    cla ||| protectedClassBits ≠ t.byte := by
  have hall : ∀ b : UInt8, b ||| protectedClassBits ≠ Tag.plainData.byte ∧
      b ||| protectedClassBits ≠ Tag.encryptedData.byte ∧
      b ||| protectedClassBits ≠ Tag.status.byte := by
    refine Cipher.forall_byte ?_
    decide +kernel
  obtain ⟨hplain, hencrypted, hstatus⟩ := hall cla
  rcases ht with rfl | rfl | rfl
  · exact hplain
  · exact hencrypted
  · exact hstatus

/-- A response begins with the tag of data or of a status. -/
theorem ProtectedResponse.DataForm.head? {data : Option DataObject} {status : DataObject}
    {dataPart statusPart : Bytes} (h : DataForm data dataPart) (htag : status.tag = .status)
    (spelled : status.Spelling statusPart) (rest : Bytes) :
    ∃ t : Tag, (t = .plainData ∨ t = .encryptedData ∨ t = .status) ∧
      (dataPart ++ statusPart ++ rest).head? = some t.byte := by
  cases data with
  | none =>
    obtain rfl : dataPart = [] := h
    exact ⟨status.tag, .inr (.inr htag), spelled.head? rest⟩
  | some o =>
    obtain ⟨ho, hspell⟩ := h
    refine ⟨o.tag, ?_, ?_⟩
    · rcases ho with ho | ho
      · exact .inl ho
      · exact .inr (.inl ho)
    · rw [List.append_assoc]
      exact hspell.head? _

namespace Authenticated

/-- The input of the MAC after the counter. -/
def padded (a : Authenticated) : Bytes := a.parts.flatMap Mac.padPart

theorem padded_command (c : Command) (objects : Bytes) :
    (command (SessionKeys.protectedHeader c) objects).padded =
      Cipher.pad (SessionKeys.protectedHeader c) ++ Mac.padPart objects := by
  show _ ++ (Mac.padPart objects ++ []) = _
  rw [List.append_nil]
  rfl

theorem padded_response {bytes : Bytes} (h : bytes ≠ []) :
    (response bytes).padded = Cipher.pad bytes := by
  show Mac.padPart bytes ++ [] = _
  rw [List.append_nil, Mac.padPart_of_ne h]

/-- The first byte tells commands from responses. -/
theorem padded_command_ne_response (c : Command) (objects : Bytes) {data : Option DataObject}
    {status : StatusWord} {dataPart statusPart : Bytes}
    (dataForm : ProtectedResponse.DataForm data dataPart)
    (spelled : DataObject.Spelling ⟨.status, status.toBytes⟩ statusPart) :
    (command (SessionKeys.protectedHeader c) objects).padded ≠
      (response (dataPart ++ statusPart)).padded := by
  intro h
  have hne : dataPart ++ statusPart ≠ [] := by
    have := spelled.length
    intro hnil
    rw [(List.append_eq_nil_iff.mp hnil).2] at this
    exact absurd this (by simp)
  obtain ⟨t, ht, hhead⟩ := dataForm.head? rfl spelled
    (Cipher.paddingMarker :: List.replicate (15 - (dataPart ++ statusPart).length % 16) 0)
  rw [padded_command, padded_response hne] at h
  have hfirst : some (c.cla ||| protectedClassBits) = some t.byte :=
    (congrArg List.head? h).trans hhead
  exact or_protectedClassBits_ne c.cla ht (Option.some.inj hfirst)

theorem WellFormed.padded_inj {a b : Authenticated} (ha : a.WellFormed) (hb : b.WellFormed)
    (h : a.padded = b.padded) : a = b := by
  cases ha with
  | command c objects =>
    cases hb with
    | command c' objects' =>
      rw [padded_command, padded_command] at h
      -- Both headers have four bytes, so each fills one block.
      have hlength : (Cipher.pad (SessionKeys.protectedHeader c)).length =
          (Cipher.pad (SessionKeys.protectedHeader c')).length := by
        rw [Cipher.length_pad, Cipher.length_pad]
        rfl
      obtain ⟨hheader, hobjects⟩ := List.append_inj h hlength
      rw [Cipher.pad_inj.mp hheader, Mac.padPart_inj.mp hobjects]
    | response dataForm spelled =>
      exact absurd h (padded_command_ne_response c objects dataForm spelled)
  | response dataForm spelled =>
    cases hb with
    | command c objects =>
      exact absurd h.symm (padded_command_ne_response c objects dataForm spelled)
    | response dataForm' spelled' =>
      have hparts : Mac.padPart _ = Mac.padPart _ := List.append_cancel_right h
      rw [Mac.padPart_inj.mp hparts]

end Authenticated

theorem MacCall.input_eq (m : MacCall) :
    m.input = m.counter.block.toBytes ++ m.message.padded := rfl

theorem MacCall.input_inj {m m' : MacCall} (hm : m.message.WellFormed)
    (hm' : m'.message.WellFormed) :
    m.input = m'.input ↔ m.counter = m'.counter ∧ m.message = m'.message := by
  constructor
  · intro h
    rw [input_eq, input_eq] at h
    obtain ⟨hcounter, hmessage⟩ := List.append_inj h
      (by rw [Cipher.Block.length_toBytes, Cipher.Block.length_toBytes])
    exact ⟨Counter.toBytes_block_inj.mp hcounter, hm.padded_inj hm' hmessage⟩
  · rintro ⟨hcounter, hmessage⟩
    rw [input_eq, input_eq, hcounter, hmessage]

/-- **The input of a MAC stands for one message.** Of any two MACs that sessions compute, whatever
they are asked and whether it succeeds, the inputs are the same bytes exactly if the counters are
the same, and both authenticate the same header and objects, or both the same received bytes. So a
bare header is never taken for one with objects, nor a command for a response. -/
theorem macInput_eq_iff {s s' : Session} {calls calls' : List SessionCall} {m m' : MacCall}
    (hm : m ∈ s.macs calls) (hm' : m' ∈ s'.macs calls') :
    (s.runLogged calls).1 = s.run calls ∧
    (m.input = m'.input ↔ m.counter = m'.counter ∧ m.message = m'.message) ∧
    (∀ header header' objects, m.message = .command header [] →
      m'.message = .command header' objects → objects ≠ [] → m.input ≠ m'.input) ∧
    ∀ header objects bytes, m.message = .command header objects → m'.message = .response bytes →
      m.input ≠ m'.input := by
  have hinj := MacCall.input_inj (Session.wellFormed_of_macs hm) (Session.wellFormed_of_macs hm')
  refine ⟨s.runLogged_fst calls, hinj, fun header header' objects h h' hne heq => ?_,
    fun header objects bytes h h' heq => ?_⟩
  · have hmessage := (hinj.mp heq).2
    rw [h, h'] at hmessage
    cases hmessage
    exact hne rfl
  · have hmessage := (hinj.mp heq).2
    rw [h, h'] at hmessage
    cases hmessage

/-- At one counter value: a command that is only a header, the same with an expected length, and a
response with nothing but a status. -/
theorem macInput_eq_iff_header_only :
    let s : Session := .start ⟨Counter.block 0, Counter.block 1⟩
    let c : Command := ⟨0x00, 0xB0, 0x00, 0x00, none, none⟩
    let answer : Bytes := [0x99, 0x02, 0x90, 0x00, 0x8E, 0x08, 0, 0, 0, 0, 0, 0, 0, 0, 0x90, 0x00]
    let bare : MacCall := ⟨1, .command [0x0C, 0xB0, 0x00, 0x00] []⟩
    let full : MacCall := ⟨1, .command [0x0C, 0xB0, 0x00, 0x00] [0x97, 0x01, 0x00]⟩
    let received : MacCall := ⟨1, .response [0x99, 0x02, 0x90, 0x00]⟩
    s.macs [.encrypt c] = [bare] ∧ s.macs [.encrypt { c with le := some 256 }] = [full] ∧
      s.macs [.decrypt answer] = [received] ∧
      bare.input ≠ full.input ∧ full.input ≠ received.input := by
  intro s c answer bare full received
  have hbare : s.macs [.encrypt c] = [bare] := by decide
  have hfull : s.macs [.encrypt { c with le := some 256 }] = [full] := by decide
  have hreceived : s.macs [.decrypt answer] = [received] := by decide
  have hmem {calls : List SessionCall} {m : MacCall} (h : s.macs calls = [m]) :
      m ∈ s.macs calls := h ▸ List.mem_singleton_self m
  refine ⟨hbare, hfull, hreceived, ?_, ?_⟩
  · exact (macInput_eq_iff (hmem hbare) (hmem hfull)).2.2.1 _ _ _ rfl rfl (by decide)
  · exact (macInput_eq_iff (hmem hfull) (hmem hreceived)).2.2.2 _ _ _ rfl rfl

end SmartCard
