import SmartCard.Proofs.Messaging.Counterpart

/-!
# What a protected command tells its receiver

A `Receipt` is the wire form of a protected command taken apart. Each wire form has one receipt at
most (`Receipt.Of.unique`), and a receipt stands for one command at most
(`Receipt.StandsFor.agrees`), up to the marks of secure messaging and the form of absent data.

`received_as_protected`: the receipt of what a session sends stands for the command that it was
given, so commands that say something else are sent as something else.
-/

namespace SmartCard

/-! ## Commands that say the same -/

/-- The commands differ in the marks of secure messaging at most, and empty data is no data. -/
structure Command.Agrees (c c' : Command) : Prop where
  cla : c.cla &&& ~~~protectedClassBits = c'.cla &&& ~~~protectedClassBits
  ins : c.ins = c'.ins
  p1 : c.p1 = c'.p1
  p2 : c.p2 = c'.p2
  body : c.body = c'.body
  le : c.le = c'.le

/-- Setting the marks forgets them, and nothing else. -/
theorem or_protectedClassBits_inj {cla cla' : UInt8} :
    cla ||| protectedClassBits = cla' ||| protectedClassBits ↔
      cla &&& ~~~protectedClassBits = cla' &&& ~~~protectedClassBits := by
  have clear (b : UInt8) :
      (b ||| protectedClassBits) &&& ~~~protectedClassBits = b &&& ~~~protectedClassBits := by
    revert b
    refine Cipher.forall_byte ?_
    decide +kernel
  have mark (b : UInt8) :
      (b &&& ~~~protectedClassBits) ||| protectedClassBits = b ||| protectedClassBits := by
    revert b
    refine Cipher.forall_byte ?_
    decide +kernel
  constructor
  · intro h
    rw [← clear cla, h, clear cla']
  · intro h
    rw [← mark cla, h, mark cla']

/-! ## Receipts -/

/-- A protected command taken apart: the command on the wire, and the values of its objects. -/
structure Receipt where
  command : Command
  data : Option Bytes
  expected : Option Bytes
  mac : Bytes

namespace Receipt

/-- The objects that stand before the MAC. -/
def objects (r : Receipt) : List DataObject := protectedObjects r.data r.expected

/-- The receiver of `wire` finds `r`, with nothing left over. -/
structure Of (r : Receipt) (wire : Bytes) : Prop where
  parsed : Command.parse wire = .ok r.command
  decoded : DataObject.decodeAll r.command.body = .ok (r.objects ++ [⟨.mac, r.mac⟩])
  spelled : r.command.body = DataObject.encodeAll r.objects ++ (DataObject.mk .mac r.mac).encode

/-- What `r` says at `n` is what `c` says, and its MAC is the one of its header and objects. -/
structure StandsFor (r : Receipt) (keys : SessionKeys) (n : Counter) (c : Command) : Prop where
  cla : r.command.cla = c.cla ||| protectedClassBits
  ins : r.command.ins = c.ins
  p1 : r.command.p1 = c.p1
  p2 : r.command.p2 = c.p2
  data_isSome : r.data.isSome = true ↔ c.body ≠ []
  data : ∀ value ∈ r.data, ∃ cryptogram, value = paddingIndicator :: cryptogram ∧
    Cryptogram.decrypt keys.enc n.block cryptogram = .ok c.body
  expected_isSome : r.expected.isSome = c.le.isSome
  expected : r.expected.bind expectedLength? = c.le
  mac : r.mac = Mac.compute keys.mac n.block [r.command.header, DataObject.encodeAll r.objects]

end Receipt

theorem protectedObjects_inj {data data' expected expected' : Option Bytes}
    (h : protectedObjects data expected = protectedObjects data' expected') :
    data = data' ∧ expected = expected' := by
  unfold protectedObjects at h
  rcases data with _ | data <;> rcases data' with _ | data' <;>
    rcases expected with _ | expected <;> rcases expected' with _ | expected' <;> simp_all

namespace Receipt

variable {r r' : Receipt} {keys : SessionKeys} {n : Counter} {c c' : Command} {wire : Bytes}

theorem Of.unique (h : r.Of wire) (h' : r'.Of wire) : r = r' := by
  have hcommand : r.command = r'.command := by
    have := h.parsed.symm.trans h'.parsed
    exact Except.ok.inj this
  have hobjects : r.objects ++ [⟨.mac, r.mac⟩] = r'.objects ++ [⟨.mac, r'.mac⟩] := by
    have := h.decoded.symm.trans (hcommand ▸ h'.decoded)
    exact Except.ok.inj this
  obtain ⟨hfront, hlast⟩ := List.append_inj' hobjects rfl
  obtain ⟨hdata, hexpected⟩ := protectedObjects_inj hfront
  have hmac : r.mac = r'.mac := by simpa using hlast
  cases r
  cases r'
  simp_all

theorem StandsFor.body_eq (h : r.StandsFor keys n c) (h' : r.StandsFor keys n c') :
    c.body = c'.body := by
  cases hdata : r.data with
  | none =>
    have hempty : ∀ {c : Command}, r.StandsFor keys n c → c.body = [] := by
      intro c h
      have := h.data_isSome.not
      simpa [hdata] using this
    rw [hempty h, hempty h']
  | some value =>
    obtain ⟨cryptogram, rfl, hplain⟩ := h.data value hdata
    obtain ⟨cryptogram', heq, hplain'⟩ := h'.data _ hdata
    obtain rfl : cryptogram = cryptogram' := (List.cons.inj heq).2
    exact Except.ok.inj (hplain.symm.trans hplain')

theorem StandsFor.agrees (h : r.StandsFor keys n c) (h' : r.StandsFor keys n c') :
    c.Agrees c' where
  cla := or_protectedClassBits_inj.mp (h.cla.symm.trans h'.cla)
  ins := h.ins.symm.trans h'.ins
  p1 := h.p1.symm.trans h'.p1
  p2 := h.p2.symm.trans h'.p2
  body := h.body_eq h'
  le := h.expected.symm.trans h'.expected

end Receipt

namespace SessionKeys

variable {keys : SessionKeys} {n : Counter} {c c' : Command}

/-! ## The receipt of a protected command -/

theorem protectedForm_congr (h : c.Agrees c') :
    keys.protectedForm n c = keys.protectedForm n c' := by
  have hcla := or_protectedClassBits_inj.mpr h.cla
  have hheader : protectedHeader c = protectedHeader c' := by
    simp only [protectedHeader, Command.header, hcla, h.ins, h.p1, h.p2]
  have hauthenticated : keys.authenticatedBytes n c = keys.authenticatedBytes n c' := by
    simp only [authenticatedBytes, h.body, h.le]
  have hbody : keys.protectedBody n c = keys.protectedBody n c' := by
    simp only [protectedBody, hheader, hauthenticated]
  simp only [protectedForm, hcla, h.ins, h.p1, h.p2, hbody, h.le]

/-- What is found in the protected form of `c`. -/
def receipt (keys : SessionKeys) (n : Counter) (c : Command) : Receipt where
  command := keys.protectedForm n c
  data := keys.dataValue? n c.body
  expected := c.le.map expectedValue
  mac := Mac.compute keys.mac n.block [protectedHeader c, keys.authenticatedBytes n c]

theorem objects_receipt :
    (keys.receipt n c).objects = keys.dataObject n c.body ++ expectedObjects c.le :=
  protectedObjects_eq keys n c

theorem receipt_of (h : c.Protectable) :
    (keys.receipt n c).Of (keys.protectedForm n c).encodeFields where
  parsed := parse_protectedForm h
  decoded := decodeAll_protectedBody h
  spelled := by
    rw [objects_receipt]
    rfl

theorem receipt_standsFor (h : c.Protectable) : (keys.receipt n c).StandsFor keys n c where
  cla := rfl
  ins := rfl
  p1 := rfl
  p2 := rfl
  data_isSome := by
    show (keys.dataValue? n c.body).isSome = true ↔ c.body ≠ []
    rw [isSome_dataValue?]
    simp
  data := by
    intro value hvalue
    change keys.dataValue? n c.body = some value at hvalue
    unfold dataValue? at hvalue
    split at hvalue
    next => cases hvalue
    next =>
      cases hvalue
      exact ⟨_, rfl, Cryptogram.decrypt_encrypt ..⟩
  expected_isSome := Option.isSome_map
  expected := by
    show (c.le.map expectedValue).bind expectedLength? = c.le
    cases hle : c.le with
    | none => rfl
    | some le =>
      obtain ⟨h1, h2⟩ := h.expected le hle
      exact expectedLength?_expectedValue h1 h2
  mac := by
    rw [objects_receipt]
    rfl

/-- Agreeing commands are sent alike, and no others. -/
theorem encodeFields_protectedForm_inj (h : c.Protectable) (h' : c'.Protectable) :
    (keys.protectedForm n c).encodeFields = (keys.protectedForm n c').encodeFields ↔
      c.Agrees c' := by
  constructor
  · intro hwire
    have hreceipt : keys.receipt n c = keys.receipt n c' :=
      (receipt_of h).unique (hwire ▸ receipt_of h')
    exact (receipt_standsFor h).agrees (hreceipt ▸ receipt_standsFor h')
  · intro hagrees
    rw [protectedForm_congr hagrees]

end SessionKeys

/-- **Receipt.** What a session makes of a command has a wire form, which its receiver takes apart
in one way only, into what stands for the command at the counter value that the session has stepped
to. Under the same keys and counter another command is sent alike exactly if it says the same. -/
theorem received_as_protected (keys : SessionKeys) (n : Counter) (c w : Command) (after : Session)
    (h : Session.encrypt ⟨keys, n⟩ c = (.ok w, after)) :
    after = ⟨keys, n.next⟩ ∧
      ∃ wire r, w.encode = .ok wire ∧ Receipt.Of r wire ∧ (∀ r', Receipt.Of r' wire → r' = r) ∧
        r.StandsFor keys n.next c ∧
        ∀ c' w' after', Session.encrypt ⟨keys, n⟩ c' = (.ok w', after') →
          (w'.encode = .ok wire ↔ c'.Agrees c) := by
  obtain ⟨hc, rfl, rfl⟩ := Session.encrypt_eq_ok_iff.mp h
  refine ⟨rfl, _, keys.receipt n.next c, (SessionKeys.encodable_protectedForm hc).encode,
    SessionKeys.receipt_of hc, fun r' hr' => hr'.unique (SessionKeys.receipt_of hc),
    SessionKeys.receipt_standsFor hc, ?_⟩
  intro c' w' after' h'
  obtain ⟨hc', rfl, rfl⟩ := Session.encrypt_eq_ok_iff.mp h'
  rw [(SessionKeys.encodable_protectedForm hc').encode, Except.ok.injEq]
  exact SessionKeys.encodeFields_protectedForm_inj hc' hc

/-- A command with data and an expected length, both of which arrive. -/
theorem received_as_protected_update :
    let keys : SessionKeys := ⟨Counter.block 0, Counter.block 1⟩
    let c : Command := ⟨0x84, 0xD6, 0x00, 0x10, some [0x01, 0x02], some 256⟩
    c.Protectable ∧
      ∃ wire r, (keys.protectedForm 1 c).encode = .ok wire ∧ Receipt.Of r wire ∧
        r.StandsFor keys 1 c := by
  intro keys c
  have hc : c.Protectable := by decide
  have hencrypt : Session.encrypt ⟨keys, 0⟩ c = (.ok (keys.protectedForm 1 c), ⟨keys, 1⟩) :=
    Session.encrypt_eq_ok_iff.mpr ⟨hc, rfl, rfl⟩
  obtain ⟨-, wire, r, hwire, hof, -, hstands, -⟩ := received_as_protected keys 0 c _ _ hencrypt
  exact ⟨hc, wire, r, hwire, hof, hstands⟩

end SmartCard
