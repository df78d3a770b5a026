import WalletBridge.Payload
import WalletBridge.Proofs.Message.Any
import WalletBridge.Proofs.Object.RoundTrip

namespace WalletBridge

namespace SignPayload

def typeNames : List MessageName :=
  [BtcForkTxInput.messageName, TronTxInput.messageName, TronMessageInput.messageName]

/-- If the payload is sealed, then under a name that is not known. -/
def Faithful : SignPayload → Prop
  | .sealed a => ∀ n ∈ typeNames, MessageName.afterLast '/' a.typeUrl ≠ n.full
  | _ => True

inductive IsVariant : (α : Type) → [Message α] → (α → SignPayload) → Prop
  | btcForkTx : IsVariant BtcForkTxInput .btcForkTx
  | tronTx : IsVariant TronTxInput .tronTx
  | tronMessage : IsVariant TronMessageInput .tronMessage

/-- The envelope holds the variant with what its bytes say, or nothing because they say nothing. -/
def ResolvesAs {α : Type} [Message α] (variant : α → SignPayload) (a : Any) : Prop :=
  (∀ m : α, Message.parse a.value = .ok m → ofAny a = .ok (variant m)) ∧
  ∀ e, (Message.parse a.value : Except Wire.DecodeError α) = .error e → ofAny a = .error (.decode e)

section

variable {α : Type} [Message α] {variant : α → SignPayload} {a b : Any} {p : SignPayload}

theorem exists_variant {n : MessageName} (member : n ∈ typeNames) :
    ∃ (α : Type) (_ : Message α) (variant : α → SignPayload),
      IsVariant α variant ∧ (Message.schemaOf α).name = n := by
  simp only [typeNames, List.mem_cons, List.not_mem_nil, or_false] at member
  rcases member with rfl | rfl | rfl
  · exact ⟨_, _, _, .btcForkTx, rfl⟩
  · exact ⟨_, _, _, .tronTx, rfl⟩
  · exact ⟨_, _, _, .tronMessage, rfl⟩

theorem names_of_afterLast {n : MessageName} (last : MessageName.afterLast '/' a.typeUrl = n.full) :
    names α a = (n.full == (Message.schemaOf α).name.full) := by
  rw [names, MessageName.matchesUrl, last]

theorem resolvesAs_of_afterLast (known : IsVariant α variant)
    (last : MessageName.afterLast '/' a.typeUrl = (Message.schemaOf α).name.full) :
    ResolvesAs variant a := by
  have named : names α a = true := beq_iff_eq.mpr last
  have chosen : ofAny a = (Message.unpack a).map variant := by
    cases known with
    | btcForkTx | tronTx | tronMessage =>
      simp only [ofAny, names_of_afterLast last]
      rfl
  rw [ResolvesAs, chosen, Message.unpack_of_named named]
  constructor
  · intro m parsed
    rw [parsed]
    rfl
  · intro e failed
    rw [failed]
    rfl

theorem ResolvesAs.ofAny_eq (one : ResolvesAs variant a) (other : ResolvesAs variant b)
    (same : b.value = a.value) : ofAny b = ofAny a := by
  rw [ResolvesAs, same] at other
  cases parsed : (Message.parse a.value : Except Wire.DecodeError α) with
  | error e => exact (other.2 e parsed).trans (one.2 e parsed).symm
  | ok m => exact (other.1 m parsed).trans (one.1 m parsed).symm

theorem ofAny_of_unknown (unknown : ∀ n ∈ typeNames, MessageName.afterLast '/' a.typeUrl ≠ n.full) :
    ofAny a = .ok (.sealed a) := by
  have unnamed (n : MessageName) (member : n ∈ typeNames) : n.matchesUrl a.typeUrl = false :=
    beq_eq_false_iff_ne.mpr (unknown n member)
  have first : names BtcForkTxInput a = false := unnamed _ (.head _)
  have second : names TronTxInput a = false := unnamed _ (.tail _ (.head _))
  have third : names TronMessageInput a = false := unnamed _ (.tail _ (.tail _ (.head _)))
  simp [ofAny, first, second, third]

theorem ofAny_pack (variantOf : IsVariant α variant) (m : α)
    (bound : (Message.encode m).length < 1 <<< 64) : ofAny (Message.pack m) = .ok (variant m) := by
  have known : Message.schemaOf α ∈ Catalog.all := by
    cases variantOf <;> decide +kernel
  have last : MessageName.afterLast '/' (Message.pack m).typeUrl = (Message.schemaOf α).name.full :=
    MessageName.afterLast_typeUrl (Catalog.slash_not_mem_full known)
  exact (resolvesAs_of_afterLast variantOf last).1 m (Message.parse_encode known m bound)

theorem ofAny_toAny (faithful : p.Faithful) (bound : p.toAny.value.length < 1 <<< 64) :
    ofAny p.toAny = .ok p := by
  cases p with
  | btcForkTx m => exact ofAny_pack .btcForkTx m bound
  | tronTx m => exact ofAny_pack .tronTx m bound
  | tronMessage m => exact ofAny_pack .tronMessage m bound
  | «sealed» a => exact ofAny_of_unknown faithful

theorem ResolvesAs.faithful (known : IsVariant α variant) (resolves : ResolvesAs variant a)
    (resolved : ofAny a = .ok p) : p.Faithful := by
  cases parsed : (Message.parse a.value : Except Wire.DecodeError α) with
  | error e =>
    rw [resolves.2 e parsed] at resolved
    cases resolved
  | ok m =>
    rw [resolves.1 m parsed] at resolved
    cases resolved
    cases known <;> exact True.intro

theorem faithful_of_ofAny (resolved : ofAny a = .ok p) : p.Faithful := by
  by_cases unknown : ∀ n ∈ typeNames, MessageName.afterLast '/' a.typeUrl ≠ n.full
  · rw [ofAny_of_unknown unknown] at resolved
    cases resolved
    exact unknown
  · push Not at unknown
    obtain ⟨n, member, last⟩ := unknown
    obtain ⟨α, message, variant, known, rfl⟩ := exists_variant member
    exact (resolvesAs_of_afterLast known last).faithful known resolved

theorem typeUrl_toAny (p : SignPayload) : p.toAny.typeUrl = p.typeUrl := by
  cases p <;> rfl

theorem not_trons_of_bitcoinForks {chain : String} (fork : Chain.bitcoinForks.contains chain = true) :
    Chain.trons.contains chain = false := by
  have apart : ∀ chain ∈ Chain.bitcoinForks, Chain.trons.contains chain = false := by decide
  exact apart chain (List.contains_iff_mem.mp fork)

end

/-- Behind the last slash the address names a known type, and then the envelope is a message of that type
or an error, whatever stands in front, or it names none, and then the envelope stays closed. What
came out of an envelope and is packed again has the type's own address and comes out as it was. No
chain takes payloads of two families, and none takes what is sealed. No buffer is longer than a word of
64 bits counts. -/
theorem ofAny_resolution (a : Any) :
    (∀ (α : Type) [Message α] (variant : α → SignPayload), IsVariant α variant →
      MessageName.afterLast '/' a.typeUrl = (Message.schemaOf α).name.full →
        ResolvesAs variant a ∧
        ∀ url, MessageName.afterLast '/' url = (Message.schemaOf α).name.full →
          ofAny ⟨url, a.value⟩ = ofAny a) ∧
    ((∀ n ∈ typeNames, MessageName.afterLast '/' a.typeUrl ≠ n.full) →
      ofAny a = .ok (.sealed a) ∧ (SignPayload.sealed a).toAny = a) ∧
    (∀ p, ofAny a = .ok p → p.toAny.typeUrl = p.typeUrl ∧
      (p.toAny.value.length < 1 <<< 64 → ofAny p.toAny = .ok p)) ∧
    (∀ m chain, (SignPayload.btcForkTx m).supportsChain chain = true →
      (∀ t, (SignPayload.tronTx t).supportsChain chain = false) ∧
      ∀ t, (SignPayload.tronMessage t).supportsChain chain = false) ∧
    ∀ b chain, (SignPayload.sealed b).supportsChain chain = false := by
  refine ⟨fun α _ variant known last => ⟨?_, fun url last' => ?_⟩, fun unknown => ?_, fun p resolved => ?_,
    fun m chain fork => ?_, fun b chain => rfl⟩
  · exact resolvesAs_of_afterLast known last
  · exact (resolvesAs_of_afterLast known last).ofAny_eq (resolvesAs_of_afterLast known last') rfl
  · exact ⟨ofAny_of_unknown unknown, rfl⟩
  · exact ⟨typeUrl_toAny p, ofAny_toAny (faithful_of_ofAny resolved)⟩
  · exact ⟨fun _ => not_trons_of_bitcoinForks fork, fun _ => not_trons_of_bitcoinForks fork⟩

/-- The address is bare and the bytes end in a field that is not declared: packing again keeps neither.
With a slash at its end the address names the empty type. -/
theorem ofAny_resolution_looseInput :
    let a : Any := ⟨"transaction.TronTxInput", [0x0a, 0x01, 0x07, 0x78, 0x05]⟩
    let b : Any := ⟨"transaction.TronTxInput/", a.value⟩
    let p : SignPayload := .tronTx { rawData := [0x07] }
    ofAny a = .ok p ∧ ofAny ⟨"//" ++ a.typeUrl, a.value⟩ = .ok p ∧ p.toAny ≠ a ∧
    p.toAny.typeUrl = p.typeUrl ∧ p.toAny.value.length < 1 <<< 64 ∧ ofAny p.toAny = .ok p ∧
    ofAny b = .ok (.sealed b) ∧ (SignPayload.btcForkTx {}).supportsChain "LITECOIN" = true ∧
    p.supportsChain "LITECOIN" = false := by
  intro a b p
  have last : MessageName.afterLast '/' a.typeUrl = TronTxInput.messageName.full := by decide +kernel
  have last' : MessageName.afterLast '/' ("//" ++ a.typeUrl) = TronTxInput.messageName.full := by
    decide +kernel
  have parsed : Message.parse a.value = .ok ({ rawData := [0x07] } : TronTxInput) := by rfl
  have small : p.toAny.value.length < 1 <<< 64 := by decide +kernel
  have unknown : ∀ n ∈ typeNames, MessageName.afterLast '/' b.typeUrl ≠ n.full := by decide +kernel
  have fork : (SignPayload.btcForkTx {}).supportsChain "LITECOIN" = true := by decide
  obtain ⟨known, _, repacked, families, _⟩ := ofAny_resolution a
  obtain ⟨⟨resolves, _⟩, whatever⟩ := known TronTxInput .tronTx .tronTx last
  have resolved : ofAny a = .ok p := resolves _ parsed
  obtain ⟨address, again⟩ := repacked p resolved
  exact ⟨resolved, (whatever _ last').trans resolved, by decide +kernel, address, small, again small,
    ((ofAny_resolution b).2.1 unknown).1, fork, (families _ _ fork).1 _⟩

end SignPayload

namespace SignParam

theorem payload_setPayload (q : SignParam) {p : SignPayload} (faithful : p.Faithful)
    (bound : p.toAny.value.length < 1 <<< 64) : (q.setPayload p).payload = .ok p := by
  simp only [payload, setPayload, SignPayload.ofAny_toAny faithful bound]
  rfl

/-- A payload that is put into a request comes out of it as it went in, also after the request was
encoded and read, or rendered in whatever form and read. Nothing else in the request changes. A sealed
payload comes out sealed unless its address names, behind the last slash, one of the known types. No
buffer is longer than a word of 64 bits counts. -/
theorem payload_survives_envelope (q : SignParam) {p : SignPayload} (faithful : p.Faithful)
    (bound : p.toAny.value.length < 1 <<< 64) :
    let q' := q.setPayload p
    q'.payload = .ok p ∧
    ((Message.encode q').length < 1 <<< 64 →
      ∃ r : SignParam, Message.parse (Message.encode q') = .ok r ∧ r = q' ∧ r.payload = .ok p) ∧
    (∀ o, ∃ r : SignParam, Message.ofObject (Message.toObject o q') = .ok r ∧ r = q' ∧
      r.payload = .ok p) ∧
    q'.id = q.id ∧ q'.password = q.password ∧ q'.chainType = q.chainType ∧ q'.address = q.address := by
  intro q'
  have known : Message.schemaOf SignParam ∈ Catalog.all := by decide +kernel
  have stays : q'.payload = .ok p := payload_setPayload q faithful bound
  refine ⟨stays, ?_, ?_, rfl, rfl, rfl, rfl⟩
  · intro bound
    exact ⟨q', Message.parse_encode known q' bound, rfl, stays⟩
  · intro o
    exact ⟨q', Message.ofObject_toObject known o q', rfl, stays⟩

/-- The address ends in a slash, so it names the empty type and not the one in front of the slash. -/
def lookalike : SignPayload :=
  .sealed ⟨"type.googleapis.com/transaction.TronTxInput/", [0x0a, 0x02, 0x0e, 0x2d]⟩

theorem payload_survives_envelope_lookalike :
    let q : SignParam := ({ id := "w1", chainType := "TRON" } : SignParam).setPayload lookalike
    lookalike.Faithful ∧ lookalike.toAny.value.length < 1 <<< 64 ∧
    (Message.encode q).length < 1 <<< 64 ∧ q.payload = .ok lookalike ∧
    ∃ r : SignParam, Message.parse (Message.encode q) = .ok r ∧ r = q ∧ r.payload = .ok lookalike := by
  intro q
  have faithful : lookalike.Faithful := by
    show ∀ n ∈ SignPayload.typeNames, MessageName.afterLast '/' _ ≠ n.full
    decide +kernel
  have small : lookalike.toAny.value.length < 1 <<< 64 := by decide +kernel
  have bound : (Message.encode q).length < 1 <<< 64 := by decide +kernel
  obtain ⟨stays, encoded, _⟩ :=
    payload_survives_envelope { id := "w1", chainType := "TRON" } faithful small
  exact ⟨faithful, small, bound, stays, encoded bound⟩

end SignParam

end WalletBridge
