import WalletBridge.Proofs.Schema.Padding

namespace WalletBridge

open Wire

namespace Schema

theorem parse_encode {s : Schema} (wf : s.WellFormed) (r : s.Record)
    (bound : (s.encode r).length < 1 <<< 64) : s.parse (s.encode r) = .ok r := by
  have padded := Fields.padded_encode s.fields.tags (Nat.le_of_lt wf.depth_lt) r
  exact parse_eq_ok_iff.mpr (padded.parses s.name.ownName wf.fields bound)

/-- Writing onto a buffer appends the encoding, and only the zero record has no bytes. Reading gives
the record back, from its encoding alone and from the front of any bytes that start with it, so that
no other record shares the encoding. Readers take no length that is wider than a word of 64 bits,
and no buffer is longer than such a word counts. -/
theorem wire_round_trip {s : Schema} (known : s ∈ Catalog.all) (r : s.Record) :
    (∀ buffer, s.encodeOnto buffer r = buffer ++ s.encode r) ∧
    (s.encode r = [] ↔ r = s.zero) ∧
    ((s.encode r).length < 1 <<< 64 →
      s.decode (s.encode r) none = .ok r ∧
      (∀ rest, s.decode (s.encode r ++ rest) (some (s.encode r).length) = .ok r) ∧
      ∀ other, s.encode other = s.encode r → other = r) := by
  refine ⟨fun buffer => s.encodeOnto_eq buffer r, encode_eq_nil_iff, fun bound => ?_⟩
  have parsed (r : s.Record) (bound : (s.encode r).length < 1 <<< 64) :
      s.parse (s.encode r) = .ok r :=
    parse_encode (Catalog.wellFormed known) r bound
  refine ⟨?_, ?_, ?_⟩
  · rw [decode, parsed r bound]
    rfl
  · intro rest
    have enough : ¬ (s.encode r ++ rest).length < (s.encode r).length := by simp
    rw [decode]
    simp only [if_neg enough, List.take_left, parsed r bound]
    rfl
  · intro other same
    have back := parsed other (same ▸ bound)
    rw [same, parsed r bound] at back
    exact (Except.ok.inj back).symm

def negativeAmounts : BtcForkTxInput where
  amount := -1
  unspents := [{}, { vout := -1, address := "€" }]
  changeIdx := 4294967295

theorem wire_round_trip_negativeAmounts :
    Message.schemaOf BtcForkTxInput ∈ Catalog.all ∧
    (Message.encode negativeAmounts).length < 1 <<< 64 ∧
    ∀ rest, (Message.schemaOf BtcForkTxInput).decode (Message.encode negativeAmounts ++ rest)
      (some (Message.encode negativeAmounts).length) = .ok (Message.toRecord negativeAmounts) := by
  have known : Message.schemaOf BtcForkTxInput ∈ Catalog.all := by decide +kernel
  have bound : (Message.encode negativeAmounts).length < 1 <<< 64 := by decide +kernel
  obtain ⟨_, _, read⟩ := wire_round_trip known (Message.toRecord negativeAmounts)
  exact ⟨known, bound, (read bound).2.1⟩

end Schema

theorem Message.parse_encode {α : Type} [Message α] (known : schemaOf α ∈ Catalog.all) (a : α)
    (bound : (encode a).length < 1 <<< 64) : parse (encode a) = .ok a := by
  have read := (schemaOf α).parse_encode (Catalog.wellFormed known) (toRecord a) bound
  rw [parse, encode, read, Except.map_ok, ofRecord_toRecord]

end WalletBridge
