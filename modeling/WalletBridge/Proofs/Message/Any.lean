import WalletBridge.Proofs.Schema.Name
import WalletBridge.Proofs.Schema.WireRoundTrip

namespace WalletBridge

namespace Schema

theorem unpack_of_matchesUrl {s : Schema} (known : s ∈ Catalog.all) {url : String}
    (named : s.name.matchesUrl url = true) (r : s.Record) (bound : (s.encode r).length < 1 <<< 64) :
    s.unpack ⟨url, s.encode r⟩ = .ok r := by
  rw [unpack, if_pos named]
  exact decode_eq_ok_iff.mpr (parse_encode (Catalog.wellFormed known) r bound)

theorem unpack_of_ne {s t : Schema} (known : s ∈ Catalog.all) (known' : t ∈ Catalog.all) (other : t ≠ s)
    {url : String} (named : s.name.matchesUrl url = true) (value : Bytes) :
    t.unpack ⟨url, value⟩ = .error (.typeUrlMismatch t.name.typeUrl url) := by
  have refused : ¬ t.name.matchesUrl url = true := fun named' =>
    other (Catalog.eq_of_full_eq known' known (MessageName.full_eq_of_matchesUrl named' named))
  rw [unpack, if_neg refused]

/-- An address names a type just if it ends in the type's full name, by itself or behind a slash, and it
names no other type. So a message comes out of the envelope that it was packed in, and out of one under
each of its type's addresses, and every other type refuses the envelope for its address, whatever the
bytes. No buffer is longer than a word of 64 bits counts. -/
theorem url_names_one {s : Schema} (known : s ∈ Catalog.all) :
    (∀ t ∈ Catalog.all, t.name.full = t.name.package ++ "." ++ t.name.name ∧
      t.name.typeUrl = "type.googleapis.com/" ++ t.name.full) ∧
    (∀ url, s.name.matchesUrl url = true ↔
      url = s.name.full ∨ ∃ head, url = head ++ "/" ++ s.name.full) ∧
    (∀ t ∈ Catalog.all, ∀ url, s.name.matchesUrl url = true → t.name.matchesUrl url = true → t = s) ∧
    (∀ r, (s.pack r).typeUrl = "type.googleapis.com/" ++ s.name.full ∧
      ((s.encode r).length < 1 <<< 64 → s.unpack (s.pack r) = .ok r) ∧
      ∀ t ∈ Catalog.all, t ≠ s →
        t.unpack (s.pack r) = .error (.typeUrlMismatch t.name.typeUrl s.name.typeUrl)) ∧
    ∀ url, (url = s.name.typeUrl ∨ url = s.name.full ∨ ∃ head, url = head ++ "/" ++ s.name.full) →
      (∀ r, (s.encode r).length < 1 <<< 64 → s.unpack { s.pack r with typeUrl := url } = .ok r) ∧
      ∀ t ∈ Catalog.all, t ≠ s → ∀ value,
        t.unpack ⟨url, value⟩ = .error (.typeUrlMismatch t.name.typeUrl url) := by
  have named (url : String) : s.name.matchesUrl url = true ↔
      url = s.name.full ∨ ∃ head, url = head ++ "/" ++ s.name.full :=
    MessageName.matchesUrl_iff (Catalog.slash_not_mem_full known)
  have own : s.name.matchesUrl s.name.typeUrl = true :=
    (named _).mpr (.inr ⟨"type.googleapis.com", rfl⟩)
  refine ⟨fun t _ => ⟨rfl, rfl⟩, named, ?_, ?_, ?_⟩
  · intro t known' url first second
    exact Catalog.eq_of_full_eq known' known (MessageName.full_eq_of_matchesUrl second first)
  · intro r
    exact ⟨pack_typeUrl s r, unpack_of_matchesUrl known own r,
      fun t known' other => unpack_of_ne known known' other own _⟩
  · intro url address
    have matched : s.name.matchesUrl url = true := by
      rcases address with rfl | address
      · exact own
      · exact (named url).mpr address
    exact ⟨unpack_of_matchesUrl known matched,
      fun t known' other => unpack_of_ne known known' other matched⟩

/-- The parent's name stands in front of the slashes, and no bytes at all are a message of either type. -/
theorem url_names_one_derivation :
    Message.schemaOf Derivation ∈ Catalog.all ∧ Message.schemaOf HdStoreDeriveParam ∈ Catalog.all ∧
    (Message.pack ({ path := "m/0" } : Derivation)).typeUrl =
      "type.googleapis.com/api.HdStoreDeriveParam.Derivation" ∧
    (Message.schemaOf Derivation).unpack (Message.pack ({ path := "m/0" } : Derivation)) =
      .ok (Message.toRecord { path := "m/0" : Derivation }) ∧
    (Message.schemaOf HdStoreDeriveParam).unpack (Message.pack ({ path := "m/0" } : Derivation)) =
      .error (.typeUrlMismatch "type.googleapis.com/api.HdStoreDeriveParam"
        "type.googleapis.com/api.HdStoreDeriveParam.Derivation") ∧
    (Message.schemaOf Derivation).unpack
      { Message.pack ({ path := "m/0" } : Derivation) with
        typeUrl := "api.HdStoreDeriveParam//api.HdStoreDeriveParam.Derivation" } =
      .ok (Message.toRecord { path := "m/0" : Derivation }) ∧
    (Message.schemaOf HdStoreDeriveParam).unpack
        ⟨"api.HdStoreDeriveParam//api.HdStoreDeriveParam.Derivation", []⟩ =
      .error (.typeUrlMismatch "type.googleapis.com/api.HdStoreDeriveParam"
        "api.HdStoreDeriveParam//api.HdStoreDeriveParam.Derivation") := by
  have known : Message.schemaOf Derivation ∈ Catalog.all := by decide +kernel
  have parent : Message.schemaOf HdStoreDeriveParam ∈ Catalog.all := by decide +kernel
  have bound : (Message.encode ({ path := "m/0" } : Derivation)).length < 1 <<< 64 := by decide +kernel
  have different : Message.schemaOf HdStoreDeriveParam ≠ Message.schemaOf Derivation := by
    decide +kernel
  obtain ⟨_, _, _, packs, unpacks⟩ := url_names_one known
  obtain ⟨address, packed, refused⟩ := packs (Message.toRecord { path := "m/0" : Derivation })
  obtain ⟨own, others⟩ := unpacks "api.HdStoreDeriveParam//api.HdStoreDeriveParam.Derivation"
    (.inr (.inr ⟨"api.HdStoreDeriveParam/", by decide +kernel⟩))
  exact ⟨known, parent, address, packed bound, refused _ parent different, own _ bound,
    others _ parent different []⟩

end Schema

namespace Message

variable {α : Type} [Message α]

/-- Under an address of the type only the bytes matter. -/
theorem unpack_of_named {a : Any} (named : (schemaOf α).name.matchesUrl a.typeUrl = true) :
    (unpack a : Except MessageError α) = (parse a.value).mapError .decode := by
  rw [unpack, Schema.unpack, if_pos named, Schema.decode, parse]
  cases (schemaOf α).parse a.value <;> rfl

end Message

end WalletBridge
