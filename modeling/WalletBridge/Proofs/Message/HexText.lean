import WalletBridge.Payload
import WalletBridge.Proofs.Text.Hex

namespace WalletBridge

theorem TronMessageInput.messageBytes_of_decodeAuto {hex s : String} (header header' : Bool)
    (decoded : Hex.decodeAuto hex = .ok (Utf8.encode s)) :
    messageBytes ⟨hex, true, header⟩ = messageBytes ⟨s, false, header'⟩ := by
  simp only [messageBytes, if_true, decoded, Bool.false_eq_true, if_false]

namespace Hex

/-- Text is read if it consists of digits, two for each byte, and it is then how the bytes are written
but for the case of its digits. One marker in front is passed over, and a second one is no digit; a
single zero could be half of a marker. All that is written is read back, in messages to sign too. -/
theorem text_exact (s : String) :
    (∀ b, decode s = .ok b ↔ IsText s.toList ∧ encode b = s.toLower) ∧
    (IsText s.toList → ∃ b, decode s = .ok b) ∧
    (¬ IsText s.toList → decode s = .error .malformed) ∧
    (∀ mark ∈ markers, decodeAuto (mark ++ s) = decode s ∧
      ∀ other ∈ markers, decodeAuto (other ++ (mark ++ s)) = .error .malformed) ∧
    ((∀ mark ∈ markers, ¬ mark.toList <+: s.toList) →
      decodeAuto s = if s = "0" then .error .loneZero else decode s) ∧
    (∀ b, decode s = .ok b → decodeAuto s = .ok b) ∧
    (∀ b, decode (encode b) = .ok b ∧ decodeAuto (encode b) = .ok b ∧
      decodeAuto (encodeMarked b) = .ok b) ∧
    ∀ header header' hex, hex = encode (Utf8.encode s) ∨ hex = encodeMarked (Utf8.encode s) →
      TronMessageInput.messageBytes ⟨hex, true, header⟩ =
        TronMessageInput.messageBytes ⟨s, false, header'⟩ := by
  refine ⟨fun b => decode_eq_ok_iff_written, exists_decode_iff.mpr, decode_of_not_isText, ?_, ?_,
    fun b => decodeAuto_of_decode,
    fun b => ⟨decode_encode b, decodeAuto_encode b, decodeAuto_encodeMarked b⟩, ?_⟩
  · intro mark known
    refine ⟨decodeAuto_marker known s, fun other other_known => ?_⟩
    have garbled : ¬ IsText (mark ++ s).toList := by
      rw [String.toList_append]
      exact not_isText_marker known s.toList
    rw [decodeAuto_marker other_known, decode_of_not_isText garbled]
  · intro unmarked
    split
    · rename_i zero
      rw [zero]
      rfl
    · rename_i nonzero
      exact decodeAuto_of_unmarked unmarked nonzero
  · intro header header' hex written
    apply TronMessageInput.messageBytes_of_decodeAuto
    rcases written with rfl | rfl
    · exact decodeAuto_encode _
    · exact decodeAuto_encodeMarked _

theorem text_exact_mixedCase :
    IsText "0AfF".toList ∧ decode "0AfF" = .ok [0x0a, 0xff] ∧ "0X" ∈ markers ∧
    decodeAuto "0X0AfF" = .ok [0x0a, 0xff] ∧ decodeAuto "0X0X0AfF" = .error .malformed ∧
    (∀ mark ∈ markers, ¬ mark.toList <+: "0AfF".toList) ∧ decodeAuto "0AfF" = .ok [0x0a, 0xff] ∧
    ¬ IsText "é0".toList ∧ decode "é0" = .error .malformed ∧
    TronMessageInput.messageBytes ⟨"0xc3a930", true, true⟩ =
      TronMessageInput.messageBytes ⟨"é0", false, false⟩ := by
  have spelled : IsText "0AfF".toList := by decide
  have written : encode [0x0a, 0xff] = "0AfF".toLower := by decide +kernel
  have known : "0X" ∈ markers := by decide
  have unmarked : ∀ mark ∈ markers, ¬ mark.toList <+: "0AfF".toList := by decide
  have garbled : ¬ IsText "é0".toList := by decide
  have hex : "0xc3a930" = encodeMarked (Utf8.encode "é0") := by decide +kernel
  obtain ⟨exact_bytes, _, _, marked, plain, _, _, _⟩ := text_exact "0AfF"
  obtain ⟨_, _, refused, _, _, _, _, messages⟩ := text_exact "é0"
  have read := (exact_bytes [0x0a, 0xff]).mpr ⟨spelled, written⟩
  obtain ⟨once, twice⟩ := marked "0X" known
  exact ⟨spelled, read, known, once.trans read, twice "0X" known, unmarked,
    (plain unmarked).trans ((if_neg (by decide)).trans read), garbled, refused garbled,
    messages true false _ (.inr hex)⟩

end Hex

end WalletBridge
