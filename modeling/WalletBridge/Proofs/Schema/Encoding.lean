import WalletBridge.Schema.Encode
import WalletBridge.Proofs.Wire.RoundTrip

namespace WalletBridge

namespace Scalar

theorem encode_zero (s : Scalar) (tag : Nat) : s.encode tag s.zero = [] := by
  simp [encode]

theorem encode_of_ne_zero {s : Scalar} {v : s.Value} (tag : Nat) (nonzero : v ≠ s.zero) :
    s.encode tag v = Wire.Key.write ⟨tag, s.wireType⟩ ++ s.payload v := by
  rw [encode, if_neg nonzero]

theorem encode_eq_nil_iff {s : Scalar} {tag : Nat} {v : s.Value} :
    s.encode tag v = [] ↔ v = s.zero := by
  constructor
  · intro empty
    by_cases nonzero : v = s.zero
    · exact nonzero
    · rw [encode_of_ne_zero tag nonzero] at empty
      exact absurd (List.append_eq_nil_iff.mp empty).1 (Wire.Key.write_ne_nil _)
  · intro isZero
    rw [isZero]
    exact encode_zero s tag

end Scalar

namespace Fields

theorem encodeNested_ne_nil (tag : Nat) (body : Bytes) : encodeNested tag body ≠ [] := by
  intro empty
  exact Wire.Key.write_ne_nil _ (List.append_eq_nil_iff.mp empty).1

theorem encodeNested_eq (tag : Nat) (body : Bytes) :
    encodeNested tag body = nestedHead tag body.length ++ body := by
  rw [encodeNested, nestedHead, Wire.writeDelimited, List.append_assoc]

theorem encode_eq_nil_iff {fs : Fields} {r : fs.Record} : fs.encode r = [] ↔ r = fs.zero := by
  induction fs with
  | nil => exact ⟨fun _ => rfl, fun _ => rfl⟩
  | scalar info kind rest ih =>
    obtain ⟨v, r⟩ := r
    rw [encode, List.append_eq_nil_iff]
    exact (and_congr Scalar.encode_eq_nil_iff ih).trans (Iff.of_eq (Prod.mk.injEq ..)).symm
  | message info name body rest _ ih =>
    obtain ⟨m, r⟩ := r
    rw [encode, List.append_eq_nil_iff]
    refine (and_congr ?_ ih).trans (Iff.of_eq (Prod.mk.injEq ..)).symm
    cases m with
    | none => simp
    | some m => simp [encodeNested_ne_nil]
  | repeated info name body rest _ ih =>
    obtain ⟨ms, r⟩ := r
    rw [encode, List.append_eq_nil_iff]
    refine (and_congr ?_ ih).trans (Iff.of_eq (Prod.mk.injEq ..)).symm
    cases ms with
    | nil => simp
    | cons m ms => simp [encodeNested_ne_nil]

theorem writeOnto_eq (fs : Fields) (buffer : Bytes) (r : fs.Record) :
    fs.writeOnto buffer r = buffer ++ fs.encode r := by
  induction fs generalizing buffer with
  | nil => exact (List.append_nil buffer).symm
  | scalar info kind rest ih =>
    obtain ⟨v, r⟩ := r
    rw [writeOnto, ih, encode, List.append_assoc]
  | message info name body rest body_ih ih =>
    obtain ⟨m, r⟩ := r
    rw [writeOnto, ih, encode, ← List.append_assoc]
    cases m with
    | none => simp
    | some m => simp [body_ih, encodeNested_eq]
  | repeated info name body rest body_ih ih =>
    obtain ⟨ms, r⟩ := r
    have nested (buffer : Bytes) (m : body.Record) :
        body.writeOnto (buffer ++ nestedHead info.tag (body.encode m).length) m =
          buffer ++ encodeNested info.tag (body.encode m) := by
      rw [body_ih, encodeNested_eq, List.append_assoc]
    simp only [writeOnto, nested]
    rw [ih, encode, List.foldl_append_eq_append, List.flatMap_def, List.append_assoc]

end Fields

namespace Schema

theorem encode_eq_nil_iff {s : Schema} {r : s.Record} : s.encode r = [] ↔ r = s.zero :=
  Fields.encode_eq_nil_iff

theorem encodeOnto_eq (s : Schema) (buffer : Bytes) (r : s.Record) :
    s.encodeOnto buffer r = buffer ++ s.encode r :=
  s.fields.writeOnto_eq buffer r

end Schema

end WalletBridge
