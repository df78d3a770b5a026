import WalletBridge.Proofs.Schema.WireRoundTrip

namespace WalletBridge

open Wire

namespace Fields

/-- The encoded fields of a message. Every item of a repeated field is one by itself. -/
def pieces : (fs : Fields) → fs.Record → List Bytes
  | .nil, _ => []
  | .scalar info kind rest, (v, r) =>
    (if v = kind.zero then [] else [kind.encode info.tag v]) ++ rest.pieces r
  | .message info _ body rest, (m, r) =>
    (m.toList.map fun m => encodeNested info.tag (body.encode m)) ++ rest.pieces r
  | .repeated info _ body rest, (ms, r) =>
    (ms.map fun m => encodeNested info.tag (body.encode m)) ++ rest.pieces r

def keep : (n : Nat) → (fs : Fields) → fs.Record → fs.Record
  | _, .nil, _ => ()
  | n, .scalar _ kind rest, (v, r) =>
    (if n = 0 then kind.zero else v, rest.keep (n - if v = kind.zero then 0 else 1) r)
  | n, .message _ _ _ rest, (m, r) => (if n = 0 then none else m, rest.keep (n - m.toList.length) r)
  | n, .repeated _ _ _ rest, (ms, r) => (ms.take n, rest.keep (n - ms.length) r)

theorem flatten_pieces (fs : Fields) (r : fs.Record) : (fs.pieces r).flatten = fs.encode r := by
  induction fs with
  | nil => rfl
  | scalar info kind rest ih =>
    obtain ⟨v, r⟩ := r
    rw [pieces, encode, List.flatten_append, ih]
    by_cases isZero : v = kind.zero
    · rw [if_pos isZero, isZero, Scalar.encode_zero]
      rfl
    · rw [if_neg isZero, List.flatten_singleton]
  | message info name body rest _ ih =>
    obtain ⟨m, r⟩ := r
    rw [pieces, encode, List.flatten_append, ih]
    cases m <;> simp
  | repeated info name body rest _ ih =>
    obtain ⟨ms, r⟩ := r
    rw [pieces, encode, List.flatten_append, ih, List.flatMap_def]

theorem pieces_keep (n : Nat) (fs : Fields) (r : fs.Record) :
    fs.pieces (fs.keep n r) = (fs.pieces r).take n := by
  induction fs generalizing n with
  | nil => simp [pieces]
  | scalar info kind rest ih =>
    obtain ⟨v, r⟩ := r
    simp only [keep, pieces, ih, List.take_append]
    by_cases isZero : v = kind.zero
    · simp [isZero]
    · cases n <;> simp [isZero]
  | message info name body rest _ ih =>
    obtain ⟨m, r⟩ := r
    simp only [keep, pieces, ih, List.take_append]
    cases n <;> cases m <;> simp
  | repeated info name body rest _ ih =>
    obtain ⟨ms, r⟩ := r
    simp only [keep, pieces, ih, List.take_append, List.map_take, List.length_map]

def IsField (bs : Bytes) : Prop :=
  ∃ head key value, Key.Spells head key ∧ IsValue 1 key value ∧ bs = head ++ value

theorem isField_nested {tag : Nat} {body : Bytes} (positive : 0 < tag) (small : tag < 1 <<< 29)
    (bound : (encodeNested tag body).length < 1 <<< 64) : IsField (encodeNested tag body) := by
  have shorter := length_encodeNested tag body
  have keyed := Key.spells_write ⟨tag, .lengthDelimited⟩ positive small
  have valued : IsValue 1 ⟨tag, .lengthDelimited⟩ (writeDelimited body) :=
    ⟨body, delimits_writeDelimited body (by omega)⟩
  exact ⟨_, _, _, keyed, valued, rfl⟩

theorem isField_scalar {kind : Scalar} {tag : Nat} {v : kind.Value} (positive : 0 < tag)
    (small : tag < 1 <<< 29) (nonzero : v ≠ kind.zero)
    (bound : (kind.encode tag v).length < 1 <<< 64) : IsField (kind.encode tag v) := by
  rw [Scalar.encode_of_ne_zero tag nonzero] at bound ⊢
  rw [List.length_append] at bound
  have keyed := Key.spells_write ⟨tag, kind.wireType⟩ positive small
  have decoded := kind.decode_payload v [] (by omega)
  rw [List.append_nil] at decoded
  exact ⟨_, _, _, keyed, Scalar.isValue_of_decode decoded, rfl⟩

theorem isField_pieces {fs : Fields} (wf : fs.WellFormed) {r : fs.Record}
    (bound : ∀ p ∈ fs.pieces r, p.length < 1 <<< 64) : ∀ p ∈ fs.pieces r, IsField p := by
  intro p member
  have short := bound p member
  induction fs with
  | nil => cases member
  | scalar info kind rest ih =>
    obtain ⟨v, r⟩ := r
    obtain ⟨fresh, wf⟩ := wf
    rcases List.mem_append.mp member with first | member
    · split at first
      · cases first
      · rename_i nonzero
        rw [List.mem_singleton] at first
        subst first
        exact isField_scalar fresh.tag_pos fresh.tag_lt nonzero short
    · exact ih wf (fun p member => bound p (List.mem_append_right _ member)) member
  | message info name body rest _ ih | repeated info name body rest _ ih =>
    obtain ⟨_, r⟩ := r
    obtain ⟨fresh, _, wf⟩ := wf
    rcases List.mem_append.mp member with first | member
    · obtain ⟨m, _, rfl⟩ := List.mem_map.mp first
      exact isField_nested fresh.tag_pos fresh.tag_lt short
    · exact ih wf (fun p member => bound p (List.mem_append_right _ member)) member

/-- Fields at the front of others are some of these, and none is cut. -/
theorem boundary_of_parses {owner : String} {fs : Fields} {budget : Nat} {r r' : fs.Record}
    {front later : Bytes} {ps : List Bytes} (fields : ∀ p ∈ ps, IsField p)
    (split : front ++ later = ps.flatten) (parses : Parses (fs.mergeField owner budget) r front r') :
    ∃ i, front = (ps.take i).flatten := by
  induction parses generalizing ps with
  | done r => exact ⟨0, rfl⟩
  | @field r next r' head value rest key keyed merged _ ih =>
    obtain ⟨more, valued⟩ := isValue_of_mergeField merged
    cases ps with
    | nil =>
      have empty := (List.append_eq_nil_iff.mp split).1
      exact absurd (List.append_eq_nil_iff.mp empty).1 keyed.ne_nil
    | cons p ps =>
      obtain ⟨head', key', value', keyed', valued', rfl⟩ := fields p (List.mem_cons_self ..)
      -- Whatever was read here first is the first of the encoded fields.
      have same : head ++ (value ++ (rest ++ later)) = head' ++ (value' ++ ps.flatten) := by
        simpa only [List.flatten_cons, List.append_assoc] using split
      obtain ⟨rfl, rfl, tail⟩ := field_unique keyed valued keyed' valued' same
      rw [tail] at same
      obtain rfl := List.append_cancel_right same
      obtain ⟨i, rfl⟩ := ih (fun p member => fields p (List.mem_cons_of_mem _ member)) tail
      exact ⟨i + 1, by simp⟩

end Fields

namespace Schema

variable {s : Schema} {r : s.Record}

theorem take_encode (i : Nat) :
    (s.encode r).take ((s.fields.pieces r).take i).flatten.length = s.encode (s.fields.keep i r) := by
  have front : ((s.fields.pieces r).take i).flatten = s.encode (s.fields.keep i r) := by
    rw [← s.fields.pieces_keep i r, Fields.flatten_pieces]
    rfl
  have whole : s.encode r =
      ((s.fields.pieces r).take i).flatten ++ ((s.fields.pieces r).drop i).flatten := by
    rw [← List.flatten_append, List.take_append_drop, Fields.flatten_pieces]
    rfl
  rw [whole, List.take_left, front]

theorem parse_boundary (wf : s.WellFormed) (bound : (s.encode r).length < 1 <<< 64) (i : Nat) :
    s.parse ((s.encode r).take ((s.fields.pieces r).take i).flatten.length) =
      .ok (s.fields.keep i r) := by
  have shorter := List.length_take_le' ((s.fields.pieces r).take i).flatten.length (s.encode r)
  rw [take_encode] at shorter ⊢
  exact parse_encode wf _ (Nat.lt_of_le_of_lt shorter bound)

theorem boundary_of_parse (wf : s.WellFormed) (bound : (s.encode r).length < 1 <<< 64) {k : Nat}
    (short : k ≤ (s.encode r).length) {r' : s.Record}
    (parsed : s.parse ((s.encode r).take k) = .ok r') :
    ∃ i, k = ((s.fields.pieces r).take i).flatten.length := by
  have whole : (s.fields.pieces r).flatten = s.encode r := s.fields.flatten_pieces r
  have fields : ∀ p ∈ s.fields.pieces r, Fields.IsField p := by
    refine Fields.isField_pieces wf.fields fun p member => Nat.lt_of_le_of_lt ?_ bound
    rw [← whole]
    exact (List.sublist_flatten_of_mem member).length_le
  have split : (s.encode r).take k ++ (s.encode r).drop k = (s.fields.pieces r).flatten := by
    rw [List.take_append_drop, whole]
  obtain ⟨i, front⟩ := Fields.boundary_of_parses fields split (parse_eq_ok_iff.mp parsed)
  refine ⟨i, ?_⟩
  rw [← front, List.length_take_of_le short]

/-- Nothing is left behind a message that lies in the front of its encoding with a length. -/
theorem complete_of_decodeDelimited (bound : (s.encode r).length < 1 <<< 64) {front later rest : Bytes}
    {r' : s.Record} (split : front ++ later = s.encodeDelimited r)
    (decoded : s.decodeDelimited front = .ok (r', rest)) : later = [] := by
  obtain ⟨taken, body, delimits, rfl, _⟩ := decodeDelimited_eq_ok_iff.mp decoded
  have read := readDelimited_writeDelimited (s.encode r) [] bound
  rw [List.append_nil] at read
  have again : readDelimited (s.encodeDelimited r) = .ok (body, rest ++ later) :=
    readDelimited_eq_ok_iff.mpr ⟨taken, delimits, by rw [← split, List.append_assoc]⟩
  have same := (Prod.mk.inj (Except.ok.inj (again.symm.trans read))).2
  exact (List.append_eq_nil_iff.mp same).2

/-- A cut of an encoding is noticed unless it lies between two fields, and then the message has just the
fields in front of it. A cut behind a length is always noticed. -/
theorem decode_truncated (known : s ∈ Catalog.all) (bound : (s.encode r).length < 1 <<< 64) :
    (s.fields.pieces r).flatten = s.encode r ∧
    (∀ k < (s.encode r).length,
      (∀ i, k = ((s.fields.pieces r).take i).flatten.length →
        s.decode (s.encode r) (some k) = .ok (s.fields.keep i r)) ∧
      ((∀ i, k ≠ ((s.fields.pieces r).take i).flatten.length) →
        ∃ e, s.decode (s.encode r) (some k) = .error (.decode e))) ∧
    ∀ k < (s.encodeDelimited r).length,
      ∃ e, s.decodeDelimited ((s.encodeDelimited r).take k) = .error (.decode e) := by
  have wf := Catalog.wellFormed known
  refine ⟨s.fields.flatten_pieces r, ?_, ?_⟩
  · intro k short
    have enough : ¬ (s.encode r).length < k := Nat.not_lt.mpr (Nat.le_of_lt short)
    simp only [decode, if_neg enough]
    constructor
    · rintro i rfl
      rw [parse_boundary wf bound]
      rfl
    · intro inside
      cases parsed : s.parse ((s.encode r).take k) with
      | error e => exact ⟨e, rfl⟩
      | ok r' =>
        obtain ⟨i, boundary⟩ := boundary_of_parse wf bound (Nat.le_of_lt short) parsed
        exact absurd boundary (inside i)
  · intro k short
    rw [decodeDelimited]
    cases parsed : s.parseDelimited ((s.encodeDelimited r).take k) with
    | error e => exact ⟨e, rfl⟩
    | ok out =>
      have decoded : s.decodeDelimited ((s.encodeDelimited r).take k) = .ok out := by
        rw [decodeDelimited, parsed]
        rfl
      have rest := complete_of_decodeDelimited bound (List.take_append_drop k _) decoded
      rw [List.drop_eq_nil_iff] at rest
      omega

/-- The amount takes eleven bytes and the first output two. -/
theorem decode_truncated_negativeAmounts :
    (Message.encode negativeAmounts).length < 1 <<< 64 ∧
    (Message.schemaOf BtcForkTxInput).decode (Message.encode negativeAmounts) (some 13) =
      .ok (Message.toRecord { amount := -1, unspents := [{}] : BtcForkTxInput }) ∧
    (∃ e, (Message.schemaOf BtcForkTxInput).decode (Message.encode negativeAmounts) (some 14) =
      .error (.decode e)) ∧
    ∃ e, (Message.schemaOf BtcForkTxInput).decodeDelimited
      (((Message.schemaOf BtcForkTxInput).encodeDelimited (Message.toRecord negativeAmounts)).take 14) =
        .error (.decode e) := by
  have known : Message.schemaOf BtcForkTxInput ∈ Catalog.all := by decide +kernel
  have bound : (Message.encode negativeAmounts).length < 1 <<< 64 := by decide +kernel
  obtain ⟨_, cut, delimited⟩ := decode_truncated (r := Message.toRecord negativeAmounts) known bound
  refine ⟨bound, (cut 13 (by decide +kernel)).1 2 (by decide +kernel), ?_, delimited 14 (by decide +kernel)⟩
  refine (cut 14 (by decide +kernel)).2 fun i => ?_
  have pieces : ((Message.schemaOf BtcForkTxInput).fields.pieces (Message.toRecord negativeAmounts)).map
      List.length = [11, 2, 18, 6] := by decide +kernel
  rw [List.length_flatten, List.map_take, pieces]
  rcases i with _ | _ | _ | i
  · decide
  · decide
  · decide
  · simp only [List.take_succ_cons, List.sum_cons]
    omega

end Schema

end WalletBridge
