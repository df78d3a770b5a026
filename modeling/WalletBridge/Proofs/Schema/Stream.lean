import WalletBridge.Schema.Stream
import WalletBridge.Proofs.Schema.WireRoundTrip

namespace WalletBridge

namespace Schema

theorem encodeDelimitedOnto_eq (s : Schema) (buffer : Bytes) (r : s.Record) :
    s.encodeDelimitedOnto buffer r = buffer ++ s.encodeDelimited r := by
  rw [encodeDelimitedOnto, Fields.writeOnto_eq, encodeDelimited, Wire.writeDelimited,
    List.append_assoc]
  rfl

/-- The fields behind a length have one level of nesting less than those of a whole buffer. -/
theorem decodeDelimited_encodeDelimited {s : Schema} (wf : s.WellFormed) (r : s.Record)
    (bound : (s.encode r).length < 1 <<< 64) (rest : Bytes) :
    s.decodeDelimited (s.encodeDelimited r ++ rest) = .ok (r, rest) := by
  have deep : s.fields.depth ≤ 99 := Nat.le_of_lt_succ wf.depth_lt
  have parses := (Fields.padded_encode s.fields.tags deep r).parses s.name.ownName wf.fields bound
  exact decodeDelimited_eq_ok_iff.mpr
    ⟨_, _, Wire.delimits_writeDelimited _ bound, rfl, parses⟩

theorem decodeStream_cons {p : Parcel} (wf : p.schema.WellFormed)
    (bound : (p.schema.encode p.record).length < 1 <<< 64) (later : List Schema) (bs : Bytes) :
    decodeStream (p.schema :: later) (p.encode ++ bs) =
      (decodeStream later bs).map ((p, bs) :: ·) := by
  simp only [decodeStream, Parcel.encode, decodeDelimited_encodeDelimited wf p.record bound bs,
    Except.ok_bind]
  cases decodeStream later bs <;> rfl

/-- Reading a stream, message by message and each with its own schema, gives the messages in order. Each
read leaves the later messages and what follows the stream, whatever that is. Writing a message behind
its length onto a buffer appends just the bytes that it has by itself. Readers take no length that is
wider than a word of 64 bits, and no buffer is longer than such a word counts. -/
theorem stream_round_trip {ps : List Parcel} (known : ∀ p ∈ ps, p.schema ∈ Catalog.all)
    (bound : ∀ p ∈ ps, (p.schema.encode p.record).length < 1 <<< 64) (rest : Bytes) :
    (∃ read, decodeStream (ps.map Parcel.schema) (Parcel.stream ps ++ rest) = .ok read ∧
      read.map Prod.fst = ps ∧
      ∀ i left, (read.map Prod.snd)[i]? = some left →
        left = Parcel.stream (ps.drop (i + 1)) ++ rest) ∧
    ∀ (s : Schema) (buffer : Bytes) (r : s.Record),
      s.encodeDelimitedOnto buffer r = buffer ++ s.encodeDelimited r := by
  refine ⟨?_, encodeDelimitedOnto_eq⟩
  induction ps with
  | nil => exact ⟨[], rfl, rfl, nofun⟩
  | cons p ps ih =>
    have wf := Catalog.wellFormed (known p (List.mem_cons_self ..))
    obtain ⟨read, decoded, messages, lefts⟩ :=
      ih (fun q member => known q (List.mem_cons_of_mem _ member))
        (fun q member => bound q (List.mem_cons_of_mem _ member))
    refine ⟨(p, Parcel.stream ps ++ rest) :: read, ?_, congrArg (List.cons p) messages, ?_⟩
    · rw [Parcel.stream, List.flatMap_cons, List.append_assoc, List.map_cons,
        decodeStream_cons wf (bound p (List.mem_cons_self ..))]
      exact congrArg (Except.map _) decoded
    · intro i left found
      cases i with
      | zero => exact (Option.some.inj found).symm
      | succ i => exact lefts i left found

def mixedParcels : List Parcel :=
  [⟨Message.schemaOf Response, Message.toRecord ({} : Response)⟩,
   ⟨Message.schemaOf BtcForkTxInput, Message.toRecord negativeAmounts⟩,
   ⟨Message.schemaOf Any, Message.toRecord ({ typeUrl := "x", value := [0x0a, 0xff] } : Any)⟩]

theorem stream_round_trip_mixedParcels :
    (∀ p ∈ mixedParcels, p.schema ∈ Catalog.all) ∧
    (∀ p ∈ mixedParcels, (p.schema.encode p.record).length < 1 <<< 64) ∧
    ∃ read, decodeStream (mixedParcels.map Parcel.schema)
        (Parcel.stream mixedParcels ++ [0x12, 0x05]) = .ok read ∧
      read.map Prod.fst = mixedParcels ∧
      ∀ i left, (read.map Prod.snd)[i]? = some left →
        left = Parcel.stream (mixedParcels.drop (i + 1)) ++ [0x12, 0x05] := by
  have known : ∀ p ∈ mixedParcels, p.schema ∈ Catalog.all := by decide +kernel
  have bound : ∀ p ∈ mixedParcels, (p.schema.encode p.record).length < 1 <<< 64 := by
    decide +kernel
  obtain ⟨reads, _⟩ := stream_round_trip known bound [0x12, 0x05]
  exact ⟨known, bound, reads⟩

end Schema

end WalletBridge
