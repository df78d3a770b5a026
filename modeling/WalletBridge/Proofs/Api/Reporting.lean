import WalletBridge.Api.Dispatch

namespace WalletBridge

inductive Failure.Reads : Failure → String → Prop
  | other {text : String} {causes : List String} : Reads (.other text causes) text
  | unsupportedMethod : Reads (.api .unsupportedMethod) "unsupported_method"
  | paramMissing : Reads (.api .paramMissing) "param_missing"
  | handlerNotRegistered {method : Method} :
      Reads (.api (.handlerNotRegistered method)) ("handler_not_registered# method: " ++ method.name)
  | malformedHex : Reads (.hex .malformed) "invalid_hex"
  | loneZero : Reads (.hex .loneZero) "invalid_hex_prefix"
  | bytes {fault : Wire.Fault} {trail : List Wire.Location} :
      Reads (.decode ⟨fault, trail⟩) ("failed to decode Protobuf message: " ++
        String.join (trail.map fun l => l.message ++ "." ++ l.field ++ ": ") ++ fault.message)
  | envelope {e : Wire.DecodeError} {text : String} (reads : Reads (.decode e) text) :
      Reads (.message (.decode e)) ("decode_failed# " ++ text)
  | length {requested available : Nat} :
      Reads (.message (.lengthOutOfRange requested available))
        ("length_out_of_range# requested: " ++ toString requested ++ ", available: " ++
          toString available)
  | typeUrl {expected actual : String} :
      Reads (.message (.typeUrlMismatch expected actual))
        ("type_url_mismatch# expected: " ++ expected ++ ", actual: " ++ actual)
  | object {path : String} {mismatch : Mismatch} :
      Reads (.message (.object ⟨path, mismatch⟩))
        ("invalid_object# " ++ (path ++ ": " ++ mismatch.message))

theorem Failure.Reads.text_eq {f : Failure} {text : String} (reads : f.Reads text) : f.text = text := by
  induction reads with
  | envelope _ ih => exact congrArg ("decode_failed# " ++ ·) ih
  | _ => rfl

theorem Failure.reads_text (f : Failure) : f.Reads f.text := by
  cases f with
  | message e =>
    cases e with
    | decode e => exact .envelope .bytes
    | lengthOutOfRange requested available => exact .length
    | typeUrlMismatch expected actual => exact .typeUrl
    | object e => exact .object
  | api e =>
    cases e with
    | unsupportedMethod => exact .unsupportedMethod
    | paramMissing => exact .paramMissing
    | handlerNotRegistered method => exact .handlerNotRegistered
  | hex e =>
    cases e with
    | malformed => exact .malformedHex
    | loneZero => exact .loneZero
  | decode e => exact .bytes
  | other text causes => exact .other

namespace Api

variable {H : Type}

/-- Nothing differs but a thread's last error, which is `error` after, and the journal. -/
structure Machine.Reports (before after : Machine H) (t : ThreadId) (error : String) : Prop where
  own : after.lastError t = some error
  others : ∀ u, u ≠ t → after.lastError u = before.lastError u
  tables : after.tables = before.tables
  config : after.config = before.config
  debug : after.debug = before.debug

namespace Machine

variable {m : Machine H} {t : ThreadId} {f : Failure} {error : String}

theorem reports_notifyFailure (reads : f.Reads error) : m.Reports (m.notifyFailure t f) t error where
  own := by rw [notifyFailure_self, reads.text_eq]
  others _ other := notifyFailure_of_ne _ _ _ other
  tables := m.notifyFailure_tables t f
  config := m.notifyFailure_config t f
  debug := m.notifyFailure_debug t f

theorem Reports.of_journal {journal : List (Event H)} {after : Machine H}
    (reports : Reports { m with journal } after t error) : m.Reports after t error :=
  ⟨reports.own, reports.others, reports.tables, reports.config, reports.debug⟩

end Machine

end Api

end WalletBridge
