import WalletBridge.Api.Dispatch
import WalletBridge.Proofs.Text.LowerCase

namespace WalletBridge.Method

open LowerCase

def IsSpelling (m : Method) (s : String) : Prop :=
  List.Forall₂ IsVariant m.name.toList s.toList

theorem mem_all (m : Method) : m ∈ all := by
  cases m <;> decide

theorem isSmall_name (m : Method) : ∀ c ∈ m.name.toList, IsSmall c := by
  have every : ∀ m ∈ all, m.name.toList.all fun c => IsSmall c := by decide +kernel
  intro c member
  exact of_decide_eq_true (List.all_eq_true.mp (every m (mem_all m)) c member)

theorem name_injective {m m' : Method} (same : m.name.toList = m'.name.toList) : m = m' := by
  have every : ∀ m ∈ all, ∀ m' ∈ all, m.name.toList = m'.name.toList → m = m' := by decide +kernel
  exact every m (mem_all m) m' (mem_all m') same

theorem find?_name_eq_some_iff {text : List Char} {m : Method} :
    all.find? (·.name.toList == text) = some m ↔ m.name.toList = text := by
  constructor
  · intro found
    simpa using List.find?_some found
  · rintro rfl
    cases found : all.find? (·.name.toList == m.name.toList) with
    | none => exact absurd (beq_self_eq_true _) (List.find?_eq_none.mp found m (mem_all m))
    | some other =>
      have named : other.name.toList = m.name.toList := by simpa using List.find?_some found
      rw [name_injective named]

theorem find?_ofText_eq_some_iff {endsWord : List Char → List Char → Bool} {s : String} {m : Method} :
    all.find? (·.name.toList == ofText endsWord [] s.toList) = some m ↔ m.IsSpelling s := by
  rw [find?_name_eq_some_iff, eq_comm]
  exact ofText_eq_iff (isSmall_name m)

theorem parse?_eq_some_iff {s : String} {m : Method} : parse? s = some m ↔ m.IsSpelling s :=
  find?_ofText_eq_some_iff

theorem parse?_eq_none_iff {s : String} : parse? s = none ↔ ∀ m : Method, ¬ m.IsSpelling s := by
  simp only [Option.eq_none_iff_forall_ne_some, ne_eq, parse?_eq_some_iff]

theorem IsSpelling.congr {m : Method} {s t : String} (same : s.toLower = t.toLower)
    (spelled : m.IsSpelling s) : m.IsSpelling t :=
  isVariant_congr (isSmall_name m) (toLower_inj.mp same) spelled

theorem isSpelling_name (m : Method) : m.IsSpelling m.name :=
  List.forall₂_same.mpr fun _ _ => .inl rfl

/-- Each name is spelled by itself with any of its letters in upper case or any `k` as the Kelvin sign,
and by nothing else; a request with another text is refused as one for no method. So no text spells two
methods, the case of ASCII letters does not matter, and a method's own name spells it. Where words end
in a text does not matter for this. -/
theorem spelled_exactly (s : String) :
    (∀ m, parse? s = some m ↔ m.IsSpelling s) ∧
    (∀ param, (∀ m : Method, ¬ m.IsSpelling s) ↔
      (Action.mk s param).route = .error (.api .unsupportedMethod)) ∧
    (∀ m m' : Method, m.IsSpelling s → m'.IsSpelling s → m = m') ∧
    (∀ t : String, t.toLower = s.toLower → parse? t = parse? s) ∧
    (∀ m, parse? s = some m → parse? m.name = some m) ∧
    ∀ endsWord, all.find? (·.name.toList == ofText endsWord [] s.toList) = parse? s := by
  refine ⟨fun m => parse?_eq_some_iff, fun param => ?_, ?_, ?_, ?_, ?_⟩
  · rw [← parse?_eq_none_iff, Action.route]
    cases parse? s with
    | none => simp
    | some m => cases param <;> simp
  · intro m m' spells spells'
    exact Option.some.inj ((parse?_eq_some_iff.mpr spells).symm.trans (parse?_eq_some_iff.mpr spells'))
  · intro t same
    refine Option.ext fun m => ?_
    rw [parse?_eq_some_iff, parse?_eq_some_iff]
    exact ⟨.congr same, .congr same.symm⟩
  · intro m _
    exact parse?_eq_some_iff.mpr m.isSpelling_name
  · intro endsWord
    exact Option.ext fun m => find?_ofText_eq_some_iff.trans parse?_eq_some_iff.symm

/-- A dotted capital `İ` becomes two characters, of which the first is the letter of the name. -/
theorem spelled_exactly_kelvinSign :
    Method.getDerivedKey.IsSpelling "GET_DERIVED_\u212aey" ∧
    parse? "GET_DERIVED_\u212aey" = some .getDerivedKey ∧
    parse? (name .getDerivedKey) = some .getDerivedKey ∧
    "get_derived_\u212aEY".toLower = "GET_DERIVED_\u212aey".toLower ∧
    parse? "get_derived_\u212aEY" = some .getDerivedKey ∧
    (∀ m : Method, ¬ m.IsSpelling "\u0130nit_token_core_x") ∧
    (Action.mk "\u0130nit_token_core_x" none).route = .error (.api .unsupportedMethod) := by
  have parsed : parse? "GET_DERIVED_\u212aey" = some .getDerivedKey := by decide +kernel
  have recased : "get_derived_\u212aEY".toLower = "GET_DERIVED_\u212aey".toLower :=
    toLower_inj.mpr (by decide +kernel)
  have foreign : ∀ m : Method, ¬ m.IsSpelling "\u0130nit_token_core_x" :=
    parse?_eq_none_iff.mp (by decide +kernel)
  obtain ⟨spells, _, _, recasing, own_name, _⟩ := spelled_exactly "GET_DERIVED_\u212aey"
  obtain ⟨_, refused, _⟩ := spelled_exactly "\u0130nit_token_core_x"
  exact ⟨(spells .getDerivedKey).mp parsed, parsed, own_name .getDerivedKey parsed, recased,
    (recasing _ recased).trans parsed, foreign, (refused none).mp foreign⟩

end WalletBridge.Method
