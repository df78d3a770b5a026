import Mathlib.Data.List.Infix
import Mathlib.Tactic.SplitIfs
import WalletBridge.Text.Base64

namespace WalletBridge.Base64

theorem value?_symbol {n : Nat} (bound : n < 64) : value? (symbol n) = some n := by
  have every : ∀ n : Fin 64, value? (symbol n) = some n.val := by decide
  exact every ⟨n, bound⟩

theorem symbol_ne_padding {n : Nat} (bound : n < 64) : symbol n ≠ '=' := by
  intro same
  have value := value?_symbol bound
  rw [same] at value
  cases value

theorem toNat_lt_of_value? {c : Char} {n : Nat} (read : value? c = some n) : c.toNat < 128 := by
  have at_most {a : Char} (small : a.toNat < 128) (le : c ≤ a) : c.toNat < 128 :=
    Nat.lt_of_le_of_lt le small
  unfold value? at read
  split_ifs at read with upper lower digit plus slash
  · exact at_most (by decide) upper.2
  · exact at_most (by decide) lower.2
  · exact at_most (by decide) digit.2
  · exact plus ▸ by decide
  · exact slash ▸ by decide

theorem symbol_of_value? {c : Char} {n : Nat} (read : value? c = some n) :
    n < 64 ∧ symbol n = c := by
  have every : ∀ k : Fin 128,
      (value? (Char.ofNat k)).all fun n => decide (n < 64 ∧ symbol n = Char.ofNat k) := by
    decide +kernel
  have this_one := every ⟨c.toNat, toNat_lt_of_value? read⟩
  simpa [Char.ofNat_toNat, read] using this_one

theorem symbols_one {n : Nat} (bound : n < 4096) (unused : n % 16 = 0) :
    symbols [UInt8.ofNat (n / 16)] = [symbol (n / 64), symbol (n % 64), '=', '='] := by
  have whole : (UInt8.ofNat (n / 16)).toNat * 16 = n := by
    simp only [UInt8.toNat_ofNat']
    omega
  rw [symbols, whole]

theorem symbols_two {n : Nat} (bound : n < 262144) (unused : n % 4 = 0) :
    symbols [UInt8.ofNat (n / 1024), UInt8.ofNat (n / 4 % 256)] =
      [symbol (n / 4096), symbol (n / 64 % 64), symbol (n % 64), '='] := by
  have whole :
      ((UInt8.ofNat (n / 1024)).toNat * 256 + (UInt8.ofNat (n / 4 % 256)).toNat) * 4 = n := by
    simp only [UInt8.toNat_ofNat']
    omega
  rw [symbols, whole]

theorem symbols_three {n : Nat} (bound : n < 16777216) (rest : Bytes) :
    symbols (UInt8.ofNat (n / 65536) :: UInt8.ofNat (n / 256 % 256) :: UInt8.ofNat (n % 256) :: rest) =
      symbol (n / 262144) :: symbol (n / 4096 % 64) :: symbol (n / 64 % 64) :: symbol (n % 64) ::
        symbols rest := by
  have whole : ((UInt8.ofNat (n / 65536)).toNat * 256 + (UInt8.ofNat (n / 256 % 256)).toNat) * 256 +
      (UInt8.ofNat (n % 256)).toNat = n := by
    simp only [UInt8.toNat_ofNat']
    omega
  rw [symbols, whole]

theorem symbols_of_lastOne? {a b : Char} {x : Bytes} (read : lastOne? a b = some x) :
    symbols x = [a, b, '=', '='] := by
  unfold lastOne? at read
  split at read
  · rename_i m n first second
    obtain ⟨_, rfl⟩ := symbol_of_value? first
    obtain ⟨_, rfl⟩ := symbol_of_value? second
    split_ifs at read with unused
    cases read
    have upper : (m * 64 + n) / 64 = m := by omega
    have lower : (m * 64 + n) % 64 = n := by omega
    rw [symbols_one (by omega) (by omega), upper, lower]
  · cases read

theorem symbols_of_lastTwo? {a b c : Char} {x : Bytes} (read : lastTwo? a b c = some x) :
    symbols x = [a, b, c, '='] := by
  unfold lastTwo? at read
  split at read
  · rename_i k m n first second third
    obtain ⟨_, rfl⟩ := symbol_of_value? first
    obtain ⟨_, rfl⟩ := symbol_of_value? second
    obtain ⟨_, rfl⟩ := symbol_of_value? third
    dsimp only at read
    split_ifs at read with unused
    cases read
    have upper : ((k * 64 + m) * 64 + n) / 4096 = k := by omega
    have middle : ((k * 64 + m) * 64 + n) / 64 % 64 = m := by omega
    have lower : ((k * 64 + m) * 64 + n) % 64 = n := by omega
    rw [symbols_two (by omega) (by omega), upper, middle, lower]
  · cases read

/-- The bytes are written so, apart from padding that is left off. -/
def Spells (cs : List Char) (b : Bytes) : Prop :=
  ∃ n, symbols b = cs ++ List.replicate n '='

theorem Spells.quad {cs : List Char} {b : Bytes} (spells : Spells cs b) {x y z w : Nat} (hx : x < 64)
    (hy : y < 64) (hz : z < 64) (hw : w < 64) :
    let n := ((x * 64 + y) * 64 + z) * 64 + w
    Spells (symbol x :: symbol y :: symbol z :: symbol w :: cs)
      (UInt8.ofNat (n / 65536) :: UInt8.ofNat (n / 256 % 256) :: UInt8.ofNat (n % 256) :: b) := by
  intro n
  obtain ⟨k, written⟩ := spells
  have first : n / 262144 = x := by omega
  have second : n / 4096 % 64 = y := by omega
  have third : n / 64 % 64 = z := by omega
  have fourth : n % 64 = w := by omega
  refine ⟨k, ?_⟩
  rw [symbols_three (by omega), first, second, third, fourth, written]
  rfl

theorem spells_of_bytes? {cs : List Char} {b : Bytes} (read : bytes? cs = some b) : Spells cs b := by
  fun_induction bytes? cs generalizing b with
  | case1 =>
    cases read
    exact ⟨0, rfl⟩
  | case2 a b => exact ⟨2, symbols_of_lastOne? read⟩
  | case3 a b => exact ⟨1, symbols_of_lastOne? read⟩
  | case4 a b => exact ⟨0, symbols_of_lastOne? read⟩
  | case5 a b c => exact ⟨1, symbols_of_lastTwo? read⟩
  | case6 a b c => exact ⟨0, symbols_of_lastTwo? read⟩
  | case7 a b c d rest _ _ x y z w fourth third second first =>
    rename_i n ih
    obtain ⟨tail, later, rfl⟩ := Option.map_eq_some_iff.mp read
    obtain ⟨hx, rfl⟩ := symbol_of_value? first
    obtain ⟨hy, rfl⟩ := symbol_of_value? second
    obtain ⟨hz, rfl⟩ := symbol_of_value? third
    obtain ⟨hw, rfl⟩ := symbol_of_value? fourth
    exact (ih later).quad hx hy hz hw
  | case8 | case9 => cases read

/-- Whatever part of the padding is left off, the text is there up to its last symbol. -/
theorem split_of_append_padding (front : List Char) {tail cs : List Char} {last : Char} {n : Nat}
    (symbol : last ≠ '=') (same : front ++ last :: tail = cs ++ List.replicate n '=') :
    ∃ rest, cs = front ++ last :: rest ∧ tail = rest ++ List.replicate n '=' := by
  have not_padding (before : List Char) : List.replicate n '=' ≠ before ++ last :: tail := by
    intro padding
    have member : last ∈ List.replicate n '=' := by simp [padding]
    exact symbol (List.eq_of_mem_replicate member)
  rcases List.append_eq_append_iff.mp same with ⟨kept, rfl, later⟩ | ⟨dropped, _, padding⟩
  · cases kept with
    | nil => exact absurd later.symm (not_padding [])
    | cons c rest =>
      rw [List.cons_append, List.cons.injEq] at later
      obtain ⟨rfl, later⟩ := later
      exact ⟨rest, rfl, later⟩
  · exact absurd padding (not_padding dropped)

theorem lastOne?_symbol {n : Nat} (bound : n < 4096) (unused : n % 16 = 0) :
    lastOne? (symbol (n / 64)) (symbol (n % 64)) = some [UInt8.ofNat (n / 16)] := by
  have whole : n / 64 * 64 + n % 64 = n := by omega
  have low : n % 64 % 16 = 0 := by omega
  simp only [lastOne?, value?_symbol (show n / 64 < 64 by omega),
    value?_symbol (show n % 64 < 64 by omega), whole, low, if_true]

theorem lastTwo?_symbol {n : Nat} (bound : n < 262144) (unused : n % 4 = 0) :
    lastTwo? (symbol (n / 4096)) (symbol (n / 64 % 64)) (symbol (n % 64)) =
      some [UInt8.ofNat (n / 1024), UInt8.ofNat (n / 4 % 256)] := by
  have whole : (n / 4096 * 64 + n / 64 % 64) * 64 + n % 64 = n := by omega
  have low : n % 64 % 4 = 0 := by omega
  simp only [lastTwo?, value?_symbol (show n / 4096 < 64 by omega),
    value?_symbol (show n / 64 % 64 < 64 by omega), value?_symbol (show n % 64 < 64 by omega), whole,
    low, if_true]

theorem bytes?_quad {n : Nat} (bound : n < 16777216) (rest : List Char) :
    bytes? (symbol (n / 262144) :: symbol (n / 4096 % 64) :: symbol (n / 64 % 64) ::
        symbol (n % 64) :: rest) =
      (bytes? rest).map fun tail =>
        UInt8.ofNat (n / 65536) :: UInt8.ofNat (n / 256 % 256) :: UInt8.ofNat (n % 256) :: tail := by
  have whole : ((n / 262144 * 64 + n / 4096 % 64) * 64 + n / 64 % 64) * 64 + n % 64 = n := by omega
  rw [bytes?]
  · simp only [value?_symbol (show n / 262144 < 64 by omega),
      value?_symbol (show n / 4096 % 64 < 64 by omega), value?_symbol (show n / 64 % 64 < 64 by omega),
      value?_symbol (show n % 64 < 64 by omega), whole]
  · exact fun same _ _ => symbol_ne_padding (by omega) same
  · exact fun same _ => symbol_ne_padding (by omega) same

theorem bytes?_of_symbols : ∀ {b : Bytes} {cs : List Char} {k : Nat},
    symbols b = cs ++ List.replicate k '=' → bytes? cs = some b
  | [], cs, k, written => by
    obtain ⟨rfl, _⟩ := List.append_eq_nil_iff.mp written.symm
    rfl
  | [a], cs, k, written => by
    have ha := a.toNat_lt
    have byte : a.toNat * 16 / 16 = a.toNat := by omega
    have read := lastOne?_symbol (n := a.toNat * 16) (by omega) (by omega)
    rw [byte, UInt8.ofNat_toNat] at read
    obtain ⟨rest, rfl, padding⟩ := split_of_append_padding [_] (symbol_ne_padding (by omega)) written
    have short : rest = [] ∨ rest = ['='] ∨ rest = ['=', '='] := by
      simpa using (List.mem_inits ..).mpr ⟨_, padding.symm⟩
    -- Each of the three lengths has a pattern of its own in the reader, with the same result.
    rcases short with rfl | rfl | rfl <;> exact read
  | [a, b], cs, k, written => by
    have ha := a.toNat_lt
    have hb := b.toNat_lt
    have first : (a.toNat * 256 + b.toNat) * 4 / 1024 = a.toNat := by omega
    have second : (a.toNat * 256 + b.toNat) * 4 / 4 % 256 = b.toNat := by omega
    have read := lastTwo?_symbol (n := (a.toNat * 256 + b.toNat) * 4) (by omega) (by omega)
    rw [first, second, UInt8.ofNat_toNat, UInt8.ofNat_toNat] at read
    have last : symbol ((a.toNat * 256 + b.toNat) * 4 % 64) ≠ '=' := symbol_ne_padding (by omega)
    obtain ⟨rest, rfl, padding⟩ := split_of_append_padding [_, _] last written
    have short : rest = [] ∨ rest = ['='] := by
      simpa using (List.mem_inits ..).mpr ⟨_, padding.symm⟩
    rcases short with rfl | rfl
    · change bytes? [_, _, _] = _
      rw [bytes?]
      · exact read
      · exact last
    · change bytes? [_, _, _, '='] = _
      rw [bytes?]
      · exact read
      · exact last
  | a :: b :: c :: rest, cs, k, written => by
    have ha := a.toNat_lt
    have hb := b.toNat_lt
    have hc := c.toNat_lt
    have first : ((a.toNat * 256 + b.toNat) * 256 + c.toNat) / 65536 = a.toNat := by omega
    have second : ((a.toNat * 256 + b.toNat) * 256 + c.toNat) / 256 % 256 = b.toNat := by omega
    have third : ((a.toNat * 256 + b.toNat) * 256 + c.toNat) % 256 = c.toNat := by omega
    obtain ⟨kept, rfl, later⟩ :=
      split_of_append_padding [_, _, _] (symbol_ne_padding (by omega)) written
    have read := bytes?_quad (n := (a.toNat * 256 + b.toNat) * 256 + c.toNat) (by omega) kept
    rw [first, second, third, bytes?_of_symbols later] at read
    simpa using read

theorem decode?_eq_some_iff {s : String} {b : Bytes} : decode? s = some b ↔ Spells s.toList b :=
  ⟨spells_of_bytes?, fun ⟨_, written⟩ => bytes?_of_symbols written⟩

theorem spells_encode (b : Bytes) : Spells (encode b).toList b := by
  rw [encode, String.toList_ofList]
  exact ⟨0, (List.append_nil _).symm⟩

def IsText (cs : List Char) : Prop :=
  ∃ b, Spells cs b

theorem isSome_bytes?_iff {cs : List Char} : (bytes? cs).isSome ↔ IsText cs := by
  rw [Option.isSome_iff_exists]
  constructor
  · exact fun ⟨b, read⟩ => ⟨b, spells_of_bytes? read⟩
  · exact fun ⟨b, _, written⟩ => ⟨b, bytes?_of_symbols written⟩

instance (cs : List Char) : Decidable (IsText cs) :=
  decidable_of_iff ((bytes? cs).isSome = true) isSome_bytes?_iff

theorem decode?_eq_none_iff {s : String} : decode? s = none ↔ ¬ IsText s.toList := by
  rw [← isSome_bytes?_iff, decode?, Option.not_isSome_iff_eq_none]

end WalletBridge.Base64
