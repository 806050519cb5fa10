/-
DockerClone.CLib.Printf — the numbers `printf` writes.

`renderInt` is `%d` and `%ld`: the decimal numeral, with a minus sign for
a negative value. `renderHex` is `%08x` and its like: a fixed number of
lower-case hexadecimal digits, which is what a zero-padded field of a
value that fits it prints.

Both are injective, and neither writes anything but digits and a sign;
file names, JSON keys and shell words built from them rest on that.
-/
import Mathlib.Data.List.TakeWhile
import Mathlib.Data.Nat.Digits.Defs

namespace DockerClone.CLib

/-- The decimal numeral of a natural number. -/
def renderNat (n : Nat) : List Char := Nat.toDigits 10 n

/-- `%d`, `%ld`. -/
def renderInt (n : Int) : List Char :=
  if n < 0 then '-' :: renderNat n.natAbs else renderNat n.natAbs

/-- One lower-case hexadecimal digit. -/
def hexDigit (n : Nat) : Char :=
  if n % 16 < 10 then Char.ofNat (48 + n % 16) else Char.ofNat (87 + n % 16)

/-- `%0<width>x` of a value below `16 ^ width`. -/
def renderHex : Nat → Nat → List Char
  | 0, _ => []
  | width + 1, n => renderHex width (n / 16) ++ [hexDigit n]

/-! ## Decimal -/

theorem renderNat_ne_nil (n : Nat) : renderNat n ≠ [] := Nat.toDigits_ne_nil

theorem isDigit_of_mem_renderNat {n : Nat} {c : Char} (h : c ∈ renderNat n) :
    c.isDigit = true :=
  Nat.isDigit_of_mem_toDigits (by omega) (by omega) h

/-- The numeral read back digit by digit is the number. -/
theorem ofDigitChars_renderNat (n : Nat) : Nat.ofDigitChars 10 (renderNat n) 0 = n :=
  Nat.ofDigitChars_ten_toDigits

theorem mem_renderInt {n : Int} {c : Char} (h : c ∈ renderInt n) :
    c = '-' ∨ c.isDigit = true := by
  unfold renderInt at h
  split at h
  · rcases List.mem_cons.mp h with h | h
    · exact Or.inl h
    · exact Or.inr (isDigit_of_mem_renderNat h)
  · exact Or.inr (isDigit_of_mem_renderNat h)

/-- A character that is neither a digit nor a sign is in no numeral. -/
theorem not_mem_renderInt {c : Char} (hd : c.isDigit = false) (hm : c ≠ '-') (n : Int) :
    c ∉ renderInt n := by
  intro h
  rcases mem_renderInt h with h | h
  · exact hm h
  · rw [hd] at h; simp at h

theorem length_renderNat_lt {n k : Nat} (hk : 0 < k) (h : n < 10 ^ k) :
    (renderNat n).length ≤ k :=
  (Nat.length_toDigits_le_iff (by omega) hk).mpr h

/-- The length of a 32-bit numeral. -/
theorem length_renderInt_le (n : Int32) : (renderInt n.toInt).length ≤ 11 := by
  have hlo := n.le_toInt
  have hhi := n.toInt_lt
  have habs : n.toInt.natAbs < 10 ^ 10 := by omega
  have hnat := length_renderNat_lt (by omega) habs
  unfold renderInt
  split
  · rw [List.length_cons]; omega
  · omega

/-! ## Hexadecimal -/

theorem renderHex_length : ∀ (width n : Nat), (renderHex width n).length = width
  | 0, _ => rfl
  | width + 1, n => by simp [renderHex, renderHex_length width]

/-- The sixteen digits, as one list to decide facts about them. -/
theorem hexDigit_mem (n : Nat) : hexDigit n ∈ "0123456789abcdef".toList := by
  have h : n % 16 < 16 := Nat.mod_lt _ (by omega)
  have hall : ∀ d < 16, hexDigit d ∈ "0123456789abcdef".toList := by decide
  have hmod : hexDigit (n % 16) = hexDigit n := by simp [hexDigit]
  exact hmod ▸ hall _ h

theorem mem_renderHex : ∀ {width n : Nat} {c : Char}, c ∈ renderHex width n →
    c ∈ "0123456789abcdef".toList
  | 0, _, _, h => by simp [renderHex] at h
  | width + 1, n, c, h => by
      rw [renderHex, List.mem_append] at h
      rcases h with h | h
      · exact mem_renderHex h
      · rw [List.mem_singleton.mp h]; exact hexDigit_mem n

theorem hexDigit_inj {a b : Nat} (h : hexDigit a = hexDigit b) : a % 16 = b % 16 := by
  have hall : ∀ x < 16, ∀ y < 16, hexDigit x = hexDigit y → x = y := by decide
  have hmod : ∀ n, hexDigit (n % 16) = hexDigit n := fun n => by simp [hexDigit]
  exact hall _ (Nat.mod_lt _ (by omega)) _ (Nat.mod_lt _ (by omega)) (by
    rw [hmod, hmod, h])

/-- Equal fields come from equal values, as far as the width reaches. -/
theorem renderHex_inj : ∀ {width a b : Nat}, renderHex width a = renderHex width b →
    a % 16 ^ width = b % 16 ^ width
  | 0, _, _, _ => by simp [Nat.mod_one]
  | width + 1, a, b, h => by
      rw [renderHex, renderHex] at h
      obtain ⟨hhi, hlo⟩ := List.append_inj' h rfl
      have hdiv := renderHex_inj hhi
      have hmod := hexDigit_inj (List.singleton_inj.mp hlo)
      rw [Nat.pow_succ', Nat.mod_mul, Nat.mod_mul, hdiv, hmod]

/-- The low and the high word of a clock reading give it back. -/
theorem clock_of_words {a b : Int64}
    (hlo : renderHex 8 (a.toInt % 2 ^ 32).toNat = renderHex 8 (b.toInt % 2 ^ 32).toNat)
    (hhi : renderHex 8 (a.toInt / 2 ^ 32 % 2 ^ 32).toNat
      = renderHex 8 (b.toInt / 2 ^ 32 % 2 ^ 32).toNat) : a = b := by
  have h1 := a.le_toInt
  have h2 := a.toInt_lt
  have h3 := b.le_toInt
  have h4 := b.toInt_lt
  have hlo' := renderHex_inj hlo
  have hhi' := renderHex_inj hhi
  exact Int64.toInt_inj.mp (by omega)

/-- `%08x%08x` of the low and the high word of a clock reading, behind a
word. -/
def clockText (word : List Char) (now : Int64) : List Char :=
  word ++ renderHex 8 (now.toInt % 2 ^ 32).toNat ++ renderHex 8 (now.toInt / 2 ^ 32 % 2 ^ 32).toNat

theorem clockText_inj {word : List Char} {a b : Int64} (h : clockText word a = clockText word b) :
    a = b := by
  obtain ⟨h, hhi⟩ := List.append_inj h (by simp [renderHex_length])
  exact clock_of_words (List.append_cancel_left h) hhi

theorem length_clockText (word : List Char) (now : Int64) :
    (clockText word now).length = word.length + 16 := by
  rw [clockText, List.length_append, List.length_append, renderHex_length, renderHex_length]

theorem mem_clockText {word : List Char} {now : Int64} {c : Char} (h : c ∈ clockText word now) :
    c ∈ word ∨ c ∈ "0123456789abcdef".toList := by
  rcases List.mem_append.mp h with h | h
  · rcases List.mem_append.mp h with h | h
    · exact Or.inl h
    · exact Or.inr (mem_renderHex h)
  · exact Or.inr (mem_renderHex h)

end DockerClone.CLib
