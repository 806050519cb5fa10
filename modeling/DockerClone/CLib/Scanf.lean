/-
DockerClone.CLib.Scanf — `sscanf` for the conversions `%d` and `%[^c]`.

A format string is parsed into directives (`parseFormat`) and run over
the input (`scan`). The result is the list of conversions that were
assigned, in order; a directive that does not match ends the scan, and
what was assigned before it stays assigned. So a destination whose
conversion is not in the list keeps its old contents.

Two details of the C library carry most of what goes wrong in practice:
a white-space directive matches any amount of white space, none included,
and `%[^c]` must match at least one character, so it never assigns an
empty string (`scan_scanset_nil`).

`%d` reads a numeral of any length as `strtol` does, clamped to the range
of `long`, and stores its low 32 bits.
-/
import DockerClone.CLib.CString
import DockerClone.CLib.Printf
import Mathlib.Data.List.Infix
import Mathlib.Data.List.TakeWhile

namespace DockerClone.CLib

/-- `isspace` in the C locale. -/
def isSpace (c : Char) : Bool :=
  c == ' ' || c == '\t' || c == '\n' || c == '\x0b' || c == '\x0c' || c == '\r'

/-- A directive of a scan format. -/
inductive Directive where
  | space
  | lit (c : Char)
  /-- `%[^stop]` -/
  | scanset (stop : Char)
  /-- `%d` -/
  | int
  deriving DecidableEq, Repr

/-- The directives of a format string. -/
def parseFormat : List Char → List Directive
  | '%' :: 'd' :: rest => .int :: parseFormat rest
  | '%' :: '[' :: '^' :: c :: ']' :: rest => .scanset c :: parseFormat rest
  | c :: rest => (if isSpace c then .space else .lit c) :: parseFormat rest
  | [] => []

/-- An assigned conversion. -/
inductive Conversion where
  | text (s : List Char)
  | number (n : Int)
  deriving DecidableEq, Repr

/-- A text without its leading sign. -/
def dropSign : List Char → List Char
  | '-' :: t => t
  | '+' :: t => t
  | t => t

/-- The numeral `%d` reads: an optional sign and at least one digit. -/
def scanNumeral (s : List Char) : Option (Int × List Char) :=
  let unsigned := dropSign s
  let digits := unsigned.takeWhile Char.isDigit
  if digits = [] then none
  else
    let n : Int := Nat.ofDigitChars 10 digits 0
    some (if s.head? = some '-' then -n else n, unsigned.drop digits.length)

/-- Run the directives over the input. -/
def scan : List Directive → List Char → List Conversion
  | [], _ => []
  | .space :: ds, s => scan ds (s.dropWhile isSpace)
  | .lit c :: ds, s =>
      match s with
      | [] => []
      | d :: t => if d = c then scan ds t else []
  | .scanset stop :: ds, s =>
      let v := s.takeWhile (fun c => c != stop)
      if v = [] then [] else .text v :: scan ds (s.drop v.length)
  | .int :: ds, s =>
      match scanNumeral (s.dropWhile isSpace) with
      | none => []
      | some (n, rest) => .number n :: scan ds rest

/-- `sscanf(input, format, …)`. -/
def sscanf (input format : List Char) : List Conversion := scan (parseFormat format) input

/-- The value `%d` stores for a numeral: clamped to `long`, cut to `int`. -/
def storedInt (n : Int) : Int32 := Int32.ofInt (max (-2 ^ 63) (min n (2 ^ 63 - 1)))

/-- The string a scan with one `%[^c]` assigns, if it assigns any. -/
def scannedText (input format : List Char) : Option (List Char) :=
  match sscanf input format with
  | .text v :: _ => some v
  | _ => none

/-- `sscanf` with one `%[^c]` into an array of `size` bytes; `none` when it
writes past the end. -/
def scanWithin (size : Nat) (input format dst : List Char) : Option (List Char) :=
  match scannedText input format with
  | some v => if v.length < size then some (store dst v) else none
  | none => some dst

/-- The number a scan with one `%d` assigns, if it assigns any. -/
def scannedInt (input format : List Char) : Option Int32 :=
  match sscanf input format with
  | .number n :: _ => some (storedInt n)
  | _ => none

/-! ## Formats -/

/-- The characters of a format that stand for themselves. -/
def Plain (w : List Char) : Prop := ∀ c ∈ w, c ≠ '%' ∧ isSpace c = false

instance (w : List Char) : Decidable (Plain w) := by unfold Plain; infer_instance

theorem parseFormat_cons {c : Char} (hp : c ≠ '%') (hs : isSpace c = false)
    (rest : List Char) : parseFormat (c :: rest) = .lit c :: parseFormat rest := by
  rw [parseFormat.eq_def]
  split
  · rename_i h; exact absurd (List.cons.inj h).1 hp
  · rename_i h; exact absurd (List.cons.inj h).1 hp
  · rename_i h
    obtain ⟨rfl, rfl⟩ := List.cons.inj h
    rw [if_neg (by simp [hs])]
  · rename_i h; simp at h

theorem parseFormat_plain : ∀ {w : List Char}, Plain w → ∀ rest : List Char,
    parseFormat (w ++ rest) = w.map .lit ++ parseFormat rest
  | [], _, rest => rfl
  | c :: w, h, rest => by
      obtain ⟨hp, hs⟩ := h c (by simp)
      rw [List.cons_append, parseFormat_cons hp hs,
        parseFormat_plain (fun d hd => h d (List.mem_cons_of_mem _ hd))]
      rfl

/-! ## Running a format -/

/-- Literal characters match exactly when the input starts with them. -/
theorem scan_lits (w : List Char) (ds : List Directive) (t : List Char) :
    scan (w.map .lit ++ ds) (w ++ t) = scan ds t := by
  induction w with
  | nil => rfl
  | cons c w ih => simpa [scan] using ih

theorem scan_lits_eq_nil {w : List Char} {ds : List Directive} {s : List Char}
    (h : ¬ w <+: s) : scan (w.map .lit ++ ds) s = [] := by
  induction w generalizing s with
  | nil => exact absurd List.nil_prefix h
  | cons c w ih =>
    cases s with
    | nil => rfl
    | cons d t =>
      rw [List.map_cons, List.cons_append, scan]
      split
      · rename_i hd
        subst hd
        exact ih (fun hp => h (List.cons_prefix_cons.mpr ⟨rfl, hp⟩))
      · rfl

/-- A scan over literals that assigned something found them all. -/
theorem prefix_of_scan_lits {w : List Char} {ds : List Directive} {s : List Char}
    (h : scan (w.map .lit ++ ds) s ≠ []) : ∃ t, s = w ++ t ∧ scan ds t ≠ [] := by
  by_cases hp : w <+: s
  · obtain ⟨t, rfl⟩ := hp
    rw [scan_lits] at h
    exact ⟨t, rfl, h⟩
  · exact absurd (scan_lits_eq_nil hp) h

/-- An empty value is not assigned. -/
theorem scan_scanset_nil (stop : Char) (ds : List Directive) (t : List Char) :
    scan (.scanset stop :: ds) (stop :: t) = [] := by
  simp [scan]

/-- A non-empty value is assigned up to the stop character. -/
theorem scan_scanset {v : List Char} {stop : Char} (hne : v ≠ []) (hv : stop ∉ v)
    (ds : List Directive) (t : List Char) :
    scan (.scanset stop :: ds) (v ++ stop :: t) = .text v :: scan ds (stop :: t) := by
  have hkeep : ∀ c ∈ v, (fun c => c != stop) c = true := by
    intro c hc
    have : c ≠ stop := fun e => hv (e ▸ hc)
    simpa using this
  have htake : (v ++ stop :: t).takeWhile (fun c => c != stop) = v := by
    rw [List.takeWhile_append_of_pos hkeep]; simp
  rw [scan]
  simp only [htake, if_neg hne, List.drop_left]

section Value

variable {w : List Char} (hw : Plain w) (stop : Char) (more : List Char)

include hw

/-- A word, then a value up to a stop character: the value is what
follows the word, unless that is empty. -/
theorem scannedText_value (t : List Char) :
    scannedText (w ++ t) (w ++ '%' :: '[' :: '^' :: stop :: ']' :: more)
      = if t.takeWhile (· != stop) = [] then none else some (t.takeWhile (· != stop)) := by
  rw [scannedText, sscanf, parseFormat_plain hw, scan_lits, parseFormat, scan]
  by_cases hnil : t.takeWhile (fun c => c != stop) = []
  · simp only [if_pos hnil]
  · simp only [if_neg hnil]

/-- Without the word nothing is assigned. -/
theorem scannedText_of_not_pre {s : List Char} (h : ¬ w <+: s) :
    scannedText s (w ++ '%' :: '[' :: '^' :: stop :: ']' :: more) = none := by
  rw [scannedText, sscanf, parseFormat_plain hw, scan_lits_eq_nil h]

end Value

/-! ## Numerals -/

/-- The digits of a numeral followed by a character that is no digit. -/
theorem takeWhile_digits {ds rest : List Char} (hd : ∀ c ∈ ds, c.isDigit = true)
    (hr : ∀ c ∈ rest.head?, c.isDigit = false) :
    (ds ++ rest).takeWhile Char.isDigit = ds := by
  rw [List.takeWhile_append_of_pos hd]
  cases rest with
  | nil => simp
  | cons c t => simp [hr c (by simp)]

/-- `%d` reads back what `%d` wrote, up to the first non-digit. -/
theorem scanNumeral_renderInt (n : Int) {rest : List Char}
    (hr : ∀ c ∈ rest.head?, c.isDigit = false) :
    scanNumeral (renderInt n ++ rest) = some (n, rest) := by
  have hne := renderNat_ne_nil n.natAbs
  have hdig : ∀ c ∈ renderNat n.natAbs, c.isDigit = true :=
    fun c hc => isDigit_of_mem_renderNat hc
  have htake := takeWhile_digits hdig hr
  unfold renderInt
  split
  · -- a minus sign in front
    rename_i hneg
    simp only [scanNumeral, dropSign, List.cons_append, htake, if_neg hne, List.drop_left,
      List.head?_cons, if_true, ofDigitChars_renderNat]
    rw [show (-(n.natAbs : Int)) = n by omega]
  · -- the first character is a digit
    rename_i hneg
    obtain ⟨c, ds, hcd⟩ := List.exists_cons_of_ne_nil hne
    have hc : c.isDigit = true := hdig c (by rw [hcd]; simp)
    have hminus : c ≠ '-' := by rintro rfl; simp at hc
    have hplus : c ≠ '+' := by rintro rfl; simp at hc
    have hstart : dropSign (renderNat n.natAbs ++ rest) = renderNat n.natAbs ++ rest := by
      rw [hcd, List.cons_append, dropSign.eq_def]
      split
      · rename_i h; exact absurd (List.cons.inj h).1 hminus
      · rename_i h; exact absurd (List.cons.inj h).1 hplus
      · rfl
    have hhead : (renderNat n.natAbs ++ rest).head? ≠ some '-' := by
      rw [hcd]; simpa using hminus
    simp only [scanNumeral, hstart, htake, if_neg hne, List.drop_left, if_neg hhead,
      ofDigitChars_renderNat]
    rw [show ((n.natAbs : Int)) = n by omega]

/-- What is taken off the front is a sign or nothing. -/
theorem dropSign_spec (s : List Char) :
    ∃ sign, s = sign ++ dropSign s ∧ ∀ c ∈ sign, c = '-' ∨ c = '+' := by
  rw [dropSign.eq_def]
  split
  · exact ⟨['-'], rfl, by simp⟩
  · exact ⟨['+'], rfl, by simp⟩
  · exact ⟨[], rfl, by simp⟩

/-- The characters `%d` took: signs and digits, with a digit among them. -/
theorem inv_scanNumeral {s rest : List Char} {n : Int}
    (h : scanNumeral s = some (n, rest)) :
    ∃ num, s = num ++ rest ∧ (∀ c ∈ num, c = '-' ∨ c = '+' ∨ c.isDigit = true) ∧
      ∃ c ∈ num, c.isDigit = true := by
  rw [scanNumeral] at h
  simp only at h
  split at h
  · simp at h
  · rename_i hne
    obtain ⟨sign, hs, hsign⟩ := dropSign_spec s
    obtain ⟨t, ht⟩ := List.takeWhile_prefix Char.isDigit (l := dropSign s)
    have hrest : (dropSign s).drop ((dropSign s).takeWhile Char.isDigit).length = rest :=
      (Prod.mk.inj (Option.some.inj h)).2
    have htr : t = rest := by
      have hdrop : ((dropSign s).takeWhile Char.isDigit ++ t).drop
          ((dropSign s).takeWhile Char.isDigit).length = t := List.drop_left
      rw [ht] at hdrop
      rw [← hdrop, hrest]
    obtain ⟨c, cs, hc⟩ := List.exists_cons_of_ne_nil hne
    refine ⟨sign ++ (dropSign s).takeWhile Char.isDigit, ?_, ?_, c, ?_, ?_⟩
    · rw [List.append_assoc, ← htr, ht, ← hs]
    · intro d hd
      rcases List.mem_append.mp hd with hd | hd
      · rcases hsign d hd with h | h
        · exact Or.inl h
        · exact Or.inr (Or.inl h)
      · exact Or.inr (Or.inr (List.mem_takeWhile_imp hd))
    · rw [hc]; simp
    · exact List.mem_takeWhile_imp (p := Char.isDigit) (l := dropSign s) (by rw [hc]; simp)

/-- A 32-bit value is stored unchanged. -/
theorem storedInt_toInt (n : Int32) : storedInt n.toInt = n := by
  have hlo := n.le_toInt
  have hhi := n.toInt_lt
  have : max (-2 ^ 63) (min n.toInt (2 ^ 63 - 1)) = n.toInt := by omega
  rw [storedInt, this, Int32.ofInt_toInt]

/-- A numeral does not start with white space. -/
theorem not_isSpace_renderInt {n : Int} {c : Char} (h : c ∈ renderInt n) :
    isSpace c = false := by
  rcases mem_renderInt h with rfl | hd
  · decide
  · have hall : ∀ d : Char, isSpace d = true → d.isDigit = false := by
      intro d hd
      simp only [isSpace, Bool.or_eq_true, beq_iff_eq] at hd
      rcases hd with ((((rfl | rfl) | rfl) | rfl) | rfl) | rfl <;> decide
    cases hs : isSpace c with
    | false => rfl
    | true => rw [hall c hs] at hd; simp at hd

theorem nulFree_renderInt (n : Int) : NulFree (renderInt n) :=
  not_mem_renderInt (by decide) (by decide) n

theorem renderInt_ne_nil (n : Int) : renderInt n ≠ [] := by
  unfold renderInt
  split
  · exact List.cons_ne_nil _ _
  · exact renderNat_ne_nil _

/-- White space in front of a numeral is skipped, and nothing else. -/
theorem dropWhile_isSpace_renderInt (n : Int) {ws : List Char}
    (hws : ∀ c ∈ ws, isSpace c = true) (rest : List Char) :
    (ws ++ renderInt n ++ rest).dropWhile isSpace = renderInt n ++ rest := by
  obtain ⟨c, t, hc⟩ := List.exists_cons_of_ne_nil (renderInt_ne_nil n)
  have hspace : isSpace c = false := not_isSpace_renderInt (n := n) (by simp [hc])
  rw [List.append_assoc, List.dropWhile_append_of_pos hws, hc, List.cons_append,
    List.dropWhile_cons, if_neg (by simp [hspace])]

/-- `%d` over a rendered 32-bit value, with white space in front. -/
theorem scan_int_renderInt (n : Int32) (ds : List Directive) {ws rest : List Char}
    (hws : ∀ c ∈ ws, isSpace c = true) (hr : ∀ c ∈ rest.head?, c.isDigit = false) :
    scan (.int :: ds) (ws ++ renderInt n.toInt ++ rest) = .number n.toInt :: scan ds rest := by
  rw [scan, dropWhile_isSpace_renderInt n.toInt hws rest, scanNumeral_renderInt _ hr]

end DockerClone.CLib
