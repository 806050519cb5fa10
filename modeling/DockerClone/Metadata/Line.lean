/-
DockerClone.Metadata.Line — one line of a metadata file, written and read.

The metadata writers of `core/container.c` and `core/image.c` print one
field a line, `  "key": "value",` or `  "key": 7,`. The readers take each
piece `fgets` gives them, decide the field by `strstr(line, "\"key\"")`,
and extract it with `sscanf(line, "  \"key\": \"%[^\"]\"", …)` or with
`%d`. `hasKey`, `scanText` and `scanInt` are those three steps.

The writer escapes nothing, so what a reader can be led to believe is a
question about quotes. A value without a double quote leaves a line with
four of them (two for a number), and every quoted word found in a piece
of the line lies between two consecutive ones. Sections 3 and 4 draw the
consequences:

* `hasKey_textLine`: on the whole line the keys found are the written
  key and the VALUE; the second is how a value such as `id` hides its
  own field from a reader that tests keys in a fixed order.
* `scanText_piece`, `scanInt_piece`: no piece of a line, wherever the
  buffer or a newline in the value cut it, scans as a key other than the
  written one, and no piece of a text line scans as a number.
-/
import DockerClone.CLib.CString
import DockerClone.CLib.Search
import DockerClone.CLib.Scanf
import DockerClone.CLib.Stream
import Mathlib.Data.List.DropRight

namespace DockerClone.Metadata

open DockerClone.CLib

/-! ## 1. Writing -/

/-- `fprintf(fp, "  \"key\": \"%s\",\n", value)`. -/
def textLine (key : String) (value : List Char) : List Char :=
  "  \"".toList ++ key.toList ++ "\": \"".toList ++ value ++ "\",\n".toList

/-- `fprintf(fp, "  \"key\": %d,\n", n)`; the last field of a record has
no comma, hence the parameter for what follows the numeral. -/
def intLine (key : String) (n : Int32) (tail : String) : List Char :=
  "  \"".toList ++ key.toList ++ "\": ".toList ++ renderInt n.toInt ++ tail.toList

/-! ## 2. Reading -/

/-- The word a reader looks for: the key in double quotes. -/
def quoted (key : List Char) : List Char := '"' :: key ++ ['"']

/-- `strstr(line, "\"key\"")`, as a condition. -/
def hasKey (line : List Char) (key : String) : Bool := found line (quoted key.toList)

/-- The format `  "key": "%[^"]"`. -/
def textFormat (key : String) : List Char :=
  "  \"".toList ++ key.toList ++ "\": \"%[^\"]\"".toList

/-- The format `  "key": %d`. -/
def intFormat (key : String) : List Char :=
  "  \"".toList ++ key.toList ++ "\": %d".toList

/-- `sscanf(line, "  \"key\": \"%[^\"]\"", dst)`: the array afterwards. -/
def scanText (line : List Char) (key : String) (dst : List Char) : List Char :=
  match scannedText line (textFormat key) with
  | some v => store dst v
  | none => dst

/-- `sscanf(line, "  \"key\": %d", &dst)`: the number afterwards. -/
def scanInt (line : List Char) (key : String) (dst : Int32) : Int32 :=
  (scannedInt line (intFormat key)).getD dst

/-! ### Character by character -/

theorem textLine_chars (key : String) (value : List Char) : textLine key value
    = ' ' :: ' ' :: '"' :: (key.toList ++ '"' :: ':' :: ' ' :: '"' ::
        (value ++ ['"', ',', '\n'])) := by
  unfold textLine
  simp

theorem intLine_chars (key : String) (n : Int32) (tail : String) : intLine key n tail
    = ' ' :: ' ' :: '"' :: (key.toList ++ '"' :: ':' :: ' ' ::
        (renderInt n.toInt ++ tail.toList)) := by
  unfold intLine
  simp

theorem textFormat_chars (key : String) : textFormat key
    = ' ' :: ' ' :: '"' :: (key.toList ++
        ['"', ':', ' ', '"', '%', '[', '^', '"', ']', '"']) := by
  unfold textFormat
  simp

theorem intFormat_chars (key : String) : intFormat key
    = ' ' :: ' ' :: '"' :: (key.toList ++ ['"', ':', ' ', '%', 'd']) := by
  unfold intFormat
  simp

/-! ## Keys -/

/-- Keys are words of letters and underscores. -/
def IsKey (key : String) : Prop := ∀ c ∈ key.toList, c.isAlpha = true ∨ c = '_'

instance (key : String) : Decidable (IsKey key) := by unfold IsKey; infer_instance

theorem IsKey.not_mem {key : String} (h : IsKey key) {c : Char} (ha : c.isAlpha = false)
    (hu : c ≠ '_') : c ∉ key.toList := by
  intro hc
  rcases h c hc with h | h
  · rw [ha] at h; simp at h
  · exact hu h

theorem IsKey.quote {key : String} (h : IsKey key) : '"' ∉ key.toList :=
  h.not_mem (by decide) (by decide)

theorem IsKey.plain {key : String} (h : IsKey key) : Plain key.toList := by
  intro c hc
  constructor
  · rintro rfl; exact h.not_mem (by decide) (by decide) hc
  · cases hs : isSpace c with
    | false => rfl
    | true =>
      simp only [isSpace, Bool.or_eq_true, beq_iff_eq] at hs
      rcases hs with ((((rfl | rfl) | rfl) | rfl) | rfl) | rfl <;>
        exact absurd hc (h.not_mem (by decide) (by decide))

/-! ## 3. The segments of a line between its quotes -/

/-- White space holds no quote. -/
theorem quote_not_mem_space {ws : List Char} (h : ∀ c ∈ ws, isSpace c = true) : '"' ∉ ws := by
  intro hc
  exact absurd (h _ hc) (by decide)

theorem segments_textLine {key : String} (hk : IsKey key) {value : List Char}
    (hv : '"' ∉ value) :
    (textLine key value).splitOn '"'
      = [[' ', ' '], key.toList, [':', ' '], value, [',', '\n']] := by
  have hline : textLine key value
      = [' ', ' '] ++ '"' :: (key.toList ++ '"' :: ([':', ' '] ++ '"' ::
          (value ++ '"' :: [',', '\n']))) := by
    simp [textLine_chars]
  rw [hline, splitOn_sep, splitOn_sep, splitOn_sep, splitOn_sep, splitOn_word hk.quote,
    splitOn_word hv]
  rfl

theorem segments_intLine {key : String} (hk : IsKey key) (n : Int32) {tail : String}
    (ht : '"' ∉ tail.toList) :
    (intLine key n tail).splitOn '"'
      = [[' ', ' '], key.toList, ':' :: ' ' :: renderInt n.toInt ++ tail.toList] := by
  have hline : intLine key n tail
      = [' ', ' '] ++ '"' :: (key.toList ++ '"' ::
          (':' :: ' ' :: renderInt n.toInt ++ tail.toList)) := by
    simp [intLine_chars]
  have hnum : '"' ∉ renderInt n.toInt := not_mem_renderInt (by decide) (by decide) _
  have hlast : '"' ∉ ':' :: ' ' :: renderInt n.toInt ++ tail.toList := by
    simp [hnum, ht]
  rw [hline, splitOn_sep, splitOn_sep, splitOn_word hk.quote, splitOn_word hlast]
  rfl

/-- An inner segment of a list of five, with what is behind it. -/
theorem inner_of_five {α : Type} {before after : List α} {x a b c d e : α}
    (h : [a, b, c, d, e] = before ++ x :: after) (hb : before ≠ []) (ha : after ≠ []) :
    (x = b ∧ after = [c, d, e]) ∨ (x = c ∧ after = [d, e]) ∨ (x = d ∧ after = [e]) := by
  have hlen := congrArg List.length h
  have hpos := List.length_pos_iff.mpr ha
  simp only [List.length_cons, List.length_append, List.length_nil] at hlen
  match before with
  | [] => exact absurd rfl hb
  | [_] => simp_all
  | [_, _] => simp_all
  | [_, _, _] => simp_all
  | _ :: _ :: _ :: _ :: _ => simp only [List.length_cons] at hlen; omega

/-- An inner segment of a list of three, with what is behind it. -/
theorem inner_of_three {α : Type} {before after : List α} {x a b c : α}
    (h : [a, b, c] = before ++ x :: after) (hb : before ≠ []) (ha : after ≠ []) :
    x = b ∧ after = [c] := by
  have hlen := congrArg List.length h
  have hpos := List.length_pos_iff.mpr ha
  simp only [List.length_cons, List.length_append, List.length_nil] at hlen
  match before with
  | [] => exact absurd rfl hb
  | [_] => simp_all
  | _ :: _ :: _ => simp only [List.length_cons] at hlen; omega

/-- A quoted key in a text line is the key written or the value. -/
theorem quoted_infix_textLine {key K : String} (hk : IsKey key) (hK : IsKey K)
    {value : List Char} (hv : '"' ∉ value) :
    quoted K.toList <:+: textLine key value ↔ K = key ∨ K.toList = value := by
  constructor
  · intro h
    obtain ⟨before, after, hb, ha, hseg⟩ := segment_of_infix hK.quote h
    rw [segments_textLine hk hv] at hseg
    rcases inner_of_five hseg hb ha with ⟨h, -⟩ | ⟨h, -⟩ | ⟨h, -⟩
    · exact Or.inl (String.toList_inj.mp h)
    · exact absurd (h ▸ by simp) (hK.not_mem (c := ':') (by decide) (by decide))
    · exact Or.inr h
  · rintro (rfl | rfl)
    · exact ⟨[' ', ' '], ": \"".toList ++ value ++ "\",\n".toList, by simp [textLine_chars, quoted]⟩
    · exact ⟨"  \"".toList ++ key.toList ++ "\": ".toList, [',', '\n'],
        by simp [textLine_chars, quoted]⟩

/-- The keys found in a whole text line are the key written and the value. -/
theorem hasKey_textLine {key K : String} (hk : IsKey key) (hK : IsKey K)
    {value : List Char} (hv : '"' ∉ value) :
    hasKey (textLine key value) K = true ↔ K = key ∨ K.toList = value := by
  rw [hasKey, found_iff, quoted_infix_textLine hk hK hv]

/-- The only key found in a number line is the key written. -/
theorem hasKey_intLine {key K : String} (hk : IsKey key) (hK : IsKey K) (n : Int32)
    {tail : String} (ht : '"' ∉ tail.toList) :
    hasKey (intLine key n tail) K = true ↔ K = key := by
  rw [hasKey, found_iff]
  constructor
  · intro h
    obtain ⟨before, after, hb, ha, hseg⟩ := segment_of_infix hK.quote h
    rw [segments_intLine hk n ht] at hseg
    exact String.toList_inj.mp (inner_of_three hseg hb ha).1
  · rintro rfl
    exact ⟨[' ', ' '], ": ".toList ++ renderInt n.toInt ++ tail.toList,
      by simp [intLine_chars, quoted]⟩

/-! ## 4. What a piece of a line can scan as -/

/-- The part of both formats that names the field: `"key":`. -/
def fieldWord (key : List Char) : List Char := quoted key ++ [':']

theorem parse_fieldWord {key : String} (hk : IsKey key) (rest : List Char) :
    parseFormat (' ' :: ' ' :: (fieldWord key.toList ++ rest))
      = .space :: .space :: ((fieldWord key.toList).map .lit ++ parseFormat rest) := by
  have hplain : Plain (fieldWord key.toList) := by
    intro c hc
    simp only [fieldWord, quoted, List.mem_append, List.mem_cons,
      List.not_mem_nil, or_false] at hc
    rcases hc with ((rfl | hc) | rfl) | rfl
    · decide
    · exact hk.plain c hc
    · decide
    · decide
  rw [← parseFormat_plain hplain]
  rfl

theorem parse_textFormat {key : String} (hk : IsKey key) :
    parseFormat (textFormat key) = .space :: .space ::
      ((fieldWord key.toList).map .lit
        ++ [.space, .lit '"', .scanset '"', .lit '"']) := by
  rw [show textFormat key = ' ' :: ' ' :: (fieldWord key.toList ++ " \"%[^\"]\"".toList) by
    simp [textFormat_chars, fieldWord, quoted], parse_fieldWord hk]
  rfl

theorem parse_intFormat {key : String} (hk : IsKey key) :
    parseFormat (intFormat key) = .space :: .space ::
      ((fieldWord key.toList).map .lit ++ [.space, .int]) := by
  rw [show intFormat key = ' ' :: ' ' :: (fieldWord key.toList ++ " %d".toList) by
    simp [intFormat_chars, fieldWord, quoted], parse_fieldWord hk]
  rfl

/-- White space in front of the field name is skipped. -/
theorem scan_fieldWord (key : List Char) (ds : List Directive) {ws : List Char}
    (hws : ∀ c ∈ ws, isSpace c = true) (t : List Char) :
    scan (.space :: .space :: ((fieldWord key).map .lit ++ ds)) (ws ++ (fieldWord key ++ t))
      = scan ds t := by
  have hskip : (ws ++ (fieldWord key ++ t)).dropWhile isSpace = fieldWord key ++ t := by
    rw [List.dropWhile_append_of_pos hws]
    rfl
  have hskip' : (fieldWord key ++ t).dropWhile isSpace = fieldWord key ++ t := rfl
  rw [scan, hskip, scan, hskip', scan_lits]

/-- A scan that assigns anything found the field name, behind nothing
but white space. -/
theorem inv_scan_fieldWord {key : List Char} {ds : List Directive} {s : List Char}
    (h : scan (.space :: .space :: ((fieldWord key).map .lit ++ ds)) s ≠ []) :
    ∃ ws t, (∀ c ∈ ws, isSpace c = true) ∧ s = ws ++ (fieldWord key ++ t) := by
  rw [scan, scan, List.dropWhile_idempotent] at h
  obtain ⟨t, ht, -⟩ := prefix_of_scan_lits h
  refine ⟨s.takeWhile isSpace, t, fun c hc => List.mem_takeWhile_imp hc, ?_⟩
  rw [← ht, List.takeWhile_append_dropWhile]

/-- The shape of a text that scans as a text field. -/
theorem inv_scannedText {key : String} (hk : IsKey key) {s v : List Char}
    (h : scannedText s (textFormat key) = some v) :
    ∃ ws ws' rest, (∀ c ∈ ws, isSpace c = true) ∧ (∀ c ∈ ws', isSpace c = true) ∧
      '"' ∉ v ∧ s = ws ++ (fieldWord key.toList ++ (ws' ++ '"' :: (v ++ rest))) := by
  rw [scannedText, sscanf, parse_textFormat hk] at h
  have hne : scan (.space :: .space :: ((fieldWord key.toList).map .lit
      ++ [.space, .lit '"', .scanset '"', .lit '"'])) s ≠ [] := by
    intro he; rw [he] at h; simp at h
  obtain ⟨ws, t, hws, rfl⟩ := inv_scan_fieldWord hne
  rw [scan_fieldWord _ _ hws, scan] at h
  have hsplit : t = t.takeWhile isSpace ++ t.dropWhile isSpace :=
    List.takeWhile_append_dropWhile.symm
  cases hd : t.dropWhile isSpace with
  | nil => rw [hd] at h; simp [scan] at h
  | cons d u =>
    rw [hd] at h hsplit
    rw [scan] at h
    by_cases hq : d = '"'
    · rw [if_pos hq, scan] at h
      split at h
      · rename_i hv
        by_cases hnil : u.takeWhile (fun c => c != '"') = []
        · rw [if_pos hnil] at hv; simp at hv
        · rw [if_neg hnil] at hv
          obtain ⟨hv, -⟩ := List.cons.inj hv
          rw [Conversion.text.injEq] at hv
          rw [Option.some.injEq] at h
          subst h
          refine ⟨ws, t.takeWhile isSpace, u.dropWhile (fun c => c != '"'), hws,
            fun c hc => List.mem_takeWhile_imp hc, ?_, ?_⟩
          · intro hm
            rw [← hv] at hm
            simpa using List.mem_takeWhile_imp hm
          · rw [← hv, List.takeWhile_append_dropWhile, ← hq, ← hsplit]
      · simp at h
    · rw [if_neg hq] at h; simp at h

/-- Text that starts with another quoted word, or without the colon
behind it, is not the key's line. -/
theorem scannedText_word {key : String} (hk : IsKey key) {ws word tail v : List Char}
    (hws : ∀ c ∈ ws, isSpace c = true) (hword : '"' ∉ word)
    (h : scannedText (ws ++ '"' :: (word ++ '"' :: tail)) (textFormat key) = some v) :
    key.toList = word ∧ tail.head? = some ':' := by
  obtain ⟨ws₁, ws', rest, hws₁, -, -, hline⟩ := inv_scannedText hk h
  have hshape : ws ++ '"' :: (word ++ '"' :: tail)
      = ws₁ ++ '"' :: (key.toList ++ '"' :: (':' :: (ws' ++ '"' :: (v ++ rest)))) := by
    rw [hline]
    simp [fieldWord, quoted]
  obtain ⟨-, hrest⟩ := append_sep_inj (quote_not_mem_space hws) (quote_not_mem_space hws₁) hshape
  obtain ⟨hkey, htail⟩ := append_sep_inj hword hk.quote hrest
  exact ⟨hkey.symm, by rw [htail]; rfl⟩

/-- The shape of a text that scans as a number field. -/
theorem inv_scannedInt {key : String} (hk : IsKey key) {s : List Char} {n : Int32}
    (h : scannedInt s (intFormat key) = some n) :
    ∃ ws ws' num rest, (∀ c ∈ ws, isSpace c = true) ∧ (∀ c ∈ ws', isSpace c = true) ∧
      '"' ∉ num ∧ (∃ c ∈ num, c.isDigit = true) ∧
      s = ws ++ (fieldWord key.toList ++ (ws' ++ (num ++ rest))) := by
  rw [scannedInt, sscanf, parse_intFormat hk] at h
  have hne : scan (.space :: .space :: ((fieldWord key.toList).map .lit
      ++ [.space, .int])) s ≠ [] := by
    intro he; rw [he] at h; simp at h
  obtain ⟨ws, t, hws, rfl⟩ := inv_scan_fieldWord hne
  rw [scan_fieldWord _ _ hws, scan, scan, List.dropWhile_idempotent] at h
  cases hnum : scanNumeral (t.dropWhile isSpace) with
  | none => rw [hnum] at h; simp at h
  | some p =>
    obtain ⟨m, rest⟩ := p
    obtain ⟨num, hu, hchars, hd⟩ := inv_scanNumeral hnum
    have hq : '"' ∉ num := by
      intro hm
      exact absurd (hchars _ hm) (by decide)
    refine ⟨ws, t.takeWhile isSpace, num, rest, hws, fun c hc => List.mem_takeWhile_imp hc,
      hq, hd, ?_⟩
    rw [← hu, List.takeWhile_append_dropWhile]

/-- The segments of a text that contains a field name behind white space. -/
theorem segments_of_fieldWord {key : String} (hk : IsKey key) {ws' : List Char}
    (hws' : '"' ∉ ws') (a ws b : List Char) :
    ∃ before u us, before ≠ [] ∧ b.splitOn '"' = u :: us ∧
      (a ++ (ws ++ (fieldWord key.toList ++ (ws' ++ b)))).splitOn '"'
        = before ++ key.toList :: (':' :: (ws' ++ u)) :: us := by
  have hcolon : '"' ∉ ':' :: ws' := by simp [hws']
  obtain ⟨u, us, hb, hlast⟩ := splitOn_prefix hcolon b
  refine ⟨(a ++ ws).splitOn '"', u, us, List.splitOn_ne_nil _ _, hb, ?_⟩
  rw [show a ++ (ws ++ (fieldWord key.toList ++ (ws' ++ b)))
      = (a ++ ws) ++ '"' :: (key.toList ++ '"' :: (':' :: ws' ++ b)) by
      simp [fieldWord, quoted], splitOn_sep, splitOn_sep, splitOn_word hk.quote, hlast]
  rfl

/-- A piece of a text line scans as text for the written key only, and
gives a leading part of the written value. -/
theorem scannedText_piece {key K : String} (hk : IsKey key) (hK : IsKey K)
    {value piece u : List Char} (hv : '"' ∉ value) (hp : piece <:+: textLine key value)
    (h : scannedText piece (textFormat K) = some u) : K = key ∧ u <+: value := by
  obtain ⟨ws, ws', rest, -, hws', hu, rfl⟩ := inv_scannedText hK h
  obtain ⟨a, b, hline⟩ := hp
  have hshape : textLine key value
      = a ++ (ws ++ (fieldWord K.toList ++ (ws' ++ '"' :: (u ++ (rest ++ b))))) := by
    rw [← hline]; simp
  obtain ⟨before, x, xs, hb, hx, hseg⟩ :=
    segments_of_fieldWord hK (quote_not_mem_space hws') a ws
      ('"' :: (u ++ (rest ++ b)))
  obtain ⟨y, ys, -, hy⟩ := splitOn_prefix hu (rest ++ b)
  have hquote : ('"' :: (u ++ (rest ++ b))).splitOn '"' = [] :: (u ++ y) :: ys := by
    have := splitOn_sep '"' [] (u ++ (rest ++ b))
    rw [hy] at this
    simpa using this
  rw [hquote] at hx
  rw [← hshape, segments_textLine hk hv] at hseg
  rcases inner_of_five hseg hb (by simp) with ⟨h1, h2⟩ | ⟨h1, -⟩ | ⟨-, h2⟩
  · refine ⟨String.toList_inj.mp h1, ?_⟩
    obtain ⟨-, rfl⟩ := List.cons.inj hx
    simp only [List.cons.injEq] at h2
    exact ⟨y, h2.2.1⟩
  · exact absurd (h1 ▸ by simp) (hK.not_mem (c := ':') (by decide) (by decide))
  · simp at h2

/-- No piece of a text line scans as a number. -/
theorem scannedInt_textLine_piece {key K : String} (hk : IsKey key) (hK : IsKey K)
    {value piece : List Char} (hv : '"' ∉ value) (hp : piece <:+: textLine key value) :
    scannedInt piece (intFormat K) = none := by
  cases h : scannedInt piece (intFormat K) with
  | none => rfl
  | some n =>
    exfalso
    obtain ⟨ws, ws', num, rest, -, hws', hnum, ⟨c, hc, hdig⟩, rfl⟩ := inv_scannedInt hK h
    obtain ⟨a, b, hline⟩ := hp
    have hshape : textLine key value
        = a ++ (ws ++ (fieldWord K.toList ++ (ws' ++ (num ++ (rest ++ b))))) := by
      rw [← hline]; simp
    obtain ⟨before, x, xs, hb, hx, hseg⟩ :=
      segments_of_fieldWord hK (quote_not_mem_space hws') a ws (num ++ (rest ++ b))
    obtain ⟨y, ys, -, hy⟩ := splitOn_prefix hnum (rest ++ b)
    obtain ⟨rfl, rfl⟩ := List.cons.inj (hx.symm.trans hy)
    rw [← hshape, segments_textLine hk hv] at hseg
    rcases inner_of_five hseg hb (by simp) with ⟨-, h2⟩ | ⟨h1, -⟩ | ⟨-, h2⟩
    · -- behind the written key there is `: `, with no digit in it
      have hmem : c ∈ [':', ' '] := by
        rw [← (List.cons.inj h2).1]; simp [hc]
      simp only [List.mem_cons, List.not_mem_nil, or_false] at hmem
      rcases hmem with rfl | rfl <;> simp at hdig
    · exact absurd (h1 ▸ by simp) (hK.not_mem (c := ':') (by decide) (by decide))
    · simp at h2

/-- No piece of a number line scans as text. -/
theorem scannedText_intLine_piece {key K : String} (hk : IsKey key) (hK : IsKey K)
    (n : Int32) {tail : String} (ht : '"' ∉ tail.toList) {piece : List Char}
    (hp : piece <:+: intLine key n tail) : scannedText piece (textFormat K) = none := by
  cases h : scannedText piece (textFormat K) with
  | none => rfl
  | some u =>
    exfalso
    obtain ⟨ws, ws', rest, -, hws', hu, rfl⟩ := inv_scannedText hK h
    obtain ⟨a, b, hline⟩ := hp
    have hshape : intLine key n tail
        = a ++ (ws ++ (fieldWord K.toList ++ (ws' ++ '"' :: (u ++ (rest ++ b))))) := by
      rw [← hline]; simp
    obtain ⟨before, x, xs, hb, hx, hseg⟩ :=
      segments_of_fieldWord hK (quote_not_mem_space hws') a ws
        ('"' :: (u ++ (rest ++ b)))
    rw [← hshape, segments_intLine hk n ht] at hseg
    have hxs := (inner_of_three hseg hb (by simp)).2
    obtain ⟨y, ys, -, hy⟩ := splitOn_prefix hu (rest ++ b)
    have hquote : ('"' :: (u ++ (rest ++ b))).splitOn '"' = [] :: (u ++ y) :: ys := by
      have := splitOn_sep '"' [] (u ++ (rest ++ b))
      rw [hy] at this
      simpa using this
    -- a value needs two more quotes than a number line has
    rw [hquote] at hx
    rw [← (List.cons.inj hx).2] at hxs
    simp at hxs

/-! ## 5. The written line scanned back -/

/-- A non-empty value comes back from its own line; an empty one is not
assigned. -/
theorem scannedText_textLine {key : String} (hk : IsKey key) {value : List Char}
    (hv : '"' ∉ value) :
    scannedText (textLine key value) (textFormat key)
      = if value = [] then none else some value := by
  have hline : textLine key value
      = [' ', ' '] ++ (fieldWord key.toList ++ (' ' :: '"' :: (value ++ '"' :: [',', '\n']))) := by
    simp [textLine_chars, fieldWord, quoted]
  rw [scannedText, sscanf, parse_textFormat hk, hline, scan_fieldWord _ _ (by decide)]
  have hspace : (' ' :: '"' :: (value ++ '"' :: [',', '\n'])).dropWhile isSpace
      = '"' :: (value ++ '"' :: [',', '\n']) := rfl
  rw [scan, hspace, scan, if_pos rfl]
  by_cases hne : value = []
  · rw [if_pos hne, hne, List.nil_append, scan_scanset_nil]
  · rw [if_neg hne, scan_scanset hne hv]

/-- A number comes back from its own line. -/
theorem scannedInt_intLine {key : String} (hk : IsKey key) (n : Int32) {tail : String}
    (ht : ∀ c ∈ tail.toList.head?, c.isDigit = false) :
    scannedInt (intLine key n tail) (intFormat key) = some n := by
  have hline : intLine key n tail
      = [' ', ' '] ++ (fieldWord key.toList ++ ([' '] ++ renderInt n.toInt ++ tail.toList)) := by
    simp [intLine_chars, fieldWord, quoted]
  -- `%d` skips white space by itself
  have hskip : ∀ s, scan [.space, .int] s = scan [.int] s := by
    intro s; rw [scan, scan, scan, List.dropWhile_idempotent]
  rw [scannedInt, sscanf, parse_intFormat hk, hline, scan_fieldWord _ _ (by decide), hskip,
    scan_int_renderInt n [] (by decide) ht]
  simp [storedInt_toInt]

end DockerClone.Metadata
