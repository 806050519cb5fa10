/-
DockerClone.Build.TrimTheorems — blank lines.

What `trim_whitespace` is there for is `Trimmed`: the longest piece of a
line with no white space at its ends, and nothing of a line that has
nothing else. Its trailing loop stops at the first character that is left
and never tests it, so of a blank line with a newline or a return in it
that one character stays. No other line is trimmed wrongly
(`trimmed_iff`).

`fgets` keeps the newline, so this is every blank line of a file but an
unended last one: it is reported as an invalid instruction, and behind a
backslash it ends the continuation.
-/
import DockerClone.Build.ParseTheorems
import DockerClone.CLib.Printf

namespace DockerClone.Build

open DockerClone.CLib

/-! ## 1. What a round reports -/

/-- The line `Parse instruction` prints to stderr. -/
def instructionReport (lineNumber : Int32) (trimmed : List Char) : Option (List Char) :=
  match strchr trimmed ' ' with
  | none =>
      some ("Invalid instruction at line ".toList ++ renderInt lineNumber.toInt ++ ": ".toList
        ++ trimmed ++ ['\n'])
  | some space =>
      let instruction := trimmed.take (trimmed.length - space.length)
      if getInstructionType instruction = .UNKNOWN then
        some ("Unknown instruction at line ".toList ++ renderInt lineNumber.toInt ++ ": ".toList
          ++ instruction ++ ['\n'])
      else none

/-- What the body of the loop prints to stderr, beside `perror`. -/
def lineReport (line : List Char) (s : ParseState) : Option (List Char) :=
  let lineNumber := s.lineNumber + 1
  let trimmed := trimWhitespace (cstr line)
  if trimmed = [] ∨ trimmed.head? = some '#' then none
  else if isContinuationLine trimmed then none
  else if s.inContinuation then
    instructionReport lineNumber (cstr (continuationBuffer trimmed))
  else instructionReport lineNumber trimmed

/-- Of a line that is reported nothing is stored. -/
theorem parseInstruction_of_reported {trimmed message : List Char} {s : ParseState}
    (h : instructionReport s.lineNumber trimmed = some message) (env : ParseEnv) :
    parseInstruction env trimmed s = some s := by
  rw [instructionReport] at h
  rw [parseInstruction]
  cases hspace : strchr trimmed ' ' with
  | none => rfl
  | some space =>
    by_cases htype :
        getInstructionType (trimmed.take (trimmed.length - space.length)) = .UNKNOWN
    · simp only [htype, if_true]
    · simp [hspace, htype] at h

/-- And a line that is not reported is stored, if there is memory. -/
theorem parseInstruction_of_unreported {trimmed : List Char} {s s' : ParseState} {env : ParseEnv}
    (h : instructionReport s.lineNumber trimmed = none)
    (hparse : parseInstruction env trimmed s = some s') :
    ∃ stored, s'.dockerfile.instructions = s.dockerfile.instructions ++ [stored] ∧
      stored.type ≠ .UNKNOWN ∧ stored.lineNumber = s.lineNumber := by
  rw [instructionReport] at h
  rw [parseInstruction] at hparse
  cases hspace : strchr trimmed ' ' with
  | none => simp [hspace] at h
  | some space =>
    by_cases htype :
        getInstructionType (trimmed.take (trimmed.length - space.length)) = .UNKNOWN
    · simp [hspace, htype] at h
    · simp only [hspace, if_neg htype] at hparse
      split at hparse
      · split at hparse
        · obtain rfl := Option.some.inj hparse
          exact ⟨_, summarise_instructions _ _ _, htype, rfl⟩
        · simp at hparse
      · obtain rfl := Option.some.inj hparse
        exact ⟨_, summarise_instructions _ _ _, htype, rfl⟩

/-- A line the loop reports changes nothing but the line number and the
end of a continuation. -/
theorem parseLine_of_reported {line message : List Char} {s : ParseState}
    (h : lineReport line s = some message) (env : ParseEnv) :
    parseLine env line s
      = some { s with lineNumber := s.lineNumber + 1, inContinuation := false } := by
  rw [lineReport] at h
  rw [parseLine]
  simp only at h ⊢
  split at h
  · simp at h
  · rename_i hread
    rw [if_neg hread]
    split at h
    · simp at h
    · rename_i hplain
      rw [if_neg hplain]
      split at h
      · rename_i hcontinued
        rw [if_pos hcontinued]
        exact parseInstruction_of_reported (by exact h) env
      · rename_i hcontinued
        rw [if_neg hcontinued]
        have hstate : s.inContinuation = false := by simpa using hcontinued
        rw [parseInstruction_of_reported (by exact h) env, ← hstate]

/-- And one it does not report is blank, a comment or a backslash, or adds
one instruction under its number. -/
theorem parseLine_of_unreported {line : List Char} {s s' : ParseState} {env : ParseEnv}
    (h : lineReport line s = none) (hparse : parseLine env line s = some s') :
    s' = { s with lineNumber := s.lineNumber + 1 } ∨
    s' = { s with lineNumber := s.lineNumber + 1, inContinuation := true } ∨
    ∃ stored, s'.dockerfile.instructions = s.dockerfile.instructions ++ [stored] ∧
      stored.type ≠ .UNKNOWN ∧ stored.lineNumber = s.lineNumber + 1 := by
  rw [lineReport] at h
  rw [parseLine] at hparse
  simp only at h hparse
  split at hparse
  · exact Or.inl (Option.some.inj hparse).symm
  · rename_i hread
    rw [if_neg hread] at h
    split at hparse
    · exact Or.inr (Or.inl (Option.some.inj hparse).symm)
    · rename_i hplain
      rw [if_neg hplain] at h
      refine Or.inr (Or.inr ?_)
      split at hparse
      · rename_i hcontinued
        rw [if_pos hcontinued] at h
        exact parseInstruction_of_unreported (by exact h) hparse
      · rename_i hcontinued
        rw [if_neg hcontinued] at h
        exact parseInstruction_of_unreported (by exact h) hparse

/-! ## 2. Pieces of a line -/

/-- A text that starts with neither a space nor a tab and ends with no
white space. -/
def Piece (p : List Char) : Prop :=
  (∀ c, p.head? = some c → c ∉ [' ', '\t']) ∧
    ∀ c, p.getLast? = some c → c ∉ [' ', '\t', '\r', '\n']

/-- White space only. -/
def Blank (line : List Char) : Prop := ∀ c ∈ line, c ∈ [' ', '\t', '\r', '\n']

instance (line : List Char) : Decidable (Blank line) := by unfold Blank; infer_instance

/-- What trimming a line has to give, and what the loop has to make of a
blank one. -/
structure Trimmed (line : List Char) : Prop where
  piece : Piece (trimWhitespace line)
  part : trimWhitespace line <:+: line
  maximal : ∀ p, p <:+: line → Piece p → p <:+: trimWhitespace line
  again : trimWhitespace (trimWhitespace line) = trimWhitespace line
  blank : Blank line → trimWhitespace line = []
  skipped : Blank line → ∀ env s,
    parseLine env line s = some { s with lineNumber := s.lineNumber + 1 } ∧
      lineReport line s = none

/-- A newline or a return and nothing but white space. -/
def BlankWithBreak (line : List Char) : Prop := Blank line ∧ ('\n' ∈ line ∨ '\r' ∈ line)

instance (line : List Char) : Decidable (BlankWithBreak line) := by
  unfold BlankWithBreak; infer_instance

theorem isBlank_eq_false_iff (c : Char) : isBlank c = false ↔ c ∉ [' ', '\t'] := by
  simp [isBlank]

theorem isTrailing_iff (c : Char) : isTrailing c = true ↔ c ∈ [' ', '\t', '\r', '\n'] := by
  simp only [isTrailing, decide_eq_true_eq, List.mem_cons, List.not_mem_nil, or_false]
  constructor
  · rintro (h | h | h | h) <;> simp [h]
  · rintro (h | h | h | h) <;> simp [h]

theorem isTrailing_of_isBlank {c : Char} (h : isBlank c = true) : isTrailing c = true := by
  simp only [isBlank, decide_eq_true_eq] at h
  rcases h with rfl | rfl <;> rfl

/-- Dropping from the front stops at the latest at a character it keeps. -/
theorem dropWhile_append_cons {α : Type} {p : α → Bool} {c : α} (hc : p c = false) (t : List α) :
    ∀ a : List α, (a ++ c :: t).dropWhile p = a.dropWhile p ++ c :: t
  | [] => by simp [hc]
  | x :: a => by
      rw [List.cons_append, List.dropWhile_cons, List.dropWhile_cons]
      split
      · exact dropWhile_append_cons hc t a
      · rfl

theorem rdropWhile_append_concat {α : Type} {p : α → Bool} {c : α} (hc : p c = false)
    (t b : List α) : (t ++ [c] ++ b).rdropWhile p = t ++ [c] ++ b.rdropWhile p := by
  simp only [List.rdropWhile, List.reverse_append, List.reverse_singleton, List.singleton_append]
  rw [dropWhile_append_cons hc]
  simp

section Text

variable {line : List Char}

theorem trimmedText_part : trimmedText line <:+: line :=
  (List.rdropWhile_prefix isTrailing _).isInfix.trans (List.dropWhile_suffix isBlank).isInfix

theorem piece_trimmedText : Piece (trimmedText line) := by
  constructor
  · intro c hc
    obtain ⟨rest, hrest⟩ := List.head?_eq_some_iff.mp hc
    exact (isBlank_eq_false_iff c).mp (not_isBlank_trimmedText hrest)
  · intro c hc htrailing
    have hne : trimmedText line ≠ [] := by
      intro hnil
      rw [hnil] at hc
      simp at hc
    have hlast := List.rdropWhile_last_not isTrailing (line.dropWhile isBlank) hne
    rw [List.getLast?_eq_some_getLast hne] at hc
    obtain rfl := Option.some.inj hc
    exact hlast ((isTrailing_iff _).mpr htrailing)

/-- Any piece lies within the trimmed text. -/
theorem part_trimmedText {p : List Char} (hp : Piece p) (hpart : p <:+: line) :
    p <:+: trimmedText line := by
  obtain ⟨a, b, rfl⟩ := hpart
  rcases List.eq_nil_or_concat p with rfl | ⟨init, last, rfl⟩
  · exact List.nil_infix
  · rw [List.concat_eq_append] at hp ⊢
    have hlast : isTrailing last = false := by
      rw [← Bool.not_eq_true, isTrailing_iff]
      exact hp.2 last (by simp)
    obtain ⟨c, rest, hcons⟩ : ∃ c rest, init ++ [last] = c :: rest :=
      List.exists_cons_of_ne_nil (by simp)
    have hfirst : isBlank c = false := by
      rw [isBlank_eq_false_iff]
      exact hp.1 c (by rw [hcons]; rfl)
    have hfront : (a ++ (init ++ [last]) ++ b).dropWhile isBlank
        = a.dropWhile isBlank ++ init ++ [last] ++ b := by
      rw [List.append_assoc, hcons, List.cons_append, dropWhile_append_cons hfirst,
        ← List.cons_append, ← hcons]
      simp
    rw [trimmedText, hfront, rdropWhile_append_concat hlast]
    exact ⟨a.dropWhile isBlank, b.rdropWhile isTrailing, by simp⟩

theorem trimmedText_eq_nil_iff : trimmedText line = [] ↔ Blank line := by
  rw [trimmedText, List.rdropWhile_eq_nil_iff, Blank]
  constructor
  · intro h c hc
    rw [← List.takeWhile_append_dropWhile (p := isBlank) (l := line)] at hc
    rw [← isTrailing_iff]
    rcases List.mem_append.mp hc with hc | hc
    · exact isTrailing_of_isBlank (List.mem_takeWhile_imp hc)
    · exact h c hc
  · intro h c hc
    exact (isTrailing_iff c).mpr (h c ((List.dropWhile_suffix isBlank).subset hc))

theorem trimWhitespace_trimmedText : trimWhitespace (trimmedText line) = trimmedText line := by
  rcases trimWhitespace_cases (trimmedText line) with htext | ⟨hnil, -⟩
  · rw [htext, trimmedText_trimmedText]
  · rw [trimmedText_trimmedText] at hnil
    rw [hnil]
    rfl

/-- Unless it leaves a newline or a return, the program trims. -/
theorem trimWhitespace_eq (h : ¬ BlankWithBreak line) : trimWhitespace line = trimmedText line := by
  rcases trimWhitespace_cases line with htext | ⟨hnil, c, hct, hc, hone⟩
  · exact htext
  · have hmem : c ∈ line := trimWhitespace_subset line (by rw [hone]; simp)
    refine absurd ⟨trimmedText_eq_nil_iff.mp hnil, ?_⟩ h
    simp only [isTrailing, isBlank, decide_eq_true_eq, decide_eq_false_iff_not, not_or] at hct hc
    rcases hct with rfl | rfl | rfl | rfl
    · exact absurd rfl hc.1
    · exact absurd rfl hc.2
    · exact Or.inl hmem
    · exact Or.inr hmem

/-- Of a blank line with a break something is left. -/
theorem trimWhitespace_ne_nil (h : BlankWithBreak line) : trimWhitespace line ≠ [] := by
  have hkept : ∀ c ∈ line, isBlank c = false → line.dropWhile isBlank ≠ [] := by
    intro c hc hkept hnil
    have hall := List.dropWhile_eq_nil_iff.mp hnil c hc
    rw [hkept] at hall
    simp at hall
  have hne : line.dropWhile isBlank ≠ [] := by
    rcases h.2 with hbreak | hbreak
    · exact hkept '\n' hbreak (by decide)
    · exact hkept '\r' hbreak (by decide)
  rw [trimWhitespace]
  cases hline : line.dropWhile isBlank with
  | nil => exact absurd hline hne
  | cons c rest => simp

end Text

/-! ## 3. Every line -/

/-- A line trimmed to nothing is passed over, whatever came before it. -/
theorem skipped_of_nil {line : List Char} (hnul : NulFree line) (h : trimWhitespace line = [])
    (env : ParseEnv) (s : ParseState) :
    parseLine env line s = some { s with lineNumber := s.lineNumber + 1 } ∧
      lineReport line s = none := by
  have hline : trimWhitespace (cstr line) = [] := by rw [cstr_of_nulFree hnul, h]
  constructor
  · rw [parseLine, hline]
    simp
  · rw [lineReport, hline]
    simp

/-- A line is trimmed, and skipped if it is blank, exactly when it is not
a blank line with a newline or a return. -/
theorem trimmed_iff {line : List Char} (hnul : NulFree line) :
    Trimmed line ↔ ¬ BlankWithBreak line := by
  constructor
  · intro h hbreak
    exact trimWhitespace_ne_nil hbreak (h.blank hbreak.1)
  · intro h
    have htext := trimWhitespace_eq h
    have hblank : Blank line → trimWhitespace line = [] := fun hblank =>
      htext.trans (trimmedText_eq_nil_iff.mpr hblank)
    exact {
      piece := by rw [htext]; exact piece_trimmedText
      part := by rw [htext]; exact trimmedText_part
      maximal := fun p hpart hp => by rw [htext]; exact part_trimmedText hp hpart
      again := by rw [htext, trimWhitespace_trimmedText]
      blank := hblank
      skipped := fun hline => skipped_of_nil hnul (hblank hline) }

theorem padded_trimmed : Trimmed "\t RUN ls \r\n".toList :=
  (trimmed_iff (by decide)).mpr (by decide)

/-- Where `parse_dockerfile` stands behind a backslash in line 1. -/
def continued : ParseState where
  lineNumber := 1
  inContinuation := true
  dockerfile := emptyDockerfile

/-- An empty line behind a backslash: the newline is kept, it is reported,
and the continuation is over. -/
theorem empty_line_reported :
    trimWhitespace ['\n'] = ['\n'] ∧
    lineReport ['\n'] continued = some "Invalid instruction at line 2: \n".toList ∧
    (parseLine grantedEnv ['\n'] continued).map (·.inContinuation) = some false ∧
    ¬ Trimmed ['\n'] := by
  have hreport : lineReport ['\n'] continued = some "Invalid instruction at line 2: \n".toList := by
    decide
  refine ⟨by decide, hreport, ?_, fun h => ?_⟩
  · rw [parseLine_of_reported hreport grantedEnv]
    rfl
  · exact absurd (h.blank (by decide)) (by decide)

end DockerClone.Build
