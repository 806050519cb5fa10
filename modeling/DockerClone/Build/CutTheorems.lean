/-
DockerClone.Build.CutTheorems — instructions cut over several lines.

A backslash alone on a line makes the loop drop the next line it would
parse: the buffer that line is appended to is cleared before it is read.
A backslash behind other text is no continuation at all. So what stands
behind a cut is lost, or taken for an instruction of its own.

Two weights of a parse decide when nothing is lost. A cut never adds to
the first, the number of characters that are neither whitespace nor a
backslash, and takes from it unless only whitespace stands behind it
(`weight_line_le`, `behind_blank`). Once that is settled, the number of
characters that are no whitespace shows whether a backslash was kept in
an argument (`solid_line`).
-/
import DockerClone.Build.LongLineTheorems
import Mathlib.Algebra.Ring.Nat

namespace DockerClone.Build

open DockerClone.CLib DockerClone.Os

/-! ## 1. Cut instructions -/

/-- A cut is marked by a backslash at the end of the line that is cut, or
alone on the next line. -/
inductive Mark where
  | atEnd
  | ownLine
  deriving DecidableEq, Repr

/-- An instruction whose argument text is cut at spaces: the text up to
the first cut, and the pieces behind the cuts. -/
structure CutInstruction where
  indent : List Char
  keyword : String × InstructionType
  args : List Char
  rest : List (Mark × List Char)
  blank : ∀ c ∈ indent, isBlank c = true
  known : keyword ∈ keywords

/-- A line of a dockerfile, as it is written. -/
inductive SourceLine where
  | whole (line : List Char)
  | cut (instruction : CutInstruction)

/-- The physical lines of a text with these cuts. -/
def cutLines : List Char → List (Mark × List Char) → List (List Char)
  | first, [] => [first]
  | first, (.atEnd, next) :: rest => (first ++ ['\\']) :: cutLines next rest
  | first, (.ownLine, next) :: rest => first :: ['\\'] :: cutLines next rest

namespace CutInstruction

variable (i : CutInstruction)

/-- An instruction line with this argument text. -/
def lineOf (args : List Char) : List Char :=
  i.indent ++ i.keyword.1.toList ++ ' ' :: args

/-- The argument text behind the first cut. -/
def more : List Char := i.rest.flatMap fun c => ' ' :: c.2

/-- The joined line. -/
def joined : List Char := i.lineOf (i.args ++ i.more)

end CutInstruction

namespace SourceLine

/-- With the cuts joined. -/
def joined : SourceLine → List Char
  | whole line => line
  | cut i => i.joined

def physical : SourceLine → List (List Char)
  | whole line => [line]
  | cut i => cutLines (i.lineOf i.args) i.rest

/-- A line without newline and NUL, of at most 511 characters. -/
structure Fits (line : List Char) : Prop where
  newline : '\n' ∉ line
  nul : NulFree line
  short : line.length ≤ 511

/-- A backslash at the end of a line marks a cut, so joined lines end in
none; comments may. A line that is cut is an instruction. -/
def WellFormed : SourceLine → Prop
  | whole line => Fits line ∧
      ((trimmedText line).getLast? = some '\\' → (trimmedText line).head? = some '#')
  | cut i => Fits i.joined ∧ (i.args ++ i.more).rdropWhile isTrailing ≠ [] ∧
      ((i.args ++ i.more).rdropWhile isTrailing).getLast? ≠ some '\\'

/-- Nothing but whitespace stands behind the first cut, and that is marked
on a line of its own. -/
def Harmless : SourceLine → Prop
  | whole _ => True
  | cut i => i.rest.head?.map Prod.fst ≠ some .atEnd ∧ ∀ c ∈ i.more, isTrailing c = true

end SourceLine

/-- The words of an argument text: it up to runs of spaces. -/
def argWords (args : List Char) : List (List Char) :=
  (args.splitOn ' ').filter (fun w => w ≠ [])

/-- The types and the arguments, up to runs of spaces. -/
def Dockerfile.words (dockerfile : Dockerfile) : List (InstructionType × List (List Char)) :=
  dockerfile.instructions.map fun i => (i.type, argWords (cstr i.args))

/-! ## 2. The loop on physical lines -/

/-- What a line stores. -/
def kept (flag : Bool) (line : List Char) : Option (InstructionType × List Char) :=
  (roundEntry flag 0 line).map fun e => (e.type, e.args)

/-- The flag behind a physical line; its newline makes a blank line an
ordinary one. -/
def nextFlag (flag : Bool) (line : List Char) : Bool :=
  if (trimmedText line).head? = some '#' then flag else decide (trimmedText line = ['\\'])

/-- What physical lines store, from this flag on. -/
def keptFrom : Bool → List (List Char) → List (InstructionType × List Char)
  | _, [] => []
  | flag, line :: lines => (kept flag line).toList ++ keptFrom (nextFlag flag line) lines

theorem kept_number (flag : Bool) (n : Int32) (line : List Char) :
    (roundEntry flag n line).map (fun e => (e.type, e.args)) = kept flag line := by
  rw [kept, roundEntry, roundEntry]
  cases flag with
  | true => rfl
  | false =>
    show (lineEntry n line).map _ = (lineEntry 0 line).map _
    cases h : lineEntry n line with
    | some e =>
      obtain ⟨k, hk, rest, hcut, rfl⟩ := lineEntry_some_iff.mp h
      rw [lineEntry_some_iff.mpr ⟨k, hk, rest, hcut, rfl⟩]
      rfl
    | none =>
      cases h₀ : lineEntry 0 line with
      | none => rfl
      | some e =>
        obtain ⟨k, hk, rest, hcut, -⟩ := lineEntry_some_iff.mp h₀
        rw [lineEntry_some_iff.mpr ⟨k, hk, rest, hcut, rfl⟩] at h
        simp at h

theorem kept_newline (flag : Bool) (line : List Char) :
    kept flag (line ++ ['\n']) = kept flag line := by
  rw [kept, kept, roundEntry, roundEntry, lineEntry_newline]

/-- A line that ends with its newline is never passed over as empty. -/
theorem flagAfter_newline (flag : Bool) (line : List Char) :
    flagAfter flag (line ++ ['\n']) = nextFlag flag line := by
  rw [flagAfter, nextFlag, trimmedText_newline]
  rcases trimWhitespace_cases (line ++ ['\n']) with htext | ⟨hempty, c, hct, hc, hone⟩
  · rw [htext, trimmedText_newline]
    by_cases hnil : trimmedText line = []
    · -- a newline is not cut off by itself
      have hdrop : ∃ c rest, (line ++ ['\n']).dropWhile isBlank = c :: rest := by
        rw [List.dropWhile_append]
        cases line.dropWhile isBlank with
        | nil => exact ⟨'\n', [], rfl⟩
        | cons c rest => exact ⟨c, rest ++ ['\n'], rfl⟩
      obtain ⟨c, rest, hdrop⟩ := hdrop
      rw [trimWhitespace, hdrop, trimmedText_newline, hnil] at htext
      simp at htext
    · simp only [hnil, false_or]
  · rw [trimmedText_newline] at hempty
    have hhash : c ≠ '#' := by
      rintro rfl
      simp [isTrailing] at hct
    rw [hone, hempty, if_neg (by simp [hhash]), if_neg (by simp)]

theorem keptFrom_append : ∀ (lines more : List (List Char)) (flag : Bool),
    keptFrom flag (lines ++ more)
      = keptFrom flag lines ++ keptFrom (lines.foldl nextFlag flag) more
  | [], _, _ => rfl
  | line :: lines, more, flag => by
      rw [List.cons_append, keptFrom, keptFrom, keptFrom_append lines more, List.foldl_cons,
        List.append_assoc]

/-- The rounds over the pieces of a text are those over its lines. -/
theorem roundEntries_lines : ∀ (lines : List (List Char)) (n : Nat) (flag : Bool),
    (∀ line ∈ lines, '\n' ∉ line ∧ NulFree line ∧ line.length ≤ 1022) →
    (roundEntries flag
        (((fgetsLines MAX_LINE_LEN (['\n'].intercalate lines)).map cstr).zipIdx n)).map
      (fun e => (e.type, e.args)) = keptFrom flag lines
  | [], _, _, _ => rfl
  | [line], n, flag, h => by
      obtain ⟨hnl, hnul, hlen⟩ := h line (by simp)
      rw [List.intercalate_singleton, keptFrom, keptFrom, List.append_nil]
      by_cases hnil : line = []
      · rw [hnil, kept, roundEntry, lineEntry_nil, ite_self]
        rfl
      · rw [fgetsLines_last hnl hnil (by rw [MAX_LINE_LEN]; omega), List.map_singleton,
          cstr_of_nulFree hnul, List.zipIdx_singleton, roundEntries, roundEntries,
          List.append_nil, ← Option.toList_map, kept_number]
  | line :: next :: lines, n, flag, h => by
      obtain ⟨hnl, hnul, hlen⟩ := h line (by simp)
      have ih := fun flag => roundEntries_lines (next :: lines) (n + 1) flag
        (fun l hl => h l (List.mem_cons_of_mem line hl))
      have hpieces : fgetsLines MAX_LINE_LEN (['\n'].intercalate (line :: next :: lines))
          = (line ++ ['\n']) ::
            fgetsLines MAX_LINE_LEN (['\n'].intercalate (next :: lines)) := by
        rw [List.intercalate_cons_cons, fgetsLines_append MAX_LINE_LEN (by simp),
          fgetsLines_line hnl (by rw [MAX_LINE_LEN]; omega)]
        rfl
      have hend : NulFree (line ++ ['\n']) := by
        rw [nulFree_append]
        exact ⟨hnul, by decide⟩
      rw [hpieces, List.map_cons, cstr_of_nulFree hend, List.zipIdx_cons, roundEntries,
        List.map_append, ← Option.toList_map, kept_number, kept_newline, flagAfter_newline, ih]
      rfl

/-! ## 3. One line -/

theorem kept_some {flag : Bool} {line args : List Char} {t : InstructionType}
    (h : kept flag line = some (t, args)) : flag = false ∧ ∃ k ∈ keywords, ∃ rest,
      trimmedText line = k.1.toList ++ ' ' :: rest ∧ args = rest.take (MAX_ARG_LEN - 1) := by
  rw [kept, roundEntry] at h
  cases flag with
  | true => simp at h
  | false =>
    obtain ⟨e, he, hpair⟩ := Option.map_eq_some_iff.mp h
    obtain ⟨k, hk, rest, hcut, rfl⟩ := lineEntry_some_iff.mp he
    exact ⟨rfl, k, hk, rest, hcut, ((Prod.mk.inj hpair).2).symm⟩

@[simp] theorem kept_dropped (line : List Char) : kept true line = none := rfl

/-- Only a backslash by itself raises the flag. -/
theorem nextFlag_quiet {line : List Char} (h : trimmedText line ≠ ['\\']) :
    nextFlag false line = false := by
  rw [nextFlag, decide_eq_false h, ite_self]

theorem not_marker_of_kept {flag : Bool} {line args : List Char} {t : InstructionType}
    (h : kept flag line = some (t, args)) : trimmedText line ≠ ['\\'] := by
  obtain ⟨-, k, -, rest, hcut, -⟩ := kept_some h
  intro hmarker
  have hspace : ' ' ∈ trimmedText line := by rw [hcut]; simp
  rw [hmarker] at hspace
  exact absurd hspace (by decide)

/-- A keyword, a space and an argument text, which is trimmed at its
end. -/
theorem kept_lineOf (i : CutInstruction) {args : List Char}
    (hshort : (i.lineOf args).length ≤ 512) :
    kept false (i.lineOf args)
      = if args.rdropWhile isTrailing = [] then none
        else some (i.keyword.2, args.rdropWhile isTrailing) := by
  have hkeyword : ∀ k ∈ keywords, k.1.toList.rdropWhile isTrailing = k.1.toList ∧
      k.1.toList.dropWhile isBlank = k.1.toList ∧ k.1.toList ≠ [] := by decide
  obtain ⟨hend, hstart, hne⟩ := hkeyword i.keyword i.known
  have hdrop : (i.lineOf args).dropWhile isBlank = i.keyword.1.toList ++ ' ' :: args := by
    rw [CutInstruction.lineOf, List.append_assoc, List.dropWhile_append_of_pos i.blank,
      List.dropWhile_append, hstart, if_neg (by simpa using hne)]
  have htext : trimmedText (i.lineOf args)
      = if args.rdropWhile isTrailing = [] then i.keyword.1.toList
        else i.keyword.1.toList ++ ' ' :: args.rdropWhile isTrailing := by
    rw [trimmedText, hdrop, rdropWhile_append, rdropWhile_cons]
    by_cases hnil : args.rdropWhile isTrailing = []
    · rw [if_pos hnil, if_pos hnil, if_pos (by decide), hend]
    · rw [if_neg hnil, if_neg hnil, if_neg (List.cons_ne_nil _ _)]
  rw [kept, roundEntry, if_neg Bool.false_ne_true]
  by_cases hnil : args.rdropWhile isTrailing = []
  · rw [if_pos hnil] at htext ⊢
    rw [lineEntry_no_space]
    · rfl
    · rw [htext]
      exact (getInstructionType_keyword i.keyword i.known).2.2
  · rw [if_neg hnil] at htext ⊢
    rw [lineEntry_some_iff.mpr ⟨i.keyword, i.known, _, htext, rfl⟩, Option.map_some,
      List.take_of_length_le]
    have hlen := (List.rdropWhile_prefix isTrailing args).length_le
    rw [CutInstruction.lineOf, List.length_append, List.length_append, List.length_cons] at hshort
    have hpos := List.length_pos_iff.mpr hne
    rw [MAX_ARG_LEN]
    omega

/-! ## 4. Two weights -/

/-- A character that is no whitespace. -/
def solid (c : Char) : Bool := !isTrailing c

/-- A character that is neither whitespace nor a backslash. -/
def plain (c : Char) : Bool := !isTrailing c && c != '\\'

/-- How many of these characters the stored arguments have. -/
def weight (p : Char → Bool) (entries : List (InstructionType × List Char)) : Nat :=
  (entries.map fun e => e.2.countP p).sum

@[simp] theorem weight_nil (p : Char → Bool) : weight p [] = 0 := rfl

@[simp] theorem weight_append (p : Char → Bool)
    (entries more : List (InstructionType × List Char)) :
    weight p (entries ++ more) = weight p entries + weight p more := by
  rw [weight, List.map_append, List.sum_append, ← weight, ← weight]

@[simp] theorem weight_singleton (p : Char → Bool) (t : InstructionType) (args : List Char) :
    weight p [(t, args)] = args.countP p := by
  simp [weight]

theorem countP_dropWhile {p q : Char → Bool} (hpq : ∀ c, q c = true → p c = false)
    (l : List Char) : (l.dropWhile q).countP p = l.countP p := by
  have hfront : (l.takeWhile q).countP p = 0 := by
    rw [List.countP_eq_zero]
    intro c hc
    rw [hpq c (List.mem_takeWhile_imp hc)]
    exact Bool.false_ne_true
  have hsum : l.countP p = (l.takeWhile q ++ l.dropWhile q).countP p := by
    rw [List.takeWhile_append_dropWhile]
  rw [hsum, List.countP_append, hfront, Nat.zero_add]

section Weight

variable {p : Char → Bool} (hp : ∀ c, isTrailing c = true → p c = false)

include hp

theorem countP_rdropWhile (l : List Char) : (l.rdropWhile isTrailing).countP p = l.countP p := by
  rw [List.rdropWhile, List.countP_reverse, countP_dropWhile hp, List.countP_reverse]

theorem countP_trimmedText (line : List Char) : (trimmedText line).countP p = line.countP p := by
  have hblank : ∀ c, isBlank c = true → p c = false := by
    intro c hc
    refine hp c ?_
    simp only [isBlank, isTrailing, decide_eq_true_eq] at hc ⊢
    rcases hc with hc | hc
    · exact Or.inl hc
    · exact Or.inr (Or.inl hc)
  rw [trimmedText, countP_rdropWhile hp, countP_dropWhile hblank]

/-- Words weigh as much as the text. -/
theorem countP_argWords (args : List Char) : (argWords args).flatten.countP p = args.countP p := by
  have hspace : p ' ' = false := hp ' ' (by decide)
  have hjoin : ∀ ws : List (List Char), ([' '].intercalate ws).countP p = ws.flatten.countP p := by
    intro ws
    induction ws with
    | nil => rfl
    | cons w ws ih =>
      cases ws with
      | nil => simp
      | cons v ws =>
        rw [List.intercalate_cons_cons, List.countP_append, List.countP_append, ih,
          List.flatten_cons, List.countP_append, List.countP_singleton, hspace]
        simp
  rw [argWords, List.flatten_filter_ne_nil, ← hjoin, List.intercalate_splitOn]

theorem weight_eq_of_words {a b : List (InstructionType × List Char)}
    (h : a.map (fun e => (e.1, argWords e.2)) = b.map (fun e => (e.1, argWords e.2))) :
    weight p a = weight p b := by
  have hwords : ∀ entries : List (InstructionType × List Char), weight p entries
      = ((entries.map fun e => (e.1, argWords e.2)).map fun e => e.2.flatten.countP p).sum := by
    intro entries
    rw [weight, List.map_map]
    congr 1
    refine List.map_congr_left fun e _ => ?_
    exact (countP_argWords hp e.2).symm
  rw [hwords, hwords, h]

/-- An instruction line weighs as much as its argument text. -/
theorem weight_kept_lineOf (i : CutInstruction) {args : List Char}
    (hshort : (i.lineOf args).length ≤ 512) (flag : Bool) :
    weight p (kept flag (i.lineOf args)).toList = if flag then 0 else args.countP p := by
  cases flag with
  | true => rfl
  | false =>
    rw [kept_lineOf i hshort, ← countP_rdropWhile hp args]
    by_cases hnil : args.rdropWhile isTrailing = []
    · rw [if_pos hnil, hnil]
      rfl
    · rw [if_neg hnil]
      simp

end Weight

theorem solid_trailing (c : Char) (h : isTrailing c = true) : solid c = false := by
  simp [solid, h]

theorem plain_trailing (c : Char) (h : isTrailing c = true) : plain c = false := by
  simp [plain, h]

/-- A trimmed text ends with a character that counts, or a backslash. -/
theorem plain_last {l : List Char} (hne : l.rdropWhile isTrailing ≠ [])
    (hback : (l.rdropWhile isTrailing).getLast? ≠ some '\\') :
    ∃ c, (l.rdropWhile isTrailing).getLast? = some c ∧ plain c = true := by
  have hlast := List.getLast?_eq_some_getLast hne
  refine ⟨_, hlast, ?_⟩
  simp only [plain, Bool.and_eq_true, Bool.not_eq_true', bne_iff_ne, ne_eq]
  refine ⟨Bool.eq_false_iff.mpr (List.rdropWhile_last_not isTrailing _ hne), fun he => hback ?_⟩
  rw [hlast, he]

/-- An entry weighs less than its line: the keyword is gone. -/
theorem plain_lt_of_kept {flag : Bool} {line args : List Char} {t : InstructionType}
    (h : kept flag line = some (t, args)) : args.countP plain < line.countP plain := by
  obtain ⟨-, k, hk, rest, hcut, rfl⟩ := kept_some h
  have hkeyword : ∀ k ∈ keywords, 1 ≤ k.1.toList.countP plain := by decide
  have hpos := hkeyword k hk
  have htake := (List.take_sublist (MAX_ARG_LEN - 1) rest).countP_le (p := plain)
  have hspace : plain ' ' = false := by decide
  rw [← countP_trimmedText plain_trailing line, hcut, List.countP_append,
    List.countP_cons_of_neg (by simp [hspace])]
  omega

theorem weight_kept_le (flag : Bool) (line : List Char) :
    weight plain (kept flag line).toList ≤ line.countP plain - 1 := by
  cases h : kept flag line with
  | none => exact Nat.zero_le _
  | some e =>
    have hlt := plain_lt_of_kept h
    rw [Option.toList_some, weight_singleton]
    omega

theorem keptFrom_plainless : ∀ {lines : List (List Char)} (flag : Bool),
    (∀ line ∈ lines, line.countP plain = 0) → keptFrom flag lines = []
  | [], _, _ => rfl
  | line :: lines, flag, h => by
      have hnone : kept flag line = none := by
        cases hkept : kept flag line with
        | none => rfl
        | some e =>
          have hlt := plain_lt_of_kept hkept
          rw [h line List.mem_cons_self] at hlt
          exact absurd hlt (Nat.not_lt_zero _)
      rw [keptFrom, hnone, keptFrom_plainless _ fun l hl => h l (List.mem_cons_of_mem line hl)]
      rfl

/-! ## 5. Cut lines -/

theorem plain_concat (line : List Char) : (line ++ ['\\']).countP plain = line.countP plain := by
  have hcut : plain '\\' = false := by decide
  rw [List.countP_append, List.countP_singleton, hcut]
  simp

/-- What stands behind cuts. -/
def behind (rest : List (Mark × List Char)) : List Char := rest.flatMap fun c => ' ' :: c.2

theorem plain_behind_cons (mark : Mark) (next : List Char) (rest : List (Mark × List Char)) :
    (behind ((mark, next) :: rest)).countP plain
      = next.countP plain + (behind rest).countP plain := by
  have hspace : plain ' ' = false := by decide
  rw [behind, List.flatMap_cons, List.countP_append, List.countP_cons_of_neg (by simp [hspace]),
    ← behind]

/-- Pieces behind a cut weigh less than the text they are cut from. -/
theorem weight_cutLines_le : ∀ (rest : List (Mark × List Char)) (first : List Char) (flag : Bool),
    weight plain (keptFrom flag (cutLines first rest))
      ≤ first.countP plain + (behind rest).countP plain - 1
  | [], first, flag => by
      rw [cutLines, keptFrom, keptFrom, List.append_nil, behind, List.flatMap_nil,
        List.countP_nil, Nat.add_zero]
      exact weight_kept_le flag first
  | (.atEnd, next) :: rest, first, flag => by
      have hfirst := weight_kept_le flag (first ++ ['\\'])
      have hrest := weight_cutLines_le rest next (nextFlag flag (first ++ ['\\']))
      rw [plain_concat] at hfirst
      rw [cutLines, keptFrom, weight_append, plain_behind_cons]
      omega
  | (.ownLine, next) :: rest, first, flag => by
      have hfirst := weight_kept_le flag first
      have hmark := weight_kept_le (nextFlag flag first) ['\\']
      have hzero : ['\\'].countP plain = 0 := by decide
      have hrest := weight_cutLines_le rest next (nextFlag (nextFlag flag first) ['\\'])
      rw [cutLines, keptFrom, keptFrom, weight_append, weight_append, plain_behind_cons]
      omega

theorem plainless_cutLines : ∀ {rest : List (Mark × List Char)} {first : List Char},
    first.countP plain = 0 → (behind rest).countP plain = 0 →
      ∀ line ∈ cutLines first rest, line.countP plain = 0
  | [], first, hfirst, _, line, hline => by
      rwa [List.mem_singleton.mp hline]
  | (.atEnd, next) :: rest, first, hfirst, hrest, line, hline => by
      rw [plain_behind_cons] at hrest
      rcases List.mem_cons.mp hline with rfl | hline
      · rw [plain_concat, hfirst]
      · exact plainless_cutLines (by omega) (by omega) line hline
  | (.ownLine, next) :: rest, first, hfirst, hrest, line, hline => by
      rw [plain_behind_cons] at hrest
      rcases List.mem_cons.mp hline with rfl | hline
      · exact hfirst
      · rcases List.mem_cons.mp hline with rfl | hline
        · decide
        · exact plainless_cutLines (by omega) (by omega) line hline

/-- A blank last piece leaves the flag down. -/
theorem foldl_cutLines_blank : ∀ (rest : List (Mark × List Char)) (first : List Char)
    (flag : Bool), (∀ c ∈ first, isTrailing c = true) → (∀ c ∈ behind rest, isTrailing c = true) →
      (cutLines first rest).foldl nextFlag flag = false
  | [], first, flag, hfirst, _ => by
      have hnil : trimmedText first = [] := by
        rw [trimmedText, List.rdropWhile_eq_nil_iff]
        exact fun c hc => hfirst c ((List.dropWhile_suffix isBlank).subset hc)
      rw [cutLines, List.foldl_cons, List.foldl_nil, nextFlag, hnil]
      rfl
  | (mark, next) :: rest, first, flag, _, hrest => by
      have hsplit : ∀ c, c ∈ next ∨ c ∈ behind rest → isTrailing c = true := by
        intro c hc
        refine hrest c ?_
        rw [behind, List.flatMap_cons, ← behind, List.mem_append, List.mem_cons]
        exact hc.imp Or.inr id
      have hnext := fun flag => foldl_cutLines_blank rest next flag
        (fun c hc => hsplit c (Or.inl hc)) (fun c hc => hsplit c (Or.inr hc))
      cases mark with
      | atEnd => exact hnext _
      | ownLine => exact hnext _

section Cut

open CutInstruction SourceLine

variable {i : CutInstruction} (h : (cut i).WellFormed)

include h

/-- Every part of a cut line is short enough. -/
theorem short_lineOf {args : List Char} (hlen : args.length ≤ (i.args ++ i.more).length + 1) :
    (i.lineOf args).length ≤ 512 := by
  have hshort := h.1.short
  rw [CutInstruction.joined, lineOf, List.length_append, List.length_append,
    List.length_cons] at hshort
  rw [lineOf, List.length_append, List.length_append, List.length_cons]
  omega

theorem kept_joined : kept false i.joined
    = some (i.keyword.2, (i.args ++ i.more).rdropWhile isTrailing) := by
  rw [CutInstruction.joined, kept_lineOf i (short_lineOf h (by omega)), if_neg h.2.1]

theorem weight_joined {p : Char → Bool} (hp : ∀ c, isTrailing c = true → p c = false) :
    weight p (kept false i.joined).toList = i.args.countP p + i.more.countP p := by
  rw [kept_joined h, Option.toList_some, weight_singleton, countP_rdropWhile hp,
    List.countP_append]

/-- Its argument text ends with a character that counts. -/
theorem plain_joined_pos : 0 < i.args.countP plain + i.more.countP plain := by
  obtain ⟨c, hlast, hc⟩ := plain_last h.2.1 h.2.2
  rw [← List.countP_append, ← countP_rdropWhile plain_trailing, List.countP_pos_iff]
  exact ⟨c, List.mem_of_getLast? hlast, hc⟩

/-- No backslash stands at the end, so text without weight is blank. -/
theorem behind_blank (hzero : i.more.countP plain = 0) : ∀ c ∈ i.more, isTrailing c = true := by
  rw [← List.rdropWhile_eq_nil_iff]
  by_contra hne
  have hback := h.2.2
  rw [rdropWhile_append, if_neg hne, List.getLast?_append_of_ne_nil _ hne] at hback
  obtain ⟨c, hlast, hc⟩ := plain_last hne hback
  have hmem := (List.rdropWhile_prefix isTrailing i.more).subset (List.mem_of_getLast? hlast)
  exact List.countP_eq_zero.mp hzero c hmem hc

theorem weight_first (flag : Bool) {p : Char → Bool}
    (hp : ∀ c, isTrailing c = true → p c = false) :
    weight p (kept flag (i.lineOf i.args)).toList = if flag then 0 else i.args.countP p :=
  weight_kept_lineOf hp i (short_lineOf h (by rw [List.length_append]; omega)) flag

theorem weight_marked (flag : Bool) {p : Char → Bool}
    (hp : ∀ c, isTrailing c = true → p c = false) :
    weight p (kept flag (i.lineOf i.args ++ ['\\'])).toList
      = if flag then 0 else (i.args ++ ['\\']).countP p := by
  have hline : i.lineOf i.args ++ ['\\'] = i.lineOf (i.args ++ ['\\']) := by
    simp [lineOf]
  rw [hline]
  refine weight_kept_lineOf hp i (short_lineOf h ?_) flag
  rw [List.length_append, List.length_append, List.length_singleton]
  omega

/-- A cut line stores no more than the joined one, and as much only if
just whitespace stands behind the first cut. -/
theorem weight_cut_le (flag : Bool) :
    weight plain (keptFrom flag (cut i).physical) ≤ weight plain (kept false i.joined).toList ∧
    (weight plain (keptFrom flag (cut i).physical) = weight plain (kept false i.joined).toList →
      flag = false ∧ i.more.countP plain = 0) := by
  have hpos := plain_joined_pos h
  have hmore : i.more = behind i.rest := rfl
  rw [weight_joined h plain_trailing, SourceLine.physical]
  cases hrest : i.rest with
  | nil =>
    rw [hrest, behind, List.flatMap_nil] at hmore
    rw [cutLines, keptFrom, keptFrom, List.append_nil, weight_first h flag plain_trailing]
    rw [hmore, List.countP_nil] at hpos ⊢
    cases flag with
    | true => exact ⟨Nat.zero_le _, fun he => absurd hpos (by rw [← he]; simp)⟩
    | false => exact ⟨Nat.le_refl _, fun _ => ⟨rfl, rfl⟩⟩
  | cons c rest =>
    obtain ⟨mark, next⟩ := c
    have hsum : i.more.countP plain = next.countP plain + (behind rest).countP plain := by
      rw [hmore, hrest, plain_behind_cons]
    cases mark with
    | atEnd =>
      have htail := weight_cutLines_le rest next
        (nextFlag flag (i.lineOf i.args ++ ['\\']))
      rw [cutLines, keptFrom, weight_append, weight_marked h flag plain_trailing, plain_concat]
      cases flag with
      | true =>
        simp only [if_true]
        exact ⟨by omega, fun he => absurd he (by omega)⟩
      | false =>
        simp only [Bool.false_eq_true, if_false]
        exact ⟨by omega, fun he => ⟨trivial, by omega⟩⟩
    | ownLine =>
      have hmark := weight_kept_le (nextFlag flag (i.lineOf i.args)) ['\\']
      have hzero : ['\\'].countP plain = 0 := by decide
      have htail := weight_cutLines_le rest next
        (nextFlag (nextFlag flag (i.lineOf i.args)) ['\\'])
      rw [cutLines, keptFrom, keptFrom, weight_append, weight_append,
        weight_first h flag plain_trailing]
      cases flag with
      | true =>
        simp only [if_true]
        exact ⟨by omega, fun he => absurd he (by omega)⟩
      | false =>
        simp only [Bool.false_eq_true, if_false]
        exact ⟨by omega, fun he => ⟨trivial, by omega⟩⟩

/-- With whitespace behind the first cut, a backslash at its end stays in
the argument. -/
theorem weight_solid_cut (hblank : ∀ c ∈ i.more, isTrailing c = true) :
    weight solid (keptFrom false (cut i).physical)
      = weight solid (kept false i.joined).toList
        + if i.rest.head?.map Prod.fst = some .atEnd then 1 else 0 := by
  have hmore : i.more = behind i.rest := rfl
  have hnone : i.more.countP solid = 0 := by
    rw [List.countP_eq_zero]
    intro c hc
    rw [solid_trailing c (hblank c hc)]
    exact Bool.false_ne_true
  have hplain : i.more.countP plain = 0 := by
    rw [List.countP_eq_zero]
    intro c hc
    rw [plain_trailing c (hblank c hc)]
    exact Bool.false_ne_true
  rw [weight_joined h solid_trailing, hnone, SourceLine.physical]
  cases hrest : i.rest with
  | nil =>
    rw [cutLines, keptFrom, keptFrom, List.append_nil, weight_first h false solid_trailing]
    simp
  | cons c rest =>
    obtain ⟨mark, next⟩ := c
    have hsum : next.countP plain + (behind rest).countP plain = 0 := by
      rw [← plain_behind_cons mark, ← hrest, ← hmore, hplain]
    have htail : ∀ line ∈ cutLines next rest, line.countP plain = 0 :=
      plainless_cutLines (by omega) (by omega)
    cases mark with
    | atEnd =>
      have hback : ['\\'].countP solid = 1 := by decide
      rw [cutLines, keptFrom, keptFrom_plainless _ htail, List.append_nil,
        weight_marked h false solid_trailing, List.countP_append, hback]
      simp
    | ownLine =>
      have hmark : ∀ line ∈ ['\\'] :: cutLines next rest, line.countP plain = 0 := by
        rw [List.forall_mem_cons]
        exact ⟨by decide, htail⟩
      rw [cutLines, keptFrom, keptFrom_plainless _ hmark, List.append_nil,
        weight_first h false solid_trailing]
      simp

/-- The lines of a harmless cut store what the joined line does. -/
theorem keptFrom_harmless (hcut : (cut i).Harmless) :
    keptFrom false (cut i).physical = (kept false i.joined).toList ∧
      (cut i).physical.foldl nextFlag false = false := by
  obtain ⟨hmark, hblank⟩ := hcut
  have hmore : i.more = behind i.rest := rfl
  have hplain : i.more.countP plain = 0 := by
    rw [List.countP_eq_zero]
    intro c hc
    rw [plain_trailing c (hblank c hc)]
    exact Bool.false_ne_true
  -- the first line is the joined one up to whitespace
  have hargs : i.args.rdropWhile isTrailing = (i.args ++ i.more).rdropWhile isTrailing := by
    rw [rdropWhile_append, if_pos (List.rdropWhile_eq_nil_iff.mpr hblank)]
  have hne := h.2.1
  have hfirst : kept false (i.lineOf i.args) = kept false i.joined := by
    rw [kept_joined h, ← hargs, kept_lineOf i (short_lineOf h (by rw [List.length_append]; omega)),
      if_neg (by rwa [hargs])]
  rw [SourceLine.physical]
  cases hrest : i.rest with
  | nil =>
    rw [cutLines, keptFrom, keptFrom, List.append_nil, hfirst]
    exact ⟨rfl, nextFlag_quiet (not_marker_of_kept (hfirst.trans (kept_joined h)))⟩
  | cons c rest =>
    obtain ⟨mark, next⟩ := c
    rw [hrest] at hmark
    cases mark with
    | atEnd => exact absurd rfl hmark
    | ownLine =>
      have hsum : next.countP plain + (behind rest).countP plain = 0 := by
        rw [← plain_behind_cons .ownLine, ← hrest, ← hmore, hplain]
      have hnext : ∀ line ∈ ['\\'] :: cutLines next rest, line.countP plain = 0 := by
        rw [List.forall_mem_cons]
        exact ⟨by decide, plainless_cutLines (by omega) (by omega)⟩
      have hsplit : ∀ c, c ∈ next ∨ c ∈ behind rest → isTrailing c = true := by
        intro c hc
        refine hblank c ?_
        rw [hmore, hrest, behind, List.flatMap_cons, ← behind, List.mem_append, List.mem_cons]
        exact hc.imp Or.inr id
      rw [cutLines, keptFrom, keptFrom_plainless _ hnext, List.append_nil, hfirst]
      exact ⟨rfl, foldl_cutLines_blank rest next _ (fun c hc => hsplit c (Or.inl hc))
        (fun c hc => hsplit c (Or.inr hc))⟩

end Cut

/-! ## 6. Whole files -/

section File

variable {l : SourceLine} (h : l.WellFormed)

include h

theorem fits_joined : SourceLine.Fits l.joined := by
  cases l with
  | whole line => exact h.1
  | cut i => exact h.1

theorem nextFlag_joined : nextFlag false l.joined = false := by
  refine nextFlag_quiet ?_
  cases l with
  | whole line =>
    intro hmarker
    have hline : trimmedText line = ['\\'] := hmarker
    have hhash := h.2 (by rw [hline]; rfl)
    rw [hline] at hhash
    exact absurd hhash (by decide)
  | cut i => exact not_marker_of_kept (kept_joined h)

omit h in
/-- A physical line is part of the joined one, up to its marker. -/
theorem mem_cutLines : ∀ {rest : List (Mark × List Char)} {first line : List Char},
    line ∈ cutLines first rest →
      ∃ w, w <:+: first ++ behind rest ∧ (line = w ∨ line = w ++ ['\\'])
  | [], first, line, hline => by
      rw [List.mem_singleton.mp hline]
      exact ⟨first, (List.prefix_append _ _).isInfix, Or.inl rfl⟩
  | (mark, next) :: rest, first, line, hline => by
      have hlater : line ∈ cutLines next rest → ∃ w,
          w <:+: first ++ behind ((mark, next) :: rest) ∧ (line = w ∨ line = w ++ ['\\']) := by
        intro hline
        obtain ⟨w, hw, hend⟩ := mem_cutLines hline
        refine ⟨w, hw.trans ⟨first ++ [' '], [], ?_⟩, hend⟩
        rw [behind, behind, List.flatMap_cons]
        simp
      cases mark with
      | atEnd =>
        rcases List.mem_cons.mp hline with rfl | hline
        · exact ⟨first, (List.prefix_append _ _).isInfix, Or.inr rfl⟩
        · exact hlater hline
      | ownLine =>
        rcases List.mem_cons.mp hline with rfl | hline
        · exact ⟨line, (List.prefix_append _ _).isInfix, Or.inl rfl⟩
        · rcases List.mem_cons.mp hline with rfl | hline
          · exact ⟨[], List.nil_infix, Or.inr rfl⟩
          · exact hlater hline

/-- The lines of the split file are short and clean as well. -/
theorem physical_fits : ∀ line ∈ l.physical,
    '\n' ∉ line ∧ NulFree line ∧ line.length ≤ 1022 := by
  intro line hline
  obtain ⟨w, hw, hend⟩ : ∃ w, w <:+: l.joined ∧ (line = w ∨ line = w ++ ['\\']) := by
    cases l with
    | whole text => exact ⟨text, List.infix_rfl, Or.inl (List.mem_singleton.mp hline)⟩
    | cut i =>
      have hjoined : (SourceLine.cut i).joined = i.lineOf i.args ++ behind i.rest := by
        show i.indent ++ i.keyword.1.toList ++ ' ' :: (i.args ++ i.more)
          = i.indent ++ i.keyword.1.toList ++ ' ' :: i.args ++ i.more
        rw [List.append_assoc (i.indent ++ i.keyword.1.toList)]
        rfl
      rw [hjoined]
      exact mem_cutLines hline
  obtain ⟨hnl, hnul, hshort⟩ := fits_joined h
  have hlen := hw.length_le
  rcases hend with rfl | rfl
  · exact ⟨fun hm => hnl (hw.subset hm), hnul.of_subset hw.subset, by omega⟩
  · refine ⟨?_, ?_, by rw [List.length_append, List.length_singleton]; omega⟩
    · rw [List.mem_append, not_or]
      exact ⟨fun hm => hnl (hw.subset hm), by decide⟩
    · rw [nulFree_append]
      exact ⟨hnul.of_subset hw.subset, by decide⟩

/-- What a whole line stores weighs something. -/
theorem kept_whole_none {line : List Char} (hl : l = .whole line)
    (hzero : weight plain (kept false line).toList = 0) : kept false line = none := by
  subst hl
  cases hkept : kept false line with
  | none => rfl
  | some e =>
    obtain ⟨t, args⟩ := e
    obtain ⟨-, k, hk, rest, hcut, rfl⟩ := kept_some hkept
    -- the line ends with a character that is neither whitespace nor a backslash
    have hne : trimmedText line ≠ [] := by rw [hcut]; simp
    have hhash : (trimmedText line).head? ≠ some '#' := by
      rw [hcut]
      exact head_keyword k hk rest
    obtain ⟨c, hlast, hcount⟩ := plain_last hne fun hback => hhash (h.2 hback)
    rw [← trimmedText, hcut, List.getLast?_append_of_ne_nil _ (List.cons_ne_nil _ _), List.getLast?_cons,
      Option.some.injEq] at hlast
    have hmem : c ∈ rest := by
      cases hrest : rest.getLast? with
      | none =>
        rw [hrest] at hlast
        rw [← hlast] at hcount
        exact absurd hcount (by decide)
      | some d =>
        rw [hrest] at hlast
        rw [← hlast]
        exact List.mem_of_getLast? hrest
    have hlen := (List.rdropWhile_prefix isTrailing (line.dropWhile isBlank)).length_le.trans
      (List.dropWhile_suffix isBlank).length_le
    have hshort := h.1.short
    rw [← trimmedText, hcut, List.length_append, List.length_cons] at hlen
    rw [hkept, Option.toList_some, weight_singleton,
      List.take_of_length_le (by rw [MAX_ARG_LEN]; omega), List.countP_eq_zero] at hzero
    exact absurd hcount (hzero c hmem)

/-- No line of the split file stores more. -/
theorem weight_line_le (flag : Bool) :
    weight plain (keptFrom flag l.physical) ≤ weight plain (kept false l.joined).toList := by
  cases l with
  | whole line =>
    rw [SourceLine.physical, keptFrom, keptFrom, List.append_nil, SourceLine.joined]
    cases flag with
    | true => exact Nat.zero_le _
    | false => exact Nat.le_refl _
  | cut i => exact (weight_cut_le h flag).1

/-- Where it stores as much, only a backslash can have been added. -/
theorem solid_line {flag : Bool} (heq : weight plain (keptFrom flag l.physical)
      = weight plain (kept false l.joined).toList) :
    weight solid (kept false l.joined).toList ≤ weight solid (keptFrom flag l.physical) ∧
    (weight solid (keptFrom flag l.physical) = weight solid (kept false l.joined).toList →
      l.Harmless) := by
  cases l with
  | whole line =>
    refine ⟨?_, fun _ => trivial⟩
    rw [SourceLine.physical, keptFrom, keptFrom, List.append_nil, SourceLine.joined] at heq ⊢
    cases flag with
    | true => rw [kept_whole_none h rfl heq.symm, kept_dropped]
    | false => exact Nat.le_refl _
  | cut i =>
    obtain ⟨rfl, hzero⟩ := (weight_cut_le h flag).2 heq
    have hblank := behind_blank h hzero
    have hsolid := weight_solid_cut h hblank
    have hjoined : (SourceLine.cut i).joined = i.joined := rfl
    rw [hjoined]
    refine ⟨by omega, fun hsame => ⟨fun hmark => ?_, hblank⟩⟩
    rw [if_pos hmark] at hsolid
    omega

end File

/-- What the joined lines store. -/
def joinedKept (lines : List SourceLine) : List (InstructionType × List Char) :=
  lines.flatMap fun l => (kept false l.joined).toList

theorem keptFrom_joined : ∀ {lines : List SourceLine}, (∀ l ∈ lines, l.WellFormed) →
    keptFrom false (lines.map SourceLine.joined) = joinedKept lines
  | [], _ => rfl
  | l :: lines, h => by
      rw [List.map_cons, keptFrom, nextFlag_joined (h l List.mem_cons_self),
        keptFrom_joined fun l' hl' => h l' (List.mem_cons_of_mem l hl')]
      rfl

theorem weight_lines_le : ∀ {lines : List SourceLine} (flag : Bool), (∀ l ∈ lines, l.WellFormed) →
    weight plain (keptFrom flag (lines.flatMap SourceLine.physical))
      ≤ weight plain (joinedKept lines)
  | [], _, _ => Nat.le_refl _
  | l :: lines, flag, h => by
      have hfirst := weight_line_le (h l List.mem_cons_self) flag
      have hrest := weight_lines_le (l.physical.foldl nextFlag flag)
        fun l' hl' => h l' (List.mem_cons_of_mem l hl')
      rw [List.flatMap_cons, keptFrom_append, weight_append, joinedKept, List.flatMap_cons,
        weight_append, ← joinedKept]
      omega

/-- Files of equal weights are harmless. -/
theorem solid_lines : ∀ {lines : List SourceLine} (flag : Bool), (∀ l ∈ lines, l.WellFormed) →
    weight plain (keptFrom flag (lines.flatMap SourceLine.physical))
      = weight plain (joinedKept lines) →
    weight solid (joinedKept lines)
      ≤ weight solid (keptFrom flag (lines.flatMap SourceLine.physical)) ∧
    (weight solid (keptFrom flag (lines.flatMap SourceLine.physical))
      = weight solid (joinedKept lines) → ∀ l ∈ lines, l.Harmless)
  | [], _, _, _ => ⟨Nat.le_refl _, fun _ => by simp⟩
  | l :: lines, flag, h, heq => by
      have hl := h l List.mem_cons_self
      have hlines := fun l' hl' => h l' (List.mem_cons_of_mem l hl')
      have hfirst := weight_line_le hl flag
      have hrest := weight_lines_le (l.physical.foldl nextFlag flag) hlines
      rw [List.flatMap_cons, keptFrom_append, weight_append, joinedKept, List.flatMap_cons,
        weight_append, ← joinedKept] at heq
      have hline : weight plain (keptFrom flag l.physical)
          = weight plain (kept false l.joined).toList := by omega
      obtain ⟨hsolid, hone⟩ := solid_line hl hline
      obtain ⟨hsolids, hall⟩ := solid_lines (l.physical.foldl nextFlag flag) hlines (by omega)
      rw [List.flatMap_cons, keptFrom_append, weight_append, joinedKept, List.flatMap_cons,
        weight_append, ← joinedKept]
      refine ⟨by omega, fun hsame => ?_⟩
      rw [List.forall_mem_cons]
      exact ⟨hone (by omega), hall (by omega)⟩

theorem keptFrom_all_harmless : ∀ {lines : List SourceLine}, (∀ l ∈ lines, l.WellFormed) →
    (∀ l ∈ lines, l.Harmless) →
      keptFrom false (lines.flatMap SourceLine.physical) = joinedKept lines
  | [], _, _ => rfl
  | l :: lines, h, hharmless => by
      have hl := h l List.mem_cons_self
      obtain ⟨hfirst, hflag⟩ : keptFrom false l.physical = (kept false l.joined).toList ∧
          l.physical.foldl nextFlag false = false := by
        cases l with
        | whole line => exact ⟨List.append_nil _, nextFlag_joined hl⟩
        | cut i => exact keptFrom_harmless hl (hharmless _ List.mem_cons_self)
      rw [List.flatMap_cons, keptFrom_append, hfirst, hflag,
        keptFrom_all_harmless (fun l' hl' => h l' (List.mem_cons_of_mem l hl'))
          (fun l' hl' => hharmless l' (List.mem_cons_of_mem l hl'))]
      rfl

/-- The words a parse of physical lines returns. -/
theorem parse_words {env : ParseEnv} (henv : env.Granted) {lines : List (List Char)}
    (h : ∀ line ∈ lines, '\n' ∉ line ∧ NulFree line ∧ line.length ≤ 1022) :
    ∃ dockerfile, parseText env (['\n'].intercalate lines) = some dockerfile ∧
      dockerfile.words = (keptFrom false lines).map (fun e => (e.1, argWords e.2)) := by
  obtain ⟨dockerfile, hparse, hentries⟩ := parseText_rounds henv (['\n'].intercalate lines)
  refine ⟨dockerfile, hparse, ?_⟩
  rw [storedRounds_eq henv, roundsFrom_entries] at hentries
  rw [← roundEntries_lines lines 1 false h, ← hentries, List.map_map, List.map_map]
  rfl

section Parse

variable {env : ParseEnv} {lines : List SourceLine} (henv : env.Granted)
  (hlines : ∀ l ∈ lines, l.WellFormed)

include henv hlines

theorem parseText_cut_iff :
    ∃ split joined,
      parseText env (['\n'].intercalate (lines.flatMap SourceLine.physical)) = some split ∧
      parseText env (['\n'].intercalate (lines.map SourceLine.joined)) = some joined ∧
      (split.words = joined.words ↔ ∀ l ∈ lines, l.Harmless) := by
  have hphysical : ∀ line ∈ lines.flatMap SourceLine.physical,
      '\n' ∉ line ∧ NulFree line ∧ line.length ≤ 1022 := by
    intro line hline
    obtain ⟨l, hl, hline⟩ := List.mem_flatMap.mp hline
    exact physical_fits (hlines l hl) line hline
  have hjoined : ∀ line ∈ lines.map SourceLine.joined,
      '\n' ∉ line ∧ NulFree line ∧ line.length ≤ 1022 := by
    intro line hline
    obtain ⟨l, hl, rfl⟩ := List.mem_map.mp hline
    obtain ⟨hnl, hnul, hshort⟩ := fits_joined (hlines l hl)
    exact ⟨hnl, hnul, by omega⟩
  obtain ⟨split, hparse, hwords⟩ := parse_words henv hphysical
  obtain ⟨joined, hparse', hwords'⟩ := parse_words henv hjoined
  refine ⟨split, joined, hparse, hparse', ?_⟩
  rw [hwords, hwords', keptFrom_joined hlines]
  constructor
  · intro hsame
    have hplain := weight_eq_of_words plain_trailing hsame
    exact (solid_lines false hlines hplain).2 (weight_eq_of_words solid_trailing hsame)
  · intro hharmless
    rw [keptFrom_all_harmless hlines hharmless]

/-- A file and its joined form parse to the same instructions exactly when
every cut is harmless. -/
theorem cut_parse_iff {denied denied' : Bool} {cwd cwd' : Path} {fs fs' : FileSystem}
    {filePath filePath' : List Char}
    (hsplit : fs.openRead cwd filePath denied
      = some (['\n'].intercalate (lines.flatMap SourceLine.physical)))
    (hjoined : fs'.openRead cwd' filePath' denied'
      = some (['\n'].intercalate (lines.map SourceLine.joined))) :
    ∃ split joined, parseDockerfile env denied cwd fs filePath = some split ∧
      parseDockerfile env denied' cwd' fs' filePath' = some joined ∧
      (split.words = joined.words ↔ ∀ l ∈ lines, l.Harmless) := by
  obtain ⟨split, joined, hparse, hparse', hsame⟩ := parseText_cut_iff henv hlines
  refine ⟨split, joined, ?_, ?_, hsame⟩
  · rw [parseDockerfile, hsplit, Option.bind_some, hparse]
  · rw [parseDockerfile, hjoined, Option.bind_some, hparse']

end Parse

/-- `RUN echo`, a cut, and `hello`. -/
def cutEcho (mark : Mark) : CutInstruction where
  indent := []
  keyword := ("RUN", .RUN)
  args := "echo".toList
  rest := [(mark, "hello".toList)]
  blank := by simp
  known := by decide

theorem wellFormed_cutEcho (mark : Mark) :
    ∀ l ∈ [SourceLine.cut (cutEcho mark)], l.WellFormed := by
  rw [List.forall_mem_singleton]
  cases mark with
  | atEnd => exact ⟨⟨by decide, by decide, by decide⟩, by decide, by decide⟩
  | ownLine => exact ⟨⟨by decide, by decide, by decide⟩, by decide, by decide⟩

/-- A file system with one file at the root. -/
def hostOf (text : List Char) : FileSystem :=
  .ofEntries [([], .dir), (["Dockerfile".toList], .file text)] (by rfl)

/-- `RUN echo`, a backslash on a line of its own, and a space. -/
def blankEcho : CutInstruction :=
  { cutEcho .ownLine with rest := [(.ownLine, " ".toList)] }

theorem echo_compared :
    ∃ split joined,
      parseDockerfile grantedEnv false [] (hostOf "RUN echo\n\\\n ".toList)
        "Dockerfile".toList = some split ∧
      parseDockerfile grantedEnv false [] (hostOf "RUN echo  ".toList)
        "Dockerfile".toList = some joined ∧
      split.words = joined.words := by
  have hwell : ∀ l ∈ [SourceLine.cut blankEcho], l.WellFormed := by
    rw [List.forall_mem_singleton]
    exact ⟨⟨by decide, by decide, by decide⟩, by decide, by decide⟩
  have hgranted : grantedEnv.Granted := ⟨rfl, rfl, fun _ => rfl⟩
  have hcut : (hostOf "RUN echo\n\\\n ".toList).openRead [] "Dockerfile".toList false
      = some (['\n'].intercalate ([SourceLine.cut blankEcho].flatMap SourceLine.physical)) := by
    decide
  have hwhole : (hostOf "RUN echo  ".toList).openRead [] "Dockerfile".toList false
      = some (['\n'].intercalate ([SourceLine.cut blankEcho].map SourceLine.joined)) := by
    decide
  obtain ⟨split, joined, hsplit, hjoined, hiff⟩ := cut_parse_iff hgranted hwell hcut hwhole
  refine ⟨split, joined, hsplit, hjoined, hiff.mpr ?_⟩
  rw [List.forall_mem_singleton]
  exact ⟨by decide, by decide⟩

/-- The file with the cut parses like the joined one. -/
def JoinsEcho (mark : Mark) : Prop :=
  ∃ split joined,
    parseText grantedEnv (['\n'].intercalate (SourceLine.cut (cutEcho mark)).physical)
      = some split ∧
    parseText grantedEnv (SourceLine.cut (cutEcho mark)).joined = some joined ∧
    split.words = joined.words

theorem not_joinsEcho (mark : Mark) : ¬ JoinsEcho mark := by
  rintro ⟨split, joined, hsplit, hjoined, hsame⟩
  have hgranted : grantedEnv.Granted := ⟨rfl, rfl, fun _ => rfl⟩
  obtain ⟨split', joined', hsplit', hjoined', hiff⟩ :=
    parseText_cut_iff hgranted (wellFormed_cutEcho mark)
  rw [List.flatMap_singleton, hsplit] at hsplit'
  rw [List.map_singleton, List.intercalate_singleton, hjoined] at hjoined'
  rw [← Option.some.inj hsplit', ← Option.some.inj hjoined', List.forall_mem_singleton] at hiff
  obtain ⟨-, hblank⟩ := hiff.mp hsame
  have hmem : 'h' ∈ (cutEcho mark).more := by
    cases mark <;> decide
  exact absurd (hblank 'h' hmem) (by decide)

/-- With either mark, `hello` is not an argument of `RUN`. -/
theorem continued_text_lost : ¬ JoinsEcho .atEnd ∧ ¬ JoinsEcho .ownLine :=
  ⟨not_joinsEcho .atEnd, not_joinsEcho .ownLine⟩

end DockerClone.Build
