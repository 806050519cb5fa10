/-
DockerClone.Build.ParseTheorems — what `parse_dockerfile` makes of a text.

`lineEntry` is the specification, one line at a time: the trimmed text of
the line is a keyword, one space and a rest, or the line is no
instruction. `parse_eq_lineEntries` says that the loop stores exactly the
entries of the lines, in order.

The loop differs from the specification in two ways, and both come to
nothing. `trim_whitespace` never cuts the first character of what it
keeps, so an empty line stays a newline; a newline is no keyword either.
And `strchr` finds the first space, while a keyword has none.

`parseLine_cases` is what one round can do to the dockerfile, for any
text. Section 5 derives from it how the summary fields follow the stored
instructions.
-/
import DockerClone.Build.Dockerfile

namespace DockerClone.Build

open DockerClone.CLib DockerClone.Os

/-! ## 1. The specification -/

/-- The keywords and the types they stand for. -/
def keywords : List (String × InstructionType) :=
  [ ("FROM", .FROM), ("RUN", .RUN), ("CMD", .CMD), ("LABEL", .LABEL), ("EXPOSE", .EXPOSE),
    ("ENV", .ENV), ("ADD", .ADD), ("COPY", .COPY), ("ENTRYPOINT", .ENTRYPOINT),
    ("VOLUME", .VOLUME), ("USER", .USER), ("WORKDIR", .WORKDIR), ("ARG", .ARG),
    ("ONBUILD", .ONBUILD), ("STOPSIGNAL", .STOPSIGNAL), ("HEALTHCHECK", .HEALTHCHECK),
    ("SHELL", .SHELL) ]

/-- The lines of a text. A newline at the end opens an empty last line,
which holds no instruction. -/
def physicalLines (text : List Char) : List (List Char) := text.splitOn '\n'

/-- A line without leading spaces and tabs and without trailing spaces,
tabs, returns and newlines. -/
def trimmedText (line : List Char) : List Char :=
  (line.dropWhile isBlank).rdropWhile isTrailing

/-- What is compared of a stored instruction. -/
structure Entry where
  type : InstructionType
  args : List Char
  lineNumber : Int32
  deriving DecidableEq, Repr

/-- The instruction a text is if it starts with this keyword and a
space. -/
def keywordEntry (lineNumber : Int32) (text : List Char) (k : String × InstructionType) :
    Option Entry :=
  if (k.1.toList ++ [' ']).isPrefixOf text then
    some
      { type := k.2
        args := (text.drop (k.1.toList.length + 1)).take (MAX_ARG_LEN - 1)
        lineNumber := lineNumber }
  else none

/-- The instruction on a line: a keyword, one space and a rest. -/
def lineEntry (lineNumber : Int32) (line : List Char) : Option Entry :=
  if (trimmedText line).head? = some '#' then none
  else keywords.findSome? (keywordEntry lineNumber (trimmedText line))

/-- The instructions on numbered lines; a line number is an `int`. -/
def numberedEntries (lines : List (List Char × Nat)) : List Entry :=
  lines.filterMap fun l => lineEntry (Int32.ofNat l.2) l.1

/-- The instructions of a text, its lines numbered from 1. -/
def lineEntries (text : List Char) : List Entry :=
  numberedEntries ((physicalLines text).zipIdx 1)

def DockerfileInstruction.entry (i : DockerfileInstruction) : Entry where
  type := i.type
  args := cstr i.args
  lineNumber := i.lineNumber

/-- Every request for memory is granted. -/
structure ParseEnv.Granted (env : ParseEnv) : Prop where
  dockerfile : env.dockerfileAllocated = true
  instructions : env.instructionsAllocated = true
  resized : ∀ capacity, env.resized capacity = true

/-! ## 2. Keywords -/

theorem getInstructionType_keyword : ∀ k ∈ keywords,
    getInstructionType k.1.toList = k.2 ∧ k.2 ≠ .UNKNOWN ∧ ' ' ∉ k.1.toList := by
  decide

theorem keyword_of_known {w : List Char} (h : getInstructionType w ≠ .UNKNOWN) :
    ∃ k ∈ keywords, k.1.toList = w := by
  by_contra hno
  have hne : ∀ k ∈ keywords, w ≠ k.1.toList := fun k hk he => hno ⟨k, hk, he.symm⟩
  simp only [keywords, List.forall_mem_cons] at hne
  obtain ⟨h1, h2, h3, h4, h5, h6, h7, h8, h9, h10, h11, h12, h13, h14, h15, h16, h17, -⟩ := hne
  apply h
  unfold getInstructionType
  rw [if_neg h1, if_neg h2, if_neg h3, if_neg h4, if_neg h5, if_neg h6, if_neg h7, if_neg h8,
    if_neg h9, if_neg h10, if_neg h11, if_neg h12, if_neg h13, if_neg h14, if_neg h15,
    if_neg h16, if_neg h17]

/-- A keyword and a space in front of a text whose first space is known. -/
theorem keyword_prefix_iff {k : String × InstructionType} (hk : k ∈ keywords)
    {word rest : List Char} (hword : ' ' ∉ word) :
    k.1.toList ++ [' '] <+: word ++ ' ' :: rest ↔ k.1.toList = word := by
  have hspace := (getInstructionType_keyword k hk).2.2
  constructor
  · rintro ⟨t, ht⟩
    have hcut := congrArg (List.takeWhile (fun c => c != ' ')) ht
    have hone : ∀ {w : List Char}, ' ' ∉ w → ∀ c ∈ w, (c != ' ') = true := by
      intro w hw c hc
      have : c ≠ ' ' := fun e => hw (e ▸ hc)
      simpa using this
    rw [List.append_assoc, List.takeWhile_append_of_pos (hone hspace),
      List.takeWhile_append_of_pos (hone hword)] at hcut
    simpa using hcut
  · rintro rfl
    exact ⟨rest, by simp⟩

theorem keywordEntry_eq {k : String × InstructionType} (hk : k ∈ keywords) (n : Int32)
    {word rest : List Char} (hword : ' ' ∉ word) :
    keywordEntry n (word ++ ' ' :: rest) k = if k.1.toList = word then
      some
        { type := getInstructionType word, args := rest.take (MAX_ARG_LEN - 1), lineNumber := n }
      else none := by
  have hkeyword : k.1.toList ++ [' '] <+: word ++ ' ' :: rest ↔ k.1.toList = word :=
    keyword_prefix_iff hk hword
  rw [keywordEntry]
  by_cases hkw : k.1.toList = word
  · have hdrop : (word ++ ' ' :: rest).drop (word.length + 1) = rest := by
      rw [← List.drop_drop, List.drop_left]
      rfl
    rw [if_pos (List.isPrefixOf_iff_prefix.mpr (hkeyword.mpr hkw)), if_pos hkw, hkw, hdrop,
      ← hkw, (getInstructionType_keyword k hk).1]
  · rw [if_neg (fun h => hkw (hkeyword.mp (List.isPrefixOf_iff_prefix.mp h))), if_neg hkw]

/-- The specification at the first space of the trimmed text. -/
theorem lineEntry_eq {line word rest : List Char} (n : Int32)
    (hhash : (trimmedText line).head? ≠ some '#') (htext : trimmedText line = word ++ ' ' :: rest)
    (hword : ' ' ∉ word) :
    lineEntry n line = if getInstructionType word = .UNKNOWN then none
      else some
        { type := getInstructionType word, args := rest.take (MAX_ARG_LEN - 1)
          lineNumber := n } := by
  rw [lineEntry, if_neg hhash, htext]
  by_cases hunknown : getInstructionType word = .UNKNOWN
  · rw [if_pos hunknown, List.findSome?_eq_none_iff]
    intro k hk
    rw [keywordEntry_eq hk n hword, if_neg]
    rintro rfl
    have hkw := getInstructionType_keyword k hk
    exact hkw.2.1 (hkw.1.symm.trans hunknown)
  · rw [if_neg hunknown]
    obtain ⟨k, hk, hkw⟩ := keyword_of_known hunknown
    have hsome : (keywords.findSome? (keywordEntry n (word ++ ' ' :: rest))).isSome := by
      rw [List.findSome?_isSome_iff]
      exact ⟨k, hk, by rw [keywordEntry_eq hk n hword, if_pos hkw]; rfl⟩
    obtain ⟨entry, hentry⟩ := Option.isSome_iff_exists.mp hsome
    obtain ⟨k', hk', hfound⟩ := List.exists_of_findSome?_eq_some hentry
    rw [hentry, ← hfound]
    rw [keywordEntry_eq hk' n hword] at hfound ⊢
    split at hfound
    · rw [if_pos ‹_›]
    · simp at hfound

/-- Without a space there is no keyword and rest. -/
theorem lineEntry_no_space {line : List Char} (n : Int32) (h : ' ' ∉ trimmedText line) :
    lineEntry n line = none := by
  rw [lineEntry]
  split
  · rfl
  · rw [List.findSome?_eq_none_iff]
    intro k _
    rw [keywordEntry, if_neg]
    rw [List.isPrefixOf_iff_prefix]
    exact fun hp => h (hp.subset (by simp))

/-! ## 3. Trimming -/

theorem rdropWhile_cons {α : Type} (p : α → Bool) (a : α) (l : List α) :
    (a :: l).rdropWhile p
      = if l.rdropWhile p = [] then (if p a then [] else [a]) else a :: l.rdropWhile p := by
  rw [List.rdropWhile, List.reverse_cons, List.dropWhile_append, List.rdropWhile]
  cases h : l.reverse.dropWhile p with
  | nil => by_cases ha : p a = true <;> simp [ha]
  | cons b rest => simp

theorem not_isBlank_head {line rest : List Char} {c : Char}
    (h : line.dropWhile isBlank = c :: rest) : isBlank c = false := by
  have hhead := List.head?_dropWhile_not isBlank line
  rw [h] at hhead
  exact hhead

/-- `trim_whitespace` leaves the trimmed text, or one newline or return of
an otherwise empty line. -/
theorem trimWhitespace_cases (line : List Char) :
    trimWhitespace line = trimmedText line ∨
    trimmedText line = [] ∧ ∃ c, isTrailing c = true ∧ isBlank c = false ∧
      trimWhitespace line = [c] := by
  cases hline : line.dropWhile isBlank with
  | nil =>
    refine Or.inl ?_
    rw [trimWhitespace, trimmedText, hline]
    rfl
  | cons c rest =>
    rw [trimWhitespace, trimmedText, hline, rdropWhile_cons]
    simp only
    by_cases hrest : rest.rdropWhile isTrailing = []
    · rw [if_pos hrest, hrest]
      by_cases hct : isTrailing c = true
      · exact Or.inr ⟨by rw [if_pos hct], c, hct, not_isBlank_head hline, rfl⟩
      · exact Or.inl (by rw [if_neg hct])
    · exact Or.inl (by rw [if_neg hrest])

theorem not_isBlank_trimmedText {line rest : List Char} {c : Char}
    (h : trimmedText line = c :: rest) : isBlank c = false := by
  obtain ⟨t, ht⟩ := List.rdropWhile_prefix isTrailing (l := line.dropWhile isBlank)
  have hline : line.dropWhile isBlank = c :: (rest ++ t) := by
    rw [← ht, ← List.cons_append, ← h, trimmedText]
  exact not_isBlank_head hline

/-- A trimmed text that is trimmed again stays as it is. -/
theorem trimmedText_trimmedText (line : List Char) :
    trimmedText (trimmedText line) = trimmedText line := by
  have hfront : (trimmedText line).dropWhile isBlank = trimmedText line := by
    cases h : trimmedText line with
    | nil => rfl
    | cons c rest => rw [List.dropWhile_cons, if_neg (by simp [not_isBlank_trimmedText h])]
  rw [trimmedText, hfront, trimmedText, List.rdropWhile_idempotent]

theorem trimWhitespace_subset (line : List Char) : trimWhitespace line ⊆ line := by
  intro c hc
  rw [trimWhitespace] at hc
  cases hline : line.dropWhile isBlank with
  | nil => rw [hline] at hc; simp at hc
  | cons d rest =>
    rw [hline] at hc
    have hmem : c ∈ line.dropWhile isBlank := by
      rw [hline]
      rcases List.mem_cons.mp hc with rfl | hc
      · simp
      · exact List.mem_cons_of_mem d ((List.rdropWhile_prefix isTrailing rest).subset hc)
    exact (List.dropWhile_suffix isBlank).subset hmem

/-- What stands behind a space of a trimmed text is not empty. -/
theorem rest_ne_nil {line before rest : List Char}
    (h : trimWhitespace line = before ++ ' ' :: rest) : rest ≠ [] := by
  rintro rfl
  rcases trimWhitespace_cases line with htext | ⟨-, c, -, hc, hone⟩
  · have htrim : (line.dropWhile isBlank).rdropWhile isTrailing = before ++ [' '] := by
      rw [← h, htext, trimmedText]
    have hne : (line.dropWhile isBlank).rdropWhile isTrailing ≠ [] := by
      rw [htrim]; simp
    have hlast := List.rdropWhile_last_not isTrailing _ hne
    simp only [htrim, List.getLast_concat] at hlast
    exact hlast (by decide)
  · have hmem : ' ' ∈ trimWhitespace line := by rw [h]; simp
    rw [hone, List.mem_singleton] at hmem
    rw [← hmem] at hc
    simp [isBlank] at hc

/-! ## 4. One round of the loop -/

section Round

variable {env : ParseEnv} {s s' : ParseState} {line word rest : List Char}

/-- A text cut at its first space. -/
theorem parseInstruction_space (env : ParseEnv) (s : ParseState) (hword : ' ' ∉ word)
    (rest : List Char) :
    parseInstruction env (word ++ ' ' :: rest) s
      = if getInstructionType word = .UNKNOWN then some s
        else if s.dockerfile.instructions.length ≥ s.dockerfile.capacity then
          if env.resized (s.dockerfile.capacity * 2) then
            some { s with
              dockerfile := addInstruction (getInstructionType word) word rest s.lineNumber
                { s.dockerfile with capacity := s.dockerfile.capacity * 2 } }
          else none
        else
          some { s with
            dockerfile := addInstruction (getInstructionType word) word rest s.lineNumber
              s.dockerfile } := by
  have hcut : (word ++ ' ' :: rest).take ((word ++ ' ' :: rest).length - (' ' :: rest).length)
      = word := by
    rw [List.length_append, Nat.add_sub_cancel, List.take_left]
  rw [parseInstruction, strchr_of_append hword]
  simp only [hcut, List.drop_succ_cons, List.drop_zero]

theorem parseInstruction_no_space (env : ParseEnv) (s : ParseState) (h : ' ' ∉ word) :
    parseInstruction env word s = some s := by
  rw [parseInstruction, strchr_of_not_mem h]

/-- The continued line is looked for in a cleared buffer. -/
theorem cstr_continuationBuffer (trimmed : List Char) :
    cstr (continuationBuffer trimmed) = [] := by
  have hnul : ∀ buffer : List Char, cstr (buffer.map fun _ => nul) = [] := by
    intro buffer
    cases buffer <;> rfl
  exact hnul _

/-- What one round can do to the dockerfile: nothing, or store one
instruction, after making room for it. -/
theorem parseLine_cases (h : parseLine env line s = some s') :
    s'.dockerfile = s.dockerfile ∨
    ∃ type instruction args lineNumber capacity,
      type ≠ .UNKNOWN ∧ NulFree args ∧ args ≠ [] ∧
      s'.dockerfile = addInstruction type instruction args lineNumber
        { s.dockerfile with capacity := capacity } := by
  rw [parseLine] at h
  simp only at h
  split at h
  · obtain rfl := Option.some.inj h
    exact Or.inl rfl
  · split at h
    · obtain rfl := Option.some.inj h
      exact Or.inl rfl
    · split at h
      · rw [cstr_continuationBuffer, parseInstruction_no_space env _ (by simp)] at h
        obtain rfl := Option.some.inj h
        exact Or.inl rfl
      · by_cases hspace : ' ' ∈ trimWhitespace (cstr line)
        · obtain ⟨word, rest, htext, hword⟩ := List.eq_append_cons_of_mem hspace
          have hrest := rest_ne_nil htext
          have hnul : NulFree rest := by
            refine (nulFree_cstr line).of_subset fun c hc => ?_
            have hmem : c ∈ trimWhitespace (cstr line) := by rw [htext]; simp [hc]
            exact trimWhitespace_subset _ hmem
          rw [htext, parseInstruction_space env _ hword] at h
          split at h
          · obtain rfl := Option.some.inj h
            exact Or.inl rfl
          · rename_i hknown
            split at h
            · split at h
              · obtain rfl := Option.some.inj h
                exact Or.inr ⟨_, _, _, _, _, hknown, hnul, hrest, rfl⟩
              · simp at h
            · obtain rfl := Option.some.inj h
              exact Or.inr ⟨_, _, _, _, s.dockerfile.capacity, hknown, hnul, hrest, rfl⟩
        · rw [parseInstruction_no_space env _ hspace] at h
          obtain rfl := Option.some.inj h
          exact Or.inl rfl

@[simp] theorem summarise_instructions (type : InstructionType) (args : List Char)
    (dockerfile : Dockerfile) :
    (summarise type args dockerfile).instructions = dockerfile.instructions := by
  unfold summarise
  cases type with
  | ENV | EXPOSE | VOLUME | LABEL => simp only; split <;> rfl
  | _ => rfl

@[simp] theorem summarise_capacity (type : InstructionType) (args : List Char)
    (dockerfile : Dockerfile) :
    (summarise type args dockerfile).capacity = dockerfile.capacity := by
  unfold summarise
  cases type with
  | ENV | EXPOSE | VOLUME | LABEL => simp only; split <;> rfl
  | _ => rfl

theorem entry_storedInstruction (type : InstructionType) (word : List Char) {args : List Char}
    (hargs : NulFree args) (n : Int32) :
    (storedInstruction type word args n).entry
      = { type := type, args := args.take (MAX_ARG_LEN - 1), lineNumber := n } := by
  rw [DockerfileInstruction.entry, storedInstruction]
  simp only [cstr_strncpy_zeros hargs]

/-- The array has elements, and the stored instructions fit it. -/
structure Room (dockerfile : Dockerfile) : Prop where
  positive : 0 < dockerfile.capacity
  count_le : dockerfile.instructions.length ≤ dockerfile.capacity

theorem room_addInstruction {dockerfile : Dockerfile} (type : InstructionType)
    (word args : List Char) (n : Int32)
    (h : dockerfile.instructions.length < dockerfile.capacity) :
    Room (addInstruction type word args n dockerfile) where
  positive := by rw [addInstruction, summarise_capacity]; exact Nat.zero_lt_of_lt h
  count_le := by
    rw [addInstruction, summarise_capacity, summarise_instructions, List.length_append,
      List.length_singleton]
    exact h

theorem entries_addInstruction (dockerfile : Dockerfile) (type : InstructionType)
    (word : List Char) {args : List Char} (hargs : NulFree args) (n : Int32) :
    (addInstruction type word args n dockerfile).instructions.map DockerfileInstruction.entry
      = dockerfile.instructions.map DockerfileInstruction.entry
        ++ [{ type := type, args := args.take (MAX_ARG_LEN - 1), lineNumber := n }] := by
  rw [addInstruction, summarise_instructions, List.map_append, List.map_singleton,
    entry_storedInstruction type word hargs]

theorem isContinuationLine_trimmed (line : List Char) :
    isContinuationLine (trimWhitespace line) = decide (trimmedText line = ['\\']) := by
  rw [isContinuationLine]
  refine decide_eq_decide.mpr ?_
  rcases trimWhitespace_cases line with htext | ⟨hempty, c, hct, hc, hone⟩
  · rw [htext]
    rcases trimWhitespace_cases (trimmedText line) with hagain | ⟨hnil, c, -, -, hone⟩
    · rw [hagain, trimmedText_trimmedText]
    · rw [trimmedText_trimmedText] at hnil
      rw [hnil] at hone
      simp [trimWhitespace] at hone
  · have hself : trimWhitespace [c] = [c] := by
      rw [trimWhitespace, List.dropWhile_cons, if_neg (by simp [hc])]
      simp
    rw [hone, hself, hempty]
    refine iff_of_false ?_ (by simp)
    rw [List.cons.injEq]
    rintro ⟨rfl, -⟩
    simp [isTrailing] at hct

/-- The flag behind a line. -/
def flagAfter (flag : Bool) (line : List Char) : Bool :=
  if trimWhitespace line = [] ∨ (trimWhitespace line).head? = some '#' then flag
  else decide (trimmedText line = ['\\'])

/-- What a round stores: the line's entry, if the line has one and does
not stand behind a backslash. -/
def roundEntry (flag : Bool) (lineNumber : Int32) (line : List Char) : Option Entry :=
  if flag then none else lineEntry lineNumber line

/-- What is trimmed to less than a word and a rest has no entry. -/
theorem lineEntry_skipped {line : List Char} (n : Int32)
    (h : trimWhitespace line = [] ∨ (trimWhitespace line).head? = some '#') :
    lineEntry n line = none := by
  rcases trimWhitespace_cases line with htext | ⟨hempty, -⟩
  · rw [htext] at h
    rcases h with hnil | hhash
    · exact lineEntry_no_space n (by simp [hnil])
    · rw [lineEntry, if_pos hhash]
  · exact lineEntry_no_space n (by simp [hempty])

/-- One round. -/
theorem parseLine_round (henv : env.Granted) (hroom : Room s.dockerfile) (line : List Char) :
    ∃ s', parseLine env line s = some s' ∧
      s'.inContinuation = flagAfter s.inContinuation (cstr line) ∧
      s'.lineNumber = s.lineNumber + 1 ∧ Room s'.dockerfile ∧
      s'.dockerfile.instructions.map DockerfileInstruction.entry
        = s.dockerfile.instructions.map DockerfileInstruction.entry
          ++ (roundEntry s.inContinuation (s.lineNumber + 1) (cstr line)).toList := by
  have hnul := nulFree_cstr line
  rw [parseLine]
  generalize cstr line = text at hnul
  -- a line without an entry leaves the dockerfile alone
  have hnone : roundEntry s.inContinuation (s.lineNumber + 1) text = none →
      s.dockerfile.instructions.map DockerfileInstruction.entry
        = s.dockerfile.instructions.map DockerfileInstruction.entry
          ++ (roundEntry s.inContinuation (s.lineNumber + 1) text).toList := by
    intro h; rw [h]; simp
  have hquiet : lineEntry (s.lineNumber + 1) text = none →
      roundEntry s.inContinuation (s.lineNumber + 1) text = none := by
    intro h; rw [roundEntry, h, ite_self]
  simp only
  by_cases hskip : trimWhitespace text = [] ∨ (trimWhitespace text).head? = some '#'
  · rw [if_pos hskip]
    exact ⟨_, rfl, by rw [flagAfter, if_pos hskip], rfl, hroom,
      hnone (hquiet (lineEntry_skipped _ hskip))⟩
  · rw [if_neg hskip, isContinuationLine_trimmed]
    have hflag : flagAfter s.inContinuation text = decide (trimmedText text = ['\\']) := by
      rw [flagAfter, if_neg hskip]
    by_cases hcont : trimmedText text = ['\\']
    · rw [if_pos (decide_eq_true hcont)]
      refine ⟨_, rfl, ?_, rfl, hroom, hnone (hquiet (lineEntry_no_space _ ?_))⟩
      · rw [hflag, decide_eq_true hcont]
      · rw [hcont]; decide
    · rw [if_neg (by simpa using hcont)]
      rw [decide_eq_false hcont] at hflag
      cases hin : s.inContinuation with
      | true =>
        -- the buffer that is parsed instead is empty
        rw [hin] at hflag hnone
        rw [if_pos rfl, cstr_continuationBuffer, parseInstruction_no_space env _ (by simp)]
        exact ⟨_, rfl, hflag.symm, rfl, hroom, hnone rfl⟩
      | false =>
        rw [hin] at hflag hnone hquiet
        rw [if_neg Bool.false_ne_true]
        by_cases hspace : ' ' ∈ trimWhitespace text
        · obtain ⟨word, rest, hcut, hword⟩ := List.eq_append_cons_of_mem hspace
          have hrest : NulFree rest := by
            refine hnul.of_subset fun d hd => ?_
            have hmem : d ∈ trimWhitespace text := by rw [hcut]; simp [hd]
            exact trimWhitespace_subset text hmem
          have htext : trimmedText text = trimWhitespace text := by
            rcases trimWhitespace_cases text with htext | ⟨-, c, -, hc, hone⟩
            · exact htext.symm
            · rw [hone] at hspace
              rw [← List.mem_singleton.mp hspace] at hc
              simp [isBlank] at hc
          have hhash : (trimmedText text).head? ≠ some '#' := by
            rw [htext]; exact (not_or.mp hskip).2
          have hentry : roundEntry false (s.lineNumber + 1) text = _ :=
            lineEntry_eq (s.lineNumber + 1) hhash (htext.trans hcut) hword
          rw [hcut, parseInstruction_space env _ hword]
          by_cases hknown : getInstructionType word = .UNKNOWN
          · rw [if_pos hknown]
            rw [if_pos hknown] at hentry
            exact ⟨_, rfl, hflag.symm, rfl, hroom, hnone hentry⟩
          · rw [if_neg hknown]
            rw [if_neg hknown] at hentry
            have hpos := hroom.positive
            have hle := hroom.count_le
            by_cases hfull : s.dockerfile.instructions.length ≥ s.dockerfile.capacity
            · simp only [if_pos hfull, henv.resized, if_true]
              refine ⟨_, rfl, hflag.symm, rfl, room_addInstruction _ _ _ _ ?_, ?_⟩
              · show s.dockerfile.instructions.length < s.dockerfile.capacity * 2
                omega
              · rw [entries_addInstruction _ _ _ hrest, hentry]
                rfl
            · simp only [if_neg hfull]
              refine ⟨_, rfl, hflag.symm, rfl, room_addInstruction _ _ _ _ (by omega), ?_⟩
              rw [entries_addInstruction _ _ _ hrest, hentry]
              rfl
        · rw [parseInstruction_no_space env _ hspace]
          have htrimmed : ' ' ∉ trimmedText text := by
            rcases trimWhitespace_cases text with htext | ⟨hempty, -⟩
            · rwa [← htext]
            · rw [hempty]; simp
          exact ⟨_, rfl, hflag.symm, rfl, hroom,
            hnone (hquiet (lineEntry_no_space _ htrimmed))⟩

end Round

/-! ## 5. All lines -/

section Lines

variable {env : ParseEnv}

/-- The entries the rounds over numbered lines store, from this flag
on. -/
def roundEntries : Bool → List (List Char × Nat) → List Entry
  | _, [] => []
  | flag, (line, n) :: lines =>
      (roundEntry flag (Int32.ofNat n) line).toList ++ roundEntries (flagAfter flag line) lines

/-- All rounds. -/
theorem parseLines_rounds (henv : env.Granted) : ∀ (lines : List (List Char)) (n : Nat)
    (s : ParseState), s.lineNumber = Int32.ofNat n → Room s.dockerfile →
      ∃ s', parseLines env lines s = some s' ∧ Room s'.dockerfile ∧
        s'.dockerfile.instructions.map DockerfileInstruction.entry
          = s.dockerfile.instructions.map DockerfileInstruction.entry
            ++ roundEntries s.inContinuation ((lines.map cstr).zipIdx (n + 1))
  | [], _, s, _, hroom => ⟨s, rfl, hroom, by simp [roundEntries]⟩
  | line :: lines, n, s, hn, hroom => by
      obtain ⟨s₁, h₁, hflag₁, hn₁, hroom₁, hentries₁⟩ := parseLine_round henv hroom line
      have hnext : s.lineNumber + 1 = Int32.ofNat (n + 1) := by
        rw [hn, Int32.ofNat_add]
        rfl
      obtain ⟨s', h', hroom', hentries'⟩ :=
        parseLines_rounds henv lines (n + 1) s₁ (hn₁.trans hnext) hroom₁
      refine ⟨s', by rw [parseLines, h₁, Option.bind_some, h'], hroom', ?_⟩
      rw [hentries', hentries₁, hnext, hflag₁, List.map_cons, List.zipIdx_cons, roundEntries,
        List.append_assoc]

/-- Without a line that is just a backslash the flag stays down. -/
theorem roundEntries_quiet : ∀ {lines : List (List Char × Nat)},
    (∀ l ∈ lines, trimmedText l.1 ≠ ['\\']) → roundEntries false lines = numberedEntries lines
  | [], _ => rfl
  | (line, n) :: lines, h => by
      have hline : trimmedText line ≠ ['\\'] := h (line, n) (by simp)
      have hflag : flagAfter false line = false := by
        rw [flagAfter, decide_eq_false hline, ite_self]
      rw [roundEntries, hflag,
        roundEntries_quiet fun l hl => h l (List.mem_cons_of_mem _ hl), numberedEntries,
        numberedEntries, List.filterMap_cons]
      show (lineEntry (Int32.ofNat n) line).toList ++ _ = _
      cases lineEntry (Int32.ofNat n) line <;> rfl

/-- The rounds over numbered lines store the entries of these lines. -/
theorem parseLines_entries (henv : env.Granted) (lines : List (List Char)) (n : Nat)
    (s : ParseState) (hlines : ∀ line ∈ lines, NulFree line ∧ trimmedText line ≠ ['\\'])
    (hs : s.inContinuation = false) (hn : s.lineNumber = Int32.ofNat n)
    (hroom : Room s.dockerfile) :
    ∃ s', parseLines env lines s = some s' ∧ Room s'.dockerfile ∧
      s'.dockerfile.instructions.map DockerfileInstruction.entry
        = s.dockerfile.instructions.map DockerfileInstruction.entry
          ++ numberedEntries (lines.zipIdx (n + 1)) := by
  obtain ⟨s', h', hroom', hentries'⟩ := parseLines_rounds henv lines n s hn hroom
  have hcstr : lines.map cstr = lines :=
    (List.map_congr_left fun line hline => cstr_of_nulFree (hlines line hline).1).trans
      (List.map_id lines)
  refine ⟨s', h', hroom', ?_⟩
  rw [hentries', hs, hcstr, roundEntries_quiet]
  intro l hl
  exact (hlines l.1 (List.fst_mem_of_mem_zipIdx hl)).2

/-- A newline at the end of a line is cut with the rest. -/
theorem trimmedText_newline (line : List Char) :
    trimmedText (line ++ ['\n']) = trimmedText line := by
  have hback : ∀ l : List Char, (l ++ ['\n']).rdropWhile isTrailing = l.rdropWhile isTrailing :=
    fun l => List.rdropWhile_concat_pos isTrailing l '\n' (by decide)
  rw [trimmedText, trimmedText, List.dropWhile_append]
  cases h : line.dropWhile isBlank with
  | nil => exact hback []
  | cons c rest => exact hback (c :: rest)

theorem lineEntry_newline (n : Int32) (line : List Char) :
    lineEntry n (line ++ ['\n']) = lineEntry n line := by
  rw [lineEntry, lineEntry, trimmedText_newline]

theorem lineEntry_nil (n : Int32) : lineEntry n [] = none :=
  lineEntry_no_space n (by decide)

/-- The pieces `fgets` reads of lines that fit the buffer are these
lines. -/
theorem fgetsLines_lines (P : List Char → Prop)
    (hP : ∀ line, P (line ++ ['\n']) ↔ P line) : ∀ (lines : List (List Char)) (n : Nat),
      (∀ line ∈ lines, '\n' ∉ line ∧ line.length ≤ 1022 ∧ P line) →
      (∀ piece ∈ fgetsLines MAX_LINE_LEN (['\n'].intercalate lines), P piece) ∧
      numberedEntries ((fgetsLines MAX_LINE_LEN (['\n'].intercalate lines)).zipIdx n)
        = numberedEntries (lines.zipIdx n)
  | [], _, _ => ⟨by simp, by simp⟩
  | [line], n, h => by
      obtain ⟨hnl, hlen, hline⟩ := h line (by simp)
      rw [List.intercalate_singleton]
      by_cases hnil : line = []
      · rw [hnil]
        exact ⟨by simp, by simp [numberedEntries, lineEntry_nil]⟩
      · have hone : fgetsLines MAX_LINE_LEN line = [line] :=
          fgetsLines_last hnl hnil (by rw [MAX_LINE_LEN]; omega)
        rw [hone]
        exact ⟨by simpa using hline, rfl⟩
  | line :: next :: lines, n, h => by
      obtain ⟨hnl, hlen, hline⟩ := h line (by simp)
      have ih := fgetsLines_lines P hP (next :: lines) (n + 1)
        (fun l hl => h l (List.mem_cons_of_mem line hl))
      have hpieces : fgetsLines MAX_LINE_LEN (['\n'].intercalate (line :: next :: lines))
          = (line ++ ['\n']) ::
            fgetsLines MAX_LINE_LEN (['\n'].intercalate (next :: lines)) := by
        rw [List.intercalate_cons_cons, fgetsLines_append MAX_LINE_LEN (by simp),
          fgetsLines_line hnl (by rw [MAX_LINE_LEN]; omega)]
        rfl
      rw [hpieces]
      refine ⟨fun piece hpiece => ?_, ?_⟩
      · rcases List.mem_cons.mp hpiece with rfl | hpiece
        · exact (hP line).mpr hline
        · exact ih.1 piece hpiece
      · rw [List.zipIdx_cons, List.zipIdx_cons, numberedEntries, numberedEntries,
          List.filterMap_cons, List.filterMap_cons]
        simp only [lineEntry_newline]
        rw [← numberedEntries, ← numberedEntries, ih.2]

end Lines

/-! ## 6. The summary -/

/-- The arguments of the stored instructions of one type, in order. -/
def Dockerfile.argsOf (dockerfile : Dockerfile) (type : InstructionType) : List (List Char) :=
  (dockerfile.instructions.filter (fun i => i.type = type)).map (fun i => cstr i.args)

/-- An array of strings holds these arguments, uncut, unless there are
more of them than it takes. -/
def Collects (limit : Nat) (field args : List (List Char)) : Prop :=
  args.length ≤ limit → field.map (List.take (MAX_ARG_LEN - 1)) = args

/-- A character array holds the last of these arguments and is terminated
at its end. -/
def HoldsLast (field : List Char) (args : List (List Char)) : Prop :=
  cstr (field.drop (MAX_ARG_LEN - 1)) = [] ∧ cstr field = args.getLast?.getD []

/-- The summary fields follow the stored instructions. -/
structure Summarised (dockerfile : Dockerfile) : Prop where
  envVars : Collects MAX_ENV_VAR_LEN dockerfile.envVars (dockerfile.argsOf .ENV)
  exposedPorts : Collects MAX_PORT_LEN dockerfile.exposedPorts (dockerfile.argsOf .EXPOSE)
  volumes : Collects MAX_VOLUME_LEN dockerfile.volumes (dockerfile.argsOf .VOLUME)
  labels : Collects MAX_ENV_VAR_LEN dockerfile.labels (dockerfile.argsOf .LABEL)
  user : HoldsLast dockerfile.user (dockerfile.argsOf .USER)
  entrypoint : HoldsLast dockerfile.entrypoint (dockerfile.argsOf .ENTRYPOINT)
  cmd : HoldsLast dockerfile.cmd (dockerfile.argsOf .CMD)
  args_ne_nil : ∀ i ∈ dockerfile.instructions, cstr i.args ≠ []
  args_short : ∀ i ∈ dockerfile.instructions, (cstr i.args).length ≤ MAX_ARG_LEN - 1

theorem Collects.append {limit : Nat} {field args : List (List Char)} (h : Collects limit field args)
    (a : List Char) :
    Collects limit (if field.length < limit then field ++ [a] else field)
      (args ++ [a.take (MAX_ARG_LEN - 1)]) := by
  intro hlen
  rw [List.length_append, List.length_singleton] at hlen
  have hfield := h (by omega)
  have hsame := congrArg List.length hfield
  rw [List.length_map] at hsame
  rw [if_pos (by omega), List.map_append, hfield]
  rfl

theorem HoldsLast.append {field : List Char} {args : List (List Char)} (h : HoldsLast field args)
    {a : List Char} (ha : NulFree a) :
    HoldsLast (strncpy field a (MAX_ARG_LEN - 1)) (args ++ [a.take (MAX_ARG_LEN - 1)]) := by
  refine ⟨by rw [drop_strncpy]; exact h.1, ?_⟩
  rw [cstr_strncpy_terminated ha h.1]
  simp

theorem holdsLast_zeros (size : Nat) : HoldsLast (zeros size) [] := by
  have hdrop : (zeros size).drop (MAX_ARG_LEN - 1) = zeros (size - (MAX_ARG_LEN - 1)) :=
    List.drop_replicate
  exact ⟨by rw [hdrop, cstr_zeros], cstr_zeros size⟩

theorem summarised_empty : Summarised emptyDockerfile where
  envVars := fun _ => rfl
  exposedPorts := fun _ => rfl
  volumes := fun _ => rfl
  labels := fun _ => rfl
  user := holdsLast_zeros MAX_PATH_LEN
  entrypoint := holdsLast_zeros MAX_ARG_LEN
  cmd := holdsLast_zeros MAX_ARG_LEN
  args_ne_nil := by simp [emptyDockerfile]
  args_short := by simp [emptyDockerfile]

section Summary

variable (t : InstructionType) (args : List Char) (d : Dockerfile)

theorem summarise_envVars : (summarise t args d).envVars
    = if t = .ENV then
        (if d.envVars.length < MAX_ENV_VAR_LEN then d.envVars ++ [args] else d.envVars)
      else d.envVars := by
  cases t with
  | ENV | EXPOSE | VOLUME | LABEL => simp only [summarise]; split <;> simp_all
  | _ => rfl

theorem summarise_exposedPorts : (summarise t args d).exposedPorts
    = if t = .EXPOSE then
        (if d.exposedPorts.length < MAX_PORT_LEN then d.exposedPorts ++ [args]
          else d.exposedPorts)
      else d.exposedPorts := by
  cases t with
  | ENV | EXPOSE | VOLUME | LABEL => simp only [summarise]; split <;> simp_all
  | _ => rfl

theorem summarise_volumes : (summarise t args d).volumes
    = if t = .VOLUME then
        (if d.volumes.length < MAX_VOLUME_LEN then d.volumes ++ [args] else d.volumes)
      else d.volumes := by
  cases t with
  | ENV | EXPOSE | VOLUME | LABEL => simp only [summarise]; split <;> simp_all
  | _ => rfl

theorem summarise_labels : (summarise t args d).labels
    = if t = .LABEL then
        (if d.labels.length < MAX_ENV_VAR_LEN then d.labels ++ [args] else d.labels)
      else d.labels := by
  cases t with
  | ENV | EXPOSE | VOLUME | LABEL => simp only [summarise]; split <;> simp_all
  | _ => rfl

theorem summarise_user : (summarise t args d).user
    = if t = .USER then strncpy d.user args (MAX_PATH_LEN - 1) else d.user := by
  cases t with
  | ENV | EXPOSE | VOLUME | LABEL => simp only [summarise]; split <;> simp
  | _ => rfl

theorem summarise_entrypoint : (summarise t args d).entrypoint
    = if t = .ENTRYPOINT then strncpy d.entrypoint args (MAX_ARG_LEN - 1) else d.entrypoint := by
  cases t with
  | ENV | EXPOSE | VOLUME | LABEL => simp only [summarise]; split <;> simp
  | _ => rfl

theorem summarise_cmd : (summarise t args d).cmd
    = if t = .CMD then strncpy d.cmd args (MAX_ARG_LEN - 1) else d.cmd := by
  cases t with
  | ENV | EXPOSE | VOLUME | LABEL => simp only [summarise]; split <;> simp
  | _ => rfl

end Summary

theorem argsOf_addInstruction (d : Dockerfile) (t : InstructionType) (word : List Char)
    {args : List Char} (hargs : NulFree args) (n : Int32) (type : InstructionType) :
    (addInstruction t word args n d).argsOf type
      = if t = type then d.argsOf type ++ [args.take (MAX_ARG_LEN - 1)] else d.argsOf type := by
  rw [Dockerfile.argsOf, addInstruction, summarise_instructions, List.filter_append,
    List.map_append, ← Dockerfile.argsOf]
  by_cases ht : t = type
  · simp [ht, storedInstruction, cstr_strncpy_zeros hargs]
  · simp [ht, storedInstruction]

/-- Storing an instruction keeps the summary in step. -/
theorem Summarised.addInstruction {d : Dockerfile} (h : Summarised d) (t : InstructionType)
    (word : List Char) {args : List Char} (hargs : NulFree args) (hne : args ≠ []) (n : Int32) :
    Summarised (addInstruction t word args n d) := by
  refine ⟨?_, ?_, ?_, ?_, ?_, ?_, ?_, ?_, ?_⟩
  · rw [argsOf_addInstruction d t word hargs, Build.addInstruction, summarise_envVars]
    split
    · exact h.envVars.append args
    · exact h.envVars
  · rw [argsOf_addInstruction d t word hargs, Build.addInstruction, summarise_exposedPorts]
    split
    · exact h.exposedPorts.append args
    · exact h.exposedPorts
  · rw [argsOf_addInstruction d t word hargs, Build.addInstruction, summarise_volumes]
    split
    · exact h.volumes.append args
    · exact h.volumes
  · rw [argsOf_addInstruction d t word hargs, Build.addInstruction, summarise_labels]
    split
    · exact h.labels.append args
    · exact h.labels
  · rw [argsOf_addInstruction d t word hargs, Build.addInstruction, summarise_user]
    split
    · exact h.user.append hargs
    · exact h.user
  · rw [argsOf_addInstruction d t word hargs, Build.addInstruction, summarise_entrypoint]
    split
    · exact h.entrypoint.append hargs
    · exact h.entrypoint
  · rw [argsOf_addInstruction d t word hargs, Build.addInstruction, summarise_cmd]
    split
    · exact h.cmd.append hargs
    · exact h.cmd
  · intro i hi
    rw [Build.addInstruction, summarise_instructions] at hi
    rcases List.mem_append.mp hi with hi | hi
    · exact h.args_ne_nil i hi
    · rw [List.mem_singleton.mp hi, storedInstruction, cstr_strncpy_zeros hargs, MAX_ARG_LEN]
      simpa using hne
  · intro i hi
    rw [Build.addInstruction, summarise_instructions] at hi
    rcases List.mem_append.mp hi with hi | hi
    · exact h.args_short i hi
    · rw [List.mem_singleton.mp hi, storedInstruction, cstr_strncpy_zeros hargs]
      exact List.length_take_le _ _

theorem parseLines_summarised {env : ParseEnv} : ∀ {lines : List (List Char)} {s s' : ParseState},
    parseLines env lines s = some s' → Summarised s.dockerfile → Summarised s'.dockerfile
  | [], s, s', h, hs => by
      obtain rfl := Option.some.inj h
      exact hs
  | line :: lines, s, s', h, hs => by
      obtain ⟨s₁, h₁, hrest⟩ := Option.bind_eq_some_iff.mp h
      refine parseLines_summarised hrest ?_
      rcases parseLine_cases h₁ with hsame | ⟨t, word, args, n, capacity, -, hargs, hne, hadd⟩
      · rw [hsame]; exact hs
      · rw [hadd]
        exact Summarised.addInstruction (d := { s.dockerfile with capacity := capacity })
          ⟨hs.envVars, hs.exposedPorts, hs.volumes, hs.labels, hs.user, hs.entrypoint, hs.cmd,
            hs.args_ne_nil, hs.args_short⟩ t word hargs hne n

/-- Of every text, whatever is in it. -/
theorem parseText_summarised {env : ParseEnv} {text : List Char} {dockerfile : Dockerfile}
    (h : parseText env text = some dockerfile) : Summarised dockerfile := by
  rw [parseText] at h
  split at h
  · simp at h
  · split at h
    · simp at h
    · obtain ⟨s, hs, rfl⟩ := Option.map_eq_some_iff.mp h
      exact parseLines_summarised hs summarised_empty

/-! ## 7. Parsing is the specification -/

/-- The specification's entries of one type are the stored arguments of
that type. -/
theorem length_argsOf {dockerfile : Dockerfile} {entries : List Entry}
    (h : dockerfile.instructions.map DockerfileInstruction.entry = entries)
    (type : InstructionType) :
    (dockerfile.argsOf type).length = (entries.filter (fun e => e.type = type)).length := by
  rw [← h, List.filter_map, List.length_map, Dockerfile.argsOf, List.length_map]
  rfl

/-- A text whose lines fit the buffer, without NUL, without lines that
are just a backslash and with at most 256 ENV and 256 LABEL lines: the
parse stores exactly the entries of its lines, in order, within the
capacity, and no array of the summary is written past its end. -/
theorem parse_eq_lineEntries {env : ParseEnv} {denied : Bool} {cwd : Path} {fs : FileSystem}
    {filePath text : List Char} (henv : env.Granted)
    (hopen : fs.openRead cwd filePath denied = some text) (hnul : NulFree text)
    (hshort : ∀ line ∈ physicalLines text, line.length ≤ 1022)
    (hcont : ∀ line ∈ physicalLines text, trimmedText line ≠ ['\\'])
    (henvs : ((lineEntries text).filter (fun e => e.type = .ENV)).length ≤ 256)
    (hlabels : ((lineEntries text).filter (fun e => e.type = .LABEL)).length ≤ 256) :
    ∃ dockerfile, parseDockerfile env denied cwd fs filePath = some dockerfile ∧
      dockerfile.instructions.map DockerfileInstruction.entry = lineEntries text ∧
      dockerfile.instructions.length ≤ dockerfile.capacity ∧
      dockerfile.envVars.length ≤ 256 ∧ dockerfile.labels.length ≤ 256 := by
  have htext : ['\n'].intercalate (physicalLines text) = text := List.intercalate_splitOn '\n'
  obtain ⟨hpieces, hentries⟩ := fgetsLines_lines
    (fun line => trimmedText line ≠ ['\\']) (fun line => by rw [trimmedText_newline])
    (physicalLines text) 1
    (fun line hline => ⟨not_mem_of_mem_splitOn hline, hshort line hline, hcont line hline⟩)
  rw [htext] at hpieces hentries
  have hgood : ∀ piece ∈ fgetsLines MAX_LINE_LEN text,
      NulFree piece ∧ trimmedText piece ≠ ['\\'] := fun piece hpiece =>
    ⟨hnul.of_subset (infix_of_mem_fgetsLines hpiece).subset, hpieces piece hpiece⟩
  obtain ⟨s, hs, hroom, hstored⟩ := parseLines_entries henv (fgetsLines MAX_LINE_LEN text) 0
    { lineNumber := 0, inContinuation := false, dockerfile := emptyDockerfile } hgood rfl rfl
    ⟨by decide, by decide⟩
  have hmap : s.dockerfile.instructions.map DockerfileInstruction.entry = lineEntries text := by
    rw [hstored, lineEntries, ← hentries]
    rfl
  have hparse : parseText env text = some s.dockerfile := by
    rw [parseText, if_neg (by simp [henv.dockerfile]), if_neg (by simp [henv.instructions]), hs]
    rfl
  have hsum := parseText_summarised hparse
  have hbound : ∀ {field : List (List Char)} {type : InstructionType},
      Collects MAX_ENV_VAR_LEN field (s.dockerfile.argsOf type) →
      ((lineEntries text).filter (fun e => e.type = type)).length ≤ 256 → field.length ≤ 256 := by
    intro field type hfield hcount
    have hlen := length_argsOf hmap type
    have hsame := congrArg List.length (hfield (by rw [MAX_ENV_VAR_LEN]; omega))
    rw [List.length_map] at hsame
    omega
  refine ⟨s.dockerfile, ?_, hmap, hroom.count_le, hbound hsum.envVars henvs,
    hbound hsum.labels hlabels⟩
  rw [parseDockerfile, hopen, Option.bind_some, hparse]

/-! ## 8. The sample file -/

/-- The start of `sample.Dockerfile`. -/
def sampleText : List Char :=
  "FROM ubuntu:latest\nLABEL maintainer=\"docker-clone\"\n".toList

/-- A file system that holds it at the root. -/
def sampleHost : FileSystem :=
  .ofEntries [([], .dir), (["Dockerfile".toList], .file sampleText)] (by decide)

def grantedEnv : ParseEnv where
  dockerfileAllocated := true
  instructionsAllocated := true
  resized := fun _ => true

theorem sample_parsed :
    ∃ dockerfile, parseDockerfile grantedEnv false [] sampleHost "Dockerfile".toList
        = some dockerfile ∧
      dockerfile.instructions.map DockerfileInstruction.entry = lineEntries sampleText ∧
      dockerfile.instructions.length ≤ dockerfile.capacity ∧
      dockerfile.envVars.length ≤ 256 ∧ dockerfile.labels.length ≤ 256 :=
  parse_eq_lineEntries ⟨rfl, rfl, fun _ => rfl⟩ (by decide) (by decide)
    (by decide) (by decide) (by decide) (by decide)

end DockerClone.Build
