/-
DockerClone.Build.LongLineTheorems — physical lines and the pieces the
loop reads.

The loop counts, trims and parses what one `fgets` delivers, which is a
physical line only if that fits the buffer. `storedRounds` lists what the
rounds of a parse store, each instruction with the text in front of its
piece, so that it can be compared with the line it was read from.

`mem_roundsFrom` says which pieces store something; `whole_iff` compares
one of them with its line.
-/
import DockerClone.Build.ArrayTheorems

namespace DockerClone.Build

open DockerClone.CLib DockerClone.Os

/-! ## 1. Instructions and where they were read -/

/-- What the rounds over these pieces store, each entry with the text in
front of its piece. -/
def rounds (env : ParseEnv) :
    List Char → List (List Char) → ParseState → List (List Char × Entry)
  | _, [], _ => []
  | before, piece :: pieces, s =>
      match parseLine env piece s with
      | none => []
      | some s' =>
          (s'.dockerfile.instructions.drop s.dockerfile.instructions.length).map
              (fun i => (before, i.entry))
            ++ rounds env (before ++ piece) pieces s'

def storedRounds (env : ParseEnv) (text : List Char) : List (List Char × Entry) :=
  rounds env [] (fgetsLines MAX_LINE_LEN text) startState

/-- A text at whose end a physical line starts. -/
def StartsLine (before : List Char) : Prop := before = [] ∨ before.getLast? = some '\n'

/-- The physical line that goes on behind `before`. -/
def lineBehind (text before : List Char) : List Char :=
  (text.drop before.length).takeWhile (fun c => c != '\n')

/-- An instruction read at the start of a physical line, under the number
of that line and with the complete text behind its keyword. -/
structure Whole (text : List Char) (r : List Char × Entry) : Prop where
  starts : StartsLine r.1
  number : r.2.lineNumber.toInt = r.1.count '\n' + 1
  complete : ∃ k ∈ keywords, k.2 = r.2.type ∧
    trimmedText (lineBehind text r.1) = k.1.toList ++ ' ' :: r.2.args

/-- Every stored instruction is a whole physical line, and no line stores
two. -/
structure LinesWhole (env : ParseEnv) (text : List Char) : Prop where
  whole : ∀ r ∈ storedRounds env text, Whole text r
  one_a_line : ((storedRounds env text).map fun r => r.1.count '\n').Nodup

/-- A piece behind these is dropped: the last of them that is no comment
is just a backslash. -/
def behindBackslash (pieces : List (List Char)) : Bool :=
  pieces.foldl (fun flag piece => flagAfter flag (cstr piece)) false

/-- Every piece that is an instruction, unless it is dropped, starts a
line, with as many pieces as lines in front of it, contains all of the
line but whitespace at its end, and has at most 511 characters behind its
keyword. -/
def PiecesWhole (text : List Char) : Prop :=
  ∀ before piece after, fgetsLines MAX_LINE_LEN text = before ++ piece :: after →
    behindBackslash before = false → ∀ k ∈ keywords, ∀ rest,
      trimmedText (cstr piece) = k.1.toList ++ ' ' :: rest →
        StartsLine before.flatten ∧
        (Int32.ofNat (before.length + 1)).toInt = before.flatten.count '\n' + 1 ∧
        trimmedText (lineBehind text before.flatten) = trimmedText (cstr piece) ∧
        rest.length ≤ MAX_ARG_LEN - 1

/-! ## 2. The rounds -/

section Rounds

variable {env : ParseEnv}

/-- What the rounds store, from this flag on, over numbered pieces. -/
def roundsFrom : Bool → List Char → List (List Char × Nat) → List (List Char × Entry)
  | _, _, [] => []
  | flag, before, (piece, n) :: pieces =>
      ((roundEntry flag (Int32.ofNat n) (cstr piece)).map (fun e => (before, e))).toList
        ++ roundsFrom (flagAfter flag (cstr piece)) (before ++ piece) pieces

theorem rounds_eq (henv : env.Granted) : ∀ (pieces : List (List Char)) (n : Nat)
    (before : List Char) (s : ParseState), s.lineNumber = Int32.ofNat n → Room s.dockerfile →
      rounds env before pieces s
        = roundsFrom s.inContinuation before (pieces.zipIdx (n + 1))
  | [], _, _, _, _, _ => rfl
  | piece :: pieces, n, before, s, hn, hroom => by
      obtain ⟨s₁, h₁, hflag₁, hn₁, hroom₁, hentries₁⟩ := parseLine_round henv hroom piece
      have hnext : s.lineNumber + 1 = Int32.ofNat (n + 1) := by
        rw [hn, Int32.ofNat_add]
        rfl
      have hstored : (s₁.dockerfile.instructions.drop s.dockerfile.instructions.length).map
            (fun i => (before, i.entry))
          = ((roundEntry s.inContinuation (Int32.ofNat (n + 1)) (cstr piece)).map
              (fun e => (before, e))).toList := by
        have hdrop := congrArg (List.drop s.dockerfile.instructions.length) hentries₁
        have hlen : s.dockerfile.instructions.length
            = (s.dockerfile.instructions.map DockerfileInstruction.entry).length :=
          (List.length_map _).symm
        rw [← List.map_drop, hnext] at hdrop
        conv_rhs at hdrop => rw [hlen, List.drop_left]
        have hpair := congrArg (List.map fun e => (before, e)) hdrop
        rw [List.map_map] at hpair
        rw [Option.toList_map]
        exact hpair
      rw [rounds, h₁]
      simp only
      rw [hstored, rounds_eq henv pieces (n + 1) (before ++ piece) s₁ (hn₁.trans hnext) hroom₁,
        hflag₁, List.zipIdx_cons, roundsFrom]

theorem storedRounds_eq (henv : env.Granted) (text : List Char) :
    storedRounds env text = roundsFrom false [] ((fgetsLines MAX_LINE_LEN text).zipIdx 1) :=
  rounds_eq henv _ 0 [] startState rfl ⟨by decide, by decide⟩

theorem roundsFrom_entries : ∀ (pieces : List (List Char)) (n : Nat) (flag : Bool)
    (before : List Char), (roundsFrom flag before (pieces.zipIdx n)).map Prod.snd
      = roundEntries flag ((pieces.map cstr).zipIdx n)
  | [], _, _, _ => rfl
  | piece :: pieces, n, flag, before => by
      rw [List.map_cons, List.zipIdx_cons, List.zipIdx_cons, roundsFrom, roundEntries,
        List.map_append, roundsFrom_entries pieces (n + 1)]
      cases roundEntry flag (Int32.ofNat n) (cstr piece) <;> rfl

/-- The rounds of a parse are all of it. -/
theorem parseText_rounds (henv : env.Granted) (text : List Char) :
    ∃ dockerfile, parseText env text = some dockerfile ∧
      dockerfile.instructions.map DockerfileInstruction.entry
        = (storedRounds env text).map Prod.snd := by
  obtain ⟨s, hs, -, hentries⟩ := parseLines_rounds henv (fgetsLines MAX_LINE_LEN text) 0 startState
    rfl ⟨by decide, by decide⟩
  refine ⟨s.dockerfile, ?_, ?_⟩
  · rw [parseText, if_neg (by simp [henv.dockerfile]), if_neg (by simp [henv.instructions])]
    exact congrArg (Option.map (·.dockerfile)) hs
  · rw [hentries, storedRounds_eq henv, roundsFrom_entries]
    rfl

/-- Which pieces store something. -/
theorem mem_roundsFrom {r : List Char × Entry} : ∀ {pieces : List (List Char)} {n : Nat}
    {flag : Bool} {before : List Char}, r ∈ roundsFrom flag before (pieces.zipIdx n) ↔
      ∃ front piece after, pieces = front ++ piece :: after ∧ r.1 = before ++ front.flatten ∧
        roundEntry (front.foldl (fun flag piece => flagAfter flag (cstr piece)) flag)
          (Int32.ofNat (n + front.length)) (cstr piece) = some r.2
  | [], n, flag, before => by simp [roundsFrom]
  | piece :: pieces, n, flag, before => by
      rw [List.zipIdx_cons, roundsFrom, List.mem_append, Option.mem_toList, Option.map_eq_some_iff,
        mem_roundsFrom]
      constructor
      · rintro (⟨e, he, rfl⟩ | ⟨front, p, after, rfl, hr, he⟩)
        · exact ⟨[], piece, pieces, rfl, by simp, he⟩
        · refine ⟨piece :: front, p, after, rfl, by simp [hr], ?_⟩
          rw [List.foldl_cons, List.length_cons, Nat.add_comm front.length 1, ← Nat.add_assoc]
          exact he
      · rintro ⟨front, p, after, hpieces, hr, he⟩
        cases front with
        | nil =>
          obtain ⟨rfl, rfl⟩ := List.cons.inj hpieces
          exact Or.inl ⟨r.2, he, Prod.ext (by simpa using hr.symm) rfl⟩
        | cons q front =>
          obtain ⟨rfl, rfl⟩ := List.cons.inj hpieces
          refine Or.inr ⟨front, p, after, rfl, by simpa using hr, ?_⟩
          rw [List.foldl_cons, List.length_cons, Nat.add_comm front.length 1,
            ← Nat.add_assoc] at he
          exact he

/-- Later rounds read further on in the text. -/
theorem roundsFrom_pairwise : ∀ (pieces : List (List Char)) (n : Nat) (flag : Bool)
    (before : List Char), (∀ piece ∈ pieces, piece ≠ []) →
      (roundsFrom flag before (pieces.zipIdx n)).Pairwise
        (fun a b => ∃ more, more ≠ [] ∧ b.1 = a.1 ++ more)
  | [], _, _, _, _ => List.Pairwise.nil
  | piece :: pieces, n, flag, before, hne => by
      have hrest := roundsFrom_pairwise pieces (n + 1) (flagAfter flag (cstr piece))
        (before ++ piece) fun p hp => hne p (List.mem_cons_of_mem piece hp)
      rw [List.zipIdx_cons, roundsFrom, List.pairwise_append]
      refine ⟨?_, hrest, ?_⟩
      · cases roundEntry flag (Int32.ofNat n) (cstr piece) <;> simp
      · intro a ha b hb
        rw [Option.mem_toList, Option.map_eq_some_iff] at ha
        obtain ⟨e, -, rfl⟩ := ha
        obtain ⟨front, -, -, -, hb, -⟩ := mem_roundsFrom.mp hb
        refine ⟨piece ++ front.flatten, ?_, by rw [hb, List.append_assoc]⟩
        simpa using fun he => absurd he (hne piece List.mem_cons_self)

/-- Texts in front of whole lines have different numbers of newlines. -/
theorem one_a_line_of_whole {text : List Char} (henv : env.Granted)
    (h : ∀ r ∈ storedRounds env text, Whole text r) :
    ((storedRounds env text).map fun r => r.1.count '\n').Nodup := by
  have hpairs := roundsFrom_pairwise (fgetsLines MAX_LINE_LEN text) 1 false []
    fun piece hpiece => (mem_fgetsLines hpiece).1
  rw [← storedRounds_eq henv] at hpairs
  rw [List.Nodup, List.pairwise_map]
  refine hpairs.imp_of_mem fun {a b} _ hb => ?_
  rintro ⟨more, hmore, hbefore⟩
  -- the text between the two ends with a newline
  have hlast : more.getLast? = some '\n' := by
    rcases (h b hb).starts with hnil | hlast
    · rw [hbefore] at hnil
      exact absurd (List.append_eq_nil_iff.mp hnil).2 hmore
    · rwa [hbefore, List.getLast?_append_of_ne_nil _ hmore] at hlast
  have hmem : '\n' ∈ more := List.mem_of_getLast? hlast
  have hpos := List.count_pos_iff.mpr hmem
  rw [hbefore, List.count_append]
  omega

end Rounds

/-! ## 3. A piece and its line -/

theorem head_keyword : ∀ k ∈ keywords, ∀ rest : List Char,
    (k.1.toList ++ ' ' :: rest).head? ≠ some '#' := by
  intro k hk rest
  have hhead : ∀ k ∈ keywords, k.1.toList.head? ≠ some '#' ∧ k.1.toList ≠ [] := by decide
  rw [List.head?_append_of_ne_nil _ (hhead k hk).2]
  exact (hhead k hk).1

theorem lineEntry_some_iff {line : List Char} {n : Int32} {e : Entry} :
    lineEntry n line = some e ↔ ∃ k ∈ keywords, ∃ rest,
      trimmedText line = k.1.toList ++ ' ' :: rest ∧
        e = { type := k.2, args := rest.take (MAX_ARG_LEN - 1), lineNumber := n } := by
  constructor
  · intro h
    by_cases hspace : ' ' ∈ trimmedText line
    · obtain ⟨word, rest, hcut, hword⟩ := List.eq_append_cons_of_mem hspace
      have hhash : (trimmedText line).head? ≠ some '#' := by
        intro hhash
        rw [lineEntry, if_pos hhash] at h
        simp at h
      rw [lineEntry_eq n hhash hcut hword] at h
      split at h
      · simp at h
      · rename_i hknown
        obtain ⟨k, hk, rfl⟩ := keyword_of_known hknown
        refine ⟨k, hk, rest, hcut, ?_⟩
        rw [← (getInstructionType_keyword k hk).1]
        exact (Option.some.inj h).symm
    · rw [lineEntry_no_space n hspace] at h
      simp at h
  · rintro ⟨k, hk, rest, hcut, rfl⟩
    obtain ⟨htype, hknown, hword⟩ := getInstructionType_keyword k hk
    rw [lineEntry_eq n (by rw [hcut]; exact head_keyword k hk rest) hcut hword, htype, if_neg hknown]

/-- Types come from one keyword each. -/
theorem keyword_of_type : ∀ k ∈ keywords, ∀ k' ∈ keywords, k.2 = k'.2 → k = k' := by
  decide

theorem rdropWhile_append {α : Type} (p : α → Bool) (l m : List α) :
    (l ++ m).rdropWhile p
      = if m.rdropWhile p = [] then l.rdropWhile p else l ++ m.rdropWhile p := by
  rw [List.rdropWhile, List.rdropWhile, List.rdropWhile, List.reverse_append,
    List.dropWhile_append]
  cases h : m.reverse.dropWhile p with
  | nil => simp
  | cons b rest => simp

/-- What is trimmed off the end of a text is trimmed no further if more
text follows. -/
theorem trimmedText_prefix {front : List Char} (h : trimmedText front ≠ []) (more : List Char) :
    trimmedText front <+: trimmedText (front ++ more) := by
  have hblank : front.dropWhile isBlank ≠ [] := by
    intro hnil
    rw [trimmedText, hnil] at h
    exact h rfl
  have hdrop : (front ++ more).dropWhile isBlank = front.dropWhile isBlank ++ more := by
    rw [List.dropWhile_append, if_neg (by simpa using hblank)]
  rw [trimmedText, trimmedText, hdrop, rdropWhile_append]
  split
  · exact List.prefix_rfl
  · exact (List.rdropWhile_prefix _ _).trans (List.prefix_append _ _)

/-- The part of a piece that the loop trims is the start of the line the
piece starts. -/
theorem trimmed_piece_prefix {piece : List Char} (before after : List Char)
    (hpiece : ∃ w, '\n' ∉ w ∧ (piece = w ∨ piece = w ++ ['\n']))
    (hne : trimmedText (cstr piece) ≠ []) :
    trimmedText (cstr piece)
      <+: trimmedText (lineBehind (before ++ piece ++ after) before) := by
  obtain ⟨w, hw, hend⟩ := hpiece
  -- the text the piece holds in front of a newline or NUL
  obtain ⟨front, hfront, htext, hprefix⟩ : ∃ front, '\n' ∉ front ∧
      trimmedText (cstr piece) = trimmedText front ∧ front <+: piece := by
    have hcstr : cstr piece <+: piece := List.takeWhile_prefix _
    rcases hend with rfl | rfl
    · exact ⟨cstr piece, fun hm => hw (hcstr.subset hm), rfl, hcstr⟩
    · rcases List.prefix_concat_iff.mp hcstr with hall | hpart
      · exact ⟨w, hw, by rw [hall, trimmedText_newline], List.prefix_append _ _⟩
      · exact ⟨_, fun hm => hw (hpart.subset hm), rfl, hcstr⟩
  obtain ⟨tail, rfl⟩ := hprefix
  have hline : lineBehind (before ++ (front ++ tail) ++ after) before
      = front ++ (tail ++ after).takeWhile (fun c => c != '\n') := by
    rw [lineBehind, List.append_assoc, List.drop_left, List.append_assoc,
      List.takeWhile_append_of_pos]
    intro c hc
    have : c ≠ '\n' := fun e => hfront (e ▸ hc)
    simpa using this
  rw [htext] at hne ⊢
  rw [hline]
  exact trimmedText_prefix hne _

/-! ## 4. Whole lines -/

section Parse

variable {env : ParseEnv} {text : List Char}

/-- What one stored instruction is, beside its line. -/
theorem whole_iff {before after : List (List Char)} {piece : List Char}
    (hpieces : fgetsLines MAX_LINE_LEN text = before ++ piece :: after)
    {k : String × InstructionType} (hk : k ∈ keywords) {rest : List Char}
    (hcut : trimmedText (cstr piece) = k.1.toList ++ ' ' :: rest) (n : Int32) :
    Whole text (before.flatten,
        { type := k.2, args := rest.take (MAX_ARG_LEN - 1), lineNumber := n }) ↔
      StartsLine before.flatten ∧ n.toInt = before.flatten.count '\n' + 1 ∧
      trimmedText (lineBehind text before.flatten) = trimmedText (cstr piece) ∧
      rest.length ≤ MAX_ARG_LEN - 1 := by
  constructor
  · rintro ⟨hstarts, hnumber, k', hk', htype, hcomplete⟩
    obtain rfl := keyword_of_type k' hk' k hk htype
    refine ⟨hstarts, hnumber, ?_⟩
    have htext : text = before.flatten ++ piece ++ after.flatten := by
      rw [← fgetsLines_flatten MAX_LINE_LEN text, hpieces]
      simp
    have hmem : piece ∈ fgetsLines MAX_LINE_LEN text := by
      rw [hpieces]; simp
    have hfront := trimmed_piece_prefix before.flatten after.flatten
      (mem_fgetsLines hmem).2 (by rw [hcut]; simp)
    rw [← htext] at hfront
    simp only at hcomplete
    have hlen := hfront.length_le
    rw [hcomplete, hcut, List.length_append, List.length_append, List.length_cons,
      List.length_cons, List.length_take] at hlen
    have hshort : rest.length ≤ MAX_ARG_LEN - 1 := by omega
    rw [List.take_of_length_le hshort] at hcomplete
    exact ⟨hcomplete.trans hcut.symm, hshort⟩
  · rintro ⟨hstarts, hnumber, hline, hshort⟩
    refine ⟨hstarts, hnumber, k, hk, rfl, ?_⟩
    simp only
    rw [hline, hcut, List.take_of_length_le hshort]

theorem linesWhole_iff (henv : env.Granted) : LinesWhole env text ↔ PiecesWhole text := by
  have hall : LinesWhole env text ↔ ∀ r ∈ storedRounds env text, Whole text r :=
    ⟨fun h => h.whole, fun h => ⟨h, one_a_line_of_whole henv h⟩⟩
  rw [hall, storedRounds_eq henv]
  constructor
  · intro h before piece after hpieces hflag k hk rest hcut
    refine (whole_iff hpieces hk hcut _).mp (h _ (mem_roundsFrom.mpr
      ⟨before, piece, after, hpieces, rfl, ?_⟩))
    have hup : before.foldl (fun flag piece => flagAfter flag (cstr piece)) false = false := hflag
    rw [hup, Nat.add_comm]
    exact lineEntry_some_iff.mpr ⟨k, hk, rest, hcut, rfl⟩
  · rintro h ⟨b, e⟩ hr
    obtain ⟨before, piece, after, hpieces, hb, he⟩ := mem_roundsFrom.mp hr
    simp only [List.nil_append] at hb he
    subst hb
    cases hflag : before.foldl (fun flag piece => flagAfter flag (cstr piece)) false with
    | true =>
      rw [hflag] at he
      simp [roundEntry] at he
    | false =>
      rw [hflag, Nat.add_comm] at he
      obtain ⟨k, hk, rest, hcut, rfl⟩ := lineEntry_some_iff.mp he
      exact (whole_iff hpieces hk hcut _).mpr (h before piece after hpieces hflag k hk rest hcut)

/-- A parse stores whole physical lines exactly when its pieces do not
cut any. -/
theorem stored_whole_iff {denied : Bool} {cwd : Path} {fs : FileSystem} {filePath : List Char}
    (henv : env.Granted) (hopen : fs.openRead cwd filePath denied = some text) :
    ∃ dockerfile, parseDockerfile env denied cwd fs filePath = some dockerfile ∧
      dockerfile.instructions.map DockerfileInstruction.entry
        = (storedRounds env text).map Prod.snd ∧
      (LinesWhole env text ↔ PiecesWhole text) := by
  obtain ⟨dockerfile, hparse, hentries⟩ := parseText_rounds henv text
  refine ⟨dockerfile, ?_, hentries, linesWhole_iff henv⟩
  rw [parseDockerfile, hopen, Option.bind_some, hparse]

end Parse

/-- The two lines of the sample are one piece each. -/
theorem piecesWhole_sample : PiecesWhole sampleText := by
  have hpieces : fgetsLines MAX_LINE_LEN sampleText
      = ["FROM ubuntu:latest\n".toList, "LABEL maintainer=\"docker-clone\"\n".toList] := by decide
  have hrest : ∀ {piece word rest : List Char}, trimmedText (cstr piece) = word ++ ' ' :: rest →
      (trimmedText (cstr piece)).length ≤ 511 → rest.length ≤ MAX_ARG_LEN - 1 := by
    intro piece word rest htext hlen
    rw [htext, List.length_append, List.length_cons] at hlen
    rw [MAX_ARG_LEN]
    omega
  intro before piece after hsplit _ k _ rest htext
  rw [hpieces] at hsplit
  rcases before with _ | ⟨first, _ | ⟨second, before⟩⟩
  · obtain ⟨rfl, -⟩ := List.cons.inj hsplit
    exact ⟨Or.inl rfl, by decide, by decide, hrest htext (by decide)⟩
  · obtain ⟨rfl, hnext⟩ := List.cons.inj hsplit
    obtain ⟨rfl, -⟩ := List.cons.inj hnext
    exact ⟨Or.inr (by decide), by decide, by decide, hrest htext (by decide)⟩
  · have hlen := congrArg List.length hsplit
    simp at hlen

theorem sample_whole :
    ∃ dockerfile, parseDockerfile grantedEnv false [] sampleHost "Dockerfile".toList
        = some dockerfile ∧
      dockerfile.instructions.map DockerfileInstruction.entry
        = (storedRounds grantedEnv sampleText).map Prod.snd ∧
      LinesWhole grantedEnv sampleText := by
  have hgranted : grantedEnv.Granted := ⟨rfl, rfl, fun _ => rfl⟩
  have hopen : sampleHost.openRead [] "Dockerfile".toList false = some sampleText := by decide
  obtain ⟨dockerfile, hparse, hentries, hiff⟩ := stored_whole_iff hgranted hopen
  exact ⟨dockerfile, hparse, hentries, hiff.mpr piecesWhole_sample⟩

/-- A comment as long as the buffer. -/
def longComment : List Char := '#' :: List.replicate 1022 'x'

/-- Its tail, on the same line, is run. -/
theorem comment_tail_runs :
    ¬ LinesWhole grantedEnv (longComment ++ "RUN reboot".toList) := by
  have hpieces : fgetsLines MAX_LINE_LEN (longComment ++ "RUN reboot".toList)
      = [longComment] ++ "RUN reboot".toList :: [] := by
    have hline : '\n' ∉ longComment := by
      intro hm
      rcases List.mem_cons.mp hm with he | hm
      · exact absurd he (by decide)
      · exact absurd (List.eq_of_mem_replicate hm) (by decide)
    have hsize : longComment.length + 1 = MAX_LINE_LEN := by
      rw [longComment, List.length_cons, List.length_replicate]
      rfl
    rw [fgetsLines_full hline (List.cons_ne_nil _ _) hsize,
      fgetsLines_last (by decide) (by decide) (by decide)]
    rfl
  have hcomment : behindBackslash [longComment] = false := by
    have hhead : (trimWhitespace (cstr longComment)).head? = some '#' := by
      rw [longComment, cstr, List.takeWhile_cons_of_pos (by decide), trimWhitespace,
        List.dropWhile_cons_of_neg (by decide)]
      rfl
    rw [behindBackslash, List.foldl_cons, List.foldl_nil, flagAfter, if_pos (Or.inr hhead)]
  intro h
  have hstarts := ((linesWhole_iff ⟨rfl, rfl, fun _ => rfl⟩).mp h [longComment] _ [] hpieces
    hcomment ("RUN", .RUN) (by decide) "reboot".toList (by decide)).1
  rw [List.flatten_singleton] at hstarts
  rcases hstarts with hnil | hlast
  · exact List.cons_ne_nil _ _ hnil
  · rw [longComment, List.getLast?_cons, List.getLast?_replicate] at hlast
    exact absurd hlast (by decide)

end DockerClone.Build
