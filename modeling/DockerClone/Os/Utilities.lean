/-
DockerClone.Os.Utilities — what callers rely on of `cp`, `echo` and
`chmod` behind `system`.

`Shell.Copies` and `Shell.Echoes` are assumptions on the command lines a
shell runs other than `rm -rf`, as weak as the callers can do with: a
copy into a directory changes nothing but what is below that directory,
and there only entries of a name it was given to copy; an `echo` with its
output redirected writes that one file. Both speak of the line as the
shell reads it, so a line that merely contains the utility's name falls
under neither.

`utilities` is a shell that has them, for runs on concrete inputs.
-/
import DockerClone.Os.Shell
import Mathlib.Data.List.Sort

namespace DockerClone.Os

open FileSystem

/-- Strictly below a directory. -/
def Below (d q : Path) : Prop := d <+: q ∧ q ≠ d

instance (d q : Path) : Decidable (Below d q) := by unfold Below; infer_instance

theorem below_iff {d q : Path} : Below d q ↔ ∃ n r, q = d ++ n :: r := by
  constructor
  · rintro ⟨⟨rest, rfl⟩, hne⟩
    cases rest with
    | nil => simp at hne
    | cons n r => exact ⟨n, r, rfl⟩
  · rintro ⟨n, r, rfl⟩
    exact ⟨List.prefix_append d _, by simp⟩

/-! ## 1. Copying -/

/-- `cp -r <source>/* <target>/`. -/
def copyCommand (source target : List Char) : List Char :=
  "cp -r ".toList ++ ((source ++ ['/', '*']) ++ ' ' :: (target ++ ['/']))

theorem length_copyCommand (source target : List Char) :
    (copyCommand source target).length = source.length + target.length + 10 := by
  have hcp : "cp -r ".toList.length = 6 := by decide
  unfold copyCommand
  simp only [List.length_append, List.length_cons, List.length_nil, hcp]
  omega

/-- A word that `cp` takes for a path. -/
structure CopyWord (w : List Char) : Prop where
  literal : LiteralWord w
  no_option : w.head? ≠ some '-'

/-- An entry that `*` stands for. -/
def visible (n : Name) : Bool := n.head? != some '.'

structure Shell.Copies (sh : Shell) : Prop where
  /-- Whatever its status, a copy changes only what is below its
  target. -/
  frame : ∀ {source target : List Char} (fs : FileSystem), CopyWord source → CopyWord target →
    target.head? = some '/' → ∀ q, ¬ Below (normalize target) q →
      (sh.other (copyCommand source target) fs).2.node q = fs.node q
  /-- And only under the names of entries of its source. -/
  unnamed : ∀ {source target : List Char} {fs : FileSystem} {d : Path}, CopyWord source →
    CopyWord target → target.head? = some '/' → source.head? = some '/' →
      fs.resolve [] source = .ok d → ∀ n r, fs.node (d ++ [n]) = none →
        (sh.other (copyCommand source target) fs).2.node (normalize target ++ n :: r)
          = fs.node (normalize target ++ n :: r)

/-- A copy into a directory fails only when there is nothing to copy. -/
structure Shell.CopiesVisible (sh : Shell) : Prop where
  status : ∀ {source target : List Char} {fs : FileSystem} {d t : Path}, CopyWord source →
    CopyWord target → target.head? = some '/' → source.head? = some '/' →
      fs.resolve [] source = .ok d → fs.resolve [] target = .ok t → fs.node t = some .dir →
        ((sh.other (copyCommand source target) fs).1 = 0 ↔
          ∃ n, visible n = true ∧ fs.node (d ++ [n]) ≠ none)

/-- An unquoted star makes a word a pattern. -/
theorem isPattern_star : ∀ {w : List Piece}, { char := '*', quoted := false } ∈ w →
    isPattern w = true
  | [], h => by simp at h
  | p :: rest, h => by
      rw [isPattern]
      rcases List.mem_cons.mp h with rfl | h
      · simp
      · rw [isPattern_star h, Bool.or_true]

theorem tokenize_copyCommand {source target : List Char} (hs : LiteralWord source)
    (ht : LiteralWord target) :
    tokenize (copyCommand source target)
      = some [.word (pieces false "cp".toList), .word (pieces false "-r".toList),
          .word (pieces false (source ++ ['/', '*'])),
          .word (pieces false (target ++ ['/']))] := by
  have hfront : ∀ {w tail : List Char}, LiteralWord w → (w ++ tail).head? ≠ some '#' := by
    intro w tail hw
    obtain ⟨c, rest, rfl⟩ := List.exists_cons_of_ne_nil hw.ne_nil
    exact hw.no_comment
  have hplain : ∀ {w tail : List Char}, LiteralWord w → (∀ c ∈ tail, isSpecialChar c = false) →
      ∀ c ∈ w ++ tail, isSpecialChar c = false := by
    intro w tail hw htail c hc
    rcases List.mem_append.mp hc with hc | hc
    · exact hw.no_special c hc
    · exact htail c hc
  have hstart : "cp -r ".toList.foldl Lexer.step Lexer.start
      = { mode := .plain, word := none,
          tokens := [.word (pieces false "cp".toList), .word (pieces false "-r".toList)] } := by
    decide
  have hsource := Lexer.fold_word_blank
    (l := { mode := .plain, word := none,
            tokens := [.word (pieces false "cp".toList), .word (pieces false "-r".toList)] })
    rfl rfl (by simp : source ++ ['/', '*'] ≠ []) (hfront hs) (hplain hs (by decide))
    (target ++ ['/'])
  have htarget := Lexer.fold_word
    (l := { mode := .plain, word := none,
            tokens := [.word (pieces false "cp".toList), .word (pieces false "-r".toList),
              .word (pieces false (source ++ ['/', '*']))] })
    rfl rfl (by simp : target ++ ['/'] ≠ []) (hfront ht) (hplain ht (by decide))
  have hfold := (hsource.trans htarget)
  unfold tokenize copyCommand
  rw [List.foldl_append, hstart, hfold]
  rfl

/-- The star keeps a copy from being a simple command of literal words. -/
theorem simpleCommand_copyCommand {source target : List Char} (hs : LiteralWord source)
    (ht : LiteralWord target) : simpleCommand (copyCommand source target) = none := by
  have hpattern : literalField (pieces false (source ++ ['/', '*'])) = none := by
    rw [literalField, if_pos]
    exact Or.inl (isPattern_star (List.mem_map.mpr ⟨'*', by simp, rfl⟩))
  have hcp : literalField (pieces false "cp".toList) = some "cp".toList := by decide
  have hr : literalField (pieces false "-r".toList) = some "-r".toList := by decide
  have hread : readCommand [.word (pieces false "cp".toList), .word (pieces false "-r".toList),
      .word (pieces false (source ++ ['/', '*'])),
      .word (pieces false (target ++ ['/']))] = none := by
    rw [readCommand, hcp, readCommand, hr, readCommand, hpattern]
    rfl
  rw [simpleCommand, tokenize_copyCommand hs ht, Option.bind_some, hread]
  rfl

theorem Shell.system_copy (sh : Shell) (cwd : Path) (fs : FileSystem) {source target : List Char}
    (hs : LiteralWord source) (ht : LiteralWord target) :
    sh.system cwd fs (copyCommand source target)
      = if sh.available then sh.other (copyCommand source target) fs else (-1, fs) := by
  rw [Shell.system, parseRm, simpleCommand_copyCommand hs ht]

/-! ## 2. Writing -/

/-- `echo <text> > <file>`. -/
def IsEcho (line text file : List Char) : Prop :=
  simpleCommand line = some { words := ["echo".toList, text], output := some file }

/-- `chmod +x <file>`. -/
def IsChmod (line file : List Char) : Prop :=
  simpleCommand line
    = some { words := ["chmod".toList, "+x".toList, file], output := none }

/-- What an `echo` and a `chmod` that succeed have done; `printed` is the
output of `echo` on its argument. Modes are no part of a file system. -/
structure Shell.Echoes (sh : Shell) (printed : List Char → List Char) : Prop where
  echo : ∀ {line text file : List Char} {fs : FileSystem}, IsEcho line text file →
    file.head? = some '/' → (sh.other line fs).1 = 0 →
      ∃ fs', fs.openWrite [] file false (printed text) = .ok fs' ∧
        ∀ q, (sh.other line fs).2.node q = fs'.node q
  chmod : ∀ {line file : List Char} {fs : FileSystem}, IsChmod line file →
    (sh.other line fs).1 = 0 → ∀ q, (sh.other line fs).2.node q = fs.node q

namespace Lexer

section Redirection

variable {file : List Char}

/-- The quote that ends an argument and the `>` behind it, where the
argument is read between single quotes. -/
theorem fold_close {l : Lexer} (hl : l.mode = .single) {w : List Piece} (hw : l.word = some w)
    (rest : List Char) :
    ("' > ".toList ++ rest).foldl step l
      = rest.foldl step
          { mode := .plain, word := none, tokens := l.tokens ++ [.word w] ++ [.operator '>'] } := by
  obtain ⟨mode, word, tokens⟩ := l
  obtain rfl : mode = .single := hl
  obtain rfl : word = some w := hw
  rfl

/-- A lexer between double quotes. -/
def InDouble (l : Lexer) : Prop := l.mode = .double ∨ l.mode = .doubleEscape ∨ l.mode = .failed

/-- Only a double quote ends what a double quote began. -/
theorem fold_inDouble {w : List Char} (hw : '"' ∉ w) {l : Lexer} (hl : InDouble l) :
    InDouble (w.foldl step l) := by
  induction w generalizing l with
  | nil => exact hl
  | cons c w ih =>
    have hc : c ≠ '"' := fun e => hw (by simp [e])
    refine ih (fun hm => hw (List.mem_cons_of_mem c hm)) ?_
    rcases hl with hl | hl | hl
    · simp only [step, hl, if_neg hc]
      split
      · exact Or.inr (Or.inl rfl)
      · split
        · exact Or.inr (Or.inr rfl)
        · exact Or.inl hl
    · simp only [step, hl]
      split
      · exact Or.inl rfl
      · split
        · exact Or.inl rfl
        · exact Or.inl rfl
    · simp only [step, hl]
      exact Or.inr (Or.inr hl)

theorem InDouble.not_accepts {l : Lexer} (h : InDouble l) : l.accepts = false := by
  rcases h with h | h | h <;> simp [accepts, h]

theorem fold_comment {w : List Char} (hw : '\n' ∉ w) {l : Lexer} (hl : l.mode = .comment) :
    w.foldl step l = l := by
  induction w with
  | nil => rfl
  | cons c w ih =>
    have hc : c ≠ '\n' := fun e => hw (by simp [e])
    have hstep : l.step c = l := by
      simp only [step, hl, if_neg hc]
    rw [List.foldl_cons, hstep, ih fun hm => hw (List.mem_cons_of_mem c hm)]

/-- However the lexer comes to the closing quote: if the line is accepted
with the redirection, the quote, the `>` and the blanks around it have
put nothing into the words. -/
theorem emitted_redirection (hfile : ∀ c ∈ file, isSpecialChar c = false) (l : Lexer)
    (haccepts : (("' > ".toList ++ file).foldl step l).accepts = true) :
    (("' > ".toList ++ file).foldl step l).emitted ≤ l.emitted + l.pending + file.length := by
  have hnot : ∀ c, isSpecialChar c = true → c ∉ file := by
    intro c hc hm
    rw [hfile c hm] at hc
    simp at hc
  have hsingle : '\'' ∉ " > ".toList ++ file := by
    rw [List.mem_append, not_or]
    exact ⟨by decide, hnot _ (by decide)⟩
  have hdouble : '"' ∉ "' > ".toList ++ file := by
    rw [List.mem_append, not_or]
    exact ⟨by decide, hnot _ (by decide)⟩
  have hnewline : '\n' ∉ "' > ".toList ++ file := by
    rw [List.mem_append, not_or]
    exact ⟨by decide, hnot _ (by decide)⟩
  -- between double quotes the line does not end
  have hopen : ¬ InDouble l := by
    intro h
    rw [(fold_inDouble hdouble h).not_accepts] at haccepts
    simp at haccepts
  cases hl : l.mode with
  | plain =>
    -- the quote opens a word that nothing ends
    have hstep : l.step '\'' = l.openQuote .single := by
      rw [step_plain hl, stepPlain, if_neg (by decide), if_neg (by decide), if_pos rfl]
    have hline : "' > ".toList ++ file = '\'' :: (" > ".toList ++ file) := by
      have hquote : "' > ".toList = '\'' :: " > ".toList := by decide
      rw [hquote, List.cons_append]
    rw [hline, List.foldl_cons, hstep,
      fold_single (l := l.openQuote .single) rfl (u := l.word.getD []) rfl hsingle] at haccepts
    simp [accepts, openQuote] at haccepts
  | escape =>
    have hstep : ("' > ".toList).foldl step l
        = { mode := .plain, word := none,
            tokens := l.tokens ++ [.word (l.word.getD [] ++ [⟨'\'', true⟩])]
              ++ [.operator '>'] } := by
      obtain ⟨mode, word, tokens⟩ := l
      obtain rfl : mode = .escape := hl
      cases word <;> rfl
    have hrest := fold_emitted file (("' > ".toList).foldl step l)
    rw [List.foldl_append]
    rw [hstep] at hrest ⊢
    simp only [emitted, pending, hl, List.map_append, List.sum_append, List.map_singleton,
      List.sum_singleton, Token.size, List.length_append, List.length_singleton, Option.getD_none,
      List.length_nil] at hrest ⊢
    omega
  | single =>
    have hstep : ("' > ".toList).foldl step l
        = { mode := .plain, word := none, tokens := l.close.tokens ++ [.operator '>'] } := by
      obtain ⟨mode, word, tokens⟩ := l
      obtain rfl : mode = .single := hl
      cases word <;> rfl
    have hrest := fold_emitted file (("' > ".toList).foldl step l)
    have hclose := emitted_close l
    rw [List.foldl_append]
    rw [hstep] at hrest ⊢
    simp only [emitted, pending, hl, close_word, List.map_append, List.sum_append,
      List.map_singleton, List.sum_singleton, Token.size, Option.getD_none,
      List.length_nil] at hrest hclose ⊢
    omega
  | double => exact absurd (Or.inl hl) hopen
  | doubleEscape => exact absurd (Or.inr (Or.inl hl)) hopen
  | comment =>
    rw [fold_comment hnewline hl]
    omega
  | failed => exact absurd (Or.inr (Or.inr hl)) hopen

end Redirection

end Lexer

/-- `echo '<text>' > <file>`. -/
def echoCommand (text file : List Char) : List Char :=
  "echo '".toList ++ (text ++ ("' > ".toList ++ file))

section Echo

variable {text file : List Char}

theorem fold_echo (rest : List Char) :
    ("echo '".toList ++ rest).foldl Lexer.step Lexer.start
      = rest.foldl Lexer.step
          { mode := .single, word := some [], tokens := [.word (pieces false "echo".toList)] } := by
  have hstart : "echo '".toList.foldl Lexer.step Lexer.start
      = { mode := .single, word := some [],
          tokens := [.word (pieces false "echo".toList)] } := by
    decide
  rw [List.foldl_append, hstart]

/-- A text without a single quote is passed on whole. -/
theorem isEcho_echoCommand (htext : '\'' ∉ text) (hfile : LiteralWord file) :
    IsEcho (echoCommand text file) text file := by
  have htokens : tokenize (echoCommand text file)
      = some [.word (pieces false "echo".toList), .word (pieces true text), .operator '>',
          .word (pieces false file)] := by
    have hfold := Lexer.fold_single
      (l := { mode := .single, word := some [],
              tokens := [.word (pieces false "echo".toList)] }) rfl rfl htext
    unfold echoCommand
    rw [tokenize, fold_echo, List.foldl_append, hfold,
      Lexer.fold_close rfl rfl, Lexer.fold_word rfl rfl hfile.ne_nil hfile.no_comment
        hfile.no_special]
    rfl
  have hecho : literalField (pieces false "echo".toList) = some "echo".toList := by decide
  have hquoted : literalField (pieces true text) = some text := by
    have hhead : (pieces true text).head? ≠ some ⟨'~', false⟩ := by
      cases text with
      | nil => simp [pieces]
      | cons c text => simp [pieces]
    rw [literalField, if_neg (by simp [isPattern_quoted, hhead]), pieces, List.map_map]
    exact congrArg some (List.map_id text)
  have hread : readCommand [.word (pieces false "echo".toList), .word (pieces true text),
      .operator '>', .word (pieces false file)]
      = some { words := ["echo".toList, text], output := some file } := by
    rw [readCommand, hecho, readCommand, hquoted, readCommand, if_pos rfl, hfile.field]
    rfl
  rw [IsEcho, simpleCommand, htokens, Option.bind_some, hread]
  rfl

/-- A text with a single quote is not. -/
theorem not_isEcho_echoCommand (htext : '\'' ∈ text) (hfile : LiteralWord file) :
    ¬ IsEcho (echoCommand text file) text file := by
  intro h
  obtain ⟨haccepts, -, hsize⟩ := simpleCommand_some h
  obtain ⟨before, rest, rfl, hbefore⟩ := List.eq_append_cons_of_mem htext
  -- up to the quote
  have hfold := Lexer.fold_single
    (l := { mode := .single, word := some [],
            tokens := [.word (pieces false "echo".toList)] }) rfl rfl hbefore
  have hquote : Lexer.step
      { mode := .single, word := some ([] ++ pieces true before),
        tokens := [.word (pieces false "echo".toList)] } '\''
      = { mode := .plain, word := some ([] ++ pieces true before),
          tokens := [.word (pieces false "echo".toList)] } := rfl
  unfold echoCommand at haccepts hsize
  rw [fold_echo, List.append_assoc, List.foldl_append, hfold, List.cons_append,
    List.foldl_cons, hquote, List.foldl_append] at haccepts hsize
  -- from there on
  have hend := Lexer.emitted_redirection hfile.no_special _ haccepts
  have hmiddle := Lexer.fold_emitted rest
    { mode := .plain, word := some ([] ++ pieces true before),
      tokens := [.word (pieces false "echo".toList)] }
  have hstart : Lexer.emitted
      { mode := .plain, word := some ([] ++ pieces true before),
        tokens := [.word (pieces false "echo".toList)] } = 4 + before.length := by
    simp [Lexer.emitted, Token.size, pieces]
  have hfields : SimpleCommand.size
      { words := ["echo".toList, before ++ '\'' :: rest], output := some file }
      = 4 + (before.length + (rest.length + 1)) + file.length := by
    simp [SimpleCommand.size]
  have hpending : Lexer.pending
      { mode := .plain, word := some ([] ++ pieces true before),
        tokens := [.word (pieces false "echo".toList)] } = 0 := rfl
  rw [hstart, hpending] at hmiddle
  rw [hfields] at hsize
  omega

end Echo

/-- `chmod +x <file>`. -/
def chmodCommand (file : List Char) : List Char := "chmod +x ".toList ++ file

theorem isChmod_chmodCommand {file : List Char} (hfile : LiteralWord file) :
    IsChmod (chmodCommand file) file := by
  have hstart : "chmod +x ".toList.foldl Lexer.step Lexer.start
      = { mode := .plain, word := none,
          tokens := [.word (pieces false "chmod".toList), .word (pieces false "+x".toList)] } := by
    decide
  have htokens : tokenize (chmodCommand file)
      = some [.word (pieces false "chmod".toList), .word (pieces false "+x".toList),
          .word (pieces false file)] := by
    unfold tokenize chmodCommand
    rw [List.foldl_append, hstart,
      Lexer.fold_word rfl rfl hfile.ne_nil hfile.no_comment hfile.no_special]
    rfl
  have hchmod : literalField (pieces false "chmod".toList) = some "chmod".toList := by decide
  have hmode : literalField (pieces false "+x".toList) = some "+x".toList := by decide
  have hread : readCommand [.word (pieces false "chmod".toList),
      .word (pieces false "+x".toList), .word (pieces false file)]
      = some { words := ["chmod".toList, "+x".toList, file], output := none } := by
    rw [readCommand, hchmod, readCommand, hmode, readCommand, hfile.field]
    rfl
  rw [IsChmod, simpleCommand, htokens, Option.bind_some, hread]
  rfl

theorem IsEcho.parseRm {line text file : List Char} (h : IsEcho line text file) :
    parseRm line = none := by
  rw [Os.parseRm, h]

theorem IsChmod.parseRm {line file : List Char} (h : IsChmod line file) :
    parseRm line = none := by
  rw [Os.parseRm, h]
  simp

/-! ## 3. A shell that has them -/

namespace FileSystem

/-- Put a node where its parent is a directory and no directory is in its
place. -/
def putAt (fs : FileSystem) (p : Path) (x : Node) : FileSystem :=
  match p.getLast? with
  | none => fs
  | some n =>
      if hq : fs.node p.dropLast = some .dir then
        if hn : fs.node (p.dropLast ++ [n]) ≠ some .dir then fs.put p.dropLast n x hq hn
        else fs
      else fs

theorem node_putAt_ne (fs : FileSystem) {p q : Path} (x : Node) (h : q ≠ p) :
    (fs.putAt p x).node q = fs.node q := by
  unfold putAt
  cases hl : p.getLast? with
  | none => rfl
  | some n =>
    simp only
    split
    · split
      · rw [node_put, if_neg (by rw [dropLast_getLast? hl]; exact h)]
      · rfl
    · rfl

/-- The entries below a directory that `*` reaches, those nearer the root
first. -/
def reached (fs : FileSystem) (d : Path) : List (Path × Node) :=
  (fs.entries.filter fun e =>
    d.isPrefixOf e.1 && (e.1.drop d.length).head?.any visible).insertionSort
      fun e e' => e.1.length ≤ e'.1.length

theorem mem_reached {fs : FileSystem} {d : Path} {e : Path × Node} :
    e ∈ fs.reached d ↔ e ∈ fs.entries ∧ ∃ n r, e.1 = d ++ n :: r ∧ visible n = true := by
  rw [reached, List.mem_insertionSort, List.mem_filter, Bool.and_eq_true,
    List.isPrefixOf_iff_prefix]
  refine and_congr_right fun _ => ⟨?_, ?_⟩
  · rintro ⟨⟨r, hr⟩, hvisible⟩
    rw [← hr, List.drop_left] at hvisible
    cases r with
    | nil => simp at hvisible
    | cons n r => exact ⟨n, r, hr.symm, by simpa using hvisible⟩
  · rintro ⟨n, r, hr, hvisible⟩
    rw [hr, List.drop_left]
    exact ⟨List.prefix_append d _, by simpa using hvisible⟩

/-- Listed is there. -/
theorem node_of_mem_entries {fs : FileSystem} {e : Path × Node} (h : e ∈ fs.entries) :
    fs.node e.1 ≠ none := by
  intro hnone
  have := List.lookup_eq_none_iff.mp hnone e h
  simp at this

/-- Copy these entries from below `d` to below `t`. -/
def copyEntries (d t : Path) (entries : List (Path × Node)) (fs : FileSystem) : FileSystem :=
  entries.foldl (fun fs e => fs.putAt (t ++ e.1.drop d.length) e.2) fs

theorem node_copyEntries {d t q : Path} : ∀ {entries : List (Path × Node)} {fs : FileSystem},
    (∀ e ∈ entries, q ≠ t ++ e.1.drop d.length) →
      (copyEntries d t entries fs).node q = fs.node q
  | [], _, _ => rfl
  | e :: entries, fs, h => by
      have hrest : ∀ e' ∈ entries, q ≠ t ++ e'.1.drop d.length :=
        fun e' he' => h e' (List.mem_cons_of_mem e he')
      rw [copyEntries, List.foldl_cons, ← copyEntries, node_copyEntries hrest,
        node_putAt_ne fs e.2 (h e (by simp))]

end FileSystem

/-- The words of a copy. -/
def parseCopy (line : List Char) : Option (List Char × List Char) :=
  match tokenize line with
  | some [.word cp, .word r, .word source, .word target] =>
      if cp = pieces false "cp".toList ∧ r = pieces false "-r".toList ∧
          pieces false ['/', '*'] <:+ source ∧ pieces false ['/'] <:+ target then
        some ((source.map (·.char)).dropLast.dropLast, (target.map (·.char)).dropLast)
      else none
  | _ => none

theorem parseCopy_copyCommand {source target : List Char} (hs : LiteralWord source)
    (ht : LiteralWord target) : parseCopy (copyCommand source target) = some (source, target) := by
  have hchars : ∀ w : List Char, (pieces false w).map (·.char) = w := by
    intro w
    rw [pieces, List.map_map]
    exact List.map_id w
  have hsplit : ∀ w tail : List Char, pieces false (w ++ tail) = pieces false w ++ pieces false tail :=
    fun _ _ => List.map_append
  rw [parseCopy, tokenize_copyCommand hs ht]
  simp only
  rw [if_pos ⟨trivial, trivial, by rw [hsplit]; exact List.suffix_append _ _,
    by rw [hsplit]; exact List.suffix_append _ _⟩, hchars, hchars]
  simp

/-- A copy as `cp` makes it, for absolute paths. -/
def runCopy (source target : List Char) (fs : FileSystem) : Int × FileSystem :=
  match fs.resolve [] source, fs.resolve [] target with
  | .ok d, .ok t =>
      if fs.node t = some .dir then
        if fs.reached d = [] then (256, fs) else (0, copyEntries d t (fs.reached d) fs)
      else (256, fs)
  | _, _ => (256, fs)

/-- `cp`, `echo` and `chmod`; every other line is not found. -/
def runUtility (line : List Char) (fs : FileSystem) : Int × FileSystem :=
  match simpleCommand line with
  | some { words := [utility, text], output := some file } =>
      if utility = "echo".toList then
        match fs.openWrite [] file false (text ++ ['\n']) with
        | .ok fs' => (0, fs')
        | .error _ => (256, fs)
      else (32512, fs)
  | some { words := [utility, mode, file], output := none } =>
      if utility = "chmod".toList ∧ mode = "+x".toList ∧ fs.access [] file = true then (0, fs)
      else (256, fs)
  | _ =>
      match parseCopy line with
      | some (source, target) => runCopy source target fs
      | none => (32512, fs)

/-- A shell whose `echo` ends its argument with a newline. -/
def utilities : Shell where
  available := true
  stuck := []
  other := runUtility

theorem utilities_copy {source target : List Char} (hs : CopyWord source) (ht : CopyWord target)
    (fs : FileSystem) : utilities.other (copyCommand source target) fs = runCopy source target fs := by
  show runUtility (copyCommand source target) fs = runCopy source target fs
  rw [runUtility, simpleCommand_copyCommand hs.literal ht.literal,
    parseCopy_copyCommand hs.literal ht.literal]

theorem utilities_copies : utilities.Copies where
  frame := by
    intro source target fs hs ht habs q hq
    rw [utilities_copy hs ht, runCopy]
    split
    · rename_i d t hd hresolve
      have htarget : t = normalize target := by
        rw [resolve_eq_leadsTo hresolve, leadsTo_absolute habs]
      split
      · split
        · rfl
        · refine node_copyEntries fun e he hqe => hq ?_
          obtain ⟨-, n, r, hr, -⟩ := mem_reached.mp he
          rw [hqe, hr, List.drop_left, ← htarget]
          exact below_iff.mpr ⟨n, r, rfl⟩
      · rfl
    · rfl
  unnamed := by
    intro source target fs d hs ht habs _ hd n r hn
    rw [utilities_copy hs ht, runCopy, hd]
    cases hresolve : fs.resolve [] target with
    | error e => rfl
    | ok t =>
      have htarget : t = normalize target := by
        rw [resolve_eq_leadsTo hresolve, leadsTo_absolute habs]
      simp only
      split
      · split
        · rfl
        · refine node_copyEntries fun e he hqe => ?_
          obtain ⟨hentry, m, r', hr', -⟩ := mem_reached.mp he
          rw [hr', List.drop_left, htarget] at hqe
          obtain ⟨rfl, rfl⟩ := List.cons.inj (List.append_cancel_left hqe)
          -- the entry of that name would be there
          have hnode := node_of_mem_entries hentry
          rw [hr'] at hnode
          exact fs.node_on_way hnode hn
      · rfl

theorem utilities_copiesVisible : utilities.CopiesVisible where
  status := by
    intro source target fs d t hs ht _ _ hd hresolve hdir
    have hempty : fs.reached d = [] ↔
        ¬ ∃ n, visible n = true ∧ fs.node (d ++ [n]) ≠ none := by
      constructor
      · rintro hnil ⟨n, hvisible, hne⟩
        obtain ⟨x, hx⟩ := Option.ne_none_iff_exists'.mp hne
        obtain ⟨before, after, hsplit, -⟩ := List.lookup_eq_some_iff.mp hx
        have hmem : (d ++ [n], x) ∈ fs.reached d :=
          mem_reached.mpr ⟨by rw [hsplit]; simp, n, [], rfl, hvisible⟩
        rw [hnil] at hmem
        simp at hmem
      · intro hno
        rw [List.eq_nil_iff_forall_not_mem]
        intro e he
        obtain ⟨hentry, n, r, hr, hvisible⟩ := mem_reached.mp he
        refine hno ⟨n, hvisible, ?_⟩
        have hnode := node_of_mem_entries hentry
        rw [hr] at hnode
        exact fs.node_on_way hnode
    rw [utilities_copy hs ht, runCopy, hd, hresolve]
    simp only
    rw [if_pos hdir]
    by_cases hnil : fs.reached d = []
    · rw [if_pos hnil]
      simpa using hempty.mp hnil
    · rw [if_neg hnil]
      simpa using (not_congr hempty).mp hnil

theorem utilities_echoes : utilities.Echoes fun text => text ++ ['\n'] where
  echo := by
    intro line text file fs h _ hstatus
    have hother : utilities.other line fs = runUtility line fs := rfl
    rw [hother, runUtility, h] at hstatus ⊢
    simp only [if_true] at hstatus ⊢
    cases hw : fs.openWrite [] file false (text ++ ['\n']) with
    | ok fs' => exact ⟨fs', rfl, fun _ => rfl⟩
    | error e => rw [hw] at hstatus; simp at hstatus
  chmod := by
    intro line file fs h _ q
    have hother : utilities.other line fs = runUtility line fs := rfl
    rw [hother, runUtility, h]
    simp only
    split <;> rfl

end DockerClone.Os
