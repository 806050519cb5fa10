/-
DockerClone.Os.ShellGrammar — how `/bin/sh` cuts a command line.

`tokenize` is token recognition with the quoting rules: backslash, single
quotes, double quotes, comments, operators. A word is a list of pieces,
each a character with the mark whether quoting took its meaning away.
Where the shell would go on to expand something (`$`, a back quote) or to
read on (an open quote), there are no tokens.

`simpleCommand` reads the tokens of a line that is one simple command
with at most one redirection of its output, none of its words subject to
tilde or pathname expansion: the fields the utility gets are then the
words with the quotes removed, whatever the environment and the file
system hold.

The proofs count characters. A step emits at most one character into the
words for the one it reads (`fold_emitted`), and every character that is
special where it stands costs at least one (`emitted_lt_of_special`). A
line whose words are as long as the line less its blanks holds no such
character.
-/
import Mathlib.Data.List.Infix
import Mathlib.Algebra.BigOperators.Group.List.Basic
import Mathlib.Algebra.GroupWithZero.Nat

namespace DockerClone.Os

/-! ## 1. Tokens -/

/-- A character of a word, and whether it was quoted. -/
structure Piece where
  char : Char
  quoted : Bool
  deriving DecidableEq, Repr

/-- The characters of a text, all unquoted or all quoted. -/
def pieces (quoted : Bool) (w : List Char) : List Piece := w.map fun c => ⟨c, quoted⟩

inductive Token where
  | word (pieces : List Piece)
  | operator (c : Char)
  deriving DecidableEq, Repr

/-- What the next character is read as. -/
inductive Mode where
  | plain
  | escape
  | single
  | double
  | doubleEscape
  | comment
  /-- An expansion was met. -/
  | failed
  deriving DecidableEq, Repr

/-- The lexer: the word being read, if one is, and the tokens before it. -/
structure Lexer where
  mode : Mode
  word : Option (List Piece)
  tokens : List Token
  deriving DecidableEq, Repr

def isBlankChar (c : Char) : Bool := c = ' ' ∨ c = '\t'

def isOperatorChar (c : Char) : Bool := "|&;<>()\n".toList.contains c

def backQuote : Char := Char.ofNat 96

/-- A character with a meaning to the lexer wherever it stands unquoted. -/
def isSpecialChar (c : Char) : Bool :=
  isBlankChar c || isOperatorChar c || c = '\'' || c = '"' || c = '\\' || c = '$' || c = backQuote

namespace Lexer

def start : Lexer := { mode := .plain, word := none, tokens := [] }

/-- End the word being read. -/
def close (l : Lexer) : Lexer :=
  match l.word with
  | none => l
  | some w => { l with word := none, tokens := l.tokens ++ [.word w] }

def push (l : Lexer) (c : Char) (quoted : Bool) : Lexer :=
  { l with word := some (l.word.getD [] ++ [{ char := c, quoted := quoted }]) }

/-- A quote starts a word, even an empty one. -/
def openQuote (l : Lexer) (mode : Mode) : Lexer :=
  { l with mode := mode, word := some (l.word.getD []) }

/-- The word being read is the number of a descriptor. -/
def readsNumber (l : Lexer) : Bool :=
  match l.word with
  | none => false
  | some w => w.all fun p => !p.quoted && p.char.isDigit

def stepPlain (l : Lexer) (c : Char) : Lexer :=
  if isBlankChar c then l.close
  else if isOperatorChar c then
    if (c = '<' ∨ c = '>') ∧ l.readsNumber = true then { l with mode := .failed }
    else { l.close with tokens := l.close.tokens ++ [.operator c] }
  else if c = '\'' then l.openQuote .single
  else if c = '"' then l.openQuote .double
  else if c = '\\' then { l with mode := .escape }
  else if isSpecialChar c then { l with mode := .failed }
  else if c = '#' ∧ l.word = none then { l with mode := .comment }
  else l.push c false

def step (l : Lexer) (c : Char) : Lexer :=
  match l.mode with
  | .plain => l.stepPlain c
  | .escape =>
      -- an escaped newline joins two lines
      if c = '\n' then { l with mode := .plain }
      else { l.push c true with mode := .plain }
  | .single => if c = '\'' then { l with mode := .plain } else l.push c true
  | .double =>
      if c = '"' then { l with mode := .plain }
      else if c = '\\' then { l with mode := .doubleEscape }
      else if c = '$' ∨ c = backQuote then { l with mode := .failed }
      else l.push c true
  | .doubleEscape =>
      if c = '\n' then { l with mode := .double }
      else if c = '"' ∨ c = '\\' ∨ c = '$' ∨ c = backQuote then
        { l.push c true with mode := .double }
      else { (l.push '\\' true).push c true with mode := .double }
  | .comment =>
      if c = '\n' then { l with mode := .plain, tokens := l.tokens ++ [.operator c] } else l
  | .failed => l

/-- The line may end here. -/
def accepts (l : Lexer) : Bool := l.mode = .plain ∨ l.mode = .comment

end Lexer

def tokenize (line : List Char) : Option (List Token) :=
  let l := line.foldl Lexer.step Lexer.start
  if l.accepts then some l.close.tokens else none

/-! ## 2. Simple commands -/

/-- Behind an unquoted bracket: the bracket is closed again. -/
def closesBracket (rest : List Piece) : Bool :=
  let members := if rest.head? = some { char := '!', quoted := false } then rest.drop 1 else rest
  (members.drop 1).contains { char := ']', quoted := false }

/-- The word is subject to pathname expansion. -/
def isPattern : List Piece → Bool
  | [] => false
  | p :: rest =>
      (!p.quoted && (p.char = '*' || p.char = '?' || (p.char = '[' && closesBracket rest)))
        || isPattern rest

/-- The field a word stands for, if nothing in it is expanded. -/
def literalField (w : List Piece) : Option (List Char) :=
  if isPattern w ∨ w.head? = some { char := '~', quoted := false } then none
  else some (w.map (·.char))

structure SimpleCommand where
  words : List (List Char)
  /-- The target of `>`. -/
  output : Option (List Char)
  deriving DecidableEq, Repr

def readCommand : List Token → Option SimpleCommand
  | [] => some { words := [], output := none }
  | .word w :: rest =>
      (literalField w).bind fun field =>
        (readCommand rest).map fun s => { s with words := field :: s.words }
  | .operator c :: .word w :: rest =>
      if c = '>' then
        (literalField w).bind fun field =>
          (readCommand rest).bind fun s =>
            if s.output = none then some { s with output := some field } else none
      else none
  | .operator _ :: _ => none

/-- Words that are no utility names where a command starts. -/
def reservedWords : List String :=
  ["!", "\x7b", "\x7d", "case", "do", "done", "elif", "else", "esac", "fi", "for", "if", "in",
    "then", "until", "while"]

/-- The first word is a utility's name: no reserved word, no assignment. -/
def SimpleCommand.named (s : SimpleCommand) : Bool :=
  s.words.head?.all fun w => !w.contains '=' && !(reservedWords.map String.toList).contains w

def simpleCommand (line : List Char) : Option SimpleCommand :=
  ((tokenize line).bind readCommand).filter SimpleCommand.named

/-! ## 3. Characters emitted -/

def Token.size : Token → Nat
  | .word pieces => pieces.length
  | .operator _ => 0

namespace Lexer

/-- The characters in the words so far. -/
def emitted (l : Lexer) : Nat := (l.tokens.map Token.size).sum + (l.word.getD []).length

/-- A backslash whose character has not come yet. -/
def pending (l : Lexer) : Nat :=
  match l.mode with
  | .escape | .doubleEscape => 1
  | _ => 0

@[simp] theorem close_mode (l : Lexer) : l.close.mode = l.mode := by
  rw [close]; cases l.word <;> rfl

@[simp] theorem close_word (l : Lexer) : l.close.word = none := by
  rw [close]
  cases h : l.word with
  | none => exact h
  | some w => rfl

@[simp] theorem emitted_close (l : Lexer) : l.close.emitted = l.emitted := by
  rw [close]
  cases h : l.word with
  | none => rfl
  | some w => simp [emitted, h, Token.size]

@[simp] theorem push_mode (l : Lexer) (c : Char) (quoted : Bool) :
    (l.push c quoted).mode = l.mode := rfl

@[simp] theorem emitted_push (l : Lexer) (c : Char) (quoted : Bool) :
    (l.push c quoted).emitted = l.emitted + 1 := by
  simp [emitted, push]
  omega

theorem emitted_openQuote (l : Lexer) (mode : Mode) : (l.openQuote mode).emitted = l.emitted := by
  simp [emitted, openQuote]

/-- The mode is no part of the count. -/
@[simp] theorem emitted_mode (l : Lexer) (mode : Mode) :
    ({ l with mode := mode } : Lexer).emitted = l.emitted := rfl

theorem emitted_operator (l : Lexer) (c : Char) :
    ({ l with tokens := l.tokens ++ [.operator c] } : Lexer).emitted = l.emitted := by
  simp [emitted, Token.size]

/-- A special character met in plain mode emits nothing. -/
theorem stepPlain_special {l : Lexer} (hl : l.mode = .plain) {c : Char}
    (hc : isSpecialChar c = true) :
    (l.stepPlain c).emitted = l.emitted ∧
      ((l.stepPlain c).mode = .escape ∨ (l.stepPlain c).pending = 0) := by
  rw [stepPlain, if_pos hc]
  split
  · exact ⟨emitted_close l, Or.inr (by simp [pending, hl])⟩
  · split
    · split
      · exact ⟨rfl, Or.inr rfl⟩
      · refine ⟨?_, Or.inr (by simp [pending, hl])⟩
        rw [emitted_operator, emitted_close]
    · split
      · exact ⟨emitted_openQuote l .single, Or.inr rfl⟩
      · split
        · exact ⟨emitted_openQuote l .double, Or.inr rfl⟩
        · split
          · exact ⟨rfl, Or.inl rfl⟩
          · exact ⟨rfl, Or.inr rfl⟩

theorem stepPlain_plain (l : Lexer) {c : Char} (hc : isSpecialChar c = false)
    (hhash : c = '#' → l.word ≠ none) : l.stepPlain c = l.push c false := by
  have hparts := hc
  simp only [isSpecialChar, Bool.or_eq_false_iff, decide_eq_false_iff_not] at hparts
  obtain ⟨⟨⟨⟨⟨⟨hblank, hoperator⟩, hsingle⟩, hdouble⟩, hback⟩, -⟩, -⟩ := hparts
  rw [stepPlain, if_neg (by simp [hblank]), if_neg (by simp [hoperator]), if_neg hsingle,
    if_neg hdouble, if_neg hback, if_neg (by simp [hc]), if_neg fun h => hhash h.1 h.2]

theorem step_plain {l : Lexer} (hl : l.mode = .plain) (c : Char) : l.step c = l.stepPlain c := by
  rw [step, hl]

theorem step_single {l : Lexer} (hl : l.mode = .single) {c : Char} (hc : c ≠ '\'') :
    l.step c = l.push c true := by
  rw [step, hl]
  simp only [if_neg hc]

/-- One character in, at most one out. -/
theorem emitted_step (l : Lexer) (c : Char) :
    (l.step c).emitted + (l.step c).pending ≤ l.emitted + l.pending + 1 := by
  have hplain : l.mode = .plain → (l.stepPlain c).emitted + (l.stepPlain c).pending
      ≤ l.emitted + 1 := by
    intro hl
    by_cases hc : isSpecialChar c = true
    · obtain ⟨hemit, hescape | hnone⟩ := stepPlain_special hl hc
      · rw [hemit, pending, hescape]
      · rw [hemit, hnone]; omega
    · by_cases hhash : c = '#' ∧ l.word = none
      · obtain ⟨rfl, hword⟩ := hhash
        have hcomment : l.stepPlain '#' = { l with mode := .comment } := by
          rw [stepPlain, if_neg (by decide), if_neg (by decide), if_neg (by decide),
            if_neg (by decide), if_neg (by decide), if_neg (by decide), if_pos ⟨rfl, hword⟩]
        rw [hcomment]
        simp [pending]
      · rw [stepPlain_plain l (by simpa using hc) fun h hw => hhash ⟨h, hw⟩, emitted_push]
        simp [pending, hl]
  cases hl : l.mode with
  | plain =>
    have := hplain hl
    simp only [step, hl]
    omega
  | escape =>
    simp only [step, hl]
    split
    · simp only [emitted_mode, pending, hl]
      omega
    · simp [pending, hl]
  | single =>
    simp only [step, hl]
    split
    · simp [pending, hl]
    · simp [pending, hl]
  | double =>
    simp only [step, hl]
    split
    · simp [pending, hl]
    · split
      · simp [pending, hl]
      · split
        · simp [pending, hl]
        · simp [pending, hl]
  | doubleEscape =>
    simp only [step, hl]
    split
    · simp only [emitted_mode, pending, hl]
      omega
    · split
      · simp [pending, hl]
      · simp [pending, hl]
  | comment =>
    simp only [step, hl]
    split
    · have hemit : ({ l with mode := .plain, tokens := l.tokens ++ [.operator c] } : Lexer).emitted
          = l.emitted := emitted_operator l c
      rw [hemit]
      simp [pending, hl]
    · omega
  | failed =>
    simp only [step, hl]
    omega

theorem fold_emitted (w : List Char) (l : Lexer) :
    (w.foldl step l).emitted + (w.foldl step l).pending ≤ l.emitted + l.pending + w.length := by
  induction w generalizing l with
  | nil => simp
  | cons c w ih =>
    have hone := emitted_step l c
    have hrest := ih (l.step c)
    rw [List.foldl_cons, List.length_cons]
    omega

/-- A special character in plain mode costs a character of what is to
come, if the line is accepted at all. -/
theorem fold_special {l : Lexer} (hl : l.mode = .plain) {c : Char} (hc : isSpecialChar c = true)
    (rest : List Char) (haccepts : ((c :: rest).foldl step l).accepts = true) :
    ((c :: rest).foldl step l).emitted ≤ l.emitted + rest.length := by
  have hstep := step_plain hl c
  obtain ⟨hemit, hescape | hnone⟩ := stepPlain_special hl hc
  · rw [List.foldl_cons, hstep] at haccepts ⊢
    cases rest with
    | nil => simp [accepts, hescape] at haccepts
    | cons d rest =>
      rw [List.foldl_cons]
      -- the escaped character takes the backslash's place
      have hnext : ((l.stepPlain c).step d).emitted + ((l.stepPlain c).step d).pending
          ≤ l.emitted + 1 := by
        simp only [step, hescape]
        split
        · simp only [emitted_mode, pending, hemit]
          omega
        · simp [pending, hemit]
      have hrest := fold_emitted rest ((l.stepPlain c).step d)
      rw [List.length_cons]
      omega
  · rw [List.foldl_cons, hstep]
    have hrest := fold_emitted rest (l.stepPlain c)
    omega

/-- Characters without a meaning extend the word being read. -/
theorem fold_plain {l : Lexer} (hl : l.mode = .plain) {u : List Piece} (hu : l.word = some u) :
    ∀ {w : List Char}, (∀ c ∈ w, isSpecialChar c = false) →
      w.foldl step l = { l with word := some (u ++ pieces false w) }
  | [], _ => by
      rw [List.foldl_nil, pieces, List.map_nil, List.append_nil, ← hu]
  | c :: w, h => by
      have hstep : l.step c = { l with word := some (u ++ [⟨c, false⟩]) } := by
        rw [step_plain hl, stepPlain_plain l (h c (by simp)) (by simp [hu]), push, hu]
        rfl
      rw [List.foldl_cons, hstep,
        fold_plain (l := { l with word := some (u ++ [⟨c, false⟩]) }) hl rfl
          (fun d hd => h d (List.mem_cons_of_mem c hd))]
      simp [pieces]

/-- A word whose first character starts no comment. -/
theorem fold_word {l : Lexer} (hl : l.mode = .plain) (hword : l.word = none) {w : List Char}
    (hne : w ≠ []) (hhash : w.head? ≠ some '#') (h : ∀ c ∈ w, isSpecialChar c = false) :
    w.foldl step l = { l with word := some (pieces false w) } := by
  obtain ⟨c, w, rfl⟩ := List.exists_cons_of_ne_nil hne
  have hstep : l.step c = { l with word := some [⟨c, false⟩] } := by
    rw [step_plain hl, stepPlain_plain l (h c (by simp)) (fun he => absurd (by simp [he]) hhash),
      push, hword]
    rfl
  rw [List.foldl_cons, hstep,
    fold_plain (l := { l with word := some [⟨c, false⟩] }) hl rfl
      (fun d hd => h d (List.mem_cons_of_mem c hd))]
  rfl

/-- A word with a blank behind it. -/
theorem fold_word_blank {l : Lexer} (hl : l.mode = .plain) (hword : l.word = none)
    {w : List Char} (hne : w ≠ []) (hhash : w.head? ≠ some '#')
    (h : ∀ c ∈ w, isSpecialChar c = false) (rest : List Char) :
    (w ++ ' ' :: rest).foldl step l
      = rest.foldl step { l with tokens := l.tokens ++ [.word (pieces false w)] } := by
  have hblank : ({ l with word := some (pieces false w) } : Lexer).step ' '
      = { l with tokens := l.tokens ++ [.word (pieces false w)] } := by
    rw [step_plain (l := { l with word := some (pieces false w) }) hl, stepPlain,
      if_pos (by decide), close]
    simp only [hword]
  rw [List.foldl_append, fold_word hl hword hne hhash h, List.foldl_cons, hblank]

/-- Between single quotes everything but the quote is taken as it is. -/
theorem fold_single {l : Lexer} (hl : l.mode = .single) {u : List Piece} (hu : l.word = some u) :
    ∀ {w : List Char}, '\'' ∉ w →
      w.foldl step l = { l with word := some (u ++ pieces true w) }
  | [], _ => by
      rw [List.foldl_nil, pieces, List.map_nil, List.append_nil, ← hu]
  | c :: w, h => by
      have hc : c ≠ '\'' := fun e => h (by simp [e])
      have hstep : l.step c = { l with word := some (u ++ [⟨c, true⟩]) } := by
        rw [step_single hl hc, push, hu]
        rfl
      rw [List.foldl_cons, hstep,
        fold_single (l := { l with word := some (u ++ [⟨c, true⟩]) }) hl rfl
          (fun hm => h (List.mem_cons_of_mem c hm))]
      simp [pieces]

/-- A word with a special character in it comes out shorter than it is. -/
theorem fold_lt_of_special {l : Lexer} (hl : l.mode = .plain) {u : List Piece}
    (hu : l.word = some u) {w : List Char} (hw : ∃ c ∈ w, isSpecialChar c = true)
    (haccepts : (w.foldl step l).accepts = true) :
    (w.foldl step l).emitted < l.emitted + w.length := by
  obtain ⟨c, hc, hfind⟩ : ∃ c, isSpecialChar c = true ∧ w.find? isSpecialChar = some c := by
    cases hf : w.find? isSpecialChar with
    | none =>
      obtain ⟨c, hc, hs⟩ := hw
      exact absurd hs (List.find?_eq_none.mp hf c hc)
    | some c => exact ⟨c, List.find?_some hf, rfl⟩
  obtain ⟨-, before, rest, rfl, hbefore⟩ := List.find?_eq_some_iff_append.mp hfind
  have hplain := fold_plain hl hu (w := before) (fun d hd => by simpa using hbefore d hd)
  rw [List.foldl_append, hplain] at haccepts ⊢
  have hlost := fold_special (l := { l with word := some (u ++ pieces false before) })
    hl hc rest haccepts
  have hstart : ({ l with word := some (u ++ pieces false before) } : Lexer).emitted
      = l.emitted + before.length := by
    simp only [emitted, hu, pieces, Option.getD_some, List.length_append, List.length_map]
    omega
  rw [hstart] at hlost
  rw [List.length_append, List.length_cons]
  omega

end Lexer

/-! ## 4. Fields -/

/-- The characters in the fields of a command. -/
def SimpleCommand.size (s : SimpleCommand) : Nat :=
  (s.words.map List.length).sum + (s.output.getD []).length

theorem length_literalField {w : List Piece} {field : List Char}
    (h : literalField w = some field) : field.length = w.length := by
  rw [literalField] at h
  split at h
  · simp at h
  · rw [← Option.some.inj h, List.length_map]

/-- The fields hold the characters of the words. -/
theorem size_readCommand : ∀ {tokens : List Token} {s : SimpleCommand},
    readCommand tokens = some s → s.size = (tokens.map Token.size).sum
  | [], s, h => by
      obtain rfl := Option.some.inj h
      rfl
  | .word w :: rest, s, h => by
      rw [readCommand] at h
      obtain ⟨field, hfield, h⟩ := Option.bind_eq_some_iff.mp h
      obtain ⟨s', hs', rfl⟩ := Option.map_eq_some_iff.mp h
      have ih := size_readCommand hs'
      have hlen := length_literalField hfield
      simp only [SimpleCommand.size, List.map_cons, List.sum_cons, Token.size] at ih ⊢
      omega
  | [.operator c], s, h => by simp [readCommand] at h
  | .operator c :: .operator d :: rest, s, h => by simp [readCommand] at h
  | .operator c :: .word w :: rest, s, h => by
      rw [readCommand] at h
      split at h
      · obtain ⟨field, hfield, h⟩ := Option.bind_eq_some_iff.mp h
        obtain ⟨s', hs', h⟩ := Option.bind_eq_some_iff.mp h
        split at h
        · rename_i hnone
          obtain rfl := Option.some.inj h
          have ih := size_readCommand hs'
          have hlen := length_literalField hfield
          simp only [SimpleCommand.size, hnone, Option.getD_none, List.length_nil,
            Option.getD_some, List.map_cons, List.sum_cons, Token.size] at ih ⊢
          omega
        · simp at h
      · simp at h

/-- What a simple command was read from. -/
theorem simpleCommand_some {line : List Char} {s : SimpleCommand}
    (h : simpleCommand line = some s) :
    (line.foldl Lexer.step Lexer.start).accepts = true ∧
      readCommand (line.foldl Lexer.step Lexer.start).close.tokens = some s ∧
      s.size = (line.foldl Lexer.step Lexer.start).emitted := by
  rw [simpleCommand, Option.filter_eq_some_iff] at h
  obtain ⟨tokens, htokens, hread⟩ := Option.bind_eq_some_iff.mp h.1
  rw [tokenize] at htokens
  split at htokens
  · rename_i haccepts
    obtain rfl := Option.some.inj htokens
    refine ⟨haccepts, hread, ?_⟩
    rw [size_readCommand hread, ← Lexer.emitted_close, Lexer.emitted, Lexer.close_word]
    rfl
  · simp at htokens

/-- A character that can make a word a pattern. -/
def isPatternChar (c : Char) : Bool := "*?[".toList.contains c

theorem isPattern_append {u : List Piece} (hu : ∀ p ∈ u, isPatternChar p.char = false)
    (v : List Piece) : isPattern (u ++ v) = isPattern v := by
  induction u with
  | nil => rfl
  | cons p u ih =>
    have hp := hu p (by simp)
    have hne : p.char ≠ '*' ∧ p.char ≠ '?' ∧ p.char ≠ '[' := by
      refine ⟨?_, ?_, ?_⟩ <;> intro he <;> rw [he] at hp <;> simp [isPatternChar] at hp
    rw [List.cons_append, isPattern, ih fun q hq => hu q (List.mem_cons_of_mem p hq)]
    simp [hne]

/-- Quoted characters make no pattern. -/
theorem isPattern_quoted (w : List Char) : isPattern (pieces true w) = false := by
  induction w with
  | nil => rfl
  | cons c w ih =>
    rw [pieces, List.map_cons, isPattern, ← pieces, ih]
    simp

/-- Unquoted characters of which none can make a pattern. -/
theorem isPattern_plain {w : List Char} (h : ∀ c ∈ w, isPatternChar c = false) :
    isPattern (pieces false w) = false := by
  rw [← List.append_nil (pieces false w), isPattern_append]
  · rfl
  · intro p hp
    obtain ⟨c, hc, rfl⟩ := List.mem_map.mp hp
    exact h c hc

/-- A word the shell passes on as it stands. -/
structure LiteralWord (w : List Char) : Prop where
  ne_nil : w ≠ []
  no_comment : w.head? ≠ some '#'
  no_tilde : w.head? ≠ some '~'
  no_special : ∀ c ∈ w, isSpecialChar c = false
  no_pattern : isPattern (pieces false w) = false

theorem LiteralWord.field {w : List Char} (h : LiteralWord w) :
    literalField (pieces false w) = some w := by
  have htilde : (pieces false w).head? ≠ some ⟨'~', false⟩ := by
    rw [pieces, List.head?_map]
    intro he
    obtain ⟨c, hc, hp⟩ := Option.map_eq_some_iff.mp he
    exact h.no_tilde (hc.trans (congrArg (fun p : Piece => some p.char) hp))
  have hno : ¬ (isPattern (pieces false w) = true ∨
      (pieces false w).head? = some ⟨'~', false⟩) := by
    rintro (hp | hp)
    · rw [h.no_pattern] at hp; simp at hp
    · exact htilde hp
  rw [literalField, if_neg hno, pieces, List.map_map]
  exact congrArg some (List.map_id w)

end DockerClone.Os
