/-
DockerClone.Os.Shell — `system("rm -rf …")`.

A command line that is one simple command `rm -rf` (`simpleCommand`) is
run as `rm` runs it: each operand is resolved, a missing one is skipped, and the tree
at an existing one is removed entry by entry. An entry that cannot be
removed (`stuck`) stays, and so does every directory above it; `rm` goes
on with the rest and reports the failure in its status. Any other command
line does whatever `other` says: nothing is assumed about it.

`node_rmTree` says what is left after a removal. The two facts callers
need are that nothing outside the operand's tree changes, and that a zero
status means the tree is gone.
-/
import DockerClone.CLib.CString
import DockerClone.Os.FileSystem
import DockerClone.Os.ShellGrammar

namespace DockerClone.Os

/-- What a process finds when it calls `system`. -/
structure Shell where
  /-- A child can be forked and runs `/bin/sh` and `rm`. -/
  available : Bool
  /-- The entries no `unlink` or `rmdir` of `rm` can remove. -/
  stuck : List Path
  /-- Every other command line: its status and its effect. -/
  other : List Char → FileSystem → Int × FileSystem

namespace FileSystem

/-! ## 1. One tree -/

/-- What a removal of the tree at `p` leaves: everything outside it, and
the stuck entries with the directories above them. -/
def survives (fs : FileSystem) (stuck : List Path) (p q : Path) : Bool :=
  !p.isPrefixOf q || stuck.any (fun s => q.isPrefixOf s && (fs.node s).isSome)

theorem survives_root (fs : FileSystem) (stuck : List Path) {p : Path} (hp : p ≠ []) :
    fs.survives stuck p [] = true := by
  obtain ⟨c, p, rfl⟩ := List.exists_cons_of_ne_nil hp
  rfl

theorem survives_parent (fs : FileSystem) (stuck : List Path) {p q : Path} {n : Name}
    (h : fs.survives stuck p (q ++ [n]) = true) : fs.survives stuck p q = true := by
  simp only [survives, Bool.or_eq_true, Bool.not_eq_true', List.any_eq_true,
    Bool.and_eq_true, ← Bool.not_eq_true, List.isPrefixOf_iff_prefix] at h ⊢
  rcases h with h | ⟨s, hs, hqs, hex⟩
  · exact Or.inl fun hpq => h (hpq.trans (List.prefix_append q [n]))
  · exact Or.inr ⟨s, hs, (List.prefix_append q [n]).trans hqs, hex⟩

/-- `rm -rf` of the tree at `p`. -/
def rmTree (fs : FileSystem) (stuck : List Path) (p : Path) (hp : p ≠ []) : FileSystem :=
  fs.keepOnly (fs.survives stuck p) (fs.survives_root stuck hp)
    (fun _ _ h _ => fs.survives_parent stuck h)

/-- No entry of the tree at `p` is stuck. -/
def removable (fs : FileSystem) (stuck : List Path) (p : Path) : Bool :=
  stuck.all (fun s => !p.isPrefixOf s || (fs.node s).isNone)

theorem node_rmTree (fs : FileSystem) (stuck : List Path) (p : Path) (hp : p ≠ []) (q : Path) :
    (fs.rmTree stuck p hp).node q = if fs.survives stuck p q then fs.node q else none :=
  fs.node_keepOnly _ _ _ q

/-- Nothing outside the tree changes. -/
theorem node_rmTree_outside (fs : FileSystem) (stuck : List Path) (p : Path) (hp : p ≠ [])
    {q : Path} (hq : ¬ p <+: q) : (fs.rmTree stuck p hp).node q = fs.node q := by
  have hpre : p.isPrefixOf q = false := by
    rw [← Bool.not_eq_true, List.isPrefixOf_iff_prefix]; exact hq
  rw [node_rmTree, if_pos (by simp [survives, hpre])]

/-- A tree without stuck entries is removed whole. -/
theorem node_rmTree_inside (fs : FileSystem) {stuck : List Path} (p : Path) (hp : p ≠ [])
    (hclean : fs.removable stuck p = true) {q : Path} (hq : p <+: q) :
    (fs.rmTree stuck p hp).node q = none := by
  have hgone : fs.survives stuck p q = false := by
    rw [← Bool.not_eq_true]
    simp only [survives, Bool.or_eq_true, Bool.not_eq_true', List.any_eq_true, Bool.and_eq_true,
      ← Bool.not_eq_true, List.isPrefixOf_iff_prefix, not_or, not_not, not_exists, not_and]
    refine ⟨hq, fun s hs hqs => ?_⟩
    have hall := List.all_eq_true.mp hclean s hs
    have hps : p.isPrefixOf s = true := List.isPrefixOf_iff_prefix.mpr (hq.trans hqs)
    simpa [hps] using hall
  rw [node_rmTree, hgone]
  simp

/-- Whether a tree can be removed depends on that tree. -/
theorem removable_congr {fs fs' : FileSystem} {stuck : List Path} {p : Path}
    (h : ∀ q, p <+: q → fs.node q = fs'.node q) :
    fs.removable stuck p = fs'.removable stuck p := by
  unfold removable
  refine List.all_congr rfl fun s => ?_
  by_cases hp : p <+: s
  · rw [h s hp]
  · have hpre : p.isPrefixOf s = false := by
      rw [← Bool.not_eq_true, List.isPrefixOf_iff_prefix]; exact hp
    simp [hpre]

/-- A removal puts nothing where nothing was. -/
theorem node_rmTree_none (fs : FileSystem) (stuck : List Path) (p : Path) (hp : p ≠ [])
    {q : Path} (h : fs.node q = none) : (fs.rmTree stuck p hp).node q = none := by
  rw [node_rmTree, h]
  simp

/-- A stuck entry stays. -/
theorem node_rmTree_stuck (fs : FileSystem) {stuck : List Path} (p : Path) (hp : p ≠ [])
    {s : Path} (hs : s ∈ stuck) : (fs.rmTree stuck p hp).node s = fs.node s := by
  rw [node_rmTree]
  cases hex : fs.node s with
  | none => simp
  | some x =>
    rw [if_pos]
    simp only [survives, Bool.or_eq_true, List.any_eq_true]
    refine Or.inr ⟨s, hs, ?_⟩
    simp [hex]

/-- A file in the tree stays exactly when it is stuck itself. -/
theorem node_rmTree_file (fs : FileSystem) (stuck : List Path) (p : Path) (hp : p ≠ [])
    {q : Path} {content : List Char} (hfile : fs.node q = some (.file content)) :
    (fs.rmTree stuck p hp).node q
      = if p <+: q ∧ q ∉ stuck then none else some (.file content) := by
  by_cases hpq : p <+: q
  · by_cases hq : q ∈ stuck
    · rw [node_rmTree_stuck fs p hp hq, hfile, if_neg (fun h => h.2 hq)]
    · have hgone : fs.survives stuck p q = false := by
        rw [← Bool.not_eq_true]
        simp only [survives, Bool.or_eq_true, Bool.not_eq_true', List.any_eq_true,
          Bool.and_eq_true, ← Bool.not_eq_true, List.isPrefixOf_iff_prefix, not_or, not_not,
          not_exists, not_and]
        refine ⟨hpq, fun s hs hqs hex => ?_⟩
        -- nothing lies below a file
        obtain ⟨rest, rfl⟩ := hqs
        cases rest with
        | nil => exact hq (by simpa using hs)
        | cons n rest =>
          have hdir := fs.dir_of_prefix (List.cons_ne_nil n rest) (Option.isSome_iff_ne_none.mp hex)
          rw [hfile] at hdir
          simp at hdir
      rw [node_rmTree, hgone, if_neg Bool.false_ne_true, if_pos ⟨hpq, hq⟩]
  · rw [node_rmTree_outside fs stuck p hp hpq, hfile, if_neg (fun h => hpq h.1)]

/-! ## 2. Operands -/

/-- The last component of an operand, trailing slashes ignored. -/
def lastComponent (raw : List Char) : Name :=
  (((raw.splitOn '/').filter (fun c => c != [])).getLast?).getD []

/-- One operand of `rm -rf`: whether it went without an error, and the
table afterwards. `.`, `..` and the root are refused. -/
def rmOperand (fs : FileSystem) (stuck : List Path) (cwd : Path) (raw : List Char) :
    Bool × FileSystem :=
  if lastComponent raw = ['.'] ∨ lastComponent raw = ['.', '.'] then (false, fs)
  else match fs.resolve cwd raw with
    | .error _ => (true, fs)
    | .ok p =>
        if hp : p ≠ [] then (fs.removable stuck p, fs.rmTree stuck p hp)
        else (false, fs)

/-- All operands, one after the other. -/
def rmOperands (fs : FileSystem) (stuck : List Path) (cwd : Path) :
    List (List Char) → Bool × FileSystem
  | [] => (true, fs)
  | raw :: rest =>
      let first := fs.rmOperand stuck cwd raw
      let others := first.2.rmOperands stuck cwd rest
      (first.1 && others.1, others.2)

theorem rmOperand_none (fs : FileSystem) (stuck : List Path) (cwd : Path) (raw : List Char)
    {q : Path} (h : fs.node q = none) : (fs.rmOperand stuck cwd raw).2.node q = none := by
  rw [rmOperand]
  split
  · exact h
  · split
    · exact h
    · split
      · rename_i hp
        exact node_rmTree_none fs stuck _ hp h
      · exact h

theorem rmOperands_none (stuck : List Path) (cwd : Path) {q : Path} :
    ∀ (raws : List (List Char)) (fs : FileSystem), fs.node q = none →
      (fs.rmOperands stuck cwd raws).2.node q = none
  | [], _, h => h
  | raw :: rest, fs, h => rmOperands_none stuck cwd rest _ (rmOperand_none fs stuck cwd raw h)

/-- The trees the operands name, each looked up when its turn comes. -/
def operandTrees (fs : FileSystem) (stuck : List Path) (cwd : Path) : List (List Char) → List Path
  | [] => []
  | raw :: rest =>
      (fs.resolve cwd raw).toOption.toList
        ++ (fs.rmOperand stuck cwd raw).2.operandTrees stuck cwd rest

/-- `rm` takes every operand: none of them ends in `.` or `..`, and none
is the root. -/
def TakesOperands (fs : FileSystem) (stuck : List Path) (cwd : Path) (raws : List (List Char)) :
    Prop :=
  (∀ raw ∈ raws, lastComponent raw ≠ ['.'] ∧ lastComponent raw ≠ ['.', '.']) ∧
    [] ∉ fs.operandTrees stuck cwd raws

theorem node_rmOperand_stuck (fs : FileSystem) {stuck : List Path} (cwd : Path) (raw : List Char)
    {s : Path} (hs : s ∈ stuck) : (fs.rmOperand stuck cwd raw).2.node s = fs.node s := by
  rw [rmOperand]
  split
  · rfl
  · split
    · rfl
    · split
      · rename_i hp
        exact node_rmTree_stuck fs _ hp hs
      · rfl

/-- Whether a tree can be removed does not change while `rm` runs. -/
theorem removable_rmOperand (fs : FileSystem) (stuck : List Path) (cwd : Path) (raw : List Char)
    (p : Path) : (fs.rmOperand stuck cwd raw).2.removable stuck p = fs.removable stuck p := by
  unfold removable
  rw [Bool.eq_iff_iff, List.all_eq_true, List.all_eq_true]
  refine forall₂_congr fun s hs => ?_
  rw [node_rmOperand_stuck fs cwd raw hs]

/-- One operand that is taken: its tree, if there is one, goes whole
exactly when nothing in it is stuck. -/
theorem rmOperand_taken {fs : FileSystem} {stuck : List Path} {cwd : Path} {raw : List Char}
    (hdot : lastComponent raw ≠ ['.'] ∧ lastComponent raw ≠ ['.', '.'])
    (hroot : [] ∉ (fs.resolve cwd raw).toOption.toList) :
    ((fs.rmOperand stuck cwd raw).1 = true ↔
      ∀ t ∈ (fs.resolve cwd raw).toOption.toList, fs.removable stuck t = true) ∧
    ((fs.rmOperand stuck cwd raw).1 = true → ∀ q, (fs.rmOperand stuck cwd raw).2.node q
      = if ∃ t ∈ (fs.resolve cwd raw).toOption.toList, t <+: q then none else fs.node q) := by
  rw [rmOperand, if_neg (by simp [hdot.1, hdot.2])]
  cases hresolve : fs.resolve cwd raw with
  | error e => simp [Except.toOption]
  | ok p =>
    have hp : p ≠ [] := by
      rintro rfl
      exact hroot (by simp [hresolve, Except.toOption])
    simp only [Except.toOption, Option.toList_some, List.mem_singleton, forall_eq, exists_eq_left,
      dif_pos hp, iff_self, true_and]
    intro hclean q
    by_cases hq : p <+: q
    · rw [if_pos hq, node_rmTree_inside fs p hp hclean hq]
    · rw [if_neg hq, node_rmTree_outside fs stuck p hp hq]

/-- An operand that goes without an error was taken. -/
theorem taken_of_rmOperand {fs : FileSystem} {stuck : List Path} {cwd : Path} {raw : List Char}
    (h : (fs.rmOperand stuck cwd raw).1 = true) :
    (lastComponent raw ≠ ['.'] ∧ lastComponent raw ≠ ['.', '.']) ∧
      [] ∉ (fs.resolve cwd raw).toOption.toList := by
  rw [rmOperand] at h
  split at h
  · simp at h
  · rename_i hdot
    refine ⟨not_or.mp hdot, ?_⟩
    cases hresolve : fs.resolve cwd raw with
    | error e => simp [Except.toOption]
    | ok p =>
      rw [hresolve] at h
      rintro hmem
      obtain rfl : [] = p := by simpa [Except.toOption] using hmem
      simp at h

/-- When `rm` reports no error: it takes every operand, and nothing in
the trees they name is stuck. -/
theorem rmOperands_fst_iff (stuck : List Path) (cwd : Path) (raws : List (List Char))
    (fs : FileSystem) :
    (fs.rmOperands stuck cwd raws).1 = true ↔
      fs.TakesOperands stuck cwd raws ∧
        ∀ t ∈ fs.operandTrees stuck cwd raws, fs.removable stuck t = true := by
  induction raws generalizing fs with
  | nil => simp [rmOperands, TakesOperands, operandTrees]
  | cons raw rest ih =>
    simp only [rmOperands, Bool.and_eq_true, ih, TakesOperands, operandTrees, List.forall_mem_cons,
      List.forall_mem_append, removable_rmOperand]
    rw [List.mem_append, not_or]
    constructor
    · rintro ⟨hfirst, ⟨hdots, hroots⟩, hclean⟩
      obtain ⟨hdot, hroot⟩ := taken_of_rmOperand hfirst
      exact ⟨⟨⟨hdot, hdots⟩, hroot, hroots⟩, (rmOperand_taken hdot hroot).1.mp hfirst, hclean⟩
    · rintro ⟨⟨⟨hdot, hdots⟩, hroot, hroots⟩, hfirst, hclean⟩
      exact ⟨(rmOperand_taken hdot hroot).1.mpr hfirst, ⟨hdots, hroots⟩, hclean⟩

/-- What is left then: everything outside these trees, and nothing else. -/
theorem node_rmOperands {stuck : List Path} {cwd : Path} {raws : List (List Char)}
    {fs : FileSystem} (h : (fs.rmOperands stuck cwd raws).1 = true) (q : Path) :
    (fs.rmOperands stuck cwd raws).2.node q
      = if ∃ t ∈ fs.operandTrees stuck cwd raws, t <+: q then none else fs.node q := by
  induction raws generalizing fs with
  | nil => simp [rmOperands, operandTrees]
  | cons raw rest ih =>
    simp only [rmOperands, Bool.and_eq_true] at h
    obtain ⟨hdot, hroot⟩ := taken_of_rmOperand h.1
    rw [rmOperands, ih h.2, (rmOperand_taken hdot hroot).2 h.1, operandTrees]
    simp only [List.mem_append, or_and_right, exists_or]
    by_cases hfirst : ∃ t ∈ (fs.resolve cwd raw).toOption.toList, t <+: q
    · simp only [hfirst, if_true, true_or, ite_self]
    · simp only [hfirst, if_false, false_or]

end FileSystem

/-! ## 3. Command lines -/

/-- The operands of a command line that is `rm -rf`, none of them an
option. -/
def parseRm (cmd : List Char) : Option (List (List Char)) :=
  match simpleCommand cmd with
  | some { words := rm :: rf :: operands, output := none } =>
      if rm = "rm".toList ∧ rf = "-rf".toList ∧ operands.all (fun w => w.head? != some '-') then
        some operands
      else none
  | _ => none

/-- `system(cmd)`: the status and the table afterwards. -/
def Shell.system (sh : Shell) (cwd : Path) (fs : FileSystem) (cmd : List Char) :
    Int × FileSystem :=
  if sh.available then
    match parseRm cmd with
    | some operands =>
        let done := fs.rmOperands sh.stuck cwd operands
        (if done.1 then 0 else 256, done.2)
    | none => sh.other cmd fs
  else (-1, fs)

/-! ## 4. What callers use -/

theorem fold_rm (rest : List Char) :
    ("rm -rf ".toList ++ rest).foldl Lexer.step Lexer.start
      = rest.foldl Lexer.step
          { mode := .plain, word := none,
            tokens := [.word (pieces false "rm".toList), .word (pieces false "-rf".toList)] } := by
  have hstart : "rm -rf ".toList.foldl Lexer.step Lexer.start
      = { mode := .plain, word := none,
          tokens := [.word (pieces false "rm".toList), .word (pieces false "-rf".toList)] } := by
    decide
  rw [List.foldl_append, hstart]

theorem tokenize_rm {w : List Char} (hne : w ≠ []) (hhash : w.head? ≠ some '#')
    (h : ∀ c ∈ w, isSpecialChar c = false) :
    tokenize ("rm -rf ".toList ++ w)
      = some [.word (pieces false "rm".toList), .word (pieces false "-rf".toList),
          .word (pieces false w)] := by
  rw [tokenize, fold_rm, Lexer.fold_word rfl rfl hne hhash h]
  rfl

theorem readCommand_rm (w : List Piece) :
    readCommand [.word (pieces false "rm".toList), .word (pieces false "-rf".toList), .word w]
      = (literalField w).map fun field =>
          { words := ["rm".toList, "-rf".toList, field], output := none } := by
  have hrm : literalField (pieces false "rm".toList) = some "rm".toList := by decide
  have hrf : literalField (pieces false "-rf".toList) = some "-rf".toList := by decide
  rw [readCommand, hrm, readCommand, hrf, readCommand]
  cases literalField w <;> rfl

/-- `rm -rf` and one literal word. -/
theorem simpleCommand_rm {w : List Char} (h : LiteralWord w) :
    simpleCommand ("rm -rf ".toList ++ w)
      = some { words := ["rm".toList, "-rf".toList, w], output := none } := by
  rw [simpleCommand, tokenize_rm h.ne_nil h.no_comment h.no_special, Option.bind_some,
    readCommand_rm, h.field]
  rfl

/-- When a text behind the front of a word comes through as it stands:
when none of it is special and it is no pattern. -/
theorem simpleCommand_rm_iff {front w : List Char} (hfront : LiteralWord front)
    (hplain : ∀ c ∈ front, isPatternChar c = false) :
    simpleCommand ("rm -rf ".toList ++ (front ++ w))
        = some { words := ["rm".toList, "-rf".toList, front ++ w], output := none } ↔
      (∀ c ∈ w, isSpecialChar c = false) ∧ isPattern (pieces false w) = false := by
  obtain ⟨c, rest, rfl⟩ := List.exists_cons_of_ne_nil hfront.ne_nil
  have hpattern : isPattern (pieces false (c :: rest ++ w)) = isPattern (pieces false w) := by
    rw [pieces, List.map_append]
    refine isPattern_append (fun p hp => ?_) _
    obtain ⟨d, hd, rfl⟩ := List.mem_map.mp hp
    exact hplain d hd
  have hspecial : (∀ d ∈ w, isSpecialChar d = false) →
      ∀ d ∈ c :: rest ++ w, isSpecialChar d = false := by
    intro h d hd
    rcases List.mem_append.mp hd with hd | hd
    · exact hfront.no_special d hd
    · exact h d hd
  constructor
  · intro h
    have hfree : ∀ d ∈ w, isSpecialChar d = false := by
      by_contra hno
      push Not at hno
      obtain ⟨d, hd, hs⟩ := hno
      -- a special character is lost, and the fields come out too short
      obtain ⟨haccepts, -, hsize⟩ := simpleCommand_some h
      rw [fold_rm, List.foldl_append, Lexer.fold_word rfl rfl (List.cons_ne_nil c rest)
        hfront.no_comment hfront.no_special] at haccepts hsize
      have hlost := Lexer.fold_lt_of_special
        (l := { mode := .plain, word := some (pieces false (c :: rest)),
                tokens := [.word (pieces false "rm".toList),
                  .word (pieces false "-rf".toList)] })
        rfl rfl ⟨d, hd, by simpa using hs⟩ haccepts
      simp only [SimpleCommand.size, Lexer.emitted, Token.size, pieces, List.map_cons,
        List.map_nil, List.sum_cons, List.sum_nil, List.length_append, List.length_cons,
        List.length_map, Option.getD_some, Option.getD_none, List.length_nil] at hsize hlost
      omega
    refine ⟨hfree, ?_⟩
    rw [simpleCommand, tokenize_rm (w := c :: rest ++ w) (by simp) hfront.no_comment
      (hspecial hfree), Option.bind_some, readCommand_rm, Option.filter_eq_some_iff] at h
    obtain ⟨field, hfield, -⟩ := Option.map_eq_some_iff.mp h.1
    rw [literalField] at hfield
    split at hfield
    · simp at hfield
    · rename_i hno
      rw [← hpattern, ← Bool.not_eq_true]
      exact fun he => hno (Or.inl he)
  · rintro ⟨hfree, hnone⟩
    exact simpleCommand_rm ⟨by simp, hfront.no_comment, hfront.no_tilde, hspecial hfree,
      hpattern.trans hnone⟩

/-- A character without any meaning to the shell. -/
def isPlainChar (c : Char) : Bool := c.isAlphanum || "/._-:".toList.contains c

theorem isPlainChar_not_special {c : Char} (h : isPlainChar c = true) :
    isSpecialChar c = false ∧ isPatternChar c = false ∧ c ≠ '#' ∧ c ≠ '~' := by
  refine ⟨?_, ?_, ?_, ?_⟩
  · rw [← Bool.not_eq_true]
    intro hs
    simp only [isSpecialChar, isBlankChar, isOperatorChar, Bool.or_eq_true, decide_eq_true_eq,
      List.contains_iff_mem] at hs
    have hall : ∀ d ∈ " \t|&;<>()\n'\"\\$".toList ++ [backQuote], isPlainChar d = false := by
      decide
    have hmem : c ∈ " \t|&;<>()\n'\"\\$".toList ++ [backQuote] := by
      rcases hs with (((((((rfl | rfl) | hs) | rfl) | rfl) | rfl) | rfl) | rfl)
      · decide
      · decide
      · exact (by decide : "|&;<>()\n".toList ⊆ " \t|&;<>()\n'\"\\$".toList ++ [backQuote]) hs
      · decide
      · decide
      · decide
      · decide
      · decide
    rw [hall c hmem] at h
    simp at h
  · rw [← Bool.not_eq_true]
    intro hp
    have hall : ∀ d ∈ "*?[".toList, isPlainChar d = false := by decide
    rw [hall c (by simpa [isPatternChar] using hp)] at h
    simp at h
  · rintro rfl; simp [isPlainChar] at h
  · rintro rfl; simp [isPlainChar] at h

/-- A word `rm` takes as an operand as it stands. -/
def PlainWord (w : List Char) : Prop :=
  w ≠ [] ∧ w.head? ≠ some '-' ∧ ∀ c ∈ w, isPlainChar c = true

instance (w : List Char) : Decidable (PlainWord w) := by unfold PlainWord; infer_instance

theorem PlainWord.literal {w : List Char} (h : PlainWord w) : LiteralWord w where
  ne_nil := h.1
  no_comment := fun he => (isPlainChar_not_special (h.2.2 _ (List.mem_of_head? he))).2.2.1 rfl
  no_tilde := fun he => (isPlainChar_not_special (h.2.2 _ (List.mem_of_head? he))).2.2.2 rfl
  no_special := fun c hc => (isPlainChar_not_special (h.2.2 c hc)).1
  no_pattern := isPattern_plain fun c hc => (isPlainChar_not_special (h.2.2 c hc)).2.1

theorem parseRm_literal {w : List Char} (h : LiteralWord w) (hdash : w.head? ≠ some '-') :
    parseRm ("rm -rf ".toList ++ w) = some [w] := by
  rw [parseRm, simpleCommand_rm h]
  simp [hdash]

namespace FileSystem

theorem lastComponent_absPath {q : Path} {n : Name} (hq : ∀ m ∈ q, Ordinary m)
    (hn : Ordinary n) : lastComponent (absPath (q ++ [n])) = n := by
  have hord : ∀ m ∈ q ++ [n], Ordinary m := by
    intro m hm
    rcases List.mem_append.mp hm with hm | hm
    · exact hq m hm
    · rwa [List.mem_singleton.mp hm]
  have hkeep : (q ++ [n]).filter (fun c => c != []) = q ++ [n] := by
    rw [List.filter_eq_self]
    intro m hm
    simpa using (hord m hm).1
  rw [lastComponent, splitOn_absPath hord, List.filter_cons, if_neg (by simp), hkeep]
  simp

/-- An absolute operand of ordinary names whose parent is a directory. -/
theorem rmOperand_absPath {fs : FileSystem} (stuck : List Path) (cwd : Path) {q : Path} {n : Name}
    (hq : ∀ m ∈ q, Ordinary m) (hn : Ordinary n) (hd : fs.node q = some .dir) :
    fs.rmOperand stuck cwd (absPath (q ++ [n]))
      = (fs.removable stuck (q ++ [n]), fs.rmTree stuck (q ++ [n]) (by simp)) := by
  rw [rmOperand, lastComponent_absPath hq hn, if_neg (by simp [hn.2.1, hn.2.2.1]),
    resolve_absPath hq hn hd]
  simp

/-- What one absolute operand does to a file: it is removed if it lies in
the operand's tree and is not stuck. -/
theorem rmOperand_file {fs : FileSystem} (stuck : List Path) (cwd : Path) {q : Path} {n : Name}
    (hq : ∀ m ∈ q, Ordinary m) (hn : Ordinary n) {f : Path} {content : List Char}
    (hfile : fs.node f = some (.file content)) :
    (fs.rmOperand stuck cwd (absPath (q ++ [n]))).2.node f
      = if q ++ [n] <+: f ∧ f ∉ stuck then none else some (.file content) := by
  by_cases hd : fs.node q = some .dir
  · rw [rmOperand_absPath stuck cwd hq hn hd]
    exact node_rmTree_file fs stuck (q ++ [n]) (by simp) hfile
  · -- the operand does not resolve, and nothing lies below it
    have hout : ¬ q ++ [n] <+: f := by
      rintro ⟨rest, rfl⟩
      rw [List.append_assoc] at hfile
      exact hd (fs.dir_of_prefix (List.cons_ne_nil n rest) (by rw [← List.singleton_append, hfile]; simp))
    rcases resolve_absPath_cases fs cwd hq hn with ⟨-, hdir⟩ | ⟨⟨e, he⟩, -⟩
    · exact absurd hdir hd
    · rw [rmOperand, lastComponent_absPath hq hn, if_neg (by simp [hn.2.1, hn.2.2.1]), he,
        if_neg (fun h => hout h.1), hfile]

/-- What absolute operands do to a file, one after the other. -/
theorem rmOperands_file (stuck : List Path) (cwd : Path) {q f : Path} (hq : ∀ m ∈ q, Ordinary m)
    {content : List Char} : ∀ (names : List Name) (fs : FileSystem), (∀ n ∈ names, Ordinary n) →
      fs.node f = some (.file content) →
      (fs.rmOperands stuck cwd (names.map fun n => absPath (q ++ [n]))).2.node f
        = if (∃ n ∈ names, q ++ [n] <+: f) ∧ f ∉ stuck then none else some (.file content)
  | [], fs, _, hfile => by simp [rmOperands, hfile]
  | n :: names, fs, hnames, hfile => by
      have hrest := fun m hm => hnames m (List.mem_cons_of_mem n hm)
      have hfirst := rmOperand_file stuck cwd hq (hnames n (by simp)) hfile
      rw [List.map_cons, rmOperands]
      by_cases hin : q ++ [n] <+: f ∧ f ∉ stuck
      · rw [if_pos hin] at hfirst
        rw [if_pos ⟨⟨n, by simp, hin.1⟩, hin.2⟩]
        exact rmOperands_none stuck cwd _ _ hfirst
      · rw [if_neg hin] at hfirst
        simp only [rmOperands_file stuck cwd hq names _ hrest hfirst]
        by_cases hst : f ∈ stuck
        · simp [hst]
        · have hn : ¬ q ++ [n] <+: f := fun h => hin ⟨h, hst⟩
          simp [hst, hn]

end FileSystem

/-- `system("rm -rf <operand>")` on one plain absolute operand. -/
theorem Shell.system_rm (sh : Shell) {fs : FileSystem} (cwd : Path) {q : Path} {n : Name}
    (hq : ∀ m ∈ q, FileSystem.Ordinary m) (hn : FileSystem.Ordinary n)
    (hd : fs.node q = some .dir)
    (hword : LiteralWord (FileSystem.absPath (q ++ [n]))) :
    sh.system cwd fs ("rm -rf ".toList ++ FileSystem.absPath (q ++ [n]))
      = if sh.available then
          (if fs.removable sh.stuck (q ++ [n]) then 0 else 256,
            fs.rmTree sh.stuck (q ++ [n]) (by simp))
        else (-1, fs) := by
  have hdash : (FileSystem.absPath (q ++ [n])).head? ≠ some '-' := by
    rw [FileSystem.head_absPath]; decide
  rw [Shell.system, parseRm_literal hword hdash]
  simp only [FileSystem.rmOperands, FileSystem.rmOperand_absPath sh.stuck cwd hq hn hd,
    Bool.and_true]

/-- The same where the parent is no directory: there is nothing to
remove, and `rm -f` does not mind. -/
theorem Shell.system_rm_absent (sh : Shell) {fs : FileSystem} (cwd : Path) {q : Path} {n : Name}
    (hq : ∀ m ∈ q, FileSystem.Ordinary m) (hn : FileSystem.Ordinary n)
    (hd : fs.node q ≠ some .dir)
    (hword : LiteralWord (FileSystem.absPath (q ++ [n]))) :
    sh.system cwd fs ("rm -rf ".toList ++ FileSystem.absPath (q ++ [n]))
      = if sh.available then (0, fs) else (-1, fs) := by
  have hdash : (FileSystem.absPath (q ++ [n])).head? ≠ some '-' := by
    rw [FileSystem.head_absPath]; decide
  have hoperand : fs.rmOperand sh.stuck cwd (FileSystem.absPath (q ++ [n])) = (true, fs) := by
    rcases FileSystem.resolve_absPath_cases fs cwd hq hn with ⟨-, hdir⟩ | ⟨⟨e, he⟩, -⟩
    · exact absurd hdir hd
    · rw [FileSystem.rmOperand, FileSystem.lastComponent_absPath hq hn,
        if_neg (by simp [hn.2.1, hn.2.2.1]), he]
  rw [Shell.system, parseRm_literal hword hdash]
  simp only [FileSystem.rmOperands, hoperand, Bool.and_self, if_true]

end DockerClone.Os
