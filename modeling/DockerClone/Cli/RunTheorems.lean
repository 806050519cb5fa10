/-
DockerClone.Cli.RunTheorems — the options of `run`.

A run line is a list of items: flags, options with their value, other
words with a dash, and plain words. A value belongs to its option
whatever it looks like, so one round of the loop may take two words
(`parseRunCommand_item`). A plain word may be empty: before the image it
leaves the name empty and the loop looks on, after the image it is an
empty command (`plains`).

`Filled` is the invariant: after some items every array holds the last
value its options were given, the flags are up that an item raised, and
`env_vars` is the join of the values so far. What one item does is
`filled_applied`; the loop stops early only at a second plain word.
-/
import DockerClone.Cli.OperandTheorems

namespace DockerClone.Cli

open DockerClone.CLib

/-! ## 1. Items -/

inductive Flag where
  | d
  | detach
  | it
  | i
  | interactive
  | t
  | tty
  deriving DecidableEq, Repr

def Flag.argument : Flag → Argument
  | .d => ⟨"-d".toList, by decide⟩
  | .detach => ⟨"--detach".toList, by decide⟩
  | .it => ⟨"-it".toList, by decide⟩
  | .i => ⟨"-i".toList, by decide⟩
  | .interactive => ⟨"--interactive".toList, by decide⟩
  | .t => ⟨"-t".toList, by decide⟩
  | .tty => ⟨"--tty".toList, by decide⟩

/-- The options with a value. -/
inductive Setting where
  | name
  | p
  | publish
  | v
  | volume
  | e
  | env
  | w
  | workdir
  deriving DecidableEq, Repr

def Setting.argument : Setting → Argument
  | .name => ⟨"--name".toList, by decide⟩
  | .p => ⟨"-p".toList, by decide⟩
  | .publish => ⟨"--publish".toList, by decide⟩
  | .v => ⟨"-v".toList, by decide⟩
  | .volume => ⟨"--volume".toList, by decide⟩
  | .e => ⟨"-e".toList, by decide⟩
  | .env => ⟨"--env".toList, by decide⟩
  | .w => ⟨"-w".toList, by decide⟩
  | .workdir => ⟨"--workdir".toList, by decide⟩

/-- What an option sets. -/
inductive Field where
  | name
  | port
  | volume
  | env
  | dir
  deriving DecidableEq, Repr

def Setting.field : Setting → Field
  | .name => .name
  | .p | .publish => .port
  | .v | .volume => .volume
  | .e | .env => .env
  | .w | .workdir => .dir

/-- The words the loop compares with. -/
def optionWords : List String :=
  ["-d", "--detach", "-it", "-i", "--interactive", "-t", "--tty", "--name", "-p", "--publish",
    "-v", "--volume", "-e", "--env", "-w", "--workdir"]

/-- One item of a run line. -/
inductive Item where
  | flag (flag : Flag)
  | setting (setting : Setting) (value : Argument)
  | other (word : Argument) (dash : word.isOption = true)
      (unknown : ∀ w ∈ optionWords, word.is w = false)
  | plain (word : Argument) (no_dash : word.isOption = false)

namespace Item

def words : Item → List Argument
  | flag f => [f.argument]
  | setting s value => [s.argument, value]
  | other word _ _ => [word]
  | plain word _ => [word]

def detaches : Item → Bool
  | flag .d | flag .detach => true
  | _ => false

def interacts : Item → Bool
  | flag .it | flag .i | flag .interactive => true
  | _ => false

def usesTty : Item → Bool
  | flag .it | flag .t | flag .tty => true
  | _ => false

/-- The value an item gives to a field. -/
def value (field : Field) : Item → Option Argument
  | setting s value => if s.field = field then some value else none
  | _ => none

def plainWord : Item → Option Argument
  | plain word _ => some word
  | _ => none

end Item

/-- The values given to a field, in order. -/
def values (field : Field) (items : List Item) : List (List Char) :=
  (items.filterMap (Item.value field)).map (·.text)

def plainWords (items : List Item) : List (List Char) :=
  (items.filterMap Item.plainWord).map (·.text)

/-- The plain words from the first that is not empty, in order. -/
def plains (items : List Item) : List (List Char) := (plainWords items).dropWhile (·.isEmpty)

/-- A value joined to the environment so far. -/
def joinEnv (joined value : List Char) : List Char :=
  if joined = [] then value else joined ++ ';' :: value

def joinedEnv (values : List (List Char)) : List Char := values.foldl joinEnv []

/-- What a command holds after a run line. -/
structure Yields (items : List Item) (cmd : ParsedCommand) : Prop where
  type : cmd.type = .run
  detach : cmd.detach = if items.any Item.detaches then 1 else 0
  interactive : cmd.interactive = if items.any Item.interacts then 1 else 0
  tty : cmd.tty = if items.any Item.usesTty then 1 else 0
  containerName : cstr cmd.containerName = ((values .name items).getLast?.getD []).take 511
  portMapping : cstr cmd.portMapping = ((values .port items).getLast?.getD []).take 63
  volumeMapping : cstr cmd.volumeMapping = ((values .volume items).getLast?.getD []).take 255
  workingDir : cstr cmd.workingDir = ((values .dir items).getLast?.getD []).take 511
  envVars : cstr cmd.envVars = joinedEnv (values .env items)
  /-- Nothing was written past the array. -/
  envSize : cmd.envVars.length = 512
  imageName : cstr cmd.imageName = ((plains items)[0]?.getD []).take 511
  command : cstr cmd.command = ((plains items)[1]?.getD []).take 255

/-! ## 2. One item -/

/-- An array after a value that may be given. -/
def given (size : Nat) (buf : List Char) : Option Argument → List Char
  | some value => strncpy buf value.text (size - 1)
  | none => buf

/-- The command after an item that does not stop the loop. -/
def applied (cmd : ParsedCommand) (item : Item) : ParsedCommand :=
  { cmd with
    detach := if item.detaches then 1 else cmd.detach
    interactive := if item.interacts then 1 else cmd.interactive
    tty := if item.usesTty then 1 else cmd.tty
    containerName := given MAX_PATH_LEN cmd.containerName (item.value .name)
    portMapping := given 64 cmd.portMapping (item.value .port)
    volumeMapping := given 256 cmd.volumeMapping (item.value .volume)
    workingDir := given MAX_PATH_LEN cmd.workingDir (item.value .dir)
    envVars := match item.value .env with
      | some value => appendEnv cmd.envVars value.text
      | none => cmd.envVars
    imageName := given MAX_PATH_LEN cmd.imageName item.plainWord }

section Loop

variable {cmd : ParsedCommand} (rest : List Argument)

/-- A word without a dash is none of the options. -/
theorem is_eq_false {word : Argument} (h : word.isOption = false) {w : String}
    (hw : w.toList.head? = some '-') : word.is w = false := by
  rw [Argument.is, beq_eq_false_iff_ne]
  intro he
  rw [Argument.isOption, he, hw] at h
  simp at h

theorem plain_not_option {word : Argument} (h : word.isOption = false) :
    ∀ w ∈ optionWords, word.is w = false := by
  have hdash : ∀ w ∈ optionWords, w.toList.head? = some '-' := by decide
  exact fun w hw => is_eq_false h (hdash w hw)

/-- The loop at a word that is none of the options. -/
theorem parseRunCommand_unknown {word : Argument} (h : ∀ w ∈ optionWords, word.is w = false) :
    parseRunCommand cmd (word :: rest)
      = if word.isOption = false then
          if (cstr cmd.imageName).length = 0 then
            parseRunCommand { cmd with
              imageName := strncpy cmd.imageName word.text (MAX_PATH_LEN - 1) } rest
          else { cmd with command := strncpy cmd.command word.text (MAX_COMMAND_LEN - 1) }
        else parseRunCommand cmd rest := by
  simp only [optionWords, List.forall_mem_cons] at h
  obtain ⟨h1, h2, h3, h4, h5, h6, h7, h8, h9, h10, h11, h12, h13, h14, h15, h16, -⟩ := h
  rw [parseRunCommand.eq_def]
  simp only [h1, h2, h3, h4, h5, h6, h7, h8, h9, h10, h11, h12, h13, h14, h15, h16, Bool.or_self,
    Bool.false_eq_true, if_false]

theorem parseRunCommand_item (item : Item)
    (hplain : item.plainWord ≠ none → cstr cmd.imageName = []) :
    parseRunCommand cmd (item.words ++ rest) = parseRunCommand (applied cmd item) rest := by
  cases item with
  | flag f =>
    rw [Item.words, List.singleton_append]
    cases f <;> (rw [parseRunCommand.eq_def]; rfl)
  | setting s value =>
    rw [Item.words, List.cons_append, List.singleton_append]
    cases s <;> (rw [parseRunCommand.eq_def]; rfl)
  | other word dash unknown =>
    show parseRunCommand cmd (word :: rest) = _
    rw [parseRunCommand_unknown rest unknown, if_neg (by simp [dash])]
    rfl
  | plain word no_dash =>
    show parseRunCommand cmd (word :: rest) = _
    rw [parseRunCommand_unknown rest (plain_not_option no_dash), if_pos no_dash,
      if_pos (by rw [hplain (by simp [Item.plainWord])]; rfl)]
    rfl

/-- A second plain word ends it. -/
theorem parseRunCommand_second {word : Argument} (no_dash : word.isOption = false)
    (himage : cstr cmd.imageName ≠ []) :
    parseRunCommand cmd (word :: rest)
      = { cmd with command := strncpy cmd.command word.text (MAX_COMMAND_LEN - 1) } := by
  rw [parseRunCommand_unknown rest (plain_not_option no_dash), if_pos no_dash, if_neg]
  simpa using himage

end Loop

/-! ## 3. What the arrays hold -/

/-- An array of more than `n` bytes whose string is the last of some
values, cut to `n`, and which is terminated there whatever comes next. -/
structure Holds (n : Nat) (buf : List Char) (values : List (List Char)) : Prop where
  text : cstr buf = (values.getLast?.getD []).take n
  terminated : cstr (buf.drop n) = []

theorem holds_zeros (n size : Nat) : Holds n (zeros size) [] where
  text := by simp
  terminated := by
    have hrest : (zeros size).drop n = zeros (size - n) := List.drop_replicate
    rw [hrest, cstr_zeros]

/-- A value that is given becomes the last one. -/
theorem Holds.given {n : Nat} {buf : List Char} {values : List (List Char)}
    (h : Holds n buf values) (value : Option Argument) :
    Holds n (given (n + 1) buf value) (values ++ value.toList.map (·.text)) := by
  cases value with
  | none => simpa [Cli.given] using h
  | some value =>
    refine ⟨?_, ?_⟩
    · have htext : cstr (strncpy buf value.text n) = value.text.take n :=
        cstr_strncpy_terminated value.nulFree h.terminated
      simpa [Cli.given] using htext
    · have hrest : (strncpy buf value.text n).drop n = buf.drop n := drop_strncpy _ _ _
      simpa [Cli.given, hrest] using h.terminated

/-- Only the last value counts. -/
theorem Holds.congr {n : Nat} {buf : List Char} {as bs : List (List Char)} (h : Holds n buf as)
    (hlast : bs.getLast?.getD [] = as.getLast?.getD []) : Holds n buf bs where
  text := by rw [h.text, hlast]
  terminated := h.terminated

theorem values_append (field : Field) (as bs : List Item) :
    values field (as ++ bs) = values field as ++ values field bs := by
  simp only [values, List.filterMap_append, List.map_append]

theorem values_singleton (field : Field) (item : Item) :
    values field [item] = (item.value field).toList.map (·.text) := by
  cases h : item.value field <;> simp [values, h]

theorem plainWords_singleton (item : Item) :
    plainWords [item] = item.plainWord.toList.map (·.text) := by
  cases h : item.plainWord <;> simp [plainWords, h]

/-- From the image on every plain word counts. -/
theorem plains_append (as bs : List Item) : plains (as ++ bs)
    = if plains as = [] then plains bs else plains as ++ plainWords bs := by
  have hwords : plainWords (as ++ bs) = plainWords as ++ plainWords bs := by
    simp only [plainWords, List.filterMap_append, List.map_append]
  rw [plains, plains, hwords, List.dropWhile_append]
  simp only [List.isEmpty_iff]
  rfl

theorem length_plains_le (as bs : List Item) :
    (plains as).length ≤ (plains (as ++ bs)).length := by
  rw [plains_append]
  split
  · simp_all
  · simp

/-- The image is not empty. -/
theorem plains_head_ne_nil {items : List Item} {text : List Char} {rest : List (List Char)}
    (h : plains items = text :: rest) : text ≠ [] := by
  have hhead := List.head?_dropWhile_not (·.isEmpty) (plainWords items)
  rw [← plains, h] at hhead
  simpa using hhead

/-- The last plain word is the last one of the item, if it has one. -/
theorem getLast_plains_append (items : List Item) (item : Item) :
    (plains (items ++ [item])).getLast?.getD []
      = (plains items ++ item.plainWord.toList.map (·.text)).getLast?.getD [] := by
  rw [plains_append, plainWords_singleton]
  split
  · rename_i hnone
    rw [hnone, plains, plainWords_singleton, List.nil_append]
    cases item.plainWord with
    | none => rfl
    | some word => cases htext : word.text <;> simp [htext]
  · rfl

/-! ### The environment -/

theorem joinedEnv_append (xs : List (List Char)) (value : List Char) :
    joinedEnv (xs ++ [value]) = joinEnv (joinedEnv xs) value := by
  rw [joinedEnv, List.foldl_append]
  rfl

theorem length_le_joinEnv (joined value : List Char) :
    joined.length ≤ (joinEnv joined value).length := by
  rw [joinEnv]
  split
  · simp_all
  · simp

/-- The join only grows. -/
theorem joinedEnv_length_mono (xs : List (List Char)) : ∀ ys : List (List Char),
    (joinedEnv xs).length ≤ (joinedEnv (xs ++ ys)).length := by
  intro ys
  induction ys using List.reverseRecOn with
  | nil => simp
  | append_singleton ys value ih =>
    rw [← List.append_assoc, joinedEnv_append]
    exact ih.trans (length_le_joinEnv _ _)

/-- `strcat` within the array keeps its size. -/
theorem length_strcat {dst src : List Char} (hlt : (cstr dst ++ src).length < dst.length) :
    (strcat dst src).length = dst.length := by
  simp only [strcat, store, List.length_append, List.length_cons, List.length_drop] at hlt ⊢
  omega

theorem cstr_appendEnv {envVars value : List Char} (hv : NulFree value) :
    cstr (appendEnv envVars value) = joinEnv (cstr envVars) value := by
  have hjoin : NulFree (cstr envVars ++ [';']) := by simp [nulFree_cstr, nul]
  rw [appendEnv, joinEnv]
  by_cases hnil : cstr envVars = []
  · rw [if_neg (by simp [hnil]), if_pos hnil, strcat, hnil, List.nil_append, cstr_store hv]
  · rw [if_pos (List.length_pos_iff.mpr hnil), if_neg hnil, strcat, strcat, cstr_store hjoin,
      List.append_assoc, List.singleton_append, cstr_store]
    simp [nulFree_cstr, hv, nul]

/-- Nothing is written past the array as long as the join fits. -/
theorem length_appendEnv {envVars value : List Char}
    (hlt : (joinEnv (cstr envVars) value).length < envVars.length) :
    (appendEnv envVars value).length = envVars.length := by
  have hsemi : NulFree (cstr envVars ++ [';']) := by simp [nulFree_cstr, nul]
  rw [joinEnv] at hlt
  rw [appendEnv]
  by_cases hnil : cstr envVars = []
  · rw [if_pos hnil] at hlt
    rw [if_neg (by simp [hnil]), length_strcat (by rw [hnil]; exact hlt)]
  · rw [if_neg hnil, List.length_append, List.length_cons] at hlt
    have hfirst : (strcat envVars [';']).length = envVars.length :=
      length_strcat (by simp only [List.length_append, List.length_singleton]; omega)
    rw [if_pos (List.length_pos_iff.mpr hnil), ← hfirst]
    apply length_strcat
    rw [hfirst, strcat, cstr_store hsemi]
    simp only [List.length_append, List.length_singleton]
    omega

/-! ## 4. The loop -/

/-- What the command holds after some items, no second plain word among
them. -/
structure Filled (items : List Item) (cmd : ParsedCommand) : Prop where
  type : cmd.type = .run
  detach : cmd.detach = if items.any Item.detaches then 1 else 0
  interactive : cmd.interactive = if items.any Item.interacts then 1 else 0
  tty : cmd.tty = if items.any Item.usesTty then 1 else 0
  containerName : Holds 511 cmd.containerName (values .name items)
  portMapping : Holds 63 cmd.portMapping (values .port items)
  volumeMapping : Holds 255 cmd.volumeMapping (values .volume items)
  workingDir : Holds 511 cmd.workingDir (values .dir items)
  imageName : Holds 511 cmd.imageName (plains items)
  command : cmd.command = zeros MAX_COMMAND_LEN
  envVars : cstr cmd.envVars = joinedEnv (values .env items)
  envSize : cmd.envVars.length = 512

theorem filled_zeroed (argv : List Argument) : Filled [] (.zeroed .run argv) where
  type := rfl
  detach := rfl
  interactive := rfl
  tty := rfl
  containerName := holds_zeros 511 512
  portMapping := holds_zeros 63 64
  volumeMapping := holds_zeros 255 256
  workingDir := holds_zeros 511 512
  imageName := holds_zeros 511 512
  command := rfl
  envVars := cstr_zeros 512
  envSize := List.length_replicate

/-- A flag of the command after one item more. -/
theorem raised_append (raises : Item → Bool) (items : List Item) (item : Item) {flag : Int32}
    (h : flag = if items.any raises then 1 else 0) :
    (if raises item then 1 else flag) = if (items ++ [item]).any raises then 1 else 0 := by
  rw [h, List.any_append, List.any_cons, List.any_nil, Bool.or_false]
  cases items.any raises <;> cases raises item <;> rfl

/-- One item keeps the invariant. -/
theorem filled_applied {items : List Item} {cmd : ParsedCommand} (h : Filled items cmd)
    {item : Item} (hfits : (joinedEnv (values .env (items ++ [item]))).length < 512) :
    Filled (items ++ [item]) (applied cmd item) where
  type := h.type
  detach := raised_append Item.detaches items item h.detach
  interactive := raised_append Item.interacts items item h.interactive
  tty := raised_append Item.usesTty items item h.tty
  containerName := by rw [values_append, values_singleton]; exact h.containerName.given _
  portMapping := by rw [values_append, values_singleton]; exact h.portMapping.given _
  volumeMapping := by rw [values_append, values_singleton]; exact h.volumeMapping.given _
  workingDir := by rw [values_append, values_singleton]; exact h.workingDir.given _
  imageName := (h.imageName.given _).congr (getLast_plains_append items item)
  command := h.command
  envVars := by
    rw [values_append, values_singleton, applied]
    cases item.value .env with
    | none => simpa using h.envVars
    | some value =>
      simp only [Option.toList_some, List.map_cons, List.map_nil]
      rw [joinedEnv_append, ← h.envVars, cstr_appendEnv value.nulFree]
  envSize := by
    rw [values_append, values_singleton] at hfits
    rw [applied]
    cases hvalue : item.value .env with
    | none => exact h.envSize
    | some value =>
      simp only [hvalue, Option.toList_some, List.map_cons, List.map_nil] at hfits
      rw [joinedEnv_append, ← h.envVars] at hfits
      rw [length_appendEnv (by rw [h.envSize]; exact hfits), h.envSize]

/-- The loop over items without a second plain word, whatever follows. -/
theorem parseRunCommand_items (rest : List Argument) : ∀ (items before : List Item)
    {cmd : ParsedCommand}, Filled before cmd → (plains (before ++ items)).length ≤ 1 →
      (joinedEnv (values .env (before ++ items))).length < 512 →
      ∃ cmd', parseRunCommand cmd (items.flatMap Item.words ++ rest) = parseRunCommand cmd' rest ∧
        Filled (before ++ items) cmd'
  | [], before, cmd, hfilled, _, _ => ⟨cmd, rfl, by rwa [List.append_nil]⟩
  | item :: items, before, cmd, hfilled, hplain, hfits => by
      rw [List.append_cons] at hplain hfits ⊢
      have hroom : (joinedEnv (values .env (before ++ [item]))).length < 512 := by
        rw [values_append] at hfits
        exact (joinedEnv_length_mono _ _).trans_lt hfits
      have hunnamed : item.plainWord ≠ none → cstr cmd.imageName = [] := by
        intro hword
        obtain ⟨word, hword⟩ := Option.ne_none_iff_exists'.mp hword
        have hnone : plains before = [] := by
          by_contra hne
          have hone := (length_plains_le (before ++ [item]) items).trans hplain
          rw [plains_append, if_neg hne, plainWords_singleton, hword, List.length_append] at hone
          have hpos := List.length_pos_iff.mpr hne
          simp only [Option.toList_some, List.map_cons, List.map_nil, List.length_singleton]
            at hone
          omega
        simp [hfilled.imageName.text, hnone]
      obtain ⟨cmd', hparse, hfilled'⟩ := parseRunCommand_items rest items (before ++ [item])
        (filled_applied hfilled hroom) hplain hfits
      refine ⟨cmd', ?_, hfilled'⟩
      rw [List.flatMap_cons, List.append_assoc, parseRunCommand_item _ item hunnamed, hparse]

/-! ## 5. Every run line -/

def runWord : Argument := ⟨"run".toList, by decide⟩

/-- A run line is parsed by the loop, unless an allocation fails. -/
theorem parseArguments_run {env : ParserEnv} (halloc : env.Allocates) (program : Argument)
    (words : List Argument) : parseArguments env (program :: runWord :: words)
      = some (parseRunCommand (.zeroed .run (program :: runWord :: words)) words) := by
  rw [parseArguments, if_neg (by simp [halloc.1]), if_neg (by simp [halloc.2])]
  rfl

/-- At most one plain word, or two of which the second comes last. -/
def SecondLast (items : List Item) : Prop :=
  (plains items).length ≤ 1 ∨
    ∃ before last, items = before ++ [last] ∧ (plains before).length = 1 ∧ last.plainWord ≠ none

theorem Filled.yields {items : List Item} {cmd : ParsedCommand} (h : Filled items cmd)
    (hplain : (plains items).length ≤ 1) : Yields items cmd where
  type := h.type
  detach := h.detach
  interactive := h.interactive
  tty := h.tty
  containerName := h.containerName.text
  portMapping := h.portMapping.text
  volumeMapping := h.volumeMapping.text
  workingDir := h.workingDir.text
  envVars := h.envVars
  envSize := h.envSize
  imageName := by
    rw [h.imageName.text]
    match plains items, hplain with
    | [], _ => rfl
    | [_], _ => rfl
  command := by
    rw [h.command, List.getElem?_eq_none (by omega), cstr_zeros]
    rfl

/-- What a second plain word adds. -/
theorem Filled.second {items : List Item} {cmd : ParsedCommand} (h : Filled items cmd)
    (hplain : (plains items).length = 1) {last : Item} {word : Argument}
    (hlast : last.plainWord = some word) : Yields (items ++ [last])
      { cmd with command := strncpy cmd.command word.text (MAX_COMMAND_LEN - 1) } := by
  have hfront := h.yields hplain.le
  have hflags : last.detaches = false ∧ last.interacts = false ∧ last.usesTty = false := by
    cases last <;> simp_all [Item.plainWord, Item.detaches, Item.interacts, Item.usesTty]
  have hvalues : ∀ field, values field (items ++ [last]) = values field items := by
    intro field
    have hnone : last.value field = none := by cases last <;> simp_all [Item.plainWord, Item.value]
    rw [values_append, values_singleton, hnone]
    exact List.append_nil _
  have hplains : plains (items ++ [last]) = plains items ++ [word.text] := by
    have hne : plains items ≠ [] := List.length_pos_iff.mp (by omega)
    rw [plains_append, if_neg hne, plainWords_singleton, hlast]
    rfl
  exact {
    type := hfront.type
    detach := by rw [List.any_append, hfront.detach]; simp [hflags.1]
    interactive := by rw [List.any_append, hfront.interactive]; simp [hflags.2.1]
    tty := by rw [List.any_append, hfront.tty]; simp [hflags.2.2]
    containerName := by rw [hvalues]; exact hfront.containerName
    portMapping := by rw [hvalues]; exact hfront.portMapping
    volumeMapping := by rw [hvalues]; exact hfront.volumeMapping
    workingDir := by rw [hvalues]; exact hfront.workingDir
    envVars := by rw [hvalues]; exact hfront.envVars
    envSize := hfront.envSize
    imageName := by
      rw [hplains, List.getElem?_append_left (by omega)]
      exact hfront.imageName
    command := by
      rw [hplains, List.getElem?_append_right (by omega), hplain, h.command]
      exact cstr_strncpy_zeros word.nulFree }

/-- The image of a line with one plain word is set. -/
theorem Filled.imageName_ne_nil {items : List Item} {cmd : ParsedCommand} (h : Filled items cmd)
    (hplain : (plains items).length = 1) : cstr cmd.imageName ≠ [] := by
  obtain ⟨text, htext⟩ := List.length_eq_one_iff.mp hplain
  rw [h.imageName.text, htext]
  simpa using plains_head_ne_nil htext

/-- What may stand behind the items and is never read: words behind a
second plain one, or an option without its value. -/
def Unread (items : List Item) (rest : List Argument) : Prop :=
  rest = [] ∨ (plains items).length = 2 ∨ ∃ s : Setting, rest = [s.argument]

theorem parseRunCommand_bare (cmd : ParsedCommand) (s : Setting) :
    parseRunCommand cmd [s.argument] = cmd := by
  cases s <;> (rw [parseRunCommand.eq_def]; rfl)

/-- The run of the loop. -/
theorem yields_parseRunCommand (argv : List Argument) {items : List Item} {rest : List Argument}
    (hplain : SecondLast items) (hfits : (joinedEnv (values .env items)).length < 512)
    (hrest : Unread items rest) :
    Yields items (parseRunCommand (.zeroed .run argv) (items.flatMap Item.words ++ rest)) := by
  have hzeroed := filled_zeroed argv
  rcases hplain with hone | ⟨before, last, rfl, hone, hlast⟩
  · obtain ⟨cmd, hparse, hfilled⟩ := parseRunCommand_items rest items [] hzeroed hone hfits
    have hend : parseRunCommand cmd rest = cmd := by
      rcases hrest with rfl | htwo | ⟨s, rfl⟩
      · rfl
      · omega
      · exact parseRunCommand_bare cmd s
    rw [hparse, hend]
    exact hfilled.yields hone
  · obtain ⟨word, hword⟩ := Option.ne_none_iff_exists'.mp hlast
    have hroom : (joinedEnv (values .env before)).length < 512 := by
      rw [values_append] at hfits
      exact (joinedEnv_length_mono _ _).trans_lt hfits
    obtain ⟨cmd, hparse, hfilled⟩ :=
      parseRunCommand_items (last.words ++ rest) before [] hzeroed hone.le hroom
    cases last with
    | plain word' no_dash =>
      obtain rfl := Option.some.inj hword
      rw [List.flatMap_append, List.flatMap_singleton, List.append_assoc, hparse]
      show Yields _ (parseRunCommand cmd (word' :: rest))
      rw [parseRunCommand_second rest no_dash (hfilled.imageName_ne_nil hone)]
      exact hfilled.second hone rfl
    | flag | setting | other => simp [Item.plainWord] at hlast

/-- Every run line gives the fold of its items. -/
theorem run_options_fold (env : ParserEnv) (program : Argument) {items : List Item}
    (hplain : SecondLast items) (hfits : (joinedEnv (values .env items)).length < 512) :
    ∃ cmd, Yields items cmd ∧
      (env.Allocates →
        parseArguments env (program :: runWord :: items.flatMap Item.words) = some cmd) ∧
      (¬ env.Allocates →
        parseArguments env (program :: runWord :: items.flatMap Item.words) = none) := by
  have hrun := yields_parseRunCommand (program :: runWord :: items.flatMap Item.words) hplain hfits
    (Or.inl rfl)
  rw [List.append_nil] at hrun
  exact ⟨_, hrun, fun halloc => parseArguments_run halloc program _, parseArguments_fails⟩

def ubuntu : Argument := ⟨"ubuntu".toList, by decide⟩

def ubuntuItem : Item := .plain ubuntu (by decide)

def aVariable : Argument := ⟨"A=1".toList, by decide⟩

def bVariable : Argument := ⟨"B=2".toList, by decide⟩

/-- `docker run -it --name -d -e A=1 --env B=2 ubuntu bash`: the value of
`--name` looks like a flag. -/
def bashLine : List Item :=
  [.flag .it, .setting .name ⟨"-d".toList, by decide⟩, .setting .e aVariable,
    .setting .env bVariable, ubuntuItem, .plain ⟨"bash".toList, by decide⟩ (by decide)]

theorem bashLine_fold : joinedEnv (values .env bashLine) = "A=1;B=2".toList ∧
    values .name bashLine = ["-d".toList] ∧ bashLine.any Item.detaches = false ∧
    ∃ cmd, Yields bashLine cmd ∧
      (readyMain.parser.Allocates →
        parseArguments readyMain.parser (program :: runWord :: bashLine.flatMap Item.words)
          = some cmd) ∧
      (¬ readyMain.parser.Allocates →
        parseArguments readyMain.parser (program :: runWord :: bashLine.flatMap Item.words)
          = none) := by
  refine ⟨rfl, rfl, rfl, ?_⟩
  exact run_options_fold readyMain.parser program
    (Or.inr ⟨bashLine.take 5, _, rfl, rfl, by simp [Item.plainWord]⟩) (by decide)

end DockerClone.Cli
