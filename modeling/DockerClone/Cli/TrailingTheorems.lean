/-
DockerClone.Cli.TrailingTheorems — the words behind the image.

`parse_run_command` has one loop for its own options and for the command
of the container. Behind the image it still takes a word with a dash for
an option of `run`, and the first word without one is the whole command:
the loop ends there.

So a command of one word that is no option arrives, and no other command
does (`command_kept_iff`): of two words the second is lost, and a word
with a dash never gets into the array.
-/
import DockerClone.Cli.RunTheorems
import Mathlib.Algebra.Ring.Nat

namespace DockerClone.Cli

open DockerClone.CLib

/-! ## 1. Kept -/

/-- The line with options and other dashed words, an image, further words. -/
def runLine (program : Argument) (front : List Item) (image : Argument) (words : List Argument) :
    List Argument :=
  program :: runWord :: front.flatMap Item.words ++ image :: words

/-- The command a call of `docker_run` is made with. -/
def Call.runCommand : Call → Option (List Char)
  | .run _ command _ _ _ _ _ _ _ _ => some command
  | _ => none

/-- When `main` makes a call, it is `docker_run` with exactly the further
words, and the parsed command is the one without them but for the
command. -/
def WordsKept (env : MainEnv) (program : Argument) (front : List Item) (image : Argument)
    (words : List Argument) : Prop :=
  ∀ call, (main env (runLine program front image words)).called = some call →
    call.runCommand = some (commandText words) ∧
    ∃ cmd alone, parseArguments env.parser (runLine program front image words) = some cmd ∧
      parseArguments env.parser (runLine program front image []) = some alone ∧
      { cmd with command := alone.command, args := alone.args, argc := alone.argc } = alone

/-! ## 2. Up to the image -/

/-- The command when the loop has passed the image. -/
def pastImage (cmd : ParsedCommand) (front : List Item) (image : Argument) : ParsedCommand :=
  let cmd := front.foldl applied cmd
  { cmd with imageName := strncpy cmd.imageName image.text (MAX_PATH_LEN - 1) }

section Front

variable {front : List Item}

theorem foldl_applied_command : ∀ (items : List Item) (cmd : ParsedCommand),
    (items.foldl applied cmd).command = cmd.command
  | [], _ => rfl
  | item :: items, cmd => by rw [List.foldl_cons, foldl_applied_command items]; rfl

theorem foldl_applied_type : ∀ (items : List Item) (cmd : ParsedCommand),
    (items.foldl applied cmd).type = cmd.type
  | [], _ => rfl
  | item :: items, cmd => by rw [List.foldl_cons, foldl_applied_type items]; rfl

/-- The copy of `argv` is carried along. -/
theorem foldl_applied_args (args : List Argument) (argc : Nat) :
    ∀ (items : List Item) (cmd : ParsedCommand),
      items.foldl applied { cmd with args := args, argc := argc }
        = { items.foldl applied cmd with args := args, argc := argc }
  | [], _ => rfl
  | item :: items, cmd => by
      rw [List.foldl_cons, List.foldl_cons, ← foldl_applied_args args argc items]
      rfl

theorem plains_cons_eq_nil {item : Item} {items : List Item} : plains (item :: items) = [] ↔
    (∀ word, item.plainWord = some word → word.text = []) ∧ plains items = [] := by
  cases h : item.plainWord <;> simp [plains, plainWords, h]

/-- An empty word leaves the name as it is, all zero. -/
theorem applied_imageName {item : Item} {cmd : ParsedCommand}
    (hword : ∀ word, item.plainWord = some word → word.text = [])
    (hzeros : cmd.imageName = zeros MAX_PATH_LEN) :
    (applied cmd item).imageName = zeros MAX_PATH_LEN := by
  rw [applied, hzeros]
  cases h : item.plainWord with
  | none => rfl
  | some word =>
    show strncpy (zeros MAX_PATH_LEN) word.text (MAX_PATH_LEN - 1) = zeros MAX_PATH_LEN
    rw [hword word h, strncpy_nil_zeros (by decide)]

theorem foldl_applied_imageName : ∀ {items : List Item}, plains items = [] →
    ∀ {cmd : ParsedCommand}, cmd.imageName = zeros MAX_PATH_LEN →
      (items.foldl applied cmd).imageName = zeros MAX_PATH_LEN
  | [], _, _, hzeros => hzeros
  | _ :: _, h, _, hzeros => by
      obtain ⟨hword, hrest⟩ := plains_cons_eq_nil.mp h
      exact foldl_applied_imageName hrest (applied_imageName hword hzeros)

/-- The loop over items that do not name the image. -/
theorem parseRunCommand_front (rest : List Argument) : ∀ {items : List Item}, plains items = [] →
    ∀ {cmd : ParsedCommand}, cmd.imageName = zeros MAX_PATH_LEN →
      parseRunCommand cmd (items.flatMap Item.words ++ rest)
        = parseRunCommand (items.foldl applied cmd) rest
  | [], _, _, _ => rfl
  | item :: items, h, cmd, hzeros => by
      obtain ⟨hword, hrest⟩ := plains_cons_eq_nil.mp h
      rw [List.flatMap_cons, List.append_assoc,
        parseRunCommand_item _ item (fun _ => by rw [hzeros, cstr_zeros]),
        parseRunCommand_front rest hrest (applied_imageName hword hzeros), List.foldl_cons]

variable {image : Argument} (hfront : plains front = []) (argv : List Argument)

include hfront

theorem cstr_pastImage_imageName :
    cstr (pastImage (.zeroed .run argv) front image).imageName = image.text.take 511 := by
  rw [pastImage, foldl_applied_imageName hfront rfl]
  exact cstr_strncpy_zeros image.nulFree

theorem parseRunCommand_image (no_dash : image.isOption = false) (words : List Argument) :
    parseRunCommand (.zeroed .run argv) (front.flatMap Item.words ++ image :: words)
      = parseRunCommand (pastImage (.zeroed .run argv) front image) words := by
  have hunnamed : cstr (front.foldl applied (.zeroed .run argv)).imageName = [] := by
    rw [foldl_applied_imageName hfront rfl]
    exact cstr_zeros _
  rw [parseRunCommand_front _ hfront rfl]
  exact parseRunCommand_item words (.plain image no_dash) fun _ => hunnamed

theorem pastImage_named (hfilled : image.text ≠ []) :
    cstr (pastImage (.zeroed .run argv) front image).imageName ≠ [] := by
  rw [cstr_pastImage_imageName hfront]
  simpa using hfilled

end Front

/-! ## 3. Behind the image -/

/-- The array of the command: still zero, or one word without a dash. -/
def OneWord (command : List Char) : Prop :=
  command = zeros MAX_COMMAND_LEN ∨
    ∃ word : Argument, word.isOption = false ∧
      command = strncpy (zeros MAX_COMMAND_LEN) word.text (MAX_COMMAND_LEN - 1)

/-- Whatever the words are, no more than one gets into the command. -/
theorem oneWord_parseRunCommand (cmd : ParsedCommand) (words : List Argument)
    (h : cmd.command = zeros MAX_COMMAND_LEN) : OneWord (parseRunCommand cmd words).command := by
  fun_induction parseRunCommand cmd words
  case case17 hdash _ => exact Or.inr ⟨_, hdash, by rw [h]⟩
  all_goals first | exact Or.inl h | (rename_i ih; exact ih h)

/-- A command of the array does not start with a dash. -/
theorem OneWord.no_dash {command : List Char} (h : OneWord command) :
    (cstr command).head? ≠ some '-' := by
  rcases h with rfl | ⟨word, hdash, rfl⟩
  · simp
  · rw [cstr_strncpy_zeros word.nulFree]
    intro hhead
    have hfirst : word.text.head? = some '-' := by
      cases hword : word.text with
      | nil => rw [hword] at hhead; simp at hhead
      | cons c rest => rw [hword] at hhead; simpa [MAX_COMMAND_LEN] using hhead
    rw [Argument.isOption, hfirst] at hdash
    simp at hdash

/-! ### Joined words -/

theorem commandText_cons (word : Argument) (words : List Argument) :
    commandText (word :: words)
      = word.text ++ if words = [] then [] else ' ' :: commandText words := by
  cases words with
  | nil => simp [commandText]
  | cons second rest => simp [commandText, List.intercalate]

theorem commandText_singleton (word : Argument) : commandText [word] = word.text := by
  rw [commandText_cons, if_pos rfl, List.append_nil]

/-- The first word is shorter than a join of several. -/
theorem commandText_ne_take {word : Argument} {words : List Argument} (h : words ≠ []) (n : Nat) :
    word.text.take n ≠ commandText (word :: words) := by
  intro heq
  have hlen := congrArg List.length heq
  rw [commandText_cons, if_neg h] at hlen
  simp only [List.length_take, List.length_append, List.length_cons] at hlen
  omega

/-- A join begins like its first word, unless that word is empty. -/
theorem head_commandText {word : Argument} (words : List Argument) (h : word.isOption = true) :
    (commandText (word :: words)).head? = some '-' := by
  rw [Argument.isOption, beq_iff_eq] at h
  rw [commandText_cons, List.head?_append, h]
  rfl

/-- At most one further word, and no option. -/
def OneCommandWord (words : List Argument) : Prop :=
  words.length ≤ 1 ∧ ∀ word ∈ words, word.isOption = false

instance (words : List Argument) : Decidable (OneCommandWord words) := by
  unfold OneCommandWord; infer_instance

section Words

variable {cmd : ParsedCommand} (hcommand : cmd.command = zeros MAX_COMMAND_LEN)
  (himage : cstr cmd.imageName ≠ [])

include hcommand himage

/-- The one word of a simple command is the command, and all that changes. -/
theorem parseRunCommand_oneWord {words : List Argument} (h : OneCommandWord words)
    (hfits : (words.map fun word => word.text.length).sum < 256) :
    cstr (parseRunCommand cmd words).command = commandText words ∧
      { parseRunCommand cmd words with command := cmd.command } = cmd := by
  match words, h, hfits with
  | [], _, _ => exact ⟨by rw [parseRunCommand, hcommand, cstr_zeros]; rfl, rfl⟩
  | [word], h, hfits =>
    have hdash := h.2 word (List.mem_singleton_self _)
    have hlen : word.text.length ≤ MAX_COMMAND_LEN - 1 := by
      rw [MAX_COMMAND_LEN]
      simp at hfits
      omega
    rw [parseRunCommand_second [] hdash himage, commandText_singleton]
    exact ⟨by rw [hcommand, cstr_strncpy_zeros word.nulFree, List.take_of_length_le hlen], rfl⟩

/-- Only a simple command is the command. -/
theorem oneCommandWord_of_kept {words : List Argument}
    (h : cstr (parseRunCommand cmd words).command = commandText words) :
    OneCommandWord words := by
  match words with
  | [] => exact ⟨by simp, by simp⟩
  | word :: rest =>
    cases hdash : word.isOption with
    | true =>
      -- the join would start with a dash
      exact absurd (by rw [h]; exact head_commandText rest hdash)
        (oneWord_parseRunCommand cmd (word :: rest) hcommand).no_dash
    | false =>
      rw [parseRunCommand_second rest hdash himage, hcommand,
        cstr_strncpy_zeros word.nulFree] at h
      have hrest : rest = [] := by
        by_contra hne
        exact commandText_ne_take hne _ h
      subst hrest
      exact ⟨by simp, by simpa using hdash⟩

end Words

/-! ## 4. What `main` passes on -/

section Main

variable {front : List Item} {image : Argument} (hfront : plains front = [])
  (no_dash : image.isOption = false)

include hfront no_dash

/-- What is parsed from a line with these words behind the image. -/
theorem parseArguments_runLine {env : ParserEnv} (halloc : env.Allocates) (program : Argument)
    (words : List Argument) : parseArguments env (runLine program front image words)
      = some (parseRunCommand
          (pastImage (.zeroed .run (runLine program front image words)) front image) words) := by
  rw [runLine, List.cons_append, List.cons_append, parseArguments_run halloc,
    parseRunCommand_image hfront _ no_dash]

end Main

theorem pastImage_command (argv : List Argument) (front : List Item) (image : Argument) :
    (pastImage (.zeroed .run argv) front image).command = zeros MAX_COMMAND_LEN :=
  foldl_applied_command front _

theorem pastImage_type (argv : List Argument) (front : List Item) (image : Argument) :
    (pastImage (.zeroed .run argv) front image).type = .run :=
  foldl_applied_type front _

/-- The copy of `argv` is all the lines differ in. -/
theorem pastImage_argv (argv argv' : List Argument) (front : List Item) (image : Argument) :
    pastImage (.zeroed .run argv') front image
      = { pastImage (.zeroed .run argv) front image with args := argv', argc := argv'.length } := by
  have hzeroed : ParsedCommand.zeroed .run argv'
      = { ParsedCommand.zeroed .run argv with args := argv', argc := argv'.length } := rfl
  rw [pastImage, hzeroed, foldl_applied_args]
  rfl

/-- A name that is set stays. -/
theorem parseRunCommand_named (cmd : ParsedCommand) (words : List Argument)
    (h : cstr cmd.imageName ≠ []) : cstr (parseRunCommand cmd words).imageName ≠ [] := by
  fun_induction parseRunCommand cmd words
  case case16 hnil _ _ => exact absurd (List.length_eq_zero_iff.mp hnil) h
  all_goals first | exact h | (rename_i ih; exact ih h)

theorem operationOf_run {cmd : ParsedCommand} (htype : cmd.type = .run) : operationOf cmd =
    some (.run (cstr cmd.imageName) (cstr cmd.command) (cstr cmd.containerName)
      (cstr cmd.workingDir) (cstr cmd.envVars) (cstr cmd.portMapping) (cstr cmd.volumeMapping)
      cmd.interactive cmd.tty cmd.detach) := by
  rw [operationOf, htype]

/-- A run line with an image is accepted. -/
theorem validateCommand_run {cmd : ParsedCommand} (htype : cmd.type = .run)
    (himage : cstr cmd.imageName ≠ []) : validateCommand cmd = .ok () := by
  rw [validateCommand, htype]
  simpa using himage

theorem main_unparsed {env : MainEnv} {argv : List Argument}
    (hparse : parseArguments env.parser argv = none) : (main env argv).called = none := by
  rw [main, hparse]

/-- The further words are the command, and nothing else, exactly when
there is none or one that is no option, where a call is made at all. -/
theorem command_kept_iff (env : MainEnv) (program : Argument) {front : List Item}
    {image : Argument} (hfront : plains front = []) (hfilled : image.text ≠ [])
    (no_dash : image.isOption = false) {words : List Argument}
    (hfits : (words.map fun word => word.text.length).sum < 256) :
    WordsKept env program front image words ↔
      (env.parser.Allocates → env.daemonRunning = true → OneCommandWord words) := by
  by_cases halloc : env.parser.Allocates
  · have hparse := parseArguments_runLine hfront no_dash halloc program
    have hcommand := pastImage_command (runLine program front image words) front image
    have himage := pastImage_named hfront (runLine program front image words) hfilled
    have htype := (parseRunCommand_type _ words).trans
      (pastImage_type (runLine program front image words) front image)
    have hcalled := main_called (hparse words) (by rw [htype]; decide)
      (validateCommand_run htype (parseRunCommand_named _ words himage))
    rw [operationOf_run htype] at hcalled
    constructor
    · intro hkept _ hdaemon
      rw [if_pos hdaemon] at hcalled
      have htext := Option.some.inj (hkept _ hcalled).1
      exact oneCommandWord_of_kept hcommand himage htext
    · intro hone call hcall
      rw [hcalled] at hcall
      cases hdaemon : env.daemonRunning with
      | false => simp [hdaemon] at hcall
      | true =>
        rw [if_pos hdaemon] at hcall
        obtain rfl := Option.some.inj hcall
        obtain ⟨htext, hrest⟩ := parseRunCommand_oneWord hcommand himage (hone halloc hdaemon) hfits
        refine ⟨congrArg some htext, _, _, hparse words, hparse [], ?_⟩
        have halone := pastImage_argv (runLine program front image words)
          (runLine program front image []) front image
        rw [parseRunCommand, halone]
        exact congrArg (fun cmd : ParsedCommand => { cmd with
          args := runLine program front image [],
          argc := (runLine program front image []).length }) hrest
  · have hnone : parseArguments env.parser (runLine program front image words) = none :=
      parseArguments_fails halloc
    refine iff_of_true (fun call hcall => ?_) (fun h => absurd h halloc)
    rw [main_unparsed hnone] at hcall
    simp at hcall

/-- `docker run -it ubuntu bash`, the example of the usage text. -/
theorem usage_example_kept :
    WordsKept readyMain program [.flag .it] ubuntu [⟨"bash".toList, by decide⟩] :=
  (command_kept_iff readyMain program (by decide) (by decide) (by decide) (by decide)).mpr
    fun _ _ => by decide

/-- `docker run ubuntu echo hi` is called with the command `echo`. -/
theorem second_word_lost :
    (main readyMain (runLine program [] ubuntu
        [⟨"echo".toList, by decide⟩, ⟨"hi".toList, by decide⟩])).called
      = some (.run "ubuntu".toList "echo".toList [] [] [] [] [] 0 0 0) ∧
    ¬ WordsKept readyMain program [] ubuntu
      [⟨"echo".toList, by decide⟩, ⟨"hi".toList, by decide⟩] := by
  have hcalled : (main readyMain (runLine program [] ubuntu
        [⟨"echo".toList, by decide⟩, ⟨"hi".toList, by decide⟩])).called
      = some (.run "ubuntu".toList "echo".toList [] [] [] [] [] 0 0 0) := by decide
  refine ⟨hcalled, fun hkept => ?_⟩
  have htext := (hkept _ hcalled).1
  exact absurd htext (by decide)

end DockerClone.Cli
