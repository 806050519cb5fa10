/-
DockerClone.Cli.OperandTheorems — which operand reaches which operation.

Three switches run over the same types. `parse_arguments` puts the first
operand of `stop`, `rm`, `rmi`, `logs` and `exec` into `container_name`
and reads nothing behind it; `validate_command` looks at that array for
all of them but `rmi`; `main` passes it on for all of them but `rmi`,
which gets `image_name`, and passes `command` to `exec`. Neither of these
two arrays was filled, so they are the empty string
(`operationOf_containerCommand`).

What follows for the five subcommands is `operands_reach_iff`: nothing is
wrong with `stop`, `rm` and `logs`; `rmi` is right only about the empty
name, `exec` only about the empty command.
-/
import DockerClone.Cli.Main
import Mathlib.Data.List.Infix

namespace DockerClone.Cli

open DockerClone.CLib

/-! ## 1. Operands -/

/-- The subcommands with an operand that names a container or an image. -/
def takesOperand : CommandType → Bool
  | .stop | .rm | .rmi | .logs | .exec => true
  | _ => false

/-- The first word that does not start with a dash. -/
def operand (words : List Argument) : Option Argument := words.find? fun arg => !arg.isOption

/-- The words behind the operand. -/
def wordsAfter (words : List Argument) : List Argument := (words.dropWhile (·.isOption)).tail

/-- Words as one command, single spaces between them. -/
def commandText (words : List Argument) : List Char :=
  List.intercalate [' '] (words.map (·.text))

/-- The call that a subcommand asks for. -/
def operandCall (word : Argument) (after : List Argument) : CommandType → Option Call
  | .stop => some (.stop (word.text.take 511))
  | .rm => some (.rm (word.text.take 511))
  | .rmi => some (.rmi (word.text.take 511))
  | .logs => some (.logs (word.text.take 511))
  | .exec => some (.exec (word.text.take 511) (commandText after))
  | _ => none

/-- A command that takes an operand and is accepted has one and reaches
its operation with it; one without an operand is rejected. -/
def OperandsReach (env : MainEnv) (argv : List Argument) : Prop :=
  ∀ cmd, parseArguments env.parser argv = some cmd → takesOperand cmd.type = true →
    (validateCommand cmd = .ok () → ∃ word, operand (argv.drop 2) = some word ∧
      (main env argv).called = operandCall word (wordsAfter (argv.drop 2)) cmd.type) ∧
    (operand (argv.drop 2) = none → validateCommand cmd ≠ .ok ())

/-! ## 2. What the parser fills -/

/-- The container name after the parser: the operand, cut to the array. -/
def operandText (words : List Argument) : List Char :=
  match operand words with
  | some word => word.text.take 511
  | none => []

theorem parseContainerCommand_eq (cmd : ParsedCommand) : ∀ words : List Argument,
    parseContainerCommand cmd words = match operand words with
      | some word =>
          { cmd with containerName := strncpy cmd.containerName word.text (MAX_PATH_LEN - 1) }
      | none => cmd
  | [] => rfl
  | arg :: rest => by
      have ih := parseContainerCommand_eq cmd rest
      unfold operand at ih ⊢
      rw [parseContainerCommand, List.find?_cons]
      cases harg : arg.isOption with
      | false => simp
      | true => simpa using ih

/-- The parsed command of a subcommand with an operand. -/
def containerCommand (type : CommandType) (argv : List Argument) : ParsedCommand :=
  parseContainerCommand (.zeroed type argv) (argv.drop 2)

section Fields

variable (type : CommandType) (argv : List Argument)

theorem containerCommand_type : (containerCommand type argv).type = type := by
  rw [containerCommand, parseContainerCommand_eq]
  cases operand (argv.drop 2) <;> rfl

theorem cstr_containerName :
    cstr (containerCommand type argv).containerName = operandText (argv.drop 2) := by
  rw [containerCommand, parseContainerCommand_eq, operandText]
  cases operand (argv.drop 2) with
  | none => exact cstr_zeros _
  | some word => exact cstr_strncpy_zeros word.nulFree

theorem cstr_imageName : cstr (containerCommand type argv).imageName = [] := by
  rw [containerCommand, parseContainerCommand_eq]
  cases operand (argv.drop 2) <;> exact cstr_zeros _

theorem cstr_command : cstr (containerCommand type argv).command = [] := by
  rw [containerCommand, parseContainerCommand_eq]
  cases operand (argv.drop 2) <;> exact cstr_zeros _

end Fields

/-! No loop changes the type. -/

theorem parseRunCommand_type (cmd : ParsedCommand) (words : List Argument) :
    (parseRunCommand cmd words).type = cmd.type := by
  fun_induction parseRunCommand cmd words <;> first | rfl | assumption

theorem parseBuildCommand_type (cmd : ParsedCommand) (words : List Argument) :
    (parseBuildCommand cmd words).type = cmd.type := by
  have hwords : (parseBuildWords cmd words).type = cmd.type := by
    fun_induction parseBuildWords cmd words <;> first | rfl | assumption
  rw [parseBuildCommand]
  split
  · exact hwords
  · exact hwords

theorem parseCommitCommand_type (cmd : ParsedCommand) (words : List Argument) :
    (parseCommitCommand cmd words).type = cmd.type := by
  fun_induction parseCommitCommand cmd words <;> first | rfl | assumption

/-- Both allocations of the parser succeed. -/
def ParserEnv.Allocates (env : ParserEnv) : Prop :=
  env.cmdAllocated = true ∧ env.argsAllocated = true

section Parsed

variable {env : ParserEnv} {program word : Argument} {words : List Argument}

theorem parseArguments_fails (h : ¬ env.Allocates) :
    parseArguments env (program :: word :: words) = none := by
  rw [parseArguments]
  cases hcmd : env.cmdAllocated with
  | false => rfl
  | true =>
    cases hargs : env.argsAllocated with
    | false => rfl
    | true => exact absurd ⟨hcmd, hargs⟩ h

theorem parseArguments_type {cmd : ParsedCommand}
    (h : parseArguments env (program :: word :: words) = some cmd) :
    cmd.type = getCommandType word := by
  by_cases halloc : env.Allocates
  · rw [parseArguments, if_neg (by simp [halloc.1]), if_neg (by simp [halloc.2])] at h
    obtain rfl := Option.some.inj h
    cases htype : getCommandType word with
    | run => exact parseRunCommand_type _ _
    | build => exact parseBuildCommand_type _ _
    | commit => exact parseCommitCommand_type _ _
    | stop => exact containerCommand_type .stop (program :: word :: words)
    | rm => exact containerCommand_type .rm (program :: word :: words)
    | rmi => exact containerCommand_type .rmi (program :: word :: words)
    | logs => exact containerCommand_type .logs (program :: word :: words)
    | exec => exact containerCommand_type .exec (program :: word :: words)
    | unknown | images | containers | ps | daemon => rfl
  · rw [parseArguments_fails halloc] at h
    simp at h

/-- What the parser returns for a subcommand with an operand. -/
theorem parseArguments_operand (halloc : env.Allocates)
    (h : takesOperand (getCommandType word) = true) :
    parseArguments env (program :: word :: words)
      = some (containerCommand (getCommandType word) (program :: word :: words)) := by
  rw [parseArguments, if_neg (by simp [halloc.1]), if_neg (by simp [halloc.2])]
  cases htype : getCommandType word with
  | stop | rm | rmi | logs | exec => rfl
  | unknown | run | build | images | containers | ps | commit | daemon =>
    rw [htype] at h
    simp [takesOperand] at h

end Parsed

/-! ## 3. What is accepted and called -/

/-- The words start with a name: an operand that is not the empty word. -/
def Named (words : List Argument) : Prop :=
  ∃ word, operand words = some word ∧ word.text ≠ []

theorem operandText_ne_nil_iff (words : List Argument) : operandText words ≠ [] ↔ Named words := by
  rw [operandText, Named]
  cases operand words <;> simp

/-- The validator tests the operand of all of them but `rmi`. -/
theorem validateCommand_containerCommand {type : CommandType} (h : takesOperand type = true)
    (argv : List Argument) : validateCommand (containerCommand type argv) = .ok () ↔
      type = .rmi ∨ Named (argv.drop 2) := by
  rw [← operandText_ne_nil_iff, validateCommand, containerCommand_type, cstr_containerName]
  cases type with
  | rmi => simp
  | stop | rm | logs | exec =>
    by_cases hnil : operandText (argv.drop 2) = [] <;> simp [hnil]
  | unknown | run | build | images | containers | ps | commit | daemon => simp [takesOperand] at h

/-- The operation `main` selects, with what the parser filled. -/
theorem operationOf_containerCommand (argv : List Argument) (type : CommandType) :
    operationOf (containerCommand type argv) = match type with
      | .stop => some (.stop (operandText (argv.drop 2)))
      | .rm => some (.rm (operandText (argv.drop 2)))
      | .rmi => some (.rmi [])
      | .logs => some (.logs (operandText (argv.drop 2)))
      | .exec => some (.exec (operandText (argv.drop 2)) [])
      | _ => operationOf (containerCommand type argv) := by
  rw [operationOf.eq_def, containerCommand_type]
  cases type <;> simp [cstr_containerName, cstr_imageName, cstr_command]

/-- An accepted command is called when the daemon answers. -/
theorem main_called {env : MainEnv} {argv : List Argument} {cmd : ParsedCommand}
    (hparse : parseArguments env.parser argv = some cmd) (hdaemon : cmd.type ≠ .daemon)
    (hvalid : validateCommand cmd = .ok ()) :
    (main env argv).called = if env.daemonRunning then operationOf cmd else none := by
  rw [main, hparse]
  simp only [hvalid, if_neg hdaemon]
  cases env.daemonRunning with
  | false => simp
  | true => cases operationOf cmd <;> simp

theorem not_daemon_of_takesOperand {type : CommandType} (h : takesOperand type = true) :
    type ≠ .daemon := by
  rintro rfl
  simp [takesOperand] at h

/-! ## 4. Which operands reach -/

/-- When the operand and the words behind it are passed on. -/
def OperandsKept (env : MainEnv) (argv : List Argument) : Prop :=
  match argv with
  | _ :: word :: words =>
      env.parser.Allocates →
        match getCommandType word with
        | .stop | .rm | .logs => Named words → env.daemonRunning = true
        | .rmi => env.daemonRunning = true ∧ ∃ word, operand words = some word ∧ word.text = []
        | .exec =>
            Named words → env.daemonRunning = true ∧ commandText (wordsAfter words) = []
        | _ => True
  | _ => True

/-- For a subcommand with an operand: an accepted command has one, the
daemon answers, and the call is the one that was asked for. -/
theorem operandsReach_of_operand {env : MainEnv} {program word : Argument}
    {words : List Argument} (halloc : env.parser.Allocates)
    (htakes : takesOperand (getCommandType word) = true) :
    OperandsReach env (program :: word :: words) ↔
      (getCommandType word = .rmi ∨ Named words → ∃ arg, operand words = some arg ∧
        (if env.daemonRunning then
          operationOf (containerCommand (getCommandType word) (program :: word :: words))
        else none) = operandCall arg (wordsAfter words) (getCommandType word)) := by
  have hparse : parseArguments env.parser (program :: word :: words) = some _ :=
    parseArguments_operand halloc htakes
  have hvalid := validateCommand_containerCommand htakes (program :: word :: words)
  have htype := containerCommand_type (getCommandType word) (program :: word :: words)
  have hcalled := main_called hparse (by rw [htype]; exact not_daemon_of_takesOperand htakes)
  constructor
  · intro h haccepted
    obtain ⟨arg, harg, hcall⟩ := (h _ hparse (by rw [htype]; exact htakes)).1
      (hvalid.mpr haccepted)
    rw [hcalled (hvalid.mpr haccepted), htype] at hcall
    exact ⟨arg, harg, hcall⟩
  · intro h cmd hcmd _
    obtain rfl := Option.some.inj (hparse.symm.trans hcmd)
    have hreach : validateCommand (containerCommand (getCommandType word)
        (program :: word :: words)) = .ok () → _ := fun hok => h (hvalid.mp hok)
    refine ⟨fun hok => ?_, fun hnone hok => ?_⟩
    · obtain ⟨arg, harg, hcall⟩ := hreach hok
      exact ⟨arg, harg, by rw [hcalled hok, hcall, htype]; rfl⟩
    · obtain ⟨arg, harg, -⟩ := hreach hok
      rw [show operand words = none from hnone] at harg
      simp at harg

/-- A call that is made with the operand is the one asked for, when it is
made. -/
theorem named_call_iff (call : List Char → Call) (words : List Argument) (answers : Bool) :
    (Named words → ∃ arg, operand words = some arg ∧
      (if answers then some (call (operandText words)) else none)
        = some (call (arg.text.take 511))) ↔ (Named words → answers = true) := by
  refine imp_congr_right fun hnamed => ?_
  obtain ⟨arg, harg, -⟩ := hnamed
  rw [operandText, harg]
  cases answers <;> simp

/-- The command of `exec` is empty, so no other one is passed on. -/
theorem exec_call_iff (words : List Argument) (answers : Bool) :
    (Named words → ∃ arg, operand words = some arg ∧
      (if answers then some (Call.exec (operandText words) []) else none)
        = some (.exec (arg.text.take 511) (commandText (wordsAfter words)))) ↔
      (Named words → answers = true ∧ commandText (wordsAfter words) = []) := by
  refine imp_congr_right fun hnamed => ?_
  obtain ⟨arg, harg, -⟩ := hnamed
  rw [operandText, harg]
  cases answers with
  | false => simp
  | true => simp [@eq_comm _ []]

/-- The image of `rmi` is the empty name. -/
theorem rmi_call_iff (words : List Argument) (answers : Bool) :
    (∃ arg, operand words = some arg ∧
      (if answers then some (Call.rmi []) else none) = some (.rmi (arg.text.take 511))) ↔
      answers = true ∧ ∃ arg, operand words = some arg ∧ arg.text = [] := by
  cases answers with
  | false => simp
  | true => simp

/-- The operand reaches its operation exactly when the daemon answers and
nothing but an empty name is asked of `rmi`, nothing but an empty command
of `exec`. -/
theorem operands_reach_iff (env : MainEnv) (argv : List Argument) :
    OperandsReach env argv ↔ OperandsKept env argv := by
  match argv with
  | [] | [_] =>
    exact ⟨fun _ => trivial, fun _ cmd hparse => by simp [parseArguments] at hparse⟩
  | program :: word :: words =>
    by_cases halloc : env.parser.Allocates
    · have hcall := operationOf_containerCommand (program :: word :: words)
      rw [OperandsKept]
      simp only [halloc, true_imp_iff]
      by_cases htakes : takesOperand (getCommandType word) = true
      · rw [operandsReach_of_operand halloc htakes]
        cases htype : getCommandType word with
        | stop =>
          rw [hcall]
          simp only [operandCall, reduceCtorEq, false_or]
          exact named_call_iff Call.stop words env.daemonRunning
        | rm =>
          rw [hcall]
          simp only [operandCall, reduceCtorEq, false_or]
          exact named_call_iff Call.rm words env.daemonRunning
        | logs =>
          rw [hcall]
          simp only [operandCall, reduceCtorEq, false_or]
          exact named_call_iff Call.logs words env.daemonRunning
        | exec =>
          rw [hcall]
          simp only [operandCall, reduceCtorEq, false_or]
          exact exec_call_iff words env.daemonRunning
        | rmi =>
          rw [hcall]
          simp only [operandCall, true_or, true_imp_iff]
          exact rmi_call_iff words env.daemonRunning
        | unknown | run | build | images | containers | ps | commit | daemon =>
          rw [htype] at htakes
          simp [takesOperand] at htakes
      · -- the type of the command is the type of the word
        have hvacuous : OperandsReach env (program :: word :: words) := by
          intro cmd hparse htype
          rw [parseArguments_type hparse] at htype
          exact absurd htype htakes
        cases htype : getCommandType word with
        | stop | rm | rmi | logs | exec =>
          rw [htype] at htakes
          exact absurd rfl htakes
        | unknown | run | build | images | containers | ps | commit | daemon =>
          exact ⟨fun _ => trivial, fun _ => hvacuous⟩
    · refine ⟨fun _ h => absurd h halloc, fun _ cmd hparse => ?_⟩
      rw [parseArguments_fails halloc] at hparse
      simp at hparse

/-- A run in which nothing fails. -/
def readyMain : MainEnv where
  parser := { cmdAllocated := true, argsAllocated := true }
  daemonRunning := true
  startDaemon := 0
  result := fun _ => 0

def program : Argument := ⟨"docker".toList, by decide⟩

/-- `docker rmi alpine`. -/
def rmiAlpine : List Argument :=
  [program, ⟨"rmi".toList, by decide⟩, ⟨"alpine".toList, by decide⟩]

/-- `docker exec web ls`. -/
def execLs : List Argument :=
  [program, ⟨"exec".toList, by decide⟩, ⟨"web".toList, by decide⟩, ⟨"ls".toList, by decide⟩]

/-- Both commands are accepted; `rmi` is asked to remove the empty name,
`exec` to run the empty command. -/
theorem operands_lost :
    (main readyMain rmiAlpine).called = some (.rmi []) ∧ ¬ OperandsReach readyMain rmiAlpine ∧
    (main readyMain execLs).called = some (.exec "web".toList []) ∧
    ¬ OperandsReach readyMain execLs := by
  refine ⟨by decide, ?_, by decide, ?_⟩
  · intro h
    obtain ⟨arg, harg, hcall⟩ := (operandsReach_of_operand ⟨rfl, rfl⟩ (by decide)).mp h
      (Or.inl (by decide))
    obtain rfl := Option.some.inj harg
    exact absurd hcall (by decide)
  · intro h
    obtain ⟨arg, harg, hcall⟩ := (operandsReach_of_operand ⟨rfl, rfl⟩ (by decide)).mp h
      (Or.inr ⟨_, rfl, by decide⟩)
    obtain rfl := Option.some.inj harg
    exact absurd hcall (by decide)

end DockerClone.Cli
