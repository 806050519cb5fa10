/-
DockerClone.Client.EnvTheorems — what is left of a list of `-e` values.

`parse_run_command` puts a semicolon between two values and marks a
semicolon inside a value in no way, so of a list only its segments are
left: the values cut at every semicolon. Two lists give one string
exactly when they have the same segments (`joinedEnv_eq_iff`).

`docker_run` prints that string behind the image, the command and the
directory, and the body ends at 1023 characters. What the two lines have
in front of it decides how much of the string is seen
(`env_apart_iff`).
-/
import DockerClone.Cli.RunTheorems
import DockerClone.Client.LengthTheorems

namespace DockerClone.Client

open DockerClone.CLib DockerClone.Cli

/-! ## 1. Segments of a list of values -/

/-- The values cut at every semicolon. -/
def segments (values : List (List Char)) : List (List Char) :=
  values.flatMap fun value => value.splitOn ';'

theorem foldl_joinEnv : ∀ (values : List (List Char)) {joined : List Char}, joined ≠ [] →
    values.foldl joinEnv joined = joined ++ values.flatMap fun value => ';' :: value
  | [], _, _ => by simp
  | value :: rest, joined, h => by
      have hjoin : joinEnv joined value = joined ++ ';' :: value := if_neg h
      rw [List.foldl_cons, hjoin, foldl_joinEnv rest (by simp), List.flatMap_cons,
        List.append_assoc]

section Lists

variable {xs ys : List (List Char)}

/-- Without empty values the environment is the join. -/
theorem joinedEnv_eq_intercalate (hxs : ∀ value ∈ xs, value ≠ []) :
    joinedEnv xs = List.intercalate [';'] xs := by
  match xs with
  | [] => rfl
  | value :: rest =>
    have hfirst : joinEnv [] value = value := if_pos rfl
    rw [joinedEnv, List.foldl_cons, hfirst, foldl_joinEnv rest (hxs value List.mem_cons_self),
      intercalate_cons]

theorem joinedEnv_eq_nil (hxs : ∀ value ∈ xs, value ≠ []) : joinedEnv xs = [] ↔ xs = [] := by
  rw [joinedEnv_eq_intercalate hxs]
  match xs with
  | [] => simp
  | value :: rest =>
    rw [intercalate_cons]
    simp [hxs value List.mem_cons_self]

theorem segments_eq_nil : segments xs = [] ↔ xs = [] := by
  cases xs with
  | nil => simp [segments]
  | cons value rest => simp [segments, List.splitOn_ne_nil]

/-- Two lists give one string exactly when they have the same segments. -/
theorem joinedEnv_eq_iff (hxs : ∀ value ∈ xs, value ≠ []) (hys : ∀ value ∈ ys, value ≠ []) :
    joinedEnv xs = joinedEnv ys ↔ segments xs = segments ys := by
  by_cases hx : xs = []
  · subst hx
    have hnil : joinedEnv [] = [] := rfl
    have hseg : segments [] = [] := rfl
    rw [hnil, hseg, @eq_comm _ [] (joinedEnv ys), @eq_comm _ [] (segments ys),
      joinedEnv_eq_nil hys, segments_eq_nil]
  · by_cases hy : ys = []
    · subst hy
      have hnil : joinedEnv [] = [] := rfl
      have hseg : segments [] = [] := rfl
      rw [hnil, hseg, joinedEnv_eq_nil hxs, segments_eq_nil]
    · rw [joinedEnv_eq_intercalate hxs, joinedEnv_eq_intercalate hys]
      rw [segments, segments, ← splitOn_intercalate_flatMap ';' hx,
        ← splitOn_intercalate_flatMap ';' hy]
      constructor
      · intro h
        rw [h]
      · intro h
        have hcut := congrArg (List.intercalate [';']) h
        rwa [List.intercalate_splitOn, List.intercalate_splitOn] at hcut

end Lists

/-! ## 2. The body -/

/-- The body up to the environment. -/
def bodyFront (cmd : ParsedCommand) : List Char :=
  "\x7b\"Image\":\"".toList ++ cstr cmd.imageName ++ "\",\"Cmd\":[\"".toList ++ cstr cmd.command
    ++ "\"],\"WorkingDir\":\"".toList ++ cstr cmd.workingDir ++ "\",\"Env\":[\"".toList

/-- The characters of the environment that stand in the body. -/
def envPart (cmd : ParsedCommand) : List Char :=
  ((snprintf 1024 (commandBody cmd)).drop (bodyFront cmd).length).take (cstr cmd.envVars).length

/-- The body behind it. -/
def bodyBack (cmd : ParsedCommand) : List Char :=
  "\"],\"PortBindings\":\"".toList ++ cstr cmd.portMapping ++ "\",\"Binds\":[\"".toList
    ++ cstr cmd.volumeMapping ++ "\"],\"AttachStdin\":".toList
    ++ (boolText cmd.interactive).toList ++ ",\"AttachStdout\":".toList
    ++ (boolText cmd.tty).toList ++ ",\"Detach\":".toList ++ (boolText cmd.detach).toList
    ++ "\x7d".toList

theorem commandBody_eq (cmd : ParsedCommand) :
    commandBody cmd = bodyFront cmd ++ (cstr cmd.envVars ++ bodyBack cmd) := by
  unfold commandBody runBody bodyFront bodyBack
  simp only [List.append_assoc, Option.getD_some]

/-- The body ends at 1023 characters, whatever stands there. -/
theorem envPart_eq (cmd : ParsedCommand) :
    envPart cmd = (cstr cmd.envVars).take (1023 - (bodyFront cmd).length) := by
  rw [envPart, snprintf, commandBody_eq, List.drop_take, List.drop_left, List.take_take,
    List.take_append_of_le_length (Nat.min_le_left _ _), ← List.take_take]
  rw [List.take_of_length_le]
  rw [List.length_take]
  omega

theorem length_bodyFront (cmd : ParsedCommand) : (bodyFront cmd).length
    = 47 + (cstr cmd.imageName).length + (cstr cmd.command).length
      + (cstr cmd.workingDir).length := by
  unfold bodyFront
  simp only [List.length_append]
  simp
  omega

/-! ## 3. Two lines -/

/-- An option of the environment. -/
def isEnv (item : Item) : Bool := (item.value .env).isSome

/-- The lines are the same but for the options of the environment. -/
def OtherwiseEqual (as bs : List Item) : Prop :=
  as.filter (fun item => !isEnv item) = bs.filter (fun item => !isEnv item)

/-- The other options say nothing about the environment. -/
theorem value_of_isEnv {item : Item} (h : isEnv item = true) {field : Cli.Field}
    (hfield : field ≠ .env) : item.value field = none := by
  cases item with
  | setting s value =>
    cases s <;> cases field <;> simp_all [isEnv, Item.value, Setting.field]
  | flag | other | plain => rfl

theorem not_isEnv_of_plainWord {item : Item} (h : isEnv item = true) : item.plainWord = none := by
  cases item <;> simp_all [isEnv, Item.value, Item.plainWord]

theorem filterMap_otherwise {β : Type} {f : Item → Option β}
    (hf : ∀ item, isEnv item = true → f item = none) (items : List Item) :
    (items.filter (fun item => !isEnv item)).filterMap f = items.filterMap f := by
  rw [List.filterMap_filter]
  refine List.filterMap_congr fun item _ => ?_
  cases h : isEnv item with
  | false => simp
  | true => simp [hf item h]

section Equal

variable {as bs : List Item} (h : OtherwiseEqual as bs)

include h

theorem OtherwiseEqual.values {field : Cli.Field} (hfield : field ≠ .env) :
    values field as = values field bs := by
  have hnone : ∀ item, isEnv item = true → item.value field = none :=
    fun item henv => value_of_isEnv henv hfield
  rw [Cli.values, Cli.values, ← filterMap_otherwise hnone as, h, filterMap_otherwise hnone bs]

theorem OtherwiseEqual.plains : plains as = plains bs := by
  have hnone : ∀ item, isEnv item = true → item.plainWord = none :=
    fun item => not_isEnv_of_plainWord
  rw [Cli.plains, Cli.plains, plainWords, plainWords, ← filterMap_otherwise hnone as, h,
    filterMap_otherwise hnone bs]

end Equal

/-- The characters of the environment that the body has room for. -/
def envRoom (items : List Item) : Nat :=
  1023 - (47 + (((plains items)[0]?.getD []).take 511).length
    + (((plains items)[1]?.getD []).take 255).length
    + (((values .dir items).getLast?.getD []).take 511).length)

theorem envRoom_eq {items : List Item} {cmd : ParsedCommand} (h : Yields items cmd) :
    1023 - (bodyFront cmd).length = envRoom items := by
  rw [length_bodyFront, h.imageName, h.command, h.workingDir, envRoom]

/-- The strings of the two commands differ, and the bodies in what they
show of them. -/
def EnvsApart (env : ParserEnv) (line₁ line₂ : List Argument) : Prop :=
  ∀ cmd₁ cmd₂, parseArguments env line₁ = some cmd₁ → parseArguments env line₂ = some cmd₂ →
    cstr cmd₁.envVars ≠ cstr cmd₂.envVars ∧ envPart cmd₁ ≠ envPart cmd₂

/-- A run line. -/
def itemLine (program : Argument) (items : List Item) (rest : List Argument) : List Argument :=
  program :: runWord :: (items.flatMap Item.words ++ rest)

theorem parseArguments_itemLine {env : ParserEnv} (halloc : env.Allocates) (program : Argument)
    {items : List Item} {rest : List Argument} (hplain : SecondLast items)
    (hfits : (joinedEnv (values .env items)).length < 512) (hrest : Unread items rest) :
    ∃ cmd, parseArguments env (itemLine program items rest) = some cmd ∧ Yields items cmd :=
  ⟨_, parseArguments_run halloc program _, yields_parseRunCommand _ hplain hfits hrest⟩

/-- For two commands that were parsed it is a matter of these two. -/
theorem envsApart_iff_of_parsed {env : ParserEnv} {line₁ line₂ : List Argument}
    {cmd₁ cmd₂ : ParsedCommand} (h₁ : parseArguments env line₁ = some cmd₁)
    (h₂ : parseArguments env line₂ = some cmd₂) : EnvsApart env line₁ line₂ ↔
      cstr cmd₁.envVars ≠ cstr cmd₂.envVars ∧ envPart cmd₁ ≠ envPart cmd₂ := by
  constructor
  · intro h
    exact h _ _ h₁ h₂
  · intro h cmd₁' cmd₂' h₁' h₂'
    obtain rfl := Option.some.inj (h₁.symm.trans h₁')
    obtain rfl := Option.some.inj (h₂.symm.trans h₂')
    exact h

/-- Two lists of values are kept apart exactly when their joins differ
where the body still shows them. -/
theorem env_apart_iff (env : ParserEnv) (program : Argument) {as bs : List Item}
    {rest : List Argument} (hequal : OtherwiseEqual as bs) (hplainA : SecondLast as)
    (hplainB : SecondLast bs) (hrest : Unread as rest)
    (hvaluesA : ∀ value ∈ values .env as, value ≠ [])
    (hvaluesB : ∀ value ∈ values .env bs, value ≠ [])
    (hfitsA : (joinedEnv (values .env as)).length < 512)
    (hfitsB : (joinedEnv (values .env bs)).length < 512) :
    EnvsApart env (itemLine program as rest) (itemLine program bs rest) ↔
      (env.Allocates → (List.intercalate [';'] (values .env as)).take (envRoom as)
        ≠ (List.intercalate [';'] (values .env bs)).take (envRoom as)) := by
  by_cases halloc : env.Allocates
  · have hrestB : Unread bs rest := by
      rw [Unread, ← hequal.plains]
      exact hrest
    have hroom : envRoom bs = envRoom as := by
      rw [envRoom, envRoom, hequal.plains, hequal.values (by decide)]
    obtain ⟨cmdA, hparseA, hA⟩ := parseArguments_itemLine halloc program hplainA hfitsA hrest
    obtain ⟨cmdB, hparseB, hB⟩ := parseArguments_itemLine halloc program hplainB hfitsB hrestB
    have hpartA : envPart cmdA
        = (List.intercalate [';'] (values .env as)).take (envRoom as) := by
      rw [envPart_eq, envRoom_eq hA, hA.envVars, joinedEnv_eq_intercalate hvaluesA]
    have hpartB : envPart cmdB
        = (List.intercalate [';'] (values .env bs)).take (envRoom as) := by
      rw [envPart_eq, envRoom_eq hB, hroom, hB.envVars, joinedEnv_eq_intercalate hvaluesB]
    -- what the body shows is cut from the string
    have hsame : cstr cmdA.envVars = cstr cmdB.envVars → envPart cmdA = envPart cmdB := by
      intro hstring
      rw [envPart_eq, envPart_eq, envRoom_eq hA, envRoom_eq hB, hroom, hstring]
    rw [envsApart_iff_of_parsed hparseA hparseB, ← hpartA, ← hpartB]
    exact ⟨fun h _ => h.2, fun h => ⟨fun hstring => h halloc (hsame hstring), h halloc⟩⟩
  · have hnone : parseArguments env (itemLine program as rest) = none := parseArguments_fails halloc
    refine iff_of_true (fun cmd₁ _ h₁ => ?_) (fun h => absurd h halloc)
    rw [hnone] at h₁
    simp at h₁

/-- `docker run -e A=1 ubuntu`. -/
def firstLine : List Item := [.setting .e aVariable, ubuntuItem]

/-- `docker run --env A=2 ubuntu`. -/
def secondLine : List Item := [.setting .env ⟨"A=2".toList, by decide⟩, ubuntuItem]

theorem other_value_apart : EnvsApart readyMain.parser
    (itemLine program firstLine []) (itemLine program secondLine []) := by
  have hroom : envRoom firstLine = 970 := by decide
  refine (@env_apart_iff readyMain.parser program firstLine secondLine [] rfl
    (Or.inl (by decide)) (Or.inl (by decide)) (Or.inl rfl) (by decide) (by decide) (by decide)
    (by decide)).mpr fun _ => ?_
  rw [hroom]
  decide

/-- `docker run -e "A=1;B=2" ubuntu`. -/
def oneValue : List Item := [.setting .e ⟨"A=1;B=2".toList, by decide⟩, ubuntuItem]

/-- `docker run -e A=1 -e B=2 ubuntu`. -/
def twoValues : List Item :=
  [.setting .e aVariable, .setting .e bVariable, ubuntuItem]

/-- One value with a semicolon and two values give one string. -/
theorem semicolon_not_apart :
    values .env oneValue ≠ values .env twoValues ∧ OtherwiseEqual oneValue twoValues ∧
    ¬ EnvsApart readyMain.parser (itemLine program oneValue []) (itemLine program twoValues []) := by
  refine ⟨by decide, rfl, fun hapart => ?_⟩
  have halloc : readyMain.parser.Allocates := ⟨rfl, rfl⟩
  obtain ⟨cmd₁, hparse₁, h₁⟩ := @parseArguments_itemLine _ halloc program oneValue []
    (Or.inl (by decide)) (by decide) (Or.inl rfl)
  obtain ⟨cmd₂, hparse₂, h₂⟩ := @parseArguments_itemLine _ halloc program twoValues []
    (Or.inl (by decide)) (by decide) (Or.inl rfl)
  have hjoined : joinedEnv (values .env oneValue) = joinedEnv (values .env twoValues) :=
    (joinedEnv_eq_iff (by decide) (by decide)).mpr (by decide)
  refine ((envsApart_iff_of_parsed hparse₁ hparse₂).mp hapart).1 ?_
  rw [h₁.envVars, h₂.envVars, hjoined]

end DockerClone.Client
