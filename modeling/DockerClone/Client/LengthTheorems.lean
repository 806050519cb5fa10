/-
DockerClone.Client.LengthTheorems — what fits into a request.

The fields of a parsed command have the sizes of their own arrays; the
URL and the body that are printed from them have 512 and 1024 bytes. A
text that is too long for its array is cut without a word. The request
itself has room for any URL and body, so it is the two smaller arrays that
decide (`sent_whole_iff`).
-/
import DockerClone.Cli.OperandTheorems
import DockerClone.Client.Operations

namespace DockerClone.Client

open DockerClone.CLib DockerClone.Http DockerClone.Cli

/-! ## 1. Texts of a command -/

/-- The body `docker_run` prints for a command; `main` passes arrays,
never NULL. -/
def commandBody (cmd : ParsedCommand) : List Char :=
  runBody (some (cstr cmd.imageName)) (some (cstr cmd.command)) (some (cstr cmd.workingDir))
    (some (cstr cmd.envVars)) (some (cstr cmd.portMapping)) (some (cstr cmd.volumeMapping))
    cmd.interactive cmd.tty cmd.detach

/-- The URL `docker_build` prints. -/
def commandUrl (cmd : ParsedCommand) : List Char :=
  buildUrl (some (cstr cmd.imageName)) (some (cstr cmd.dockerfilePath))

/-- `create_http_request` prints its whole format. -/
def RequestWhole (method : String) (url : List Char) (body : Option (List Char)) : Prop :=
  (requestText method.toList url (body.getD [])).length < CLIENT_MAX_REQUEST_SIZE

/-- Nothing is cut on the way from the command to the request. -/
def SentWhole (cmd : ParsedCommand) : Prop :=
  match cmd.type with
  | .run =>
      (commandBody cmd).length < 1024 ∧
        RequestWhole "POST" "/containers/create".toList (some (snprintf 1024 (commandBody cmd)))
  | .build =>
      (commandUrl cmd).length < 512 ∧ RequestWhole "POST" (snprintf 512 (commandUrl cmd)) none
  | .stop =>
      (containerUrl (cstr cmd.containerName) "/stop").length < 512 ∧
        RequestWhole "POST" (snprintf 512 (containerUrl (cstr cmd.containerName) "/stop")) none
  | .rm =>
      (containerUrl (cstr cmd.containerName) "/remove").length < 512 ∧
        RequestWhole "DELETE" (snprintf 512 (containerUrl (cstr cmd.containerName) "/remove")) none
  | _ => True

/-- The length of `true` or `false`. -/
def flagLength (flag : Int32) : Nat := if flag ≠ 0 then 4 else 5

/-- The fields of the command are short enough for its operation. -/
def LengthsFit (cmd : ParsedCommand) : Prop :=
  match cmd.type with
  | .run =>
      122 + (cstr cmd.imageName).length + (cstr cmd.command).length
        + (cstr cmd.workingDir).length + (cstr cmd.envVars).length
        + (cstr cmd.portMapping).length + (cstr cmd.volumeMapping).length
        + flagLength cmd.interactive + flagLength cmd.tty + flagLength cmd.detach < 1024
  | .build => 21 + (cstr cmd.imageName).length + (cstr cmd.dockerfilePath).length < 512
  | .stop => 17 + (cstr cmd.containerName).length < 512
  | .rm => 19 + (cstr cmd.containerName).length < 512
  | _ => True

/-! ## 2. Lengths -/

theorem length_boolText (flag : Int32) : (boolText flag).toList.length = flagLength flag := by
  unfold boolText flagLength
  split <;> decide

theorem length_commandBody (cmd : ParsedCommand) : (commandBody cmd).length
    = 122 + (cstr cmd.imageName).length + (cstr cmd.command).length
      + (cstr cmd.workingDir).length + (cstr cmd.envVars).length
      + (cstr cmd.portMapping).length + (cstr cmd.volumeMapping).length
      + flagLength cmd.interactive + flagLength cmd.tty + flagLength cmd.detach := by
  unfold commandBody runBody
  simp only [List.length_append, Option.getD_some, length_boolText]
  simp
  omega

theorem length_commandUrl (cmd : ParsedCommand) : (commandUrl cmd).length
    = 21 + (cstr cmd.imageName).length + (cstr cmd.dockerfilePath).length := by
  unfold commandUrl buildUrl
  simp
  omega

theorem length_containerUrl (id : List Char) (action : String) :
    (containerUrl id action).length = 12 + id.length + action.toList.length := by
  unfold containerUrl
  simp
  omega

theorem length_snprintf_lt (s : List Char) {size : Nat} (hsize : 0 < size) :
    (snprintf size s).length < size := by
  rw [snprintf, List.length_take]
  omega

theorem length_headerLines_le (n : Int32) : (headerLines n).length ≤ 97 := by
  have hnum := length_renderInt_le n
  have hfront : "Host: localhost\r\nContent-Type: application/json\r\nContent-Length: ".toList.length
      = 65 := by simp
  have hback : "\r\nConnection: close\r\n".toList.length = 21 := by simp
  unfold headerLines
  rw [List.length_append, List.length_append, hfront, hback]
  omega

/-- A request has room for any URL and any body. -/
theorem requestWhole_of_lt {method : String} {url : List Char} {body : Option (List Char)}
    (hmethod : method.toList.length ≤ 6) (hurl : url.length < 512)
    (hbody : (body.getD []).length < 1024) : RequestWhole method url body := by
  have hheaders := length_headerLines_le (Int32.ofNat (body.getD []).length)
  have hspace : " ".toList.length = 1 := by simp
  have hversion : " HTTP/1.1\r\n".toList.length = 11 := by simp
  have hbreak : "\r\n".toList.length = 2 := by simp
  unfold RequestWhole requestText
  simp only [List.length_append, hspace, hversion, hbreak, CLIENT_MAX_REQUEST_SIZE]
  omega

/-! ## 3. Every command -/

/-- A command is sent whole exactly when its fields are short enough for
the arrays of its operation. -/
theorem sent_whole_iff (cmd : ParsedCommand) : SentWhole cmd ↔ LengthsFit cmd := by
  have hnone : ((none : Option (List Char)).getD []).length < 1024 := by decide
  have hurl : ∀ url : List Char, (snprintf 512 url).length < 512 :=
    fun url => length_snprintf_lt url (by omega)
  have hstop : "/stop".toList.length = 5 := by decide
  have hremove : "/remove".toList.length = 7 := by decide
  unfold SentWhole LengthsFit
  cases cmd.type with
  | run =>
    have hsent : RequestWhole "POST" "/containers/create".toList
        (some (snprintf 1024 (commandBody cmd))) := by
      refine requestWhole_of_lt (by decide) (by simp) ?_
      rw [Option.getD_some]
      exact length_snprintf_lt _ (by omega)
    simp only [hsent, and_true, length_commandBody]
  | build =>
    have hsent : RequestWhole "POST" (snprintf 512 (commandUrl cmd)) none :=
      requestWhole_of_lt (by decide) (hurl _) hnone
    simp only [hsent, and_true, length_commandUrl]
  | stop =>
    have hsent : RequestWhole "POST"
        (snprintf 512 (containerUrl (cstr cmd.containerName) "/stop")) none :=
      requestWhole_of_lt (by decide) (hurl _) hnone
    simp only [hsent, and_true, length_containerUrl, hstop]
    omega
  | rm =>
    have hsent : RequestWhole "DELETE"
        (snprintf 512 (containerUrl (cstr cmd.containerName) "/remove")) none :=
      requestWhole_of_lt (by decide) (hurl _) hnone
    simp only [hsent, and_true, length_containerUrl, hremove]
    omega
  | _ => exact Iff.rfl

theorem nulFree_replicate_a (n : Nat) : NulFree (List.replicate n 'a') := by
  intro hmem
  have ha : nul = 'a' := List.eq_of_mem_replicate hmem
  exact absurd ha (by decide)

/-- A name of 500 characters. -/
def longName : Argument := ⟨List.replicate 500 'a', nulFree_replicate_a 500⟩

/-- The command line docker stop with this name. -/
def longStop : List Argument :=
  [program, ⟨"stop".toList, by decide⟩, longName]

/-- It is parsed and accepted, and its URL is cut. -/
theorem long_stop_cut : ∃ cmd, parseArguments ⟨true, true⟩ longStop = some cmd ∧
    validateCommand cmd = .ok () ∧ (cstr cmd.envVars).length < 512 ∧ ¬ SentWhole cmd := by
  have hoperand : operand (longStop.drop 2) = some longName := rfl
  have htype : takesOperand .stop = true := rfl
  refine ⟨containerCommand .stop longStop, rfl, ?_, ?_, ?_⟩
  · refine (validateCommand_containerCommand htype longStop).mpr (Or.inr ⟨longName, hoperand, ?_⟩)
    exact List.cons_ne_nil _ _
  · have henv : cstr (containerCommand .stop longStop).envVars = [] := by
      rw [containerCommand, parseContainerCommand_eq, hoperand]
      exact cstr_zeros _
    rw [henv]
    exact Nat.zero_lt_succ _
  · intro hwhole
    unfold SentWhole at hwhole
    rw [containerCommand_type] at hwhole
    have hname : (cstr (containerCommand .stop longStop).containerName).length = 500 := by
      have htext : longName.text.length = 500 := List.length_replicate
      rw [cstr_containerName, operandText, hoperand]
      show (longName.text.take 511).length = 500
      rw [List.length_take, htext]
      omega
    have hstop : "/stop".toList.length = 5 := by decide
    have hurl := hwhole.1
    rw [length_containerUrl, hname, hstop] at hurl
    omega

end DockerClone.Client
