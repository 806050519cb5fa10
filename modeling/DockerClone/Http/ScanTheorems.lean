/-
DockerClone.Http.ScanTheorems — what the two handlers scan out of a
request, and whether it fits.

None of the eight formats bounds what its `%[` conversion stores, so a
value fits its array only if the request makes it short. The values are
described here by cutting: a parameter of a URL is the text between the
first occurrence of its name and the next `&`, a field of a body is the
run behind the words that the body STARTS with, up to the next quote.
`scans_fit_iff` says that these eight lengths decide.
-/
import DockerClone.Http.StatusTheorems

namespace DockerClone.Http

open DockerClone.CLib DockerClone.Container

/-! ## 1. Values -/

/-- The text behind the first occurrence of a parameter's name, up to the
next `&`. -/
def parameterValue (url name : List Char) : List Char :=
  match strstr url name with
  | some t => (t.drop name.length).takeWhile (· != '&')
  | none => []

/-- The text behind the word a body starts with, up to the next quote. -/
def fieldValue (body word : List Char) : List Char :=
  if word <+: body then (body.drop word.length).takeWhile (· != '"') else []

section Values

theorem valueFits_iff {size : Nat} (hsize : 0 < size) {w : List Char} (hw : Plain w)
    (stop : Char) (more t : List Char) :
    (∀ v, scannedText (w ++ t) (w ++ '%' :: '[' :: '^' :: stop :: ']' :: more) = some v →
      v.length < size) ↔ (t.takeWhile (· != stop)).length < size := by
  rw [scannedText_value hw]
  by_cases hnil : t.takeWhile (· != stop) = []
  · rw [if_pos hnil, hnil]
    simp [hsize]
  · rw [if_neg hnil]
    simp

/-- A parameter fits exactly when its value is short. -/
theorem parameterFits_iff (key format : String) (hkey : Plain key.toList)
    (hformat : format.toList = key.toList ++ ['%', '[', '^', '&', ']']) (url : List Char) :
    ParameterFits url key format ↔ (parameterValue url key.toList).length < 256 := by
  rw [ParameterFits, parameterValue]
  cases hfound : strstr url key.toList with
  | none => simp
  | some t =>
    obtain ⟨rest, rfl⟩ := prefix_of_strstr hfound
    simp only [hformat, List.drop_left]
    rw [← valueFits_iff (by omega) hkey '&' [] rest]
    constructor
    · intro h
      exact h _ rfl
    · intro h t ht
      obtain rfl := Option.some.inj ht
      exact h

/-- So does a field; the test for its key adds nothing, because the key
is where the word starts. -/
theorem fieldFits_iff (size : Nat) (hsize : 0 < size) (key word format : String)
    (hword : Plain word.toList) (hkey : key.toList <+: word.toList)
    (hformat : format.toList = word.toList ++ ['%', '[', '^', '"', ']', '"'])
    (body : List Char) :
    FieldFits size body key format ↔ (fieldValue body word.toList).length < size := by
  rw [FieldFits, fieldValue, hformat]
  by_cases hstart : word.toList <+: body
  · have hfound : found body key.toList = true :=
      (found_iff _ _).mpr (hkey.trans hstart).isInfix
    obtain ⟨rest, rfl⟩ := hstart
    rw [if_pos (List.prefix_append _ _), List.drop_left,
      ← valueFits_iff hsize hword '"' ['"'] rest]
    exact ⟨fun h => h hfound, fun h _ => h⟩
  · rw [if_neg hstart, scannedText_of_not_pre hword '"' ['"'] hstart]
    simp [hsize]

end Values

/-- A parameter that fits is stored. -/
theorem scanParameter_value (key format : String) (hkey : Plain key.toList)
    (hformat : format.toList = key.toList ++ ['%', '[', '^', '&', ']']) {url : List Char}
    (hnul : NulFree url) (hshort : (parameterValue url key.toList).length < 256) :
    ∃ array, scanParameter url key format = some array ∧
      cstr array = parameterValue url key.toList := by
  rw [scanParameter, parameterValue] at *
  cases hfound : strstr url key.toList with
  | none => exact ⟨_, rfl, cstr_zeros 256⟩
  | some t =>
    have hsub : t ⊆ url := (suffix_of_strstr hfound).subset
    obtain ⟨rest, rfl⟩ := prefix_of_strstr hfound
    have hvalue : NulFree (rest.takeWhile (· != '&')) := by
      refine hnul.of_subset fun c hc => hsub ?_
      exact List.mem_append_right _ ((List.takeWhile_prefix _).subset hc)
    simp only [hfound, hformat, List.drop_left, scanWithin, scannedText_value hkey] at hshort ⊢
    by_cases hnil : rest.takeWhile (· != '&') = []
    · rw [if_pos hnil, hnil]
      exact ⟨_, rfl, cstr_zeros 256⟩
    · simp only [if_neg hnil, if_pos hshort]
      exact ⟨_, rfl, cstr_store hvalue _⟩

/-! ## 2. The two handlers -/

section Handlers

variable {σ : Type} (backend : Backend σ) (request : HttpRequest) (response : HttpResponse)
  (s : σ)

@[simp] theorem isSome_unlogged {β : Type} (outcome : Option (Int × β × σ × List StoreCall)) :
    (unlogged outcome).isSome = outcome.isSome := by
  cases outcome <;> rfl

/-- A build stays within its arrays exactly when both parameters fit. -/
theorem handleImageBuild_isSome_iff :
    (handleImageBuild backend request response s).isSome = true ↔
      CopiesFit backend request s .build := by
  rw [← recorded_handleImageBuild backend request response (s, []), isSome_unlogged]
  constructor
  · intro h
    obtain ⟨o, ho⟩ := Option.isSome_iff_exists.mp h
    exact copiesFit_of_build backend request response s [] ho
  · intro h
    obtain ⟨status, message, body, s', calls, ho, -⟩ :=
      handleImageBuild_settled backend request response s [] h
    rw [ho]
    rfl

theorem handleContainerCreate_isSome_iff :
    (handleContainerCreate backend request response s).isSome = true ↔
      CopiesFit backend request s .create := by
  rw [← recorded_handleContainerCreate backend request response (s, []), isSome_unlogged]
  constructor
  · intro h
    obtain ⟨o, ho⟩ := Option.isSome_iff_exists.mp h
    exact copiesFit_of_create backend request response s [] ho
  · intro h
    obtain ⟨status, message, body, s', calls, ho, -⟩ :=
      handleContainerCreate_settled backend request response s [] h
    rw [ho]
    rfl

end Handlers

/-! ## 3. Every request -/

/-- Neither handler writes past an array, whatever the store does. -/
def ScansFit (request : HttpRequest) : Prop :=
  ∀ {σ : Type} (backend : Backend σ) (response : HttpResponse) (s : σ),
    (handleImageBuild backend request response s).isSome = true ∧
    (handleContainerCreate backend request response s).isSome = true

/-- The values of a URL are short. -/
structure ParametersShort (url : List Char) : Prop where
  imageName : (parameterValue url "t=".toList).length < 256
  dockerfilePath : (parameterValue url "dockerfile=".toList).length < 256

/-- The values of a body are short. -/
structure FieldsShort (body : List Char) : Prop where
  imageName : (fieldValue body "\"Image\":\"".toList).length < 256
  command : (fieldValue body "\"Cmd\":[\"".toList).length < 512
  workingDir : (fieldValue body "\"WorkingDir\":\"".toList).length < 256
  envVars : (fieldValue body "\"Env\":[\"".toList).length < 512
  portMappings : (fieldValue body "\"PortBindings\":\"".toList).length < 256
  volumeMappings : (fieldValue body "\"Binds\":[\"".toList).length < 256

section Requests

variable {σ : Type} (backend : Backend σ) (request : HttpRequest) (s : σ)

theorem copiesFit_build_iff :
    CopiesFit backend request s .build ↔ ParametersShort (cstr request.url) := by
  have hname := parameterFits_iff "t=" "t=%[^&]" (by decide) (by decide) (cstr request.url)
  have hpath := parameterFits_iff "dockerfile=" "dockerfile=%[^&]" (by decide) (by decide)
    (cstr request.url)
  rw [CopiesFit, hname, hpath]
  exact ⟨fun h => ⟨h.1, h.2⟩, fun h => ⟨h.imageName, h.dockerfilePath⟩⟩

/-- The calls that build an image. -/
def buildCalls (path name contextPath : List Char) : List StoreCall :=
  match backend.parseDockerfile path s with
  | (none, _) => [.parseDockerfile path false]
  | (some dockerfile, s) =>
      [.parseDockerfile path true, .buildImageFromDockerfile name "latest".toList contextPath
        (backend.buildImageFromDockerfile dockerfile name "latest".toList contextPath s).1]

/-- What a build does with short values: nothing without a name, and
otherwise these calls, in the directory the daemon runs in. -/
theorem handleImageBuild_calls (response : HttpResponse)
    (h : ParametersShort (cstr request.url)) :
    ∃ answer s', handleImageBuild (recorded backend) request response (s, [])
      = some (0, answer, s',
          if parameterValue (cstr request.url) "t=".toList = [] then []
          else buildCalls backend s
            (if parameterValue (cstr request.url) "dockerfile=".toList = [] then
              "Dockerfile".toList
            else parameterValue (cstr request.url) "dockerfile=".toList)
            (parameterValue (cstr request.url) "t=".toList) ".".toList) := by
  obtain ⟨imageName, hname, hnameText⟩ := scanParameter_value "t=" "t=%[^&]" (by decide)
    (by decide) (nulFree_cstr request.url) h.imageName
  obtain ⟨dockerfilePath, hpath, hpathText⟩ := scanParameter_value "dockerfile="
    "dockerfile=%[^&]" (by decide) (by decide) (nulFree_cstr request.url) h.dockerfilePath
  have hcontext : cstr (strcpy (zeros 256) ".".toList) = ".".toList := cstr_store (by decide) _
  have hdefault : cstr (strcpy dockerfilePath "Dockerfile".toList) = "Dockerfile".toList :=
    cstr_store (by decide) _
  rw [handleImageBuild, hname, hpath, ← hnameText, ← hpathText]
  simp only [Option.bind_eq_bind, Option.bind_some, List.length_eq_zero_iff, hcontext,
    apply_ite cstr, hdefault]
  split
  · exact ⟨_, _, rfl⟩
  · generalize (if cstr dockerfilePath = [] then "Dockerfile".toList
      else cstr dockerfilePath) = path
    rw [recorded_parseDockerfile, buildCalls]
    cases hparse : backend.parseDockerfile path s with
    | mk parsed s' =>
      cases parsed with
      | none => exact ⟨_, _, rfl⟩
      | some dockerfile =>
        exact replied_result response 200 "OK" _ _ _
          (backend.buildImageFromDockerfile dockerfile (cstr imageName) "latest".toList
            ".".toList s')

theorem copiesFit_create_iff :
    CopiesFit backend request s .create ↔ FieldsShort (cstr request.body) := by
  have h256 : 0 < 256 := by omega
  have h512 : 0 < 512 := by omega
  have himage := fieldFits_iff 256 h256 "\"Image\"" "\"Image\":\"" "\"Image\":\"%[^\"]\""
    (by decide) (by decide) (by decide) (cstr request.body)
  have hcommand := fieldFits_iff 512 h512 "\"Cmd\"" "\"Cmd\":[\"" "\"Cmd\":[\"%[^\"]\""
    (by decide) (by decide) (by decide) (cstr request.body)
  have hdir := fieldFits_iff 256 h256 "\"WorkingDir\"" "\"WorkingDir\":\""
    "\"WorkingDir\":\"%[^\"]\"" (by decide) (by decide) (by decide) (cstr request.body)
  have henv := fieldFits_iff 512 h512 "\"Env\"" "\"Env\":[\"" "\"Env\":[\"%[^\"]\""
    (by decide) (by decide) (by decide) (cstr request.body)
  have hports := fieldFits_iff 256 h256 "\"PortBindings\"" "\"PortBindings\":\""
    "\"PortBindings\":\"%[^\"]\"" (by decide) (by decide) (by decide) (cstr request.body)
  have hvolumes := fieldFits_iff 256 h256 "\"Binds\"" "\"Binds\":[\"" "\"Binds\":[\"%[^\"]\""
    (by decide) (by decide) (by decide) (cstr request.body)
  rw [CopiesFit, himage, hcommand, hdir, henv, hports, hvolumes]
  constructor
  · rintro ⟨h₁, h₂, h₃, h₄, h₅, h₆⟩
    exact ⟨h₁, h₂, h₃, h₄, h₅, h₆⟩
  · intro h
    exact ⟨h.imageName, h.command, h.workingDir, h.envVars, h.portMappings, h.volumeMappings⟩

/-- What the two handlers scan fits exactly when the eight values of the
request are short. -/
theorem scans_fit_iff : ScansFit request ↔
    ParametersShort (cstr request.url) ∧ FieldsShort (cstr request.body) := by
  constructor
  · intro h
    obtain ⟨hbuild, hcreate⟩ := h willingBackend emptyResponse ()
    exact ⟨(copiesFit_build_iff _ _ _).mp ((handleImageBuild_isSome_iff _ _ _ _).mp hbuild),
      (copiesFit_create_iff _ _ _).mp ((handleContainerCreate_isSome_iff _ _ _ _).mp hcreate)⟩
  · rintro ⟨hparameters, hfields⟩ σ backend response s
    exact ⟨(handleImageBuild_isSome_iff _ _ _ _).mpr ((copiesFit_build_iff _ _ _).mpr hparameters),
      (handleContainerCreate_isSome_iff _ _ _ _).mpr ((copiesFit_create_iff _ _ _).mpr hfields)⟩

end Requests

/-- The request of `long_build_overruns` is within the declared sizes of
URL and body, and its image name is not within its array. -/
theorem long_name_does_not_fit : (cstr longBuildRequest.url).length ≤ 511 ∧
    (cstr longBuildRequest.body).length ≤ 8191 ∧ ¬ ScansFit longBuildRequest := by
  have hname : NulFree ("/images/build?t=".toList ++ List.replicate 256 'a') := by
    rw [nulFree_append]
    exact ⟨by decide, fun hmem => absurd (List.eq_of_mem_replicate hmem) (by decide)⟩
  have hurl : cstr longBuildRequest.url
      = "/images/build?t=".toList ++ List.replicate 256 'a' := cstr_store hname _
  have hbody : cstr longBuildRequest.body = [] := cstr_zeros _
  have hfront : "/images/build?t=".toList.length = 16 := by decide
  have hsize : (cstr longBuildRequest.url).length ≤ 511 := by
    rw [hurl, List.length_append, hfront, List.length_replicate]
    omega
  refine ⟨hsize, by rw [hbody]; exact Nat.zero_le _, fun h => ?_⟩
  have hbuild := (h willingBackend emptyResponse ()).1
  have hshort := (copiesFit_build_iff _ _ _).mp ((handleImageBuild_isSome_iff _ _ _ _).mp hbuild)
  have hfirst : strstr ("/images/build?".toList ++ "t=".toList ++ List.replicate 256 'a') "t=".toList
      = some ("t=".toList ++ List.replicate 256 'a') :=
    strstr_of_first (by decide) (by decide) _
  have hvalue : parameterValue (cstr longBuildRequest.url) "t=".toList
      = List.replicate 256 'a' := by
    have hcut : "/images/build?t=".toList = "/images/build?".toList ++ "t=".toList := by decide
    rw [parameterValue, hurl, hcut, hfirst]
    simp only [List.drop_left]
    exact List.takeWhile_eq_self_iff.mpr fun c hc => by rw [List.eq_of_mem_replicate hc]; decide
  have hlen := hshort.imageName
  rw [hvalue, List.length_replicate] at hlen
  exact absurd hlen (by decide)

end DockerClone.Http
