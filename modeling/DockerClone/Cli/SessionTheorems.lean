/-
DockerClone.Cli.SessionTheorems — what typing commands can make the
daemon do.

For all operations of the client but three the front of the URL already
decides that the router finds no handler, or one that refuses an empty
body. `Effect` lists what is left: the image list, the removal of the
image with the empty name, because `rmi` puts its operand into another
field, and a build whose arguments hold a slash, because the build's own
URL is not one the router knows. A call that comes to nothing has one of
two causes: the daemon could not read the request, or the URL that
arrived is one it refuses.
-/
import DockerClone.Cli.OperandTheorems
import DockerClone.Cli.Session
import DockerClone.Client.FrontTheorems

namespace DockerClone.Cli

open DockerClone.CLib DockerClone.Http DockerClone.Client

/-! ## 1. Effects -/

/-- A request, as far as a call decides it: the method, the front of the
URL and what is put behind it. -/
structure Asked where
  method : List Char
  front : List Char
  rest : List Char

/-- What a call sends; nothing if it only prints. A URL is cut to 511
characters. -/
def Call.asks : Call → Option Asked
  | .run .. => some ⟨"POST".toList, "/containers/create".toList, []⟩
  | .build image dockerfile _ =>
      some ⟨"POST".toList, "/build?t=".toList,
        (image ++ "&dockerfile=".toList ++ dockerfile).take 502⟩
  | .images => some ⟨"GET".toList, "/images/json".toList, []⟩
  | .containers => some ⟨"GET".toList, "/containers/json".toList, []⟩
  | .stop id => some ⟨"POST".toList, "/containers/".toList, (id ++ "/stop".toList).take 499⟩
  | .rm id => some ⟨"DELETE".toList, "/containers/".toList, (id ++ "/remove".toList).take 499⟩
  | .rmi image => some ⟨"DELETE".toList, "/images/".toList, image.take 503⟩
  | .logs .. | .exec .. | .commit .. => none

/-- The exit status of a call and what it asked of the store. `copied`
says whether the daemon's `strdup` returned a copy. -/
inductive Effect (copied : Bool) : Call → Int → List StoreCall → Prop where
  | printed {call : Call} (alone : call.asks = none) : Effect copied call EXIT_SUCCESS []
  /-- The daemon does not get to the request: it could not copy it, or an
  argument ended its first line. -/
  | unread {call : Call} {asked : Asked} (sent : call.asks = some asked)
      (cause : copied = false ∨ ∃ c ∈ asked.rest, EndsLine c) : Effect copied call EXIT_FAILURE []
  /-- The URL that arrived leads to no call. -/
  | refused {call : Call} {asked : Asked} {url : List Char} {status : Int32}
      (sent : call.asks = some asked) (arrived : Arrives asked.front asked.rest url)
      (answered : RequestCalls asked.method url [] status) : Effect copied call EXIT_FAILURE []
  | images (listed : Bool) :
      Effect copied .images (if listed then EXIT_SUCCESS else EXIT_FAILURE) [.listImages listed]
  | rmi (result : Int) :
      Effect copied (.rmi []) (if result = 0 then EXIT_SUCCESS else EXIT_FAILURE)
        [.removeImage [] result]
  | parse {image dockerfile context url path name : List Char}
      (arrived : Arrives "/build?t=".toList
        ((image ++ "&dockerfile=".toList ++ dockerfile).take 502) url)
      (asked : BuildAsks url name path) (slash : '/' ∈ image ∨ '/' ∈ dockerfile)
      (named : name ≠ []) :
      Effect copied (.build image dockerfile context) EXIT_FAILURE [.parseDockerfile path false]
  | build {image dockerfile context url path name : List Char} (result : Int)
      (arrived : Arrives "/build?t=".toList
        ((image ++ "&dockerfile=".toList ++ dockerfile).take 502) url)
      (asked : BuildAsks url name path) (slash : '/' ∈ image ∨ '/' ∈ dockerfile)
      (named : name ≠ []) :
      Effect copied (.build image dockerfile context)
        (if result = 0 then EXIT_SUCCESS else EXIT_FAILURE)
        [.parseDockerfile path true,
          .buildImageFromDockerfile name "latest".toList ".".toList result]

/-- What running a command line led to; a run that called no operation
asked for nothing, and its status is the one `main` gives it. -/
structure CommandLine.Led (line : CommandLine) (o : Outcome) (calls : List StoreCall) : Prop where
  inside : line.inside = true
  called : o.called = (main (line.mainEnv 0) line.argv).called
  none : o.called = none → o = main (line.mainEnv 0) line.argv ∧ calls = []
  some : ∀ call, o.called = some call → Effect line.daemon.copied call o.status calls

/-! ## 2. Fronts -/

/-- Refused, without a call. -/
def Refused (calls : List StoreCall) (status : Int32) : Prop :=
  calls = [] ∧ (status = 400 ∨ status = 404)

section Routes

variable {url : List Char} {calls : List StoreCall} {status : Int32}

theorem refused_of_no_route {method : List Char} (hroute : route method url = none)
    (h : RequestCalls method url calls status) : Refused calls status := by
  rw [RequestCalls, hroute] at h
  exact ⟨h.1, Or.inr h.2⟩

theorem refused_of_create {method : List Char} (hroute : route method url = some .create)
    (h : RequestCalls method url calls status) : Refused calls status := by
  rw [RequestCalls, hroute] at h
  cases h
  exact ⟨rfl, Or.inl rfl⟩

/-- Behind a container URL a POST and a DELETE come to nothing. -/
theorem refused_of_containers {method : List Char}
    (hmethod : method = "POST".toList ∨ method = "DELETE".toList)
    (hfound : found url "/containers".toList = true)
    (h : RequestCalls method url calls status) : Refused calls status := by
  have hroute : route method url = none ∨ route method url = some .create := by
    unfold route
    rw [if_pos hfound]
    rcases hmethod with rfl | rfl
    · rw [if_neg (by decide), if_pos rfl]
      split
      · exact Or.inr rfl
      · exact Or.inl rfl
    · rw [if_neg (by decide), if_neg (by decide)]
      exact Or.inl rfl
  rcases hroute with hroute | hroute
  · exact refused_of_no_route hroute h
  · exact refused_of_create hroute h

/-- A POST that does anything is a build, on a URL with the images'
path in it. -/
theorem post_cases (h : RequestCalls "POST".toList url calls status) :
    Refused calls status ∨
      (found url "/images".toList = true ∧ RouteCalls url .build calls status) := by
  by_cases hcontainers : found url "/containers".toList = true
  · exact Or.inl (refused_of_containers (Or.inl rfl) hcontainers h)
  · by_cases himages : found url "/images".toList = true
    · have hroute : route "POST".toList url
          = if found url "/build".toList then some .build else none := by
        unfold route
        rw [if_neg hcontainers, if_pos himages, if_neg (by decide), if_pos rfl]
      by_cases hbuild : found url "/build".toList = true
      · rw [if_pos hbuild] at hroute
        rw [RequestCalls, hroute] at h
        exact Or.inr ⟨himages, h⟩
      · rw [if_neg hbuild] at hroute
        exact Or.inl (refused_of_no_route hroute h)
    · refine Or.inl (refused_of_no_route ?_ h)
      unfold route
      rw [if_neg hcontainers, if_neg himages]

theorem found_of_arrives {front rest needle : List Char} (h : Arrives front rest url)
    (hneedle : needle <+: front) : found url needle = true := by
  obtain ⟨v, tail, rfl, -, -⟩ := h.split
  rw [found_iff, List.append_assoc]
  exact (hneedle.trans (List.prefix_append _ _)).isInfix

/-- The images' path can only be found in a build URL where an argument
brought its slash. -/
theorem slash_of_found {rest : List Char} (h : Arrives "/build?t=".toList rest url)
    (hfound : found url "/images".toList = true) : '/' ∈ rest := by
  obtain ⟨v, tail, rfl, hv, htail⟩ := h.split
  by_contra hrest
  have hslash : '/' ∉ "build?t=".toList ++ v := by
    rw [List.mem_append, not_or]
    exact ⟨by decide, fun hmem => hrest (hv.subset hmem)⟩
  have hneedle : "/images".toList = '/' :: "images".toList := by decide
  have hurl : "/build?t=".toList ++ v ++ tail = '/' :: (("build?t=".toList ++ v) ++ tail) := by
    have hfront : "/build?t=".toList = '/' :: "build?t=".toList := by decide
    rw [hfront]
    simp
  rw [found_iff, hneedle, hurl, List.infix_cons_iff] at hfound
  rcases hfound with hpre | hin
  · -- the URL's own slash is followed by another letter
    have hletter := (List.cons_prefix_cons.mp hpre).2
    obtain ⟨t, ht⟩ := hletter
    exact absurd (List.cons.inj ht).1 (by decide)
  · -- behind the arguments there is room for one character
    rw [infix_append_of_not_mem hslash] at hin
    have hroom := hin.length_le
    have hlen : "images".toList.length = 6 := by decide
    rw [List.length_cons, hlen] at hroom
    omega

end Routes

/-! ## 3. One call -/

/-- A front that fits is not cut. -/
theorem snprintf_front (front rest : List Char) (h : front.length ≤ 511) :
    snprintf 512 (front ++ rest) = front ++ rest.take (511 - front.length) ∧
      (front ++ rest.take (511 - front.length)).length < MAX_URL_SIZE := by
  have hcut : snprintf 512 (front ++ rest) = front ++ rest.take (511 - front.length) := by
    rw [snprintf, List.take_append, List.take_of_length_le (by omega)]
  refine ⟨hcut, ?_⟩
  rw [← hcut]
  exact length_snprintf_lt _ (by omega)

section Calls

variable {σ : Type} {backend : Backend σ} {env : ClientEnv} {statusJunk : Int32} {s : σ}
  {log : List StoreCall} {returned : Int} {after : σ × List StoreCall}

/-- The exit status `main` makes of a return value. -/
def exitStatus (returned : Int) : Int := if returned = 0 then EXIT_SUCCESS else EXIT_FAILURE

theorem exitStatus_refused {calls : List StoreCall} {status expected : Int32}
    (h : Refused calls status) (hexpected : expected = 200 ∨ expected = 201 ∨ expected = 204) :
    exitStatus (if status = expected then 0 else -1) = EXIT_FAILURE := by
  have hne : status ≠ expected := by
    rcases h.2 with rfl | rfl <;> rcases hexpected with rfl | rfl | rfl <;> decide
  rw [if_neg hne]
  decide

/-- The answer to an operation, as an exit status. -/
theorem exitStatus_answered {c : Prop} [Decidable c] :
    exitStatus (if (if c then (200 : Int32) else 500) = 200 then 0 else -1)
      = if c then EXIT_SUCCESS else EXIT_FAILURE := by
  by_cases hc : c
  · simp only [if_pos hc]
    decide
  · simp only [if_neg hc]
    decide

/-- A round trip whose front leads nowhere. -/
theorem effect_of_refused {call : Call} {method : String} {front rest : List Char}
    (hasks : call.asks = some ⟨method.toList, front, rest⟩) {body : Option (List Char)}
    {expected : Int32} (hm : IsWord method.toList) (hshort : method.toList.length ≤ 6)
    (hfront : IsWord front) (hurl : (front ++ rest).length < MAX_URL_SIZE)
    (hbody : (body.getD []).length < 1024)
    (hexpected : expected = 200 ∨ expected = 201 ∨ expected = 204)
    (hrefused : ∀ url calls status, Arrives front rest url →
      RequestCalls method.toList url calls status → Refused calls status)
    (h : roundTrip (daemonLink (recorded backend) env) statusJunk method (front ++ rest) body
      expected (s, log) = some (returned, after)) :
    ∃ calls, after.2 = log ++ calls ∧ Effect env.copied call (exitStatus returned) calls := by
  obtain ⟨calls, status, hlog, rfl, hcalls⟩ := roundTrip_led hm hshort hfront hurl hbody h
  refine ⟨calls, hlog, ?_⟩
  rcases hcalls with ⟨rfl, rfl, hcause⟩ | ⟨url, harrives, hrequest⟩
  · have hnothing : Refused [] 400 := ⟨rfl, Or.inl rfl⟩
    rw [exitStatus_refused hnothing hexpected]
    exact .unread hasks hcause
  · have hnothing := hrefused url calls status harrives hrequest
    rw [exitStatus_refused hnothing hexpected]
    obtain rfl := hnothing.1
    exact .refused hasks harrives hrequest

theorem effect_run {image command name workingDir envVars portMapping volumeMapping : List Char}
    {interactive tty detach : Int32}
    (h : dockerRun (daemonLink (recorded backend) env) statusJunk (some image) (some command)
      (some name) (some workingDir) (some envVars) (some portMapping) (some volumeMapping)
      interactive tty detach (s, log) = some (returned, after)) :
    ∃ calls, after.2 = log ++ calls ∧ Effect env.copied (.run image command name workingDir envVars
      portMapping volumeMapping interactive tty detach) (exitStatus returned) calls := by
  have hurl : "/containers/create".toList = "/containers/create".toList ++ [] := by decide
  rw [dockerRun, hurl] at h
  refine effect_of_refused rfl (by decide) (by decide) (by decide) (by decide)
    (length_snprintf_lt _ (by omega)) (Or.inr (Or.inl rfl)) (fun url calls status harrives => ?_) h
  exact refused_of_containers (Or.inl rfl) (found_of_arrives harrives (by decide))

theorem effect_containers
    (h : dockerContainers (daemonLink (recorded backend) env) statusJunk (s, log)
      = some (returned, after)) :
    ∃ calls, after.2 = log ++ calls ∧
      Effect env.copied .containers (exitStatus returned) calls := by
  have hurl : "/containers/json".toList = "/containers/json".toList ++ [] := by decide
  rw [dockerContainers, hurl] at h
  refine effect_of_refused rfl (by decide) (by decide) (by decide) (by decide) (by decide)
    (Or.inl rfl) (fun url calls status harrives hrequest => ?_) h
  obtain rfl := harrives.whole rfl (by decide)
  exact refused_of_no_route (by decide) hrequest

/-- The two operations with an id in the middle of their URL. -/
theorem effect_container {call : Call} {method : String}
    (hmethod : method = "POST" ∨ method = "DELETE") {id : List Char} {action : String}
    (hasks : call.asks = some ⟨method.toList, "/containers/".toList,
      (id ++ action.toList).take 499⟩)
    (h : roundTrip (daemonLink (recorded backend) env) statusJunk method
      (snprintf 512 (containerUrl id action)) none 204 (s, log) = some (returned, after)) :
    ∃ calls, after.2 = log ++ calls ∧ Effect env.copied call (exitStatus returned) calls := by
  have hfront : "/containers/".toList.length ≤ 511 := by decide
  have hroom : 511 - "/containers/".toList.length = 499 := by decide
  obtain ⟨hcut, hlen⟩ := snprintf_front _ (id ++ action.toList) hfront
  have hurl : containerUrl id action = "/containers/".toList ++ (id ++ action.toList) :=
    List.append_assoc _ _ _
  rw [hroom] at hcut hlen
  rw [hurl, hcut] at h
  have hword : IsWord method.toList ∧ method.toList.length ≤ 6 := by
    rcases hmethod with rfl | rfl <;> decide
  refine effect_of_refused hasks hword.1 hword.2 (by decide) hlen (by decide)
    (Or.inr (Or.inr rfl)) (fun url calls status harrives => ?_) h
  refine refused_of_containers ?_ (found_of_arrives harrives (by decide))
  rcases hmethod with rfl | rfl
  · exact Or.inl rfl
  · exact Or.inr rfl

theorem effect_images
    (h : dockerImages (daemonLink (recorded backend) env) statusJunk (s, log)
      = some (returned, after)) :
    ∃ calls, after.2 = log ++ calls ∧ Effect env.copied .images (exitStatus returned) calls := by
  have hurl : "/images/json".toList = "/images/json".toList ++ [] := by decide
  rw [dockerImages, hurl] at h
  obtain ⟨calls, status, hlog, rfl, hcalls⟩ :=
    roundTrip_led (by decide) (by decide) (by decide) (by decide) (by decide) h
  refine ⟨calls, hlog, ?_⟩
  rcases hcalls with ⟨rfl, rfl, hcause⟩ | ⟨url, harrives, hrequest⟩
  · exact .unread rfl hcause
  · obtain rfl := harrives.whole rfl (by decide)
    have hroute : route "GET".toList "/images/json".toList = some .listImages := by decide
    rw [RequestCalls, hroute] at hrequest
    cases hrequest with
    | refused _ cause => exact absurd cause id
    | listImages listed =>
      rw [exitStatus_answered]
      exact .images listed

/-- The URL of a removal whose image has no name. -/
theorem effect_rmi
    (h : dockerRmi (daemonLink (recorded backend) env) statusJunk (some []) (s, log)
      = some (returned, after)) :
    ∃ calls, after.2 = log ++ calls ∧
      Effect env.copied (.rmi []) (exitStatus returned) calls := by
  have hurl : snprintf 512 (imageUrl []) = "/images/".toList ++ [] := by decide
  simp only [dockerRmi] at h
  rw [hurl] at h
  obtain ⟨calls, status, hlog, rfl, hcalls⟩ :=
    roundTrip_led (by decide) (by decide) (by decide) (by decide) (by decide) h
  refine ⟨calls, hlog, ?_⟩
  rcases hcalls with ⟨rfl, rfl, hcause⟩ | ⟨url, harrives, hrequest⟩
  · exact .unread rfl hcause
  · obtain rfl := harrives.whole rfl (by decide)
    have hroute : route "DELETE".toList "/images/".toList = some .removeImage := by decide
    have hname : extractImageNameFromUrl "/images/".toList = some [] := by decide
    rw [RequestCalls, hroute] at hrequest
    cases hrequest with
    | refused _ cause =>
      rw [RefusesUrl, hname] at cause
      simp at cause
    | removeImage name result named =>
      obtain rfl : [] = name := Option.some.inj (hname.symm.trans named)
      rw [exitStatus_answered]
      exact .rmi result

theorem effect_build {image dockerfile context : List Char}
    (h : dockerBuild (daemonLink (recorded backend) env) statusJunk (some image)
      (some dockerfile) (some context) (s, log) = some (returned, after)) :
    ∃ calls, after.2 = log ++ calls ∧
      Effect env.copied (.build image dockerfile context) (exitStatus returned) calls := by
  have hfront : "/build?t=".toList.length ≤ 511 := by decide
  have hroom : 511 - "/build?t=".toList.length = 502 := by decide
  obtain ⟨hcut, hlen⟩ := snprintf_front _ (image ++ "&dockerfile=".toList ++ dockerfile) hfront
  have hurl : buildUrl (some image) (some dockerfile)
      = "/build?t=".toList ++ (image ++ "&dockerfile=".toList ++ dockerfile) := by
    unfold buildUrl
    rw [Option.getD_some, Option.getD_some, List.append_assoc, List.append_assoc,
      List.append_assoc]
  rw [hroom] at hcut hlen
  rw [dockerBuild, hurl, hcut] at h
  obtain ⟨calls, status, hlog, rfl, hcalls⟩ :=
    roundTrip_led (by decide) (by decide) (by decide) hlen (by decide) h
  refine ⟨calls, hlog, ?_⟩
  rcases hcalls with ⟨rfl, rfl, hcause⟩ | ⟨url, harrives, hrequest⟩
  · exact .unread rfl hcause
  · rcases post_cases hrequest with hrefused | ⟨hfound, hbuild⟩
    · rw [exitStatus_refused hrefused (Or.inl rfl)]
      obtain rfl := hrefused.1
      exact .refused rfl harrives hrequest
    · have hslash : '/' ∈ image ∨ '/' ∈ dockerfile := by
        have hmem := (List.take_prefix _ _).subset (slash_of_found harrives hfound)
        rw [List.mem_append, List.mem_append] at hmem
        rcases hmem with (himage | hkey) | hpath
        · exact Or.inl himage
        · exact absurd hkey (by decide)
        · exact Or.inr hpath
      cases hbuild with
      | refused => exact .refused rfl harrives hrequest
      | parse path name asked named => exact .parse harrives asked hslash named
      | build path name result asked named =>
        rw [exitStatus_answered]
        exact .build result harrives asked hslash named

/-- What a call that `main` can make leads to. -/
theorem effect_of_perform {call : Call} (hrmi : ∀ image, call = .rmi image → image = [])
    (h : call.perform (daemonLink (recorded backend) env) statusJunk (s, log)
      = some (returned, after)) :
    ∃ calls, after.2 = log ++ calls ∧ Effect env.copied call (exitStatus returned) calls := by
  have hprints : call.asks = none → call.perform (daemonLink (recorded backend) env)
      statusJunk (s, log) = some (0, (s, log)) →
      ∃ calls, after.2 = log ++ calls ∧ Effect env.copied call (exitStatus returned) calls := by
    intro halone hzero
    obtain ⟨rfl, rfl⟩ := Prod.mk.inj (Option.some.inj (hzero.symm.trans h))
    exact ⟨[], (List.append_nil log).symm, .printed halone⟩
  cases call with
  | run => exact effect_run h
  | build => exact effect_build h
  | images => exact effect_images h
  | containers => exact effect_containers h
  | stop id => exact effect_container (Or.inl rfl) rfl h
  | rm id => exact effect_container (Or.inr rfl) rfl h
  | rmi image =>
    obtain rfl := hrmi image rfl
    exact effect_rmi h
  | logs id => exact hprints rfl rfl
  | exec id command => exact hprints rfl rfl
  | commit container image message => exact hprints rfl rfl

end Calls

section Bounded

variable {σ : Type} {backend : Backend σ} {env : ClientEnv} {statusJunk expected : Int32}
  {method : String} {url : List Char} {body : Option (List Char)} {s : σ}

/-- A request whose URL ends in its array. -/
theorem roundTrip_bounded (hurl : ¬ (env.copied = true ∧
      IsRequest (createHttpRequest method.toList url body) ∧
      ¬ UrlEnds env.request (createHttpRequest method.toList url body))) :
    roundTrip (boundedLink backend env) statusJunk method url body expected s
      = roundTrip (daemonLink backend env) statusJunk method url body expected s := by
  have hconnects : (boundedLink backend env).connects = (daemonLink backend env).connects := rfl
  rw [roundTrip, roundTrip, hconnects]
  simp only [boundedLink, if_neg hurl]

theorem roundTrip_of_bounded {result : Int × σ}
    (h : roundTrip (boundedLink backend env) statusJunk method url body expected s = some result) :
    roundTrip (daemonLink backend env) statusJunk method url body expected s = some result := by
  by_cases hurl : env.copied = true ∧ IsRequest (createHttpRequest method.toList url body) ∧
      ¬ UrlEnds env.request (createHttpRequest method.toList url body)
  · simp [roundTrip, boundedLink, hurl] at h
  · rw [← roundTrip_bounded hurl]
    exact h

end Bounded

theorem perform_of_bounded {σ : Type} {backend : Backend σ} {env : ClientEnv} {call : Call}
    {statusJunk : Int32} {s : σ} {result : Int × σ}
    (h : call.perform (boundedLink backend env) statusJunk s = some result) :
    call.perform (daemonLink backend env) statusJunk s = some result := by
  cases call with
  | run =>
    unfold Call.perform dockerRun at h ⊢
    exact roundTrip_of_bounded h
  | build =>
    unfold Call.perform dockerBuild at h ⊢
    exact roundTrip_of_bounded h
  | images =>
    unfold Call.perform dockerImages at h ⊢
    exact roundTrip_of_bounded h
  | containers =>
    unfold Call.perform dockerContainers at h ⊢
    exact roundTrip_of_bounded h
  | stop =>
    unfold Call.perform dockerStop at h ⊢
    exact roundTrip_of_bounded h
  | rm =>
    unfold Call.perform dockerRm at h ⊢
    exact roundTrip_of_bounded h
  | rmi =>
    unfold Call.perform dockerRmi at h ⊢
    exact roundTrip_of_bounded h
  | logs | exec | commit => exact h

/-! ## 4. Command lines -/

section Lines

variable {line : CommandLine} {call : Call}

/-- What the operation returns decides the exit status and nothing
else. -/
theorem main_called_status (h : (main (line.mainEnv 0) line.argv).called = some call)
    (returned : Int) : main (line.mainEnv returned) line.argv
      = { called := some call, status := exitStatus returned } := by
  unfold main CommandLine.mainEnv at h ⊢
  dsimp only at h ⊢
  cases hparse : parseArguments line.parser line.argv with
  | none =>
    rw [hparse] at h
    simp at h
  | some cmd =>
    rw [hparse] at h
    cases hvalid : validateCommand cmd with
    | error text => simp [hvalid] at h
    | ok _ =>
      by_cases hdaemon : cmd.type = .daemon
      · simp [hvalid, hdaemon] at h
      · cases hoperation : operationOf cmd with
        | none => simp [hvalid, hdaemon, hoperation] at h
        | some call' =>
          simp only [hvalid, if_neg hdaemon, hoperation] at h ⊢
          obtain rfl := Option.some.inj h
          rfl

theorem type_of_rmi {cmd : ParsedCommand} {image : List Char}
    (h : operationOf cmd = some (.rmi image)) : cmd.type = .rmi ∧ image = cstr cmd.imageName := by
  rw [operationOf] at h
  split at h <;> simp at h
  rename_i htype
  exact ⟨htype, h.symm⟩

/-- `rmi` is called for an image without a name. -/
theorem image_of_rmi {env : MainEnv} {argv : List Argument} {image : List Char}
    (h : (main env argv).called = some (.rmi image)) : image = [] := by
  match argv with
  | [] | [_] => simp [main, parseArguments] at h
  | program :: word :: words =>
    by_cases halloc : env.parser.Allocates
    · cases hparse : parseArguments env.parser (program :: word :: words) with
      | none => simp [main, hparse] at h
      | some cmd =>
        cases hvalid : validateCommand cmd with
        | error text => simp [main, hparse, hvalid] at h
        | ok _ =>
          by_cases hdaemon : cmd.type = .daemon
          · simp only [main, hparse, hvalid, if_pos hdaemon] at h
            split_ifs at h
          · rw [main_called hparse hdaemon hvalid] at h
            split_ifs at h
            obtain ⟨htype, rfl⟩ := type_of_rmi h
            have hword : getCommandType word = .rmi := (parseArguments_type hparse).symm.trans htype
            rw [parseArguments_operand halloc (by rw [hword]; rfl)] at hparse
            obtain rfl := Option.some.inj hparse
            exact cstr_imageName _ _
    · simp [main, parseArguments_fails halloc] at h

end Lines

section Session

variable {σ : Type} {backend : Backend σ}

theorem led_of_run {line : CommandLine} {s : σ} {log : List StoreCall} {o : Outcome}
    {after : σ × List StoreCall} (h : line.run (recorded backend) (s, log) = some (o, after)) :
    ∃ calls, after.2 = log ++ calls ∧ line.Led o calls := by
  rw [CommandLine.run] at h
  have hinside : line.inside = true := by
    by_contra hleft
    rw [if_pos (Bool.eq_false_iff.mpr hleft)] at h
    simp at h
  rw [if_neg (by simp [hinside])] at h
  cases hcalled : (main (line.mainEnv 0) line.argv).called with
  | none =>
    rw [hcalled] at h
    obtain ⟨rfl, rfl⟩ := Prod.mk.inj (Option.some.inj h)
    refine ⟨[], (List.append_nil log).symm, hinside, rfl, fun _ => ⟨rfl, rfl⟩, fun call hcall => ?_⟩
    rw [hcalled] at hcall
    simp at hcall
  | some call =>
    rw [hcalled] at h
    simp only [Option.bind_eq_bind, Option.bind_eq_some_iff] at h
    obtain ⟨⟨returned, after'⟩, hperform, h⟩ := h
    obtain ⟨rfl, rfl⟩ := Prod.mk.inj (Option.some.inj h)
    obtain ⟨calls, hlog, heffect⟩ := effect_of_perform
      (fun image hrmi => image_of_rmi (hrmi ▸ hcalled)) (perform_of_bounded hperform)
    rw [main_called_status hcalled]
    refine ⟨calls, hlog, hinside, hcalled.symm, fun hnone => by simp at hnone, fun call' hcall => ?_⟩
    obtain rfl := Option.some.inj hcall
    exact heffect

theorem led_of_session {lines : List CommandLine} : ∀ {p after : σ × List StoreCall}
    {outcomes : List Outcome}, runSession (recorded backend) lines p = some (outcomes, after) →
    ∃ calls : List (List StoreCall), after.2 = p.2 ++ calls.flatten ∧
      List.Forall₂ (fun x now => x.1.Led x.2 now) (lines.zip outcomes) calls := by
  induction lines with
  | nil =>
    intro p after outcomes h
    obtain ⟨rfl, rfl⟩ := Prod.mk.inj (Option.some.inj h)
    exact ⟨[], by simp, .nil⟩
  | cons line lines ih =>
    intro p after outcomes h
    simp only [runSession, Option.bind_eq_bind, Option.bind_eq_some_iff] at h
    obtain ⟨first, hfirst, rest, hrest, h⟩ := h
    obtain ⟨rfl, rfl⟩ := Prod.mk.inj (Option.some.inj h)
    obtain ⟨now, hnow, hled⟩ := led_of_run hfirst
    obtain ⟨later, hlater, hall⟩ := ih hrest
    refine ⟨now :: later, ?_, .cons hled hall⟩
    rw [hlater, hnow, List.flatten_cons, List.append_assoc]

/-- Whatever command lines are typed one after another: each run leads to
what its operation can lead to, and its exit status tells of it. -/
theorem typed_session_effects {lines : List CommandLine} {s₀ : σ} {outcomes : List Outcome}
    {after : σ × List StoreCall}
    (h : runSession (recorded backend) lines (s₀, []) = some (outcomes, after)) :
    ∃ calls : List (List StoreCall), after.2 = calls.flatten ∧
      List.Forall₂ (fun x now => x.1.Led x.2 now) (lines.zip outcomes) calls := by
  obtain ⟨calls, hlog, hall⟩ := led_of_session h
  exact ⟨calls, by simpa using hlog, hall⟩

end Session

theorem nulFree_docker : NulFree "docker".toList := by decide

theorem nulFree_images : NulFree "images".toList := by decide

/-- The command line `docker images`. -/
def imagesLine : CommandLine where
  argv := [⟨"docker".toList, nulFree_docker⟩, ⟨"images".toList, nulFree_images⟩]
  parser := ⟨true, true⟩
  statusJunk := 0
  daemon := zeroedDaemon

theorem imagesLine_run : imagesLine.run (recorded willingBackend) ((), [])
    = some (⟨some .images, EXIT_SUCCESS⟩, ((), [.listImages true])) := by
  have hinside : ¬ imagesLine.inside = false := by decide
  have hcalled : (main (imagesLine.mainEnv 0) imagesLine.argv).called = some .images := by decide
  have hanswer : Answered zeroedDaemon.response 200 ((), [.listImages true])
      (handleApiRequest (recorded willingBackend) (ClientOp.images.arrived zeroedDaemon)
        zeroedDaemon.response ((), [])) := by
    rw [handleApiRequest_images]
    exact handleImageList_answered (recorded willingBackend) rfl (by decide)
  have hperform : Call.images.perform (daemonLink (recorded willingBackend) imagesLine.daemon)
      imagesLine.statusJunk ((), []) = some (0, ((), [.listImages true])) :=
    perform_of_answered (by decide : Sendable .images) rfl hanswer 0
  have hwords : words ' ' (requestLine (createHttpRequest "GET".toList "/images/json".toList none))
      = ["GET".toList, "/images/json".toList, "HTTP/1.1".toList] := by decide
  have hurl : UrlEnds zeroedDaemon.request
      (createHttpRequest "GET".toList "/images/json".toList none) :=
    (urlEnds_iff zeroedDaemon.url_size hwords).mpr (Or.inl (by decide))
  have hround : roundTrip (boundedLink (recorded willingBackend) zeroedDaemon) 0 "GET"
        "/images/json".toList none 200 ((), [])
      = roundTrip (daemonLink (recorded willingBackend) zeroedDaemon) 0 "GET"
        "/images/json".toList none 200 ((), []) := roundTrip_bounded fun h => h.2.2 hurl
  have hbounded : Call.images.perform (boundedLink (recorded willingBackend) imagesLine.daemon)
      imagesLine.statusJunk ((), []) = some (0, ((), [.listImages true])) := hround.trans hperform
  rw [CommandLine.run, if_neg hinside, hcalled]
  simp only [hbounded, Option.bind_eq_bind, Option.bind_some]
  rw [main_called_status hcalled]
  rfl

/-- It lists the images and exits with 0. -/
theorem images_session_effects :
    runSession (recorded willingBackend) [imagesLine] ((), [])
      = some ([⟨some .images, EXIT_SUCCESS⟩], ((), [.listImages true])) ∧
    ∃ calls : List (List StoreCall), [StoreCall.listImages true] = calls.flatten ∧
      List.Forall₂ (fun x now => x.1.Led x.2 now)
        [(imagesLine, Outcome.mk (some .images) EXIT_SUCCESS)] calls := by
  have hrun : runSession (recorded willingBackend) [imagesLine] ((), [])
      = some ([⟨some .images, EXIT_SUCCESS⟩], ((), [.listImages true])) := by
    rw [runSession, imagesLine_run]
    rfl
  exact ⟨hrun, typed_session_effects hrun⟩

end DockerClone.Cli
