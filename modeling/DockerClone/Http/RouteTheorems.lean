/-
DockerClone.Http.RouteTheorems — the router on the URLs of its own
grammar.

The router looks for words anywhere in a URL, one after the other, and
the segment a client puts into it is searched like the rest. Since a
segment holds no slash, a word that starts with one can only be found
where the segment starts: `Endpoint.shadows` lists, for each endpoint, the
words that lead elsewhere from there. `served_iff` says that these are all
the exceptions.
-/
import DockerClone.Http.StatusTheorems

namespace DockerClone.Http

open DockerClone.CLib DockerClone.Container

/-! ## 1. The grammar -/

/-- The endpoints whose URL has a segment. -/
inductive Endpoint where
  | start
  | stop
  | remove
  | removeImage
  deriving DecidableEq, Repr

namespace Endpoint

def method : Endpoint → String
  | removeImage => "DELETE"
  | _ => "GET"

def url (segment : List Char) : Endpoint → List Char
  | start => "/containers/".toList ++ segment ++ '/' :: "start".toList
  | stop => "/containers/".toList ++ segment ++ '/' :: "stop".toList
  | remove => "/containers/".toList ++ segment ++ '/' :: "remove".toList
  | removeImage => "/images/".toList ++ segment

def route : Endpoint → Route
  | start => .start
  | stop => .stop
  | remove => .remove
  | removeImage => .removeImage

/-- The call of the endpoint's operation on a segment. -/
def call {σ : Type} (backend : Backend σ) (segment : List Char) (s : σ) : Endpoint → StoreCall
  | start => .startContainer segment (backend.startContainer segment s).1
  | stop => .stopContainer segment (backend.stopContainer segment s).1
  | remove => .removeContainer segment (backend.removeContainer segment s).1
  | removeImage => .removeImage segment (backend.removeImage segment s).1

/-- The words the router takes for something else at the start of a
segment. -/
def shadows : Endpoint → List String
  | start => ["json"]
  | stop => ["json", "start"]
  | remove => ["json", "start", "stop"]
  | removeImage => ["containers"]

end Endpoint

/-- A segment of a URL. -/
structure IsSegment (segment : List Char) : Prop where
  nonempty : segment ≠ []
  noSlash : '/' ∉ segment
  short : segment.length ≤ 255
  nulFree : NulFree segment

instance (segment : List Char) : Decidable (IsSegment segment) :=
  decidable_of_iff
    (segment ≠ [] ∧ '/' ∉ segment ∧ segment.length ≤ 255 ∧ NulFree segment)
    ⟨fun h => ⟨h.1, h.2.1, h.2.2.1, h.2.2.2⟩, fun h => ⟨h.1, h.2, h.3, h.4⟩⟩

/-- A request to the endpoint leads to the call of its operation with
exactly this segment, and to no other. -/
def Serves (e : Endpoint) (segment : List Char) : Prop :=
  ∀ {σ : Type} (backend : Backend σ) (request : HttpRequest) (response : HttpResponse) (s : σ),
    cstr request.method = e.method.toList → cstr request.url = e.url segment →
    ∃ answer s', handleApiRequest (recorded backend) request response (s, [])
      = some (0, answer, s', [e.call backend segment s])

/-! ## 2. Where the words are found -/

section Words

variable {segment : List Char} (hslash : '/' ∉ segment) {action : List Char}

theorem containerUrl_eq (segment action : List Char) :
    "/containers/".toList ++ segment ++ '/' :: action
      = '/' :: ("containers".toList ++ '/' :: (segment ++ '/' :: action)) := by
  have hfront : "/containers/".toList = '/' :: ("containers".toList ++ ['/']) := by decide
  rw [hfront]
  simp

include hslash

/-- A word of another path is found at the segment or at the action. -/
theorem found_word_iff {word : List Char} (hword : '/' ∉ word)
    (hfront : ¬ word <+: "containers".toList) (haction : '/' ∉ action) :
    found ("/containers/".toList ++ segment ++ '/' :: action) ('/' :: word) = true ↔
      word <+: segment ∨ word <+: action := by
  rw [found_iff, containerUrl_eq, infix_cons_append_iff (by decide),
    infix_cons_append_iff hslash, infix_cons_of_not_mem haction]
  constructor
  · rintro (hpre | hpre | hpre)
    · exact absurd (prefix_of_prefix_sep hword hpre) hfront
    · exact Or.inl (prefix_of_prefix_sep hword hpre)
    · exact Or.inr hpre
  · rintro (hpre | hpre)
    · exact Or.inr (Or.inl (hpre.trans (List.prefix_append _ _)))
    · exact Or.inr (Or.inr hpre)

/-- The path of the list is found where the segment starts with its last
word. -/
theorem found_json_iff (haction : '/' ∉ action) (hjson : ¬ "json".toList <+: action) :
    found ("/containers/".toList ++ segment ++ '/' :: action) "/containers/json".toList = true ↔
      "json".toList <+: segment := by
  have hneedle : "/containers/json".toList = '/' :: ("containers".toList ++ '/' :: "json".toList) := by
    decide
  have hlast : ¬ "containers".toList ++ '/' :: "json".toList <+: action := by
    intro hpre
    exact haction (hpre.subset (by decide))
  rw [found_iff, containerUrl_eq, hneedle, infix_cons_append_iff (by decide),
    infix_cons_append_iff hslash, infix_cons_of_not_mem haction,
    prefix_append_sep_iff (by decide) (by decide), prefix_append_sep_iff (by decide) hslash]
  simp only [hlast, hjson, and_false, or_false, true_and]
  constructor
  · exact prefix_of_prefix_sep (by decide)
  · intro hpre
    exact hpre.trans (List.prefix_append _ _)

omit hslash in
theorem found_containers (segment action : List Char) :
    found ("/containers/".toList ++ segment ++ action) "/containers".toList = true ∧
    found ("/containers/".toList ++ segment ++ action) "/containers/".toList = true := by
  simp only [found_iff, List.append_assoc]
  have hfront : "/containers".toList <+: "/containers/".toList := by decide
  exact ⟨(hfront.trans (List.prefix_append _ _)).isInfix, (List.prefix_append _ _).isInfix⟩

/-- The id is the segment. -/
theorem extractContainerId_eq (hshort : segment.length ≤ 255) (action : List Char) :
    extractContainerIdFromUrl ("/containers/".toList ++ segment ++ '/' :: action)
      = some segment := by
  have hstart := strstr_of_prefix
    (List.prefix_append "/containers/".toList (segment ++ '/' :: action))
  simp only [List.append_assoc, extractContainerIdFromUrl, extractSegment, hstart, List.drop_left,
    strchr_of_append hslash, List.length_append, Nat.add_sub_cancel]
  rw [if_neg (by omega), List.take_left]

end Words

/-! ## 3. Routes of the grammar -/

section Routes

variable {segment : List Char} (h : IsSegment segment)

include h

/-- The cascade on the URLs of the three actions. -/
theorem route_action {action : List Char} (haction : '/' ∉ action)
    (hjson : ¬ "json".toList <+: action) :
    route "GET".toList ("/containers/".toList ++ segment ++ '/' :: action)
      = if "json".toList <+: segment then none
        else if "start".toList <+: segment ∨ "start".toList <+: action then some .start
        else if "stop".toList <+: segment ∨ "stop".toList <+: action then some .stop
        else if "remove".toList <+: segment ∨ "remove".toList <+: action then some .remove
        else none := by
  obtain ⟨hcontainers, hcontainers'⟩ := found_containers segment ('/' :: action)
  have hword : ∀ word : List Char, '/' ∉ word → ¬ word <+: "containers".toList →
      (found ("/containers/".toList ++ segment ++ '/' :: action) ('/' :: word) = true ↔
        word <+: segment ∨ word <+: action) :=
    fun word hw hfront => found_word_iff h.noSlash hw hfront haction
  have hstart := hword "start".toList (by decide) (by decide)
  have hstop := hword "stop".toList (by decide) (by decide)
  have hremove := hword "remove".toList (by decide) (by decide)
  have hneedles : "/start".toList = '/' :: "start".toList ∧ "/stop".toList = '/' :: "stop".toList ∧
      "/remove".toList = '/' :: "remove".toList := by decide
  rw [route, if_pos hcontainers, if_pos rfl, hcontainers', hneedles.1, hneedles.2.1, hneedles.2.2]
  simp only [Bool.true_and, found_json_iff h.noSlash haction hjson, hstart, hstop, hremove]

theorem route_removeImage : route "DELETE".toList ("/images/".toList ++ segment)
    = if "containers".toList <+: segment then none else some .removeImage := by
  have hget : ¬ "DELETE".toList = "GET".toList := by decide
  have hpost : ¬ "DELETE".toList = "POST".toList := by decide
  have hfront : "/images".toList <+: "/images/".toList := by decide
  have himages : found ("/images/".toList ++ segment) "/images".toList = true :=
    (found_iff _ _).mpr (hfront.trans (List.prefix_append _ _)).isInfix
  have himages' : found ("/images/".toList ++ segment) "/images/".toList = true :=
    (found_iff _ _).mpr (List.prefix_append _ _).isInfix
  rw [route, if_neg hget, if_neg hpost, himages, himages']
  simp only [found_containers_iff h.noSlash, if_neg hget, if_neg hpost, if_true]

/-- An endpoint's own route is taken exactly when no word shadows it. -/
theorem route_url_iff (e : Endpoint) :
    route e.method.toList (e.url segment) = some e.route ↔
      ∀ word ∈ e.shadows, ¬ word.toList <+: segment := by
  have hstop : ¬ "start".toList <+: "stop".toList := by decide
  have hremove : ¬ "start".toList <+: "remove".toList ∧ ¬ "stop".toList <+: "remove".toList := by
    decide
  cases e with
  | start =>
    show route "GET".toList ("/containers/".toList ++ segment ++ '/' :: "start".toList)
      = some Route.start ↔ _
    rw [route_action h (by decide) (by decide), Endpoint.shadows, List.forall_mem_singleton]
    by_cases hjson : "json".toList <+: segment
    · simp only [hjson, if_true, reduceCtorEq, not_true_eq_false]
    · simp only [hjson, if_false, List.prefix_rfl, or_true, if_true, not_false_eq_true]
  | stop =>
    show route "GET".toList ("/containers/".toList ++ segment ++ '/' :: "stop".toList)
      = some Route.stop ↔ _
    rw [route_action h (by decide) (by decide), Endpoint.shadows, List.forall_mem_cons,
      List.forall_mem_singleton]
    by_cases hjson : "json".toList <+: segment
    · simp only [hjson, if_true, reduceCtorEq, not_true_eq_false, false_and]
    · by_cases hstart : "start".toList <+: segment
      · simp only [hjson, hstart, if_false, true_or, if_true, Option.some.injEq, reduceCtorEq,
          not_true_eq_false, and_false]
      · simp only [hjson, hstart, hstop, if_false, or_self, List.prefix_rfl, or_true, if_true,
          not_false_eq_true, and_self]
  | remove =>
    show route "GET".toList ("/containers/".toList ++ segment ++ '/' :: "remove".toList)
      = some Route.remove ↔ _
    rw [route_action h (by decide) (by decide), Endpoint.shadows, List.forall_mem_cons,
      List.forall_mem_cons, List.forall_mem_singleton]
    by_cases hjson : "json".toList <+: segment
    · simp only [hjson, if_true, reduceCtorEq, not_true_eq_false, false_and]
    · by_cases hstart : "start".toList <+: segment
      · simp only [hjson, hstart, if_false, true_or, if_true, Option.some.injEq, reduceCtorEq,
          not_true_eq_false, and_false, false_and]
      · by_cases hstop' : "stop".toList <+: segment
        · simp only [hjson, hstart, hstop', hremove, if_false, or_self, true_or, if_true,
            Option.some.injEq, reduceCtorEq, not_true_eq_false, and_false]
        · simp only [hjson, hstart, hstop', hremove, if_false, or_self, List.prefix_rfl, or_true,
            if_true, not_false_eq_true, and_self]
  | removeImage =>
    show route "DELETE".toList ("/images/".toList ++ segment) = some Route.removeImage ↔ _
    rw [route_removeImage h, Endpoint.shadows, List.forall_mem_singleton]
    by_cases hcontainers : "containers".toList <+: segment
    · simp only [hcontainers, if_true, reduceCtorEq, not_true_eq_false]
    · simp only [hcontainers, if_false, not_false_eq_true]

/-- Any route that is taken from there is that of an endpoint with the
same segment. -/
theorem route_url_endpoint (e : Endpoint) {r : Route}
    (hr : route e.method.toList (e.url segment) = some r) :
    ∃ e' : Endpoint, r = e'.route ∧ (e' = .removeImage ↔ e = .removeImage) := by
  have haction : ∀ action : List Char, '/' ∉ action → ¬ "json".toList <+: action →
      route "GET".toList ("/containers/".toList ++ segment ++ '/' :: action) = some r →
      r = .start ∨ r = .stop ∨ r = .remove := by
    intro action hslash hjson hroute
    rw [route_action h hslash hjson] at hroute
    split_ifs at hroute with hj hstart hstop hremove
    · exact Or.inl (Option.some.inj hroute).symm
    · exact Or.inr (Or.inl (Option.some.inj hroute).symm)
    · exact Or.inr (Or.inr (Option.some.inj hroute).symm)
  have hcontainer : (r = .start ∨ r = .stop ∨ r = .remove) → e ≠ .removeImage →
      ∃ e' : Endpoint, r = e'.route ∧ (e' = .removeImage ↔ e = .removeImage) := by
    rintro (rfl | rfl | rfl) he
    · exact ⟨.start, rfl, iff_of_false (by decide) he⟩
    · exact ⟨.stop, rfl, iff_of_false (by decide) he⟩
    · exact ⟨.remove, rfl, iff_of_false (by decide) he⟩
  cases e with
  | start => exact hcontainer (haction "start".toList (by decide) (by decide) hr) (by decide)
  | stop => exact hcontainer (haction "stop".toList (by decide) (by decide) hr) (by decide)
  | remove => exact hcontainer (haction "remove".toList (by decide) (by decide) hr) (by decide)
  | removeImage =>
    have hroute : route "DELETE".toList ("/images/".toList ++ segment) = some r := hr
    rw [route_removeImage h] at hroute
    split_ifs at hroute with hcontainers
    exact ⟨.removeImage, (Option.some.inj hroute).symm, Iff.rfl⟩

end Routes

/-! ## 4. The calls -/

section Calls

variable {σ : Type} (backend : Backend σ) (request : HttpRequest) (response : HttpResponse) (s : σ)
  {segment : List Char}

/-- An operation on a container is called with the segment. -/
theorem handleContainerOperation_calls
    {operation : List Char → σ × List StoreCall → Int × σ × List StoreCall}
    {plain : List Char → σ → Int × σ} {call : List Char → Int → StoreCall}
    (hlogged : ∀ id p, operation id p = logged (call id) (plain id p.1) p.2) (failure : String)
    (hid : extractContainerIdFromUrl (cstr request.url) = some segment) :
    ∃ answer s', handleContainerOperation operation failure request response (s, [])
      = some (0, answer, s', [call segment (plain segment s).1]) := by
  rw [handleContainerOperation, hid]
  simp only [hlogged, logged, List.nil_append]
  exact replied_result response 204 "No Content" "" failure _ (plain segment s)

theorem handleImageRemove_calls
    (hname : extractImageNameFromUrl (cstr request.url) = some segment) :
    ∃ answer s', handleImageRemove (recorded backend) request response (s, [])
      = some (0, answer, s', [.removeImage segment (backend.removeImage segment s).1]) := by
  rw [handleImageRemove, hname]
  exact replied_result response 200 "OK" _ _ _ (backend.removeImage segment s)

/-- The segment is taken from the URL of any endpoint. -/
def Taken (url segment : List Char) (e : Endpoint) : Prop :=
  if e = .removeImage then extractImageNameFromUrl url = some segment
  else extractContainerIdFromUrl url = some segment

theorem taken_url (h : IsSegment segment) (e : Endpoint) : Taken (e.url segment) segment e := by
  cases e with
  | start => exact extractContainerId_eq h.noSlash h.short _
  | stop => exact extractContainerId_eq h.noSlash h.short _
  | remove => exact extractContainerId_eq h.noSlash h.short _
  | removeImage => exact extractImageName_of_lt h.noSlash (Nat.lt_succ_of_le h.short)

/-- The handler of an endpoint calls its operation with the segment. -/
theorem handleRoute_calls (e : Endpoint) (h : Taken (cstr request.url) segment e) :
    ∃ answer s', handleRoute (recorded backend) e.route request response (s, [])
      = some (0, answer, s', [e.call backend segment s]) := by
  cases e with
  | start =>
    exact handleContainerOperation_calls request response s (fun _ _ => rfl) _ h
  | stop =>
    exact handleContainerOperation_calls request response s (fun _ _ => rfl) _ h
  | remove =>
    exact handleContainerOperation_calls request response s (fun _ _ => rfl) _ h
  | removeImage => exact handleImageRemove_calls backend request response s h

/-- Different endpoints call different operations. -/
theorem Endpoint.call_injective {e e' : Endpoint}
    (h : e.call backend segment s = e'.call backend segment s) : e = e' := by
  cases e <;> cases e' <;> first | rfl | exact StoreCall.noConfusion h

end Calls

/-! ## 5. Every segment -/

/-- A request to an endpoint. -/
def endpointRequest (segment : List Char) (e : Endpoint) : HttpRequest :=
  { emptyRequest with
    method := store (zeros MAX_METHOD_SIZE) e.method.toList
    url := store (zeros MAX_URL_SIZE) (e.url segment) }

section Served

variable {segment : List Char} (h : IsSegment segment)

include h

theorem endpointRequest_spec (e : Endpoint) :
    cstr (endpointRequest segment e).method = e.method.toList ∧
    cstr (endpointRequest segment e).url = e.url segment := by
  have hmethod : NulFree e.method.toList := by cases e <;> decide
  have hfront : NulFree "/containers/".toList ∧ NulFree "/images/".toList := by decide
  have hurl : NulFree (e.url segment) := by
    cases e with
    | removeImage => exact (nulFree_append _ _).mpr ⟨hfront.2, h.nulFree⟩
    | _ =>
      exact (nulFree_append _ _).mpr
        ⟨(nulFree_append _ _).mpr ⟨hfront.1, h.nulFree⟩, by decide⟩
  exact ⟨cstr_store hmethod _, cstr_store hurl _⟩

/-- If the endpoint is served, its own route is taken. -/
theorem route_of_serves {e : Endpoint} (hserves : Serves e segment) :
    route e.method.toList (e.url segment) = some e.route := by
  obtain ⟨hmethod, hurl⟩ := endpointRequest_spec h e
  obtain ⟨answer, s', houtcome⟩ :=
    hserves willingBackend (endpointRequest segment e) emptyResponse () hmethod hurl
  rw [handleApiRequest_route, hmethod, hurl] at houtcome
  cases hroute : route e.method.toList (e.url segment) with
  | none =>
    rw [hroute] at houtcome
    simp [reply] at houtcome
  | some r =>
    obtain ⟨e', rfl, hkind⟩ := route_url_endpoint h e hroute
    have htaken : Taken (cstr (endpointRequest segment e).url) segment e' := by
      rw [hurl, Taken, if_congr hkind rfl rfl]
      exact taken_url h e
    obtain ⟨answer', s'', hcalls⟩ :=
      handleRoute_calls willingBackend (endpointRequest segment e) emptyResponse () e' htaken
    simp only [hroute, hcalls] at houtcome
    obtain ⟨-, hcall⟩ : answer' = answer ∧
        e'.call willingBackend segment () = e.call willingBackend segment () := by
      simpa using (Option.some.inj houtcome)
    rw [Endpoint.call_injective willingBackend () hcall]

/-- A segment is served at an endpoint exactly when it does not start with
one of the words that lead elsewhere from there. -/
theorem served_iff (e : Endpoint) :
    Serves e segment ↔ ∀ word ∈ e.shadows, ¬ word.toList <+: segment := by
  rw [← route_url_iff h e]
  constructor
  · exact route_of_serves h
  · intro hroute σ backend request response s hmethod hurl
    rw [handleApiRequest_route, hmethod, hurl, hroute]
    exact handleRoute_calls backend request response s e (hurl ▸ taken_url h e)

end Served

theorem web_stop_served : IsSegment "web".toList ∧ Serves .stop "web".toList := by
  have hsegment : IsSegment "web".toList := by decide
  exact ⟨hsegment, (served_iff hsegment .stop).mpr (by decide)⟩

/-- A container named like an action is started when it should stop. -/
theorem starter_stop_not_served :
    IsSegment "starter".toList ∧ ¬ Serves .stop "starter".toList := by
  have hsegment : IsSegment "starter".toList := by decide
  refine ⟨hsegment, fun hserves => ?_⟩
  have hwords := (route_url_iff hsegment .stop).mp (route_of_serves hsegment hserves)
  exact hwords "start" (by decide) (by decide)

end DockerClone.Http
