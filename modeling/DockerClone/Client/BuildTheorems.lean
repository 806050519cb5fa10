/-
DockerClone.Client.BuildTheorems — what a build request carries.

`docker_build` puts the image name and the Dockerfile's path into the
query of its URL as they are, and `handle_image_build` looks for the names
of the parameters from the left. So the name ends at its first `&`; and a
name in which `dockerfile=` occurs takes the place of the path. The
context path is not put anywhere, and the daemon builds in its own
directory (`build_round_trip_iff`).
-/
import DockerClone.Client.Operations
import DockerClone.Http.ScanTheorems

namespace DockerClone.Client

open DockerClone.CLib DockerClone.Http

/-! ## 1. The query -/

/-- A plain name or path: 1 to 255 bytes, no space and no
control character. -/
structure Visible (w : List Char) : Prop where
  nonempty : w ≠ []
  short : w.length ≤ 255
  graphic : ∀ c ∈ w, ' ' < c ∧ c ≠ '\x7f'

/-- `handle_image_build`, given the URL of `docker_build`, parses this
path and builds this name in this context. -/
def BuildRoundTrip (name path contextPath : List Char) : Prop :=
  ∀ {σ : Type} (backend : Backend σ) (request : HttpRequest) (response : HttpResponse) (s : σ),
    cstr request.url = snprintf 512 (buildUrl (some name) (some path)) →
    ∃ answer s', handleImageBuild (recorded backend) request response (s, [])
      = some (0, answer, s', buildCalls backend s path name contextPath)

/-- The path that is found is the one that was sent: the one behind the
name, or the rest of a name that spells the parameter itself. -/
def PathReadsBack (name path : List Char) : Prop :=
  match strstr name "dockerfile=".toList with
  | none => '&' ∉ path
  | some t => path = if t.drop 11 = [] then "Dockerfile".toList else t.drop 11

instance (name path : List Char) : Decidable (PathReadsBack name path) := by
  unfold PathReadsBack; split <;> infer_instance

section Query

variable {name path : List Char}

theorem Visible.nulFree {w : List Char} (h : Visible w) : NulFree w := by
  intro hnul
  exact absurd (h.graphic nul hnul).1 (by decide)

theorem nulFree_buildUrl (hname : Visible name) (hpath : Visible path) :
    NulFree (buildUrl (some name) (some path)) := by
  have hfront : NulFree "/build?t=".toList := by decide
  have hmiddle : NulFree "&dockerfile=".toList := by decide
  unfold buildUrl
  simp only [Option.getD_some, nulFree_append]
  exact ⟨⟨⟨hfront, hname.nulFree⟩, hmiddle⟩, hpath.nulFree⟩

/-- The value up to a `&` that the text does not hold. -/
theorem takeWhile_amp {w : List Char} (h : '&' ∉ w) (rest : List Char) :
    (w ++ '&' :: rest).takeWhile (· != '&') = w := by
  have hkeep : ∀ c ∈ w, (c != '&') = true := by
    intro c hc
    have hne : c ≠ '&' := fun e => h (e ▸ hc)
    simpa using hne
  rw [List.takeWhile_append_of_pos hkeep]
  simp

/-- The parts of the URL. -/
theorem buildUrl_eq (name path : List Char) : buildUrl (some name) (some path)
    = "/build?t=".toList ++ (name ++ '&' :: ("dockerfile=".toList ++ path)) := by
  have hmiddle : "&dockerfile=".toList = '&' :: "dockerfile=".toList := by decide
  unfold buildUrl
  rw [hmiddle]
  simp only [Option.getD_some, List.append_assoc, List.cons_append]

/-- The image name is what stands before the first `&`. -/
theorem parameterValue_name (name path : List Char) :
    parameterValue (buildUrl (some name) (some path)) "t=".toList
      = (name ++ '&' :: ("dockerfile=".toList ++ path)).takeWhile (· != '&') := by
  have hfront : "/build?t=".toList = "/build?".toList ++ "t=".toList := by decide
  have hfirst : strstr (buildUrl (some name) (some path)) "t=".toList
      = some ("t=".toList ++ (name ++ '&' :: ("dockerfile=".toList ++ path))) := by
    rw [buildUrl_eq, hfront]
    exact strstr_of_first (by decide) (by decide) _
  rw [parameterValue, hfirst]
  simp only [List.drop_left]

/-- The search for the path passes the front of the URL. -/
theorem strstr_dockerfile (name path : List Char) :
    strstr (buildUrl (some name) (some path)) "dockerfile=".toList
      = strstr (name ++ '&' :: ("dockerfile=".toList ++ path)) "dockerfile=".toList := by
  rw [buildUrl_eq]
  generalize name ++ '&' :: ("dockerfile=".toList ++ path) = rest
  have hfront : "/build?t=".toList = "/buil".toList ++ 'd' :: "?t=".toList := by decide
  have hneedle : "dockerfile=".toList = 'd' :: "ockerfile=".toList := by decide
  have hstart : ¬ 'd' :: "ockerfile=".toList <+: 'd' :: ("?t=".toList ++ rest) := by simp
  rw [hneedle, hfront, List.append_assoc, strstr_append_of_not_mem (by decide),
    List.cons_append, strstr_cons_of_not_pre hstart, strstr_append_of_not_mem (by decide)]

/-- So the path is found behind a name that does not spell the parameter,
and in one that does. -/
theorem parameterValue_path (hamp : '&' ∉ name) (path : List Char) :
    parameterValue (buildUrl (some name) (some path)) "dockerfile=".toList
      = match strstr name "dockerfile=".toList with
        | none => path.takeWhile (· != '&')
        | some t => t.drop 11 := by
  have hlen : "dockerfile=".toList.length = 11 := by decide
  rw [parameterValue, strstr_dockerfile, hlen]
  cases hname : strstr name "dockerfile=".toList with
  | none =>
    rw [strstr_append_sep (by decide) hname, strstr_of_prefix (List.prefix_append _ _)]
    simp only [← hlen, List.drop_left]
  | some t =>
    have hlong : 11 ≤ t.length := hlen ▸ (prefix_of_strstr hname).length_le
    have hrest : '&' ∉ t.drop 11 :=
      fun hmem => hamp ((suffix_of_strstr hname).subset (List.mem_of_mem_drop hmem))
    rw [strstr_append hname]
    simp only [List.drop_append_of_le_length hlong]
    exact takeWhile_amp hrest _

end Query

/-! ## 2. The round trip -/

section RoundTrip

variable {name path : List Char} (hname : Visible name) (hpath : Visible path)

include hname hpath

/-- If it comes back from every store it does from one that fails
nothing, and there the log shows all three. -/
theorem readsBack_of_roundTrip (hurl : (buildUrl (some name) (some path)).length < 512)
    {contextPath : List Char}
    (h : BuildRoundTrip name path contextPath) :
    '&' ∉ name ∧ PathReadsBack name path ∧ contextPath = ".".toList := by
  have hrequest : cstr ({ emptyRequest with
      url := store (zeros 512) (buildUrl (some name) (some path)) } : HttpRequest).url
      = buildUrl (some name) (some path) := cstr_store (nulFree_buildUrl hname hpath) _
  generalize ({ emptyRequest with
    url := store (zeros 512) (buildUrl (some name) (some path)) } : HttpRequest) = request
    at hrequest
  obtain ⟨answer, s', houtcome⟩ := h willingBackend request emptyResponse ()
    (by rw [hrequest, snprintf_of_lt hurl])
  have hshort := (copiesFit_build_iff willingBackend request ()).mp
    (copiesFit_of_build willingBackend request emptyResponse () [] houtcome)
  obtain ⟨answer', s'', hcalls⟩ :=
    handleImageBuild_calls willingBackend request () emptyResponse hshort
  rw [houtcome, hrequest, parameterValue_name] at hcalls
  simp only [Option.some.injEq, Prod.mk.injEq, true_and] at hcalls
  obtain ⟨-, hlog⟩ := hcalls
  by_cases hempty : (name ++ '&' :: ("dockerfile=".toList ++ path)).takeWhile (· != '&') = []
  · rw [if_pos hempty] at hlog
    exact absurd hlog (by simp [buildCalls, willingBackend])
  · rw [if_neg hempty] at hlog
    simp only [buildCalls, willingBackend, List.cons.injEq, StoreCall.parseDockerfile.injEq,
      StoreCall.buildImageFromDockerfile.injEq, and_true, true_and] at hlog
    obtain ⟨hpathLog, hnameLog, hcontext⟩ := hlog
    have hamp : '&' ∉ name := by
      intro hmem
      rw [hnameLog] at hmem
      simpa using List.mem_takeWhile_imp hmem
    refine ⟨hamp, ?_, hcontext⟩
    rw [parameterValue_path hamp] at hpathLog
    unfold PathReadsBack
    split at hpathLog
    · rename_i hfound
      intro hmem
      by_cases hnil : path.takeWhile (· != '&') = []
      · rw [if_pos hnil] at hpathLog
        rw [hpathLog] at hmem
        exact absurd hmem (by decide)
      · rw [if_neg hnil] at hpathLog
        rw [hpathLog] at hmem
        simpa using List.mem_takeWhile_imp hmem
    · exact hpathLog

/-- The value found for the path is short and is, with the default, the
path that was sent. -/
theorem parameterValue_of_readsBack (hamp : '&' ∉ name) (hback : PathReadsBack name path) :
    (parameterValue (buildUrl (some name) (some path)) "dockerfile=".toList).length < 256 ∧
    (if parameterValue (buildUrl (some name) (some path)) "dockerfile=".toList = [] then
      "Dockerfile".toList
    else parameterValue (buildUrl (some name) (some path)) "dockerfile=".toList) = path := by
  have hshort := hname.short
  have hshort' := hpath.short
  rw [parameterValue_path hamp]
  unfold PathReadsBack at hback
  split at hback
  · have hall : path.takeWhile (· != '&') = path := by
      refine List.takeWhile_eq_self_iff.mpr fun c hc => ?_
      have hne : c ≠ '&' := fun e => hback (e ▸ hc)
      simpa using hne
    rw [hall]
    refine ⟨by omega, ?_⟩
    rw [if_neg hpath.nonempty]
  · rename_i t hfound
    have hlen := (suffix_of_strstr hfound).length_le
    refine ⟨?_, hback.symm⟩
    rw [List.length_drop]
    omega

/-- The build gets exactly this name, path and context where the name
holds no `&`, the path reads back, and the context is the directory of the
daemon. -/
theorem build_round_trip_iff (hurl : (buildUrl (some name) (some path)).length < 512)
    (contextPath : List Char) :
    BuildRoundTrip name path contextPath ↔
      '&' ∉ name ∧ PathReadsBack name path ∧ contextPath = ".".toList := by
  constructor
  · exact readsBack_of_roundTrip hname hpath hurl
  · rintro ⟨hamp, hback, rfl⟩ σ backend request response s hrequest
    obtain ⟨hpathShort, hpathValue⟩ := parameterValue_of_readsBack hname hpath hamp hback
    have hnameValue : parameterValue (buildUrl (some name) (some path)) "t=".toList = name := by
      rw [parameterValue_name, takeWhile_amp hamp]
    have hnameShort := hname.short
    rw [snprintf_of_lt hurl] at hrequest
    have hshort : ParametersShort (cstr request.url) := by
      rw [hrequest]
      refine ⟨?_, hpathShort⟩
      rw [hnameValue]
      omega
    obtain ⟨answer, s', hcalls⟩ := handleImageBuild_calls backend request s response hshort
    rw [hrequest, hnameValue, if_neg hname.nonempty, hpathValue] at hcalls
    exact ⟨answer, s', hcalls⟩

end RoundTrip

theorem visible_web : Visible "web".toList :=
  ⟨by decide, by decide, by decide⟩

theorem visible_dockerfile : Visible "Dockerfile".toList :=
  ⟨by decide, by decide, by decide⟩

theorem short_webUrl :
    (buildUrl (some "web".toList) (some "Dockerfile".toList)).length < 512 := by decide

/-- The plain case. -/
theorem build_web_round_trip : Visible "web".toList ∧ Visible "Dockerfile".toList ∧
    (buildUrl (some "web".toList) (some "Dockerfile".toList)).length < 512 ∧
    BuildRoundTrip "web".toList "Dockerfile".toList ".".toList :=
  ⟨visible_web, visible_dockerfile, short_webUrl,
    (build_round_trip_iff visible_web visible_dockerfile short_webUrl _).mpr
      ⟨by decide, by decide, rfl⟩⟩

/-- Any other context is lost. -/
theorem build_web_loses_context : Visible "web".toList ∧ Visible "Dockerfile".toList ∧
    (buildUrl (some "web".toList) (some "Dockerfile".toList)).length < 512 ∧
    ¬ BuildRoundTrip "web".toList "Dockerfile".toList "app".toList := by
  refine ⟨visible_web, visible_dockerfile, short_webUrl, fun h => ?_⟩
  have hcontext :=
    (readsBack_of_roundTrip visible_web visible_dockerfile short_webUrl h).2.2
  exact absurd hcontext (by decide)

end DockerClone.Client
