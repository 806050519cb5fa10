/-
DockerClone.Client.PrintTheorems — what `print_containers_json` shows of
the text `handle_container_list` builds.

An entry of the text is a list of fields, so by `strstr_fields` every key
is found in the FIRST entry, whatever the strings are. Two things follow.
No entry but the first is ever looked at; and the key of the names has
ten characters where the printer skips eleven, so the name that is shown
has lost its first character, or is what stands behind the closing quote
of an empty one (`shownName`). `printContainersJson_listText` is the
whole output for a list that is not empty.
-/
import DockerClone.CLib.Fields
import DockerClone.Client.CreateBodyTheorems
import DockerClone.Client.Print
import DockerClone.Http.ListTheorems

namespace DockerClone.Client

open DockerClone.CLib DockerClone.Container DockerClone.Http

/-! ## 1. Printing a value -/

/-- A text up to the stop character is printed whole. -/
theorem printUntil_of_append {value : List Char} {stop : Char} (h : stop ∉ value)
    (rest : List Char) (tail : String) :
    printUntil (value ++ stop :: rest) stop tail = value ++ tail.toList := by
  rw [printUntil, strchr_of_append h]
  simp

/-! ## 2. The text of an entry -/

def statusText (c : ContainerSummary) : List Char :=
  (if c.state = ContainerState.running.code then "running" else "exited").toList

/-- The fields of an entry, in order. -/
def containerFields (c : ContainerSummary) : List Field :=
  [ .quoted "Id".toList [] (cstr c.id) ",".toList,
    .quoted "Names".toList "[".toList (cstr c.name) "],".toList,
    .quoted "Image".toList [] (cstr c.image) ",".toList,
    .quoted "Command".toList [] (cstr c.command) ",".toList,
    .bare "Created".toList (cstr c.created) ",".toList,
    .quoted "Status".toList [] (statusText c) "\x7d".toList ]

/-- The text of an entry before it is cut to its array. -/
def containerEntry (c : ContainerSummary) : List Char :=
  '{' :: (containerFields c).flatMap Field.text

theorem containerJson_eq (c : ContainerSummary) :
    containerJson c = snprintf 512 (containerEntry c) := by
  have hid : "\x7b\"Id\":\"".toList = '{' :: '"' :: ("Id".toList ++ '"' :: ':' :: ['"']) := by decide
  have hnames : "\",\"Names\":[\"".toList
      = '"' :: (",".toList ++ '"' :: ("Names".toList ++ '"' :: ':' :: ("[".toList ++ ['"']))) := by
    decide
  have himage : "\"],\"Image\":\"".toList
      = '"' :: ("],".toList ++ '"' :: ("Image".toList ++ '"' :: ':' :: ['"'])) := by decide
  have hcommand : "\",\"Command\":\"".toList
      = '"' :: (",".toList ++ '"' :: ("Command".toList ++ '"' :: ':' :: ['"'])) := by decide
  have hcreated : "\",\"Created\":".toList
      = '"' :: (",".toList ++ '"' :: ("Created".toList ++ ['"', ':'])) := by decide
  have hstatus : ",\"Status\":\"".toList
      = ",".toList ++ '"' :: ("Status".toList ++ '"' :: ':' :: ['"']) := by decide
  have hclose : "\"\x7d".toList = '"' :: "\x7d".toList := by decide
  unfold containerJson Http.containerText
  rw [hid, hnames, himage, hcommand, hcreated, hstatus, hclose]
  congr 1
  simp only [containerEntry, containerFields, statusText, Field.text, Field.key, Field.content,
    List.flatMap_cons, List.flatMap_nil, List.append_assoc, List.cons_append, List.nil_append,
    List.append_nil]

/-- A container whose strings hold no quote and whose creation time is a
number. -/
structure Printable (c : ContainerSummary) : Prop where
  id : '"' ∉ cstr c.id
  name : '"' ∉ cstr c.name
  image : '"' ∉ cstr c.image
  command : '"' ∉ cstr c.command
  created : ∀ d ∈ cstr c.created, d.isDigit = true

theorem Printable.not_mem_created {c : ContainerSummary} (h : Printable c) {d : Char}
    (hd : d.isDigit = false) : d ∉ cstr c.created := by
  intro hm
  rw [h.created d hm] at hd
  simp at hd

theorem not_mem_statusText (c : ContainerSummary) : '"' ∉ statusText c := by
  rw [statusText]
  split <;> decide

theorem sound_containerFields {c : ContainerSummary} (h : Printable c) :
    ∀ f ∈ containerFields c, f.Sound := by
  have hid := h.id
  have hname := h.name
  have himage := h.image
  have hcommand := h.command
  have hcreated : '"' ∉ cstr c.created := h.not_mem_created (by decide)
  have hstatus := not_mem_statusText c
  simp only [containerFields, List.forall_mem_cons, Field.Sound]
  refine ⟨?_, ?_, ?_, ?_, ?_, ?_, by simp⟩
  · exact ⟨by decide, by decide, hid, by decide, ',', rfl, by simp⟩
  · exact ⟨by decide, by decide, hname, by decide, ']', rfl, by simp⟩
  · exact ⟨by decide, by decide, himage, by decide, ',', rfl, by simp⟩
  · exact ⟨by decide, by decide, hcommand, by decide, ',', rfl, by simp⟩
  · exact ⟨by decide, hcreated, by decide⟩
  · exact ⟨by decide, by decide, hstatus, by decide, '}', rfl, by simp⟩

/-! ## 3. The keys are found in the first entry -/

/-- A text that starts with the fields of a container. -/
def fieldsText (c : ContainerSummary) (more : List Char) : List Char :=
  '[' :: '{' :: ((containerFields c).flatMap Field.text ++ more)

/-- The reply for a list that is not empty. -/
theorem listText_cons {c : ContainerSummary} (hfits : (containerEntry c).length < 512)
    (cs : List ContainerSummary) :
    ∃ more, listText containerJson (c :: cs) = fieldsText c more := by
  have hopen : "[".toList = ['['] := by decide
  rw [listText, List.map_cons, containerJson_eq, snprintf_of_lt hfits, containerEntry, hopen]
  cases cs with
  | nil => exact ⟨"]".toList, by simp [fieldsText]⟩
  | cons d ds =>
    refine ⟨",".toList ++ ((",".toList).intercalate ((d :: ds).map containerJson) ++ "]".toList),
      ?_⟩
    rw [List.map_cons, List.intercalate_cons_cons]
    simp [fieldsText]

section Found

variable {c : ContainerSummary} (h : Printable c) {before after : List Field}
  {key opening value closing : List Char} (hword : KeyWord key)
  (hkeys : ∀ f ∈ before, f.key ≠ key)

include h hword hkeys

/-- The search ends at the field of the key. -/
theorem strstr_fieldsText {f : Field} (hfields : containerFields c = before ++ f :: after)
    (hf : f.key = key) {z : List Char} (hz : z <+: f.content) (more : List Char) :
    strstr (fieldsText c more) ('"' :: (key ++ '"' :: ':' :: z))
      = some (f.text ++ (after.flatMap Field.text ++ more)) := by
  have hsound : ∀ g ∈ before, g.Sound := by
    intro g hg
    refine sound_containerFields h g ?_
    rw [hfields]
    exact List.mem_append_left _ hg
  have htext : fieldsText c more = ['[', '{'] ++ (before.flatMap Field.text
      ++ (f.text ++ (after.flatMap Field.text ++ more))) := by
    simp [fieldsText, hfields]
  rw [htext, strstr_append_of_not_mem (by decide)]
  exact strstr_fields hword z hsound hkeys hf hz _

/-- For a quoted value the text found is the needle and the value. -/
theorem strstr_quotedField {needle : String}
    (hneedle : needle.toList = '"' :: (key ++ '"' :: ':' :: (opening ++ ['"'])))
    (hfields : containerFields c = before ++ .quoted key opening value closing :: after)
    (more : List Char) : strstr (fieldsText c more) needle.toList
      = some (needle.toList ++ (value ++ '"' ::
          (closing ++ (after.flatMap Field.text ++ more)))) := by
  rw [hneedle, strstr_fieldsText h hword hkeys hfields rfl
    (z := opening ++ ['"']) (by simp [Field.content]) more]
  simp [Field.text, Field.key, Field.content]

/-- With the right length beside the key the value is printed. -/
theorem printField_eq {needle : String}
    (hneedle : needle.toList = '"' :: (key ++ '"' :: ':' :: (opening ++ ['"'])))
    (hfields : containerFields c = before ++ .quoted key opening value closing :: after)
    (hvalue : '"' ∉ value) (more : List Char) {skip : Nat} (hskip : needle.toList.length = skip)
    (tail : String) :
    printField (fieldsText c more) needle skip tail = value ++ tail.toList := by
  rw [printField, strstr_quotedField h hword hkeys hneedle hfields]
  simp only
  rw [List.drop_left' hskip, printUntil_of_append hvalue]

end Found

/-! ## 4. The output -/

/-- What is shown of a name: the key is skipped one character too far. -/
def shownName (name : List Char) : List Char :=
  match name with
  | [] => "],".toList
  | _ :: shown => shown

/-- The values of a container in one line. -/
def containerRow (c : ContainerSummary) (name : List Char) : List Char :=
  cstr c.id ++ "    ".toList ++ (name ++ "    ".toList) ++ (cstr c.image ++ "    ".toList)
    ++ (cstr c.command ++ "    ".toList) ++ (cstr c.created ++ "    ".toList)
    ++ (statusText c ++ "\n".toList)

section Row

variable {c : ContainerSummary} (h : Printable c) (more : List Char)

theorem containerFields_split (c : ContainerSummary) (k : Nat) :
    containerFields c = (containerFields c).take k ++ (containerFields c).drop k :=
  (List.take_append_drop k _).symm

include h

/-- The name is read from its second character on. -/
theorem printField_names : printField (fieldsText c more) "\"Names\":[\"" 11 "    "
    = shownName (cstr c.name) ++ "    ".toList := by
  have hneedle : "\"Names\":[\"".toList
      = '"' :: ("Names".toList ++ '"' :: ':' :: ("[".toList ++ ['"'])) := by decide
  have hlen : "\"Names\":[\"".toList.length = 10 := by decide
  have hfound := strstr_quotedField h (by decide) (by simp [containerFields, Field.key]) hneedle
    (containerFields_split c 1) more
  rw [printField, hfound]
  simp only
  rw [← List.drop_drop (i := 1) (j := 10), List.drop_left' hlen]
  have hname := h.name
  cases hcases : cstr c.name with
  | nil =>
    -- the closing quote is skipped, and the next one opens the next key
    rw [List.nil_append, List.drop_one, List.tail_cons, List.flatMap_cons, Field.text,
      List.cons_append, List.cons_append, printUntil_of_append (by decide)]
    rfl
  | cons n shown =>
    rw [hcases] at hname
    rw [List.cons_append, List.drop_one, List.tail_cons,
      printUntil_of_append (fun hm => hname (List.mem_cons_of_mem n hm))]
    rfl

theorem printNumber_created : printNumber (fieldsText c more) "\"Created\":" 10 "    "
    = cstr c.created ++ "    ".toList := by
  have hneedle : "\"Created\":".toList = '"' :: ("Created".toList ++ '"' :: ':' :: []) := by decide
  have hword : KeyWord "Created".toList := by decide
  have hfound := strstr_fieldsText h hword (by simp [containerFields, Field.key])
    (containerFields_split c 4) rfl List.nil_prefix more
  have hcomma : ',' ∉ cstr c.created := h.not_mem_created (by decide)
  have hdrop : ∀ rest, ((Field.bare "Created".toList (cstr c.created) ",".toList).text
      ++ rest).drop 10 = cstr c.created ++ ',' :: rest := by
    intro rest
    have htext : (Field.bare "Created".toList (cstr c.created) ",".toList).text ++ rest
        = "\"Created\":".toList ++ (cstr c.created ++ ',' :: rest) := by
      rw [hneedle]
      simp [Field.text, Field.key, Field.content]
    rw [htext, List.drop_left' (by decide)]
  rw [printNumber, hneedle, hfound]
  simp only
  rw [hdrop, if_pos (by rw [strchr_of_append hcomma]; rfl), printUntil_of_append hcomma]

/-- The row that is printed. -/
theorem printContainersJson_fieldsText : printContainersJson (fieldsText c more)
    = containerHeadings ++ containerRow c (shownName (cstr c.name)) := by
  have hid : printField (fieldsText c more) "\"Id\":\"" 6 "    " = cstr c.id ++ "    ".toList :=
    printField_eq h (by decide) (by simp) (by decide) (containerFields_split c 0) h.id more
      (by decide) _
  have himage : printField (fieldsText c more) "\"Image\":\"" 9 "    "
      = cstr c.image ++ "    ".toList :=
    printField_eq h (by decide) (by simp [containerFields, Field.key]) (by decide)
      (containerFields_split c 2) h.image more (by decide) _
  have hcommand : printField (fieldsText c more) "\"Command\":\"" 11 "    "
      = cstr c.command ++ "    ".toList :=
    printField_eq h (by decide) (by simp [containerFields, Field.key]) (by decide)
      (containerFields_split c 3) h.command more (by decide) _
  have hstatus : printField (fieldsText c more) "\"Status\":\"" 10 "\n"
      = statusText c ++ "\n".toList :=
    printField_eq h (by decide) (by simp [containerFields, Field.key]) (by decide)
      (containerFields_split c 5) (not_mem_statusText c) more (by decide) _
  rw [printContainersJson, hid, printField_names h, himage, hcommand, printNumber_created h,
    hstatus, containerRow]
  simp only [List.append_assoc]

end Row

/-! ## 5. The round trip -/

/-- A list that is answered: the text it is answered with. -/
theorem handleList_body {σ α : Type} {list : σ → Option (List α) × σ} {entry : α → List Char}
    (hentry : ∀ x, NulFree (entry x)) (failure : String) (response : HttpResponse) {s s' : σ}
    {items : List α} (hlist : list s = (some items, s'))
    (hfits : (listText entry items).length < 4096) :
    ∃ answer, handleList list entry failure response s = some (0, answer, s') ∧
      cstr answer.body = listText entry items := by
  obtain ⟨json, hjson, htext⟩ := listJson_of_lt hentry hfits
  refine ⟨createHttpResponse response 200 "OK".toList (cstr json), ?_, ?_⟩
  · rw [handleList, hlist]
    simp only [hjson, Option.bind_eq_bind, Option.bind_some]
  · have hshort : (cstr json).length < MAX_RESPONSE_SIZE - 1 := by
      rw [htext]
      exact hfits.trans (by decide)
    rw [createHttpResponse, cstr_strncpy_of_lt (nulFree_cstr json) hshort, htext]

theorem handleContainerList_body {σ : Type} (backend : Backend σ) (request : HttpRequest)
    (response : HttpResponse) {s s' : σ} {items : List ContainerSummary}
    (hlist : backend.listContainers s = (some items, s'))
    (hfits : (listText containerJson items).length < 4096) :
    ∃ answer, handleContainerList backend request response s = some (0, answer, s') ∧
      cstr answer.body = listText containerJson items :=
  handleList_body nulFree_containerJson _ response hlist hfits

/-- A list whose text can be built and read: no quotes, numbers where
numbers are, every entry and the whole within their arrays. -/
structure Encodable (items : List ContainerSummary) : Prop where
  printable : ∀ c ∈ items, Printable c
  entries : ∀ c ∈ items, (containerEntry c).length < 512
  whole : (listText containerJson items).length < 4096

/-- The headings are followed by one row for each container, with its own
values. -/
def PrintsEach {σ : Type} (items : List ContainerSummary)
    (outcome : Option (Int × HttpResponse × σ)) : Prop :=
  ∃ result answer s, outcome = some (result, answer, s) ∧
    printContainersJson (cstr answer.body)
      = containerHeadings ++ items.flatMap fun c => containerRow c (cstr c.name)

theorem printsEach_some {σ : Type} (items : List ContainerSummary) (result : Int)
    (answer : HttpResponse) (s : σ) : PrintsEach items (some (result, answer, s)) ↔
      printContainersJson (cstr answer.body)
        = containerHeadings ++ items.flatMap fun c => containerRow c (cstr c.name) := by
  simp [PrintsEach]

theorem length_containerRow (c : ContainerSummary) (name : List Char) :
    (containerRow c name).length = (containerRow c []).length + name.length := by
  simp only [containerRow, List.length_append, List.length_nil]
  omega

/-- The separators alone. -/
theorem four_le_length_containerRow (c : ContainerSummary) (name : List Char) :
    4 ≤ (containerRow c name).length := by
  have hgap : "    ".toList.length = 4 := by decide
  simp only [containerRow, List.length_append, hgap]
  omega

/-- The row of a container never is its own, and never that of several. -/
theorem shown_row_ne (c : ContainerSummary) (cs : List ContainerSummary) :
    containerRow c (shownName (cstr c.name))
      ≠ (c :: cs).flatMap fun c => containerRow c (cstr c.name) := by
  intro h
  have hlen := congrArg List.length h
  rw [List.flatMap_cons, List.length_append, length_containerRow,
    length_containerRow c (cstr c.name)] at hlen
  have hrest : cs = [] ∨ 4 ≤ (cs.flatMap fun c => containerRow c (cstr c.name)).length := by
    cases cs with
    | nil => exact Or.inl rfl
    | cons d ds =>
      have hrow := four_le_length_containerRow d (cstr d.name)
      rw [List.flatMap_cons, List.length_append]
      exact Or.inr (by omega)
  have hempty : "],".toList.length = 2 := by decide
  cases hname : cstr c.name with
  | nil =>
    rw [hname, shownName, hempty] at hlen
    rcases hrest with rfl | hrest
    · simp at hlen
    · simp only [List.length_nil] at hlen
      omega
  | cons n shown =>
    rw [hname, shownName, List.length_cons] at hlen
    omega

/-- What is printed of a list that is not empty: the first container, with
the shown name. -/
theorem printContainersJson_listText {c : ContainerSummary} {cs : List ContainerSummary}
    (h : Encodable (c :: cs)) : printContainersJson (listText containerJson (c :: cs))
      = containerHeadings ++ containerRow c (shownName (cstr c.name)) := by
  obtain ⟨more, hmore⟩ := listText_cons (h.entries c (by simp)) cs
  rw [hmore]
  exact printContainersJson_fieldsText (h.printable c (by simp)) more

theorem printContainersJson_nil :
    printContainersJson (listText containerJson []) = containerHeadings := by
  decide +kernel

/-- The round trip succeeds for the empty list and for no other. -/
theorem container_listing_round_trip_iff {σ : Type} (backend : Backend σ) (request : HttpRequest)
    (response : HttpResponse) {s s' : σ} {items : List ContainerSummary}
    (hlist : backend.listContainers s = (some items, s')) (h : Encodable items) :
    PrintsEach items (handleContainerList backend request response s) ↔ items = [] := by
  obtain ⟨answer, hanswer, hbody⟩ := handleContainerList_body backend request response hlist
    h.whole
  rw [hanswer, printsEach_some, hbody]
  cases items with
  | nil => simp [printContainersJson_nil]
  | cons c cs =>
    rw [printContainersJson_listText h]
    refine iff_of_false (fun hown => ?_) (List.cons_ne_nil c cs)
    exact shown_row_ne c cs (List.append_cancel_left hown)

/-! ## 6. A list of one -/

def webSummary : ContainerSummary where
  id := "cont_65a3c1f100000000".toList
  name := "web".toList
  image := "ubuntu".toList
  command := "bash".toList
  created := "1705230833".toList
  state := ContainerState.running.code

/-- A store that lists these containers. -/
def listing (items : List ContainerSummary) : Backend Unit :=
  { willingBackend with listContainers := fun s => (some items, s) }

theorem encodable_web : Encodable [webSummary] where
  printable := by
    rw [List.forall_mem_singleton]
    exact ⟨by decide +kernel, by decide +kernel, by decide, by decide,
      by decide⟩
  entries := by decide +kernel
  whole := by decide +kernel

theorem empty_list_printed :
    PrintsEach [] (handleContainerList (listing []) emptyRequest emptyResponse ()) ∧
    ¬ PrintsEach [webSummary]
      (handleContainerList (listing [webSummary]) emptyRequest emptyResponse ()) := by
  have hempty : Encodable [] := ⟨by simp, by simp, by decide⟩
  exact ⟨(container_listing_round_trip_iff (listing []) emptyRequest emptyResponse rfl
      hempty).mpr rfl,
    fun h => absurd ((container_listing_round_trip_iff (listing [webSummary]) emptyRequest
      emptyResponse rfl encodable_web).mp h) (List.cons_ne_nil _ _)⟩

/-- The container `web` is shown as `eb`. -/
theorem web_printed_wrong : Encodable [webSummary] ∧
    (∃ answer, handleContainerList (listing [webSummary]) emptyRequest emptyResponse ()
        = some (0, answer, ()) ∧
      printContainersJson (cstr answer.body) = containerHeadings
        ++ "cont_65a3c1f100000000    eb    ubuntu    bash    1705230833    running\n".toList) ∧
    ¬ PrintsEach [webSummary]
      (handleContainerList (listing [webSummary]) emptyRequest emptyResponse ()) := by
  have hprinted := printContainersJson_listText encodable_web
  have hrow : containerRow webSummary (shownName (cstr webSummary.name))
      = "cont_65a3c1f100000000    eb    ubuntu    bash    1705230833    running\n".toList := by
    decide
  obtain ⟨answer, hanswer, hbody⟩ := handleContainerList_body (listing [webSummary])
    emptyRequest emptyResponse rfl encodable_web.whole
  refine ⟨encodable_web, ⟨answer, hanswer, by rw [hbody, hprinted, hrow]⟩, ?_⟩
  rw [hanswer, printsEach_some, hbody, hprinted]
  exact fun hown => shown_row_ne webSummary [] (List.append_cancel_left hown)

end DockerClone.Client
