/-
DockerClone.Client.ImagePrintTheorems — what `print_images_json` shows of
the text `handle_image_list` builds.

As for containers, every key is found in the first entry, so that one row
is printed however long the list is. Two more things happen to that row.
Name and tag share a string and are parted at its FIRST colon, and the
size, which ends an entry, is read up to the next comma: in a list of one
there is none and the closing brace ends it, in a longer list the comma
between two entries does, and the brace is printed with the size.
-/
import DockerClone.Client.PrintTheorems

namespace DockerClone.Client

open DockerClone.CLib DockerClone.Container DockerClone.Http

/-! ## 1. The text of an entry -/

/-- Name and tag as they are joined. -/
def repoTag (i : ImageSummary) : List Char := cstr i.name ++ ':' :: cstr i.tag

/-- The fields of an entry, in order. -/
def imageFields (i : ImageSummary) : List Field :=
  [ .quoted "Id".toList [] (cstr i.id) ",".toList,
    .quoted "RepoTags".toList "[".toList (repoTag i) "],".toList,
    .bare "Created".toList (cstr i.created) ",".toList,
    .bare "Size".toList (cstr i.size) "\x7d".toList ]

/-- The text of an entry before it is cut to its array. -/
def imageEntry (i : ImageSummary) : List Char :=
  '{' :: (imageFields i).flatMap Field.text

theorem imageJson_eq (i : ImageSummary) : imageJson i = snprintf 512 (imageEntry i) := by
  have hid : "\x7b\"Id\":\"".toList = '{' :: '"' :: ("Id".toList ++ '"' :: ':' :: ['"']) := by decide
  have hrepo : "\",\"RepoTags\":[\"".toList
      = '"' :: (",".toList ++ '"' :: ("RepoTags".toList ++ '"' :: ':' :: ("[".toList ++ ['"']))) := by
    decide
  have hcolon : ":".toList = [':'] := by decide
  have hcreated : "\"],\"Created\":".toList
      = '"' :: ("],".toList ++ '"' :: ("Created".toList ++ ['"', ':'])) := by decide
  have hsize : ",\"Size\":".toList = ",".toList ++ '"' :: ("Size".toList ++ ['"', ':']) := by decide
  unfold imageJson Http.imageText
  rw [hid, hrepo, hcolon, hcreated, hsize]
  congr 1
  simp only [imageEntry, imageFields, repoTag, Field.text, Field.key, Field.content,
    List.flatMap_cons, List.flatMap_nil, List.append_assoc, List.cons_append, List.nil_append,
    List.append_nil]

/-- An image whose strings hold no quote, whose tag holds no colon and
whose two numbers are numbers. -/
structure PrintableImage (i : ImageSummary) : Prop where
  id : '"' ∉ cstr i.id
  name : '"' ∉ cstr i.name
  tag : '"' ∉ cstr i.tag
  tagPlain : ':' ∉ cstr i.tag
  created : ∀ d ∈ cstr i.created, d.isDigit = true
  size : ∀ d ∈ cstr i.size, d.isDigit = true

/-- A character that no numeral holds. -/
theorem not_mem_digits {w : List Char} (h : ∀ d ∈ w, d.isDigit = true) {c : Char}
    (hc : c.isDigit = false) : c ∉ w := by
  intro hm
  rw [h c hm] at hc
  simp at hc

theorem PrintableImage.repoTag {i : ImageSummary} (h : PrintableImage i) : '"' ∉ repoTag i := by
  have hname := h.name
  have htag := h.tag
  simp [Client.repoTag, hname, htag]

theorem sound_imageFields {i : ImageSummary} (h : PrintableImage i) :
    ∀ f ∈ imageFields i, f.Sound := by
  have hid := h.id
  have hrepo := h.repoTag
  have hcreated : '"' ∉ cstr i.created := not_mem_digits h.created (by decide)
  have hsize : '"' ∉ cstr i.size := not_mem_digits h.size (by decide)
  simp only [imageFields, List.forall_mem_cons, Field.Sound]
  refine ⟨?_, ?_, ?_, ?_, by simp⟩
  · exact ⟨by decide, by decide, hid, by decide, ',', rfl, by simp⟩
  · exact ⟨by decide, by decide, hrepo, by decide, ']', rfl, by simp⟩
  · exact ⟨by decide, hcreated, by decide⟩
  · exact ⟨by decide, hsize, by decide⟩

/-- What follows the first entry. -/
def afterFirst : List ImageSummary → List Char
  | [] => "]".toList
  | j :: js => ',' :: ((",".toList).intercalate ((j :: js).map imageJson) ++ "]".toList)

/-- The reply for a list that is not empty. -/
theorem listText_image_cons {i : ImageSummary} (hfits : (imageEntry i).length < 512)
    (is : List ImageSummary) : listText imageJson (i :: is)
      = ['[', '{'] ++ ((imageFields i).flatMap Field.text ++ afterFirst is) := by
  have hopen : "[".toList = ['['] := by decide
  have hcomma : ",".toList = [','] := by decide
  rw [listText, List.map_cons, imageJson_eq, snprintf_of_lt hfits, imageEntry, hopen]
  cases is with
  | nil => simp [afterFirst]
  | cons j js =>
    rw [List.map_cons, List.intercalate_cons_cons]
    simp [afterFirst, hcomma]

/-! ## 2. The values -/

section Values

variable {i : ImageSummary} (h : PrintableImage i) (more : List Char)

include h

/-- Name and tag are found together. -/
theorem strstr_repoTags : ∃ rest,
    strstr (['[', '{'] ++ ((imageFields i).flatMap Field.text ++ more)) "\"RepoTags\":[\"".toList
      = some ("\"RepoTags\":[\"".toList ++ (repoTag i ++ '"' :: rest)) := by
  have hneedle : "\"RepoTags\":[\"".toList
      = '"' :: ("RepoTags".toList ++ '"' :: ':' :: ("[".toList ++ ['"'])) := by decide
  have hfields : imageFields i = (imageFields i).take 1 ++ .quoted "RepoTags".toList "[".toList
      (repoTag i) "],".toList :: (imageFields i).drop 2 := rfl
  have hfound := strstr_quotedValue (by decide : '"' ∉ ['[', '{']) (sound_imageFields h)
    (by decide) (by simp [imageFields, Field.key]) hfields more
  rw [hneedle, hfound]
  exact ⟨_, rfl⟩

section Names

variable {repo tag : List Char} (hcut : repoTag i = repo ++ ':' :: tag) (hrepo : ':' ∉ repo)

include hcut hrepo

/-- The repository ends at the first colon. -/
theorem printRepo_eq : printRepo (['[', '{'] ++ ((imageFields i).flatMap Field.text ++ more))
    = repo ++ "    ".toList := by
  have hskip : "\"RepoTags\":[\"".toList.length = 13 := by decide
  obtain ⟨rest, hfound⟩ := strstr_repoTags h more
  rw [printRepo, hfound]
  simp only
  rw [List.drop_left' hskip, hcut, List.append_assoc, List.cons_append,
    printUntil_of_append hrepo]

/-- The tag is all that follows it. -/
theorem printTag_eq : printTag (['[', '{'] ++ ((imageFields i).flatMap Field.text ++ more))
    = tag ++ "    ".toList := by
  have hskip : "\"RepoTags\":[\"".toList.length = 13 := by decide
  have hquote : '"' ∉ tag := by
    intro hm
    have hall := h.repoTag
    rw [hcut] at hall
    simp [hm] at hall
  obtain ⟨rest, hfound⟩ := strstr_repoTags h more
  rw [printTag, hfound]
  simp only
  rw [List.drop_left' hskip, hcut, List.append_assoc, List.cons_append, strchr_of_append hrepo]
  simp only [List.drop_one, List.tail_cons]
  exact printUntil_of_append hquote rest _

end Names

theorem printField_imageId :
    printField (['[', '{'] ++ ((imageFields i).flatMap Field.text ++ more)) "\"Id\":\"" 6 "    "
      = cstr i.id ++ "    ".toList := by
  have hneedle : "\"Id\":\"".toList = '"' :: ("Id".toList ++ '"' :: ':' :: ([] ++ ['"'])) := by
    decide
  have hskip : "\"Id\":\"".toList.length = 6 := by decide
  have hfields : imageFields i = [] ++ .quoted "Id".toList [] (cstr i.id) ",".toList
      :: (imageFields i).drop 1 := rfl
  have hfound := strstr_quotedValue (by decide : '"' ∉ ['[', '{']) (sound_imageFields h)
    (by decide) (by simp) hfields more
  rw [← hneedle] at hfound
  rw [printField, hfound]
  simp only
  rw [List.drop_left' hskip, printUntil_of_append h.id]

theorem printNumber_imageCreated :
    printNumber (['[', '{'] ++ ((imageFields i).flatMap Field.text ++ more)) "\"Created\":" 10
      "    " = cstr i.created ++ "    ".toList := by
  have hneedle : "\"Created\":".toList = '"' :: ("Created".toList ++ ['"', ':']) := by decide
  have hskip : "\"Created\":".toList.length = 10 := by decide
  have hclosing : ",".toList = [','] := by decide
  have hcomma : ',' ∉ cstr i.created := not_mem_digits h.created (by decide)
  have hfields : imageFields i = (imageFields i).take 2 ++ .bare "Created".toList
      (cstr i.created) ",".toList :: (imageFields i).drop 3 := rfl
  have hfound := strstr_bareValue (by decide : '"' ∉ ['[', '{']) (sound_imageFields h)
    (by decide) (by simp [imageFields, Field.key]) hfields more
  rw [← hneedle] at hfound
  rw [printNumber, hfound]
  simp only
  rw [List.drop_left' hskip, hclosing, List.cons_append, List.nil_append,
    if_pos (by rw [strchr_of_append hcomma]; rfl), printUntil_of_append hcomma]

/-- The size is read up to a comma, and where none follows up to the
brace. -/
theorem printNumber_imageSize :
    printNumber (['[', '{'] ++ ((imageFields i).flatMap Field.text ++ more)) "\"Size\":" 7 "\n"
      = if (strchr more ',').isSome = true then
          printUntil (cstr i.size ++ '}' :: more) ',' "\n"
        else cstr i.size ++ "\n".toList := by
  have hneedle : "\"Size\":".toList = '"' :: ("Size".toList ++ ['"', ':']) := by decide
  have hskip : "\"Size\":".toList.length = 7 := by decide
  have hclosing : "\x7d".toList = ['}'] := by decide
  have hcomma : ',' ∉ cstr i.size ++ ['}'] := by
    have hdigits : ',' ∉ cstr i.size := not_mem_digits h.size (by decide)
    simp [hdigits]
  have hbrace : '}' ∉ cstr i.size := not_mem_digits h.size (by decide)
  have hfields : imageFields i = (imageFields i).take 3 ++ .bare "Size".toList
      (cstr i.size) "\x7d".toList :: [] := rfl
  have hfound := strstr_bareValue (by decide : '"' ∉ ['[', '{']) (sound_imageFields h)
    (by decide) (by simp [imageFields, Field.key]) hfields more
  rw [← hneedle] at hfound
  have hsearch : strchr (cstr i.size ++ '}' :: more) ',' = strchr more ',' := by
    have happend := strchr_append_of_not_mem hcomma more
    rwa [List.append_assoc] at happend
  rw [printNumber, hfound]
  simp only
  rw [List.drop_left' hskip, hclosing, List.cons_append, List.nil_append, List.flatMap_nil,
    List.nil_append, hsearch, printUntil_of_append hbrace]

end Values

/-! ## 3. The output -/

/-- One line of values. -/
def imageRow (repo tag : List Char) (i : ImageSummary) (size : List Char) : List Char :=
  repo ++ "    ".toList ++ (tag ++ "    ".toList) ++ (cstr i.id ++ "    ".toList)
    ++ (cstr i.created ++ "    ".toList) ++ (size ++ "\n".toList)

/-- The row of an image with its own values. -/
def ownRow (i : ImageSummary) : List Char :=
  imageRow (cstr i.name) (cstr i.tag) i (cstr i.size)

/-- What is shown of the size of the first image. -/
def shownSize (i : ImageSummary) (is : List ImageSummary) : List Char :=
  if is = [] then cstr i.size else cstr i.size ++ ['}']

/-- A list whose text can be built and read. -/
structure EncodableImages (items : List ImageSummary) : Prop where
  printable : ∀ i ∈ items, PrintableImage i
  entries : ∀ i ∈ items, (imageEntry i).length < 512
  whole : (listText imageJson items).length < 4096

/-- The size that is printed. -/
theorem printNumber_listText_size {i : ImageSummary} (h : PrintableImage i)
    (is : List ImageSummary) :
    printNumber (['[', '{'] ++ ((imageFields i).flatMap Field.text ++ afterFirst is)) "\"Size\":"
      7 "\n" = shownSize i is ++ "\n".toList := by
  rw [printNumber_imageSize h, shownSize]
  cases is with
  | nil =>
    have hnone : ¬ (strchr (afterFirst []) ',').isSome = true := by decide
    rw [if_neg hnone, if_pos rfl]
  | cons j js =>
    have hfirst : strchr (afterFirst (j :: js)) ',' = some (afterFirst (j :: js)) :=
      strchr_of_append (s := []) (by simp) _
    have hcomma : ',' ∉ cstr i.size ++ ['}'] := by
      have hdigits : ',' ∉ cstr i.size := not_mem_digits h.size (by decide)
      simp [hdigits]
    have hprint := printUntil_of_append hcomma
      ((",".toList).intercalate ((j :: js).map imageJson) ++ "]".toList) "\n"
    rw [hfirst, Option.isSome_some, if_pos rfl, if_neg (List.cons_ne_nil j js), ← hprint, List.append_assoc]
    rfl

/-- The one row that is printed of a list that is not empty. -/
theorem printImagesJson_listText {i : ImageSummary} {is : List ImageSummary}
    (h : EncodableImages (i :: is)) {repo tag : List Char}
    (hcut : repoTag i = repo ++ ':' :: tag) (hrepo : ':' ∉ repo) :
    printImagesJson (listText imageJson (i :: is))
      = imageHeadings ++ imageRow repo tag i (shownSize i is) := by
  have hi : PrintableImage i := h.printable i (by simp)
  rw [listText_image_cons (h.entries i (by simp)), printImagesJson,
    printRepo_eq hi _ hcut hrepo, printTag_eq hi _ hcut hrepo, printField_imageId hi,
    printNumber_imageCreated hi, printNumber_listText_size hi, imageRow]
  simp only [List.append_assoc]

theorem printImagesJson_nil :
    printImagesJson (listText imageJson []) = imageHeadings := by
  decide +kernel

theorem length_imageRow (repo tag : List Char) (i : ImageSummary) (size : List Char) :
    (imageRow repo tag i size).length
      = repo.length + tag.length + (cstr i.id).length + (cstr i.created).length + size.length
        + 17 := by
  have hgap : "    ".toList.length = 4 := by decide
  have hline : "\n".toList.length = 1 := by decide
  simp only [imageRow, List.length_append, hgap, hline]
  omega

/-- The row is the image's own where its name holds no colon and it is
the only one. -/
theorem shown_image_row_iff {i : ImageSummary} {is : List ImageSummary} {repo tag : List Char}
    (hcut : repoTag i = repo ++ ':' :: tag) (hrepo : ':' ∉ repo) :
    imageRow repo tag i (shownSize i is) = (i :: is).flatMap ownRow ↔
      is = [] ∧ ':' ∉ cstr i.name := by
  have hlen := congrArg List.length hcut
  simp only [repoTag, List.length_append, List.length_cons] at hlen
  constructor
  · intro hrow
    have hnil : is = [] := by
      cases is with
      | nil => rfl
      | cons j js =>
        -- another row is longer than the brace
        have hrows := congrArg List.length hrow
        rw [List.flatMap_cons, List.flatMap_cons, List.length_append, List.length_append, ownRow,
          ownRow, length_imageRow, length_imageRow, length_imageRow, shownSize,
          if_neg (List.cons_ne_nil j js), List.length_append, List.length_singleton] at hrows
        omega
    refine ⟨hnil, fun hcolon => ?_⟩
    subst hnil
    -- the name is longer than the repository, and where that ends it has a colon
    obtain ⟨a, b, hname, ha⟩ := List.eq_append_cons_of_mem hcolon
    obtain rfl : repo = a := by
      rw [repoTag, hname, List.append_assoc, List.cons_append] at hcut
      exact (append_sep_inj ha hrepo hcut).1.symm
    rw [List.flatMap_singleton, ownRow, hname] at hrow
    simp only [imageRow, List.append_assoc, List.cons_append] at hrow
    have hgap : "    ".toList = ' ' :: "   ".toList := by decide
    rw [hgap] at hrow
    have hhead := (List.cons.inj (List.append_cancel_left hrow)).1
    exact absurd hhead (by decide)
  · rintro ⟨rfl, hcolon⟩
    obtain ⟨rfl, rfl⟩ := append_sep_inj hcolon hrepo hcut
    rw [List.flatMap_singleton, ownRow, shownSize, if_pos rfl]

/-! ## 4. The round trip -/

/-- The headings are followed by one row for each image, with its own
values. -/
def PrintsEachImage {σ : Type} (items : List ImageSummary)
    (outcome : Option (Int × HttpResponse × σ)) : Prop :=
  ∃ result answer s, outcome = some (result, answer, s) ∧
    printImagesJson (cstr answer.body) = imageHeadings ++ items.flatMap ownRow

/-- What is printed of an answer is decided by its list. -/
theorem printsEachImage_iff {σ : Type} (backend : Backend σ) (request : HttpRequest)
    (response : HttpResponse) {s s' : σ} {items : List ImageSummary}
    (hlist : backend.listImages s = (some items, s')) (h : EncodableImages items) :
    PrintsEachImage items (handleImageList backend request response s) ↔
      printImagesJson (listText imageJson items) = imageHeadings ++ items.flatMap ownRow := by
  obtain ⟨answer, hanswer, hbody⟩ := handleList_body nulFree_imageJson
    "\x7b\"error\": \"Failed to list images\"\x7d" response hlist h.whole
  rw [PrintsEachImage, handleImageList, hanswer, ← hbody]
  simp

/-- The rows are those of a list of one image or more exactly when it is
one whose name holds no colon. -/
theorem printImagesJson_own_iff {items : List ImageSummary} (h : EncodableImages items) :
    printImagesJson (listText imageJson items) = imageHeadings ++ items.flatMap ownRow ↔
      items = [] ∨ ∃ i, items = [i] ∧ ':' ∉ cstr i.name := by
  cases items with
  | nil => simp [printImagesJson_nil]
  | cons i is =>
    have hcolon : ':' ∈ repoTag i := by simp [repoTag]
    obtain ⟨repo, tag, hcut, hrepo⟩ := List.eq_append_cons_of_mem hcolon
    rw [printImagesJson_listText h hcut hrepo, List.append_cancel_left_eq,
      shown_image_row_iff hcut hrepo]
    simp

/-- The round trip succeeds for the empty list and for a list of one image
whose name holds no colon. -/
theorem image_listing_round_trip_iff {σ : Type} (backend : Backend σ) (request : HttpRequest)
    (response : HttpResponse) {s s' : σ} {items : List ImageSummary}
    (hlist : backend.listImages s = (some items, s')) (h : EncodableImages items) :
    PrintsEachImage items (handleImageList backend request response s) ↔
      items = [] ∨ ∃ i, items = [i] ∧ ':' ∉ cstr i.name := by
  rw [printsEachImage_iff backend request response hlist h, printImagesJson_own_iff h]

/-! ## 5. One image and two -/

def ubuntuSummary : ImageSummary where
  id := "layer_65a3c1f000000000".toList
  name := "ubuntu".toList
  tag := "latest".toList
  created := "1705230832".toList
  size := "0".toList

/-- A store that lists these images. -/
def listingImages (items : List ImageSummary) : Backend Unit :=
  { willingBackend with listImages := fun s => (some items, s) }

theorem printable_ubuntu : PrintableImage ubuntuSummary :=
  ⟨by decide, by decide, by decide, by decide, by decide, by decide⟩

theorem encodable_ubuntu : EncodableImages [ubuntuSummary] where
  printable := by simpa using printable_ubuntu
  entries := by decide
  whole := by decide

theorem encodable_ubuntu_twice : EncodableImages [ubuntuSummary, ubuntuSummary] where
  printable := by simpa using printable_ubuntu
  entries := by simpa using encodable_ubuntu.entries
  whole := by
    rw [length_listText]
    decide

theorem ubuntu_printed : EncodableImages [ubuntuSummary] ∧ PrintsEachImage [ubuntuSummary]
    (handleImageList (listingImages [ubuntuSummary]) emptyRequest emptyResponse ()) :=
  ⟨encodable_ubuntu, (image_listing_round_trip_iff (listingImages [ubuntuSummary]) emptyRequest
    emptyResponse rfl encodable_ubuntu).mpr (Or.inr ⟨ubuntuSummary, rfl, by decide⟩)⟩

/-- Of two images one is printed. -/
theorem two_images_one_row : EncodableImages [ubuntuSummary, ubuntuSummary] ∧
    ¬ PrintsEachImage [ubuntuSummary, ubuntuSummary]
      (handleImageList (listingImages [ubuntuSummary, ubuntuSummary]) emptyRequest emptyResponse
        ()) := by
  refine ⟨encodable_ubuntu_twice, ?_⟩
  rw [printsEachImage_iff _ _ _ rfl encodable_ubuntu_twice,
    printImagesJson_own_iff encodable_ubuntu_twice]
  simp

end DockerClone.Client
