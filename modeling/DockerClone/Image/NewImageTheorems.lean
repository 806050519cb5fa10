/-
DockerClone.Image.NewImageTheorems — what the text of a created image
assigns when it is read.

The id, the time and the size of a new image are the program's own words:
each stands whole on its line, so each comes back whatever memory it is
read into. The name and the tag are the caller's. A newline in one of them
starts a line of its own, and the reader takes such a line for a field if
it looks like one; all that these two strings assign is in `given`.

Nothing else the text assigns can leave its array, so reading the record
stays inside the struct exactly when what is given does
(`textFits_newImage`). A name and a tag of one line each give at most
themselves.
-/
import DockerClone.Image.CreateTheorems
import DockerClone.Image.RoundTripTheorems

namespace DockerClone.Image

open DockerClone.CLib DockerClone.Metadata

/-! ## 1. Plain strings -/

/-- A string that is printed on one line, uncut, and scanned whole. -/
structure PlainValue (v : List Char) : Prop where
  quote : '"' ∉ v
  newline : '\n' ∉ v
  short : v.length ≤ 990

theorem PlainValue.nil : PlainValue [] := ⟨by simp, by simp, by simp⟩

theorem PlainValue.take {v : List Char} (h : PlainValue v) (n : Nat) : PlainValue (v.take n) where
  quote := fun hm => h.quote (List.mem_of_mem_take hm)
  newline := fun hm => h.newline (List.mem_of_mem_take hm)
  short := (List.length_take_le' n v).trans h.short

theorem PlainValue.quoteFree {v : List Char} (h : PlainValue v) (hnul : NulFree v) (key : Key) :
    (Entry.text key v).QuoteFree :=
  ⟨h.quote, hnul⟩

theorem onePiece_of_short {v : List Char} (hnewline : '\n' ∉ v) (hshort : v.length ≤ 990)
    {key : Key} (hkey : key.name.toList.length ≤ 20) : (Entry.text key v).OnePiece 1024 := by
  refine ⟨hnewline, ?_⟩
  simp only [textLine_chars, List.length_cons, List.length_append, List.length_nil]
  omega

/-- The lines behind the entries print plain strings on lines of their
own. -/
theorem restPlain_of_values {image : ImageInfo} (h : ∀ v ∈ restValues image, PlainValue v) :
    RestPlain image where
  ids := fun _ hlayer => (h _ (List.mem_append_right _ (List.mem_map_of_mem hlayer))).quote
  newline := fun v hv => (h v hv).newline
  short := by
    intro w hw
    have hline : ∀ {a v b : List Char}, a.length + b.length ≤ 30 → PlainValue v →
        (a ++ v ++ b).length + 1 < 1024 := by
      intro a v b hfixed hv
      have hshort := hv.short
      simp only [List.length_append]
      omega
    simp only [restValues, List.mem_append, List.mem_cons, List.not_mem_nil, or_false,
      List.mem_map, or_imp, forall_and, forall_eq, forall_exists_index,
      and_imp, forall_apply_eq_imp_iff₂] at h
    obtain ⟨⟨hcommand, hworkdir, henv, hports, hvolumes⟩, hlayers⟩ := h
    simp only [restLines, configLines, List.mem_append, List.mem_cons, List.not_mem_nil,
      or_false] at hw
    rcases hw with ((rfl | rfl | rfl | rfl | rfl | rfl | rfl) | rfl | hw) | rfl | rfl
    · decide
    · exact hline (by decide) hcommand
    · exact hline (by decide) hworkdir
    · exact hline (by decide) henv
    · exact hline (by decide) hports
    · exact hline (by decide) hvolumes
    · decide
    · decide
    · obtain ⟨layer, hlayer, comma, rfl⟩ := mem_layerIdLines hw
      refine hline ?_ (hlayers layer hlayer)
      cases comma <;> decide
    · decide
    · decide

/-- No key is tested before the id. -/
theorem unshadowed_id (v : List Char) : ¬ Shadowed imageSlots "id" v := by
  rintro ⟨s, hs, -⟩
  simp [earlier, imageSlots, Slot.key] at hs

/-! ## 2. Numerals and clock words -/

/-- Numerals are plain, and no key of the reader. -/
theorem plain_numeral (n : Int) : PlainValue (snprintf 32 (renderInt n)) where
  quote := fun hm => not_mem_renderInt (by decide) (by decide) n (List.mem_of_mem_take hm)
  newline := fun hm => not_mem_renderInt (by decide) (by decide) n (List.mem_of_mem_take hm)
  short := (List.length_take_le _ _).trans (by decide)

theorem nulFree_numeral (n : Int) : NulFree (snprintf 32 (renderInt n)) :=
  (nulFree_renderInt n).take _

theorem numeral_ne_nil (n : Int) : snprintf 32 (renderInt n) ≠ [] := by
  obtain ⟨c, rest, hn⟩ := List.exists_cons_of_ne_nil (renderInt_ne_nil n)
  rw [snprintf, hn]
  simp

theorem unshadowed_numeral {key : String} (n : Int) :
    ¬ Shadowed imageSlots key (snprintf 32 (renderInt n)) := by
  rintro ⟨s, hs, hname⟩
  have hslot : s ∈ imageSlots := List.takeWhile_subset _ hs
  have hchars : ∀ c ∈ s.key.name.toList, c.isDigit = true ∨ c = '-' := by
    intro c hc
    rw [hname] at hc
    exact (mem_renderInt (List.mem_of_mem_take hc)).symm
  simp only [imageSlots, List.mem_cons, List.not_mem_nil, or_false] at hslot
  obtain rfl | rfl | rfl | rfl | rfl := hslot
  all_goals exact absurd hchars (by decide)

theorem cstr_numeral (array : List Char) (n : Int) :
    cstr (printed 32 array (renderInt n)) = snprintf 32 (renderInt n) :=
  cstr_store (nulFree_numeral n) array

theorem plain_generated {word : List Char} (hword : '"' ∉ word ∧ '\n' ∉ word ∧ word.length ≤ 9)
    (now : Int64) : PlainValue (clockText word now) where
  quote := fun hm => (mem_clockText hm).elim hword.1 (by decide)
  newline := fun hm => (mem_clockText hm).elim hword.2.1 (by decide)
  short := by
    have hshort := hword.2.2
    rw [length_clockText]
    omega

/-! ## 3. The program's lines and the caller's -/

/-- The lines in front of the name and the tag. -/
def frontEntries (image : ImageInfo) : List Entry :=
  [.brace '{', .text { name := "id" } (cstr image.id)]

/-- The lines of the name and the tag. -/
def givenEntries (image : ImageInfo) : List Entry :=
  [.text { name := "name" } (cstr image.name), .text { name := "tag" } (cstr image.tag)]

/-- The lines behind them. -/
def backEntries (image : ImageInfo) : List Entry :=
  [ .text { name := "parent" } (cstr image.parentId),
    .text { name := "created" } (cstr image.created),
    .text { name := "size" } (cstr image.size),
    .text { name := "architecture" } (cstr image.architecture),
    .text { name := "os" } (cstr image.os),
    .text { name := "author" } (cstr image.author),
    .text { name := "comment" } (cstr image.comment) ]

theorem imageEntries_split (image : ImageInfo) :
    imageEntries image = frontEntries image ++ givenEntries image ++ backEntries image := rfl

/-- The text the name and the tag stand in. -/
def givenText (image : ImageInfo) : List Char := entriesText (givenEntries image)

/-- What this text assigns to a field, in order. -/
def given (image : ImageInfo) (key : Key) : List (List Char) :=
  assigned imageSlots key 1024 (givenText image)

/-- The program's own strings are printed whole and fit their arrays. -/
structure OwnWords (image : ImageInfo) : Prop where
  entries : ∀ e ∈ frontEntries image ++ backEntries image, e.ReadWhole imageSlots 1024
  rest : RestPlain image
  id : (cstr image.id).length < MAX_IMAGE_ID_LEN
  created : (cstr image.created).length < 32
  size : (cstr image.size).length < 32

section OwnWords

variable {image : ImageInfo} (h : OwnWords image)

include h

/-- The text assigns the program's strings and what is given. -/
theorem OwnWords.assigned_imageText {key : Key} {get : ImageInfo → List Char}
    {set : ImageInfo → List Char → ImageInfo} (hs : Slot.text key get set ∈ imageSlots) :
    assigned imageSlots key 1024 (imageText image)
      = (frontEntries image).flatMap (fun e => e.valueFor key) ++ given image key
        ++ (backEntries image).flatMap (fun e => e.valueFor key) := by
  have hown : ∀ es : List Entry, (∀ e ∈ es, e ∈ frontEntries image ++ backEntries image) →
      es.flatMap (fun e => assigned imageSlots key 1024 e.line)
        = es.flatMap (fun e => e.valueFor key) := by
    intro es hes
    refine List.flatMap_congr fun e he => ?_
    exact (h.entries e (hes e he)).assigned_line lawful_imageSlots hs
  rw [Image.assigned_imageText h.rest key ⟨_, hs, rfl⟩, imageEntries_split, assigned_entriesText,
    List.flatMap_append, List.flatMap_append,
    hown _ fun e he => List.mem_append_left _ he, hown _ fun e he => List.mem_append_right _ he,
    given, givenText, assigned_entriesText]

theorem OwnWords.assigned_id : assigned imageSlots { name := "id" } 1024 (imageText image)
    = cstr image.id :: given image { name := "id" } := by
  rw [h.assigned_imageText (List.getElem_mem (by decide) : imageSlots[0] ∈ imageSlots)]
  simp [frontEntries, backEntries, Entry.valueFor]

theorem OwnWords.assigned_name : assigned imageSlots { name := "name" } 1024 (imageText image)
    = given image { name := "name" } := by
  rw [h.assigned_imageText (List.getElem_mem (by decide) : imageSlots[1] ∈ imageSlots)]
  simp [frontEntries, backEntries, Entry.valueFor]

theorem OwnWords.assigned_tag : assigned imageSlots { name := "tag" } 1024 (imageText image)
    = given image { name := "tag" } := by
  rw [h.assigned_imageText (List.getElem_mem (by decide) : imageSlots[2] ∈ imageSlots)]
  simp [frontEntries, backEntries, Entry.valueFor]

theorem OwnWords.assigned_created :
    assigned imageSlots { name := "created" } 1024 (imageText image)
      = given image { name := "created" } ++ [cstr image.created] := by
  rw [h.assigned_imageText (List.getElem_mem (by decide) : imageSlots[3] ∈ imageSlots)]
  simp [frontEntries, backEntries, Entry.valueFor]

theorem OwnWords.assigned_size : assigned imageSlots { name := "size" } 1024 (imageText image)
    = given image { name := "size" } ++ [cstr image.size] := by
  rw [h.assigned_imageText (List.getElem_mem (by decide) : imageSlots[4] ∈ imageSlots)]
  simp [frontEntries, backEntries, Entry.valueFor]

/-- The record is read inside the struct exactly when what is given fits. -/
theorem OwnWords.textFits_iff : TextFits (imageText image) ↔ TextFits (givenText image) := by
  have hgiven : ∀ key, assigned imageSlots key 1024 (givenText image) = given image key :=
    fun _ => rfl
  unfold TextFits Fits
  simp only [imageArrays, List.forall_mem_cons, List.not_mem_nil, false_imp_iff, implies_true,
    and_true, h.assigned_id, h.assigned_name, h.assigned_tag, h.assigned_created, h.assigned_size,
    List.forall_mem_append, hgiven, h.id, h.created, h.size, true_and]

end OwnWords

/-- Without a newline in them the name and the tag bring no other field,
and nothing longer than they are. -/
theorem given_of_oneLine {image : ImageInfo} (hname : '\n' ∉ cstr image.name)
    (htag : '\n' ∉ cstr image.tag) (hnameLen : (cstr image.name).length < MAX_IMAGE_NAME_LEN)
    (htagLen : (cstr image.tag).length < MAX_IMAGE_TAG_LEN) :
    TextFits (givenText image) ∧ given image { name := "id" } = [] := by
  have hline : ∀ key v, v ∈ given image key →
      (key.name = "name" ∧ v.length < MAX_IMAGE_NAME_LEN) ∨
        (key.name = "tag" ∧ v.length < MAX_IMAGE_TAG_LEN) := by
    intro key v hv
    rw [given, givenText, assigned_entriesText, givenEntries, List.flatMap_cons,
      List.flatMap_cons, List.flatMap_nil, List.append_nil] at hv
    rcases List.mem_append.mp hv with hv | hv
    · obtain ⟨rfl, hpre⟩ := mem_assigned_oneLine (onePiece_of_short hname
        (hnameLen.le.trans (by decide)) (by decide)) (nulFree_cstr _) hv
      exact Or.inl ⟨rfl, hpre.length_le.trans_lt hnameLen⟩
    · obtain ⟨rfl, hpre⟩ := mem_assigned_oneLine (onePiece_of_short htag
        (htagLen.le.trans (by decide)) (by decide)) (nulFree_cstr _) hv
      exact Or.inr ⟨rfl, hpre.length_le.trans_lt htagLen⟩
  constructor
  · intro array harray v hv
    simp only [imageArrays, List.mem_cons, List.not_mem_nil, or_false] at harray
    rcases harray with rfl | rfl | rfl | rfl | rfl <;>
      rcases hline _ v hv with ⟨hkey, hlen⟩ | ⟨hkey, hlen⟩ <;> simp_all
  · refine List.eq_nil_iff_forall_not_mem.mpr fun v hv => ?_
    rcases hline _ v hv with ⟨hkey, -⟩ | ⟨hkey, -⟩ <;> simp at hkey

/-! ## 4. A new image -/

section NewImage

variable (name : List Char) (tag : Option (List Char)) (env : CreateEnv) (layer : LayerInfo)

theorem cstr_id_newImage :
    cstr (newImage name tag env layer).id = clockText "sha256:".toList env.imageAt :=
  (cstr_store (nulFree_generateImageId _) _).trans (generateImageId_eq _)

theorem cstr_created_newImage : cstr (newImage name tag env layer).created
    = snprintf 32 (renderInt env.createdAt.toInt) := cstr_numeral _ _

theorem cstr_size_newImage : cstr (newImage name tag env layer).size
    = snprintf 32 (renderInt env.size.toInt) := cstr_numeral _ _

/-- Neither the parent nor the comment is set, and the three words are
constants. -/
theorem cstr_unread_newImage : cstr (newImage name tag env layer).parentId = [] ∧
    cstr (newImage name tag env layer).architecture = "amd64".toList ∧
    cstr (newImage name tag env layer).os = "linux".toList ∧
    cstr (newImage name tag env layer).author = "docker-clone".toList ∧
    cstr (newImage name tag env layer).comment = [] :=
  ⟨cstr_zeros _, cstr_store (by decide) _, cstr_store (by decide) _, cstr_store (by decide) _,
    cstr_zeros _⟩

theorem restValues_newImage : restValues (newImage name tag env layer)
    = [[], [], [], [], [], clockText "layer_".toList env.layerAt] := by
  have hlayer : cstr (strcpy layer.id (generateLayerId env.layerAt))
      = clockText "layer_".toList env.layerAt :=
    (cstr_store (nulFree_generateLayerId _) _).trans (generateLayerId_eq _)
  rw [← hlayer]
  simp [restValues, newImage, ImageInfo.zeroed]

theorem plain_restValues_newImage :
    ∀ v ∈ restValues (newImage name tag env layer), PlainValue v := by
  simp only [restValues_newImage, List.forall_mem_cons, List.not_mem_nil, false_imp_iff,
    implies_true, and_true]
  exact ⟨.nil, .nil, .nil, .nil, .nil, plain_generated (by decide) _⟩

/-- A line of a plain string that its slot, if it has one, takes whole. -/
theorem PlainValue.readWhole {key : Key} {field : List Char} (h : PlainValue (cstr field))
    (hkey : key.name.toList.length ≤ 20) (hown : (∀ s ∈ imageSlots, s.key.name ≠ key.name) ∨
      (cstr field ≠ [] ∧ ¬ Shadowed imageSlots key.name (cstr field))) :
    (Entry.text key (cstr field)).ReadWhole imageSlots 1024 where
  quote := h.quoteFree (nulFree_cstr _) _
  piece := onePiece_of_short h.newline h.short hkey
  own := by
    intro s hs v hv
    obtain ⟨rfl, rfl⟩ := Entry.text.inj hv
    exact hown.resolve_left fun hnone => hnone s hs rfl

theorem ownWords_newImage : OwnWords (newImage name tag env layer) := by
  obtain ⟨hparent, harch, hos, hauthor, hcomment⟩ := cstr_unread_newImage name tag env layer
  have hid := cstr_id_newImage name tag env layer
  have hcreated := cstr_created_newImage name tag env layer
  have hsize := cstr_size_newImage name tag env layer
  have hconst : ∀ {v : List Char}, '"' ∉ v ∧ '\n' ∉ v ∧ v.length ≤ 990 → PlainValue v :=
    fun hv => ⟨hv.1, hv.2.1, hv.2.2⟩
  have hclock : clockText "sha256:".toList env.imageAt ≠ [] :=
    List.ne_nil_of_length_pos (by rw [length_clockText]; omega)
  refine ⟨?_, restPlain_of_values (plain_restValues_newImage name tag env layer), ?_, ?_, ?_⟩
  · simp only [frontEntries, backEntries, List.cons_append, List.nil_append,
      List.forall_mem_cons, List.not_mem_nil, false_imp_iff, implies_true, and_true]
    refine ⟨⟨⟨by decide, by decide⟩, trivial, by simp⟩, ?_, ?_, ?_, ?_, ?_, ?_, ?_, ?_⟩
    · exact (hid ▸ plain_generated (by decide) _ : PlainValue _).readWhole (by decide)
        (Or.inr ⟨by rw [hid]; exact hclock, unshadowed_id _⟩)
    · exact (hparent ▸ .nil : PlainValue _).readWhole (by decide) (Or.inl (by decide))
    · exact (hcreated ▸ plain_numeral _ : PlainValue _).readWhole (by decide)
        (Or.inr (by rw [hcreated]; exact ⟨numeral_ne_nil _, unshadowed_numeral _⟩))
    · exact (hsize ▸ plain_numeral _ : PlainValue _).readWhole (by decide)
        (Or.inr (by rw [hsize]; exact ⟨numeral_ne_nil _, unshadowed_numeral _⟩))
    · exact (hconst (by rw [harch]; decide)).readWhole (by decide) (Or.inl (by decide))
    · exact (hconst (by rw [hos]; decide)).readWhole (by decide) (Or.inl (by decide))
    · exact (hconst (by rw [hauthor]; decide)).readWhole (by decide) (Or.inl (by decide))
    · exact (hcomment ▸ .nil : PlainValue _).readWhole (by decide) (Or.inl (by decide))
  · rw [hid, length_clockText]
    decide
  · rw [hcreated]
    exact (List.length_take_le _ _).trans_lt (by decide)
  · rw [hsize]
    exact (List.length_take_le _ _).trans_lt (by decide)

end NewImage

end DockerClone.Image
