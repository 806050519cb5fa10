/-
DockerClone.Image.RoundTripTheorems — the round trip of an image's
metadata.

The first eleven lines are entries and fall under the codec laws. The
lines of the `config` object and of the layer list assign nothing: the
reader scans for a quoted key with a colon behind it at the start of a
line, and these lines start with a word that is no key of the reader, or
with a layer id that has no colon behind it.
-/
import DockerClone.Image.CreateTheorems

namespace DockerClone.Image

open DockerClone.CLib DockerClone.Metadata

/-! ## 1. The lines -/

/-- The lines of the `config` object, without their newlines. -/
def configLines (image : ImageInfo) : List (List Char) :=
  [ "  \"config\": \x7b".toList,
    "    \"Cmd\": [\"".toList ++ cstr image.command ++ "\"],".toList,
    "    \"WorkingDir\": \"".toList ++ cstr image.workingDir ++ "\",".toList,
    "    \"Env\": [\"".toList ++ cstr image.envVars ++ "\"],".toList,
    "    \"ExposedPorts\": \x7b\"".toList ++ cstr image.exposedPorts ++ "\": \x7b\x7d\x7d,".toList,
    "    \"Volumes\": \x7b\"".toList ++ cstr image.volumes ++ "\": \x7b\x7d\x7d".toList,
    "  \x7d,".toList ]

/-- The lines behind the entries. -/
def restLines (image : ImageInfo) : List (List Char) :=
  configLines image ++ "  \"layers\": [".toList :: layerIdLines image.layers
    ++ ["  ]".toList, "\x7d".toList]

theorem imageText_eq (image : ImageInfo) : imageText image
    = entriesText (imageEntries image) ++ (restLines image).flatMap (· ++ ['\n']) := by
  -- every line of the text with its newline taken off
  have hconfig : "  \"config\": \x7b\n".toList = "  \"config\": \x7b".toList ++ ['\n'] := by decide
  have hlist : "\"],\n".toList = "\"],".toList ++ ['\n'] := by decide
  have htext : "\",\n".toList = "\",".toList ++ ['\n'] := by decide
  have hports : "\": \x7b\x7d\x7d,\n".toList = "\": \x7b\x7d\x7d,".toList ++ ['\n'] := by decide
  have hvolumes : "\": \x7b\x7d\x7d\n".toList = "\": \x7b\x7d\x7d".toList ++ ['\n'] := by decide
  have hclose : "  \x7d,\n".toList = "  \x7d,".toList ++ ['\n'] := by decide
  have hlayers : "  \"layers\": [\n".toList = "  \"layers\": [".toList ++ ['\n'] := by decide
  have hend : "  ]\n\x7d\n".toList = "  ]".toList ++ ['\n'] ++ ("\x7d".toList ++ ['\n']) := by decide
  unfold imageText configText restLines configLines
  simp only [layerLines_eq, hconfig, hlist, htext, hports, hvolumes, hclose, hlayers, hend,
    List.flatMap_append, List.flatMap_cons, List.flatMap_nil, List.append_assoc,
    List.append_nil]

/-! ## 2. What is asked of an image -/

/-- The strings printed behind the entries. -/
def restValues (image : ImageInfo) : List (List Char) :=
  [cstr image.command, cstr image.workingDir, cstr image.envVars, cstr image.exposedPorts,
    cstr image.volumes] ++ image.layers.map (fun layer => cstr layer.id)

/-- No string holds a double quote. -/
def QuoteFree (image : ImageInfo) : Prop :=
  (∀ e ∈ imageEntries image, e.QuoteFree) ∧ ∀ v ∈ restValues image, '"' ∉ v

/-- No string holds a newline, and every line is shorter than 1024
bytes. -/
def OneLined (image : ImageInfo) : Prop :=
  (∀ e ∈ imageEntries image, e.OnePiece 1024) ∧ (∀ v ∈ restValues image, '\n' ∉ v) ∧
    ∀ w ∈ restLines image, w.length + 1 < 1024

instance (image : ImageInfo) : Decidable (QuoteFree image) := by unfold QuoteFree; infer_instance

instance (image : ImageInfo) : Decidable (OneLined image) := by unfold OneLined; infer_instance

/-! ## 3. Lines that assign nothing -/

/-- No call of the reader scans anything from the line. -/
def Idle (w : List Char) : Prop :=
  ∀ s ∈ imageSlots, scannedText (w ++ ['\n']) (textFormat s.key.name) = none

/-- Nor assigns. -/
theorem Idle.scan {w : List Char} (h : Idle w) : ∀ s ∈ imageSlots, ∀ c, s.scan (w ++ ['\n']) c = c := by
  intro s hs c
  have hnone := h s hs
  simp only [imageSlots, List.mem_cons, List.not_mem_nil, or_false] at hs
  rcases hs with rfl | rfl | rfl | rfl | rfl <;> simp only [Slot.key] at hnone <;>
    simp only [Slot.scan, hnone]

theorem idle_of_no_quote {w : List Char} (h : '"' ∉ w) : Idle w := by
  intro s _
  cases hscan : scannedText (w ++ ['\n']) (textFormat s.key.name) with
  | none => rfl
  | some v =>
    obtain ⟨ws, ws', rest, -, -, -, hline⟩ := inv_scannedText s.key.isKey hscan
    have hquote : '"' ∈ w ++ ['\n'] := by
      rw [hline]
      simp
    simp [h] at hquote

/-- A line that starts with a quoted word assigns nothing if the word is no
key of the reader or has no colon behind it. -/
theorem idle_of_word {w : List Char} (word tail : List Char) (hword : '"' ∉ word)
    (hw : w = "    \"".toList ++ (word ++ '"' :: tail) ∨ w = "  \"".toList ++ (word ++ '"' :: tail))
    (h : (∀ s ∈ imageSlots, s.key.name.toList ≠ word) ∨ (tail ++ ['\n']).head? ≠ some ':') :
    Idle w := by
  intro s hs
  cases hscan : scannedText (w ++ ['\n']) (textFormat s.key.name) with
  | none => rfl
  | some v =>
    have hkey : s.key.name.toList = word ∧ (tail ++ ['\n']).head? = some ':' := by
      rcases hw with rfl | rfl
      · rw [List.append_assoc, List.append_assoc, List.cons_append] at hscan
        exact scannedText_word s.key.isKey (by decide : ∀ c ∈ "    ".toList, isSpace c = true) hword hscan
      · rw [List.append_assoc, List.append_assoc, List.cons_append] at hscan
        exact scannedText_word s.key.isKey (by decide : ∀ c ∈ "  ".toList, isSpace c = true) hword hscan
    rcases h with h | h
    · exact absurd hkey.1 (h s hs)
    · exact absurd hkey.2 h

/-- A layer id has no colon behind it. -/
theorem idle_layerIdLines {layers : List LayerInfo} (h : ∀ layer ∈ layers, '"' ∉ cstr layer.id) :
    ∀ w ∈ layerIdLines layers, Idle w := by
  intro w hw
  obtain ⟨layer, hlayer, comma, rfl⟩ := mem_layerIdLines hw
  refine idle_of_word (cstr layer.id) (if comma then [','] else []) (h layer hlayer)
    (Or.inl (List.append_assoc _ _ _)) (Or.inr ?_)
  cases comma <;> decide

theorem idle_configLines (image : ImageInfo) : ∀ w ∈ configLines image, Idle w := by
  simp only [configLines, List.mem_cons, List.not_mem_nil, or_false]
  rintro w (rfl | rfl | rfl | rfl | rfl | rfl | rfl)
  · exact idle_of_word "config".toList ": \x7b".toList (by decide) (Or.inr rfl) (Or.inl (by decide))
  · exact idle_of_word "Cmd".toList (": [\"".toList ++ (cstr image.command ++ "\"],".toList))
      (by decide) (Or.inl (List.append_assoc _ _ _)) (Or.inl (by decide))
  · exact idle_of_word "WorkingDir".toList (": \"".toList ++ (cstr image.workingDir ++ "\",".toList))
      (by decide) (Or.inl (List.append_assoc _ _ _)) (Or.inl (by decide))
  · exact idle_of_word "Env".toList (": [\"".toList ++ (cstr image.envVars ++ "\"],".toList))
      (by decide) (Or.inl (List.append_assoc _ _ _)) (Or.inl (by decide))
  · exact idle_of_word "ExposedPorts".toList
      (": \x7b\"".toList ++ (cstr image.exposedPorts ++ "\": \x7b\x7d\x7d,".toList))
      (by decide) (Or.inl (List.append_assoc _ _ _)) (Or.inl (by decide))
  · exact idle_of_word "Volumes".toList
      (": \x7b\"".toList ++ (cstr image.volumes ++ "\": \x7b\x7d\x7d".toList))
      (by decide) (Or.inl (List.append_assoc _ _ _)) (Or.inl (by decide))
  · exact idle_of_no_quote (by decide)

theorem idle_restLines {image : ImageInfo} (h : ∀ layer ∈ image.layers, '"' ∉ cstr layer.id) :
    ∀ w ∈ restLines image, Idle w := by
  intro w hw
  simp only [restLines, List.mem_append, List.mem_cons, List.not_mem_nil, or_false] at hw
  rcases hw with (hw | rfl | hw) | rfl | rfl
  · exact idle_configLines image w hw
  · exact idle_of_word "layers".toList ": [".toList (by decide) (Or.inr rfl) (Or.inl (by decide))
  · exact idle_layerIdLines h w hw
  · exact idle_of_no_quote (by decide)
  · exact idle_of_no_quote (by decide)

/-! ## 4. The lines behind the entries are passed over -/

theorem not_mem_between {c : Char} {a v b : List Char} (ha : c ∉ a) (hv : c ∉ v) (hb : c ∉ b) :
    c ∉ a ++ v ++ b := by
  simp [ha, hv, hb]

/-- The fixed parts of the lines hold neither newline nor NUL. -/
theorem not_mem_restLines {image : ImageInfo} {c : Char} (hc : c = '\n' ∨ c = nul)
    (h : ∀ v ∈ restValues image, c ∉ v) : ∀ w ∈ restLines image, c ∉ w := by
  simp only [restValues, List.mem_append, List.mem_cons, List.not_mem_nil, or_false,
    List.mem_map, or_imp, forall_and, forall_eq, forall_exists_index,
    and_imp, forall_apply_eq_imp_iff₂] at h
  obtain ⟨⟨hcommand, hworkdir, henv, hports, hvolumes⟩, hlayers⟩ := h
  intro w hw
  simp only [restLines, configLines, List.mem_append, List.mem_cons, List.not_mem_nil,
    or_false] at hw
  rcases hw with ((rfl | rfl | rfl | rfl | rfl | rfl | rfl) | rfl | hw) | rfl | rfl
  · rcases hc with rfl | rfl <;> decide
  · refine not_mem_between ?_ hcommand ?_ <;> rcases hc with rfl | rfl <;> decide
  · refine not_mem_between ?_ hworkdir ?_ <;> rcases hc with rfl | rfl <;> decide
  · refine not_mem_between ?_ henv ?_ <;> rcases hc with rfl | rfl <;> decide
  · refine not_mem_between ?_ hports ?_ <;> rcases hc with rfl | rfl <;> decide
  · refine not_mem_between ?_ hvolumes ?_ <;> rcases hc with rfl | rfl <;> decide
  · rcases hc with rfl | rfl <;> decide
  · rcases hc with rfl | rfl <;> decide
  · obtain ⟨layer, hlayer, comma, rfl⟩ := mem_layerIdLines hw
    refine not_mem_between ?_ (hlayers layer hlayer) ?_ <;> cases comma <;>
      rcases hc with rfl | rfl <;> decide
  · rcases hc with rfl | rfl <;> decide
  · rcases hc with rfl | rfl <;> decide

theorem nulFree_restValues (image : ImageInfo) : ∀ v ∈ restValues image, nul ∉ v := by
  intro v hv
  simp only [restValues, List.mem_append, List.mem_cons, List.not_mem_nil, or_false,
    List.mem_map] at hv
  rcases hv with (rfl | rfl | rfl | rfl | rfl) | ⟨layer, -, rfl⟩ <;> exact nulFree_cstr _

/-- The lines behind the entries are one piece each, and the layer ids
hold no quote. -/
structure RestPlain (image : ImageInfo) : Prop where
  ids : ∀ layer ∈ image.layers, '"' ∉ cstr layer.id
  newline : ∀ v ∈ restValues image, '\n' ∉ v
  short : ∀ w ∈ restLines image, w.length + 1 < 1024

section RestPlain

variable {image : ImageInfo} (h : RestPlain image)

include h

theorem RestPlain.line : ∀ w ∈ restLines image, NulFree w ∧ '\n' ∉ w ∧ w.length + 1 < 1024 ∧
    Idle w := fun w hw =>
  ⟨not_mem_restLines (Or.inr rfl) (nulFree_restValues image) w hw,
    not_mem_restLines (Or.inl rfl) h.newline w hw, h.short w hw, idle_restLines h.ids w hw⟩

/-- What is read is what the entries bring. -/
theorem readImageText_imageText (dest : ImageInfo) : readImageText (imageText image) dest
    = readText imageSlots 1024 (entriesText (imageEntries image)) dest := by
  have hlast : (entriesText (imageEntries image)).getLast? = some '\n' :=
    getLast_entriesText (List.cons_ne_nil _ _)
  rw [readImageText, imageText_eq, readText_append _ _ hlast]
  refine readText_idle (fun w hw => ?_) _
  obtain ⟨hnul, hnewline, hlen, hidle⟩ := h.line w hw
  exact ⟨hnul, hnewline, hlen, hidle.scan⟩

/-- And so is what is assigned. -/
theorem assigned_imageText (key : Key) (hkey : ∃ s ∈ imageSlots, s.key = key) :
    assigned imageSlots key 1024 (imageText image)
      = assigned imageSlots key 1024 (entriesText (imageEntries image)) := by
  obtain ⟨s, hs, rfl⟩ := hkey
  have hlast : (entriesText (imageEntries image)).getLast? = some '\n' :=
    getLast_entriesText (List.cons_ne_nil _ _)
  have hrest : ∀ ws : List (List Char), (∀ w ∈ ws, w ∈ restLines image) →
      assigned imageSlots s.key 1024 (ws.flatMap (· ++ ['\n'])) = [] := by
    intro ws
    induction ws with
    | nil => exact fun _ => rfl
    | cons w ws ih =>
      intro hws
      obtain ⟨hnul, hnewline, hlen, hidle⟩ := h.line w (hws w List.mem_cons_self)
      have hline : NulFree (w ++ ['\n']) := by simp [hnul, nul]
      have hnone : assignedBy imageSlots s.key (w ++ ['\n']) = none := by
        rw [assignedBy, cstr_of_nulFree hline, hidle s hs]
        split <;> rfl
      rw [List.flatMap_cons, assigned_append (by simp), ih fun x hx =>
        hws x (List.mem_cons_of_mem w hx), assigned, fgetsLines_line hnewline hlen,
        List.filterMap_cons, hnone]
      rfl
  rw [imageText_eq, assigned_append hlast, hrest _ fun _ hw => hw, List.append_nil]

end RestPlain

theorem restPlain_of_plain {image : ImageInfo} (h : QuoteFree image) (hone : OneLined image) :
    RestPlain image where
  ids := fun _ hlayer => h.2 _ (List.mem_append_right _ (List.mem_map_of_mem hlayer))
  newline := hone.2.1
  short := hone.2.2

/-- When a string comes back: it is neither empty nor the key of a field
the reader tests earlier, or the struct held it already. -/
def Returns (key : String) (value old : List Char) : Prop :=
  (value ≠ [] ∧ ¬ Shadowed imageSlots key value) ∨ old = value

instance (key : String) (value old : List Char) : Decidable (Returns key value old) := by
  unfold Returns; infer_instance

section RoundTrip

variable {image : ImageInfo} (h : QuoteFree image) (hone : OneLined image) (dest : ImageInfo)

include h hone

/-- A text slot whose key is printed once, with the string of its own
field. -/
theorem returns_iff {key : Key} {get : ImageInfo → List Char}
    {set : ImageInfo → List Char → ImageInfo} (hs : Slot.text key get set ∈ imageSlots)
    (honce : (imageEntries image).foldl (fun old e => e.textAt imageSlots key.name old) (get dest)
      = (Entry.text key (cstr (get image))).textAt imageSlots key.name (get dest)) :
    cstr (get (readImageText (imageText image) dest)) = cstr (get image) ↔
      Returns key.name (cstr (get image)) (cstr (get dest)) := by
  have hread : get (readImageText (imageText image) dest)
      = (imageEntries image).foldl (fun old e => e.textAt imageSlots key.name old) (get dest) := by
    rw [readImageText_imageText (restPlain_of_plain h hone)]
    exact text_readText lawful_imageSlots hs (by omega) h.1 (fun _ hv => hone.1 _ hv) dest
  rw [hread, honce]
  exact cstr_textAt_iff (nulFree_cstr _) _

end RoundTrip

/-- Reading the text of `image` over `dest` gives back the five fields the
reader knows. -/
def RoundTrip (image dest : ImageInfo) : Prop :=
  cstr (readImageText (imageText image) dest).id = cstr image.id ∧
  cstr (readImageText (imageText image) dest).name = cstr image.name ∧
  cstr (readImageText (imageText image) dest).tag = cstr image.tag ∧
  cstr (readImageText (imageText image) dest).created = cstr image.created ∧
  cstr (readImageText (imageText image) dest).size = cstr image.size

/-- The five strings of `image` come back over what `dest` held. -/
def StringsReturn (image dest : ImageInfo) : Prop :=
  Returns "id" (cstr image.id) (cstr dest.id) ∧
  Returns "name" (cstr image.name) (cstr dest.name) ∧
  Returns "tag" (cstr image.tag) (cstr dest.tag) ∧
  Returns "created" (cstr image.created) (cstr dest.created) ∧
  Returns "size" (cstr image.size) (cstr dest.size)

instance (image dest : ImageInfo) : Decidable (StringsReturn image dest) := by
  unfold StringsReturn; infer_instance

section Strings

variable {image : ImageInfo} (h : QuoteFree image) (hone : OneLined image) (dest : ImageInfo)

include h hone

theorem id_returns : cstr (readImageText (imageText image) dest).id = cstr image.id ↔
    Returns "id" (cstr image.id) (cstr dest.id) := by
  have hs : imageSlots[0] ∈ imageSlots := List.getElem_mem (by decide)
  exact returns_iff h hone dest hs (by simp [imageEntries, Entry.textAt])

theorem name_returns : cstr (readImageText (imageText image) dest).name = cstr image.name ↔
    Returns "name" (cstr image.name) (cstr dest.name) := by
  have hs : imageSlots[1] ∈ imageSlots := List.getElem_mem (by decide)
  exact returns_iff h hone dest hs (by simp [imageEntries, Entry.textAt])

theorem tag_returns : cstr (readImageText (imageText image) dest).tag = cstr image.tag ↔
    Returns "tag" (cstr image.tag) (cstr dest.tag) := by
  have hs : imageSlots[2] ∈ imageSlots := List.getElem_mem (by decide)
  exact returns_iff h hone dest hs (by simp [imageEntries, Entry.textAt])

theorem created_returns : cstr (readImageText (imageText image) dest).created
    = cstr image.created ↔ Returns "created" (cstr image.created) (cstr dest.created) := by
  have hs : imageSlots[3] ∈ imageSlots := List.getElem_mem (by decide)
  exact returns_iff h hone dest hs (by simp [imageEntries, Entry.textAt])

theorem size_returns : cstr (readImageText (imageText image) dest).size = cstr image.size ↔
    Returns "size" (cstr image.size) (cstr dest.size) := by
  have hs : imageSlots[4] ∈ imageSlots := List.getElem_mem (by decide)
  exact returns_iff h hone dest hs (by simp [imageEntries, Entry.textAt])

end Strings

/-- The round trip restores the five fields exactly when the five strings
return. -/
theorem image_round_trip_iff (image dest : ImageInfo) (h : QuoteFree image)
    (hone : OneLined image) : RoundTrip image dest ↔ StringsReturn image dest := by
  unfold RoundTrip StringsReturn
  rw [id_returns h hone, name_returns h hone, tag_returns h hone, created_returns h hone,
    size_returns h hone]

/-- An image as `create_image` records it. -/
def freshImage : ImageInfo :=
  { ImageInfo.zeroed with
    id := store (zeros MAX_IMAGE_ID_LEN) "sha256:65a3c1f000000000".toList
    name := store (zeros MAX_IMAGE_NAME_LEN) "ubuntu".toList
    tag := store (zeros MAX_IMAGE_TAG_LEN) "latest".toList
    created := store (zeros 32) "1705230832".toList
    size := store (zeros 32) "0".toList
    layers := [{ id := store (zeros MAX_LAYER_ID_LEN) "layer_65a3c1f000000000".toList }] }

/-- An image whose name is the word the reader looks for first. -/
def imageNamedId : ImageInfo :=
  { freshImage with name := store (zeros MAX_IMAGE_NAME_LEN) "id".toList }

theorem freshImage_round_trip : QuoteFree freshImage ∧ OneLined freshImage ∧
    RoundTrip freshImage ImageInfo.zeroed := by
  have hquote : QuoteFree freshImage := by decide +kernel
  have hone : OneLined freshImage := by decide +kernel
  exact ⟨hquote, hone,
    (image_round_trip_iff freshImage ImageInfo.zeroed hquote hone).mpr (by decide +kernel)⟩

theorem imageNamedId_loses_name : QuoteFree imageNamedId ∧ OneLined imageNamedId ∧
    ¬ RoundTrip imageNamedId ImageInfo.zeroed := by
  have hquote : QuoteFree imageNamedId := by decide +kernel
  have hone : OneLined imageNamedId := by decide +kernel
  refine ⟨hquote, hone, fun h => ?_⟩
  have hname := (name_returns hquote hone ImageInfo.zeroed).mp h.2.1
  exact absurd hname (by decide)

end DockerClone.Image
