/-
DockerClone.Image.CatalogTheorems — the image operations refine the
catalog.

`catalogOf` reads the table off the metadata files, `answered` what the
system answers to the calls an operation makes. On a store whose files are
records that come back when they are read (`Kept`), each operation does
the step the catalog has for these answers, if the names it is given are
short and plain, `cp` and `rm` get their operands as they stand, and the
memory `get_image_info` is given holds plain strings (`Meets`).

The properties of the catalog are then properties of the operations
(`image_runs_refined`, `stored_image_traced`). A store without the
directory of the layers, which the daemon does not make, never gets an
image (`unmade_layers_no_image`).
-/
import DockerClone.Image.Catalog
import DockerClone.Image.NewImageTheorems
import DockerClone.Image.RemoveTheorems
import DockerClone.Image.TagTheorems

namespace DockerClone.Image

open DockerClone.CLib DockerClone.Os DockerClone.Os.FileSystem DockerClone.Metadata

/-! ## 1. Records that come back -/

/-- The strings `read_image_metadata` knows, and those it does not. -/
def readValues (image : ImageInfo) : List (List Char) :=
  [cstr image.id, cstr image.name, cstr image.tag, cstr image.created, cstr image.size]

def unreadValues (image : ImageInfo) : List (List Char) :=
  [cstr image.parentId, cstr image.architecture, cstr image.os, cstr image.author,
    cstr image.comment]

structure Printable (image : ImageInfo) : Prop where
  read : ∀ v ∈ readValues image, PlainValue v
  unread : ∀ v ∈ unreadValues image, PlainValue v
  rest : ∀ v ∈ restValues image, PlainValue v

section Printable

variable {image : ImageInfo} (h : Printable image)

include h

theorem Printable.entry : ∀ e ∈ imageEntries image, e.QuoteFree ∧ e.OnePiece 1024 := by
  have htext : ∀ {key : Key} {field : List Char}, key.name.toList.length ≤ 20 →
      PlainValue (cstr field) →
      (Entry.text key (cstr field)).QuoteFree ∧ (Entry.text key (cstr field)).OnePiece 1024 :=
    fun hkey hv => ⟨hv.quoteFree (nulFree_cstr _) _, onePiece_of_short hv.newline hv.short hkey⟩
  have hread := h.read
  have hunread := h.unread
  simp only [readValues, unreadValues, List.forall_mem_cons, List.not_mem_nil, false_imp_iff,
    implies_true, and_true] at hread hunread
  obtain ⟨hid, hname, htag, hcreated, hsize⟩ := hread
  obtain ⟨hparent, harch, hos, hauthor, hcomment⟩ := hunread
  simp only [imageEntries, List.forall_mem_cons, List.not_mem_nil, false_imp_iff, implies_true,
    and_true]
  exact ⟨⟨by decide, trivial⟩, htext (by decide) hid, htext (by decide) hname,
    htext (by decide) htag, htext (by decide) hparent, htext (by decide) hcreated,
    htext (by decide) hsize, htext (by decide) harch, htext (by decide) hos,
    htext (by decide) hauthor, htext (by decide) hcomment⟩

theorem Printable.quoteFree : QuoteFree image :=
  ⟨fun e he => (h.entry e he).1, fun v hv => (h.rest v hv).quote⟩

theorem Printable.oneLined : OneLined image :=
  ⟨fun e he => (h.entry e he).2, fun v hv => (h.rest v hv).newline,
    (restPlain_of_values h.rest).short⟩

end Printable

/-- What an image is, whatever it is called. -/
def ImageInfo.entry (image : ImageInfo) : ImageEntry where
  id := cstr image.id
  created := cstr image.created
  size := cstr image.size

/-- A record whose entry comes back when its text is read. -/
structure Sound (image : ImageInfo) : Prop where
  printable : Printable image
  id : cstr image.id ≠ []
  created : cstr image.created ≠ [] ∧ ¬ Shadowed imageSlots "created" (cstr image.created)
  size : cstr image.size ≠ [] ∧ ¬ Shadowed imageSlots "size" (cstr image.size)

theorem entry_readImageText {image : ImageInfo} (h : Sound image) (dest : ImageInfo) :
    (readImageText (imageText image) dest).entry = image.entry := by
  have hquote := h.printable.quoteFree
  have hone := h.printable.oneLined
  have hid := (id_returns hquote hone dest).mpr (Or.inl ⟨h.id, unshadowed_id _⟩)
  have hcreated := (created_returns hquote hone dest).mpr (Or.inl h.created)
  have hsize := (size_returns hquote hone dest).mpr (Or.inl h.size)
  rw [ImageInfo.entry, ImageInfo.entry, hid, hcreated, hsize]

theorem unreadValues_readImageText (text : List Char) (c : ImageInfo) :
    unreadValues (readImageText text c) = unreadValues c := by
  refine frames_readText ?_ 1024 text c
  simp [imageSlots, Slot.Frames, unreadValues]

/-! ## 2. The records the operations write -/

/-- The arguments that are printed. -/
structure PlainKey (name : List Char) (tag : Option (List Char)) : Prop where
  key : KeyInput name tag
  slash : '/' ∉ tag.getD []
  name : '"' ∉ name ∧ '\n' ∉ name
  tag : '"' ∉ tag.getD [] ∧ '\n' ∉ tag.getD []

section Keys

variable {name : List Char} {tag : Option (List Char)} (h : PlainKey name tag)

include h

theorem PlainKey.name_plain : PlainValue name where
  quote := h.name.1
  newline := h.name.2
  short := by
    have hshort := h.key.name_short
    omega

theorem PlainKey.newTag_plain : PlainValue (newTag tag) := by
  cases tag with
  | none => exact ⟨by decide, by decide, by decide⟩
  | some tag =>
    refine ⟨h.tag.1, h.tag.2, ?_⟩
    have hshort : tag.length ≤ 63 := h.key.tag_short
    exact hshort.trans (by decide)

theorem PlainKey.newTag_nul : NulFree (newTag tag) := by
  cases tag with
  | none => decide
  | some tag => exact h.key.tag_nul

end Keys

/-- An absent tag and an empty one stand for the same. -/
theorem fullName_newTag (name : List Char) (tag : Option (List Char)) :
    getImageFullName name (some (newTag tag)) = getImageFullName name tag := by
  cases tag with
  | none =>
    rw [getImageFullName_eq, getImageFullName_eq]
    rfl
  | some tag => rfl

/-- The entry a creation makes. -/
def newEntry (env : CreateEnv) : ImageEntry where
  id := generateImageId env.imageAt
  created := snprintf 32 (renderInt env.createdAt.toInt)
  size := snprintf 32 (renderInt env.size.toInt)

section Created

variable {name : List Char} {tag : Option (List Char)} (h : PlainKey name tag) (env : CreateEnv)
  (layer : LayerInfo)

theorem entry_newImage : (newImage name tag env layer).entry = newEntry env := by
  rw [ImageInfo.entry, newEntry, cstr_id_newImage, cstr_created_newImage, cstr_size_newImage,
    generateImageId_eq]
  rfl

include h

theorem printable_newImage : Printable (newImage name tag env layer) := by
  have hname : cstr (newImage name tag env layer).name = name.take (MAX_IMAGE_NAME_LEN - 1) :=
    cstr_strncpy_zeros h.key.name_nul
  have htag : cstr (newImage name tag env layer).tag = (newTag tag).take (MAX_IMAGE_TAG_LEN - 1) :=
    cstr_strncpy_zeros h.newTag_nul
  constructor
  · simp only [readValues, List.forall_mem_cons, List.not_mem_nil, false_imp_iff, implies_true,
      and_true, cstr_id_newImage, hname, htag, cstr_created_newImage, cstr_size_newImage]
    exact ⟨plain_generated (by decide) _, h.name_plain.take _, h.newTag_plain.take _,
      plain_numeral _, plain_numeral _⟩
  · obtain ⟨hparent, harch, hos, hauthor, hcomment⟩ := cstr_unread_newImage name tag env layer
    simp only [unreadValues, List.forall_mem_cons, List.not_mem_nil, false_imp_iff, implies_true,
      and_true, harch, hos, hauthor, hparent, hcomment]
    exact ⟨.nil, ⟨by decide, by decide, by decide⟩, ⟨by decide, by decide, by decide⟩,
      ⟨by decide, by decide, by decide⟩, .nil⟩
  · exact plain_restValues_newImage name tag env layer

theorem sound_newImage : Sound (newImage name tag env layer) where
  printable := printable_newImage h env layer
  id := by
    rw [cstr_id_newImage]
    exact List.ne_nil_of_length_pos (by rw [length_clockText]; omega)
  created := by
    rw [cstr_created_newImage]
    exact ⟨numeral_ne_nil _, unshadowed_numeral _⟩
  size := by
    rw [cstr_size_newImage]
    exact ⟨numeral_ne_nil _, unshadowed_numeral _⟩

end Created

/-- What `tag_image` writes is the image again, if the memory it was read
into was plain. -/
theorem sound_retagged {image memory : ImageInfo} (himage : Sound image)
    (hunread : ∀ v ∈ unreadValues memory, PlainValue v)
    (hrest : ∀ v ∈ restValues memory, PlainValue v) {name : List Char} {tag : Option (List Char)}
    (h : PlainKey name tag) (hname : name.length < MAX_IMAGE_NAME_LEN - 1)
    (htag : (newTag tag).length < MAX_IMAGE_TAG_LEN - 1) :
    Sound (retagged (readImageText (imageText image) memory) name (newTag tag)) ∧
      (retagged (readImageText (imageText image) memory) name (newTag tag)).entry = image.entry ∧
      imagePath (retagged (readImageText (imageText image) memory) name (newTag tag))
        = absPath (imageFile name tag) := by
  generalize hgot : readImageText (imageText image) memory = got
  have hread : got.entry = image.entry := hgot ▸ entry_readImageText himage memory
  have hid : cstr got.id = cstr image.id := congrArg ImageEntry.id hread
  have hcreated : cstr got.created = cstr image.created := congrArg ImageEntry.created hread
  have hsize : cstr got.size = cstr image.size := congrArg ImageEntry.size hread
  have hname' : cstr (strncpy got.name name (MAX_IMAGE_NAME_LEN - 1)) = name :=
    cstr_strncpy_of_lt h.key.name_nul hname _
  have htag' : cstr (strncpy got.tag (newTag tag) (MAX_IMAGE_TAG_LEN - 1)) = newTag tag :=
    cstr_strncpy_of_lt h.newTag_nul htag _
  have hplain := himage.printable.read
  simp only [readValues, List.forall_mem_cons, List.not_mem_nil, false_imp_iff, implies_true,
    and_true] at hplain
  obtain ⟨hpid, -, -, hpcreated, hpsize⟩ := hplain
  refine ⟨⟨⟨?_, ?_, ?_⟩, ?_, ?_, ?_⟩, hread, ?_⟩
  · simp only [readValues, retagged, List.forall_mem_cons, List.not_mem_nil, false_imp_iff,
      implies_true, and_true, hid, hcreated, hsize, hname', htag']
    exact ⟨hpid, h.name_plain, h.newTag_plain, hpcreated, hpsize⟩
  · have hsame : unreadValues (retagged got name (newTag tag)) = unreadValues got := rfl
    rw [hsame, ← hgot, unreadValues_readImageText]
    exact hunread
  · have hsame : restValues (retagged got name (newTag tag)) = restValues got := rfl
    rw [hsame, ← hgot, restValues_readImageText]
    exact hrest
  · exact fun hnil => himage.id (hid ▸ hnil)
  · exact hcreated.symm ▸ himage.created
  · exact hsize.symm ▸ himage.size
  · rw [imagePath, retagged, hname', htag', fullName_newTag, metadataPath_getImageFullName]
    rfl

/-! ## 3. The table -/

def recordFile (key : List Char) : Path := metadataDir ++ [key ++ ".json".toList]

/-- The image a metadata file records. -/
def entryOfNode : Option Node → Option ImageEntry
  | some (.file text) => some (readImageText text ImageInfo.zeroed).entry
  | _ => none

def catalogOf (p : Process) : Catalog := fun key => entryOfNode (p.fs.node (recordFile key))

/-- The metadata files of a store are records that come back. -/
def Kept (p : Process) : Prop :=
  ∀ key x, p.fs.node (recordFile key) = some x → ∃ image, Sound image ∧ x = .file (imageText image)

/-- Of the metadata files, this one is what it is now. -/
def Sets (p p' : Process) (key : List Char) (x : Option Node) : Prop :=
  ∀ key', p'.fs.node (recordFile key') = if key' = key then x else p.fs.node (recordFile key')

theorem recordFile_inj {key key' : List Char} (h : recordFile key = recordFile key') : key = key' :=
  List.append_cancel_right (List.cons.inj (List.append_cancel_left h)).1

theorem entryOfNode_record {image : ImageInfo} (h : Sound image) :
    entryOfNode (some (.file (imageText image))) = some image.entry :=
  congrArg some (entry_readImageText h _)

section Tables

variable {p p' : Process} {key : List Char} {x : Option Node}

theorem catalogOf_sets (h : Sets p p' key x) :
    catalogOf p' = Function.update (catalogOf p) key (entryOfNode x) := by
  funext key'
  rw [catalogOf, h key']
  by_cases hkey : key' = key
  · rw [if_pos hkey, hkey, Function.update_self]
  · rw [if_neg hkey, Function.update_of_ne hkey]
    rfl

theorem Kept.sets (hkept : Kept p) (h : Sets p p' key x)
    (hx : ∀ y, x = some y → ∃ image, Sound image ∧ y = .file (imageText image)) : Kept p' := by
  intro key' y hy
  rw [h key'] at hy
  split_ifs at hy with hkey
  · exact hx y hy
  · exact hkept key' y hy

/-- A store with the same metadata files. -/
theorem catalogOf_same (h : ∀ key, p'.fs.node (recordFile key) = p.fs.node (recordFile key)) :
    catalogOf p' = catalogOf p :=
  funext fun key => congrArg entryOfNode (h key)

theorem Kept.same (hkept : Kept p)
    (h : ∀ key, p'.fs.node (recordFile key) = p.fs.node (recordFile key)) : Kept p' :=
  fun key x hx => hkept key x (h key ▸ hx)

end Tables

/-- A key that is the name of a file. -/
structure ImageKey (key : List Char) : Prop where
  slash : '/' ∉ key
  short : key.length ≤ 485

section ImageKey

variable {key : List Char} (h : ImageKey key)

include h

theorem ImageKey.path : metadataPath key = absPath (recordFile key) := by
  have hdir : METADATA_DIR.toList.length = 20 := by decide
  have hjson : ".json".toList.length = 5 := by decide
  have hshort := h.short
  rw [metadataPath, MAX_PATH_LEN, snprintf_of_lt, recordFile, absPath_concat, metadataDir_path]
  · simp
  · simp only [List.length_append, List.length_cons, hdir, hjson]
    omega

/-- The command line of a removal. -/
theorem ImageKey.removeCommand : snprintf 1024 ("rm -rf ".toList ++ layerPath key)
    = "rm -rf ".toList ++ absPath (layerDir key) := by
  have hshort := h.short
  have hrm : "rm -rf ".toList.length = 7 := by decide
  rw [layerPath_eq (by omega), snprintf_of_lt]
  rw [layerDir, absPath_concat]
  simp only [List.length_append, List.length_cons, length_layersDir, hrm]
  omega

theorem ImageKey.ordinary : Ordinary (key ++ ".json".toList) := by
  have hjson : '/' ∉ ".json".toList := by decide
  have hlen : 4 < (key ++ ".json".toList).length := by
    have hfive : ".json".toList.length = 5 := by decide
    rw [List.length_append, hfive]
    omega
  refine ⟨?_, ?_, ?_, fun hm => (List.mem_append.mp hm).elim h.slash hjson⟩
  · intro he; rw [he] at hlen; simp at hlen
  · intro he; rw [he] at hlen; simp at hlen
  · intro he; rw [he] at hlen; simp at hlen

/-- Reading the record of a key. -/
theorem readImageMetadata_key {p : Process} (hkept : Kept p) (memory : ImageInfo) (denied : Bool) :
    ((catalogOf p key = none ∨ denied = true) ∧
      readImageMetadata key denied p.cwd p.fs memory = none) ∨
    (denied = false ∧ ∃ image, Sound image ∧ catalogOf p key = some image.entry ∧
      readImageMetadata key denied p.cwd p.fs memory
        = some (readImageText (imageText image) memory)) := by
  rw [readImageMetadata, h.path]
  cases hnode : p.fs.node (recordFile key) with
  | none =>
    have hread : p.fs.openRead p.cwd (absPath (recordFile key)) denied = none :=
      openRead_absent ordinary_metadataDir h.ordinary hnode denied
    exact Or.inl ⟨Or.inl (congrArg entryOfNode hnode), by rw [hread]⟩
  | some x =>
    obtain ⟨image, himage, rfl⟩ := hkept key x hnode
    cases denied with
    | true => exact Or.inl ⟨Or.inr rfl, by simp [openRead]⟩
    | false =>
      have hread : p.fs.openRead p.cwd (absPath (recordFile key)) false = some (imageText image) :=
        openRead_absPath ordinary_metadataDir h.ordinary hnode
      refine Or.inr ⟨rfl, image, himage, ?_, by rw [hread]⟩
      rw [catalogOf, hnode, entryOfNode_record himage]

end ImageKey

/-! ## 4. The calls -/

/-- A call of an image operation, with all it meets. -/
inductive ImageCall where
  | create (name : List Char) (tag context : Option (List Char)) (env : CreateEnv) (shell : Shell)
  | tagged (imageId name : List Char) (tag : Option (List Char)) (env : TagEnv)
  | remove (imageId : List Char) (unlinkDenied : Bool) (shell : Shell)
  | probe (name : List Char) (tag : Option (List Char))
  | info (imageId : List Char) (memory : Option ImageInfo) (denied : Bool)

def ImageCall.run : ImageCall → Process → CatalogResult × Process
  | .create name tag context env shell, p =>
      let (r, p) := createImage name tag context env shell p
      (.status r, p)
  | .tagged imageId name tag env, p =>
      let (r, fs) := tagImage imageId name tag env p.cwd p.fs
      (.status r, { p with fs := fs })
  | .remove imageId unlinkDenied shell, p =>
      let (r, p) := removeImage imageId unlinkDenied shell p
      (.status r, p)
  | .probe name tag, p => (.status (if imageExists name tag p then 1 else 0), p)
  | .info imageId memory denied, p =>
      (.info ((getImageInfo imageId memory denied p.cwd p.fs).map ImageInfo.entry), p)

/-- The call as the catalog sees it. -/
def ImageCall.label : ImageCall → CatalogCall
  | .create name tag _ env _ => .create (getImageFullName name tag) (newEntry env)
  | .tagged imageId name tag _ => .tag imageId (getImageFullName name tag)
  | .remove imageId _ _ => .remove imageId
  | .probe name tag => .probe (getImageFullName name tag)
  | .info imageId _ _ => .info imageId

/-- What a creation is answered. -/
def CreateEnv.answers (name : List Char) (tag context : Option (List Char)) (env : CreateEnv)
    (shell : Shell) (p : Process) : CreateAnswers :=
  let layerId := generateLayerId env.layer.idAt
  let made := p.mkdirExistOk (layerPath layerId) env.layer.mkdirDenied
  let copied := copyDiff context (layerPath layerId) shell (made.getD p)
  let text := layerText layerId [] "FROM scratch".toList env.layer.createdAt
  let layer := copied.2.openWrite (layerMetadataPath layerId) env.layer.writeDenied text
  let image := newImage name tag env (env.layers.getD { id := [] })
  let target := (layer.getD copied.2).fs.writeTarget (layer.getD copied.2).cwd (imagePath image)
    env.writeDenied
  { directory := made.isSome
    copied := copied.1 == 0
    layerWritten := layer.isSome
    allocated := env.layers.isSome
    written := target.isSome }

/-- What a removal is answered. -/
def removeAnswers (imageId : List Char) (unlinkDenied : Bool) (shell : Shell) (p : Process) :
    RemoveAnswers :=
  let unlinked := (p.fs.unlink p.cwd (metadataPath imageId) unlinkDenied).toOption.getD p.fs
  let rmCmd := snprintf 1024 ("rm -rf ".toList ++ layerPath imageId)
  { granted := !unlinkDenied
    swept := (Process.system shell rmCmd { p with fs := unlinked }).1 == 0 }

/-- The call with what the system answers to it. -/
def ImageCall.answered (p : Process) : ImageCall → Answered
  | .create name tag context env shell =>
      .create (getImageFullName name tag) (newEntry env) (env.answers name tag context shell p)
  | .tagged imageId name tag env =>
      .tag imageId (getImageFullName name tag)
        { allocated := env.memory.isSome, opened := !env.readDenied }
        (p.fs.writeTarget p.cwd (metadataPath (getImageFullName name tag)) env.writeDenied).isSome
  | .remove imageId unlinkDenied shell =>
      .remove imageId (removeAnswers imageId unlinkDenied shell p)
  | .probe name tag => .probe (getImageFullName name tag)
  | .info imageId memory denied =>
      .info imageId { allocated := memory.isSome, opened := !denied }

theorem call_answered (p : Process) (call : ImageCall) : (call.answered p).call = call.label := by
  cases call <;> rfl

/-- What a call is to be given. -/
def ImageCall.Meets : ImageCall → Prop
  | .create name tag context _ shell =>
      PlainKey name tag ∧ shell.Copies ∧ PlainContext context
  | .tagged imageId name tag env =>
      ImageKey imageId ∧ PlainKey name tag ∧ name.length < MAX_IMAGE_NAME_LEN - 1 ∧
        (newTag tag).length < MAX_IMAGE_TAG_LEN - 1 ∧
        ∀ memory, env.memory = some memory →
          (∀ v ∈ unreadValues memory, PlainValue v) ∧ ∀ v ∈ restValues memory, PlainValue v
  | .remove imageId _ _ =>
      ImageKey imageId ∧ Ordinary imageId ∧ LiteralWord (absPath (layerDir imageId))
  | .probe name tag => SlashFree name tag
  | .info imageId _ _ => ImageKey imageId

/-- Writing a record to its file. -/
theorem writeImageMetadata_sets {image : ImageInfo} {key : List Char}
    (hpath : imagePath image = absPath (recordFile key)) (hkey : Ordinary (key ++ ".json".toList))
    (denied : Bool) (p : Process) :
    ((p.fs.writeTarget p.cwd (imagePath image) denied).isSome = true ∧
      (writeImageMetadata image denied p.cwd p.fs).1 = 0 ∧
      Sets p { p with fs := (writeImageMetadata image denied p.cwd p.fs).2 } key
        (some (.file (imageText image)))) ∨
    ((p.fs.writeTarget p.cwd (imagePath image) denied).isSome = false ∧
      (writeImageMetadata image denied p.cwd p.fs).1 = -1 ∧
      (writeImageMetadata image denied p.cwd p.fs).2 = p.fs) := by
  have htarget : (∃ fs', p.fs.openWrite p.cwd (imagePath image) denied (imageText image)
      = .ok fs') ↔ ∃ q, p.fs.writeTarget p.cwd (imagePath image) denied = some q :=
    openWrite_ok_iff (imageText image)
  rw [← Option.isSome_iff_exists] at htarget
  rw [← htarget, ← Bool.not_eq_true, ← htarget]
  rw [imagePath] at hpath
  rw [imagePath, writeImageMetadata]
  simp only [hpath]
  cases hwrite : p.fs.openWrite p.cwd (absPath (recordFile key)) denied (imageText image) with
  | error e => exact Or.inr ⟨by simp, rfl, rfl⟩
  | ok fs =>
    obtain ⟨q, hq, -, hnode⟩ := openWrite_ok hwrite
    obtain ⟨rfl, -⟩ := resolve_absPath_eq ordinary_metadataDir hkey hq
    refine Or.inl ⟨⟨fs, rfl⟩, rfl, fun key' => (hnode _).trans ?_⟩
    exact if_congr ⟨recordFile_inj, fun he => he ▸ rfl⟩ rfl rfl

/-- A creation returns 0 exactly when it is answered well throughout. -/
theorem createImage_made_iff (name : List Char) (tag context : Option (List Char))
    (env : CreateEnv) (shell : Shell) (p : Process) :
    (createImage name tag context env shell p).1 = 0 ↔
      Catalog.Made (env.answers name tag context shell p) := by
  rw [createImage, createLayer]
  cases hmade : p.mkdirExistOk (layerPath (generateLayerId env.layer.idAt))
      env.layer.mkdirDenied with
  | none =>
    refine iff_of_false (by simp) fun h => ?_
    have hdirectory := h.directory
    simp [CreateEnv.answers, hmade] at hdirectory
  | some p₁ =>
    simp only
    generalize hcopy : copyDiff context (layerPath (generateLayerId env.layer.idAt)) shell p₁ = copied
    have hcopied : (env.answers name tag context shell p).copied = (copied.1 == 0) := by
      simp [CreateEnv.answers, hmade, hcopy]
    by_cases hstatus : copied.1 ≠ 0
    · rw [if_pos hstatus]
      refine iff_of_false (by simp) fun h => ?_
      have hzero := h.copied
      rw [hcopied, beq_iff_eq] at hzero
      exact hstatus hzero
    rw [if_neg hstatus]
    have hzero : (env.answers name tag context shell p).copied = true := by
      rw [hcopied, beq_iff_eq]
      exact not_not.mp hstatus
    generalize htext : layerText (generateLayerId env.layer.idAt) ((none : Option (List Char)).getD [])
      ((some "FROM scratch".toList).getD []) env.layer.createdAt = text
    have hlayerText : layerText (generateLayerId env.layer.idAt) [] "FROM scratch".toList
        env.layer.createdAt = text := htext
    cases hlayer : copied.2.openWrite (layerMetadataPath (generateLayerId env.layer.idAt))
        env.layer.writeDenied text with
    | none =>
      refine iff_of_false (by simp) fun h => ?_
      have hwritten := h.layerWritten
      simp only [CreateEnv.answers, hmade, Option.getD_some, hcopy, hlayerText, hlayer] at hwritten
      simp at hwritten
    | some p₂ =>
      simp only [ne_eq, not_true_eq_false, if_false]
      cases hlayers : env.layers with
      | none =>
        refine iff_of_false (by simp) fun h => ?_
        have hallocated := h.allocated
        simp [CreateEnv.answers, hlayers] at hallocated
      | some layer =>
        have htarget : (env.answers name tag context shell p).written
            = (p₂.fs.writeTarget p₂.cwd (imagePath (newImage name tag env layer))
              env.writeDenied).isSome := by
          simp only [CreateEnv.answers, hmade, Option.getD_some, hcopy, hlayerText, hlayer, hlayers]
        have hwrite : (writeImageMetadata (newImage name tag env layer) env.writeDenied p₂.cwd
            p₂.fs).1 = 0 ↔ (env.answers name tag context shell p).written = true := by
          rw [writeImageMetadata_zero_iff, openWrite_ok_iff, htarget, Option.isSome_iff_exists]
        have hmadeAll : Catalog.Made (env.answers name tag context shell p) ↔
            (env.answers name tag context shell p).written = true := by
          refine ⟨fun h => h.written, fun h => ⟨?_, hzero, ?_, ?_, h⟩⟩
          · simp [CreateEnv.answers, hmade]
          · simp only [CreateEnv.answers, hmade, Option.getD_some, hcopy, hlayerText, hlayer]
            rfl
          · simp [CreateEnv.answers, hlayers]
        rw [hmadeAll, ← hwrite]
        simp only
        split
        · rename_i hw
          rw [hw]
        · rename_i r fs hne hw
          rw [hw]
          exact iff_of_false (by simp) hne

section Calls

variable {p : Process} (hkept : Kept p)

include hkept

theorem create_refines {name : List Char} {tag context : Option (List Char)} {env : CreateEnv}
    {shell : Shell} (h : (ImageCall.create name tag context env shell).Meets) :
    Catalog.Step (catalogOf p) ((ImageCall.create name tag context env shell).answered p)
      ((ImageCall.create name tag context env shell).run p).1
      (catalogOf ((ImageCall.create name tag context env shell).run p).2) ∧
    Kept ((ImageCall.create name tag context env shell).run p).2 := by
  obtain ⟨hkey, hsh, hcontext⟩ := h
  have htext : KeyText name tag := ⟨hkey.key.name_nul, hkey.key.tag_nul, hkey.key.name_slash, hkey.slash⟩
  simp only [ImageCall.run, ImageCall.answered]
  have hmade := createImage_made_iff name tag context env shell p
  generalize hcall : createImage name tag context env shell p = out at hmade
  obtain ⟨r, p'⟩ := out
  dsimp only at hmade ⊢
  obtain ⟨rfl, hp'⟩ | ⟨rfl, -⟩ := createImage_cases hcall
  · have hsame : ∀ key, p'.fs.node (recordFile key) = p.fs.node (recordFile key) := by
      intro key
      obtain ⟨-, hframe, -⟩ := createLayer_effect hsh hcontext
        (r := (createLayer none (some "FROM scratch".toList) context env.layer shell p).1) rfl
      rw [hp']
      exact hframe _ (metadata_outside _ _)
    rw [catalogOf_same hsame]
    exact ⟨.notCreated _ _ _ fun h => absurd (hmade.mpr h) (by simp), hkept.same hsame⟩
  · obtain ⟨-, hframe, hstored⟩ := createImage_effect hsh hcontext htext hcall
    obtain ⟨layer, hfile, -⟩ := hstored rfl
    rw [writtenFile_eq hkey.key] at hframe hfile
    have hsets : Sets p p' (getImageFullName name tag)
        (some (.file (imageText (newImage name tag env layer)))) := by
      intro key'
      by_cases hne : key' = getImageFullName name tag
      · rw [if_pos hne, hne]
        exact hfile
      · rw [if_neg hne]
        exact hframe _ (metadata_outside _ _) fun he => hne (recordFile_inj he)
    have hsound := sound_newImage hkey env layer
    rw [catalogOf_sets hsets, entryOfNode_record hsound, entry_newImage]
    refine ⟨.created _ _ _ (hmade.mp rfl), hkept.sets hsets ?_⟩
    rintro y ⟨⟩
    exact ⟨_, hsound, rfl⟩

/-- What a tagging does: it enters what is stored under the source, or
nothing, and there is a cause for that. -/
theorem tagImage_sets {imageId name : List Char} {tag : Option (List Char)} {env : TagEnv}
    (h : (ImageCall.tagged imageId name tag env).Meets) :
    ((tagImage imageId name tag env p.cwd p.fs).1 = 0 ∧ env.memory.isSome = true ∧
      env.readDenied = false ∧
      (p.fs.writeTarget p.cwd (metadataPath (getImageFullName name tag)) env.writeDenied).isSome
        = true ∧
      ∃ record, Sound record ∧ catalogOf p imageId = some record.entry ∧
        Sets p { p with fs := (tagImage imageId name tag env p.cwd p.fs).2 }
          (getImageFullName name tag) (some (.file (imageText record)))) ∨
    ((tagImage imageId name tag env p.cwd p.fs).1 = -1 ∧
      (tagImage imageId name tag env p.cwd p.fs).2 = p.fs ∧
      (catalogOf p imageId = none ∨ (env.memory.isSome = false ∨ env.readDenied = true) ∨
        (p.fs.writeTarget p.cwd (metadataPath (getImageFullName name tag)) env.writeDenied).isSome
          = false)) := by
  obtain ⟨hid, hkey, hname, htag, hmemory⟩ := h
  cases hmem : env.memory with
  | none =>
    have hcall : tagImage imageId name tag env p.cwd p.fs = (-1, p.fs) := by
      rw [tagImage, hmem]
      rfl
    exact Or.inr ⟨congrArg Prod.fst hcall, congrArg Prod.snd hcall, Or.inr (Or.inl (Or.inl rfl))⟩
  | some memory =>
    obtain ⟨hunread, hrest⟩ := hmemory memory hmem
    obtain ⟨hcause, hnone⟩ | ⟨hopen, image, himage, hstored, hread⟩ :=
      readImageMetadata_key hid hkept memory env.readDenied
    · have hcall : tagImage imageId name tag env p.cwd p.fs = (-1, p.fs) := by
        rw [tagImage, hmem, getImageInfo, hnone]
      exact Or.inr ⟨congrArg Prod.fst hcall, congrArg Prod.snd hcall,
        hcause.imp_right fun hdenied => Or.inl (Or.inr hdenied)⟩
    · obtain ⟨hsound, hentry, hpath⟩ := sound_retagged himage hunread hrest hkey hname htag
      have hcall : tagImage imageId name tag env p.cwd p.fs = writeImageMetadata
          (retagged (readImageText (imageText image) memory) name (newTag tag)) env.writeDenied
          p.cwd p.fs := by
        rw [tagImage, hmem, getImageInfo, hread]
        rfl
      have hkeyPath : metadataPath (getImageFullName name tag)
          = imagePath (retagged (readImageText (imageText image) memory) name (newTag tag)) := by
        rw [hpath, metadataPath_getImageFullName]
        rfl
      rw [hcall, hkeyPath]
      obtain ⟨htarget, hzero, hsets⟩ | ⟨htarget, hresult, hsame⟩ := writeImageMetadata_sets hpath
        (ordinary_imageJson ⟨hkey.key.name_slash, hkey.slash⟩) env.writeDenied p
      · exact Or.inl ⟨hzero, rfl, hopen, htarget, _, hsound, hentry.symm ▸ hstored, hsets⟩
      · exact Or.inr ⟨hresult, hsame, Or.inr (Or.inr htarget)⟩

theorem tag_refines {imageId name : List Char} {tag : Option (List Char)} {env : TagEnv}
    (h : (ImageCall.tagged imageId name tag env).Meets) :
    Catalog.Step (catalogOf p) ((ImageCall.tagged imageId name tag env).answered p)
      ((ImageCall.tagged imageId name tag env).run p).1
      (catalogOf ((ImageCall.tagged imageId name tag env).run p).2) ∧
    Kept ((ImageCall.tagged imageId name tag env).run p).2 := by
  simp only [ImageCall.run, ImageCall.answered]
  obtain ⟨hresult, hallocated, hopen, htarget, record, hsound, hstored, hsets⟩ |
    ⟨hresult, hsame, hcause⟩ := tagImage_sets hkept h
  · rw [hresult, catalogOf_sets hsets, entryOfNode_record hsound, htarget]
    refine ⟨.tagged _ hstored ⟨hallocated, by rw [hopen]; rfl⟩, hkept.sets hsets ?_⟩
    rintro y ⟨⟩
    exact ⟨_, hsound, rfl⟩
  · rw [hresult, hsame]
    refine ⟨.notTagged _ (hcause.imp_right fun hcause => hcause.imp_left ?_), hkept⟩
    rintro (hnone | hdenied) hopened
    · exact absurd (hnone.symm.trans hopened.allocated) (by simp)
    · have hopen : (!env.readDenied) = true := hopened.opened
      simp [hdenied] at hopen

omit hkept in
theorem removal_frame {imageId : List Char} (hid : ImageKey imageId) (hord : Ordinary imageId)
    (hword : LiteralWord (absPath (layerDir imageId))) (shell : Shell) (p : Process)
    (key : List Char) :
    (Process.system shell (snprintf 1024 ("rm -rf ".toList ++ layerPath imageId)) p).2.fs.node
      (recordFile key) = p.fs.node (recordFile key) := by
  rw [hid.removeCommand, Process.system]
  simp only [Process.called_fs]
  by_cases hdir : p.fs.node layersDir = some .dir
  · have hrm : shell.system p.cwd p.fs ("rm -rf ".toList ++ absPath (layerDir imageId))
        = if shell.available then
            (if p.fs.removable shell.stuck (layerDir imageId) then 0 else 256,
              p.fs.rmTree shell.stuck (layerDir imageId) (layerDir_ne_nil _))
          else (-1, p.fs) :=
      shell.system_rm p.cwd ordinary_layersDir hord hdir hword
    rw [hrm]
    cases shell.available with
    | false => rfl
    | true =>
      exact p.fs.node_rmTree_outside _ _ (layerDir_ne_nil imageId) (metadata_outside _ _)
  · have hrm : shell.system p.cwd p.fs ("rm -rf ".toList ++ absPath (layerDir imageId))
        = if shell.available then (0, p.fs) else (-1, p.fs) :=
      shell.system_rm_absent p.cwd ordinary_layersDir hord hdir hword
    rw [hrm]
    cases shell.available <;> rfl

/-- What is stored under a key is a file that can be unlinked unless that
is denied. -/
theorem unlink_stored {imageId : List Char} (hid : ImageKey imageId) (denied : Bool) :
    (∃ fs, p.fs.unlink p.cwd (absPath (recordFile imageId)) denied = .ok fs) ↔
      denied = false ∧ catalogOf p imageId ≠ none := by
  have hstored : catalogOf p imageId ≠ none ↔ p.fs.node (recordFile imageId) ≠ none := by
    rw [catalogOf]
    cases hnode : p.fs.node (recordFile imageId) with
    | none => simp [entryOfNode]
    | some x =>
      obtain ⟨image, himage, rfl⟩ := hkept imageId x hnode
      simp [entryOfNode_record himage]
  rw [unlink_ok_iff, hstored]
  refine and_congr_right fun _ => ⟨?_, fun hnode => ?_⟩
  · rintro ⟨q, text, hq, hfile⟩
    obtain ⟨rfl, -⟩ := resolve_absPath_eq ordinary_metadataDir hid.ordinary hq
    rw [recordFile, hfile]
    simp
  · obtain ⟨x, hx⟩ := Option.ne_none_iff_exists'.mp hnode
    obtain ⟨image, -, rfl⟩ := hkept imageId x hx
    exact ⟨_, _, resolve_absPath_of_node ordinary_metadataDir hid.ordinary hnode, hx⟩

/-- Whatever becomes of the `rm`, no metadata file is below the layer's
directory. -/
theorem removeImage_sets {imageId : List Char} {denied : Bool} {shell : Shell}
    (h : (ImageCall.remove imageId denied shell).Meets) :
    (denied = false ∧ catalogOf p imageId ≠ none ∧
      (removeImage imageId denied shell p).1
        = (if (removeAnswers imageId denied shell p).swept then 0 else -1) ∧
      Sets p (removeImage imageId denied shell p).2 imageId none) ∨
    ((catalogOf p imageId = none ∨ denied = true) ∧ (removeImage imageId denied shell p).1 = -1 ∧
      (removeImage imageId denied shell p).2 = p) := by
  obtain ⟨hid, hord, hword⟩ := h
  have hiff := unlink_stored hkept hid denied
  rw [removeImage, hid.path]
  cases hun : p.fs.unlink p.cwd (absPath (recordFile imageId)) denied with
  | error e =>
    refine Or.inr ⟨?_, rfl, rfl⟩
    rw [hun] at hiff
    have hno : ¬ (denied = false ∧ catalogOf p imageId ≠ none) := by
      rw [← hiff]
      simp
    rw [not_and_or, not_not, Bool.not_eq_false, or_comm] at hno
    exact hno
  | ok fs =>
    obtain ⟨hgranted, hstored⟩ := hiff.mp ⟨fs, hun⟩
    obtain ⟨q, text, hq, hfile, hnode⟩ := unlink_ok hun
    obtain ⟨rfl, -⟩ := resolve_absPath_eq ordinary_metadataDir hid.ordinary hq
    have hframe := removal_frame hid hord hword shell { p with fs := fs }
    have hswept : (removeAnswers imageId denied shell p).swept
        = ((Process.system shell (snprintf 1024 ("rm -rf ".toList ++ layerPath imageId))
          { p with fs := fs }).1 == 0) := by
      simp only [removeAnswers, hid.path, hun]
      rfl
    have hresult : ∀ r : Int × Process, (if r.1 ≠ 0 then ((-1 : Int), r.2) else (0, r.2))
        = (if (r.1 == 0) = true then 0 else -1, r.2) := by
      intro r
      by_cases hzero : r.1 = 0
      · simp [hzero]
      · simp [hzero]
    simp only [hresult]
    refine Or.inl ⟨hgranted, hstored, by rw [hswept], fun key' => ?_⟩
    refine (hframe key').trans ((hnode _).trans ?_)
    exact if_congr ⟨recordFile_inj, fun he => he ▸ rfl⟩ rfl rfl

theorem remove_refines {imageId : List Char} {denied : Bool} {shell : Shell}
    (h : (ImageCall.remove imageId denied shell).Meets) :
    Catalog.Step (catalogOf p) ((ImageCall.remove imageId denied shell).answered p)
      ((ImageCall.remove imageId denied shell).run p).1
      (catalogOf ((ImageCall.remove imageId denied shell).run p).2) ∧
    Kept ((ImageCall.remove imageId denied shell).run p).2 := by
  simp only [ImageCall.run, ImageCall.answered]
  obtain ⟨hgranted, hstored, hresult, hsets⟩ | ⟨hcause, hresult, hsame⟩ := removeImage_sets hkept h
  · rw [catalogOf_sets hsets, hresult]
    exact ⟨.removed hstored (by rw [removeAnswers, hgranted]; rfl), hkept.sets hsets (by simp)⟩
  · rw [hresult, hsame]
    refine ⟨.notRemoved (hcause.imp_right fun hdenied => ?_), hkept⟩
    rw [removeAnswers, hdenied]
    rfl

theorem probe_refines {name : List Char} {tag : Option (List Char)}
    (h : (ImageCall.probe name tag).Meets) :
    Catalog.Step (catalogOf p) ((ImageCall.probe name tag).answered p)
      ((ImageCall.probe name tag).run p).1 (catalogOf ((ImageCall.probe name tag).run p).2) ∧
    Kept ((ImageCall.probe name tag).run p).2 := by
  simp only [ImageCall.run, ImageCall.answered]
  refine ⟨?_, hkept⟩
  have hsome : (imageExists name tag p = true) ↔
      (catalogOf p (getImageFullName name tag)).isSome = true := by
    rw [imageExists_iff h, Option.isSome_iff_ne_none]
    cases hnode : p.fs.node (imageFile name tag) with
    | none =>
      have hentry : catalogOf p (getImageFullName name tag) = none := congrArg entryOfNode hnode
      simp [hentry]
    | some x =>
      obtain ⟨image, himage, rfl⟩ := hkept _ x hnode
      have hentry : catalogOf p (getImageFullName name tag) = some image.entry :=
        (congrArg entryOfNode hnode).trans (entryOfNode_record himage)
      simp [hentry]
  have hresult : (if imageExists name tag p = true then (1 : Int) else 0)
      = if (catalogOf p (getImageFullName name tag)).isSome = true then 1 else 0 :=
    if_congr hsome rfl rfl
  rw [hresult]
  exact .probed _ _

theorem info_refines {imageId : List Char} {memory : Option ImageInfo} {denied : Bool}
    (h : (ImageCall.info imageId memory denied).Meets) :
    Catalog.Step (catalogOf p) ((ImageCall.info imageId memory denied).answered p)
      ((ImageCall.info imageId memory denied).run p).1
      (catalogOf ((ImageCall.info imageId memory denied).run p).2) ∧
    Kept ((ImageCall.info imageId memory denied).run p).2 := by
  simp only [ImageCall.run, ImageCall.answered]
  refine ⟨?_, hkept⟩
  cases memory with
  | none => exact .notFound (Or.inr fun h => absurd h.allocated (by simp))
  | some memory =>
    obtain ⟨hcause, hnone⟩ | ⟨hopen, image, himage, hstored, hread⟩ :=
      readImageMetadata_key h hkept memory denied
    · rw [getImageInfo, hnone]
      refine .notFound (hcause.imp_right fun hdenied hopened => ?_)
      have hopen : (!denied) = true := hopened.opened
      simp [hdenied] at hopen
    · rw [getImageInfo, hread, Option.map_some, entry_readImageText himage]
      exact .found hstored ⟨rfl, by rw [hopen]; rfl⟩

end Calls

theorem call_refines (call : ImageCall) (p : Process) (hkept : Kept p) (h : call.Meets) :
    Catalog.Step (catalogOf p) (call.answered p) (call.run p).1 (catalogOf (call.run p).2) ∧
      Kept (call.run p).2 := by
  cases call with
  | create name tag context env shell => exact create_refines hkept h
  | tagged imageId name tag env => exact tag_refines hkept h
  | remove imageId denied shell => exact remove_refines hkept h
  | probe name tag => exact probe_refines hkept h
  | info imageId memory denied => exact info_refines hkept h

section Runs

variable {calls : List ImageCall} {p : Process} (hkept : Kept p) (h : ∀ call ∈ calls, call.Meets)

include hkept h

theorem follows_answered :
    Follows Catalog.Step (catalogOf p)
        (seenWith ImageCall.answered (transitions ImageCall.run calls p))
        (catalogOf (finalState ImageCall.run calls p)) ∧
      Kept (finalState ImageCall.run calls p) := by
  refine follows_of_refines catalogOf ImageCall.answered Kept (fun t => t.action.Meets)
    call_refines hkept fun t ht => ?_
  obtain ⟨call, hcall, p', rfl⟩ := exists_of_mem_transitions ht
  exact h call hcall

/-- Every run of the image operations is a run of the catalog, with the
same results. The catalog has no other run with these calls and answers. -/
theorem image_runs_refined :
    (Follows Catalog.Step (catalogOf p)
        (seenWith ImageCall.answered (transitions ImageCall.run calls p))
        (catalogOf (finalState ImageCall.run calls p)) ∧
      Kept (finalState ImageCall.run calls p)) ∧
    ∀ seen c, Follows Catalog.Step (catalogOf p) seen c →
      seen.map Prod.fst = (seenWith ImageCall.answered (transitions ImageCall.run calls p)).map
        Prod.fst →
      seen = seenWith ImageCall.answered (transitions ImageCall.run calls p) ∧
        c = catalogOf (finalState ImageCall.run calls p) := by
  refine ⟨follows_answered hkept h, fun seen c hrun hsame => ?_⟩
  exact Follows.unique (fun _ _ _ _ _ _ step step' => step.unique step') hrun
    (follows_answered hkept h).1 hsame

/-- An image stored after a run is one that a `create_image` of the run
made, or that was stored before the run; and it is under its name by the
last call for the name that returned 0. -/
theorem stored_image_traced {key : List Char} {entry : ImageEntry}
    (hentry : catalogOf (finalState ImageCall.run calls p) key = some entry) :
    ((∃ t ∈ transitions ImageCall.run calls p, ∃ name tag context env shell,
        t.action = .create name tag context env shell ∧ t.result = .status 0 ∧
          newEntry env = entry) ∨ ∃ key', catalogOf p key' = some entry) ∧
    ((∃ before call after c,
        seenWith ImageCall.answered (transitions ImageCall.run calls p)
          = before ++ (call, .status 0) :: after ∧
        Follows Catalog.Step (catalogOf p) before c ∧ Catalog.Enters c call.call key entry ∧
        Catalog.Unwritten key (relabel Answered.call after)) ∨
      (catalogOf p key = some entry ∧
        Catalog.Unwritten key (seenOf ImageCall.label (transitions ImageCall.run calls p)))) := by
  obtain ⟨hfollows, -⟩ := follows_answered hkept h
  rw [← relabel_seenWith call_answered]
  refine ⟨?_, Catalog.entry_written hfollows hentry⟩
  refine (Catalog.entry_created hfollows hentry).imp_left ?_
  rw [relabel_seenWith call_answered]
  rintro ⟨key', hmem⟩
  obtain ⟨t, ht, hseen⟩ := List.mem_map.mp hmem
  obtain ⟨hlabel, hresult⟩ := Prod.mk.inj hseen
  cases haction : t.action with
  | create name tag context env shell =>
    rw [haction] at hlabel
    exact ⟨t, ht, name, tag, context, env, shell, haction, hresult,
      (CatalogCall.create.inj hlabel).2⟩
  | tagged imageId name tag env => simp [haction, ImageCall.label] at hlabel
  | remove imageId denied shell => simp [haction, ImageCall.label] at hlabel
  | probe name tag => simp [haction, ImageCall.label] at hlabel
  | info imageId memory denied => simp [haction, ImageCall.label] at hlabel

end Runs

/-- A call that is denied nothing, over the given memory. -/
def tagOver (memory : ImageInfo) : TagEnv where
  memory := some memory
  readDenied := false
  writeDenied := false

/-- `web` created, tagged as `app:v1` and removed. -/
def movedWeb : List ImageCall :=
  [ .create "web".toList none none sameSecond utilities,
    .tagged "web:latest".toList "app".toList (some "v1".toList) (tagOver ImageInfo.zeroed),
    .remove "web:latest".toList false utilities ]

theorem recordFile_storeProcess (key : List Char) :
    storeProcess.fs.node (recordFile key) = none :=
  (isEmptyDir_iff imageStore metadataDir).mp (by decide) _

theorem kept_storeProcess : Kept storeProcess := by
  intro key x hx
  rw [recordFile_storeProcess] at hx
  simp at hx

theorem movedWeb_meets : ∀ call ∈ movedWeb, call.Meets := by
  have hweb : PlainKey "web".toList none :=
    ⟨keyInput_web, by decide, ⟨by decide, by decide⟩, by decide, by decide⟩
  have happ : PlainKey "app".toList (some "v1".toList) :=
    ⟨⟨by decide, by decide, by decide, by decide, by decide⟩, by decide, ⟨by decide, by decide⟩,
      by decide, by decide⟩
  have hkey : ImageKey "web:latest".toList := ⟨by decide, by decide⟩
  have hword : PlainWord (absPath (layerDir "web:latest".toList)) := by decide
  simp only [movedWeb, List.forall_mem_cons, List.not_mem_nil, false_imp_iff, implies_true,
    and_true]
  refine ⟨⟨hweb, utilities_copies, trivial⟩, ⟨hkey, happ, by decide, by decide, ?_⟩,
    hkey, by decide, hword.literal⟩
  rintro memory ⟨⟩
  constructor
  · intro v hv
    have hnil : v = [] := by simpa [unreadValues, ImageInfo.zeroed] using hv
    exact hnil ▸ PlainValue.nil
  · intro v hv
    have hnil : v = [] := by simpa [restValues, ImageInfo.zeroed] using hv
    exact hnil ▸ PlainValue.nil

theorem movedWeb_refined :
    Follows Catalog.Step (catalogOf storeProcess)
        (seenWith ImageCall.answered (transitions ImageCall.run movedWeb storeProcess))
        (catalogOf (finalState ImageCall.run movedWeb storeProcess)) ∧
      Kept (finalState ImageCall.run movedWeb storeProcess) :=
  (image_runs_refined kept_storeProcess movedWeb_meets).1

/-- What is stored as `app:v1` is what was created as `web`. -/
theorem app_traced : ∃ t ∈ transitions ImageCall.run movedWeb storeProcess,
    ∃ name tag context env shell, t.action = .create name tag context env shell ∧
      t.result = .status 0 ∧ newEntry env = newEntry sameSecond := by
  have hstored : catalogOf (finalState ImageCall.run movedWeb storeProcess) "app:v1".toList
      = some (newEntry sameSecond) := by decide +kernel
  have htraced := stored_image_traced kept_storeProcess movedWeb_meets hstored
  refine htraced.1.resolve_right ?_
  rintro ⟨key', hentry⟩
  rw [catalogOf, recordFile_storeProcess] at hentry
  simp [entryOfNode] at hentry

end DockerClone.Image
