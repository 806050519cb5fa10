/-
DockerClone.Image.TagTheorems — what `tag_image` keeps of an image.

The record is read into fresh memory, given the new name and tag, and
written under the new key. The reader knows five of its strings; the
others, the layer list among them, are written from whatever the memory
held, and a layer count or a pointer that was never set is followed.
`strncpy` leaves the last byte of its target alone, so a name or a tag
that fills its array also depends on what stood there.
-/
import DockerClone.Image.KeyTheorems
import DockerClone.Image.NewImageTheorems
import DockerClone.Image.SuccessTheorems

namespace DockerClone.Image

open DockerClone.CLib DockerClone.Os DockerClone.Os.FileSystem DockerClone.Metadata

/-! ## 1. Records that are printed alike -/

/-- Line by line the same text. -/
structure PrintsAs (a b : ImageInfo) : Prop where
  entries : imageEntries a = imageEntries b
  rest : restValues a = restValues b

theorem layerIdLines_congr : ∀ {as bs : List LayerInfo},
    as.map (fun layer => cstr layer.id) = bs.map (fun layer => cstr layer.id) →
      layerIdLines as = layerIdLines bs
  | [], [], _ => rfl
  | [], _ :: _, h => by simp at h
  | _ :: _, [], h => by simp at h
  | [a], [b], h => by
      have hid : cstr a.id = cstr b.id := by simpa using h
      rw [layerIdLines, layerIdLines, hid]
  | [_], _ :: _ :: _, h => by simp at h
  | _ :: _ :: _, [_], h => by simp at h
  | a :: a' :: as, b :: b' :: bs, h => by
      have hid : cstr a.id = cstr b.id := (List.cons.inj h).1
      rw [layerIdLines, layerIdLines, hid, layerIdLines_congr (List.cons.inj h).2]

theorem imageText_congr {a b : ImageInfo} (h : PrintsAs a b) : imageText a = imageText b := by
  have hrest := h.rest
  simp only [restValues, List.cons_append, List.nil_append, List.cons.injEq] at hrest
  obtain ⟨hcommand, hworkdir, henv, hports, hvolumes, hlayers⟩ := hrest
  rw [imageText_eq, imageText_eq, h.entries, restLines, restLines, configLines, configLines,
    hcommand, hworkdir, henv, hports, hvolumes, layerIdLines_congr hlayers]

/-- The lines of the fields the reader does not know. -/
def unreadEntries (image : ImageInfo) : List Entry :=
  (imageEntries image).filter fun e =>
    match e with
    | .brace _ => true
    | .text key _ | .number key _ _ =>
        decide (key.name ∉ imageSlots.map (fun s => s.key.name))

theorem unreadEntries_readImageText (text : List Char) (c : ImageInfo) :
    unreadEntries (readImageText text c) = unreadEntries c := by
  refine frames_readText ?_ 1024 text c
  simp [imageSlots, Slot.Frames, unreadEntries, imageEntries, Slot.key]

theorem restValues_readImageText (text : List Char) (c : ImageInfo) :
    restValues (readImageText text c) = restValues c := by
  refine frames_readText ?_ 1024 text c
  simp [imageSlots, Slot.Frames, restValues]

theorem imageEntries_eq_iff (a b : ImageInfo) : imageEntries a = imageEntries b ↔
    unreadEntries a = unreadEntries b ∧ cstr a.id = cstr b.id ∧ cstr a.name = cstr b.name ∧
      cstr a.tag = cstr b.tag ∧ cstr a.created = cstr b.created ∧ cstr a.size = cstr b.size := by
  simp [unreadEntries, imageEntries, imageSlots, Slot.key]
  tauto

/-! ## 2. The new record -/

/-- The image under its new name and tag. -/
def renamed (image : ImageInfo) (name tag : List Char) : ImageInfo :=
  { image with
    name := name
    tag := tag }

/-- The memory held what reading the text of a created image does not
bring, and the new name and tag end where they should. -/
structure MemoryAgrees (image : ImageInfo) (memory : RawMemory) (name tag : List Char) :
    Prop where
  /-- No line in the old name or tag brings a string longer than its
  array. -/
  fits : TextFits (givenText image)
  /-- Nor an id that is not the image's. -/
  id : ∀ v ∈ (given image { name := "id" }).getLast?, v = cstr image.id
  /-- These strings are shorter than their arrays, so an array that agrees
  holds its string terminated. -/
  unread : unreadEntries memory.arrays = unreadEntries image
  rest : ∃ layers, memory.layerList = some layers ∧
    restValues (memory.image layers) = restValues image
  name : name.length < MAX_IMAGE_NAME_LEN - 1 ∨
    cstr (memory.arrays.name.drop (MAX_IMAGE_NAME_LEN - 1)) = [] ∨
    ∃ v ∈ given image { name := "name" }, v.length = MAX_IMAGE_NAME_LEN - 1
  tag : tag.length < MAX_IMAGE_TAG_LEN - 1 ∨
    cstr (memory.arrays.tag.drop (MAX_IMAGE_TAG_LEN - 1)) = [] ∨
    ∃ v ∈ given image { name := "tag" }, v.length = MAX_IMAGE_TAG_LEN - 1

/-- What is asked of a new name and tag. -/
structure NewKey (name tag : List Char) : Prop where
  name_nul : NulFree name
  name_len : name.length ≤ 255
  tag_nul : NulFree tag
  tag_len : tag.length ≤ 63

/-- What the record has to hold for the new one to be the image under its
new name and tag. -/
theorem printsAs_retagged (c image : ImageInfo) {name tag : List Char} (h : NewKey name tag) :
    PrintsAs (retagged c name tag) (renamed image name tag) ↔
      unreadEntries c = unreadEntries image ∧ restValues c = restValues image ∧
      cstr c.id = cstr image.id ∧ cstr c.created = cstr image.created ∧
      cstr c.size = cstr image.size ∧
      (name.length < MAX_IMAGE_NAME_LEN - 1 ∨
        cstr (c.name.drop (MAX_IMAGE_NAME_LEN - 1)) = []) ∧
      (tag.length < MAX_IMAGE_TAG_LEN - 1 ∨
        cstr (c.tag.drop (MAX_IMAGE_TAG_LEN - 1)) = []) := by
  have hname : cstr (retagged c name tag).name = cstr (renamed image name tag).name ↔ _ :=
    (Eq.congr_right (cstr_of_nulFree h.name_nul)).trans (cstr_strncpy_eq_iff h.name_nul h.name_len)
  have htag : cstr (retagged c name tag).tag = cstr (renamed image name tag).tag ↔ _ :=
    (Eq.congr_right (cstr_of_nulFree h.tag_nul)).trans (cstr_strncpy_eq_iff h.tag_nul h.tag_len)
  have hunread : unreadEntries (retagged c name tag) = unreadEntries (renamed image name tag) ↔
      unreadEntries c = unreadEntries image := by
    simp [unreadEntries, retagged, renamed, imageEntries, imageSlots, Slot.key]
  have hentries := imageEntries_eq_iff (retagged c name tag) (renamed image name tag)
  rw [hunread, hname, htag] at hentries
  constructor
  · rintro ⟨he, hrest⟩
    obtain ⟨h0, h1, h2, h3, h4, h5⟩ := hentries.mp he
    exact ⟨h0, hrest, h1, h4, h5, h2, h3⟩
  · rintro ⟨h0, hrest, h1, h4, h5, h2, h3⟩
    exact ⟨hentries.mpr ⟨h0, h1, h2, h3, h4, h5⟩, hrest⟩

section Read

variable {image : ImageInfo} (h : OwnWords image) (memory : ImageInfo)

include h

/-- The image's own id is read first, and what is given over it. -/
theorem id_read_iff : cstr (readImageText (imageText image) memory).id = cstr image.id ↔
    ∀ v ∈ (given image { name := "id" }).getLast?, v = cstr image.id := by
  have hread := cstr_readText lawful_imageSlots
    (List.getElem_mem (by decide) : imageSlots[0] ∈ imageSlots) 1024 (imageText image) memory
  rw [h.assigned_id, List.getLast?_cons, Option.getD_some] at hread
  refine (Eq.congr_left hread).trans ?_
  cases (given image { name := "id" }).getLast? with
  | none => simp
  | some v => simp

/-- The image's own time is read last, and so is its size. -/
theorem created_read : cstr (readImageText (imageText image) memory).created = cstr image.created := by
  have hread := cstr_readText lawful_imageSlots
    (List.getElem_mem (by decide) : imageSlots[3] ∈ imageSlots) 1024 (imageText image) memory
  rwa [h.assigned_created, List.getLast?_append, List.getLast?_singleton, Option.some_or,
    Option.getD_some] at hread

theorem size_read : cstr (readImageText (imageText image) memory).size = cstr image.size := by
  have hread := cstr_readText lawful_imageSlots
    (List.getElem_mem (by decide) : imageSlots[4] ∈ imageSlots) 1024 (imageText image) memory
  rwa [h.assigned_size, List.getLast?_append, List.getLast?_singleton, Option.some_or,
    Option.getD_some] at hread

variable (hfits : TextFits (givenText image))

include hfits

/-- The last byte of the name is as it was, or one of the strings that are
read ends there. -/
theorem name_end_iff :
    cstr ((readImageText (imageText image) memory).name.drop (MAX_IMAGE_NAME_LEN - 1)) = [] ↔
      cstr (memory.name.drop (MAX_IMAGE_NAME_LEN - 1)) = [] ∨
        ∃ v ∈ given image { name := "name" }, v.length = MAX_IMAGE_NAME_LEN - 1 := by
  have hread := get_readText lawful_imageSlots
    (List.getElem_mem (by decide) : imageSlots[1] ∈ imageSlots) 1024 (imageText image) memory
  rw [h.assigned_name] at hread
  have hshort : ∀ v ∈ given image { name := "name" }, v.length ≤ MAX_IMAGE_NAME_LEN - 1 :=
    fun v hv => Nat.le_sub_one_of_lt (hfits _ (List.getElem_mem (by decide : 1 < imageArrays.length))
      v hv)
  rw [← cstr_drop_foldl_store hshort, ← hread]
  rfl

theorem tag_end_iff :
    cstr ((readImageText (imageText image) memory).tag.drop (MAX_IMAGE_TAG_LEN - 1)) = [] ↔
      cstr (memory.tag.drop (MAX_IMAGE_TAG_LEN - 1)) = [] ∨
        ∃ v ∈ given image { name := "tag" }, v.length = MAX_IMAGE_TAG_LEN - 1 := by
  have hread := get_readText lawful_imageSlots
    (List.getElem_mem (by decide) : imageSlots[2] ∈ imageSlots) 1024 (imageText image) memory
  rw [h.assigned_tag] at hread
  have hshort : ∀ v ∈ given image { name := "tag" }, v.length ≤ MAX_IMAGE_TAG_LEN - 1 :=
    fun v hv => Nat.le_sub_one_of_lt (hfits _ (List.getElem_mem (by decide : 2 < imageArrays.length))
      v hv)
  rw [← cstr_drop_foldl_store hshort, ← hread]
  rfl

end Read

/-- It is exactly when the memory agrees with the image. -/
theorem printsAs_retagged_iff {image : ImageInfo} (h : OwnWords image)
    (hfits : TextFits (givenText image)) {memory : RawMemory} {layers : List LayerInfo}
    (hlayers : memory.layerList = some layers) {name tag : List Char} (hkey : NewKey name tag) :
    PrintsAs (retagged (readImageText (imageText image) (memory.image layers)) name tag)
      (renamed image name tag) ↔ MemoryAgrees image memory name tag := by
  rw [printsAs_retagged _ _ hkey, unreadEntries_readImageText, restValues_readImageText,
    id_read_iff h, name_end_iff h _ hfits, tag_end_iff h _ hfits]
  constructor
  · rintro ⟨hunread, hrest, hid, -, -, hname, htag⟩
    exact ⟨hfits, hid, hunread, ⟨layers, hlayers, hrest⟩, hname, htag⟩
  · rintro ⟨-, hid, hunread, ⟨layers', hlayers', hrest⟩, hname, htag⟩
    obtain rfl := Option.some.inj (hlayers.symm.trans hlayers')
    exact ⟨hunread, hrest, hid, created_read h _, size_read h _, hname, htag⟩

/-! ## 3. The call -/

/-- The tag a call is for: `latest` for NULL. -/
def newTag (tag : Option (List Char)) : List Char := tag.getD "latest".toList

/-- The record `tag_image` writes; `none` when it writes none. -/
def taggedRecord (imageId name tag : List Char) (memory : RawMemory) (denied : Bool) (cwd : Path)
    (fs : FileSystem) : Option ImageInfo :=
  memory.layerList.bind fun layers =>
    (getImageInfo imageId (some (memory.image layers)) denied cwd fs).map (retagged · name tag)

/-- The metadata file under a key holds this text. -/
def HoldsText (key text : List Char) (cwd : Path) (fs : FileSystem) : Prop :=
  fs.openRead cwd (metadataPath key) false = some text

/-- After the call the new key has the image with nothing but name and tag
replaced, and another key of the image still has the image. -/
structure TagKeeps (image : ImageInfo) (k name tag : List Char) (record : Option ImageInfo)
    (cwd : Path) (fs : FileSystem) : Prop where
  recorded : ∃ written, record = some written ∧ PrintsAs written (renamed image name tag) ∧
    HoldsText (getImageFullName name (some tag)) (imageText written) cwd fs
  original : getImageFullName name (some tag) ≠ k → HoldsText k (imageText image) cwd fs

/-- The new key does not lead to the image's file, unless it is the old one
or the text to be written there is the same. -/
def KeyApart (image : ImageInfo) (k name tag : List Char) (cwd : Path) (fs : FileSystem) : Prop :=
  getImageFullName name (some tag) = k ∨
    fs.resolve cwd (metadataPath (getImageFullName name (some tag)))
      ≠ fs.resolve cwd (metadataPath k) ∨
    imageText (renamed image name tag) = imageText image

section Call

variable {image memory : ImageInfo} {k name tag : List Char} {env : TagEnv} {cwd : Path}
  {fs : FileSystem}

/-- A stored record is a file of that text. -/
theorem node_of_holdsText (h : HoldsText k (imageText image) cwd fs) :
    ∃ p, fs.resolve cwd (metadataPath k) = .ok p ∧
      fs.node p = some (.file (imageText image)) := by
  have hne : imageText image ≠ [] := by simp [imageText_eq, entriesText, imageEntries, Entry.line]
  unfold HoldsText openRead at h
  rw [if_neg (by simp)] at h
  cases hp : fs.resolve cwd (metadataPath k) with
  | error e => rw [hp] at h; simp at h
  | ok p =>
    rw [hp] at h
    refine ⟨p, rfl, ?_⟩
    cases hnode : fs.node p with
    | none => simp [hnode] at h
    | some x =>
      cases x with
      | dir => simp [hnode] at h; exact absurd h hne
      | file content => simp [hnode] at h; rw [h]

theorem holdsText_iff_node {p : Path} {content text : List Char}
    (hp : fs.resolve cwd (metadataPath k) = .ok p) (hnode : fs.node p = some (.file content)) :
    HoldsText k text cwd fs ↔ content = text := by
  unfold HoldsText openRead
  rw [if_neg (by simp), hp]
  simp [hnode]

/-- Under its new name the record goes to the new key. -/
theorem imagePath_of_printsAs {written : ImageInfo} (h : NewKey name tag)
    (hprints : PrintsAs written (renamed image name tag)) :
    imagePath written = metadataPath (getImageFullName name (some tag)) := by
  obtain ⟨-, -, hname, htag, -⟩ := (imageEntries_eq_iff _ _).mp hprints.entries
  have hname' : cstr written.name = name := hname.trans (cstr_of_nulFree h.name_nul)
  have htag' : cstr written.tag = tag := htag.trans (cstr_of_nulFree h.tag_nul)
  rw [imagePath, hname', htag']

/-- A call that returns 0 read the image over the memory and wrote the
record. -/
theorem tagImage_zero {memory : ImageInfo} {label : Option (List Char)}
    (hmem : env.memory = some memory) (hfile : HoldsText k (imageText image) cwd fs)
    (hzero : (tagImage k name label env cwd fs).1 = 0) :
    ∃ written, written = retagged (readImageText (imageText image) memory) name
        (newTag label) ∧
      (getImageInfo k env.memory env.readDenied cwd fs).map (retagged · name (newTag label))
        = some written ∧
      fs.openWrite cwd (imagePath written) env.writeDenied (imageText written)
        = .ok (tagImage k name label env cwd fs).2 := by
  have hread : readImageMetadata k env.readDenied cwd fs memory
      = if env.readDenied then none else some (readImageText (imageText image) memory) := by
    unfold HoldsText at hfile
    rw [readImageMetadata]
    cases env.readDenied with
    | true => rfl
    | false => rw [hfile]; rfl
  have hget : getImageInfo k env.memory env.readDenied cwd fs
      = if env.readDenied then none else some (readImageText (imageText image) memory) := by
    rw [hmem, ← hread]
    rfl
  rw [tagImage, hget] at hzero
  rw [hget, tagImage, hget]
  cases hdenied : env.readDenied with
  | true => simp [hdenied] at hzero
  | false =>
    simp only [hdenied, Bool.false_eq_true, if_false, Option.map_some] at hzero ⊢
    exact ⟨_, rfl, rfl, writeImageMetadata_zero (Prod.ext hzero rfl)⟩

/-- What is in the two files after the record was written. -/
theorem tagKeeps_iff {written : ImageInfo} {fs' : FileSystem} {denied : Bool}
    (hkey : NewKey name tag) (hfile : HoldsText k (imageText image) cwd fs)
    (hwrite : fs.openWrite cwd (imagePath written) denied (imageText written) = .ok fs') :
    TagKeeps image k name tag (some written) cwd fs' ↔
      PrintsAs written (renamed image name tag) ∧ KeyApart image k name tag cwd fs := by
  obtain ⟨p, hp, hnode⟩ := node_of_holdsText hfile
  obtain ⟨q, hq, hnotdir, hnew⟩ := openWrite_ok hwrite
  have hp' := resolve_mono (fun _ h => dir_openWrite hwrite h) hp
  -- the image's own file after the write
  have hold : HoldsText k (imageText image) cwd fs' ↔
      (p = q → imageText written = imageText image) := by
    have hpnode := hnew p
    by_cases hpq : p = q
    · rw [if_pos hpq] at hpnode
      rw [holdsText_iff_node hp' hpnode]
      exact ⟨fun h _ => h, fun h => h hpq⟩
    · rw [if_neg hpq, hnode] at hpnode
      rw [holdsText_iff_node hp' hpnode]
      exact iff_of_true rfl (fun h => absurd h hpq)
  have hapart : PrintsAs written (renamed image name tag) →
      ((getImageFullName name (some tag) ≠ k → (p = q → imageText written = imageText image)) ↔
      KeyApart image k name tag cwd fs) := by
    intro hsame
    rw [imagePath_of_printsAs hkey hsame] at hq
    rw [KeyApart, hq, hp, imageText_congr hsame]
    by_cases hk : getImageFullName name (some tag) = k
    · simp [hk]
    · by_cases hpq : p = q
      · simp [hk, hpq]
      · simp [hk, hpq, Ne.symm hpq]
  constructor
  · rintro ⟨⟨w, hw, hsame, -⟩, horiginal⟩
    obtain rfl := Option.some.inj hw
    exact ⟨hsame, (hapart hsame).mp fun hk => hold.mp (horiginal hk)⟩
  · rintro ⟨hsame, hkeyapart⟩
    refine ⟨⟨written, rfl, hsame, ?_⟩, fun hk => hold.mpr ((hapart hsame).mpr hkeyapart hk)⟩
    have hread := openRead_openWrite hwrite
    rw [imagePath_of_printsAs hkey hsame] at hread
    exact hread

end Call

/-- The call runs inside its memory, returns 0 and keeps the image. -/
def TaggingKeeps (image : ImageInfo) (k name : List Char) (tag : Option (List Char))
    (memory : RawMemory) (readDenied writeDenied : Bool) (cwd : Path) (fs : FileSystem) : Prop :=
  ∃ fs', tagImageWithin k name tag (some memory) readDenied writeDenied cwd fs = some (0, fs') ∧
    TagKeeps image k name (newTag tag)
      (taggedRecord k name (newTag tag) memory readDenied cwd fs) cwd fs'

section Within

variable {image : ImageInfo} {memory : RawMemory} {k name : List Char} {tag : Option (List Char)}
  {readDenied writeDenied : Bool} {cwd : Path} {fs : FileSystem}

theorem tagImage_status (env : TagEnv) :
    (tagImage k name tag env cwd fs).1 = 0 ∨ (tagImage k name tag env cwd fs).1 = -1 := by
  rw [tagImage]
  split
  · exact Or.inr rfl
  · rw [writeImageMetadata]
    split
    · exact Or.inl rfl
    · exact Or.inr rfl

/-- What is read is the image, if the file can be opened at all. -/
theorem readsInside_iff (hfile : HoldsText k (imageText image) cwd fs) :
    ReadsInside k readDenied cwd fs ↔ (readDenied = false → TextFits (imageText image)) := by
  unfold HoldsText at hfile
  unfold ReadsInside
  cases readDenied with
  | true =>
    refine iff_of_true ?_ (by simp)
    intro array _ v hv
    simp [openRead, assigned] at hv
  | false =>
    rw [hfile]
    simp

/-- Where the text fits and the layers can be followed, the call is the
plain one. -/
theorem tagImageWithin_eq {layers : List LayerInfo} (hlayers : memory.layerList = some layers)
    (hinside : ReadsInside k readDenied cwd fs) :
    tagImageWithin k name tag (some memory) readDenied writeDenied cwd fs
      = some (tagImage k name tag
        { memory := some (memory.image layers), readDenied, writeDenied } cwd fs) := by
  simp only [tagImageWithin, if_pos hinside, hlayers]

theorem tagImageWithin_unread (hlayers : memory.layerList = none) (fs' : FileSystem) :
    tagImageWithin k name tag (some memory) readDenied writeDenied cwd fs ≠ some (0, fs') := by
  intro hcall
  simp only [tagImageWithin, hlayers] at hcall
  split_ifs at hcall with hinside hzero
  exact hzero (congrArg Prod.fst (Option.some.inj hcall))

theorem tagImageWithin_outside (hinside : ¬ ReadsInside k readDenied cwd fs) :
    tagImageWithin k name tag (some memory) readDenied writeDenied cwd fs = none := by
  simp only [tagImageWithin, if_neg hinside]

end Within

/-- Tagging keeps a created image exactly when the fresh memory happened
to hold what the reader does not bring and the new key leads elsewhere. -/
theorem tag_keeps_image_iff (oldName : List Char) (oldTag : Option (List Char)) (made : CreateEnv)
    (layer : LayerInfo) (memory : RawMemory) (k name : List Char) (tag : Option (List Char))
    (readDenied writeDenied : Bool) (cwd : Path) (fs : FileSystem) (hkey : NewKey name (newTag tag))
    (hfile : HoldsText k (imageText (newImage oldName oldTag made layer)) cwd fs)
    (hreturns : ∀ fs', tagImageWithin k name tag (some memory) readDenied writeDenied cwd fs
      ≠ some (-1, fs')) :
    TaggingKeeps (newImage oldName oldTag made layer) k name tag memory readDenied writeDenied cwd
        fs ↔
      MemoryAgrees (newImage oldName oldTag made layer) memory name (newTag tag) ∧
        KeyApart (newImage oldName oldTag made layer) k name (newTag tag) cwd fs := by
  have hown := ownWords_newImage oldName oldTag made layer
  generalize newImage oldName oldTag made layer = image at hfile hown ⊢
  by_cases hinside : ReadsInside k readDenied cwd fs
  · cases hlayers : memory.layerList with
    | none =>
      refine iff_of_false ?_ ?_
      · rintro ⟨fs', hcall, -⟩
        exact tagImageWithin_unread hlayers fs' hcall
      · rintro ⟨⟨-, -, -, ⟨layers, hsome, -⟩, -, -⟩, -⟩
        exact absurd (hlayers.symm.trans hsome) (by simp)
    | some layers =>
      have hcall : tagImageWithin k name tag (some memory) readDenied writeDenied cwd fs
          = some (tagImage k name tag
            { memory := some (memory.image layers), readDenied, writeDenied } cwd fs) :=
        tagImageWithin_eq hlayers hinside
      have hzero : (tagImage k name tag
          { memory := some (memory.image layers), readDenied, writeDenied } cwd fs).1 = 0 :=
        (tagImage_status _).resolve_right
          fun hminus => hreturns _ (hcall.trans (congrArg some (Prod.ext hminus rfl)))
      obtain ⟨written, hwritten, hrecord, hwrite⟩ := tagImage_zero rfl hfile hzero
      have hopen : readDenied = false := by
        cases readDenied with
        | true => exact absurd hrecord (by simp [getImageInfo, readImageMetadata, openRead])
        | false => rfl
      have hfits := hown.textFits_iff.mp ((readsInside_iff hfile).mp hinside hopen)
      have hprints := printsAs_retagged_iff hown hfits hlayers hkey
      have htagged : taggedRecord k name (newTag tag) memory readDenied cwd fs = some written := by
        rw [taggedRecord, hlayers]
        exact hrecord
      rw [← hprints, ← hwritten, ← tagKeeps_iff hkey hfile hwrite, TaggingKeeps, hcall, htagged]
      constructor
      · rintro ⟨fs', hsame, hkeeps⟩
        obtain ⟨-, rfl⟩ := Prod.mk.inj (Option.some.inj hsame)
        exact hkeeps
      · exact fun hkeeps => ⟨_, congrArg some (Prod.ext hzero rfl), hkeeps⟩
  · have hunfit : ¬ TextFits (imageText image) := fun hfit =>
      hinside ((readsInside_iff hfile).mpr fun _ => hfit)
    refine iff_of_false ?_ fun hall =>
      hunfit (hown.textFits_iff.mpr hall.1.fits)
    rintro ⟨fs', hcall, -⟩
    rw [tagImageWithin_outside hinside] at hcall
    exact absurd hcall (by simp)

/-! ## 4. An image called web -/

/-- What `create_image` records of `web`. -/
def recordedWeb : ImageInfo :=
  newImage "web".toList none sameSecond { id := zeros MAX_LAYER_ID_LEN }

/-- The store after it is written. -/
def recordedStore : FileSystem := (writeImageMetadata recordedWeb false [] emptyStore).2

theorem recordedWeb_written : (writeImageMetadata recordedWeb false [] emptyStore).1 = 0 := by
  decide

theorem fileName_recordedWeb : fileName recordedWeb = "web:latest.json".toList := by decide

theorem stored_recordedStore : Stored recordedStore [recordedWeb] :=
  stored_emptyStore.write (by decide) (by simp) (Prod.ext recordedWeb_written rfl)

theorem holdsText_recordedWeb :
    HoldsText "web:latest".toList (imageText recordedWeb) [] recordedStore := by
  have hpath : imagePath recordedWeb = metadataPath "web:latest".toList := by decide
  have hread : recordedStore.openRead [] (imagePath recordedWeb) false
      = some (imageText recordedWeb) :=
    openRead_openWrite (writeImageMetadata_zero (Prod.ext recordedWeb_written rfl))
  rwa [hpath] at hread

/-- Memory that still holds the image. -/
def agreeingMemory : RawMemory where
  arrays := recordedWeb
  layerCount := 1
  pointee := recordedWeb.layers

/-- Memory of zeros. -/
def zeroedMemory : RawMemory where
  arrays := ImageInfo.zeroed
  layerCount := 0
  pointee := []

theorem newKey_edge : NewKey "web".toList "edge".toList :=
  ⟨by decide, by decide, by decide, by decide⟩

theorem given_recordedWeb : TextFits (givenText recordedWeb) ∧
    given recordedWeb { name := "id" } = [] :=
  given_of_oneLine (by decide) (by decide) (by decide) (by decide)

theorem agreeingMemory_agrees :
    MemoryAgrees recordedWeb agreeingMemory "web".toList "edge".toList where
  fits := given_recordedWeb.1
  id := by
    rw [given_recordedWeb.2]
    simp
  unread := rfl
  rest := ⟨recordedWeb.layers, rfl, rfl⟩
  name := Or.inl (by decide)
  tag := Or.inl (by decide)

theorem imagePath_retagged (c : ImageInfo) {name tag : List Char} (h : NewKey name tag)
    (hname : name.length < MAX_IMAGE_NAME_LEN - 1) (htag : tag.length < MAX_IMAGE_TAG_LEN - 1) :
    imagePath (retagged c name tag) = metadataPath (getImageFullName name (some tag)) := by
  have hn : cstr (retagged c name tag).name = name := cstr_strncpy_of_lt h.name_nul hname _
  have ht : cstr (retagged c name tag).tag = tag := cstr_strncpy_of_lt h.tag_nul htag _
  rw [imagePath, hn, ht]

/-- Nothing stands in the way of `web:edge`. -/
theorem edge_written (c : ImageInfo) : (writeImageMetadata (retagged c "web".toList
    "edge".toList) false [] recordedStore).1 = 0 := by
  have hpath : metadataPath (getImageFullName "web".toList (some "edge".toList))
      = absPath (metadataDir ++ ["web:edge.json".toList]) := by decide
  have hfree : recordedStore.node (metadataDir ++ ["web:edge.json".toList]) ≠ some .dir := by
    have hnew : "web:edge.json".toList ∉ [recordedWeb].map fileName := by
      rw [List.map_singleton, fileName_recordedWeb]
      decide
    rw [not_ne_iff.mp (mt (stored_recordedStore.files _).mp hnew)]
    exact Option.some_ne_none _ |>.symm
  rw [writeImageMetadata_zero_iff, imagePath_retagged c newKey_edge (by decide) (by decide), hpath,
    openWrite_absPath _ _ ordinary_metadataDir (by decide)]
  exact ⟨rfl, stored_recordedStore.dir, hfree⟩

theorem tagImage_recordedWeb (memory : ImageInfo) : (tagImage "web:latest".toList "web".toList
    (some "edge".toList) { memory := some memory, readDenied := false, writeDenied := false } []
    recordedStore).1 = 0 := by
  have hread : getImageInfo "web:latest".toList (some memory) false [] recordedStore
      = some (readImageText (imageText recordedWeb) memory) := by
    have hfile : recordedStore.openRead [] (metadataPath "web:latest".toList) false
        = some (imageText recordedWeb) := holdsText_recordedWeb
    unfold getImageInfo readImageMetadata
    rw [hfile]
  unfold tagImage
  rw [hread]
  exact edge_written _

theorem tagging_recordedWeb {memory : RawMemory} (layers : List LayerInfo)
    (hlayers : memory.layerList = some layers) : ∀ fs', tagImageWithin "web:latest".toList
      "web".toList (some "edge".toList) (some memory) false false [] recordedStore
      ≠ some (-1, fs') := by
  have hinside : ReadsInside "web:latest".toList false [] recordedStore :=
    (readsInside_iff holdsText_recordedWeb).mpr fun _ =>
      (ownWords_newImage _ _ _ _).textFits_iff.mpr given_recordedWeb.1
  intro fs' hcall
  rw [tagImageWithin_eq hlayers hinside] at hcall
  have hresult := congrArg Prod.fst (Option.some.inj hcall)
  rw [tagImage_recordedWeb] at hresult
  simp at hresult

theorem keyApart_edge : KeyApart recordedWeb "web:latest".toList "web".toList "edge".toList []
    recordedStore := by
  have hold : metadataPath "web:latest".toList
      = absPath (metadataDir ++ ["web:latest.json".toList]) := by decide
  have hnew : metadataPath (getImageFullName "web".toList (some "edge".toList))
      = absPath (metadataDir ++ ["web:edge.json".toList]) := by decide
  refine Or.inr (Or.inl ?_)
  rw [hold, hnew, resolve_absPath ordinary_metadataDir (by decide) stored_recordedStore.dir,
    resolve_absPath ordinary_metadataDir (by decide) stored_recordedStore.dir]
  decide

/-- Over memory that holds the image the copy is the image. -/
theorem web_tagged_over_itself : TaggingKeeps recordedWeb "web:latest".toList "web".toList
    (some "edge".toList) agreeingMemory false false [] recordedStore :=
  (tag_keeps_image_iff "web".toList none sameSecond { id := zeros MAX_LAYER_ID_LEN } agreeingMemory
    "web:latest".toList "web".toList (some "edge".toList) false false [] recordedStore newKey_edge
    holdsText_recordedWeb (tagging_recordedWeb recordedWeb.layers rfl)).mpr
    ⟨agreeingMemory_agrees, keyApart_edge⟩

/-- Over zeroed memory the architecture is lost, although the call returns
0. -/
theorem zeroed_memory_loses_fields :
    (∃ fs', tagImageWithin "web:latest".toList "web".toList (some "edge".toList)
      (some zeroedMemory) false false [] recordedStore = some (0, fs')) ∧
    ¬ TaggingKeeps recordedWeb "web:latest".toList "web".toList (some "edge".toList) zeroedMemory
      false false [] recordedStore := by
  have hown : OwnWords recordedWeb := ownWords_newImage _ _ _ _
  have hinside : ReadsInside "web:latest".toList false [] recordedStore :=
    (readsInside_iff holdsText_recordedWeb).mpr fun _ => hown.textFits_iff.mpr given_recordedWeb.1
  have hlayers : zeroedMemory.layerList = some [] := rfl
  have hcall : tagImageWithin "web:latest".toList "web".toList (some "edge".toList)
      (some zeroedMemory) false false [] recordedStore = some (tagImage "web:latest".toList
        "web".toList (some "edge".toList) ⟨some (zeroedMemory.image []), false, false⟩ []
        recordedStore) := tagImageWithin_eq hlayers hinside
  have hzero := tagImage_recordedWeb (zeroedMemory.image [])
  refine ⟨⟨_, hcall.trans (congrArg some (Prod.ext hzero rfl))⟩, ?_⟩
  rintro ⟨fs', -, ⟨w, hw, hsame, -⟩, -⟩
  obtain ⟨written, hwritten, hrecord, -⟩ := tagImage_zero rfl holdsText_recordedWeb hzero
  have htagged : taggedRecord "web:latest".toList "web".toList (newTag (some "edge".toList))
      zeroedMemory false [] recordedStore = some written := by
    rw [taggedRecord, hlayers]
    exact hrecord
  obtain rfl := Option.some.inj (htagged.symm.trans hw)
  rw [hwritten] at hsame
  have hagree := (printsAs_retagged_iff hown given_recordedWeb.1 hlayers newKey_edge).mp hsame
  have hlines := congrArg (List.map Entry.line) hagree.unread
  exact absurd hlines (by decide +kernel)

end DockerClone.Image
