/-
DockerClone.Image.ListTheorems — which images are listed.

`list_images` gives `read_image_metadata` the PATH of a directory entry,
and `read_image_metadata` takes its argument for an id: it puts the
metadata directory in front of it once more and a second `.json` behind
it. The file it then opens would lie in a directory `tmp` below the
metadata directory. A directory that holds image metadata only has no
such entry (`resolve_below_missing`), so every read fails and the list
is empty, whatever is stored (`lists_exactly_iff`).
-/
import DockerClone.Image.Store

namespace DockerClone.Image

open DockerClone.CLib DockerClone.Os DockerClone.Os.FileSystem DockerClone.Metadata

/-! ## 1. Stored images -/

/-- `/tmp/docker-metadata`. -/
def metadataDir : Path := ["tmp".toList, "docker-metadata".toList]

theorem metadataDir_path : METADATA_DIR.toList = absPath metadataDir := by decide

theorem ordinary_metadataDir : ∀ m ∈ metadataDir, Ordinary m := by decide

/-- The name of the file an image is written to. -/
def fileName (image : ImageInfo) : Name :=
  getImageFullName (cstr image.name) (some (cstr image.tag)) ++ ".json".toList

/-- The metadata directory holds the files written for these images, one
each, and nothing else. -/
structure Stored (fs : FileSystem) (images : List ImageInfo) : Prop where
  dir : fs.node metadataDir = some .dir
  files : ∀ n, fs.node (metadataDir ++ [n]) ≠ none ↔ n ∈ images.map fileName
  content : ∀ image ∈ images,
    fs.node (metadataDir ++ [fileName image]) = some (.file (imageText image))
  distinct : (images.map fileName).Nodup

/-- An image whose key can be a file name: no slash in it, and no longer
than its arrays. -/
structure Keyed (image : ImageInfo) : Prop where
  name_short : (cstr image.name).length < MAX_IMAGE_NAME_LEN
  tag_short : (cstr image.tag).length < MAX_IMAGE_TAG_LEN
  name_slash : '/' ∉ cstr image.name
  tag_slash : '/' ∉ cstr image.tag

instance (image : ImageInfo) : Decidable (Keyed image) :=
  decidable_of_iff
    ((cstr image.name).length < MAX_IMAGE_NAME_LEN ∧ (cstr image.tag).length < MAX_IMAGE_TAG_LEN ∧
      '/' ∉ cstr image.name ∧ '/' ∉ cstr image.tag)
    ⟨fun h => ⟨h.1, h.2.1, h.2.2.1, h.2.2.2⟩, fun h => ⟨h.1, h.2, h.3, h.4⟩⟩

/-! ## 2. Writing stores -/

/-- The tag part of a full name. -/
def tagText (tag : List Char) : List Char := if tag.length > 0 then tag else "latest".toList

/-- A full name is the name, a colon and the tag part, cut to its array. -/
theorem getImageFullName_eq (name : List Char) (tag : Option (List Char)) :
    getImageFullName name tag = snprintf (MAX_IMAGE_NAME_LEN + MAX_IMAGE_TAG_LEN + 2)
      (name ++ ':' :: tagText (tag.getD [])) := by
  have hlatest : ":latest".toList = ':' :: "latest".toList := by decide
  cases tag with
  | none => exact congrArg (fun t => snprintf _ (name ++ t)) hlatest
  | some tag =>
    unfold getImageFullName tagText
    simp only [Option.getD_some]
    split
    · rfl
    · rw [hlatest]

theorem length_getImageFullName (name : List Char) (tag : Option (List Char)) :
    (getImageFullName name tag).length ≤ 321 := by
  rw [getImageFullName_eq]
  exact List.length_take_le _ _

/-- A name and a tag that can be part of a file name. -/
def SlashFree (name : List Char) (tag : Option (List Char)) : Prop :=
  '/' ∉ name ∧ '/' ∉ tag.getD []

instance (name : List Char) (tag : Option (List Char)) : Decidable (SlashFree name tag) := by
  unfold SlashFree; infer_instance

theorem ordinary_imageJson {name : List Char} {tag : Option (List Char)} (h : SlashFree name tag) :
    Ordinary (getImageFullName name tag ++ ".json".toList) := by
  have hjson : '/' ∉ ".json".toList := by decide
  have htag : '/' ∉ tagText (tag.getD []) := by
    rw [tagText]
    split
    · exact h.2
    · decide
  have hfull : '/' ∉ getImageFullName name tag := by
    intro hm
    rw [getImageFullName_eq] at hm
    rcases List.mem_append.mp (snprintf_subset _ _ hm) with hm | hm
    · exact h.1 hm
    · rcases List.mem_cons.mp hm with he | hm
      · simp at he
      · exact htag hm
  have hlong : 4 < (getImageFullName name tag ++ ".json".toList).length := by
    have hlen : ".json".toList.length = 5 := by decide
    rw [List.length_append, hlen]
    omega
  refine ⟨?_, ?_, ?_, ?_⟩
  · intro he; rw [he] at hlong; simp at hlong
  · intro he; rw [he] at hlong; simp at hlong
  · intro he; rw [he] at hlong; simp at hlong
  · rw [List.mem_append, not_or]
    exact ⟨hfull, hjson⟩

theorem ordinary_fileName {image : ImageInfo} (h : Keyed image) : Ordinary (fileName image) :=
  ordinary_imageJson ⟨h.name_slash, h.tag_slash⟩

/-- The path of the file of a name and a tag. -/
theorem metadataPath_getImageFullName (name : List Char) (tag : Option (List Char)) :
    metadataPath (getImageFullName name tag)
      = absPath (metadataDir ++ [getImageFullName name tag ++ ".json".toList]) := by
  have hdir : METADATA_DIR.toList.length = 20 := by decide
  have hname := length_getImageFullName name tag
  have hjson : ".json".toList.length = 5 := by decide
  rw [metadataPath, MAX_PATH_LEN, snprintf_of_lt, absPath_concat, metadataDir_path]
  · simp
  · simp only [List.length_append, List.length_cons, hdir, hjson]
    omega

theorem metadataPath_fullName (image : ImageInfo) :
    metadataPath (getImageFullName (cstr image.name) (some (cstr image.tag)))
      = absPath (metadataDir ++ [fileName image]) :=
  metadataPath_getImageFullName _ _

/-- A directory without entries stores nothing. -/
theorem stored_nil {fs : FileSystem} (hdir : fs.node metadataDir = some .dir)
    (hempty : ∀ n, fs.node (metadataDir ++ [n]) = none) : Stored fs [] where
  dir := hdir
  files := fun n => by simp [hempty n]
  content := fun image h => absurd h (by simp)
  distinct := by simp

/-- A successful write under a new key stores one more image. -/
theorem Stored.write {fs fs' : FileSystem} {images : List ImageInfo} (h : Stored fs images)
    {image : ImageInfo} (hkey : Keyed image) (hnew : fileName image ∉ images.map fileName)
    {denied : Bool} {cwd : Path}
    (hwrite : writeImageMetadata image denied cwd fs = (0, fs')) : Stored fs' (image :: images) := by
  obtain ⟨p, hp, -, hnode⟩ : ∃ p,
      fs.resolve cwd (absPath (metadataDir ++ [fileName image])) = .ok p ∧
      fs.node p ≠ some .dir ∧
      ∀ q, fs'.node q = if q = p then some (.file (imageText image)) else fs.node q := by
    rw [writeImageMetadata, metadataPath_fullName] at hwrite
    split at hwrite
    · rename_i fs₁ hopen
      obtain rfl : fs₁ = fs' := (Prod.mk.inj hwrite).2
      exact openWrite_ok hopen
    · simp at hwrite
  obtain ⟨rfl, -⟩ := resolve_absPath_eq ordinary_metadataDir (ordinary_fileName hkey) hp
  refine ⟨?_, ?_, ?_, ?_⟩
  · rw [hnode, if_neg (by simp), h.dir]
  · intro n
    rw [hnode]
    by_cases hn : n = fileName image
    · simp [hn]
    · rw [if_neg (by simpa using hn), h.files]
      simp [hn]
  · intro other hother
    rw [hnode]
    rcases List.mem_cons.mp hother with rfl | hmem
    · rw [if_pos rfl]
    · have hne : fileName other ≠ fileName image :=
        fun he => hnew (he ▸ List.mem_map_of_mem hmem)
      rw [if_neg (by simpa using hne), h.content other hmem]
  · rw [List.map_cons, List.nodup_cons]
    exact ⟨hnew, h.distinct⟩

/-- The stores that runs of `write_image_metadata` under new keys reach
from an empty directory. -/
inductive Written (cwd : Path) : FileSystem → List ImageInfo → Prop where
  | empty {fs : FileSystem} : fs.node metadataDir = some .dir →
      (∀ n, fs.node (metadataDir ++ [n]) = none) → Written cwd fs []
  | write {fs fs' : FileSystem} {images : List ImageInfo} {image : ImageInfo} {denied : Bool} :
      Written cwd fs images → Keyed image → fileName image ∉ images.map fileName →
      writeImageMetadata image denied cwd fs = (0, fs') → Written cwd fs' (image :: images)

theorem Written.stored {cwd : Path} {fs : FileSystem} {images : List ImageInfo}
    (h : Written cwd fs images) : Stored fs images := by
  induction h with
  | empty hdir hempty => exact stored_nil hdir hempty
  | write _ hkey hnew hwrite ih => exact ih.write hkey hnew hwrite

/-! ## 3. Reading a listed path -/

/-- No image is written to a file called `tmp`. -/
theorem Stored.no_tmp {fs : FileSystem} {images : List ImageInfo} (h : Stored fs images) :
    fs.node (metadataDir ++ ["tmp".toList]) = none := by
  by_contra hne
  obtain ⟨image, -, himage⟩ := List.mem_map.mp ((h.files _).mp hne)
  have hlen := congrArg List.length himage
  rw [fileName, List.length_append] at hlen
  have hjson : ".json".toList.length = 5 := by decide
  have htmp : "tmp".toList.length = 3 := by decide
  omega

/-- The path that is built for an entry's path. -/
theorem metadataPath_of_entry (name : Name) :
    ∃ rest, metadataPath (snprintf MAX_PATH_LEN (METADATA_DIR.toList ++ '/' :: name))
      = absPath metadataDir ++ '/' :: '/' :: ("tmp".toList ++ '/' :: rest) := by
  have htmp : METADATA_DIR.toList = "/tmp/".toList ++ "docker-metadata".toList := by decide
  have hfive : "/tmp/".toList.length = 5 := by decide
  have hdir : METADATA_DIR.toList.length = 20 := by decide
  have hinner : ∃ rest, snprintf MAX_PATH_LEN (METADATA_DIR.toList ++ '/' :: name)
      = "/tmp/".toList ++ rest := by
    refine ⟨("docker-metadata".toList ++ '/' :: name).take 506, ?_⟩
    rw [snprintf, MAX_PATH_LEN, htmp, List.append_assoc, List.take_append, hfive,
      List.take_of_length_le (by rw [hfive]; omega)]
  obtain ⟨inner, hinner⟩ := hinner
  refine ⟨(inner ++ ".json".toList).take 485, ?_⟩
  have hfront : METADATA_DIR.toList ++ '/' :: "/tmp/".toList
      = absPath metadataDir ++ '/' :: '/' :: ("tmp".toList ++ ['/']) := by decide
  have htext : METADATA_DIR.toList ++ '/' :: ("/tmp/".toList ++ inner) ++ ".json".toList
      = (METADATA_DIR.toList ++ '/' :: "/tmp/".toList) ++ (inner ++ ".json".toList) := by simp
  have hlen : (METADATA_DIR.toList ++ '/' :: "/tmp/".toList).length = 26 := by
    rw [List.length_append, List.length_cons, hdir, hfive]
  rw [metadataPath, hinner, htext, snprintf, MAX_PATH_LEN, List.take_append,
    List.take_of_length_le (by rw [hlen]; omega), hlen, hfront]
  simp

/-- An entry's path is never opened. -/
theorem readImageMetadata_of_entry {fs : FileSystem} {images : List ImageInfo}
    (h : Stored fs images) (name : Name) (denied : Bool) (cwd : Path) (image : ImageInfo) :
    readImageMetadata (snprintf MAX_PATH_LEN (METADATA_DIR.toList ++ '/' :: name)) denied cwd fs
      image = none := by
  obtain ⟨rest, hpath⟩ := metadataPath_of_entry name
  have hmissing := resolve_below_missing cwd ordinary_metadataDir (by decide) h.dir h.no_tmp rest
  have hopen : fs.openRead cwd
      (metadataPath (snprintf MAX_PATH_LEN (METADATA_DIR.toList ++ '/' :: name))) denied = none := by
    rw [hpath, openRead, hmissing]
    simp
  rw [readImageMetadata, hopen]

/-- So the reading pass stores nothing. -/
theorem readEntries_eq {fs : FileSystem} {images : List ImageInfo} (h : Stored fs images)
    (env : ListEnv fs) (cwd : Path) (names : List Name) (records : List ImageInfo) :
    readEntries env cwd names records = records := by
  induction names with
  | nil => rfl
  | cons name rest ih =>
    rw [readEntries]
    split
    · simp only [readImageMetadata_of_entry h, ih]
    · exact ih

/-! ## 4. The list -/

/-- What a listed record is compared by. -/
def key (image : ImageInfo) : List Char × List Char × List Char :=
  (cstr image.id, cstr image.name, cstr image.tag)

/-- One record for each of these images, and no other. -/
def ListsExactly (images : List ImageInfo) (listed : Option (List ImageInfo)) : Prop :=
  ∃ records, listed = some records ∧ (records.map key).Perm (images.map key)

/-- Whatever is stored, the list is empty or NULL. -/
theorem listImages_cases {fs : FileSystem} {images : List ImageInfo} (h : Stored fs images)
    (env : ListEnv fs) (cwd : Path) :
    listImages env cwd = none ∨ listImages env cwd = some [] := by
  rw [listImages]
  split
  · exact Or.inl rfl
  · split
    · exact Or.inl rfl
    · simp only
      split
      · exact Or.inr rfl
      · split
        · exact Or.inl rfl
        · rw [readEntries_eq h]
          exact Or.inr rfl

/-- An empty directory is listed when the list can be allocated. -/
theorem listImages_empty {fs : FileSystem} (h : Stored fs []) (env : ListEnv fs) (cwd : Path)
    (halloc : env.listAllocated = true) : listImages env cwd = some [] := by
  have hopen : fs.openDir cwd METADATA_DIR.toList = some metadataDir := by
    rw [metadataDir_path]
    exact openDir_absPath cwd (by decide : ∀ m ∈ ["tmp".toList], Ordinary m) (by decide) h.dir
  have hnone : (env.counted metadataDir).names.filter isJson = [] := by
    rw [List.filter_eq_nil_iff]
    intro name hname
    rcases ((env.counted metadataDir).mem_iff name).mp hname with rfl | rfl | hne
    · decide
    · decide
    · exact absurd ((h.files name).mp hne) (by simp)
  rw [listImages, if_neg (by simp [halloc]), hopen]
  simp only [hnone, List.length_nil, if_true]

/-- Every stored image is listed exactly when there is none. -/
theorem lists_exactly_iff {fs : FileSystem} {images : List ImageInfo} (h : Stored fs images)
    (env : ListEnv fs) (cwd : Path) :
    ListsExactly images (listImages env cwd) ↔ env.listAllocated = true ∧ images = [] := by
  constructor
  · rintro ⟨records, hlisted, hperm⟩
    have halloc : env.listAllocated = true := by
      by_contra hno
      rw [listImages, if_pos (by simpa using hno)] at hlisted
      simp at hlisted
    have hnil : records = [] := by
      rcases listImages_cases h env cwd with hnone | hsome
      · rw [hnone] at hlisted; simp at hlisted
      · rw [hsome] at hlisted; exact (Option.some.inj hlisted).symm
    rw [hnil, List.map_nil] at hperm
    exact ⟨halloc, List.map_eq_nil_iff.mp hperm.nil_eq.symm⟩
  · rintro ⟨halloc, rfl⟩
    exact ⟨[], listImages_empty h env cwd halloc, List.Perm.refl _⟩

/-! ## 5. A store with one image -/

/-- An array of `size` bytes that holds a string. -/
def holding (size : Nat) (text : String) : List Char := strcpy (zeros size) text.toList

def alpine : ImageInfo where
  id := holding 64 "sha256:65a3c1f100000000"
  name := holding MAX_IMAGE_NAME_LEN "alpine"
  tag := holding MAX_IMAGE_TAG_LEN "latest"
  parentId := zeros 64
  created := holding 32 "1705230833"
  size := holding 32 "4096"
  architecture := holding 32 "amd64"
  os := holding 32 "linux"
  author := holding 128 "docker-clone"
  comment := zeros 256
  command := zeros 1024
  workingDir := zeros 256
  envVars := zeros 512
  exposedPorts := zeros 64
  volumes := zeros 256
  layers := [{ id := holding 64 "layer_65a3c1f100000000" }]

/-- The metadata directory, with nothing in it. -/
def emptyStore : FileSystem :=
  ofEntries [([], .dir), (["tmp".toList], .dir), (metadataDir, .dir)] (by decide)

theorem stored_emptyStore : Stored emptyStore [] :=
  stored_nil (by decide) ((isEmptyDir_iff emptyStore metadataDir).mp (by decide))

/-- The store after alpine is written. -/
def alpineStore : FileSystem := (writeImageMetadata alpine false [] emptyStore).2

theorem stored_alpineStore : Stored alpineStore [alpine] := by
  have hzero : (writeImageMetadata alpine false [] emptyStore).1 = 0 := by decide
  exact stored_emptyStore.write (by decide) (by simp) (Prod.ext hzero rfl)

/-- A call that is denied nothing and reads the table in its order. -/
def readyEnv (fs : FileSystem) : ListEnv fs where
  listAllocated := true
  imagesAllocated := true
  counted := fs.listing
  read := fs.listing
  denied := fun _ => false
  junk := fun _ => alpine

theorem alpineStore_not_listed :
    ListsExactly [] (listImages (readyEnv emptyStore) []) ∧
    ¬ ListsExactly [alpine] (listImages (readyEnv alpineStore) []) :=
  ⟨(lists_exactly_iff stored_emptyStore (readyEnv emptyStore) []).mpr ⟨rfl, rfl⟩,
    fun h => absurd ((lists_exactly_iff stored_alpineStore (readyEnv alpineStore) []).mp h).2
      (List.cons_ne_nil _ _)⟩

/-- The store holds alpine and the list is empty. -/
theorem alpine_left_out : Stored alpineStore [alpine] ∧
    listImages (readyEnv alpineStore) [] = some [] ∧
    ¬ ListsExactly [alpine] (listImages (readyEnv alpineStore) []) := by
  have hlist : listImages (readyEnv alpineStore) [] = some [] := by
    rcases listImages_cases stored_alpineStore (readyEnv alpineStore) [] with hnone | hsome
    · have hdone : (listImages (readyEnv alpineStore) []).isSome = true := by decide
      rw [hnone] at hdone
      simp at hdone
    · exact hsome
  refine ⟨stored_alpineStore, hlist, ?_⟩
  rintro ⟨records, hlisted, hperm⟩
  rw [hlist] at hlisted
  rw [← Option.some.inj hlisted] at hperm
  exact absurd hperm.length_eq (by simp)

end DockerClone.Image
