/-
DockerClone.Image.Store — the image operations over the file system.

`write_image_metadata` names a file by the image's name and tag.
`list_images` reads the directory twice, once to count and once to read,
and hands each entry's path to `read_image_metadata`, which takes its
argument for an image id and builds a path around it.

The memory `malloc` returns is not initialised; `ListEnv.junk` is what
it holds.
-/
import DockerClone.CLib.Search
import DockerClone.Image.Record
import DockerClone.Os.Listing
import DockerClone.Os.Shell

namespace DockerClone.Image

open DockerClone.CLib DockerClone.Os DockerClone.Metadata

def IMAGE_STORAGE_DIR : String := "/tmp/docker-images"
def LAYER_STORAGE_DIR : String := "/tmp/docker-layers"
def METADATA_DIR : String := "/tmp/docker-metadata"

/-! ## 1. Storage directories -/

/-- The loop of `create_directory_structure`. The body increments `i` as
well, so every second directory is passed over; `createdDirsCount` stays
0, so a failure undoes nothing. -/
def createDirectories (cwd : Path) (mkdirDenied : String → Bool) :
    List String → FileSystem → Int × FileSystem
  | [], fs => (0, fs)
  | [dir], fs =>
      match fs.mkdirExistOk cwd dir.toList (mkdirDenied dir) with
      | none => (-1, fs)
      | some fs => (0, fs)
  | dir :: _ :: dirs, fs =>
      match fs.mkdirExistOk cwd dir.toList (mkdirDenied dir) with
      | none => (-1, fs)
      | some fs => createDirectories cwd mkdirDenied dirs fs

def createDirectoryStructure (cwd : Path) (mkdirDenied : String → Bool) (fs : FileSystem) :
    Int × FileSystem :=
  createDirectories cwd mkdirDenied [IMAGE_STORAGE_DIR, LAYER_STORAGE_DIR, METADATA_DIR] fs

def initImageSystem (cwd : Path) (mkdirDenied : String → Bool) (fs : FileSystem) :
    Int × FileSystem :=
  createDirectoryStructure cwd mkdirDenied fs

/-- `cleanup_image_system`: the return value and what is left. -/
def cleanupImageSystem (sh : Shell) (cwd : Path) (fs : FileSystem) : Int × FileSystem :=
  let rmCmd := snprintf 1024 ("rm -rf ".toList ++ IMAGE_STORAGE_DIR.toList ++ " ".toList
    ++ LAYER_STORAGE_DIR.toList ++ " ".toList ++ METADATA_DIR.toList)
  let (status, fs) := sh.system cwd fs rmCmd
  if status ≠ 0 then (-1, fs) else (0, fs)

/-! ## 2. Paths -/

/-- `get_image_full_name`; `none` is a NULL tag. -/
def getImageFullName (name : List Char) (tag : Option (List Char)) : List Char :=
  match tag with
  | some tag =>
      if tag.length > 0 then
        snprintf (MAX_IMAGE_NAME_LEN + MAX_IMAGE_TAG_LEN + 2) (name ++ ':' :: tag)
      else snprintf (MAX_IMAGE_NAME_LEN + MAX_IMAGE_TAG_LEN + 2) (name ++ ":latest".toList)
  | none => snprintf (MAX_IMAGE_NAME_LEN + MAX_IMAGE_TAG_LEN + 2) (name ++ ":latest".toList)

/-- `snprintf(metadata_path, …, "%s/%s.json", METADATA_DIR, image_id)`. -/
def metadataPath (imageId : List Char) : List Char :=
  snprintf MAX_PATH_LEN (METADATA_DIR.toList ++ '/' :: imageId ++ ".json".toList)

/-! ## 3. Reading and writing a record -/

def writeImageMetadata (image : ImageInfo) (denied : Bool) (cwd : Path) (fs : FileSystem) :
    Int × FileSystem :=
  let fullName := getImageFullName (cstr image.name) (some (cstr image.tag))
  match fs.openWrite cwd (metadataPath fullName) denied (imageText image) with
  | .ok fs => (0, fs)
  | .error _ => (-1, fs)

/-- `none` is the return value -1. -/
def readImageMetadata (imageId : List Char) (denied : Bool) (cwd : Path) (fs : FileSystem)
    (image : ImageInfo) : Option ImageInfo :=
  match fs.openRead cwd (metadataPath imageId) denied with
  | some text => some (readImageText text image)
  | none => none

/-! ## 4. List -/

/-- What one call of `list_images` meets. -/
structure ListEnv (fs : FileSystem) where
  listAllocated : Bool
  imagesAllocated : Bool
  /-- The two passes over the directory. -/
  counted : ∀ p, Listing fs p
  read : ∀ p, Listing fs p
  /-- The files that cannot be opened. -/
  denied : Name → Bool
  /-- The elements of the allocated array. -/
  junk : Nat → ImageInfo

/-- `strstr(entry->d_name, ".json")`. -/
def isJson (name : Name) : Bool := found name ".json".toList

/-- The second loop: the records stored so far. -/
def readEntries {fs : FileSystem} (env : ListEnv fs) (cwd : Path) :
    List Name → List ImageInfo → List ImageInfo
  | [], images => images
  | name :: rest, images =>
      if isJson name then
        let path := snprintf MAX_PATH_LEN (METADATA_DIR.toList ++ '/' :: name)
        match readImageMetadata path (env.denied name) cwd fs (env.junk images.length) with
        | some image => readEntries env cwd rest (images ++ [image])
        | none => readEntries env cwd rest images
      else readEntries env cwd rest images

/-- `list_images`; `none` is NULL, a list is its `count` records. -/
def listImages {fs : FileSystem} (env : ListEnv fs) (cwd : Path) : Option (List ImageInfo) :=
  if env.listAllocated = false then none
  else match fs.openDir cwd METADATA_DIR.toList with
    | none => none
    | some p =>
        let count := ((env.counted p).names.filter isJson).length
        if count = 0 then some []
        else if env.imagesAllocated = false then none
        else some (readEntries env cwd (env.read p).names [])

end DockerClone.Image
