/-
DockerClone.Image.Create — creating an image, looking for one, tagging
one, removing one.

`create_image` reads the clock for a layer id and calls `create_layer`,
which reads the clock for a layer id of its own; the first is the id the
metadata record, the second names the directory that is filled.
`remove_image` takes one string for the name of a metadata file and of a
layer directory.

What a call cannot know in advance is in its environment: the clock
readings in the order of the `time` calls, which calls are denied, what
`malloc` returns and what `du` prints.
-/
import DockerClone.CLib.Printf
import DockerClone.Image.Store
import DockerClone.Os.Process
import DockerClone.Os.Utilities

namespace DockerClone.Image

open DockerClone.CLib DockerClone.Os DockerClone.Metadata

def MAX_IMAGE_ID_LEN : Nat := 64
def MAX_LAYER_ID_LEN : Nat := 64
def MAX_COMMAND_LEN : Nat := 1024
def MAX_ENV_VAR_LEN : Nat := 512
def MAX_WORKDIR_LEN : Nat := 256
def MAX_EXPOSE_LEN : Nat := 64
def MAX_VOLUME_LEN : Nat := 256

/-! ## 1. Ids and paths -/

/-- `generate_image_id` at a clock reading: the low and the high word. -/
def generateImageId (now : Int64) : List Char :=
  snprintf MAX_IMAGE_ID_LEN ("sha256:".toList ++
    renderHex 8 (now.toInt % 2 ^ 32).toNat ++ renderHex 8 (now.toInt / 2 ^ 32 % 2 ^ 32).toNat)

def generateLayerId (now : Int64) : List Char :=
  snprintf MAX_LAYER_ID_LEN ("layer_".toList ++
    renderHex 8 (now.toInt % 2 ^ 32).toNat ++ renderHex 8 (now.toInt / 2 ^ 32 % 2 ^ 32).toNat)

/-- `snprintf(layer_path, …, "%s/%s", LAYER_STORAGE_DIR, layer_id)`. -/
def layerPath (layerId : List Char) : List Char :=
  snprintf MAX_PATH_LEN (LAYER_STORAGE_DIR.toList ++ '/' :: layerId)

/-- `snprintf(metadata_path, …, "%s/%s.json", layer_path, layer_id)`. -/
def layerMetadataPath (layerId : List Char) : List Char :=
  snprintf MAX_PATH_LEN (layerPath layerId ++ '/' :: layerId ++ ".json".toList)

/-! ## 2. Layers -/

/-- What one call of `create_layer` meets. -/
structure LayerEnv where
  /-- The clock when the id is generated. -/
  idAt : Int64
  /-- The clock when `created` is printed. -/
  createdAt : Int64
  mkdirDenied : Bool
  writeDenied : Bool

/-- The text `create_layer` prints. -/
def layerText (layerId parentId command : List Char) (now : Int64) : List Char :=
  entriesText
    [ .brace '{',
      .text { name := "id" } layerId,
      .text { name := "parent" } parentId,
      .text { name := "created" } (renderInt now.toInt),
      .text { name := "container" } [] ]
    ++ "  \"container_config\": \x7b\n".toList
    ++ "    \"Cmd\": [\"".toList ++ command ++ "\"]\n".toList
    ++ "  \x7d,\n".toList
    ++ "  \"config\": \x7b\n".toList
    ++ "    \"Cmd\": [\"".toList ++ command ++ "\"]\n".toList
    ++ "  \x7d\n".toList ++ "\x7d\n".toList

/-- `Copy diff if provided`: the status of `cp`, 0 when there is nothing
to copy. -/
def copyDiff (diffPath : Option (List Char)) (path : List Char) (sh : Shell) (p : Process) :
    Int × Process :=
  match diffPath with
  | some diffPath =>
      if diffPath.length > 0 then p.system sh (snprintf 1024 (copyCommand diffPath path))
      else (0, p)
  | none => (0, p)

/-- `create_layer`; `none` is a NULL argument. -/
def createLayer (parentId command diffPath : Option (List Char)) (env : LayerEnv) (sh : Shell)
    (p : Process) : Int × Process :=
  let layerId := generateLayerId env.idAt
  match p.mkdirExistOk (layerPath layerId) env.mkdirDenied with
  | none => (-1, p)
  | some p =>
      let copied := copyDiff diffPath (layerPath layerId) sh p
      if copied.1 ≠ 0 then (-1, copied.2)
      else
        let text := layerText layerId (parentId.getD []) (command.getD []) env.createdAt
        match copied.2.openWrite (layerMetadataPath layerId) env.writeDenied text with
        | none => (-1, copied.2)
        | some p => (0, p)

/-! ## 3. Images -/

/-- What one call of `create_image` meets. -/
structure CreateEnv where
  /-- The clock when the image id is generated. -/
  imageAt : Int64
  /-- The clock when `created` is filled. -/
  createdAt : Int64
  /-- The clock when the layer id is generated. -/
  layerAt : Int64
  layer : LayerEnv
  /-- The element `malloc` returns. -/
  layers : Option LayerInfo
  /-- What `fscanf` reads of the output of `du`; 0 without any. -/
  size : Int32
  writeDenied : Bool

/-- The readings of one call, in the order of its `time` calls. -/
def CreateEnv.readings (env : CreateEnv) : List Int64 :=
  [env.imageAt, env.createdAt, env.layerAt, env.layer.idAt, env.layer.createdAt]

/-- `memset(&image, 0, sizeof(image))`. -/
def ImageInfo.zeroed : ImageInfo where
  id := zeros MAX_IMAGE_ID_LEN
  name := zeros MAX_IMAGE_NAME_LEN
  tag := zeros MAX_IMAGE_TAG_LEN
  parentId := zeros MAX_IMAGE_ID_LEN
  created := zeros 32
  size := zeros 32
  architecture := zeros 32
  os := zeros 32
  author := zeros 128
  comment := zeros 256
  command := zeros MAX_COMMAND_LEN
  workingDir := zeros MAX_WORKDIR_LEN
  envVars := zeros MAX_ENV_VAR_LEN
  exposedPorts := zeros MAX_EXPOSE_LEN
  volumes := zeros MAX_VOLUME_LEN
  layers := []

/-- The record `create_image` fills, its one layer in memory that held
`layer`. -/
def newImage (name : List Char) (tag : Option (List Char)) (env : CreateEnv) (layer : LayerInfo) :
    ImageInfo :=
  let zero := ImageInfo.zeroed
  { zero with
    id := strcpy zero.id (generateImageId env.imageAt)
    name := strncpy zero.name name (MAX_IMAGE_NAME_LEN - 1)
    tag := strncpy zero.tag (tag.getD "latest".toList) (MAX_IMAGE_TAG_LEN - 1)
    architecture := strcpy zero.architecture "amd64".toList
    os := strcpy zero.os "linux".toList
    author := strcpy zero.author "docker-clone".toList
    created := printed 32 zero.created (renderInt env.createdAt.toInt)
    layers := [{ id := strcpy layer.id (generateLayerId env.layerAt) }]
    size := printed 32 zero.size (renderInt env.size.toInt) }

/-- The path `write_image_metadata` builds. -/
def imagePath (image : ImageInfo) : List Char :=
  metadataPath (getImageFullName (cstr image.name) (some (cstr image.tag)))

/-- `create_image`; `none` is a NULL argument, and `dockerfile_path` is
not read. -/
def createImage (name : List Char) (tag contextPath : Option (List Char)) (env : CreateEnv)
    (sh : Shell) (p : Process) : Int × Process :=
  let layer := createLayer none (some "FROM scratch".toList) contextPath env.layer sh p
  if layer.1 ≠ 0 then (-1, layer.2)
  else
    let p := layer.2
    match env.layers with
    | none => (-1, p)
    | some layer =>
        let image := newImage name tag env layer
        match writeImageMetadata image env.writeDenied p.cwd p.fs with
        | (0, fs) => (0, p.called (.write (imagePath image) (imageText image)) fs)
        | (_, _) => (-1, p)

def imageExists (name : List Char) (tag : Option (List Char)) (p : Process) : Bool :=
  p.fs.access p.cwd (metadataPath (getImageFullName name tag))

def removeImage (imageId : List Char) (unlinkDenied : Bool) (sh : Shell) (p : Process) :
    Int × Process :=
  match p.fs.unlink p.cwd (metadataPath imageId) unlinkDenied with
  | .error _ => (-1, p)
  | .ok fs =>
      let rmCmd := snprintf 1024 ("rm -rf ".toList ++ layerPath imageId)
      let rm := Process.system sh rmCmd { p with fs := fs }
      if rm.1 ≠ 0 then (-1, rm.2) else (0, rm.2)

/-! ## 4. Tags -/

/-- `get_image_info`: NULL, or the memory `malloc` returned with what was
read. -/
def getImageInfo (imageId : List Char) (memory : Option ImageInfo) (denied : Bool) (cwd : Path)
    (fs : FileSystem) : Option ImageInfo :=
  match memory with
  | none => none
  | some image => readImageMetadata imageId denied cwd fs image

/-- The record with its new name and tag. -/
def retagged (image : ImageInfo) (name tag : List Char) : ImageInfo :=
  { image with
    name := strncpy image.name name (MAX_IMAGE_NAME_LEN - 1)
    tag := strncpy image.tag tag (MAX_IMAGE_TAG_LEN - 1) }

/-- What one call of `tag_image` meets. -/
structure TagEnv where
  memory : Option ImageInfo
  readDenied : Bool
  writeDenied : Bool

/-- `tag_image`; `none` is a NULL tag. -/
def tagImage (imageId name : List Char) (tag : Option (List Char)) (env : TagEnv) (cwd : Path)
    (fs : FileSystem) : Int × FileSystem :=
  match getImageInfo imageId env.memory env.readDenied cwd fs with
  | none => (-1, fs)
  | some image =>
      writeImageMetadata (retagged image name (tag.getD "latest".toList)) env.writeDenied cwd fs

/-! ## 5. What `malloc` returns -/

/-- The arrays `read_image_metadata` scans into. -/
def imageArrays : List (Key × Nat) :=
  [ ({ name := "id" }, MAX_IMAGE_ID_LEN),
    ({ name := "name" }, MAX_IMAGE_NAME_LEN),
    ({ name := "tag" }, MAX_IMAGE_TAG_LEN),
    ({ name := "created" }, 32),
    ({ name := "size" }, 32) ]

/-- The text is read inside the struct. -/
def TextFits (text : List Char) : Prop := Fits imageSlots imageArrays 1024 text

instance (text : List Char) : Decidable (TextFits text) := by unfold TextFits; infer_instance

/-- Memory no one has written to, taken for an `image_info_t`. -/
structure RawMemory where
  /-- The arrays; the layers in it are not looked at. -/
  arrays : ImageInfo
  /-- The bytes of `layer_count`. -/
  layerCount : Int32
  /-- The elements that can be read where the bytes of `layers` point to. -/
  pointee : List LayerInfo

/-- The layers the loop over `layer_count` finds; `none` when it leaves
what can be read. -/
def RawMemory.layerList (memory : RawMemory) : Option (List LayerInfo) :=
  if memory.layerCount.toInt ≤ memory.pointee.length then
    some (memory.pointee.take memory.layerCount.toInt.toNat)
  else none

/-- The memory as a record, with these layers. -/
def RawMemory.image (memory : RawMemory) (layers : List LayerInfo) : ImageInfo :=
  { memory.arrays with layers := layers }

/-- The file of an image, if it can be opened, is read inside the struct. -/
def ReadsInside (imageId : List Char) (denied : Bool) (cwd : Path) (fs : FileSystem) : Prop :=
  TextFits ((fs.openRead cwd (metadataPath imageId) denied).getD [])

instance (imageId : List Char) (denied : Bool) (cwd : Path) (fs : FileSystem) :
    Decidable (ReadsInside imageId denied cwd fs) := by unfold ReadsInside; infer_instance

/-- `tag_image` over what `malloc` returned: `none` when a scan runs past
its array, or when the loop over the layers, which is reached once the new
file is open, follows the pointer to what cannot be read. -/
def tagImageWithin (imageId name : List Char) (tag : Option (List Char)) (memory : Option RawMemory)
    (readDenied writeDenied : Bool) (cwd : Path) (fs : FileSystem) : Option (Int × FileSystem) :=
  match memory with
  | none => some (-1, fs)
  | some memory =>
      let call := fun layers => tagImage imageId name tag
        { memory := some (memory.image layers), readDenied, writeDenied } cwd fs
      if ReadsInside imageId readDenied cwd fs then
        match memory.layerList with
        | some layers => some (call layers)
        | none => if (call []).1 = 0 then none else some (call [])
      else none

end DockerClone.Image
