/-
DockerClone.Image.Record — `image_info_t` and its metadata text.

The text begins with eleven lines of the form container metadata has
throughout. The `config` object and the list of layer ids behind them
have formats of their own. The reader knows five of the fields.
-/
import DockerClone.Metadata.Pieces

namespace DockerClone.Image

open DockerClone.CLib DockerClone.Metadata

def MAX_IMAGE_NAME_LEN : Nat := 256
def MAX_IMAGE_TAG_LEN : Nat := 64
def MAX_PATH_LEN : Nat := 512

/-! ## 1. The structs -/

/-- `layer_info_t`, as far as it is read. -/
structure LayerInfo where
  id : List Char
  deriving DecidableEq, Repr

/-- `image_info_t`; `layers` are the `layer_count` layers. -/
structure ImageInfo where
  id : List Char
  name : List Char
  tag : List Char
  parentId : List Char
  created : List Char
  size : List Char
  architecture : List Char
  os : List Char
  author : List Char
  comment : List Char
  command : List Char
  workingDir : List Char
  envVars : List Char
  exposedPorts : List Char
  volumes : List Char
  layers : List LayerInfo
  deriving DecidableEq, Repr

/-! ## 2. The text -/

/-- The lines `write_image_metadata` prints first, in order. -/
def imageEntries (image : ImageInfo) : List Entry :=
  [ .brace '{',
    .text { name := "id" } (cstr image.id),
    .text { name := "name" } (cstr image.name),
    .text { name := "tag" } (cstr image.tag),
    .text { name := "parent" } (cstr image.parentId),
    .text { name := "created" } (cstr image.created),
    .text { name := "size" } (cstr image.size),
    .text { name := "architecture" } (cstr image.architecture),
    .text { name := "os" } (cstr image.os),
    .text { name := "author" } (cstr image.author),
    .text { name := "comment" } (cstr image.comment) ]

/-- The `config` object. -/
def configText (image : ImageInfo) : List Char :=
  "  \"config\": \x7b\n".toList
    ++ "    \"Cmd\": [\"".toList ++ cstr image.command ++ "\"],\n".toList
    ++ "    \"WorkingDir\": \"".toList ++ cstr image.workingDir ++ "\",\n".toList
    ++ "    \"Env\": [\"".toList ++ cstr image.envVars ++ "\"],\n".toList
    ++ "    \"ExposedPorts\": \x7b\"".toList ++ cstr image.exposedPorts ++ "\": \x7b\x7d\x7d,\n".toList
    ++ "    \"Volumes\": \x7b\"".toList ++ cstr image.volumes ++ "\": \x7b\x7d\x7d\n".toList
    ++ "  \x7d,\n".toList

/-- The loop over the layers: a comma after each but the last. -/
def layerLines : List LayerInfo → List Char
  | [] => []
  | [layer] => "    \"".toList ++ cstr layer.id ++ "\"\n".toList
  | layer :: next :: rest =>
      "    \"".toList ++ cstr layer.id ++ "\",\n".toList ++ layerLines (next :: rest)

/-- The text `write_image_metadata` leaves in the file. -/
def imageText (image : ImageInfo) : List Char :=
  entriesText (imageEntries image) ++ configText image
    ++ "  \"layers\": [\n".toList ++ layerLines image.layers ++ "  ]\n\x7d\n".toList

/-- The branches of `read_image_metadata`, in the order of its `else if`
chain. -/
def imageSlots : List (Slot ImageInfo) :=
  [ .text { name := "id" } (·.id) (fun c v => { c with id := v }),
    .text { name := "name" } (·.name) (fun c v => { c with name := v }),
    .text { name := "tag" } (·.tag) (fun c v => { c with tag := v }),
    .text { name := "created" } (·.created) (fun c v => { c with created := v }),
    .text { name := "size" } (·.size) (fun c v => { c with size := v }) ]

/-- The loop of `read_image_metadata` over the text of an open file;
`line` has 1024 bytes. -/
def readImageText (text : List Char) (image : ImageInfo) : ImageInfo :=
  readText imageSlots 1024 text image

theorem lawful_imageSlots : Lawful imageSlots where
  distinct := by decide
  reads := by simp [imageSlots, Slot.Reads]
  frames := by simp [imageSlots, Slot.Frames, Slot.view]

end DockerClone.Image
