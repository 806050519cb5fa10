/-
DockerClone.Image.CreateTheorems — what one `create_layer` and one
`create_image` do.

A layer id is the clock reading, injectively (`generateLayerId_inj`).
`createLayer_effect` and `createImage_cases` are the only places where
the bodies are taken apart: a layer's call touches nothing outside the
directory of its own id, whatever it returns, and an image's call does
that and then, if it returns 0, writes one metadata file.

A context directory goes unquoted into a command line, so these results
are for contexts the shell passes on as they stand (`PlainContext`).
-/
import DockerClone.Image.Create
import DockerClone.Image.ListTheorems

namespace DockerClone.Image

open DockerClone.CLib DockerClone.Os DockerClone.Os.FileSystem DockerClone.Metadata

/-! ## 1. Layer ids -/

theorem generateImageId_eq (now : Int64) : generateImageId now
    = "sha256:".toList ++ renderHex 8 (now.toInt % 2 ^ 32).toNat
      ++ renderHex 8 (now.toInt / 2 ^ 32 % 2 ^ 32).toNat := by
  refine snprintf_of_lt ?_
  simp [renderHex_length, MAX_IMAGE_ID_LEN]

theorem nulFree_generateImageId (now : Int64) : NulFree (generateImageId now) := by
  have hword : NulFree "sha256:".toList := by decide
  have hhex : ∀ n, NulFree (renderHex 8 n) := fun n hm =>
    absurd (mem_renderHex hm) (by decide)
  rw [generateImageId_eq, nulFree_append, nulFree_append]
  exact ⟨⟨hword, hhex _⟩, hhex _⟩

theorem generateLayerId_eq (now : Int64) : generateLayerId now
    = "layer_".toList ++ renderHex 8 (now.toInt % 2 ^ 32).toNat
      ++ renderHex 8 (now.toInt / 2 ^ 32 % 2 ^ 32).toNat := by
  refine snprintf_of_lt ?_
  simp [renderHex_length, MAX_LAYER_ID_LEN]

theorem generateLayerId_inj {a b : Int64} (h : generateLayerId a = generateLayerId b) : a = b := by
  rw [generateLayerId_eq, generateLayerId_eq] at h
  exact clockText_inj h

theorem generateLayerId_length (now : Int64) : (generateLayerId now).length = 22 := by
  rw [generateLayerId_eq]
  exact length_clockText _ now

theorem mem_generateLayerId {now : Int64} {c : Char} (h : c ∈ generateLayerId now) :
    c ∈ "layer_0123456789abcdef".toList := by
  rw [generateLayerId_eq] at h
  rcases mem_clockText h with h | h
  · exact (by decide : "layer_".toList ⊆ "layer_0123456789abcdef".toList) h
  · exact (by decide : "0123456789abcdef".toList ⊆ "layer_0123456789abcdef".toList) h

theorem not_mem_generateLayerId {c : Char} (hc : c ∉ "layer_0123456789abcdef".toList)
    (now : Int64) : c ∉ generateLayerId now :=
  fun h => hc (mem_generateLayerId h)

theorem nulFree_generateLayerId (now : Int64) : NulFree (generateLayerId now) :=
  not_mem_generateLayerId (by decide) now

theorem ordinary_generateLayerId (now : Int64) : Ordinary (generateLayerId now) := by
  have hlen := generateLayerId_length now
  refine ⟨?_, ?_, ?_, not_mem_generateLayerId (by decide) now⟩ <;>
    intro h <;> rw [h] at hlen <;> simp at hlen

/-! ## 2. Paths -/

/-- `/tmp/docker-layers`. -/
def layersDir : Path := ["tmp".toList, "docker-layers".toList]

theorem layersDir_path : LAYER_STORAGE_DIR.toList = absPath layersDir := by decide

theorem ordinary_layersDir : ∀ m ∈ layersDir, Ordinary m := by decide

theorem length_layersDir : (absPath layersDir).length = 18 := by decide

/-- The directory of a layer. -/
def layerDir (layerId : List Char) : Path := layersDir ++ [layerId]

/-- Its metadata file. -/
def layerFile (layerId : List Char) : Path := layerDir layerId ++ [layerId ++ ".json".toList]

theorem layerPath_eq {layerId : List Char} (h : layerId.length ≤ 492) :
    layerPath layerId = absPath (layerDir layerId) := by
  rw [layerPath, layerDir, absPath_concat, layersDir_path, snprintf_of_lt]
  simp only [List.length_append, List.length_cons, length_layersDir, MAX_PATH_LEN]
  omega

section Generated

variable (now : Int64)

theorem ordinary_layerDir : ∀ m ∈ layerDir (generateLayerId now), Ordinary m := by
  intro m hm
  rcases List.mem_append.mp hm with hm | hm
  · exact ordinary_layersDir m hm
  · rw [List.mem_singleton.mp hm]
    exact ordinary_generateLayerId now

theorem ordinary_layerJson : Ordinary (generateLayerId now ++ ".json".toList) := by
  have hlen : (generateLayerId now ++ ".json".toList).length = 27 := by
    rw [List.length_append, generateLayerId_length]
    decide
  refine ⟨?_, ?_, ?_, ?_⟩
  · intro h; rw [h] at hlen; simp at hlen
  · intro h; rw [h] at hlen; simp at hlen
  · intro h; rw [h] at hlen; simp at hlen
  · have hjson : '/' ∉ ".json".toList := by decide
    have hid : '/' ∉ generateLayerId now := not_mem_generateLayerId (by decide) now
    rw [List.mem_append, not_or]
    exact ⟨hid, hjson⟩

theorem layerPath_generated :
    layerPath (generateLayerId now) = absPath (layerDir (generateLayerId now)) :=
  layerPath_eq (by rw [generateLayerId_length]; omega)

theorem length_layerPath : (layerPath (generateLayerId now)).length = 41 := by
  rw [layerPath_generated, layerDir, absPath_concat]
  simp only [List.length_append, List.length_cons, length_layersDir, generateLayerId_length]

theorem layerMetadataPath_generated :
    layerMetadataPath (generateLayerId now) = absPath (layerFile (generateLayerId now)) := by
  have hjson : ".json".toList.length = 5 := by decide
  have hpath : layerPath (generateLayerId now) ++ '/' :: generateLayerId now ++ ".json".toList
      = absPath (layerFile (generateLayerId now)) := by
    rw [layerFile, absPath_concat, layerPath_generated, List.append_assoc, List.cons_append]
  rw [layerMetadataPath, snprintf_of_lt]
  · exact hpath
  · simp only [List.length_append, List.length_cons, length_layerPath, generateLayerId_length,
      hjson, MAX_PATH_LEN]
    omega

theorem normalize_layerPath :
    normalize (layerPath (generateLayerId now)) = layerDir (generateLayerId now) := by
  rw [layerPath_generated]
  exact normalize_absPath (ordinary_layerDir now)

theorem head_layerPath : (layerPath (generateLayerId now)).head? = some '/' := by
  rw [layerPath_generated]
  exact head_absPath layersDir _

theorem ordinary_layerFile : ∀ m ∈ layerFile (generateLayerId now), Ordinary m := by
  intro m hm
  rcases List.mem_append.mp hm with hm | hm
  · exact ordinary_layerDir now m hm
  · rw [List.mem_singleton.mp hm]
    exact ordinary_layerJson now

theorem normalize_layerMetadataPath :
    normalize (layerMetadataPath (generateLayerId now)) = layerFile (generateLayerId now) := by
  rw [layerMetadataPath_generated]
  exact normalize_absPath (ordinary_layerFile now)

theorem copyWord_layerPath : CopyWord (layerPath (generateLayerId now)) where
  literal := by
    refine PlainWord.literal ⟨?_, ?_, ?_⟩
    · intro h
      have hlen := length_layerPath now
      rw [h] at hlen
      simp at hlen
    · rw [head_layerPath]; decide
    · intro c hc
      rw [layerPath_generated, layerDir, absPath_concat, ← layersDir_path] at hc
      rcases List.mem_append.mp hc with hc | hc
      · exact (by decide : ∀ c ∈ LAYER_STORAGE_DIR.toList, isPlainChar c = true) c hc
      · rcases List.mem_cons.mp hc with rfl | hc
        · decide
        · exact (by decide : ∀ c ∈ "layer_0123456789abcdef".toList, isPlainChar c = true) c
            (mem_generateLayerId hc)
  no_option := by rw [head_layerPath]; decide

end Generated

/-! ## 3. One layer -/

/-- A context directory that the shell passes on as it stands and that
leaves room for the rest of the command line; or none. -/
def PlainContext : Option (List Char) → Prop
  | none => True
  | some context => context = [] ∨ CopyWord context ∧ context.length ≤ 972

section Layer

variable {context : Option (List Char)} {sh : Shell} {p p' : Process}

/-- The command line of a copy is not cut. -/
theorem copyCommand_fits {context : List Char} (h : context.length ≤ 972) (now : Int64) :
    snprintf 1024 (copyCommand context (layerPath (generateLayerId now)))
      = copyCommand context (layerPath (generateLayerId now)) := by
  refine snprintf_of_lt ?_
  rw [length_copyCommand, length_layerPath]
  omega

/-- A copy changes only what is below the layer's directory. -/
theorem copyDiff_frame (hsh : sh.Copies) (hcontext : PlainContext context) (now : Int64)
    (p : Process) :
    (copyDiff context (layerPath (generateLayerId now)) sh p).2.cwd = p.cwd ∧
      ∀ q, ¬ Below (layerDir (generateLayerId now)) q →
        (copyDiff context (layerPath (generateLayerId now)) sh p).2.fs.node q = p.fs.node q := by
  cases context with
  | none => exact ⟨rfl, fun _ _ => rfl⟩
  | some context =>
    rw [copyDiff]
    split
    · rename_i hlen
      refine ⟨rfl, fun q hq => ?_⟩
      rcases hcontext with rfl | ⟨hword, hshort⟩
      · simp at hlen
      · rw [Process.system, copyCommand_fits hshort]
        simp only [Process.called_fs]
        rw [sh.system_copy _ _ hword.literal (copyWord_layerPath now).literal]
        split
        · refine hsh.frame p.fs hword (copyWord_layerPath now) (head_layerPath now) q ?_
          rw [normalize_layerPath]
          exact hq
        · rfl
    · exact ⟨rfl, fun _ _ => rfl⟩

/-- It writes no file itself. -/
theorem copyDiff_calls (context : Option (List Char)) (path : List Char) (sh : Shell)
    (p : Process) :
    ∃ calls, (copyDiff context path sh p).2.calls = p.calls ++ calls ∧
      ∀ c ∈ calls, c.target = none := by
  cases context with
  | none => exact ⟨[], by simp [copyDiff], by simp⟩
  | some context =>
    rw [copyDiff]
    split
    · exact ⟨[.system (snprintf 1024 (copyCommand context path))], rfl, by simp [Call.target]⟩
    · exact ⟨[], by simp, by simp⟩

variable {parentId command : Option (List Char)} {env : LayerEnv} {r : Int}

/-- The steps of a call that returns 0. -/
theorem createLayer_zero (h : createLayer parentId command context env sh p = (0, p')) :
    ∃ p₁, p.mkdirExistOk (layerPath (generateLayerId env.idAt)) env.mkdirDenied = some p₁ ∧
      (copyDiff context (layerPath (generateLayerId env.idAt)) sh p₁).1 = 0 ∧
      (copyDiff context (layerPath (generateLayerId env.idAt)) sh p₁).2.openWrite
        (layerMetadataPath (generateLayerId env.idAt)) env.writeDenied
        (layerText (generateLayerId env.idAt) (parentId.getD []) (command.getD [])
          env.createdAt) = some p' := by
  rw [createLayer] at h
  simp only at h
  cases hm : p.mkdirExistOk (layerPath (generateLayerId env.idAt)) env.mkdirDenied with
  | none => rw [hm] at h; simp at h
  | some p₁ =>
    rw [hm] at h
    simp only at h
    refine ⟨p₁, rfl, ?_⟩
    split at h
    · simp at h
    · rename_i hcopied
      cases hw : (copyDiff context (layerPath (generateLayerId env.idAt)) sh p₁).2.openWrite
          (layerMetadataPath (generateLayerId env.idAt)) env.writeDenied
          (layerText (generateLayerId env.idAt) (parentId.getD []) (command.getD [])
            env.createdAt) with
      | none => rw [hw] at h; simp at h
      | some p₂ =>
        rw [hw] at h
        obtain rfl : p₂ = p' := by simpa using h
        exact ⟨not_not.mp hcopied, rfl⟩

theorem openWrite_layerFile {p₁ p₂ : Process} {now : Int64} {denied : Bool} {text : List Char}
    (h : p₁.openWrite (layerMetadataPath (generateLayerId now)) denied text = some p₂) :
    p₂.cwd = p₁.cwd ∧ ∀ q, p₂.fs.node q
      = if q = layerFile (generateLayerId now) then some (.file text) else p₁.fs.node q := by
  obtain ⟨hok, hcwd, -⟩ := Process.openWrite_some h
  obtain ⟨f, hf, -, hnode⟩ := openWrite_ok hok
  rw [layerMetadataPath_generated, layerFile] at hf
  obtain ⟨rfl, -⟩ := resolve_absPath_eq (ordinary_layerDir now) (ordinary_layerJson now) hf
  exact ⟨hcwd, hnode⟩

theorem mkdir_layerDir {p₁ : Process} {now : Int64} {denied : Bool}
    (h : p.mkdirExistOk (layerPath (generateLayerId now)) denied = some p₁) :
    p₁.cwd = p.cwd ∧ ∀ q, q ≠ layerDir (generateLayerId now) → p₁.fs.node q = p.fs.node q := by
  obtain ⟨hmk, hcwd, -⟩ := Process.mkdirExistOk_some h
  obtain ⟨d, hd, -, -, -, hframe⟩ := mkdirExistOk_some hmk
  rw [layerPath_generated, layerDir] at hd
  obtain ⟨rfl, -⟩ := resolveNew_absPath_eq ordinary_layersDir (ordinary_generateLayerId now) hd
  exact ⟨hcwd, hframe⟩

/-- What a call does to the file system: nothing outside the directory of
the id it generates; and if it returns 0, the directory is there with its
metadata in it. -/
theorem createLayer_effect (hsh : sh.Copies) (hcontext : PlainContext context)
    (h : createLayer parentId command context env sh p = (r, p')) :
    p'.cwd = p.cwd ∧
      (∀ q, ¬ layerDir (generateLayerId env.idAt) <+: q → p'.fs.node q = p.fs.node q) ∧
      (r = 0 → p'.fs.node (layerFile (generateLayerId env.idAt))
        = some (.file (layerText (generateLayerId env.idAt) (parentId.getD []) (command.getD [])
            env.createdAt))) := by
  rw [createLayer] at h
  simp only at h
  cases hm : p.mkdirExistOk (layerPath (generateLayerId env.idAt)) env.mkdirDenied with
  | none =>
    rw [hm] at h
    obtain ⟨rfl, rfl⟩ := Prod.mk.inj h
    exact ⟨rfl, fun _ _ => rfl, by simp⟩
  | some p₁ =>
    rw [hm] at h
    simp only at h
    obtain ⟨hcwd₁, hnode₁⟩ := mkdir_layerDir hm
    obtain ⟨hcwd₂, hnode₂⟩ := copyDiff_frame hsh hcontext env.idAt p₁
    have hframe : ∀ q, ¬ layerDir (generateLayerId env.idAt) <+: q →
        (copyDiff context (layerPath (generateLayerId env.idAt)) sh p₁).2.fs.node q
          = p.fs.node q := by
      intro q hq
      rw [hnode₂ q fun hb => hq hb.1, hnode₁ q fun he => hq (by rw [he])]
    split at h
    · obtain ⟨rfl, rfl⟩ := Prod.mk.inj h
      exact ⟨hcwd₂.trans hcwd₁, hframe, by simp⟩
    · split at h
      · obtain ⟨rfl, rfl⟩ := Prod.mk.inj h
        exact ⟨hcwd₂.trans hcwd₁, hframe, by simp⟩
      · rename_i hw
        obtain ⟨rfl, rfl⟩ := Prod.mk.inj h
        obtain ⟨hcwd₃, hnode₃⟩ := openWrite_layerFile hw
        refine ⟨hcwd₃.trans (hcwd₂.trans hcwd₁), fun q hq => ?_, fun _ => ?_⟩
        · rw [hnode₃, if_neg, hframe q hq]
          rintro rfl
          exact hq (List.prefix_append _ _)
        · rw [hnode₃, if_pos rfl]

/-- What it records, if it returns 0: at the end the file it wrote, and
no other file before. -/
theorem createLayer_calls (h : createLayer parentId command context env sh p = (0, p')) :
    ∃ calls, p'.calls = p.calls ++ calls
        ++ [.write (layerMetadataPath (generateLayerId env.idAt))
          (layerText (generateLayerId env.idAt) (parentId.getD []) (command.getD [])
            env.createdAt)] ∧
      ∀ raw text, .write raw text ∉ calls := by
  obtain ⟨p₁, hm, -, hw⟩ := createLayer_zero h
  obtain ⟨-, -, hcalls₁⟩ := Process.mkdirExistOk_some hm
  obtain ⟨calls₂, hcalls₂, hnone⟩ :=
    copyDiff_calls context (layerPath (generateLayerId env.idAt)) sh p₁
  obtain ⟨-, -, hcalls₃⟩ := Process.openWrite_some hw
  have hquiet : ∀ raw text, .write raw text ∉ calls₂ := by
    intro raw text hmem
    have := hnone _ hmem
    simp [Call.target] at this
  rcases hcalls₁ with ⟨-, hcalls₁⟩ | ⟨-, hcalls₁⟩
  · refine ⟨.mkdir (layerPath (generateLayerId env.idAt)) :: calls₂, ?_, ?_⟩
    · rw [hcalls₃, hcalls₂, hcalls₁]
      simp
    · intro raw text hmem
      rcases List.mem_cons.mp hmem with he | hmem
      · simp at he
      · exact hquiet raw text hmem
  · exact ⟨calls₂, by rw [hcalls₃, hcalls₂, hcalls₁], hquiet⟩

end Layer

/-! ## 4. One image -/

section Image

variable {name : List Char} {tag context : Option (List Char)} {env : CreateEnv} {sh : Shell}
  {p p' : Process} {r : Int}

/-- The path has nothing to do with the memory of the layers. -/
theorem imagePath_layer (name : List Char) (tag : Option (List Char)) (env : CreateEnv)
    (layer layer' : LayerInfo) :
    imagePath (newImage name tag env layer) = imagePath (newImage name tag env layer') := by
  have hname : (newImage name tag env layer).name = (newImage name tag env layer').name := rfl
  have htag : (newImage name tag env layer).tag = (newImage name tag env layer').tag := rfl
  rw [imagePath, imagePath, hname, htag]

theorem writeImageMetadata_zero {image : ImageInfo} {denied : Bool} {cwd : Path}
    {fs fs' : FileSystem} (h : writeImageMetadata image denied cwd fs = (0, fs')) :
    fs.openWrite cwd (imagePath image) denied (imageText image) = .ok fs' := by
  rw [writeImageMetadata] at h
  split at h
  · rename_i hok
    rw [imagePath, hok, (Prod.mk.inj h).2]
  · simp at h

/-- What a call can do: fail, with the layer's effect only; or write the
image's metadata after the layer. -/
theorem createImage_cases (h : createImage name tag context env sh p = (r, p')) :
    r = -1 ∧ p' = (createLayer none (some "FROM scratch".toList) context env.layer sh p).2 ∨
    r = 0 ∧ ∃ p₁ layer fs,
      createLayer none (some "FROM scratch".toList) context env.layer sh p = (0, p₁) ∧
      env.layers = some layer ∧
      p₁.fs.openWrite p₁.cwd (imagePath (newImage name tag env layer)) env.writeDenied
        (imageText (newImage name tag env layer)) = .ok fs ∧
      p' = p₁.called (.write (imagePath (newImage name tag env layer))
        (imageText (newImage name tag env layer))) fs := by
  rw [createImage] at h
  simp only at h
  split at h
  · exact Or.inl ⟨(Prod.mk.inj h).1.symm, (Prod.mk.inj h).2.symm⟩
  · rename_i hlayer
    cases hl : env.layers with
    | none =>
      rw [hl] at h
      exact Or.inl ⟨(Prod.mk.inj h).1.symm, (Prod.mk.inj h).2.symm⟩
    | some layer =>
      rw [hl] at h
      simp only at h
      split at h
      · rename_i fs hw
        exact Or.inr ⟨(Prod.mk.inj h).1.symm,
          (createLayer none (some "FROM scratch".toList) context env.layer sh p).2, layer, fs,
          Prod.ext (not_not.mp hlayer) rfl, rfl, writeImageMetadata_zero hw,
          (Prod.mk.inj h).2.symm⟩
      · exact Or.inl ⟨(Prod.mk.inj h).1.symm, (Prod.mk.inj h).2.symm⟩

/-- The files a call that returns 0 wrote. -/
theorem createImage_calls (h : createImage name tag context env sh p = (0, p')) :
    ∃ calls layer, p.since p' = calls
        ++ [.write (layerMetadataPath (generateLayerId env.layer.idAt))
            (layerText (generateLayerId env.layer.idAt) [] "FROM scratch".toList
              env.layer.createdAt),
          .write (imagePath (newImage name tag env layer))
            (imageText (newImage name tag env layer))] ∧
      ∀ raw text, .write raw text ∉ calls := by
  rcases createImage_cases h with ⟨hr, -⟩ | ⟨-, p₁, layer, fs, hlayer, -, -, rfl⟩
  · simp at hr
  · obtain ⟨calls, hcalls, hquiet⟩ := createLayer_calls hlayer
    refine ⟨calls, layer, Process.since_append ?_, hquiet⟩
    rw [Process.called_calls, hcalls]
    simp

theorem head_imagePath (image : ImageInfo) : (imagePath image).head? = some '/' := by
  have hdir : METADATA_DIR.toList = '/' :: METADATA_DIR.toList.tail := by decide
  rw [imagePath, metadataPath, hdir]
  rfl

/-- A call changes nothing outside the directory of the layer it fills
and the metadata file it writes. -/
theorem createImage_frame (hsh : sh.Copies) (hcontext : PlainContext context)
    (h : createImage name tag context env sh p = (r, p')) (layer : LayerInfo) :
    p'.cwd = p.cwd ∧
      ∀ q, ¬ layerDir (generateLayerId env.layer.idAt) <+: q →
        q ≠ normalize (imagePath (newImage name tag env layer)) → p'.fs.node q = p.fs.node q := by
  rcases createImage_cases h with ⟨rfl, rfl⟩ | ⟨rfl, p₁, layer', fs, hlayer, -, hw, rfl⟩
  · obtain ⟨hcwd, hframe, -⟩ := createLayer_effect hsh hcontext
      (r := (createLayer none (some "FROM scratch".toList) context env.layer sh p).1) rfl
    exact ⟨hcwd, fun q hq _ => hframe q hq⟩
  · obtain ⟨hcwd, hframe, -⟩ := createLayer_effect hsh hcontext hlayer
    obtain ⟨f, hf, -, hnode⟩ := openWrite_ok hw
    have hplace : f = normalize (imagePath (newImage name tag env layer)) := by
      rw [resolve_eq_leadsTo hf, leadsTo_absolute (head_imagePath _),
        imagePath_layer name tag env layer' layer]
    refine ⟨hcwd, fun q hq hne => ?_⟩
    rw [Process.called_fs, hnode, if_neg (hplace ▸ hne), hframe q hq]

end Image

/-! ## 5. Keys -/

/-- The file that `image_exists` looks for. -/
def imageFile (name : List Char) (tag : Option (List Char)) : Path :=
  metadataDir ++ [getImageFullName name tag ++ ".json".toList]

section Keys

variable {name : List Char} {tag context : Option (List Char)} {env : CreateEnv} {sh : Shell}
  {p p' : Process} {layer : LayerInfo}

theorem imageExists_iff (h : SlashFree name tag) (p : Process) :
    imageExists name tag p = true ↔ p.fs.node (imageFile name tag) ≠ none := by
  rw [imageExists, metadataPath_getImageFullName,
    access_absPath ordinary_metadataDir (ordinary_imageJson h), imageFile]
  exact Option.isSome_iff_ne_none

/-- The arguments of `create_image` that become part of a file name. -/
structure KeyText (name : List Char) (tag : Option (List Char)) : Prop where
  name_nul : NulFree name
  tag_nul : NulFree (tag.getD [])
  slashFree : SlashFree name tag

/-- The file `create_image` writes: the name and the tag are cut to their
arrays first. -/
def writtenFile (name : List Char) (tag : Option (List Char)) : Path :=
  imageFile (name.take (MAX_IMAGE_NAME_LEN - 1))
    (some ((tag.getD "latest".toList).take (MAX_IMAGE_TAG_LEN - 1)))

theorem slashFree_written (h : KeyText name tag) :
    SlashFree (name.take (MAX_IMAGE_NAME_LEN - 1))
      (some ((tag.getD "latest".toList).take (MAX_IMAGE_TAG_LEN - 1))) := by
  have htag : '/' ∉ tag.getD "latest".toList := by
    cases tag with
    | none => decide
    | some tag => exact h.slashFree.2
  exact ⟨fun hm => h.slashFree.1 (List.mem_of_mem_take hm), fun hm => htag (List.mem_of_mem_take hm)⟩

theorem imagePath_newImage (hname : NulFree name) (htag : NulFree (tag.getD []))
    (env : CreateEnv) (layer : LayerInfo) :
    imagePath (newImage name tag env layer) = absPath (writtenFile name tag) := by
  have hlatest : NulFree (tag.getD "latest".toList) := by
    cases tag with
    | none => decide
    | some tag => exact htag
  have hname' : cstr (newImage name tag env layer).name = name.take (MAX_IMAGE_NAME_LEN - 1) :=
    cstr_strncpy_zeros hname
  have htag' : cstr (newImage name tag env layer).tag
      = (tag.getD "latest".toList).take (MAX_IMAGE_TAG_LEN - 1) := cstr_strncpy_zeros hlatest
  rw [imagePath, hname', htag', metadataPath_getImageFullName]
  rfl

/-- Metadata of images lie outside the layers. -/
theorem metadata_outside (n : Name) (id : List Char) : ¬ layerDir id <+: metadataDir ++ [n] := by
  rintro ⟨rest, hrest⟩
  have hsecond := congrArg (fun l => l[1]?) hrest
  have hne : "docker-layers".toList ≠ "docker-metadata".toList := by decide
  exact hne (Option.some.inj hsecond)

theorem layerFile_ne_metadata (id : List Char) (n : Name) : layerFile id ≠ metadataDir ++ [n] := by
  intro h
  have hin : layerDir id <+: layerFile id := List.prefix_append _ _
  rw [h] at hin
  exact metadata_outside n id hin

theorem normalize_imagePath (h : KeyText name tag) (env : CreateEnv) (layer : LayerInfo) :
    normalize (imagePath (newImage name tag env layer)) = writtenFile name tag := by
  rw [imagePath_newImage h.name_nul h.tag_nul, normalize_absPath]
  intro m hm
  rcases List.mem_append.mp hm with hm | hm
  · exact ordinary_metadataDir m hm
  · rw [List.mem_singleton.mp hm]
    exact ordinary_imageJson (slashFree_written h)

/-- Where a call that returns 0 leaves its metadata and those of its
layer. -/
theorem createImage_effect (hsh : sh.Copies) (hcontext : PlainContext context)
    (hkey : KeyText name tag) {r : Int} (h : createImage name tag context env sh p = (r, p')) :
    p'.cwd = p.cwd ∧
      (∀ q, ¬ layerDir (generateLayerId env.layer.idAt) <+: q → q ≠ writtenFile name tag →
        p'.fs.node q = p.fs.node q) ∧
      (r = 0 → ∃ layer,
        p'.fs.node (writtenFile name tag)
          = some (.file (imageText (newImage name tag env layer))) ∧
        p'.fs.node (layerFile (generateLayerId env.layer.idAt))
          = some (.file (layerText (generateLayerId env.layer.idAt) [] "FROM scratch".toList
              env.layer.createdAt))) := by
  obtain ⟨hcwd, hframe⟩ := createImage_frame hsh hcontext h { id := [] }
  rw [normalize_imagePath hkey] at hframe
  refine ⟨hcwd, hframe, ?_⟩
  rintro rfl
  rcases createImage_cases h with ⟨hr, -⟩ | ⟨-, p₁, layer, fs, hlayer, -, hw, rfl⟩
  · simp at hr
  · obtain ⟨-, -, hfile⟩ := createLayer_effect hsh hcontext hlayer
    obtain ⟨f, hf, -, hnode⟩ := openWrite_ok hw
    obtain rfl : f = writtenFile name tag := by
      rw [resolve_eq_leadsTo hf, leadsTo_absolute (head_imagePath _),
        normalize_imagePath hkey]
    refine ⟨layer, by rw [Process.called_fs, hnode, if_pos rfl], ?_⟩
    rw [Process.called_fs, hnode, if_neg, hfile rfl]
    · rfl
    · exact layerFile_ne_metadata _ _

end Keys

/-! ## 6. Recorded layers -/

/-- The line in front of the layer ids. -/
def layersLine : List Char := "  \"layers\": [".toList

/-- What stands between the first two quotes of a line. -/
def quotedText (line : List Char) : List Char :=
  ((line.dropWhile (fun c => c != '"')).drop 1).takeWhile (fun c => c != '"')

/-- The layer ids a metadata text records: the list it ends with, read
from the end, so that nothing in a name can be taken for it. -/
def recordedLayers (text : List Char) : List (List Char) :=
  let lines := (text.splitOn '\n').reverse.drop 3
  if layersLine ∈ lines then
    ((lines.takeWhile (fun line => line != layersLine)).reverse).map quotedText
  else []

/-- The lines of the layer list. -/
def layerIdLines : List LayerInfo → List (List Char)
  | [] => []
  | [layer] => ["    \"".toList ++ cstr layer.id ++ ['"']]
  | layer :: next :: rest =>
      ("    \"".toList ++ cstr layer.id ++ ['"', ',']) :: layerIdLines (next :: rest)

/-- An id that can be read back. -/
def ReadableId (id : List Char) : Prop := '\n' ∉ id ∧ '"' ∉ id

theorem layerLines_eq : ∀ layers : List LayerInfo,
    layerLines layers = (layerIdLines layers).flatMap (· ++ ['\n'])
  | [] => rfl
  | [layer] => by
      have hend : "\"\n".toList = ['"'] ++ ['\n'] := by decide
      have hlines : layerLines [layer]
          = "    \"".toList ++ cstr layer.id ++ "\"\n".toList := rfl
      have hids : layerIdLines [layer] = ["    \"".toList ++ cstr layer.id ++ ['"']] := rfl
      rw [hlines, hids, List.flatMap_singleton, hend, ← List.append_assoc]
  | layer :: next :: rest => by
      have hend : "\",\n".toList = ['"', ','] ++ ['\n'] := by decide
      have hlines : layerLines (layer :: next :: rest)
          = "    \"".toList ++ cstr layer.id ++ "\",\n".toList ++ layerLines (next :: rest) := rfl
      have hids : layerIdLines (layer :: next :: rest)
          = ("    \"".toList ++ cstr layer.id ++ ['"', ',']) :: layerIdLines (next :: rest) := rfl
      rw [hlines, hids, List.flatMap_cons, layerLines_eq (next :: rest), hend,
        ← List.append_assoc _ ['"', ',']]

theorem mem_layerIdLines {w : List Char} : ∀ {layers : List LayerInfo}, w ∈ layerIdLines layers →
    ∃ layer ∈ layers, ∃ comma : Bool,
      w = "    \"".toList ++ cstr layer.id ++ '"' :: if comma then [','] else []
  | [layer], h => ⟨layer, by simp, false, List.mem_singleton.mp h⟩
  | layer :: next :: rest, h => by
      rcases List.mem_cons.mp h with rfl | h
      · exact ⟨layer, by simp, true, rfl⟩
      · obtain ⟨l, hl, comma, hw⟩ := mem_layerIdLines h
        exact ⟨l, List.mem_cons_of_mem _ hl, comma, hw⟩

theorem splitOn_layerLines (tail : List Char) {layers : List LayerInfo}
    (h : ∀ layer ∈ layers, ReadableId (cstr layer.id)) :
    (layerLines layers ++ tail).splitOn '\n' = layerIdLines layers ++ tail.splitOn '\n' := by
  rw [layerLines_eq]
  refine splitOn_lines tail fun line hline => ?_
  obtain ⟨layer, hlayer, comma, rfl⟩ := mem_layerIdLines hline
  have hid := (h layer hlayer).1
  have hopen : '\n' ∉ "    \"".toList := by decide
  have hclose : '\n' ∉ '"' :: if comma then [','] else [] := by cases comma <;> decide
  simp only [List.mem_append, not_or]
  exact ⟨⟨hopen, hid⟩, hclose⟩

theorem quotedText_line {id : List Char} (h : '"' ∉ id) (tail : List Char) :
    quotedText ("    \"".toList ++ id ++ '"' :: tail) = id := by
  have hid : ∀ c ∈ id, (c != '"') = true := by
    intro c hc
    have : c ≠ '"' := fun e => h (e ▸ hc)
    simpa using this
  have hopen : ("    \"".toList ++ id ++ '"' :: tail).dropWhile (fun c => c != '"')
      = '"' :: (id ++ '"' :: tail) := by
    rw [List.append_assoc]
    rfl
  rw [quotedText, hopen, List.drop_succ_cons, List.drop_zero,
    List.takeWhile_append_of_pos hid]
  simp

theorem map_quotedText : ∀ {layers : List LayerInfo},
    (∀ layer ∈ layers, ReadableId (cstr layer.id)) →
      (layerIdLines layers).map quotedText = layers.map (fun layer => cstr layer.id)
  | [], _ => rfl
  | [layer], h => by
      rw [layerIdLines, List.map_singleton, quotedText_line (h layer (by simp)).2]
      rfl
  | layer :: next :: rest, h => by
      have hrest : ∀ l ∈ next :: rest, ReadableId (cstr l.id) :=
        fun l hl => h l (List.mem_cons_of_mem layer hl)
      rw [layerIdLines, List.map_cons, quotedText_line (h layer (by simp)).2,
        map_quotedText hrest]
      rfl

/-- The line in front of the list is indented less. -/
theorem layersLine_ne (id tail : List Char) : layersLine ≠ "    \"".toList ++ id ++ tail := by
  intro h
  have hleft : layersLine[2]? = some '"' := by decide
  have hright : ("    \"".toList ++ id ++ tail)[2]? = some ' ' := rfl
  rw [h, hright] at hleft
  simp at hleft

theorem layersLine_not_mem (layers : List LayerInfo) : layersLine ∉ layerIdLines layers := by
  intro h
  obtain ⟨layer, -, comma, hline⟩ := mem_layerIdLines h
  exact layersLine_ne (cstr layer.id) _ hline

theorem configText_newline (image : ImageInfo) : ∃ front, configText image = front ++ ['\n'] := by
  have hlast : "  \x7d,\n".toList = "  \x7d,".toList ++ ['\n'] := by decide
  unfold configText
  rw [hlast, ← List.append_assoc]
  exact ⟨_, rfl⟩

/-- What is recorded is what was written. -/
theorem recordedLayers_imageText {image : ImageInfo}
    (h : ∀ layer ∈ image.layers, ReadableId (cstr layer.id)) :
    recordedLayers (imageText image) = image.layers.map (fun layer => cstr layer.id) := by
  obtain ⟨front, hfront⟩ := configText_newline image
  have hopen : "  \"layers\": [\n".toList = layersLine ++ ['\n'] := by decide
  have hclose : "  ]\n\x7d\n".toList = "  ]".toList ++ '\n' :: (['\x7d'] ++ ['\n']) := by decide
  have hlayers : '\n' ∉ layersLine := by decide
  have htail : ("  ]\n\x7d\n".toList).splitOn '\n' = ["  ]".toList, ['\x7d'], []] := by decide
  have htext : imageText image = (entriesText (imageEntries image) ++ front)
      ++ '\n' :: (layersLine ++ '\n' :: (layerLines image.layers ++ "  ]\n\x7d\n".toList)) := by
    unfold imageText
    rw [hfront, hopen]
    simp only [List.append_assoc, List.cons_append, List.nil_append]
  have hsplit : (imageText image).splitOn '\n'
      = (entriesText (imageEntries image) ++ front).splitOn '\n'
        ++ layersLine :: (layerIdLines image.layers ++ ["  ]".toList, ['\x7d'], []]) := by
    rw [htext, splitOn_sep, splitOn_sep, splitOn_word hlayers, splitOn_layerLines _ h, htail]
    rfl
  have hlines : ((imageText image).splitOn '\n').reverse.drop 3
      = (layerIdLines image.layers).reverse ++ layersLine ::
        ((entriesText (imageEntries image) ++ front).splitOn '\n').reverse := by
    rw [hsplit]
    simp
  have hkeep : ∀ line ∈ (layerIdLines image.layers).reverse, (line != layersLine) = true := by
    intro line hline
    have : line ≠ layersLine := by
      rintro rfl
      exact layersLine_not_mem _ (List.mem_reverse.mp hline)
    simpa using this
  rw [recordedLayers, hlines, if_pos (by simp), List.takeWhile_append_of_pos hkeep, List.takeWhile_cons,
    if_neg (by simp), List.append_nil, List.reverse_reverse, map_quotedText h]

section Recorded

variable {name : List Char} {tag context : Option (List Char)} {env : CreateEnv} {sh : Shell}
  {p p' : Process} {layer : LayerInfo}

/-- The one layer a new image records. -/
theorem recordedLayers_newImage (name : List Char) (tag : Option (List Char)) (env : CreateEnv)
    (layer : LayerInfo) :
    recordedLayers (imageText (newImage name tag env layer)) = [generateLayerId env.layerAt] := by
  have hid : cstr (strcpy layer.id (generateLayerId env.layerAt)) = generateLayerId env.layerAt :=
    cstr_store (nulFree_generateLayerId _) _
  have hlayers : (newImage name tag env layer).layers
      = [{ id := strcpy layer.id (generateLayerId env.layerAt) }] := rfl
  rw [recordedLayers_imageText, hlayers]
  · rw [List.map_singleton, hid]
  · intro l hl
    rw [hlayers, List.mem_singleton] at hl
    rw [hl, hid]
    exact ⟨not_mem_generateLayerId (by decide) _, not_mem_generateLayerId (by decide) _⟩

end Recorded

end DockerClone.Image
