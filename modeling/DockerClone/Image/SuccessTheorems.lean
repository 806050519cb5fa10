/-
DockerClone.Image.SuccessTheorems — when an image is created.

For calls that nothing denies, `createImage_zero_iff` says exactly when
`create_image` returns 0: its context directory has something that `*`
finds, the place of the new layer is free or a directory, and no
directory stands where a metadata file goes. A copy of nothing fails, so
an empty context makes no image.
-/
import DockerClone.Image.CreateTheorems
import DockerClone.Os.Effect

namespace DockerClone.Image

open DockerClone.CLib DockerClone.Os DockerClone.Os.FileSystem DockerClone.Metadata

/-! ## 1. One layer -/

/-- A directory that can be a context: a word for `cp`, away from the
layer of this id, without an entry named like the layer's metadata. -/
structure ContextDir (d : Path) (now : Int64) (fs : FileSystem) : Prop where
  ordinary : ∀ m ∈ d, Ordinary m
  nonempty : d ≠ []
  word : CopyWord (absPath d)
  short : (absPath d).length ≤ 972
  apart : ∀ r, d ++ r ≠ layerDir (generateLayerId now)
  dir : fs.node d = some .dir
  unnamed : fs.node (d ++ [generateLayerId now ++ ".json".toList]) = none

section Context

variable {d : Path} {now : Int64} {fs : FileSystem}

theorem ContextDir.head (h : ContextDir d now fs) : (absPath d).head? = some '/' := by
  have hd := List.dropLast_append_getLast h.nonempty
  rw [← hd]
  exact head_absPath _ _

theorem ContextDir.resolve (h : ContextDir d now fs) (cwd : Path) :
    fs.resolve cwd (absPath d) = .ok d := by
  have hd := List.dropLast_append_getLast h.nonempty
  have hdir : fs.node (d.dropLast ++ [d.getLast h.nonempty]) ≠ none := by
    rw [hd, h.dir]
    simp
  have hresolve : fs.resolve cwd (absPath (d.dropLast ++ [d.getLast h.nonempty]))
      = .ok (d.dropLast ++ [d.getLast h.nonempty]) :=
    resolve_absPath_of_node (fun m hm => h.ordinary m (List.mem_of_mem_dropLast hm))
      (h.ordinary _ (List.getLast_mem h.nonempty)) hdir
  rwa [hd] at hresolve

theorem ContextDir.plain (h : ContextDir d now fs) : PlainContext (some (absPath d)) :=
  Or.inr ⟨h.word, h.short⟩

end Context

section Layer

variable {d : Path} {sh : Shell} {p : Process} {env : LayerEnv}

/-- After the `mkdir` the layer's place holds a directory unless a file
was there. -/
theorem layerDir_made {now : Int64} {p₁ : Process}
    (h : p.mkdirExistOk (layerPath (generateLayerId now)) false = some p₁) :
    p₁.fs.node (layerDir (generateLayerId now)) = some .dir ↔
      regular (p.fs.node (layerDir (generateLayerId now))) = none := by
  have hleads := mkdirExistOk_leads h (layerDir (generateLayerId now))
  rw [leadsTo_absolute (head_layerPath now), normalize_layerPath, Effect.leaves] at hleads
  rw [hleads]
  cases hnode : p.fs.node (layerDir (generateLayerId now)) with
  | none => simp
  | some x =>
    cases x with
    | dir => simp
    | file content => simp

/-- What the copy leaves where the metadata go. -/
theorem copyDiff_metadata (hsh : sh.Copies) (havailable : sh.available = true) {now : Int64}
    (h : ContextDir d now p.fs) :
    (copyDiff (some (absPath d)) (layerPath (generateLayerId now)) sh p).2.fs.node
        (layerFile (generateLayerId now))
      = p.fs.node (layerFile (generateLayerId now)) := by
  have hunnamed := hsh.unnamed h.word (copyWord_layerPath now) (head_layerPath now) h.head
    (h.resolve []) (generateLayerId now ++ ".json".toList) [] h.unnamed
  rw [normalize_layerPath] at hunnamed
  have hlong : (absPath d).length > 0 := List.length_pos_of_ne_nil fun hnil => by
    have hhead := h.head
    rw [hnil] at hhead
    simp at hhead
  rw [copyDiff, if_pos hlong, copyCommand_fits h.short, Process.system]
  simp only [Process.called_fs]
  rw [sh.system_copy p.cwd p.fs h.word.literal (copyWord_layerPath now).literal,
    if_pos havailable]
  exact hunnamed

/-- Into a directory the copy goes well exactly when it has something to
copy. -/
theorem copyDiff_zero_iff (hvisible : sh.CopiesVisible) (havailable : sh.available = true)
    {now : Int64} (h : ContextDir d now p.fs)
    (hlayer : p.fs.node (layerDir (generateLayerId now)) = some .dir) :
    (copyDiff (some (absPath d)) (layerPath (generateLayerId now)) sh p).1 = 0 ↔
      ∃ n, visible n = true ∧ p.fs.node (d ++ [n]) ≠ none := by
  have htarget : p.fs.resolve [] (layerPath (generateLayerId now))
      = .ok (layerDir (generateLayerId now)) := by
    rw [layerPath_generated]
    exact resolve_absPath_of_node ordinary_layersDir (ordinary_generateLayerId now)
      (by rw [layerDir] at hlayer; rw [hlayer]; simp)
  have hstatus := hvisible.status h.word (copyWord_layerPath now) (head_layerPath now) h.head
    (h.resolve []) htarget hlayer
  have hlong : (absPath d).length > 0 := List.length_pos_of_ne_nil fun hnil => by
    have hhead := h.head
    rw [hnil] at hhead
    simp at hhead
  rw [copyDiff, if_pos hlong, copyCommand_fits h.short, Process.system]
  simp only
  rw [sh.system_copy p.cwd p.fs h.word.literal (copyWord_layerPath now).literal,
    if_pos havailable]
  exact hstatus

theorem createLayer_zero_iff (hsh : sh.Copies) (hvisible : sh.CopiesVisible)
    (havailable : sh.available = true) (hmkdir : env.mkdirDenied = false)
    (hwrite : env.writeDenied = false) (h : ContextDir d env.idAt p.fs)
    (hlayers : p.fs.node layersDir = some .dir) (parentId command : Option (List Char)) :
    (createLayer parentId command (some (absPath d)) env sh p).1 = 0 ↔
      (∃ n, visible n = true ∧ p.fs.node (d ++ [n]) ≠ none) ∧
      regular (p.fs.node (layerDir (generateLayerId env.idAt))) = none ∧
      p.fs.node (layerFile (generateLayerId env.idAt)) ≠ some .dir := by
  obtain ⟨p₁, hmade⟩ : ∃ p₁, p.mkdirExistOk (layerPath (generateLayerId env.idAt)) env.mkdirDenied
      = some p₁ := by
    rw [← Option.isSome_iff_exists, Process.mkdirExistOk_isSome, layerPath_generated, layerDir,
      mkdirExistOk_absPath _ _ ordinary_layersDir (ordinary_generateLayerId _), hmkdir]
    simpa using hlayers
  obtain ⟨-, hnode₁⟩ := mkdir_layerDir hmade
  have hfile : layerFile (generateLayerId env.idAt) ≠ layerDir (generateLayerId env.idAt) := by
    intro he
    have hlen := congrArg List.length he
    simp [layerFile] at hlen
  have hentry : ∀ r, p₁.fs.node (d ++ r) = p.fs.node (d ++ r) := fun r => hnode₁ _ (h.apart r)
  have hdir₁ : p₁.fs.node d = some .dir := by
    have hd := hentry []
    rw [List.append_nil] at hd
    rw [hd, h.dir]
  have h₁ : ContextDir d env.idAt p₁.fs :=
    ⟨h.ordinary, h.nonempty, h.word, h.short, h.apart, hdir₁, by rw [hentry, h.unnamed]⟩
  -- what the write of the metadata finds
  obtain ⟨hcwd₂, hframe₂⟩ := copyDiff_frame hsh h.plain env.idAt p₁
  have hlayer₂ : (copyDiff (some (absPath d)) (layerPath (generateLayerId env.idAt)) sh p₁).2.fs.node
      (layerDir (generateLayerId env.idAt)) = p₁.fs.node (layerDir (generateLayerId env.idAt)) :=
    hframe₂ _ fun hbelow => hbelow.2 rfl
  have hwritten : ∀ text, ((copyDiff (some (absPath d)) (layerPath (generateLayerId env.idAt)) sh
        p₁).2.openWrite (layerMetadataPath (generateLayerId env.idAt)) env.writeDenied text).isSome
      ↔ regular (p.fs.node (layerDir (generateLayerId env.idAt))) = none ∧
        p.fs.node (layerFile (generateLayerId env.idAt)) ≠ some .dir := by
    intro text
    rw [Process.openWrite_isSome, layerMetadataPath_generated]
    have hiff := openWrite_absPath
      (copyDiff (some (absPath d)) (layerPath (generateLayerId env.idAt)) sh p₁).2.fs
      (copyDiff (some (absPath d)) (layerPath (generateLayerId env.idAt)) sh p₁).2.cwd
      (ordinary_layerDir env.idAt) (ordinary_layerJson env.idAt) env.writeDenied text
    rw [← layerFile] at hiff
    rw [hiff, hlayer₂, copyDiff_metadata hsh havailable h₁, hnode₁ _ hfile,
      layerDir_made (by rw [← hmkdir]; exact hmade)]
    simp [hwrite]
  rw [createLayer, hmade]
  simp only
  by_cases hlayer : p₁.fs.node (layerDir (generateLayerId env.idAt)) = some .dir
  · have hcopied := copyDiff_zero_iff hvisible havailable h₁ hlayer
    simp only [hentry] at hcopied
    by_cases hzero : (copyDiff (some (absPath d)) (layerPath (generateLayerId env.idAt)) sh p₁).1 = 0
    · rw [if_neg (not_not.mpr hzero), and_iff_right (hcopied.mp hzero), ← hwritten]
      split
      · rename_i hnone
        rw [hnone]
        simp
      · rename_i hsome
        rw [hsome]
        simp
    · rw [if_pos hzero]
      refine iff_of_false (by simp) fun hall => hzero (hcopied.mpr hall.1)
  · -- a file in the layer's place stays there, and nothing can be written below it
    have hregular : ¬ regular (p.fs.node (layerDir (generateLayerId env.idAt))) = none := by
      rw [← layerDir_made (by rw [← hmkdir]; exact hmade)]
      exact hlayer
    refine iff_of_false ?_ fun hall => hregular hall.2.1
    split
    · simp
    · split
      · simp
      · rename_i hsome
        have hopen := (hwritten _).mp (by rw [hsome]; rfl)
        exact absurd hopen.1 hregular

end Layer

/-! ## 2. One image -/

section Image

variable {d : Path} {name : List Char} {tag : Option (List Char)} {sh : Shell} {p : Process}
  {env : CreateEnv}

/-- Nothing that one call asks for is denied. -/
structure CreateEnv.Granted (env : CreateEnv) : Prop where
  mkdir : env.layer.mkdirDenied = false
  layerWrite : env.layer.writeDenied = false
  allocated : env.layers ≠ none
  imageWrite : env.writeDenied = false

theorem writeImageMetadata_zero_iff (image : ImageInfo) (denied : Bool) (cwd : Path)
    (fs : FileSystem) : (writeImageMetadata image denied cwd fs).1 = 0 ↔
      ∃ fs', fs.openWrite cwd (imagePath image) denied (imageText image) = .ok fs' := by
  rw [writeImageMetadata, imagePath]
  cases fs.openWrite cwd (metadataPath (getImageFullName (cstr image.name) (some (cstr image.tag))))
      denied (imageText image) with
  | ok fs' => simp
  | error e => simp

/-- When `create_image` returns 0. -/
theorem createImage_zero_iff (hsh : sh.Copies) (hvisible : sh.CopiesVisible)
    (havailable : sh.available = true) (hgranted : env.Granted)
    (h : ContextDir d env.layer.idAt p.fs) (hlayers : p.fs.node layersDir = some .dir)
    (hmetadata : p.fs.node metadataDir = some .dir) (hkey : KeyText name tag) :
    (createImage name tag (some (absPath d)) env sh p).1 = 0 ↔
      ((∃ n, visible n = true ∧ p.fs.node (d ++ [n]) ≠ none) ∧
        regular (p.fs.node (layerDir (generateLayerId env.layer.idAt))) = none ∧
        p.fs.node (layerFile (generateLayerId env.layer.idAt)) ≠ some .dir) ∧
      p.fs.node (writtenFile name tag) ≠ some .dir := by
  obtain ⟨layer, hlayer⟩ := Option.ne_none_iff_exists'.mp hgranted.allocated
  have hzero := createLayer_zero_iff hsh hvisible havailable hgranted.mkdir hgranted.layerWrite h
    hlayers none (some "FROM scratch".toList)
  rw [← hzero, createImage, hlayer]
  simp only
  by_cases hmade : (createLayer none (some "FROM scratch".toList) (some (absPath d)) env.layer sh
      p).1 = 0
  · obtain ⟨p₁, hcall⟩ := Process.exists_of_result hmade
    obtain ⟨hcwd, hframe, -⟩ := createLayer_effect hsh h.plain hcall
    have hshort : ¬ layerDir (generateLayerId env.layer.idAt) <+: metadataDir := by
      intro hpre
      have hlen := hpre.length_le
      simp [layerDir, layersDir, metadataDir] at hlen
    have hmeta : p₁.fs.node metadataDir = some .dir := by rw [hframe _ hshort, hmetadata]
    have hfile : p₁.fs.node (writtenFile name tag) = p.fs.node (writtenFile name tag) :=
      hframe _ (metadata_outside _ _)
    have hwrite := writeImageMetadata_zero_iff (newImage name tag env layer) env.writeDenied
      p₁.cwd p₁.fs
    rw [imagePath_newImage hkey.name_nul hkey.tag_nul, writtenFile, imageFile,
      openWrite_absPath _ _ ordinary_metadataDir (ordinary_imageJson (slashFree_written hkey)),
      ← imageFile, ← writtenFile, hfile] at hwrite
    rw [if_neg (not_not.mpr hmade), and_iff_right hmade, hcall]
    simp only
    have hiff : (writeImageMetadata (newImage name tag env layer) env.writeDenied p₁.cwd p₁.fs).1 = 0
        ↔ p.fs.node (writtenFile name tag) ≠ some .dir := by
      rw [hwrite]
      simp [hgranted.imageWrite, hmeta]
    rw [← hiff]
    split
    · rename_i hw
      rw [hw]
    · rename_i r fs hne hw
      rw [hw]
      exact iff_of_false (by simp) hne
  · rw [if_pos hmade]
    exact iff_of_false (by simp) fun hall => hmade hall.1

end Image

end DockerClone.Image
