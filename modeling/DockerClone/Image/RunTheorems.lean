/-
DockerClone.Image.RunTheorems — runs of `create_image`.

A call reads the clock twice for a layer id: once for the id it records,
once, in `create_layer`, for the directory it fills. The two are the same
id exactly when no tick of the clock lies between the readings
(`layers_faithful_iff`), for every run and every clock.

The id is fresh only if its second is. A call in the same second as an
earlier one accepts the directory it finds and writes into it, so what an
image was built from stays as it was in a run whose calls never fill a
directory that an earlier call recorded (`layers_kept`).
-/
import DockerClone.Image.CreateTheorems
import DockerClone.Os.Run

namespace DockerClone.Image

open DockerClone.CLib DockerClone.Os DockerClone.Os.FileSystem DockerClone.Metadata

/-! ## 1. Runs -/

/-- One call of a run. -/
structure CreateCall where
  name : List Char
  tag : Option (List Char)
  context : Option (List Char)
  env : CreateEnv
  shell : Shell

def createStep (c : CreateCall) (p : Process) : Int × Process :=
  createImage c.name c.tag c.context c.env c.shell p

/-- The path of the metadata the call writes. -/
def CreateCall.metadataPath (c : CreateCall) : List Char :=
  imagePath (newImage c.name c.tag c.env { id := [] })

/-- The readings of the successive `time` calls of a run. -/
def clockReadings (calls : List CreateCall) : List Int64 := calls.flatMap fun c => c.env.readings

/-- The layers recorded in the metadata that the call has written. -/
def Recorded (t : Transition Process CreateCall Int) (id : List Char) : Prop :=
  ∃ text, t.after.fs.openRead t.after.cwd t.action.metadataPath false = some text ∧
    id ∈ recordedLayers text

/-- During the call `create_layer` wrote its metadata into the directory
of this id. -/
def FilledLayer (t : Transition Process CreateCall Int) (id : List Char) : Prop :=
  ∃ now, .write (layerMetadataPath id) (layerText id [] "FROM scratch".toList now)
    ∈ t.before.since t.after

/-! ## 2. Recorded and filled -/

section Call

variable {c : CreateCall} {p : Process}

/-- A call that returns 0 records the one id it generated itself. -/
theorem recorded_iff (h : (createStep c p).1 = 0) (id : List Char) :
    Recorded (transition createStep c p) id ↔ id = generateLayerId c.env.layerAt := by
  have hcall : createStep c p = ((createStep c p).1, (createStep c p).2) := rfl
  rcases createImage_cases hcall with
    ⟨hr, -⟩ | ⟨-, p₁, layer, fs, -, -, hw, hp⟩
  · rw [h] at hr
    simp at hr
  · have hread : (createStep c p).2.fs.openRead (createStep c p).2.cwd c.metadataPath false
        = some (imageText (newImage c.name c.tag c.env layer)) := by
      rw [hp, CreateCall.metadataPath, imagePath_layer c.name c.tag c.env { id := [] } layer]
      exact openRead_openWrite hw
    constructor
    · rintro ⟨text, htext, hid⟩
      obtain rfl := Option.some.inj (hread.symm.trans htext)
      rw [recordedLayers_newImage] at hid
      exact List.mem_singleton.mp hid
    · rintro rfl
      exact ⟨_, hread, by rw [recordedLayers_newImage]; simp⟩

theorem layerMetadataPath_inj {a b : Int64}
    (h : layerMetadataPath (generateLayerId a) = layerMetadataPath (generateLayerId b)) : a = b := by
  have hpath := congrArg normalize h
  rw [normalize_layerMetadataPath, normalize_layerMetadataPath] at hpath
  rw [layerFile, layerFile] at hpath
  have hdir := (List.append_inj' hpath (by simp)).1
  exact generateLayerId_inj (List.singleton_inj.mp (List.append_cancel_left hdir))

/-- How a metadata text starts. -/
theorem entriesText_id (id : List Char) (entries : List Entry) :
    entriesText (.brace '{' :: .text { name := "id" } id :: entries)
      = "\x7b\n  \"id\": \"".toList ++ (id ++ ("\",\n".toList ++ entriesText entries)) := by
  have hstart : ['\x7b', '\n'] ++ ("  \"".toList ++ "id".toList ++ "\": \"".toList)
      = "\x7b\n  \"id\": \"".toList := by decide
  have hline : entriesText (.brace '{' :: .text { name := "id" } id :: entries)
      = ['\x7b', '\n'] ++ ((("  \"".toList ++ "id".toList ++ "\": \"".toList) ++ id
        ++ "\",\n".toList) ++ entriesText entries) := rfl
  rw [hline, ← hstart]
  simp only [List.append_assoc]

/-- The metadata of an image are not those of a layer: the ids in their
first line differ. -/
theorem imageText_ne_layerText (name : List Char) (tag : Option (List Char)) (env : CreateEnv)
    (layer : LayerInfo) (a now : Int64) :
    imageText (newImage name tag env layer)
      ≠ layerText (generateLayerId a) [] "FROM scratch".toList now := by
  have hid : cstr (newImage name tag env layer).id = generateImageId env.imageAt :=
    cstr_store (nulFree_generateImageId _) _
  obtain ⟨rest, hleft⟩ : ∃ rest, imageText (newImage name tag env layer)
      = "\x7b\n  \"id\": \"".toList ++ (generateImageId env.imageAt ++ rest) := by
    unfold imageText imageEntries
    rw [entriesText_id, hid]
    simp only [List.append_assoc]
    exact ⟨_, rfl⟩
  obtain ⟨rest', hright⟩ : ∃ rest', layerText (generateLayerId a) [] "FROM scratch".toList now
      = "\x7b\n  \"id\": \"".toList ++ (generateLayerId a ++ rest') := by
    unfold layerText
    rw [entriesText_id]
    simp only [List.append_assoc]
    exact ⟨_, rfl⟩
  intro h
  rw [hleft, hright, generateImageId_eq, generateLayerId_eq, List.append_cancel_left_eq,
    List.append_assoc, List.append_assoc, List.append_assoc, List.append_assoc] at h
  have hs : "sha256:".toList = 's' :: "ha256:".toList := by decide
  have hl : "layer_".toList = 'l' :: "ayer_".toList := by decide
  rw [hs, hl, List.cons_append, List.cons_append] at h
  simp at h

/-- What a call that returns 0 has filled: the layer of the id that
`create_layer` generated. -/
theorem filledLayer_iff (h : (createStep c p).1 = 0) (now : Int64) :
    FilledLayer (transition createStep c p) (generateLayerId now) ↔ now = c.env.layer.idAt := by
  have hcall : createStep c p = (0, (createStep c p).2) := Prod.ext h rfl
  obtain ⟨calls, layer, hsince, hquiet⟩ := createImage_calls hcall
  constructor
  · rintro ⟨createdAt, hmem⟩
    have hmem : Call.write (layerMetadataPath (generateLayerId now))
        (layerText (generateLayerId now) [] "FROM scratch".toList createdAt)
          ∈ p.since (createStep c p).2 := hmem
    rw [hsince, List.mem_append] at hmem
    rcases hmem with hmem | hmem
    · exact absurd hmem (hquiet _ _)
    · rcases List.mem_cons.mp hmem with he | hmem
      · exact layerMetadataPath_inj (Call.write.inj he).1
      · have he := List.mem_singleton.mp hmem
        exact absurd (Call.write.inj he).2.symm (imageText_ne_layerText _ _ _ _ _ _)
  · rintro rfl
    refine ⟨c.env.layer.createdAt, ?_⟩
    show _ ∈ p.since (createStep c p).2
    rw [hsince]
    simp

end Call

/-! ## 3. Layer ids of a run -/

/-- Every layer id recorded by a call that returned 0 is the id of the
directory that was filled during the call. -/
def LayersFaithful (t : Transition Process CreateCall Int) : Prop :=
  t.result = 0 → ∀ id, Recorded t id → FilledLayer t id

theorem layersFaithful_iff (c : CreateCall) (p : Process) :
    LayersFaithful (transition createStep c p) ↔
      ((createStep c p).1 = 0 → c.env.layerAt = c.env.layer.idAt) := by
  constructor
  · intro hfaithful hzero
    have hrecorded := (recorded_iff hzero (generateLayerId c.env.layerAt)).mpr rfl
    exact (filledLayer_iff hzero _).mp (hfaithful hzero _ hrecorded)
  · intro hsame hzero id hid
    rw [(recorded_iff hzero id).mp hid]
    exact (filledLayer_iff hzero _).mpr (hsame hzero)

/-- In every run, under every clock: all layers recorded are the layers
that were filled exactly when no call that returns 0 has a tick between
its two layer readings. -/
theorem layers_faithful_iff (calls : List CreateCall) (p : Process) :
    (∀ t ∈ transitions createStep calls p, LayersFaithful t) ↔
      ∀ t ∈ transitions createStep calls p,
        t.result = 0 → t.action.env.layerAt = t.action.env.layer.idAt := by
  have hone : ∀ t ∈ transitions createStep calls p, (LayersFaithful t ↔
      (t.result = 0 → t.action.env.layerAt = t.action.env.layer.idAt)) := by
    intro t ht
    obtain ⟨c, -, q, rfl⟩ := exists_of_mem_transitions ht
    exact layersFaithful_iff c q
  constructor
  · intro h t ht
    exact (hone t ht).mp (h t ht)
  · intro h t ht
    exact (hone t ht).mpr (h t ht)

/-- The three image directories, empty. -/
def imageStore : FileSystem :=
  ofEntries [([], .dir), (["tmp".toList], .dir), (["tmp".toList, "docker-images".toList], .dir),
    (layersDir, .dir), (metadataDir, .dir)] (by decide)

def storeProcess : Process := { fs := imageStore, cwd := [], calls := [] }

/-- A call that meets no failure, with these readings of the clock. -/
def grantedCreate (imageAt createdAt layerAt idAt writtenAt : Int64) : CreateEnv where
  imageAt := imageAt
  createdAt := createdAt
  layerAt := layerAt
  layer := { idAt := idAt, createdAt := writtenAt, mkdirDenied := false, writeDenied := false }
  layers := some { id := [] }
  size := 4096
  writeDenied := false

def callFor (name : String) (env : CreateEnv) : CreateCall where
  name := name.toList
  tag := none
  context := none
  env := env
  shell := utilities

/-- The clock ticks between the two readings for the layer id. -/
def tickingCall : CreateCall :=
  callFor "web" (grantedCreate 1705230833 1705230833 1705230833 1705230834 1705230834)

/-- The recorded layer is not the one that was filled. -/
theorem tick_records_missing_layer : (clockReadings [tickingCall]).Pairwise (· ≤ ·) ∧
    ¬ ∀ t ∈ transitions createStep [tickingCall] storeProcess, LayersFaithful t := by
  have hzero : (createStep tickingCall storeProcess).1 = 0 := by decide
  refine ⟨by decide, fun h => ?_⟩
  have hsame := (layersFaithful_iff tickingCall storeProcess).mp (h _ (by simp [transitions])) hzero
  exact absurd hsame (by decide)

/-! ## 4. Layers of earlier images -/

/-- What was in the layers an image recorded is still there, unchanged,
after a later call. -/
def LayersKept (t u : Transition Process CreateCall Int) : Prop :=
  t.result = 0 → ∀ id, Recorded t id →
    ∀ r, u.after.fs.node (layerDir id ++ r) = t.after.fs.node (layerDir id ++ r)

/-- A later call whose layer id and whose metadata file are none of an
earlier call's layer, and whose context reaches `cp` as it stands. -/
structure LeavesAlone (c d : CreateCall) : Prop where
  shell : d.shell.Copies
  context : PlainContext d.context
  fresh : c.env.layerAt ≠ d.env.layer.idAt
  metadata : ¬ layerDir (generateLayerId c.env.layerAt) <+: normalize d.metadataPath

/-- The directories of different ids are apart. -/
theorem layerDir_apart {a b : Int64} (h : a ≠ b) (r : Path) :
    ¬ layerDir (generateLayerId b) <+: layerDir (generateLayerId a) ++ r := by
  rintro ⟨rest, hrest⟩
  rw [layerDir, layerDir, List.append_assoc, List.append_assoc] at hrest
  have hids := (List.cons.inj (List.append_cancel_left hrest)).1
  exact h (generateLayerId_inj hids).symm

/-- In every run whose calls leave the layers of the earlier ones alone,
every layer stays as it was right after its image was created. -/
theorem layers_kept {calls : List CreateCall} {p : Process} (h : calls.Pairwise LeavesAlone) :
    (transitions createStep calls p).Pairwise LayersKept := by
  refine pairwise_transitions (fun t s => t.result = 0 →
    ∀ id, Recorded t id → ∀ r, s.fs.node (layerDir id ++ r) = t.after.fs.node (layerDir id ++ r))
    (fun _ _ _ _ _ _ => rfl) ?_ h
  intro c s d s' hkept halone hzero id hid r
  have hgenerated := (recorded_iff hzero id).mp hid
  have hrest := hkept hzero id hid r
  rw [hgenerated] at hrest ⊢
  have hcall : createStep d s' = ((createStep d s').1, (createStep d s').2) := rfl
  obtain ⟨-, hframe⟩ := createImage_frame halone.shell halone.context hcall { id := [] }
  refine (hframe _ (layerDir_apart halone.fresh r) fun he => halone.metadata ?_).trans hrest
  exact ⟨r, he⟩

def webCall : CreateCall :=
  callFor "web" (grantedCreate 1705230833 1705230833 1705230833 1705230833 1705230833)

/-- Another image in the same second, finished in the next. -/
def dbCall : CreateCall :=
  callFor "db" (grantedCreate 1705230833 1705230833 1705230833 1705230833 1705230834)

/-- Another image, one second later. -/
def laterCall : CreateCall :=
  callFor "db" (grantedCreate 1705230834 1705230834 1705230834 1705230834 1705230834)

theorem laterCall_leavesAlone : LeavesAlone webCall laterCall where
  shell := utilities_copies
  context := trivial
  fresh := by decide
  metadata := by decide

theorem webCall_layer_kept :
    (transitions createStep [webCall, laterCall] storeProcess).Pairwise LayersKept :=
  layers_kept (List.pairwise_cons.mpr
    ⟨fun _ hd => List.mem_singleton.mp hd ▸ laterCall_leavesAlone, List.pairwise_singleton _ _⟩)

/-- What the second image's creation printed stands in the first image's
layer. -/
theorem same_second_overwrites : (clockReadings [webCall, dbCall]).Pairwise (· ≤ ·) ∧
    ¬ (transitions createStep [webCall, dbCall] storeProcess).Pairwise LayersKept := by
  have hweb : (createStep webCall storeProcess).1 = 0 := by decide
  have hdb : (createStep dbCall (createStep webCall storeProcess).2).1 = 0 := by decide
  have hwebKey : KeyText webCall.name webCall.tag := ⟨by decide, by decide, by decide⟩
  have hdbKey : KeyText dbCall.name dbCall.tag := ⟨by decide, by decide, by decide⟩
  refine ⟨by decide, fun h => ?_⟩
  have hkept := (List.pairwise_cons.mp h).1 _ (List.mem_singleton.mpr rfl) hweb _
    ((recorded_iff hweb _).mpr rfl) [generateLayerId 1705230833 ++ ".json".toList]
  have hwebPlain : PlainContext webCall.context := trivial
  have hdbPlain : PlainContext dbCall.context := trivial
  have hwebCall : createStep webCall storeProcess = (_, _) := rfl
  have hdbCall : createStep dbCall (createStep webCall storeProcess).2 = (_, _) := rfl
  obtain ⟨-, -, hfirst⟩ := createImage_effect utilities_copies hwebPlain hwebKey hwebCall
  obtain ⟨-, -, hsecond⟩ := createImage_effect utilities_copies hdbPlain hdbKey hdbCall
  obtain ⟨-, -, hfirst⟩ := hfirst hweb
  obtain ⟨-, -, hsecond⟩ := hsecond hdb
  have htexts := hsecond.symm.trans (hkept.trans hfirst)
  revert htexts
  decide

end DockerClone.Image
