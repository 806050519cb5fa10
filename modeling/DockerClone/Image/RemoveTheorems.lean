/-
DockerClone.Image.RemoveTheorems — what `remove_image` undoes.

An image's metadata are kept under its full name, its layer under an id
made from the clock. `remove_image` is given one string and takes it for
both: given the full name it removes the metadata and a layer directory
of that name, which no image was built in. The layer the metadata record
stays where it is (`removal_undoes_iff`).

The second half is a command line, and the name stands in it unquoted.
Of a name with a blank `rm` makes two operands (`OperandsReach` has the
trees they name); for a name with a meaning to the shell the line is no
`rm` of anything, and what is left depends on what the shell did
(`ShellReaches`).
-/
import DockerClone.Image.KeyTheorems

namespace DockerClone.Image

open DockerClone.CLib DockerClone.Os DockerClone.Os.FileSystem DockerClone.Metadata

/-! ## 1. Other images -/

/-- A metadata file that is not the file of this key, and its text. -/
structure OtherImage (fs : FileSystem) (name : List Char) (tag : Option (List Char)) (file : Name)
    (text : List Char) : Prop where
  stored : fs.node (metadataDir ++ [file]) = some (.file text)
  json : ".json".toList <:+ file
  other : metadataDir ++ [file] ≠ imageFile name tag

/-- Another image records this layer. -/
def RecordedElsewhere (fs : FileSystem) (name : List Char) (tag : Option (List Char))
    (id : List Char) : Prop :=
  ∃ file text, OtherImage fs name tag file text ∧ id ∈ recordedLayers text

/-- What the removal of an image is to do, from the state it finds. -/
structure Undone (name : List Char) (tag : Option (List Char)) (p p' : Process) (r : Int) : Prop where
  result : r = 0
  gone : imageExists name tag p' = false
  layers : ∀ text, p.fs.node (imageFile name tag) = some (.file text) →
    ∀ id ∈ recordedLayers text, ¬ RecordedElsewhere p.fs name tag id →
      p'.fs.node (layerDir id) = none
  others : ∀ file text, OtherImage p.fs name tag file text →
    p'.fs.node (metadataDir ++ [file]) = some (.file text) ∧
      ∀ id ∈ recordedLayers text, ∀ r, p'.fs.node (layerDir id ++ r) = p.fs.node (layerDir id ++ r)

/-! ## 2. One removal -/

section Removal

variable {name : List Char} {tag : Option (List Char)} {sh : Shell} {p : Process} {denied : Bool}

/-- The full name is no layer id. -/
theorem fullName_ne_layerId (h : KeyInput name tag) (now : Int64) :
    getImageFullName name tag ≠ generateLayerId now := by
  intro he
  have hcolon : ':' ∈ generateLayerId now := by
    rw [← he, fullName_uncut h]
    simp
  exact not_mem_generateLayerId (by decide) now hcolon

theorem ordinary_fullName (h : KeyInput name tag) (hslash : '/' ∉ tag.getD []) :
    Ordinary (getImageFullName name tag) := by
  have hcolon : ':' ∈ getImageFullName name tag := by
    rw [fullName_uncut h]
    simp
  have hparts : SlashFree name tag := ⟨h.name_slash, hslash⟩
  have hfree := (ordinary_imageJson hparts).2.2.2
  refine ⟨?_, ?_, ?_, fun hm => hfree (List.mem_append_left _ hm)⟩
  · intro he; rw [he] at hcolon; simp at hcolon
  · intro he; rw [he] at hcolon; simp at hcolon
  · intro he; rw [he] at hcolon; simp at hcolon

theorem layerDir_ne_nil (id : List Char) : layerDir id ≠ [] := by simp [layerDir]

/-- The command line of a removal by full name. -/
def removeCommand (name : List Char) (tag : Option (List Char)) : List Char :=
  "rm -rf ".toList ++ absPath (layerDir (getImageFullName name tag))

theorem removeCommand_eq (name : List Char) (tag : Option (List Char)) :
    snprintf 1024 ("rm -rf ".toList ++ layerPath (getImageFullName name tag))
      = removeCommand name tag := by
  have hlen := length_getImageFullName name tag
  have hrm : "rm -rf ".toList.length = 7 := by decide
  have hshort : (removeCommand name tag).length < 1024 := by
    show ("rm -rf ".toList ++ absPath (layerDir (getImageFullName name tag))).length < 1024
    rw [List.length_append, layerDir, absPath_concat, List.length_append, List.length_cons,
      length_layersDir, hrm]
    omega
  rw [layerPath_eq (by omega)]
  exact snprintf_of_lt hshort

/-- What the command line is run on: the metadata file is gone. -/
def unlinked (name : List Char) (tag : Option (List Char)) (p : Process) : FileSystem :=
  match p.fs.unlink p.cwd (metadataPath (getImageFullName name tag)) false with
  | .ok fs => fs
  | .error _ => p.fs

/-- Unlinking the metadata file of an image that is there. -/
theorem unlink_imageFile (h : KeyInput name tag) (hslash : '/' ∉ tag.getD []) {text : List Char}
    (hfile : p.fs.node (imageFile name tag) = some (.file text)) :
    p.fs.unlink p.cwd (metadataPath (getImageFullName name tag)) false = .ok (unlinked name tag p) ∧
      ∀ q, (unlinked name tag p).node q = if q = imageFile name tag then none else p.fs.node q := by
  have hfree : SlashFree name tag := ⟨h.name_slash, hslash⟩
  have hord := ordinary_imageJson hfree
  have hpath : metadataPath (getImageFullName name tag) = absPath (imageFile name tag) :=
    metadataPath_getImageFullName name tag
  have hresolve : p.fs.resolve p.cwd (absPath (imageFile name tag)) = .ok (imageFile name tag) :=
    resolve_absPath_of_node ordinary_metadataDir hord (by
      show p.fs.node (imageFile name tag) ≠ none
      rw [hfile]
      simp)
  obtain ⟨fs, hun⟩ : ∃ fs, p.fs.unlink p.cwd (metadataPath (getImageFullName name tag)) false
      = .ok fs := by
    rw [hpath]
    exact unlink_ok_iff.mpr ⟨rfl, _, _, hresolve, hfile⟩
  have hfs : unlinked name tag p = fs := by rw [unlinked, hun]
  rw [hfs]
  refine ⟨hun, ?_⟩
  obtain ⟨f, c, hf, -, hnode⟩ := unlink_ok hun
  rw [hpath, hresolve] at hf
  rw [Except.ok.inj hf]
  exact hnode

/-- A removal by full name of an image that is there: unless the unlink
is denied, the metadata file goes, and the rest is what the command line
does. -/
theorem removeImage_cases (denied : Bool) (sh : Shell) (h : KeyInput name tag)
    (hslash : '/' ∉ tag.getD []) {text : List Char}
    (hfile : p.fs.node (imageFile name tag) = some (.file text)) :
    denied = true ∧ (removeImage (getImageFullName name tag) denied sh p).1 = -1 ∨
    denied = false ∧
      ((removeImage (getImageFullName name tag) denied sh p).1 = 0 ↔
        (sh.system p.cwd (unlinked name tag p) (removeCommand name tag)).1 = 0) ∧
      (removeImage (getImageFullName name tag) denied sh p).2.fs
        = (sh.system p.cwd (unlinked name tag p) (removeCommand name tag)).2 := by
  cases denied with
  | true =>
    refine Or.inl ⟨rfl, ?_⟩
    rw [removeImage]
    cases hun : p.fs.unlink p.cwd (metadataPath (getImageFullName name tag)) true with
    | error e => rfl
    | ok fs => simp [unlink] at hun
  | false =>
    refine Or.inr ⟨rfl, ?_⟩
    rw [removeImage, (unlink_imageFile h hslash hfile).1]
    simp only [removeCommand_eq, Process.system]
    split
    · rename_i hfailed
      exact ⟨iff_of_false (by simp) hfailed, rfl⟩
    · rename_i hzero
      exact ⟨iff_of_true rfl (not_not.mp hzero), rfl⟩

end Removal

/-! ## 3. Creating and removing -/

/-- What the shell is to leave of the tables `fs`, after a creation from
the state `p`: no metadata file; no recorded layer, unless another image
records it too; the metadata and layers of every other image. -/
structure ShellReaches (name : List Char) (tag : Option (List Char)) (env : CreateEnv)
    (p : Process) (fs : FileSystem) (done : Int × FileSystem) : Prop where
  status : done.1 = 0
  gone : done.2.node (imageFile name tag) = none
  recorded : RecordedElsewhere p.fs name tag (generateLayerId env.layerAt) ∨
    done.2.node (layerDir (generateLayerId env.layerAt)) = none
  others : ∀ file text, OtherImage p.fs name tag file text →
    done.2.node (metadataDir ++ [file]) = some (.file text) ∧
      ∀ id ∈ recordedLayers text, ∀ r, done.2.node (layerDir id ++ r) = fs.node (layerDir id ++ r)

/-- What the operands of a line that is `rm -rf` are to be, in the tables
`fs`: `rm` takes them and can remove their trees; the layer that is
recorded lies in one of them, or does not exist, or another image records
it too; and nothing of another image lies in one of them. -/
structure OperandsReach (name : List Char) (tag : Option (List Char)) (env : CreateEnv)
    (p : Process) (fs : FileSystem) (stuck : List Path) (cwd : Path) (raws : List (List Char)) :
    Prop where
  taken : fs.TakesOperands stuck cwd raws
  removable : ∀ t ∈ fs.operandTrees stuck cwd raws, fs.removable stuck t = true
  recorded : RecordedElsewhere p.fs name tag (generateLayerId env.layerAt) ∨
    (∃ t ∈ fs.operandTrees stuck cwd raws, t <+: layerDir (generateLayerId env.layerAt)) ∨
    env.layerAt ≠ env.layer.idAt ∧ p.fs.node (layerDir (generateLayerId env.layerAt)) = none
  others : ∀ file text, OtherImage p.fs name tag file text →
    ∀ t ∈ fs.operandTrees stuck cwd raws, ¬ t <+: metadataDir ++ [file] ∧
      ∀ id ∈ recordedLayers text, ∀ r, t <+: layerDir id ++ r → fs.node (layerDir id ++ r) = none

/-- When a removal by full name undoes a creation: it is not kept from
unlinking, there is a shell, and the command line reaches what it is to
reach. `p` is the state before the creation, `p'` the one the removal
finds. -/
structure RemovalReaches (name : List Char) (tag : Option (List Char)) (env : CreateEnv)
    (denied : Bool) (sh : Shell) (p p' : Process) : Prop where
  granted : denied = false
  available : sh.available = true
  operands : ∀ raws, parseRm (removeCommand name tag) = some raws →
    OperandsReach name tag env p (unlinked name tag p') sh.stuck p'.cwd raws
  other : parseRm (removeCommand name tag) = none →
    ShellReaches name tag env p (unlinked name tag p')
      (sh.other (removeCommand name tag) (unlinked name tag p'))

section Undo

variable {name : List Char} {tag context : Option (List Char)} {env : CreateEnv}
  {sh rmShell : Shell} {p p' : Process} {denied : Bool}

/-- Different layers are apart. -/
theorem layerDir_not_below {id id' : List Char} (h : id ≠ id') (r : Path) :
    ¬ layerDir id <+: layerDir id' ++ r := by
  rintro ⟨rest, hrest⟩
  rw [layerDir, layerDir, List.append_assoc, List.append_assoc] at hrest
  exact h (List.cons.inj (List.append_cancel_left hrest)).1

theorem layerDir_ne_imageFile (id : List Char) (r : Path) : layerDir id ++ r ≠ imageFile name tag :=
  fun he => metadata_outside _ id (he ▸ List.prefix_append (layerDir id) r)

/-- A creation does not touch the metadata of other images. -/
theorem otherImage_created (hframe : ∀ q, ¬ layerDir (generateLayerId env.layer.idAt) <+: q →
      q ≠ imageFile name tag → p'.fs.node q = p.fs.node q) (file : Name) (text : List Char) :
    OtherImage p'.fs name tag file text ↔ OtherImage p.fs name tag file text := by
  constructor
  · intro h
    refine ⟨?_, h.json, h.other⟩
    rw [← hframe _ (metadata_outside file _) h.other]
    exact h.stored
  · intro h
    refine ⟨?_, h.json, h.other⟩
    rw [hframe _ (metadata_outside file _) h.other]
    exact h.stored

theorem recordedElsewhere_created (hframe : ∀ q, ¬ layerDir (generateLayerId env.layer.idAt) <+: q →
      q ≠ imageFile name tag → p'.fs.node q = p.fs.node q) (id : List Char) :
    RecordedElsewhere p'.fs name tag id ↔ RecordedElsewhere p.fs name tag id := by
  unfold RecordedElsewhere
  simp only [otherImage_created hframe]

/-- What a creation that returned zero left, where the removal looks. -/
structure CreatedFrom (name : List Char) (tag : Option (List Char)) (env : CreateEnv)
    (p p' : Process) : Prop where
  frame : ∀ q, ¬ layerDir (generateLayerId env.layer.idAt) <+: q →
    q ≠ imageFile name tag → p'.fs.node q = p.fs.node q
  stored : ∃ layer, p'.fs.node (imageFile name tag)
    = some (.file (imageText (newImage name tag env layer)))
  filled : p'.fs.node (layerDir (generateLayerId env.layer.idAt)) = some .dir

theorem createdFrom (h : KeyInput name tag) (hslash : '/' ∉ tag.getD []) (hsh : sh.Copies)
    (hcontext : PlainContext context)
    (hcreate : createImage name tag context env sh p = (0, p')) :
    CreatedFrom name tag env p p' := by
  have hkey : KeyText name tag := ⟨h.name_nul, h.tag_nul, h.name_slash, hslash⟩
  obtain ⟨-, hframe, hstored⟩ := createImage_effect hsh hcontext hkey hcreate
  obtain ⟨layer, hfile, hlayer⟩ := hstored rfl
  rw [writtenFile_eq h] at hframe hfile
  refine ⟨hframe, ⟨layer, hfile⟩, p'.fs.node_parent (by rw [layerFile] at hlayer; rw [hlayer]; simp)⟩

/-- The layer the new metadata record is there exactly when it is the one
that was made, or was there before. -/
theorem CreatedFrom.recorded (h : CreatedFrom name tag env p p') :
    p'.fs.node (layerDir (generateLayerId env.layerAt)) = none ↔
      env.layerAt ≠ env.layer.idAt ∧
        p.fs.node (layerDir (generateLayerId env.layerAt)) = none := by
  by_cases hsame : env.layerAt = env.layer.idAt
  · rw [hsame, h.filled]
    simp
  · have hframe := h.frame (layerDir (generateLayerId env.layerAt) ++ [])
      (layerDir_apart hsame []) (layerDir_ne_imageFile _ [])
    rw [List.append_nil] at hframe
    rw [hframe]
    exact (and_iff_right hsame).symm

/-- Removing undoes creating exactly when the shell leaves what it is to
leave. -/
theorem undone_iff_shell (h : KeyInput name tag) (hslash : '/' ∉ tag.getD [])
    (hmade : CreatedFrom name tag env p p') :
    Undone name tag p' (removeImage (getImageFullName name tag) denied rmShell p').2
        (removeImage (getImageFullName name tag) denied rmShell p').1 ↔
      denied = false ∧ ShellReaches name tag env p (unlinked name tag p')
        (rmShell.system p'.cwd (unlinked name tag p') (removeCommand name tag)) := by
  obtain ⟨layer, hfile⟩ := hmade.stored
  obtain ⟨-, hnode⟩ := unlink_imageFile h hslash hfile
  have hlayers : ∀ id r, (unlinked name tag p').node (layerDir id ++ r)
      = p'.fs.node (layerDir id ++ r) := fun id r => by
    rw [hnode, if_neg (layerDir_ne_imageFile id r)]
  rcases removeImage_cases denied rmShell h hslash hfile with
    ⟨hdenied, hresult⟩ | ⟨hdenied, hresult, hfs⟩
  · refine iff_of_false (fun hundone => ?_) (fun hreaches => ?_)
    · have hzero := hundone.result
      rw [hresult] at hzero
      exact absurd hzero (by decide)
    · rw [hdenied] at hreaches
      exact absurd hreaches.1 (by decide)
  · have hgone : imageExists name tag (removeImage (getImageFullName name tag) denied rmShell p').2
        = false ↔ (rmShell.system p'.cwd (unlinked name tag p') (removeCommand name tag)).2.node
          (imageFile name tag) = none := by
      rw [← hfs, ← Bool.not_eq_true, imageExists_iff ⟨h.name_slash, hslash⟩, not_not]
    constructor
    · intro hundone
      refine ⟨hdenied, hresult.mp hundone.result, hgone.mp hundone.gone, ?_,
        fun file text hother => ?_⟩
      · by_cases helse : RecordedElsewhere p.fs name tag (generateLayerId env.layerAt)
        · exact Or.inl helse
        · right
          rw [← hfs]
          refine hundone.layers _ hfile _ ?_ fun he =>
            helse ((recordedElsewhere_created hmade.frame _).mp he)
          rw [recordedLayers_newImage]
          simp
      · obtain ⟨hkept, hsame⟩ := hundone.others file text
          ((otherImage_created hmade.frame file text).mpr hother)
        rw [hfs] at hkept hsame
        refine ⟨hkept, fun id hid r => ?_⟩
        rw [hsame id hid r, hlayers]
    · rintro ⟨-, hreaches⟩
      refine ⟨hresult.mpr hreaches.status, hgone.mpr hreaches.gone,
        fun text htext id hid helse => ?_, fun file text hother => ?_⟩
      · obtain rfl := Node.file.inj (Option.some.inj (hfile.symm.trans htext))
        rw [recordedLayers_newImage, List.mem_singleton] at hid
        subst hid
        rw [hfs]
        rcases hreaches.recorded with hrec | hnone
        · exact absurd ((recordedElsewhere_created hmade.frame _).mpr hrec) helse
        · exact hnone
      · obtain ⟨hkept, hsame⟩ := hreaches.others file text
          ((otherImage_created hmade.frame file text).mp hother)
        rw [hfs]
        refine ⟨hkept, fun id hid r => ?_⟩
        rw [hsame id hid r, hlayers]

/-- What `rm` leaves of the trees its operands name. -/
theorem shellReaches_operands (h : KeyInput name tag) (hslash : '/' ∉ tag.getD [])
    (hmade : CreatedFrom name tag env p p') (stuck : List Path) (cwd : Path)
    (raws : List (List Char)) {done : Bool × FileSystem}
    (hdone : (unlinked name tag p').rmOperands stuck cwd raws = done) :
    ShellReaches name tag env p (unlinked name tag p') (if done.1 then 0 else 256, done.2) ↔
      OperandsReach name tag env p (unlinked name tag p') stuck cwd raws := by
  obtain ⟨layer, hfile⟩ := hmade.stored
  obtain ⟨-, hunlinked⟩ := unlink_imageFile h hslash hfile
  have hstatus := rmOperands_fst_iff stuck cwd raws (unlinked name tag p')
  have hnode : done.1 = true → ∀ q, done.2.node q
      = if ∃ t ∈ (unlinked name tag p').operandTrees stuck cwd raws, t <+: q then none
        else (unlinked name tag p').node q := by
    rw [← hdone]
    exact fun hclean => node_rmOperands hclean
  rw [hdone] at hstatus
  have hlayers : (unlinked name tag p').node (layerDir (generateLayerId env.layerAt))
      = p'.fs.node (layerDir (generateLayerId env.layerAt)) := by
    rw [hunlinked, if_neg]
    rw [← List.append_nil (layerDir _)]
    exact layerDir_ne_imageFile _ []
  constructor
  · rintro ⟨hzero, -, hrecorded, hothers⟩
    have hclean : done.1 = true := by
      by_contra hno
      simp [hno] at hzero
    obtain ⟨htaken, hremovable⟩ := hstatus.mp hclean
    refine ⟨htaken, hremovable, ?_, fun file text hother t ht => ⟨fun hbelow => ?_,
      fun id hid r hbelow => ?_⟩⟩
    · refine hrecorded.imp_right fun hnone => ?_
      rw [hnode hclean] at hnone
      split at hnone
      · rename_i hin
        exact Or.inl hin
      · rw [hlayers, hmade.recorded] at hnone
        exact Or.inr hnone
    · have hkept := (hothers file text hother).1
      rw [hnode hclean, if_pos ⟨t, ht, hbelow⟩] at hkept
      simp at hkept
    · have hsame := (hothers file text hother).2 id hid r
      rw [hnode hclean, if_pos ⟨t, ht, hbelow⟩] at hsame
      exact hsame.symm
  · rintro ⟨htaken, hremovable, hrecorded, hothers⟩
    have hclean := hstatus.mpr ⟨htaken, hremovable⟩
    refine ⟨if_pos hclean, ?_, ?_, fun file text hother => ⟨?_, fun id hid r => ?_⟩⟩
    · rw [hnode hclean, hunlinked, if_pos rfl, ite_self]
    · refine hrecorded.imp_right fun hcase => ?_
      rw [hnode hclean]
      rcases hcase with hin | hnone
      · rw [if_pos hin]
      · rw [hlayers, hmade.recorded.mpr hnone, ite_self]
    · have hout : ¬ ∃ t ∈ (unlinked name tag p').operandTrees stuck cwd raws,
          t <+: metadataDir ++ [file] :=
        fun ⟨t, ht, hbelow⟩ => (hothers file text hother t ht).1 hbelow
      rw [hnode hclean, if_neg hout, hunlinked, if_neg hother.other]
      exact ((otherImage_created hmade.frame file text).mpr hother).stored
    · rw [hnode hclean]
      split
      · rename_i hin
        obtain ⟨t, ht, hbelow⟩ := hin
        exact ((hothers file text hother t ht).2 id hid r hbelow).symm
      · rfl

/-- A full name the shell passes on as it stands is one operand, and
`rm` takes it. -/
theorem operandsReach_literal (h : KeyInput name tag) (hslash : '/' ∉ tag.getD [])
    {fs : FileSystem} (hlayers : fs.node layersDir = some .dir) (stuck : List Path) (cwd : Path) :
    OperandsReach name tag env p fs stuck cwd [absPath (layerDir (getImageFullName name tag))] ↔
      fs.removable stuck (layerDir (getImageFullName name tag)) = true ∧
      (RecordedElsewhere p.fs name tag (generateLayerId env.layerAt) ∨
        env.layerAt ≠ env.layer.idAt ∧
          p.fs.node (layerDir (generateLayerId env.layerAt)) = none) ∧
      (RecordedElsewhere p.fs name tag (getImageFullName name tag) →
        fs.node (layerDir (getImageFullName name tag)) = none) := by
  have hord := ordinary_fullName h hslash
  have hne := fullName_ne_layerId h
  have htrees : fs.operandTrees stuck cwd [absPath (layerDir (getImageFullName name tag))]
      = [layerDir (getImageFullName name tag)] := by
    have hresolve : fs.resolve cwd (absPath (layerDir (getImageFullName name tag)))
        = .ok (layerDir (getImageFullName name tag)) :=
      resolve_absPath ordinary_layersDir hord hlayers
    rw [operandTrees, operandTrees, hresolve]
    rfl
  have hlast : lastComponent (absPath (layerDir (getImageFullName name tag)))
      = getImageFullName name tag := lastComponent_absPath ordinary_layersDir hord
  have htaken : fs.TakesOperands stuck cwd [absPath (layerDir (getImageFullName name tag))] := by
    refine ⟨fun raw hraw => ?_, ?_⟩
    · rw [List.mem_singleton.mp hraw, hlast]
      exact ⟨hord.2.1, hord.2.2.1⟩
    · rw [htrees, List.mem_singleton]
      exact fun he => layerDir_ne_nil _ he.symm
  constructor
  · rintro ⟨-, hremovable, hrecorded, hothers⟩
    rw [htrees] at hremovable hrecorded hothers
    refine ⟨hremovable _ (List.mem_singleton_self _), ?_, ?_⟩
    · rcases hrecorded with helse | ⟨t, ht, hbelow⟩ | hnone
      · exact Or.inl helse
      · rw [List.mem_singleton.mp ht, ← List.append_nil (layerDir (generateLayerId _))] at hbelow
        exact absurd hbelow (layerDir_not_below (hne _) [])
      · exact Or.inr hnone
    · rintro ⟨file, text, hother, hid⟩
      have hnone := (hothers file text hother _ (List.mem_singleton_self _)).2 _ hid []
        (List.prefix_append _ [])
      rw [List.append_nil] at hnone
      exact hnone
  · rintro ⟨hremovable, hrecorded, hothers⟩
    refine ⟨htaken, ?_, hrecorded.imp_right Or.inr, ?_⟩
    · rw [htrees]
      exact List.forall_mem_singleton.mpr hremovable
    · rw [htrees]
      refine fun file text hother => List.forall_mem_singleton.mpr ⟨metadata_outside file _,
        fun id hid r hbelow => ?_⟩
      by_cases hown : getImageFullName name tag = id
      · rw [← hown]
        exact fs.node_below_missing (hothers ⟨file, text, hother, hown ▸ hid⟩) r
      · exact absurd hbelow (layerDir_not_below hown r)

/-- In a store whose metadata directory holds no directory, and for tags
without a slash in any store: removing by the full name undoes creating
exactly when `RemovalReaches`. -/
theorem removal_undoes_iff (h : KeyInput name tag)
    (hstore : Flat p.fs ∨ '/' ∉ tag.getD []) (hsh : sh.Copies)
    (hcontext : PlainContext context)
    (hcreate : createImage name tag context env sh p = (0, p')) :
    Undone name tag p' (removeImage (getImageFullName name tag) denied rmShell p').2
        (removeImage (getImageFullName name tag) denied rmShell p').1 ↔
      RemovalReaches name tag env denied rmShell p p' := by
  have hslash : '/' ∉ tag.getD [] := by
    rcases hstore with hflat | hfree
    · exact no_slash_created h hsh hcontext hflat hcreate
    · exact hfree
  have hmade := createdFrom h hslash hsh hcontext hcreate
  rw [undone_iff_shell h hslash hmade]
  constructor
  · rintro ⟨hgranted, hreaches⟩
    have havailable : rmShell.available = true := by
      by_contra hno
      have hstatus := hreaches.status
      simp [Shell.system, hno] at hstatus
    rw [Shell.system, if_pos havailable] at hreaches
    refine ⟨hgranted, havailable, fun raws hraws => ?_, fun hother => ?_⟩
    · rw [hraws] at hreaches
      exact (shellReaches_operands h hslash hmade _ _ raws rfl).mp hreaches
    · rw [hother] at hreaches
      exact hreaches
  · rintro ⟨hgranted, havailable, hoperands, hother⟩
    rw [Shell.system, if_pos havailable]
    refine ⟨hgranted, ?_⟩
    cases hcommand : parseRm (removeCommand name tag) with
    | some raws =>
      exact (shellReaches_operands h hslash hmade _ _ raws rfl).mpr (hoperands raws hcommand)
    | none => exact hother hcommand

end Undo

/-! ## 4. The layer that stays -/

theorem parseRm_web : parseRm (removeCommand "web".toList none)
    = some [absPath (layerDir (getImageFullName "web".toList none))] := by
  have hplain : PlainWord (absPath (layerDir (getImageFullName "web".toList none))) := by decide
  exact parseRm_literal hplain.literal hplain.2.1

theorem keyInput_web : KeyInput "web".toList none :=
  ⟨by decide, by decide, by decide, by decide, by decide⟩

/-- `web:latest`, created without a context while the clock ticked: the
layer it records was never made. -/
def tickedWeb : Process :=
  (createImage "web".toList none none tickingCall.env utilities storeProcess).2

/-- It is removed as it was created. -/
theorem ticked_web_undone :
    Undone "web".toList none tickedWeb
      (removeImage (getImageFullName "web".toList none) false utilities tickedWeb).2
      (removeImage (getImageFullName "web".toList none) false utilities tickedWeb).1 := by
  have hplain : PlainContext none := trivial
  have hcreate : createImage "web".toList none none tickingCall.env utilities storeProcess
      = (0, tickedWeb) := Prod.ext (by decide) rfl
  refine (removal_undoes_iff keyInput_web (Or.inl flat_imageStore) utilities_copies hplain
    hcreate).mpr ⟨rfl, rfl, fun raws hraws => ?_, fun hnone => ?_⟩
  · obtain rfl := Option.some.inj (parseRm_web.symm.trans hraws)
    have hlayers : (unlinked "web".toList none tickedWeb).node layersDir = some .dir := by decide
    refine (operandsReach_literal keyInput_web (by decide) hlayers _ _).mpr
      ⟨by decide, Or.inr ⟨by decide, by decide⟩, fun _ => by decide⟩
  · rw [parseRm_web] at hnone
    simp at hnone

/-- `web:latest`, created without a context. -/
def createdWeb : Process :=
  (createImage "web".toList none none sameSecond utilities storeProcess).2

/-- Its layer is still there after the removal. -/
theorem web_layer_stays :
    (createImage "web".toList none none sameSecond utilities storeProcess).1 = 0 ∧
    ¬ Undone "web".toList none createdWeb
        (removeImage (getImageFullName "web".toList none) false utilities createdWeb).2
        (removeImage (getImageFullName "web".toList none) false utilities createdWeb).1 := by
  have hzero : (createImage "web".toList none none sameSecond utilities storeProcess).1 = 0 := by
    decide
  refine ⟨hzero, fun h => ?_⟩
  have hkey : KeyText "web".toList none := ⟨by decide, by decide, by decide⟩
  have hplain : PlainContext none := trivial
  have hcreate : createImage "web".toList none none sameSecond utilities storeProcess
      = (0, createdWeb) := Prod.ext hzero rfl
  obtain ⟨-, hframe, hstored⟩ := createImage_effect utilities_copies hplain hkey hcreate
  obtain ⟨layer, hfile, -⟩ := hstored rfl
  rw [writtenFile_eq keyInput_web] at hframe hfile
  have halone : ¬ RecordedElsewhere createdWeb.fs "web".toList none
      (generateLayerId sameSecond.layerAt) := by
    rw [recordedElsewhere_created hframe]
    rintro ⟨file, text, hother, -⟩
    have hempty := (isEmptyDir_iff imageStore metadataDir).mp (by decide) file
    exact absurd (hother.stored.symm.trans hempty) (by simp)
  have hgone := h.layers _ hfile _ (by rw [recordedLayers_newImage]; simp) halone
  revert hgone
  decide

end DockerClone.Image
