/-
DockerClone.Image.KeyTheorems — which images a name and a tag can be
taken for.

The key of an image is its name, a colon and its tag, and neither part is
kept from holding a colon. Two keys are one text exactly when the parts
are equal or one name is the other name, a colon and the front of the
other tag (`eq_of_colon`). An image created under such a key answers for
the other one as well and overwrites it; apart from that a key identifies
its image (`key_identifies_iff`).

A slash in a tag would make the file name a path through a subdirectory
of the metadata directory. Nothing in the program makes one, and without
one such an image can neither be created nor be found.
-/
import DockerClone.Image.RunTheorems

namespace DockerClone.Image

open DockerClone.CLib DockerClone.Os DockerClone.Os.FileSystem DockerClone.Metadata

/-! ## 1. Keys as texts -/

/-- A name and a tag that fit their arrays, the name without a slash. -/
structure KeyInput (name : List Char) (tag : Option (List Char)) : Prop where
  name_nul : NulFree name
  tag_nul : NulFree (tag.getD [])
  name_slash : '/' ∉ name
  name_short : name.length ≤ 255
  tag_short : (tag.getD []).length ≤ 63

/-- The same name and the same tag, an empty or absent one standing for
`latest`. -/
def SameKey (name : List Char) (tag : Option (List Char)) (other : List Char)
    (otherTag : Option (List Char)) : Prop :=
  name = other ∧ tagText (tag.getD []) = tagText (otherTag.getD [])

/-- One of the names is the other one, a colon and the front of the
other's tag. -/
def Confusable (name tag other otherTag : List Char) : Prop :=
  (∃ w, name = other ++ ':' :: w ∧ otherTag = w ++ ':' :: tag) ∨
    ∃ w, other = name ++ ':' :: w ∧ tag = w ++ ':' :: otherTag

theorem eq_of_colon {name tag other otherTag : List Char} :
    name ++ ':' :: tag = other ++ ':' :: otherTag ↔
      (name = other ∧ tag = otherTag) ∨ Confusable name tag other otherTag := by
  constructor
  · intro h
    rcases List.append_eq_append_iff.mp h with ⟨w, hother, htag⟩ | ⟨w, hname, htag⟩
    · cases w with
      | nil => exact Or.inl ⟨by simpa using hother.symm, (List.cons.inj htag).2⟩
      | cons c w =>
        obtain ⟨rfl, hrest⟩ := List.cons.inj htag
        exact Or.inr (Or.inr ⟨w, hother, hrest⟩)
    · cases w with
      | nil => exact Or.inl ⟨by simpa using hname, (List.cons.inj htag).2.symm⟩
      | cons c w =>
        obtain ⟨rfl, hrest⟩ := List.cons.inj htag
        exact Or.inr (Or.inl ⟨w, hname, hrest⟩)
  · rintro (⟨rfl, rfl⟩ | ⟨w, rfl, rfl⟩ | ⟨w, rfl, rfl⟩)
    · rfl
    · simp
    · simp

/-- Confusable keys are different keys. -/
theorem Confusable.ne {name tag other otherTag : List Char}
    (h : Confusable name tag other otherTag) : name ≠ other := by
  rintro rfl
  rcases h with ⟨w, hname, -⟩ | ⟨w, hname, -⟩
  · have hlen := congrArg List.length hname
    simp at hlen
  · have hlen := congrArg List.length hname
    simp at hlen

section Text

variable {name other : List Char} {tag otherTag : Option (List Char)}

theorem length_tagText (h : KeyInput name tag) : (tagText (tag.getD [])).length ≤ 63 := by
  rw [tagText]
  split
  · exact h.tag_short
  · decide

/-- The full name of such a key is not cut. -/
theorem fullName_uncut (h : KeyInput name tag) :
    getImageFullName name tag = name ++ ':' :: tagText (tag.getD []) := by
  have hname := h.name_short
  have htag := length_tagText h
  rw [getImageFullName_eq, snprintf_of_lt]
  simp only [List.length_append, List.length_cons, MAX_IMAGE_NAME_LEN, MAX_IMAGE_TAG_LEN]
  omega

/-- What `create_image` writes is what `image_exists` looks for. -/
theorem writtenFile_eq (h : KeyInput name tag) : writtenFile name tag = imageFile name tag := by
  have hshort : name.length ≤ MAX_IMAGE_NAME_LEN - 1 := h.name_short
  have htag : tagText ((tag.getD "latest".toList).take (MAX_IMAGE_TAG_LEN - 1))
      = tagText (tag.getD []) := by
    cases tag with
    | none => decide
    | some tag =>
      have hlen : tag.length ≤ MAX_IMAGE_TAG_LEN - 1 := h.tag_short
      rw [Option.getD_some, Option.getD_some, List.take_of_length_le hlen]
  rw [writtenFile, imageFile, imageFile, getImageFullName_eq, getImageFullName_eq,
    List.take_of_length_le hshort, Option.getD_some, htag]

/-- Two keys have one file exactly when they are the same or confusable. -/
theorem imageFile_eq_iff (h : KeyInput name tag) (h' : KeyInput other otherTag) :
    imageFile name tag = imageFile other otherTag ↔ SameKey name tag other otherTag ∨
      Confusable name (tagText (tag.getD [])) other (tagText (otherTag.getD [])) := by
  rw [SameKey, ← eq_of_colon, imageFile, imageFile, fullName_uncut h, fullName_uncut h']
  constructor
  · intro he
    exact List.append_cancel_right (List.singleton_inj.mp (List.append_cancel_left he))
  · intro he
    rw [he]

end Text

/-! ## 2. Slashes in tags -/

/-- No directory lies in the metadata directory. -/
def Flat (fs : FileSystem) : Prop := ∀ n, fs.node (metadataDir ++ [n]) ≠ some .dir

section Slash

variable {name : List Char} {tag context : Option (List Char)} {env : CreateEnv} {sh : Shell}
  {p p' : Process}

/-- With a slash in its tag the path of an image leads through an entry
of the metadata directory. -/
theorem slash_path (h : KeyInput name tag) (hslash : '/' ∈ tag.getD []) :
    ∃ front rest, Ordinary front ∧ metadataPath (getImageFullName name tag)
      = absPath metadataDir ++ '/' :: (front ++ '/' :: rest) := by
  have htext : tagText (tag.getD []) = tag.getD [] := by
    rw [tagText, if_pos (List.length_pos_of_mem hslash)]
  obtain ⟨a, b, htag, ha⟩ := List.eq_append_cons_of_mem hslash
  refine ⟨name ++ ':' :: a, b ++ ".json".toList, ⟨by simp, ?_, ?_, ?_⟩, ?_⟩
  · intro he
    have hcolon : ':' ∈ name ++ ':' :: a := by simp
    rw [he] at hcolon
    simp at hcolon
  · intro he
    have hcolon : ':' ∈ name ++ ':' :: a := by simp
    rw [he] at hcolon
    simp at hcolon
  · simp [h.name_slash, ha]
  · rw [metadataPath_getImageFullName, absPath_concat, fullName_uncut h, htext, htag]
    simp only [List.append_assoc, List.cons_append]

theorem not_exists_slash (h : KeyInput name tag) (hslash : '/' ∈ tag.getD []) (hflat : Flat p.fs) :
    imageExists name tag p = false := by
  obtain ⟨front, rest, hfront, hpath⟩ := slash_path h hslash
  obtain ⟨e, he⟩ := resolve_below_nondir p.cwd ordinary_metadataDir hfront (hflat front) rest
  rw [imageExists, hpath, access, he]

/-- Outside of layers a call that returns 0 puts nothing but files. -/
theorem flat_createLayer {p₁ : Process} (hsh : sh.Copies) (hcontext : PlainContext context)
    {r : Int} (h : createLayer none (some "FROM scratch".toList) context env.layer sh p = (r, p₁))
    (hflat : Flat p.fs) : Flat p₁.fs := by
  obtain ⟨-, hframe, -⟩ := createLayer_effect hsh hcontext h
  intro n
  rw [hframe _ (metadata_outside n _)]
  exact hflat n

/-- No image with a slash in its tag is created. -/
theorem no_slash_created (h : KeyInput name tag) (hsh : sh.Copies)
    (hcontext : PlainContext context) (hflat : Flat p.fs)
    (hcreate : createImage name tag context env sh p = (0, p')) : '/' ∉ tag.getD [] := by
  intro hslash
  rcases createImage_cases hcreate with ⟨hr, -⟩ | ⟨-, p₁, layer, fs, hlayer, -, hw, -⟩
  · simp at hr
  · have hflat₁ := flat_createLayer hsh hcontext hlayer hflat
    obtain ⟨front, rest, hfront, hpath⟩ := slash_path h hslash
    obtain ⟨e, he⟩ := resolve_below_nondir p₁.cwd ordinary_metadataDir hfront (hflat₁ front) rest
    obtain ⟨f, hf, -⟩ := openWrite_ok hw
    have hsame : imagePath (newImage name tag env layer)
        = metadataPath (getImageFullName name tag) := by
      rw [imagePath_newImage h.name_nul h.tag_nul, writtenFile_eq h,
        metadataPath_getImageFullName]
      rfl
    rw [hsame, hpath, he] at hf
    simp at hf

end Slash

/-! ## 3. What a key identifies -/

section Identify

variable {name other : List Char} {tag otherTag context : Option (List Char)} {env : CreateEnv}
  {sh : Shell} {p p' : Process}

/-- Between the two states the file of this key was opened for writing. -/
def Overwritten (name : List Char) (tag : Option (List Char)) (p p' : Process) : Prop :=
  ∃ raw text, .write raw text ∈ p.since p' ∧ normalize raw = imageFile name tag

/-- After a call for one key, another one that was free is taken exactly
when it is the same, and the file of one that was taken is not written
unless it is the same. -/
def KeyIdentifies (name : List Char) (tag : Option (List Char)) (other : List Char)
    (otherTag : Option (List Char)) (p p' : Process) : Prop :=
  (imageExists other otherTag p = false →
    (imageExists other otherTag p' = true ↔ SameKey name tag other otherTag)) ∧
  (imageExists other otherTag p = true → ¬ SameKey name tag other otherTag →
    ¬ Overwritten other otherTag p p')

/-- What a call that returns 0 does to any key: its own file is there and
was written, the others are as before. -/
theorem created_key (h : KeyInput name tag) (hslash : '/' ∉ tag.getD [])
    (h' : KeyInput other otherTag) (hslash' : '/' ∉ otherTag.getD []) (hsh : sh.Copies)
    (hcontext : PlainContext context)
    (hcreate : createImage name tag context env sh p = (0, p')) :
    (imageExists other otherTag p' = true ↔
      imageFile name tag = imageFile other otherTag ∨ imageExists other otherTag p = true) ∧
    (Overwritten other otherTag p p' ↔ imageFile name tag = imageFile other otherTag) := by
  have hkey : KeyText name tag := ⟨h.name_nul, h.tag_nul, h.name_slash, hslash⟩
  have hfree : SlashFree other otherTag := ⟨h'.name_slash, hslash'⟩
  obtain ⟨-, hframe, hstored⟩ := createImage_effect hsh hcontext hkey hcreate
  obtain ⟨layer, hfile, -⟩ := hstored rfl
  rw [writtenFile_eq h] at hframe hfile
  constructor
  · rw [imageExists_iff hfree, imageExists_iff hfree]
    by_cases hsame : imageFile name tag = imageFile other otherTag
    · rw [← hsame, hfile]
      simp
    · rw [hframe (imageFile other otherTag) (metadata_outside _ _) fun he => hsame he.symm]
      simp [hsame]
  · obtain ⟨calls, layer, hsince, hquiet⟩ := createImage_calls hcreate
    constructor
    · rintro ⟨raw, text, hmem, hplace⟩
      rw [hsince, List.mem_append] at hmem
      rcases hmem with hmem | hmem
      · exact absurd hmem (hquiet _ _)
      · rcases List.mem_cons.mp hmem with he | hmem
        · rw [(Call.write.inj he).1, normalize_layerMetadataPath] at hplace
          exact absurd hplace (layerFile_ne_metadata _ _)
        · have he := List.mem_singleton.mp hmem
          rw [(Call.write.inj he).1, normalize_imagePath hkey, writtenFile_eq h] at hplace
          exact hplace
    · intro hsame
      refine ⟨imagePath (newImage name tag env layer), imageText (newImage name tag env layer),
        by rw [hsince]; simp, ?_⟩
      rw [normalize_imagePath hkey, writtenFile_eq h, hsame]

/-- A call for a key without a slash keeps the metadata directory flat. -/
theorem flat_createImage (hkey : KeyText name tag) (hsh : sh.Copies)
    (hcontext : PlainContext context)
    (hcreate : createImage name tag context env sh p = (0, p')) (hflat : Flat p.fs) :
    Flat p'.fs := by
  obtain ⟨-, hframe, hstored⟩ := createImage_effect hsh hcontext hkey hcreate
  obtain ⟨layer, hfile, -⟩ := hstored rfl
  intro n
  by_cases hn : metadataDir ++ [n] = writtenFile name tag
  · rw [hn, hfile]
    simp
  · rw [hframe _ (metadata_outside n _) hn]
    exact hflat n

/-- A key with a slash in its tag is none without. -/
theorem imageFile_ne_slash (h : KeyInput name tag) (hslash : '/' ∉ tag.getD [])
    (h' : KeyInput other otherTag) (hslash' : '/' ∈ otherTag.getD []) :
    imageFile name tag ≠ imageFile other otherTag := by
  intro he
  have hfree : SlashFree name tag := ⟨h.name_slash, hslash⟩
  have hord := ordinary_imageJson hfree
  have htext : tagText (otherTag.getD []) = otherTag.getD [] := by
    rw [tagText, if_pos (List.length_pos_of_mem hslash')]
  rw [imageFile, imageFile] at he
  rw [List.singleton_inj.mp (List.append_cancel_left he), fullName_uncut h', htext] at hord
  exact hord.2.2.2 (by simp [hslash'])

/-- When the file is shared by the same and by confusable keys, and these
exclude each other. -/
theorem shared_iff {shared same confused : Prop} (h : shared ↔ same ∨ confused)
    (hexclusive : confused → ¬ same) :
    ((shared ↔ same) ↔ ¬ confused) ∧ ((¬ same → ¬ shared) ↔ ¬ confused) := by
  tauto

/-- In a store whose metadata directory holds no directory, and for tags
without a slash in any store: a key identifies its image exactly when it
cannot be confused with the other one. -/
theorem key_identifies_iff (h : KeyInput name tag) (h' : KeyInput other otherTag)
    (hstore : Flat p.fs ∨ '/' ∉ tag.getD [] ∧ '/' ∉ otherTag.getD []) (hsh : sh.Copies)
    (hcontext : PlainContext context)
    (hcreate : createImage name tag context env sh p = (0, p')) :
    KeyIdentifies name tag other otherTag p p' ↔
      ¬ Confusable name (tagText (tag.getD [])) other (tagText (otherTag.getD [])) := by
  have hslash : '/' ∉ tag.getD [] := by
    rcases hstore with hflat | hfree
    · exact no_slash_created h hsh hcontext hflat hcreate
    · exact hfree.1
  have hkey : KeyText name tag := ⟨h.name_nul, h.tag_nul, h.name_slash, hslash⟩
  have hfile := imageFile_eq_iff h h'
  have hexclusive : Confusable name (tagText (tag.getD [])) other (tagText (otherTag.getD [])) →
      ¬ SameKey name tag other otherTag := fun hc hsame => hc.ne hsame.1
  by_cases hslash' : '/' ∈ otherTag.getD []
  · -- the other key is found in neither state
    have hflat : Flat p.fs := by
      rcases hstore with hflat | hfree
      · exact hflat
      · exact absurd hslash' hfree.2
    have hbefore := not_exists_slash h' hslash' hflat
    have hafter := not_exists_slash h' hslash' (flat_createImage hkey hsh hcontext hcreate hflat)
    have hne := imageFile_ne_slash h hslash h' hslash'
    rw [KeyIdentifies, hbefore, hafter]
    simp only [Bool.false_eq_true, false_iff, forall_const, false_implies, and_true]
    tauto
  · obtain ⟨hexists, hoverwritten⟩ := created_key h hslash h' hslash' hsh hcontext hcreate
    rw [KeyIdentifies, hexists, hoverwritten]
    cases imageExists other otherTag p with
    | false =>
      simp only [Bool.false_eq_true, or_false, false_implies, and_true, forall_const]
      exact (shared_iff hfile hexclusive).1
    | true =>
      simp only [Bool.true_eq_false, false_implies, true_and, forall_const]
      exact (shared_iff hfile hexclusive).2

end Identify

/-! ## 4. Two images under one key -/

theorem flat_imageStore : Flat storeProcess.fs := fun n => by
  have hempty := (isEmptyDir_iff imageStore metadataDir).mp (by decide) n
  show imageStore.node (metadataDir ++ [n]) ≠ some .dir
  rw [hempty]
  simp

def sameSecond : CreateEnv :=
  grantedCreate 1705230833 1705230833 1705230833 1705230833 1705230833

/-- Names without a colon are not confused. -/
theorem web_identified :
    KeyIdentifies "web".toList none "db".toList none storeProcess
      (createImage "web".toList none none sameSecond utilities storeProcess).2 := by
  have hplain : PlainContext none := trivial
  have hcreate : createImage "web".toList none none sameSecond utilities storeProcess = (0, _) :=
    Prod.ext (by decide) rfl
  refine (key_identifies_iff ⟨by decide, by decide, by decide, by decide, by decide⟩
    ⟨by decide, by decide, by decide, by decide, by decide⟩
    (Or.inl flat_imageStore) utilities_copies hplain hcreate).mpr ?_
  rintro (⟨w, hname, -⟩ | ⟨w, hname, -⟩)
  · have hcolon : ':' ∈ "web".toList := by rw [hname]; simp
    exact absurd hcolon (by decide)
  · have hcolon : ':' ∈ "db".toList := by rw [hname]; simp
    exact absurd hcolon (by decide)

/-- `a:b` with tag `c` answers for `a` with tag `b:c`. -/
theorem colon_confuses :
    (createImage "a:b".toList (some "c".toList) none sameSecond utilities storeProcess).1 = 0 ∧
    ¬ KeyIdentifies "a:b".toList (some "c".toList) "a".toList (some "b:c".toList) storeProcess
      (createImage "a:b".toList (some "c".toList) none sameSecond utilities storeProcess).2 := by
  refine ⟨by decide, fun h => ?_⟩
  have habsent : imageExists "a".toList (some "b:c".toList) storeProcess = false := by
    decide
  have hpresent : imageExists "a".toList (some "b:c".toList)
      (createImage "a:b".toList (some "c".toList) none sameSecond utilities storeProcess).2
        = true := by decide
  have hsame := (h.1 habsent).mp hpresent
  exact absurd hsame.1 (by decide)

end DockerClone.Image
