/-
DockerClone.Container.ListTheorems — `list_containers` against the store.

The list is made from file names: a name is cut at its first dot, the id
that is left names the file once more, and the file is read over whatever
`malloc` returned. For a generated id the cut gives back the id
(`scannedId_jsonName`), so the file that is read is the one that was
found; the id line of a generated id is short and its key is tested
before all others, so the id in the record comes back as well
(`id_generated`). That no other string can reach the id or the numbers is
the codec law `text_readEntry_other` and `number_readEntry`.

`readEntries_reads` follows the second loop; `listContainers_exact` puts
it next to what the directory holds, whatever order either pass sees.
-/
import DockerClone.Container.RemoveTheorems

namespace DockerClone.Container

open DockerClone.CLib DockerClone.Os DockerClone.Os.FileSystem DockerClone.Metadata

/-! ## 1. Ids and file names -/

/-- `cont_` and sixteen hexadecimal digits. -/
def GeneratedForm (id : List Char) : Prop :=
  ∃ digits, id = "cont_".toList ++ digits ∧ digits.length = 16 ∧
    ∀ c ∈ digits, c ∈ "0123456789abcdefABCDEF".toList

theorem generatedForm_generateContainerId (now : Int64) :
    GeneratedForm (generateContainerId now) := by
  refine ⟨renderHex 8 (now.toInt % 2 ^ 32).toNat
    ++ renderHex 8 (now.toInt / 2 ^ 32 % 2 ^ 32).toNat, ?_, ?_, ?_⟩
  · rw [generateContainerId_eq, List.append_assoc]
  · rw [List.length_append, renderHex_length, renderHex_length]
  · intro c hc
    have hlower : "0123456789abcdef".toList ⊆ "0123456789abcdefABCDEF".toList := by decide
    rcases List.mem_append.mp hc with hc | hc
    · exact hlower (mem_renderHex hc)
    · exact hlower (mem_renderHex hc)

/-- The name of a container's metadata file. -/
def jsonName (id : List Char) : Name := id ++ ".json".toList

theorem jsonName_injective : Function.Injective jsonName :=
  fun _ _ h => List.append_cancel_right h

theorem isJson_jsonName (id : List Char) : isJson (jsonName id) = true :=
  (found_iff _ _).mpr (List.suffix_append id ".json".toList).isInfix

/-- A name is cut at its first dot, so an id without one is read back. -/
theorem scannedId_of_no_dot {id : List Char} (hne : id ≠ []) (hdot : '.' ∉ id) (hnul : NulFree id)
    (junk : List Char) : cstr (scannedId (jsonName id) junk) = id := by
  have hformat : parseFormat "%[^.].json".toList
      = .scanset '.' :: ".json".toList.map Directive.lit := by decide
  have hname : jsonName id = id ++ '.' :: "json".toList := rfl
  have hscan : scannedText (jsonName id) "%[^.].json".toList = some id := by
    rw [scannedText, sscanf, hformat, hname, scan_scanset hne hdot]
  rw [scannedId, hscan]
  exact cstr_store hnul junk

section Generated

variable {id : List Char} (h : GeneratedForm id)

include h

theorem GeneratedForm.length : id.length = 21 := by
  obtain ⟨digits, rfl, hlen, -⟩ := h
  have hfront : "cont_".toList.length = 5 := by decide
  rw [List.length_append, hfront, hlen]

theorem GeneratedForm.not_mem {c : Char} (hc : c ∉ "cont_0123456789abcdefABCDEF".toList) :
    c ∉ id := by
  obtain ⟨digits, rfl, -, hdigits⟩ := h
  intro hm
  rcases List.mem_append.mp hm with hm | hm
  · exact hc ((by decide : "cont_".toList ⊆ "cont_0123456789abcdefABCDEF".toList) hm)
  · exact hc ((by decide : "0123456789abcdefABCDEF".toList ⊆
      "cont_0123456789abcdefABCDEF".toList) (hdigits c hm))

theorem GeneratedForm.isId : IsId id :=
  ⟨by rw [h.length]; omega, h.not_mem (by decide)⟩

theorem GeneratedForm.ne_nil : id ≠ [] := by
  intro hnil
  have hlen := h.length
  rw [hnil] at hlen
  simp at hlen

/-- The name of the file gives back the id. -/
theorem scannedId_jsonName (junk : List Char) : cstr (scannedId (jsonName id) junk) = id :=
  scannedId_of_no_dot h.ne_nil (h.not_mem (by decide)) (h.not_mem (by decide)) junk

end Generated

/-! ## 2. What a record's file gives back -/

/-- A listed record stands for a stored one. -/
structure Carries (r c : ContainerInfo) : Prop where
  id : cstr c.id = cstr r.id
  state : c.state = r.state
  pid : c.pid = r.pid
  exitCode : c.exitCode = r.exitCode

/-- A generated id comes back, whatever the other strings are and
whatever the struct held. -/
theorem id_generated {r : ContainerInfo} (hid : GeneratedForm (cstr r.id)) (h : QuoteFree r)
    (c : ContainerInfo) : cstr (readContainerText (containerText r) c).id = cstr r.id := by
  have hs : Slot.text { name := "id" } (·.id) (fun c v => { c with id := v })
      ∈ containerSlots := by simp [containerSlots]
  have hown : ∀ value, .text { name := "id" } value ∈ containerEntries r → value = cstr r.id := by
    simp [containerEntries, Key.eq_iff]
  have hline : (Entry.text { name := "id" } (cstr r.id)).OnePiece 1024 := by
    refine ⟨hid.not_mem (by decide), ?_⟩
    have hlen := hid.length
    simp [textLine_chars, hlen]
  have hread : (readContainerText (containerText r) c).id
      = (containerEntries r).foldl (fun old e => e.textAt containerSlots "id" old) c.id :=
    text_readText lawful_containerSlots hs (by omega) h
      (fun value hv => by rw [hown value hv]; exact hline) c
  have honce : (containerEntries r).foldl (fun old e => e.textAt containerSlots "id" old) c.id
      = (Entry.text { name := "id" } (cstr r.id)).textAt containerSlots "id" c.id := by
    simp [containerEntries, Entry.textAt]
  -- no slot is tested before the id's
  have hfirst : ¬ Shadowed containerSlots "id" (cstr r.id) := by
    rintro ⟨s, hs, -⟩
    simp [earlier, containerSlots, Slot.key] at hs
  rw [hread, honce]
  exact (cstr_textAt_iff (nulFree_cstr _) _).mpr (Or.inl ⟨hid.ne_nil, hfirst⟩)

theorem carries_readContainerText {r : ContainerInfo} (hid : GeneratedForm (cstr r.id))
    (h : QuoteFree r) (c : ContainerInfo) :
    Carries r (readContainerText (containerText r) c) where
  id := id_generated hid h c
  state := state_readContainerText h c
  pid := pid_readContainerText h c
  exitCode := exitCode_readContainerText h c

/-! ## 3. Stored containers -/

/-- The entries of the metadata directory with `.json` in their name are
the files written for these records, one each. -/
structure HoldsRecords (fs : FileSystem) (records : List ContainerInfo) : Prop where
  dir : fs.node metadataDir = some .dir
  files : ∀ n, isJson n = true →
    (fs.node (metadataDir ++ [n]) ≠ none ↔ n ∈ records.map fun r => jsonName (cstr r.id))
  content : ∀ r ∈ records, fs.node (metadataFile (cstr r.id)) = some (.file (containerText r))
  distinct : (records.map fun r => cstr r.id).Nodup
  generated : ∀ r ∈ records, GeneratedForm (cstr r.id)
  quoteFree : ∀ r ∈ records, QuoteFree r

/-- A directory without entries holds no record. -/
theorem holdsRecords_nil {fs : FileSystem} (hdir : fs.node metadataDir = some .dir)
    (hempty : ∀ n, fs.node (metadataDir ++ [n]) = none) : HoldsRecords fs [] where
  dir := hdir
  files := fun n _ => by simp [hempty n]
  content := by simp
  distinct := by simp
  generated := by simp
  quoteFree := by simp

/-- Writing a record under a new id, to the path in its `config_path`,
adds the record. -/
theorem HoldsRecords.write {w : World} {records : List ContainerInfo}
    (h : HoldsRecords w.fs records) (r : ContainerInfo) (denied : Bool)
    (htarget : w.fs.writeTarget w.cwd (cstr r.configPath) denied
      = some (metadataFile (cstr r.id)))
    (hgenerated : GeneratedForm (cstr r.id)) (hquote : QuoteFree r)
    (hnew : cstr r.id ∉ records.map fun r => cstr r.id) :
    HoldsRecords (writeContainerMetadata r denied w).2.fs (r :: records) := by
  obtain ⟨p, hp, -, -, hnode⟩ := writeContainerMetadata_zero
    (writeContainerMetadata_of_target htarget)
  obtain rfl := Option.some.inj (htarget.symm.trans hp)
  refine ⟨?_, ?_, ?_, ?_, ?_, ?_⟩
  · rw [hnode, if_neg (by simp [metadataFile]), h.dir]
  · intro n hn
    rw [hnode]
    by_cases hown : n = jsonName (cstr r.id)
    · simp [hown, metadataFile, jsonName]
    · rw [if_neg (by simpa [metadataFile, jsonName] using hown), h.files n hn]
      simp [hown]
  · intro other hother
    rw [hnode]
    rcases List.mem_cons.mp hother with rfl | hmem
    · rw [if_pos rfl]
    · have hne : metadataFile (cstr other.id) ≠ metadataFile (cstr r.id) :=
        fun he => hnew (metadataFile_inj he ▸ List.mem_map_of_mem hmem)
      rw [if_neg hne, h.content other hmem]
  · rw [List.map_cons, List.nodup_cons]
    exact ⟨hnew, h.distinct⟩
  · rw [List.forall_mem_cons]
    exact ⟨hgenerated, h.generated⟩
  · rw [List.forall_mem_cons]
    exact ⟨hquote, h.quoteFree⟩

/-! ## 4. The two passes -/

/-- The names a pass takes are the files of the records, in some order. -/
theorem HoldsRecords.filter_perm {fs : FileSystem} {records : List ContainerInfo}
    (h : HoldsRecords fs records) (l : Listing fs metadataDir) :
    (l.names.filter isJson).Perm (records.map fun r => jsonName (cstr r.id)) := by
  have hnodup : (records.map fun r => jsonName (cstr r.id)).Nodup := by
    have := h.distinct.map jsonName_injective
    rwa [List.map_map] at this
  refine (List.perm_ext_iff_of_nodup (l.nodup.filter _) hnodup).mpr fun n => ?_
  rw [List.mem_filter, l.mem_iff]
  constructor
  · rintro ⟨rfl | rfl | hne, hjson⟩
    · exact absurd hjson (by decide)
    · exact absurd hjson (by decide)
    · exact (h.files n hjson).mp hne
  · intro hn
    obtain ⟨r, -, rfl⟩ := List.mem_map.mp hn
    have hjson := isJson_jsonName (cstr r.id)
    exact ⟨Or.inr (Or.inr ((h.files _ hjson).mpr hn)), hjson⟩

/-- What the second loop stores for a name. -/
def Reads (records : List ContainerInfo) (name : Name) (c : ContainerInfo) : Prop :=
  ∃ r ∈ records, name = jsonName (cstr r.id) ∧ Carries r c

/-- No allocation fails and every file can be opened. -/
structure ListEnv.Granted {fs : FileSystem} (env : ListEnv fs) : Prop where
  listAllocated : env.listAllocated = true
  containersAllocated : env.containersAllocated = true
  opened : ∀ n, env.denied n = false

section Listed

variable {w : World} {records : List ContainerInfo} (h : HoldsRecords w.fs records)
  {env : ListEnv w.fs} (henv : env.Granted)

include h henv

/-- The second loop stores one record for each name it takes. -/
theorem readEntries_reads : ∀ {names : List Name},
    (∀ n ∈ names, isJson n = true → n ∈ records.map fun r => jsonName (cstr r.id)) →
    ∀ containers : List ContainerInfo, ∃ stored,
      readEntries env w names containers = containers ++ stored ∧
      List.Forall₂ (Reads records) (names.filter isJson) stored
  | [], _, containers => ⟨[], by simp [readEntries], List.Forall₂.nil⟩
  | name :: rest, hnames, containers => by
      have hrest := fun n hn => hnames n (List.mem_cons_of_mem name hn)
      by_cases hjson : isJson name = true
      · obtain ⟨r, hr, rfl⟩ := List.mem_map.mp (hnames name (by simp) hjson)
        have hgen := h.generated r hr
        have hread : readContainerMetadata
            (cstr (scannedId (jsonName (cstr r.id)) (env.idJunk (jsonName (cstr r.id)))))
            (env.denied (jsonName (cstr r.id))) w (env.junk containers.length)
            = some (readContainerText (containerText r) (env.junk containers.length)) := by
          rw [scannedId_jsonName hgen, henv.opened,
            readContainerMetadata_file hgen.isId (h.content r hr)]
          simp
        obtain ⟨stored, hstored, hreads⟩ := readEntries_reads hrest
          (containers ++ [readContainerText (containerText r) (env.junk containers.length)])
        refine ⟨readContainerText (containerText r) (env.junk containers.length) :: stored, ?_, ?_⟩
        · rw [readEntries, if_pos hjson]
          simp only [hread, hstored, List.append_assoc, List.singleton_append]
        · rw [List.filter_cons_of_pos hjson]
          exact .cons ⟨r, hr, rfl, carries_readContainerText hgen (h.quoteFree r hr) _⟩ hreads
      · obtain ⟨stored, hstored, hreads⟩ := readEntries_reads hrest containers
        refine ⟨stored, ?_, ?_⟩
        · rw [readEntries, if_neg hjson, hstored]
        · rw [List.filter_cons_of_neg hjson]
          exact hreads

end Listed

/-- A record read for a file has the id the file is named by. -/
theorem names_eq_of_reads {records : List ContainerInfo} : ∀ {names : List Name}
    {stored : List ContainerInfo}, List.Forall₂ (Reads records) names stored →
      names = stored.map fun c => jsonName (cstr c.id)
  | [], [], .nil => rfl
  | name :: names, c :: stored, .cons ⟨r, _, hname, hcarries⟩ hreads => by
      rw [List.map_cons, ← names_eq_of_reads hreads, hname, hcarries.id]

/-! ## 5. The list -/

/-- As many records as are stored, every stored id once, and under it the
stored numbers. -/
structure ListsExactly (records listed : List ContainerInfo) : Prop where
  count : listed.length = records.length
  once : ∀ r ∈ records, (listed.map fun c => cstr c.id).count (cstr r.id) = 1
  numbers : ∀ r ∈ records, ∀ c ∈ listed, cstr c.id = cstr r.id →
    c.state = r.state ∧ c.pid = r.pid ∧ c.exitCode = r.exitCode

/-- What the loop stored for a reordering of the files is exact. -/
theorem HoldsRecords.listsExactly {fs : FileSystem} {records stored : List ContainerInfo}
    (h : HoldsRecords fs records) {names : List Name}
    (hperm : names.Perm (records.map fun r => jsonName (cstr r.id)))
    (hreads : List.Forall₂ (Reads records) names stored) : ListsExactly records stored := by
  have hids : (stored.map fun c => cstr c.id).Perm (records.map fun r => cstr r.id) := by
    rw [names_eq_of_reads hreads] at hperm
    refine (List.map_perm_map_iff jsonName_injective).mp ?_
    rwa [List.map_map, List.map_map]
  refine ⟨?_, ?_, ?_⟩
  · simpa using hids.length_eq
  · intro r hr
    rw [hids.count_eq]
    exact List.count_eq_one_of_mem h.distinct (List.mem_map_of_mem hr)
  · intro r hr c hc hid
    obtain ⟨name, -, r', hr', -, hcarries⟩ : ∃ name ∈ names, Reads records name c := by
      obtain ⟨i, hi, rfl⟩ := List.mem_iff_getElem.mp hc
      have hlen := hreads.length_eq
      exact ⟨names[i], List.getElem_mem _, hreads.get (by omega) hi⟩
    obtain rfl : r' = r :=
      List.inj_on_of_nodup_map h.distinct hr' hr (hcarries.id.symm.trans hid)
    exact ⟨hcarries.state, hcarries.pid, hcarries.exitCode⟩

/-- The list is exact for every directory of generated containers, in
whatever order its entries are read and whatever the array held. -/
theorem listContainers_exact {w : World} {records : List ContainerInfo}
    (h : HoldsRecords w.fs records) (env : ListEnv w.fs) (henv : env.Granted) :
    ∃ listed, listContainers w env = some listed ∧ ListsExactly records listed := by
  have hopen : w.fs.openDir w.cwd CONTAINER_METADATA_DIR.toList = some metadataDir := by
    rw [metadataDir_path]
    exact openDir_absPath w.cwd (by decide : ∀ m ∈ ["tmp".toList], Ordinary m) (by decide) h.dir
  have hcount : ((env.counted metadataDir).names.filter isJson).length = records.length := by
    rw [(h.filter_perm _).length_eq, List.length_map]
  rw [listContainers, if_neg (by simp [henv.listAllocated]), hopen]
  simp only [hcount, henv.containersAllocated]
  by_cases hzero : records.length = 0
  · obtain rfl := List.eq_nil_of_length_eq_zero hzero
    exact ⟨[], by simp, rfl, by simp, by simp⟩
  · rw [if_neg hzero, if_neg (by simp)]
    have hperm := h.filter_perm (env.read metadataDir)
    obtain ⟨stored, hstored, hreads⟩ := readEntries_reads h henv
      (fun n hn hjson => hperm.mem_iff.mp (List.mem_filter.mpr ⟨hn, hjson⟩)) []
    exact ⟨stored, by rw [hstored, List.nil_append], h.listsExactly hperm hreads⟩

/-- A store with two containers, one of them named like a key. -/
def pairRecords : List ContainerInfo :=
  [newContainer (request "state") nextSecond, newContainer (request "web") oneSecond]

def pairWorld : World :=
  (writeContainerMetadata (newContainer (request "state") nextSecond) false
    (writeContainerMetadata (newContainer (request "web") oneSecond) false emptyWorld).2).2

theorem holdsRecords_pairWorld : HoldsRecords pairWorld.fs pairRecords := by
  have hempty : HoldsRecords emptyWorld.fs [] :=
    holdsRecords_nil (by decide) ((isEmptyDir_iff emptyWorld.fs metadataDir).mp (by decide))
  have hform : ∀ args env, GeneratedForm (cstr (newContainer args env).id) := by
    intro args env
    rw [cstr_newContainer_id]
    exact generatedForm_generateContainerId env.now
  have hweb := hempty.write (newContainer (request "web") oneSecond) false
    (by decide +kernel) (hform _ _) (by decide +kernel) (by simp)
  exact hweb.write _ _ (by decide +kernel) (hform _ _) (by decide +kernel) (by decide +kernel)

theorem pairWorld_listed : ∃ listed,
    listContainers pairWorld
      { listAllocated := true
        containersAllocated := true
        counted := pairWorld.fs.listing
        read := pairWorld.fs.listing
        denied := fun _ => false
        junk := fun _ => exitedRecord (newContainer (request "old") oneSecond) 256 1705230835
        idJunk := fun _ => [] } = some listed ∧ ListsExactly pairRecords listed :=
  listContainers_exact holdsRecords_pairWorld _ ⟨rfl, rfl, fun _ => rfl⟩

end DockerClone.Container
