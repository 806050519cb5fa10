/-
DockerClone.Container.RemoveTheorems — what `remove_container` leaves.

Removal is three deletions in sequence: the directory tree by `rm -rf`,
the metadata file by the path in `config_path`, the log file by the path
in `log_path`. Neither path is in the text the record was read from, so
both are stale bytes; and no failure undoes an earlier deletion.

`Created` are the stores `create_container` makes. In them a container
that can be named has a directory (`Created.entry`), so once `rm` has
succeeded the call is past the point of no return: it is all or nothing
only if the two stale paths delete the container's own file, its log if
there is one, and nothing of another container (`RemovesWhole`).

The strings of a stored record are what a caller gave, quotes and
newlines included, so a scan of the reader can run past its array, and a
stale path need not have a terminator. `removeContainerWithin` is the
call as long as neither happens, and what the promise is about.
-/
import DockerClone.Container.LifecycleTheorems

namespace DockerClone.Container

open DockerClone.CLib DockerClone.Os DockerClone.Os.FileSystem DockerClone.Metadata

/-! ## 1. Stores made by create -/

/-- The worlds that runs of `create_container` reach from a metadata
directory without entries. -/
inductive Created : World → Prop where
  | empty {w : World} (h : ∀ n, w.fs.node (metadataDir ++ [n]) = none) : Created w
  | create (args : CreateArgs) (env : CreateEnv) {w : World} (h : Created w) :
      Created (createContainer args env w).2

/-- Every entry of the metadata directory is the record of a container
that has a directory. -/
theorem Created.entry {w : World} (h : Created w) : ∀ n, w.fs.node (metadataDir ++ [n]) ≠ none →
    ∃ args env, n = generateContainerId env.now ++ ".json".toList ∧
      w.fs.node (metadataDir ++ [n]) = some (.file (containerText (newContainer args env))) ∧
      w.fs.node (containerDir (generateContainerId env.now)) ≠ none := by
  induction h with
  | empty h => exact fun n hn => absurd (h n) hn
  | @create args env w _ ih =>
    intro n hn
    have heffect := createContainer_effect args env w
    by_cases hown : metadataDir ++ [n] = metadataFile (generateContainerId env.now)
    · have hname : n = generateContainerId env.now ++ ".json".toList := by
        obtain ⟨-, hlast⟩ := List.append_inj' hown rfl
        exact (List.cons.inj hlast).1
      rcases heffect.outcome with ⟨-, hfile, hdir⟩ | ⟨-, hsame⟩
      · exact ⟨args, env, hname, by rw [hown]; exact hfile, hdir⟩
      · rw [hown, hsame] at hn
        rw [← hown] at hn
        obtain ⟨args', env', hname', hfile, hdir⟩ := ih n hn
        refine ⟨args', env', hname', by rw [hown, hsame, ← hown]; exact hfile, ?_⟩
        rw [heffect.keeps _ hdir (metadataFile_ne_containerDir _ _).symm]
        exact hdir
    · have hkept : (createContainer args env w).2.fs.node (metadataDir ++ [n])
          = w.fs.node (metadataDir ++ [n]) := by
        refine heffect.within _ ?_ ?_ hown
        · intro h; simp [containerDir, metadataDir, storageDir] at h
        · intro h; simp [rootfsDir, containerDir, metadataDir, storageDir] at h
      rw [hkept] at hn ⊢
      obtain ⟨args', env', hname, hfile, hdir⟩ := ih n hn
      refine ⟨args', env', hname, hfile, ?_⟩
      rw [heffect.keeps _ hdir (metadataFile_ne_containerDir _ _).symm]
      exact hdir

/-- A stored container has a generated id and a directory. -/
theorem Created.stored {w : World} (h : Created w) {id : List Char} (hid : Stored id w) :
    (∃ now, id = generateContainerId now) ∧ w.fs.node (containerDir id) ≠ none := by
  obtain ⟨args, env, hname, -, hdir⟩ := h.entry _ hid
  obtain rfl := List.append_cancel_right hname
  exact ⟨⟨env.now, rfl⟩, hdir⟩

/-! ## 2. The call inside its arrays -/

/-- The two `unlink` calls; `none` when one of them would be given an
array without a terminator. -/
def unlinkWithin (container : ContainerInfo) (env : RemoveEnv) (w : World) :
    Option (Int × World) :=
  if ¬ HoldsString MAX_PATH_LEN container.configPath then none
  else match w.fs.unlink w.cwd (cstr container.configPath) env.unlinkConfigDenied with
    | .error _ => some (-1, w)
    | .ok fs =>
        if ¬ HoldsString MAX_PATH_LEN container.logPath then none
        else match fs.unlink w.cwd (cstr container.logPath) env.unlinkLogDenied with
          | .ok fs => some (0, { w with fs := fs })
          | .error .ENOENT => some (0, { w with fs := fs })
          | .error _ => some (-1, { w with fs := fs })

/-- `remove_container`; `none` when a string scanned from the record does
not fit its array, or as `unlinkWithin` says. -/
def removeContainerWithin (containerId : List Char) (env : RemoveEnv) (w : World) :
    Option (Int × World) :=
  if containerExists containerId w = false then some (-1, w)
  else match w.fs.openRead w.cwd (metadataPath containerId) env.readDenied with
    | none => some (-1, w)
    | some text =>
        if ¬ TextFits text then none
        else
          let container := readContainerText text env.junk
          if container.state = ContainerState.running.code then some (-1, w)
          else
            let rmCmd := snprintf 1024 ("rm -rf ".toList ++ getContainerFullPath containerId)
            let rm := env.shell.system w.cwd w.fs rmCmd
            let w := { w with fs := rm.2 }
            if rm.1 ≠ 0 then some (-1, w) else unlinkWithin container env w

/-- Inside its arrays the call is `remove_container`. -/
theorem removeContainer_of_within {id : List Char} {env : RemoveEnv} {w : World}
    {x : Int × World} (h : removeContainerWithin id env w = some x) :
    removeContainer id env w = x := by
  unfold removeContainerWithin at h
  unfold removeContainer readContainerMetadata
  by_cases hex : containerExists id w = false
  · rw [if_pos hex] at h ⊢
    exact Option.some.inj h
  rw [if_neg hex] at h ⊢
  cases hopen : w.fs.openRead w.cwd (metadataPath id) env.readDenied with
  | none =>
    rw [hopen] at h
    exact Option.some.inj h
  | some text =>
    rw [hopen] at h
    simp only [ite_not] at h ⊢
    rw [Option.ite_none_right_eq_some] at h
    obtain ⟨-, h⟩ := h
    by_cases hrun : (readContainerText text env.junk).state = ContainerState.running.code
    · rw [if_pos hrun] at h ⊢
      exact Option.some.inj h
    rw [if_neg hrun] at h ⊢
    generalize env.shell.system w.cwd w.fs _ = rm at h ⊢
    by_cases hrm : rm.1 = 0
    · rw [if_pos hrm] at h ⊢
      simp only [unlinkWithin, ite_not, Option.ite_none_right_eq_some] at h
      obtain ⟨-, h⟩ := h
      cases hfirst : rm.2.unlink w.cwd (cstr (readContainerText text env.junk).configPath)
          env.unlinkConfigDenied with
      | error e =>
        rw [hfirst] at h
        exact Option.some.inj h
      | ok fs =>
        rw [hfirst] at h
        simp only [Option.ite_none_right_eq_some] at h ⊢
        obtain ⟨-, h⟩ := h
        cases hsecond : fs.unlink w.cwd (cstr (readContainerText text env.junk).logPath)
            env.unlinkLogDenied with
        | ok fs₂ =>
          rw [hsecond] at h
          exact Option.some.inj h
        | error e =>
          rw [hsecond] at h
          cases e <;> exact Option.some.inj h
    · rw [if_neg hrm] at h ⊢
      exact Option.some.inj h

/-! ## 3. All or nothing -/

/-- The paths of a container. -/
def OwnPath (id : List Char) (q : Path) : Prop :=
  q = metadataFile id ∨ containerDir id <+: q ∨ q = logFile id

/-- The paths of the store. -/
def StorePath (q : Path) : Prop := storageDir <+: q ∨ metadataDir <+: q ∨ logDir <+: q

/-- A call that returns 0 removed the container and touched no other; a
call that returns -1 changed nothing in the store. -/
structure AllOrNothing (id : List Char) (w w' : World) (ret : Int) : Prop where
  removed : ret = 0 → ∀ q, OwnPath id q → w'.fs.node q = none
  others : ret = 0 → ∀ id', id' ≠ id → Stored id' w → ∀ q, OwnPath id' q →
    w'.fs.node q = w.fs.node q
  unchanged : ret = -1 → ∀ q, StorePath q → w'.fs.node q = w.fs.node q

/-- The call stays inside its arrays and is all or nothing. -/
def KeepsPromise (id : List Char) (env : RemoveEnv) (w : World) : Prop :=
  ∃ ret w', removeContainerWithin id env w = some (ret, w') ∧ AllOrNothing id w w' ret

/-- The record that is read has no string longer than its array. -/
def ReadsInside (id : List Char) (env : RemoveEnv) (w : World) : Prop :=
  ∀ text, w.fs.openRead w.cwd (metadataPath id) env.readDenied = some text → TextFits text

/-- The tests turn the call down: there is no record to read, or it says
RUNNING. -/
def Refused (id : List Char) (env : RemoveEnv) (w : World) : Prop :=
  ∀ container, readContainerMetadata id env.readDenied w env.junk = some container →
    container.state = ContainerState.running.code

/-- `rm` cannot run, or every entry of the directory has to stay. -/
def RemovesNothing (id : List Char) (env : RemoveEnv) (w : World) : Prop :=
  env.shell.available = false ∨
    (w.fs.removable env.shell.stuck (containerDir id) = false ∧
      ∀ q, containerDir id <+: q → w.fs.node q ≠ none →
        w.fs.survives env.shell.stuck (containerDir id) q = true)

/-- The table once `rm` has gone through the container's directory. -/
def afterRm (id : List Char) (env : RemoveEnv) (w : World) : FileSystem :=
  w.fs.rmTree env.shell.stuck (containerDir id) (by simp [containerDir])

/-- The unlinks by the stale paths: the first finds a file; the second
finds one too, or nothing. `removed` are the files they delete. -/
def Unlinks (env : RemoveEnv) (cwd : Path) (fs : FileSystem) (removed : List Path) : Prop :=
  ∃ p₁ fs₁, fs.resolve cwd (cstr env.junk.configPath) = .ok p₁ ∧
    fs.unlink cwd (cstr env.junk.configPath) env.unlinkConfigDenied = .ok fs₁ ∧
    ((∃ p₂ fs₂, fs₁.resolve cwd (cstr env.junk.logPath) = .ok p₂ ∧
        fs₁.unlink cwd (cstr env.junk.logPath) env.unlinkLogDenied = .ok fs₂ ∧
        removed = [p₁, p₂]) ∨
      (fs₁.unlink cwd (cstr env.junk.logPath) env.unlinkLogDenied = .error .ENOENT ∧
        removed = [p₁]))

/-- The files a call has to delete besides the directory: the record, the
log if there is one, and nothing of another container. -/
def Deletes (id : List Char) (w : World) (removed : List Path) : Prop :=
  metadataFile id ∈ removed ∧
  (logFile id ∈ removed ∨ w.fs.node (logFile id) = none) ∧
  ∀ q ∈ removed, ∀ id', id' ≠ id → Stored id' w → ¬ OwnPath id' q

/-- The directory can be removed whole, and the stale paths are strings
that delete the container's record, its log if it has one, and nothing of
another container. -/
def RemovesWhole (id : List Char) (env : RemoveEnv) (w : World) : Prop :=
  env.shell.available = true ∧
  w.fs.removable env.shell.stuck (containerDir id) = true ∧
  HoldsString MAX_PATH_LEN env.junk.configPath ∧ HoldsString MAX_PATH_LEN env.junk.logPath ∧
  ∃ removed, Unlinks env w.cwd (afterRm id env w) removed ∧ Deletes id w removed

/-! ## 4. The steps of a removal -/

theorem keepsPromise_of_some {id : List Char} {env : RemoveEnv} {w : World} {x : Int × World}
    (h : removeContainerWithin id env w = some x) :
    KeepsPromise id env w ↔ AllOrNothing id w x.2 x.1 := by
  constructor
  · rintro ⟨ret, w', hsome, hall⟩
    obtain rfl := Option.some.inj (h.symm.trans hsome)
    exact hall
  · exact fun hall => ⟨x.1, x.2, h, hall⟩

theorem not_keepsPromise_of_none {id : List Char} {env : RemoveEnv} {w : World}
    (h : removeContainerWithin id env w = none) : ¬ KeepsPromise id env w := by
  rintro ⟨ret, w', hsome, -⟩
  rw [h] at hsome
  simp at hsome

theorem allOrNothing_unchanged (id : List Char) (w : World) : AllOrNothing id w w (-1) where
  removed := by simp
  others := by simp
  unchanged := fun _ _ _ => rfl

theorem plainWord_containerDir (now : Int64) :
    PlainWord (absPath (containerDir (generateContainerId now))) := by
  have habs : absPath (containerDir (generateContainerId now))
      = CONTAINER_STORAGE_DIR.toList ++ '/' :: generateContainerId now := by
    rw [containerDir, absPath_concat, ← storageDir_path]
  rw [habs]
  refine ⟨?_, ?_, ?_⟩
  · intro h
    simpa using congrArg List.length h
  · have hhead : (CONTAINER_STORAGE_DIR.toList ++ '/' :: generateContainerId now).head?
        = some '/' := rfl
    rw [hhead]
    decide
  · intro c hc
    rcases List.mem_append.mp hc with hc | hc
    · exact (by decide : ∀ c ∈ CONTAINER_STORAGE_DIR.toList, isPlainChar c = true) c hc
    · rcases List.mem_cons.mp hc with rfl | hc
      · decide
      · exact (by decide : ∀ c ∈ "cont_0123456789abcdef".toList, isPlainChar c = true) c
          (mem_generateContainerId hc)

/-- The command fits its buffer. -/
theorem rmCommand_eq (now : Int64) :
    snprintf 1024 ("rm -rf ".toList ++ getContainerFullPath (generateContainerId now))
      = "rm -rf ".toList ++ absPath (containerDir (generateContainerId now)) := by
  rw [getContainerFullPath_eq]
  refine snprintf_of_lt ?_
  have hrm : "rm -rf ".toList.length = 7 := by decide
  have hlen : CONTAINER_STORAGE_DIR.toList.length = 22 := by decide
  rw [containerDir, absPath_concat, ← storageDir_path]
  simp only [List.length_append, List.length_cons, generateContainerId_length, hrm, hlen]
  omega

/-- A call that is turned down reads the record and does no more. -/
theorem Refused.within {id : List Char} {env : RemoveEnv} {w : World} (h : Refused id env w)
    (hreads : ReadsInside id env w) : removeContainerWithin id env w = some (-1, w) := by
  unfold removeContainerWithin
  by_cases hex : containerExists id w = false
  · rw [if_pos hex]
  rw [if_neg hex]
  cases hopen : w.fs.openRead w.cwd (metadataPath id) env.readDenied with
  | none => rfl
  | some text =>
    have hrun := h (readContainerText text env.junk) (by rw [readContainerMetadata, hopen])
    simp only
    rw [if_neg (not_not.mpr (hreads text hopen)), if_pos hrun]

/-- A call that gets to a record it cannot hold. -/
theorem within_of_not_readsInside {id : List Char} {env : RemoveEnv} {w : World}
    (hexists : ¬ containerExists id w = false) (h : ¬ ReadsInside id env w) :
    removeContainerWithin id env w = none := by
  obtain ⟨text, hopen, hlong⟩ : ∃ text,
      w.fs.openRead w.cwd (metadataPath id) env.readDenied = some text ∧ ¬ TextFits text := by
    simpa only [ReadsInside, not_forall, exists_prop] using h
  rw [removeContainerWithin, if_neg hexists, hopen]
  simp only
  rw [if_pos hlong]

theorem exists_of_stored {now : Int64} {w : World} (h : Stored (generateContainerId now) w) :
    ¬ containerExists (generateContainerId now) w = false := by
  rw [containerExists_eq (isId_generateContainerId now)]
  simpa [Stored, Option.isSome_iff_ne_none] using h

/-- The call once it is past its tests. -/
theorem removeContainerWithin_eq {now : Int64} {env : RemoveEnv} {w : World}
    (hready : ¬ Refused (generateContainerId now) env w)
    (hreads : ReadsInside (generateContainerId now) env w)
    (hfile : Stored (generateContainerId now) w)
    (hdir : w.fs.node (containerDir (generateContainerId now)) ≠ none) :
    removeContainerWithin (generateContainerId now) env w =
      if env.shell.available = false then some (-1, w)
      else if w.fs.removable env.shell.stuck (containerDir (generateContainerId now)) = false then
        some (-1, { w with fs := afterRm (generateContainerId now) env w })
      else unlinkWithin env.junk env { w with fs := afterRm (generateContainerId now) env w } := by
  obtain ⟨container, hread, hstate⟩ : ∃ container,
      readContainerMetadata (generateContainerId now) env.readDenied w env.junk
        = some container ∧ container.state ≠ ContainerState.running.code := by
    simpa [Refused] using hready
  have hconfig := configPath_unread hread
  have hlog := logPath_unread hread
  rw [readContainerMetadata] at hread
  have hrm := env.shell.system_rm w.cwd ordinary_storageDir (ordinary_generateContainerId now)
    (w.fs.node_parent hdir) (plainWord_containerDir now).literal
  rw [removeContainerWithin, if_neg (exists_of_stored hfile)]
  cases hopen : w.fs.openRead w.cwd (metadataPath (generateContainerId now)) env.readDenied with
  | none =>
    rw [hopen] at hread
    simp at hread
  | some text =>
    rw [hopen] at hread
    obtain rfl := Option.some.inj hread
    have hsame : ∀ w', unlinkWithin (readContainerText text env.junk) env w'
        = unlinkWithin env.junk env w' := fun w' => by rw [unlinkWithin, unlinkWithin, hconfig, hlog]
    simp only
    rw [if_neg (not_not.mpr (hreads text hopen)), if_neg hstate, rmCommand_eq, containerDir, hrm]
    cases env.shell.available with
    | false => simp
    | true =>
      cases hclean : w.fs.removable env.shell.stuck (storageDir ++ [generateContainerId now]) with
      | false => simp [afterRm, containerDir]
      | true =>
        simp only [if_true, ne_eq, not_true_eq_false, if_false, Bool.true_eq_false]
        exact hsame _

/-! ## 5. What is gone afterwards -/

theorem containerDir_not_prefix_metadataFile (id id' : List Char) :
    ¬ containerDir id <+: metadataFile id' := by
  rintro ⟨t, h⟩
  simp [containerDir, metadataFile, storageDir, metadataDir] at h

theorem containerDir_not_prefix_logFile (id id' : List Char) :
    ¬ containerDir id <+: logFile id' := by
  rintro ⟨t, h⟩
  simp [containerDir, logFile, storageDir, logDir] at h

theorem eq_of_inside_both {id id' : List Char} {q : Path} (h : containerDir id <+: q)
    (h' : containerDir id' <+: q) : id = id' := by
  obtain ⟨t, rfl⟩ := h
  obtain ⟨t', h'⟩ := h'
  obtain ⟨hdirs, -⟩ := List.append_inj h' (by simp [containerDir])
  obtain ⟨-, hlast⟩ := List.append_inj' hdirs rfl
  exact (List.cons.inj hlast).1.symm

/-- The paths of two containers do not meet. -/
theorem OwnPath.not_inside {id id' : List Char} {q : Path} (h : OwnPath id' q) (hne : id' ≠ id) :
    ¬ containerDir id <+: q := by
  intro hin
  rcases h with rfl | hq | rfl
  · exact containerDir_not_prefix_metadataFile _ _ hin
  · exact hne (eq_of_inside_both hq hin)
  · exact containerDir_not_prefix_logFile _ _ hin

section After

variable {id : List Char} {env : RemoveEnv} {w : World}

theorem node_afterRm_inside
    (hclean : w.fs.removable env.shell.stuck (containerDir id) = true) {q : Path}
    (hq : containerDir id <+: q) : (afterRm id env w).node q = none :=
  w.fs.node_rmTree_inside _ _ hclean hq

theorem node_afterRm_outside {q : Path} (hq : ¬ containerDir id <+: q) :
    (afterRm id env w).node q = w.fs.node q :=
  w.fs.node_rmTree_outside _ _ _ hq

/-- A failed `rm` keeps the promise only if it removed nothing. -/
theorem allOrNothing_partial_iff :
    AllOrNothing id w { w with fs := afterRm id env w } (-1) ↔
      ∀ q, containerDir id <+: q → w.fs.node q ≠ none →
        w.fs.survives env.shell.stuck (containerDir id) q = true := by
  have hnode := w.fs.node_rmTree env.shell.stuck (containerDir id) (by simp [containerDir])
  constructor
  · intro h q hq hne
    by_contra hgone
    have hsame := h.unchanged rfl q (Or.inl ((List.prefix_append _ _).trans hq))
    rw [show (afterRm id env w).node q = none from (hnode q).trans (if_neg hgone)] at hsame
    exact hne hsame.symm
  · intro h
    refine ⟨by simp, by simp, fun _ q _ => ?_⟩
    by_cases hq : containerDir id <+: q
    · by_cases hne : w.fs.node q = none
      · refine (hnode q).trans ?_
        rw [hne]
        split <;> rfl
      · exact (hnode q).trans (if_pos (h q hq hne))
    · exact node_afterRm_outside hq

/-- Once the directory is gone, a call that returns -1 has broken its
promise. -/
theorem not_allOrNothing_of_gone {fs : FileSystem} (hdir : w.fs.node (containerDir id) ≠ none)
    (hgone : fs.node (containerDir id) = none) : ¬ AllOrNothing id w { w with fs := fs } (-1) := by
  intro h
  have hsame := h.unchanged rfl (containerDir id) (Or.inl (List.prefix_append _ _))
  rw [show ({ w with fs := fs } : World).fs.node (containerDir id) = none from hgone] at hsame
  exact hdir hsame.symm

theorem allOrNothing_zero_iff {fs : FileSystem} {removed : List Path}
    (hclean : w.fs.removable env.shell.stuck (containerDir id) = true)
    (hstored : Stored id w)
    (hwas : ∀ q ∈ removed, (afterRm id env w).node q ≠ none)
    (hnode : ∀ q, fs.node q = if q ∈ removed then none else (afterRm id env w).node q) :
    AllOrNothing id w { w with fs := fs } 0 ↔ Deletes id w removed := by
  constructor
  · intro h
    refine ⟨?_, ?_, fun q hq id' hne hid' hown => ?_⟩
    · by_contra hmem
      have hgone := h.removed rfl (metadataFile id) (Or.inl rfl)
      rw [show ({ w with fs := fs } : World).fs.node (metadataFile id) = w.fs.node (metadataFile id)
        from (hnode _).trans ((if_neg hmem).trans
          (node_afterRm_outside (containerDir_not_prefix_metadataFile _ _)))] at hgone
      exact hstored hgone
    · by_cases hmem : logFile id ∈ removed
      · exact Or.inl hmem
      · refine Or.inr ?_
        have hgone := h.removed rfl (logFile id) (Or.inr (Or.inr rfl))
        rw [← hgone]
        exact ((hnode _).trans ((if_neg hmem).trans
          (node_afterRm_outside (containerDir_not_prefix_logFile _ _)))).symm
    · have hsame := h.others rfl id' hne hid' q hown
      have hout : (afterRm id env w).node q = w.fs.node q :=
        node_afterRm_outside (hown.not_inside hne)
      refine hwas q hq ?_
      rw [hout, ← hsame]
      exact (hnode q).trans (if_pos hq)
  · rintro ⟨hmeta, hlog, hother⟩
    refine ⟨fun _ q hown => ?_, fun _ id' hne hid' q hown => ?_, by simp⟩
    · refine (hnode q).trans ?_
      by_cases hmem : q ∈ removed
      · rw [if_pos hmem]
      · rw [if_neg hmem]
        rcases hown with rfl | hq | rfl
        · exact absurd hmeta hmem
        · exact node_afterRm_inside hclean hq
        · rw [node_afterRm_outside (containerDir_not_prefix_logFile _ _)]
          exact hlog.resolve_left hmem
    · refine (hnode q).trans ?_
      rw [if_neg (fun hmem => hother q hmem id' hne hid' hown),
        node_afterRm_outside (hown.not_inside hne)]

end After

/-! ## 6. The two unlinks -/

section TwoUnlinks

variable {env : RemoveEnv} {cwd : Path} {fs fs₁ : FileSystem}
  (h₁ : fs.unlink cwd (cstr env.junk.configPath) env.unlinkConfigDenied = .ok fs₁)

include h₁

theorem unlinks_two {fs₂ : FileSystem}
    (h₂ : fs₁.unlink cwd (cstr env.junk.logPath) env.unlinkLogDenied = .ok fs₂) :
    ∃ removed, (∀ l, Unlinks env cwd fs l ↔ l = removed) ∧
      (∀ q ∈ removed, fs.node q ≠ none) ∧
      ∀ q, fs₂.node q = if q ∈ removed then none else fs.node q := by
  obtain ⟨p₁, c₁, hp₁, hc₁, hnode₁⟩ := unlink_ok h₁
  obtain ⟨p₂, c₂, hp₂, hc₂, hnode₂⟩ := unlink_ok h₂
  have hc₂' : fs.node p₂ ≠ none := by
    rw [hnode₁] at hc₂
    split at hc₂
    · simp at hc₂
    · rw [hc₂]; simp
  refine ⟨[p₁, p₂], fun l => ⟨?_, ?_⟩, ?_, fun q => ?_⟩
  · rintro ⟨p, fs', hp, hu, ⟨p', fs'', hp', -, rfl⟩ | ⟨hno, -⟩⟩
    · obtain rfl := Except.ok.inj (hp.symm.trans hp₁)
      obtain rfl := Except.ok.inj (hu.symm.trans h₁)
      obtain rfl := Except.ok.inj (hp'.symm.trans hp₂)
      rfl
    · obtain rfl := Except.ok.inj (hu.symm.trans h₁)
      rw [h₂] at hno
      simp at hno
  · rintro rfl
    exact ⟨p₁, fs₁, hp₁, h₁, Or.inl ⟨p₂, fs₂, hp₂, h₂, rfl⟩⟩
  · intro q hq
    simp only [List.mem_cons, List.not_mem_nil, or_false] at hq
    rcases hq with rfl | rfl
    · rw [hc₁]; simp
    · exact hc₂'
  · rw [hnode₂, hnode₁]
    by_cases h : q = p₁ <;> by_cases h' : q = p₂ <;> simp [h, h']

theorem unlinks_one
    (h₂ : fs₁.unlink cwd (cstr env.junk.logPath) env.unlinkLogDenied = .error .ENOENT) :
    ∃ removed, (∀ l, Unlinks env cwd fs l ↔ l = removed) ∧
      (∀ q ∈ removed, fs.node q ≠ none) ∧
      ∀ q, fs₁.node q = if q ∈ removed then none else fs.node q := by
  obtain ⟨p₁, c₁, hp₁, hc₁, hnode₁⟩ := unlink_ok h₁
  refine ⟨[p₁], fun l => ⟨?_, ?_⟩, ?_, fun q => ?_⟩
  · rintro ⟨p, fs', hp, hu, ⟨p', fs'', -, hu', -⟩ | ⟨-, rfl⟩⟩
    · obtain rfl := Except.ok.inj (hu.symm.trans h₁)
      rw [h₂] at hu'
      simp at hu'
    · obtain rfl := Except.ok.inj (hp.symm.trans hp₁)
      rfl
  · rintro rfl
    exact ⟨p₁, fs₁, hp₁, h₁, Or.inr ⟨h₂, rfl⟩⟩
  · intro q hq
    rw [List.mem_singleton.mp hq, hc₁]
    simp
  · rw [hnode₁]
    simp

theorem not_unlinks {e : Errno} (he : e ≠ .ENOENT)
    (h₂ : fs₁.unlink cwd (cstr env.junk.logPath) env.unlinkLogDenied = .error e)
    (l : List Path) : ¬ Unlinks env cwd fs l := by
  rintro ⟨p, fs', -, hu, ⟨p', fs'', -, hu', -⟩ | ⟨hno, -⟩⟩
  · obtain rfl := Except.ok.inj (hu.symm.trans h₁)
    rw [h₂] at hu'
    simp at hu'
  · obtain rfl := Except.ok.inj (hu.symm.trans h₁)
    rw [h₂] at hno
    exact he (Except.error.inj hno)

end TwoUnlinks

/-! ## 7. The exact condition -/

section Condition

variable {id : List Char} {env : RemoveEnv} {w : World}

/-- A clean `rm` whose unlinks succeed. -/
theorem allOrNothing_iff_removesWhole {fs : FileSystem} {removed : List Path}
    (havail : env.shell.available = true)
    (hclean : w.fs.removable env.shell.stuck (containerDir id) = true) (hstored : Stored id w)
    (hconfig : HoldsString MAX_PATH_LEN env.junk.configPath)
    (hlog : HoldsString MAX_PATH_LEN env.junk.logPath)
    (hunlinks : ∀ l, Unlinks env w.cwd (afterRm id env w) l ↔ l = removed)
    (hwas : ∀ q ∈ removed, (afterRm id env w).node q ≠ none)
    (hnode : ∀ q, fs.node q = if q ∈ removed then none else (afterRm id env w).node q) :
    AllOrNothing id w { w with fs := fs } 0 ↔ RemovesWhole id env w := by
  rw [allOrNothing_zero_iff hclean hstored hwas hnode]
  constructor
  · exact fun h => ⟨havail, hclean, hconfig, hlog, removed, (hunlinks removed).mpr rfl, h⟩
  · rintro ⟨-, -, -, -, l, hl, h⟩
    rwa [← (hunlinks l).mp hl]

/-- The two unlinks, once the directory is gone. -/
theorem unlinkWithin_keeps_iff (hdir : w.fs.node (containerDir id) ≠ none)
    (hstored : Stored id w) (havail : env.shell.available = true)
    (hclean : w.fs.removable env.shell.stuck (containerDir id) = true)
    (hwithin : removeContainerWithin id env w
      = unlinkWithin env.junk env { w with fs := afterRm id env w }) :
    KeepsPromise id env w ↔ RemovesWhole id env w := by
  have hgone : (afterRm id env w).node (containerDir id) = none :=
    node_afterRm_inside hclean (List.prefix_refl _)
  rw [unlinkWithin] at hwithin
  by_cases hconfig : HoldsString MAX_PATH_LEN env.junk.configPath
  swap
  · rw [if_pos hconfig] at hwithin
    exact iff_of_false (not_keepsPromise_of_none hwithin) fun h => hconfig h.2.2.1
  rw [if_neg (not_not.mpr hconfig)] at hwithin
  cases h₁ : (afterRm id env w).unlink w.cwd (cstr env.junk.configPath)
      env.unlinkConfigDenied with
  | error e =>
    rw [h₁] at hwithin
    rw [keepsPromise_of_some hwithin]
    refine iff_of_false (not_allOrNothing_of_gone hdir hgone) ?_
    rintro ⟨-, -, -, -, l, ⟨p, fs, -, hu, -⟩, -⟩
    rw [h₁] at hu
    simp at hu
  | ok fs₁ =>
    rw [h₁] at hwithin
    simp only at hwithin
    by_cases hlog : HoldsString MAX_PATH_LEN env.junk.logPath
    swap
    · rw [if_pos hlog] at hwithin
      exact iff_of_false (not_keepsPromise_of_none hwithin) fun h => hlog h.2.2.2.1
    rw [if_neg (not_not.mpr hlog)] at hwithin
    cases h₂ : fs₁.unlink w.cwd (cstr env.junk.logPath) env.unlinkLogDenied with
    | ok fs₂ =>
      rw [h₂] at hwithin
      rw [keepsPromise_of_some hwithin]
      obtain ⟨removed, hunlinks, hwas, hnode⟩ := unlinks_two h₁ h₂
      exact allOrNothing_iff_removesWhole havail hclean hstored hconfig hlog hunlinks hwas hnode
    | error e =>
      rw [h₂] at hwithin
      by_cases he : e = .ENOENT
      · subst he
        rw [keepsPromise_of_some hwithin]
        obtain ⟨removed, hunlinks, hwas, hnode⟩ := unlinks_one h₁ h₂
        exact allOrNothing_iff_removesWhole havail hclean hstored hconfig hlog hunlinks hwas hnode
      · have hgone₁ : fs₁.node (containerDir id) = none := by
          obtain ⟨p, c, -, -, hnode⟩ := unlink_ok h₁
          rw [hnode, hgone]
          split <;> rfl
        have hfail : ¬ RemovesWhole id env w := by
          rintro ⟨-, -, -, -, l, hl, -⟩
          exact not_unlinks h₁ he h₂ l hl
        have hresult : removeContainerWithin id env w = some (-1, { w with fs := fs₁ }) := by
          cases e <;> first
            | exact absurd rfl he
            | exact hwithin
        rw [keepsPromise_of_some hresult]
        exact iff_of_false (not_allOrNothing_of_gone hdir hgone₁) hfail

/-- A call that gets past its tests, in a store made by create. -/
theorem keepsPromise_ready_iff (hw : Created w) (hready : ¬ Refused id env w)
    (hreads : ReadsInside id env w) (hstored : Stored id w) :
    KeepsPromise id env w ↔ RemovesNothing id env w ∨ RemovesWhole id env w := by
  obtain ⟨⟨now, rfl⟩, hdir⟩ := hw.stored hstored
  have hwithin := removeContainerWithin_eq hready hreads hstored hdir
  cases havail : env.shell.available with
  | false =>
    rw [if_pos havail] at hwithin
    rw [keepsPromise_of_some hwithin]
    exact iff_of_true (allOrNothing_unchanged _ _) (Or.inl (Or.inl havail))
  | true =>
    rw [if_neg (by simp [havail])] at hwithin
    cases hclean : w.fs.removable env.shell.stuck (containerDir (generateContainerId now)) with
    | false =>
      rw [if_pos hclean] at hwithin
      rw [keepsPromise_of_some hwithin, allOrNothing_partial_iff]
      constructor
      · exact fun h => Or.inl (Or.inr ⟨hclean, h⟩)
      · rintro ((h | h) | h)
        · rw [havail] at h; simp at h
        · exact h.2
        · have := h.2.1
          rw [hclean] at this
          simp at this
    | true =>
      rw [if_neg (by simp [hclean])] at hwithin
      have hnothing : ¬ RemovesNothing (generateContainerId now) env w := by
        rintro (h | h)
        · rw [havail] at h; simp at h
        · rw [hclean] at h; simp at h
      rw [or_iff_right hnothing]
      exact unlinkWithin_keeps_iff hdir hstored havail hclean hwithin

theorem refused_of_not_stored (h : IsId id) (hstored : ¬ Stored id w) : Refused id env w := by
  intro container hread
  rw [readContainerMetadata, metadataPath_eq h, metadataFile, openRead_absent ordinary_metadataDir
    (ordinary_json h) (not_not.mp hstored)] at hread
  simp at hread

end Condition

/-- A removal in a store made by create stays inside its arrays and is all
or nothing exactly when the record it reads fits the struct and the call
is refused, removes nothing, or removes the container whole. -/
theorem remove_all_or_nothing_iff (id : List Char) (env : RemoveEnv) (w : World) (h : IsId id)
    (hw : Created w) : KeepsPromise id env w ↔
      ReadsInside id env w ∧
        (Refused id env w ∨ RemovesNothing id env w ∨ RemovesWhole id env w) := by
  by_cases hstored : Stored id w
  swap
  · have hrefused : Refused id env w := refused_of_not_stored h hstored
    have hreads : ReadsInside id env w := fun text hopen => by
      rw [metadataPath_eq h, metadataFile, openRead_absent ordinary_metadataDir
        (ordinary_json h) (not_not.mp hstored)] at hopen
      simp at hopen
    rw [keepsPromise_of_some (hrefused.within hreads)]
    exact iff_of_true (allOrNothing_unchanged id w) ⟨hreads, Or.inl hrefused⟩
  by_cases hreads : ReadsInside id env w
  · rw [and_iff_right hreads]
    by_cases hrefused : Refused id env w
    · rw [keepsPromise_of_some (hrefused.within hreads)]
      exact iff_of_true (allOrNothing_unchanged id w) (Or.inl hrefused)
    · rw [or_iff_right hrefused]
      exact keepsPromise_ready_iff hw hrefused hreads hstored
  · obtain ⟨⟨now, rfl⟩, -⟩ := hw.stored hstored
    exact iff_of_false (not_keepsPromise_of_none
      (within_of_not_readsInside (exists_of_stored hstored) hreads)) fun hall => hreads hall.1

theorem webWorld_created : Created webWorld :=
  .create _ _ (.empty ((isEmptyDir_iff emptyWorld.fs metadataDir).mp (by decide)))

/-- A removal in which nothing is denied, over the given stale bytes. -/
def removeOver (junk : ContainerInfo) : RemoveEnv where
  junk := junk
  readDenied := false
  shell := { available := true, stuck := [], other := fun _ fs => (0, fs) }
  unlinkConfigDenied := false
  unlinkLogDenied := false

/-- Stale bytes that name the record of `web`, and no log. -/
def ownConfig : ContainerInfo :=
  { ContainerInfo.zeroed with
    configPath := (newContainer (request "web") oneSecond).configPath }

/-- The removal reads the record of `web`, which fits the struct and does
not say RUNNING. -/
theorem webWorld_read (junk : ContainerInfo) :
    ReadsInside webId (removeOver junk) webWorld ∧
      ¬ Refused webId (removeOver junk) webWorld := by
  have hid : IsId webId := isId_generateContainerId _
  constructor
  · intro text hopen
    have hfile : webWorld.fs.openRead webWorld.cwd (metadataPath webId) false
        = some (containerText (newContainer (request "web") oneSecond)) := by
      rw [metadataPath_eq hid, metadataFile]
      exact openRead_absPath ordinary_metadataDir (ordinary_json hid) webWorld_file
    obtain rfl := Option.some.inj (hfile.symm.trans hopen)
    exact textFits_newContainer _ _ webWorld_quoteFree
  · intro h
    have hrun := h _ (readContainerMetadata_file hid webWorld_file false junk)
    rw [state_readContainerText webWorld_quoteFree] at hrun
    exact absurd hrun (by decide)

theorem webWorld_removed_whole : KeepsPromise webId (removeOver ownConfig) webWorld := by
  have hconfig : ∀ fs : FileSystem, fs.node (metadataFile webId) ≠ none →
      fs.resolve webWorld.cwd (cstr ownConfig.configPath) = .ok (metadataFile webId) := by
    intro fs hnode
    have hpath : cstr ownConfig.configPath = absPath (metadataFile webId) :=
      cstr_newContainer_configPath (request "web") oneSecond
    rw [hpath]
    exact resolve_absPath_of_node ordinary_metadataDir
      (ordinary_json (isId_generateContainerId _)) hnode
  have hkept : (afterRm webId (removeOver ownConfig) webWorld).node (metadataFile webId)
      = some (.file (containerText (newContainer (request "web") oneSecond))) :=
    (node_afterRm_outside (containerDir_not_prefix_metadataFile _ _)).trans webWorld_file
  obtain ⟨fs₁, hunlink⟩ := unlink_ok_iff.mpr
    ⟨rfl, _, _, hconfig _ (by rw [hkept]; simp), hkept⟩
  refine (remove_all_or_nothing_iff webId (removeOver ownConfig) webWorld
    (isId_generateContainerId _) webWorld_created).mpr ⟨(webWorld_read _).1, Or.inr (Or.inr
      ⟨rfl, rfl, holdsString_newContainer_configPath (request "web") oneSecond,
        holdsString_zeros (by decide), [metadataFile webId],
        ⟨_, fs₁, hconfig _ (by rw [hkept]; simp), hunlink, Or.inr ⟨rfl, rfl⟩⟩,
        List.mem_singleton_self _, Or.inr ?_, fun q hq id' hne _ hown => ?_⟩)⟩
  · exact (webWorld_effect.within _ (by simp [logFile, containerDir, logDir, storageDir])
      (by simp [logFile, rootfsDir, containerDir, logDir, storageDir])
      (by simp [logFile, metadataFile, logDir, metadataDir])).trans (by decide)
  · rw [List.mem_singleton.mp hq] at hown
    rcases hown with h | h | h
    · exact hne (metadataFile_inj h).symm
    · exact containerDir_not_prefix_metadataFile _ _ h
    · simp [metadataFile, logFile, metadataDir, logDir] at h

/-- With no path in the stale bytes the directory goes, the record stays
and the call returns -1. -/
theorem zeroed_bytes_remove_half :
    ¬ KeepsPromise webId (removeOver ContainerInfo.zeroed) webWorld := by
  obtain ⟨hreads, hready⟩ := webWorld_read ContainerInfo.zeroed
  have hstored : Stored webId webWorld := by
    rw [Stored, webWorld_file]
    simp
  rw [keepsPromise_ready_iff webWorld_created hready hreads hstored]
  rintro ((hnone | ⟨hstuck, -⟩) | ⟨-, -, -, -, removed, ⟨p, fs, hresolve, -⟩, -⟩)
  · exact absurd hnone (by decide)
  · exact absurd hstuck (by decide)
  · have hempty : cstr (removeOver ContainerInfo.zeroed).junk.configPath = [] := cstr_zeros _
    rw [hempty, FileSystem.resolve, if_pos rfl] at hresolve
    simp at hresolve

end DockerClone.Container
