/-
DockerClone.Build.HistoryTheorems — builds after builds.

All builds fill one scratch directory. A build that fails after some
steps leaves there what these steps wrote, and the next one goes on from
it: an ENV is appended to the `environment` of the failed build.

What a build hands to `create_image` is a function of the dockerfile and
of what was in the scratch directory (`layerOf`). So in every run it
depends on the dockerfile alone for the builds that find the directory
absent or empty (`builds_independent`); for any other build there is a
dockerfile whose layer is not its own (`leftover_handed`). In a run whose
builds are refused or clean up after themselves all of them do
(`starts_clean`).
-/
import DockerClone.Build.SummaryTheorems

namespace DockerClone.Build

open DockerClone.CLib DockerClone.Os DockerClone.Os.FileSystem DockerClone.Image

/-! ## 1. Runs -/

/-- One call of `build_image_from_dockerfile`. -/
structure BuildCall where
  dockerfile : Option Dockerfile
  imageName : List Char
  tag : Option (List Char)
  contextPath : List Char
  env : BuildEnv

def buildStep (c : BuildCall) (p : Process) : Int × Process :=
  buildImageFromDockerfile c.dockerfile c.imageName c.tag c.contextPath c.env p

/-- Every shell of the build has an `echo` that prints this. -/
def BuildEnv.Echoes (env : BuildEnv) (printed : List Char → List Char) : Prop :=
  ∀ k, (env.step k).shell.Echoes printed

/-- The layer directories hold the same. -/
def SameLayer (fs fs' : FileSystem) : Prop :=
  ∀ r, fs.node (scratchDir ++ r) = fs'.node (scratchDir ++ r)

/-- A build that succeeds hands to `create_image` what the build of the
same dockerfile hands to it where there is no scratch directory. -/
def DependsOnDockerfile (printed : List Char → List Char) (t : Transition Process BuildCall Int) :
    Prop :=
  ∀ dockerfile, t.action.dockerfile = some dockerfile → t.result = 0 →
    ∀ (contextPath : List Char) (env : BuildEnv) (fresh handed : Process), env.Echoes printed →
      fresh.fs.node scratchDir = none →
      buildLayer dockerfile contextPath env fresh = (0, handed) →
        SameLayer (buildLayer dockerfile t.action.contextPath t.action.env t.before).2.fs handed.fs

/-- The scratch directory is absent or empty. -/
def EmptyScratch (fs : FileSystem) : Prop :=
  regular (fs.node scratchDir) = none ∧ ∀ n, fs.node (scratchDir ++ [n]) = none

/-- The build finds no scratch directory or an empty one, and its RUN
arguments reach `echo` as text. -/
structure StartsClean (t : Transition Process BuildCall Int) : Prop where
  scratch : EmptyScratch t.before.fs
  args : ∀ dockerfile, t.action.dockerfile = some dockerfile →
    ∀ i ∈ dockerfile.instructions, PlainRun i

/-! ## 2. One build -/

section Layer

variable {dockerfile : Dockerfile} {contextPath : List Char} {env : BuildEnv}
  {printed : List Char → List Char} {p p' : Process}

theorem emptyScratch_of_missing {fs : FileSystem} (h : fs.node scratchDir = none) :
    EmptyScratch fs :=
  ⟨by rw [h]; rfl, fun n => fs.node_below_missing h [n]⟩

/-- The layer of a dockerfile: what its effects make of nothing. -/
def layerOf (printed : List Char → List Char) (dockerfile : Dockerfile) (q : Path) : Option Node :=
  Effect.leavesAll (dockerfile.effects printed) q none

/-- From an empty scratch directory a build makes the dockerfile's
layer. -/
theorem buildLayer_layerOf (hsh : env.Echoes printed)
    (hargs : ∀ i ∈ dockerfile.instructions, PlainRun i) (hempty : EmptyScratch p.fs)
    (h : buildLayer dockerfile contextPath env p = (0, p')) (r : Path) :
    p'.fs.node (scratchDir ++ r) = layerOf printed dockerfile (scratchDir ++ r) := by
  obtain ⟨-, hleads⟩ := buildLayer_leads (fun _ _ _ => hsh) hargs h
  rw [hleads, layerOf]
  cases r with
  | nil =>
    -- the directory itself is made if it is not there
    rw [List.append_nil]
    cases hnode : p.fs.node scratchDir with
    | none => rfl
    | some x =>
      cases x with
      | dir => rfl
      | file content =>
        have hreg := hempty.1
        rw [hnode] at hreg
        simp at hreg
  | cons n r =>
    have hnone : p.fs.node (scratchDir ++ n :: r) = none := by
      by_contra hne
      exact p.fs.node_on_way hne (hempty.2 n)
    rw [hnone]

/-- A build that returns 0 came through all its steps. -/
theorem buildImage_zero {imageName : List Char} {tag : Option (List Char)}
    (h : (buildImageFromDockerfile (some dockerfile) imageName tag contextPath env p).1 = 0) :
    validateDockerfile dockerfile = true ∧ ∃ built created,
      buildLayer dockerfile contextPath env p = (0, built) ∧
      createImage imageName tag (some buildLayerPath) env.create env.createShell built
        = (0, created) ∧
      (buildImageFromDockerfile (some dockerfile) imageName tag contextPath env p).2
        = (created.system env.rmShell (snprintf 1024 ("rm -rf ".toList ++ buildLayerPath))).2 := by
  rw [buildImageFromDockerfile] at h ⊢
  simp only at h ⊢
  split at h
  · simp at h
  · rename_i hvalid
    split at h
    · simp at h
    · rename_i hlayer
      split at h
      · simp at h
      · rename_i himage
        rw [if_neg hvalid, if_neg hlayer, if_neg himage]
        exact ⟨Bool.not_eq_false _ ▸ hvalid, _, _, Prod.ext (not_not.mp hlayer) rfl,
          Prod.ext (not_not.mp himage) rfl, rfl⟩

/-- What is in the scratch directory before a build is handed over by the
build of a dockerfile that is just a FROM, and in no fresh layer. -/
theorem leftover_handed {i : DockerfileInstruction} (hfrom : i.type = .FROM)
    (hone : dockerfile.instructions = [i]) {n : Name} {r : Path}
    (hleft : p.fs.node (scratchDir ++ n :: r) ≠ none)
    (h : buildLayer dockerfile contextPath env p = (0, p')) :
    p'.fs.node (scratchDir ++ n :: r) ≠ layerOf printed dockerfile (scratchDir ++ n :: r) := by
  have hkeep : effect printed buildLayerPath i = .keep := by rw [effect, hfrom]; rfl
  have hfresh : layerOf printed dockerfile (scratchDir ++ n :: r) = none := by
    have hplace : (Effect.make scratchDir).place ≠ some (scratchDir ++ n :: r) := by
      intro he
      have hlen := congrArg List.length (Option.some.inj he)
      simp at hlen
    rw [layerOf, Dockerfile.effects, hone, List.map_singleton, hkeep, Effect.leavesAll_cons,
      Effect.leaves_elsewhere hplace]
    rfl
  rw [hfresh]
  rw [buildLayer] at h
  split at h
  · simp at h
  · rename_i p₁ hmake
    rw [hone, executeInstructions, executeInstruction_eq, hfrom] at h
    obtain rfl : p₁ = p' := (Prod.mk.inj h).2
    rw [mkdirExistOk_leads hmake]
    exact Effect.leaves_ne_none _ _ hleft

end Layer

/-! ## 3. All builds of a run -/

section Runs

variable {printed : List Char → List Char} {calls : List BuildCall} {p : Process}

/-- In every run: each build that starts clean depends on its dockerfile
alone. -/
theorem builds_independent (hsh : ∀ c ∈ calls, c.env.Echoes printed)
    (hclean : ∀ t ∈ transitions buildStep calls p, StartsClean t) :
    ∀ t ∈ transitions buildStep calls p, DependsOnDockerfile printed t := by
  intro t ht dockerfile hfile hresult contextPath env fresh handed hfresh hmissing hbuild r
  have hstart := hclean t ht
  obtain ⟨c, hc, s, rfl⟩ := exists_of_mem_transitions ht
  have hargs := hstart.args dockerfile hfile
  have hfile : c.dockerfile = some dockerfile := hfile
  have hzero : (buildImageFromDockerfile (some dockerfile) c.imageName c.tag c.contextPath c.env
      s).1 = 0 := by
    rw [← hfile]
    exact hresult
  obtain ⟨-, built, -, hbuilt, -⟩ := buildImage_zero hzero
  have hleft := buildLayer_layerOf (hsh c hc) hargs hstart.scratch hbuilt r
  have hright := buildLayer_layerOf hfresh hargs (emptyScratch_of_missing hmissing) hbuild r
  show (buildLayer dockerfile c.contextPath c.env s).2.fs.node (scratchDir ++ r)
    = handed.fs.node (scratchDir ++ r)
  rw [hbuilt, hleft, hright]

end Runs

/-! ## 4. Cleaning up -/

/-- The removal at the end of the build reaches everything in the scratch
directory. -/
structure BuildEnv.Removes (env : BuildEnv) : Prop where
  available : env.rmShell.available = true
  unstuck : ∀ s ∈ env.rmShell.stuck, ¬ scratchDir <+: s

/-- The build is refused before it starts, or it succeeds and its removal
works. -/
def CleansUp (t : Transition Process BuildCall Int) : Prop :=
  (∀ dockerfile, t.action.dockerfile = some dockerfile → validateDockerfile dockerfile = false) ∨
    t.result = 0 ∧ t.action.env.Removes

section CleanUp

variable {printed : List Char → List Char} {calls : List BuildCall} {p : Process}

/-- After such a removal there is no scratch directory. -/
theorem scratch_removed {env : BuildEnv} (hrm : env.Removes) (p : Process) :
    (p.system env.rmShell (snprintf 1024 ("rm -rf ".toList ++ buildLayerPath))).2.fs.node scratchDir
      = none := by
  by_cases htmp : p.fs.node ["tmp".toList] = some .dir
  · have hclean : p.fs.removable env.rmShell.stuck scratchDir = true := by
      rw [removable, List.all_eq_true]
      intro s hs
      have hpre : scratchDir.isPrefixOf s = false := by
        rw [← Bool.not_eq_true, List.isPrefixOf_iff_prefix]
        exact hrm.unstuck s hs
      simp [hpre]
    rw [system_removal env.rmShell p htmp, if_pos hrm.available]
    exact p.fs.node_rmTree_inside scratchDir (by decide) hclean (List.prefix_refl _)
  · -- without /tmp there is nothing to remove
    have hnone : p.fs.node scratchDir = none := by
      by_contra hne
      exact htmp (p.fs.node_parent hne)
    have hline : snprintf 1024 ("rm -rf ".toList ++ buildLayerPath)
        = "rm -rf ".toList ++ buildLayerPath := snprintf_of_lt (by decide)
    have hword : LiteralWord buildLayerPath := PlainWord.literal (by decide)
    have hdash : buildLayerPath.head? ≠ some '-' := by decide
    rw [hline, Process.system, Shell.system, if_pos hrm.available, parseRm_literal hword hdash]
    exact rmOperands_none _ _ _ _ hnone

/-- One build that is refused or cleans up. -/
theorem emptyScratch_buildStep {c : BuildCall} (hempty : EmptyScratch p.fs)
    (h : CleansUp (transition buildStep c p)) : EmptyScratch (buildStep c p).2.fs := by
  rcases h with hrefused | ⟨hzero, hrm⟩
  · have hsame : (buildStep c p).2 = p := by
      cases hfile : c.dockerfile with
      | none =>
        rw [buildStep, hfile]
        rfl
      | some dockerfile =>
        rw [buildStep, hfile, buildImageFromDockerfile, if_pos (hrefused dockerfile hfile)]
    rw [hsame]
    exact hempty
  · cases hfile : c.dockerfile with
    | none =>
      have hfail : (buildStep c p).1 = -1 := by rw [buildStep, hfile]; rfl
      have hzero : (buildStep c p).1 = 0 := hzero
      rw [hfail] at hzero
      simp at hzero
    | some dockerfile =>
      have hstep : buildStep c p = buildImageFromDockerfile (some dockerfile) c.imageName c.tag
          c.contextPath c.env p := by rw [buildStep, hfile]
      have hzero : (buildStep c p).1 = 0 := hzero
      rw [hstep] at hzero ⊢
      obtain ⟨-, built, created, -, -, hend⟩ := buildImage_zero hzero
      rw [hend]
      exact emptyScratch_of_missing (scratch_removed hrm created)

theorem cleansUp_of_zero {c : BuildCall} (hzero : (buildStep c p).1 = 0) (hrm : c.env.Removes) :
    CleansUp (transition buildStep c p) :=
  Or.inr ⟨hzero, hrm⟩

/-- A run from a clean state whose builds are refused or clean up: every
build of it starts clean. -/
theorem starts_clean (hempty : EmptyScratch p.fs)
    (hargs : ∀ c ∈ calls, ∀ dockerfile, c.dockerfile = some dockerfile →
      ∀ i ∈ dockerfile.instructions, PlainRun i)
    (hclean : ∀ t ∈ transitions buildStep calls p, CleansUp t) :
    ∀ t ∈ transitions buildStep calls p, StartsClean t := by
  refine (forall_transitions buildStep (fun p => EmptyScratch p.fs)
    (fun t => CleansUp t ∧ t.action ∈ calls) StartsClean ?_ hempty ?_).1
  · rintro c s hs ⟨hcleans, hc⟩
    exact ⟨⟨hs, hargs c hc⟩, emptyScratch_buildStep hs hcleans⟩
  · intro t ht
    obtain ⟨c, hc, s, rfl⟩ := exists_of_mem_transitions ht
    exact ⟨hclean _ ht, hc⟩

end CleanUp

/-! ## 5. A failed build -/

def parsedFile (text : String) : Dockerfile :=
  (parseText grantedEnv text.toList).getD emptyDockerfile

def buildCall (text name : String) (now : Int64) : BuildCall where
  dockerfile := some (parsedFile text)
  imageName := name.toList
  tag := some "latest".toList
  contextPath := []
  env := grantedBuild now

/-- It fails at the COPY. -/
def failingCall : BuildCall := buildCall "FROM ubuntu\nENV A=1\nCOPY app /app\n" "app" 1705230833

def apiFile : Dockerfile := parsedFile "FROM ubuntu\nENV B=2\n"

def apiCall : BuildCall := buildCall "FROM ubuntu\nENV B=2\n" "api" 1705230834

/-- A second build after a first one. -/
def webBuild : BuildCall := buildCall "FROM ubuntu\nENV A=1\n" "web" 1705230833

theorem storeProcess_empty : EmptyScratch storeProcess.fs :=
  emptyScratch_of_missing (by decide)

theorem web_api_built : (buildStep webBuild storeProcess).1 = 0 ∧
    (buildStep apiCall (buildStep webBuild storeProcess).2).1 = 0 := by
  decide +kernel

theorem web_cleans_up :
    ∀ t ∈ transitions buildStep [webBuild, apiCall] storeProcess, CleansUp t := by
  obtain ⟨hweb, hapi⟩ := web_api_built
  have hrm : ∀ now, (grantedBuild now).Removes := fun now => ⟨rfl, by simp [grantedBuild, utilities]⟩
  intro t ht
  rcases List.mem_cons.mp ht with rfl | ht
  · exact cleansUp_of_zero hweb (hrm _)
  · rw [List.mem_singleton.mp ht]
    exact cleansUp_of_zero hapi (hrm _)

/-- A dockerfile without RUN. -/
theorem plainRun_of_noRun {dockerfile : Dockerfile}
    (h : ∀ i ∈ dockerfile.instructions, i.type ≠ .RUN) :
    ∀ i ∈ dockerfile.instructions, PlainRun i :=
  fun i hi hrun => absurd hrun (h i hi)

theorem web_args : ∀ c ∈ [webBuild, apiCall], ∀ dockerfile, c.dockerfile = some dockerfile →
    ∀ i ∈ dockerfile.instructions, PlainRun i := by
  have hweb : ∀ i ∈ (parsedFile "FROM ubuntu\nENV A=1\n").instructions, i.type ≠ .RUN := by
    decide
  have hapi : ∀ i ∈ apiFile.instructions, i.type ≠ .RUN := by
    decide
  intro c hc dockerfile hfile
  rcases List.mem_cons.mp hc with rfl | hc
  · obtain rfl : parsedFile "FROM ubuntu\nENV A=1\n" = dockerfile := Option.some.inj hfile
    exact plainRun_of_noRun hweb
  · rw [List.mem_singleton.mp hc] at hfile
    obtain rfl : apiFile = dockerfile := Option.some.inj hfile
    exact plainRun_of_noRun hapi

theorem api_independent :
    (buildStep apiCall (buildStep webBuild storeProcess).2).1 = 0 ∧
    ∀ t ∈ transitions buildStep [webBuild, apiCall] storeProcess,
      DependsOnDockerfile (fun text => text ++ ['\n']) t := by
  refine ⟨web_api_built.2, builds_independent (fun c hc => ?_)
    (starts_clean storeProcess_empty web_args web_cleans_up)⟩
  rcases List.mem_cons.mp hc with rfl | hc
  · exact fun _ => utilities_echoes
  · rw [List.mem_singleton.mp hc]
    exact fun _ => utilities_echoes

/-- The environment of the second build starts with that of the first. -/
theorem failed_build_leaks : ¬ ∀ t ∈ transitions buildStep [failingCall, apiCall] storeProcess,
    DependsOnDockerfile (fun text => text ++ ['\n']) t := by
  intro h
  have hruns : (buildStep apiCall (buildStep failingCall storeProcess).2).1 = 0 ∧
      (buildLayer apiFile [] (grantedBuild 1705230834) storeProcess).1 = 0 ∧
      (buildLayer apiFile [] (grantedBuild 1705230834)
        (buildStep failingCall storeProcess).2).2.fs.node (inLayer "environment")
      ≠ (buildLayer apiFile [] (grantedBuild 1705230834) storeProcess).2.fs.node
        (inLayer "environment") := by
    decide +kernel
  obtain ⟨hzero, hfresh, hdiff⟩ := hruns
  obtain ⟨handed, hbuild⟩ := Process.exists_of_result hfresh
  have hsame := h _ (List.mem_cons_of_mem _ (List.mem_singleton.mpr rfl)) apiFile rfl hzero []
    (grantedBuild 1705230834) storeProcess handed (fun _ => utilities_echoes) (by decide) hbuild
    ["environment".toList]
  rw [hbuild] at hdiff
  exact hdiff hsame

end DockerClone.Build
