/-
DockerClone.Build.CopyTheorems — COPY and ADD.

`copy_files` splits its first argument at spaces and calls itself on the
first word. A word has no space in it, so the inner call finds no
destination, and its -1 is the result. No file is looked at on the way.
-/
import DockerClone.Build.SummaryTheorems

namespace DockerClone.Build

open DockerClone.CLib DockerClone.Os DockerClone.Os.FileSystem

/-- A step of this type copies from the context. -/
def Copies (i : DockerfileInstruction) : Prop := i.type = .COPY ∨ i.type = .ADD

theorem addFiles_eq (args layerPath contextPath : List Char) :
    addFiles args layerPath contextPath = -1 :=
  copyFiles_eq args layerPath contextPath

theorem executeInstruction_copy {i : DockerfileInstruction} (hi : Copies i)
    (contextPath layerPath : List Char) (env : StepEnv) (p : Process) :
    executeInstruction i contextPath layerPath env p = (-1, p) := by
  rcases hi with htype | htype
  · rw [executeInstruction_eq, htype]
    rfl
  · rw [executeInstruction_eq, htype]
    rfl

/-- The loop stops at such a step, if not before. -/
theorem executeInstructions_copy (contextPath layerPath : List Char) (env : Nat → StepEnv) :
    ∀ (instructions : List DockerfileInstruction) (k : Nat) (p : Process),
      (∃ i ∈ instructions, Copies i) →
        (executeInstructions contextPath layerPath env k instructions p).1 = -1
  | [], _, _, h => by simp at h
  | i :: rest, k, p, h => by
      rw [executeInstructions]
      split
      · rfl
      · rename_i hzero
        refine executeInstructions_copy contextPath layerPath env rest (k + 1) _ ?_
        obtain ⟨j, hj, hcopies⟩ := h
        rcases List.mem_cons.mp hj with rfl | hj
        · rw [executeInstruction_copy hcopies] at hzero
          simp at hzero
        · exact ⟨j, hj, hcopies⟩

theorem build_copy {dockerfile : Dockerfile} (h : ∃ i ∈ dockerfile.instructions, Copies i)
    (imageName : List Char) (tag : Option (List Char)) (contextPath : List Char) (env : BuildEnv)
    (p : Process) :
    (buildImageFromDockerfile (some dockerfile) imageName tag contextPath env p).1 = -1 := by
  have hlayer : (buildLayer dockerfile contextPath env p).1 = -1 := by
    rw [buildLayer]
    split
    · rfl
    · exact executeInstructions_copy contextPath buildLayerPath env.step _ 0 _ h
  rw [buildImageFromDockerfile]
  simp only
  split
  · rfl
  · rw [if_pos]
    rw [hlayer]
    decide

/-- Neither COPY nor ADD ever succeeds, whatever the arguments and the
directories are, and no build with one of them does. -/
theorem copy_never_succeeds (args layerPath contextPath : List Char) (dockerfile : Dockerfile)
    (imageName : List Char) (tag : Option (List Char)) (env : BuildEnv) (p : Process) :
    copyFiles args layerPath contextPath = -1 ∧ addFiles args layerPath contextPath = -1 ∧
    ((∃ i ∈ dockerfile.instructions, Copies i) →
      (buildImageFromDockerfile (some dockerfile) imageName tag contextPath env p).1 = -1) :=
  ⟨copyFiles_eq args layerPath contextPath, addFiles_eq args layerPath contextPath,
    fun h => build_copy h imageName tag contextPath env p⟩

/-- `FROM scratch` and `COPY a b`. -/
def copyFile : Dockerfile :=
  { emptyDockerfile with
    instructions := [instructionOf .FROM "FROM" "scratch", instructionOf .COPY "COPY" "a b"] }

/-- The layer's directory, and a context with the file `a`. -/
def copyHost : FileSystem :=
  .ofEntries [([], .dir), (["tmp".toList], .dir),
    (["tmp".toList, "docker-build-layer".toList], .dir), (["ctx".toList], .dir),
    (["ctx".toList, "a".toList], .file ['x'])] (by decide)

theorem copyFile_fails :
    (buildImageFromDockerfile (some copyFile) "web".toList none "/ctx".toList (grantedBuild 1)
      { fs := copyHost, cwd := [], calls := [] }).1 = -1 :=
  (copy_never_succeeds "a b".toList buildLayerPath "/ctx".toList copyFile "web".toList none
    (grantedBuild 1) { fs := copyHost, cwd := [], calls := [] }).2.2
    ⟨instructionOf .COPY "COPY" "a b", by simp [copyFile], Or.inl rfl⟩

/-- The source is there, the destination can be written, and the copy
fails. -/
theorem present_source_not_copied :
    copyHost.access [] "/ctx/a".toList = true ∧
    copyHost.writeTarget [] "/tmp/docker-build-layer/b".toList false
      = some ["tmp".toList, "docker-build-layer".toList, "b".toList] ∧
    ¬ copyFiles "a b".toList buildLayerPath "/ctx".toList = 0 := by
  refine ⟨by decide, by decide, ?_⟩
  rw [copyFiles_eq]
  decide

end DockerClone.Build
