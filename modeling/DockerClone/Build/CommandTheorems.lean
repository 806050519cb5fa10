/-
DockerClone.Build.CommandTheorems — text that becomes part of a command
line.

`run_command` puts a RUN argument between single quotes, `remove_image`
puts an image id behind a path, both as they are. The shell takes them
for text exactly when there is no single quote in the one
(`isEcho_echoLine_iff`) and nothing special to the shell in the other
(`removes_iff`).
-/
import DockerClone.Build.StepTheorems
import DockerClone.Image.RemoveTheorems

namespace DockerClone.Build

open DockerClone.CLib DockerClone.Os DockerClone.Os.FileSystem DockerClone.Image

/-! ## 1. RUN arguments -/

/-- The first command line given to `system` is one `echo` of the script,
redirected to the script's file. -/
def ScriptEchoed (command layerPath : List Char) (p p' : Process) : Prop :=
  ∀ line, (p.since p').head? = some (.system line) →
    IsEcho line (scriptText command) (scriptPath layerPath)

theorem isEcho_echoLine_iff {layerPath command : List Char} (hlayer : LayerPath layerPath)
    (hcommand : command.length ≤ 511) :
    IsEcho (echoLine command layerPath) (scriptText command) (scriptPath layerPath) ↔
      '\'' ∉ command := by
  have hbash : '\'' ∉ "#!/bin/bash\n".toList := by decide
  rw [echoLine_eq hlayer hcommand]
  constructor
  · intro hecho hquote
    refine not_isEcho_echoCommand ?_ hlayer.script hecho
    exact List.mem_append_right _ hquote
  · intro hquote
    refine isEcho_echoCommand (fun hm => ?_) hlayer.script
    rcases List.mem_append.mp hm with hm | hm
    · exact hbash hm
    · exact hquote hm

theorem scriptEchoed_iff {layerPath command : List Char} (hlayer : LayerPath layerPath)
    (hcommand : command.length ≤ 511) (sh : Shell) (p : Process) :
    ScriptEchoed command layerPath p (runCommand command layerPath sh p).2 ↔ '\'' ∉ command := by
  rw [← isEcho_echoLine_iff hlayer hcommand]
  have hfirst : (p.since (runCommand command layerPath sh p).2).head?
      = some (.system (echoLine command layerPath)) := by
    rcases (runCommand_calls command layerPath sh p).2 with hcalls | hcalls
    · rw [Process.since_append hcalls]
      rfl
    · rw [Process.since_append hcalls]
      rfl
  constructor
  · intro h
    exact h _ hfirst
  · intro h line hline
    rw [hfirst] at hline
    rw [← Call.system.inj (Option.some.inj hline)]
    exact h

/-! ## 2. Image ids -/

/-- Every command line given to `system` is one `rm` of the layer
directory named like the image. -/
def LayerRemoved (imageId : List Char) (p p' : Process) : Prop :=
  ∀ line, .system line ∈ p.since p' → simpleCommand line
    = some
      { words := ["rm".toList, "-rf".toList, LAYER_STORAGE_DIR.toList ++ '/' :: imageId]
        output := none }

/-- An id that the shell passes on as it stands and that is not cut. -/
structure PlainId (imageId : List Char) : Prop where
  no_special : ∀ c ∈ imageId, isSpecialChar c = false
  no_pattern : isPattern (pieces false imageId) = false
  short : imageId.length ≤ 492

/-- The front of the operand. -/
def layerFront : List Char := LAYER_STORAGE_DIR.toList ++ ['/']

theorem literalWord_layerFront : LiteralWord layerFront := PlainWord.literal (by decide)

theorem length_layerFront : layerFront.length = 19 := by decide

theorem removeLine_iff (imageId : List Char) :
    simpleCommand (snprintf 1024 ("rm -rf ".toList ++ layerPath imageId))
        = some
          { words := ["rm".toList, "-rf".toList, LAYER_STORAGE_DIR.toList ++ '/' :: imageId]
            output := none } ↔
      PlainId imageId := by
  have hword : LAYER_STORAGE_DIR.toList ++ '/' :: imageId = layerFront ++ imageId := by
    rw [layerFront, List.append_assoc, List.singleton_append]
  have hrm : "rm -rf ".toList.length = 7 := by decide
  have hlen : (layerPath imageId).length ≤ 511 := by
    rw [layerPath, snprintf, List.length_take]
    exact Nat.min_le_left _ _
  have hline : snprintf 1024 ("rm -rf ".toList ++ layerPath imageId)
      = "rm -rf ".toList ++ layerPath imageId := by
    refine snprintf_of_lt ?_
    rw [List.length_append, hrm]
    omega
  rw [hline, hword]
  by_cases hshort : imageId.length ≤ 492
  · have hpath : layerPath imageId = layerFront ++ imageId := by
      rw [layerPath, hword, snprintf_of_lt]
      rw [List.length_append, length_layerFront, Image.MAX_PATH_LEN]
      omega
    rw [hpath, simpleCommand_rm_iff literalWord_layerFront (by decide)]
    constructor
    · rintro ⟨hspecial, hpattern⟩
      exact ⟨hspecial, hpattern, hshort⟩
    · intro h
      exact ⟨h.no_special, h.no_pattern⟩
  · constructor
    · intro h
      -- the operand is cut
      exfalso
      obtain ⟨-, -, hsize⟩ := simpleCommand_some h
      rw [fold_rm] at hsize
      have hemit := Lexer.fold_emitted (layerPath imageId)
        { mode := .plain, word := none,
          tokens := [.word (pieces false "rm".toList), .word (pieces false "-rf".toList)] }
      have hstart : Lexer.emitted
          { mode := .plain, word := none,
            tokens := [.word (pieces false "rm".toList), .word (pieces false "-rf".toList)] }
          = 5 := by decide
      have hpending : Lexer.pending
          { mode := .plain, word := none,
            tokens := [.word (pieces false "rm".toList), .word (pieces false "-rf".toList)] }
          = 0 := rfl
      have hfields : SimpleCommand.size
          { words := ["rm".toList, "-rf".toList, layerFront ++ imageId], output := none }
          = 5 + (19 + imageId.length) := by
        have htwo : "rm".toList.length = 2 := by decide
        have hthree : "-rf".toList.length = 3 := by decide
        simp only [SimpleCommand.size, List.map_cons, List.map_nil, List.sum_cons, List.sum_nil,
          List.length_append, length_layerFront, htwo, hthree, Option.getD_none, List.length_nil]
        omega
      rw [hfields] at hsize
      rw [hstart, hpending] at hemit
      omega
    · intro h
      exact absurd h.short hshort

/-- What `remove_image` gives to `system`. -/
theorem removeImage_calls (imageId : List Char) (denied : Bool) (sh : Shell) (p : Process) :
    ((∃ e, p.fs.unlink p.cwd (metadataPath imageId) denied = .error e) ∧
        p.since (removeImage imageId denied sh p).2 = []) ∨
      (∃ fs, p.fs.unlink p.cwd (metadataPath imageId) denied = .ok fs) ∧
        p.since (removeImage imageId denied sh p).2
          = [.system (snprintf 1024 ("rm -rf ".toList ++ layerPath imageId))] := by
  rw [removeImage]
  cases hun : p.fs.unlink p.cwd (metadataPath imageId) denied with
  | error e => exact Or.inl ⟨⟨e, rfl⟩, Process.since_append (by simp)⟩
  | ok fs =>
    refine Or.inr ⟨⟨fs, rfl⟩, Process.since_append ?_⟩
    simp only
    split
    · rfl
    · rfl

/-- An id whose metadata file is there. -/
def HasMetadata (imageId : List Char) (p : Process) : Prop :=
  ∃ f text, p.fs.resolve p.cwd (metadataPath imageId) = .ok f ∧ p.fs.node f = some (.file text)

theorem layerRemoved_iff {imageId : List Char} {p : Process} (hfile : HasMetadata imageId p)
    (denied : Bool) (sh : Shell) :
    LayerRemoved imageId p (removeImage imageId denied sh p).2 ↔
      denied = true ∨ PlainId imageId := by
  obtain ⟨f, text, hresolve, hnode⟩ := hfile
  rcases removeImage_calls imageId denied sh p with ⟨⟨e, hun⟩, hsince⟩ | ⟨⟨fs, hun⟩, hsince⟩
  · have hdenied : denied = true := by
      by_contra hno
      obtain ⟨fs, hok⟩ := unlink_ok_iff.mpr ⟨Bool.eq_false_iff.mpr hno, f, text, hresolve, hnode⟩
      rw [hok] at hun
      simp at hun
    refine iff_of_true ?_ (Or.inl hdenied)
    intro line hline
    rw [hsince] at hline
    simp at hline
  · obtain rfl : denied = false := (unlink_ok_iff.mp ⟨fs, hun⟩).1
    rw [← removeLine_iff, LayerRemoved, hsince]
    simp

/-! ## 3. Command lines -/

/-- A RUN argument that fits its array, and an image id whose metadata
file is there: the one is echoed as text exactly when it has no single
quote; the other is one operand of `rm` exactly when the unlink before it
is denied, or nothing in it is special to the shell or a pattern and it
is not cut. -/
theorem commands_quoted_iff {layerPath command imageId : List Char} (hlayer : LayerPath layerPath)
    (hcommand : command.length ≤ 511) (sh : Shell) (p : Process) {rmProcess : Process}
    (hfile : HasMetadata imageId rmProcess) (denied : Bool) (rmShell : Shell) :
    (ScriptEchoed command layerPath p (runCommand command layerPath sh p).2 ↔ '\'' ∉ command) ∧
      (LayerRemoved imageId rmProcess (removeImage imageId denied rmShell rmProcess).2 ↔
        denied = true ∨ PlainId imageId) :=
  ⟨scriptEchoed_iff hlayer hcommand sh p, layerRemoved_iff hfile denied rmShell⟩

/-- A store with the metadata of one image. -/
def imageHost (file : Name) : List (Path × Node) :=
  [([], .dir), (["tmp".toList], .dir), (["tmp".toList, "docker-metadata".toList], .dir),
    (["tmp".toList, "docker-metadata".toList, file], .file [])]

def webHost : FileSystem := .ofEntries (imageHost "web:latest.json".toList) (by decide)

def webProcess : Process := { fs := webHost, cwd := [], calls := [] }

theorem webHost_hasMetadata : HasMetadata "web:latest".toList webProcess :=
  ⟨["tmp".toList, "docker-metadata".toList, "web:latest.json".toList], [], by decide,
    by decide⟩

theorem web_commands :
    ScriptEchoed "make install".toList buildLayerPath scratchProcess
        (runCommand "make install".toList buildLayerPath utilities scratchProcess).2 ∧
      LayerRemoved "web:latest".toList webProcess
        (removeImage "web:latest".toList false utilities webProcess).2 := by
  have hshort : "make install".toList.length ≤ 511 := by decide
  obtain ⟨hscript, hlayer⟩ := commands_quoted_iff buildLayerPath_layerPath hshort utilities
    scratchProcess webHost_hasMetadata false utilities
  exact ⟨hscript.mpr (by decide), hlayer.mpr (Or.inr ⟨by decide, by decide, by decide⟩)⟩

/-- The metadata of an image with a semicolon in its name are there. -/
def semicolonHost : FileSystem := .ofEntries (imageHost "a;reboot.json".toList) (by decide)

def semicolonProcess : Process := { fs := semicolonHost, cwd := [], calls := [] }

theorem semicolonHost_hasMetadata : HasMetadata "a;reboot".toList semicolonProcess :=
  ⟨["tmp".toList, "docker-metadata".toList, "a;reboot.json".toList], [], by decide,
    by decide⟩

/-- A quote in a RUN ends the argument, a semicolon in an id the
command. -/
theorem syntax_in_data :
    ¬ ScriptEchoed "echo 'hi'".toList buildLayerPath scratchProcess
        (runCommand "echo 'hi'".toList buildLayerPath utilities scratchProcess).2 ∧
      ¬ LayerRemoved "a;reboot".toList semicolonProcess
        (removeImage "a;reboot".toList false utilities semicolonProcess).2 := by
  constructor
  · intro h
    have hquote := (scriptEchoed_iff buildLayerPath_layerPath (by decide) utilities
      scratchProcess).mp h
    exact hquote (by decide)
  · intro h
    have hplain := (layerRemoved_iff semicolonHost_hasMetadata false utilities).mp h
    rcases hplain with hdenied | hplain
    · simp at hdenied
    · exact absurd (hplain.no_special ';' (by decide)) (by decide)

end DockerClone.Build
