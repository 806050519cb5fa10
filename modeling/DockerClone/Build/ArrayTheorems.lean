/-
DockerClone.Build.ArrayTheorems — when the summary arrays overrun.

The guard of each summary array is a macro as it stands where
`dockerfile.c` tests it, and the size of the array is the macro as it
stood where `dockerfile_t` was declared. For ports and volumes the two
are the same number. `MAX_ENV_VAR_LEN` was 256 in `dockerfile.h` and is
512 once `image.h` is included, so the guard of `env_vars` and `labels`
lets twice as many elements in as the arrays have.

`lineTypes` reads the types of the instructions off the lines, and
`Counted` is the invariant of the loop: each count is the number of its
instructions so far, up to the guard. With the capacity of the array and
the flag of a continuation it makes up `ReadTo`, which a line that gets
its memory takes on (`parseLine_spec`).
-/
import DockerClone.Build.ParseTheorems
import Mathlib.Algebra.Ring.Nat

namespace DockerClone.Build

open DockerClone.CLib DockerClone.Os

/-! ## 1. The arrays -/

/-- Every count is at most the size of its array. -/
structure FitsArrays (dockerfile : Dockerfile) : Prop where
  envVars : dockerfile.envVars.length ≤ DECLARED_ENV_VAR_LEN
  exposedPorts : dockerfile.exposedPorts.length ≤ MAX_PORT_LEN
  volumes : dockerfile.volumes.length ≤ MAX_VOLUME_LEN
  labels : dockerfile.labels.length ≤ DECLARED_ENV_VAR_LEN

/-- The loop's variables before the first line. -/
def startState : ParseState where
  lineNumber := 0
  inContinuation := false
  dockerfile := emptyDockerfile

/-- The lines the first `k` iterations read. -/
def linesRead (text : List Char) (k : Nat) : List (List Char) :=
  (fgetsLines MAX_LINE_LEN text).take k

/-- The loop after `k` iterations. -/
def runAfter (env : ParseEnv) (text : List Char) (k : Nat) : ParseRun :=
  parseLinesWithin env (linesRead text k) startState

/-- No store so far went past an array, and the counts are in bounds. -/
def ParseRun.Fits : ParseRun → Prop
  | .reading s => FitsArrays s.dockerfile
  | .outOfMemory => True
  | .overrun => False

/-- The type of the instruction on a trimmed line. -/
def lineType (trimmed : List Char) : Option InstructionType :=
  match strchr trimmed ' ' with
  | none => none
  | some space =>
      let type := getInstructionType (trimmed.take (trimmed.length - space.length))
      if type = .UNKNOWN then none else some type

/-- The types of the instructions on these lines; the line behind a
backslash is none. -/
def lineTypes : Bool → List (List Char) → List InstructionType
  | _, [] => []
  | inContinuation, line :: lines =>
      let trimmed := trimWhitespace (cstr line)
      if trimmed = [] ∨ trimmed.head? = some '#' then lineTypes inContinuation lines
      else if isContinuationLine trimmed then lineTypes true lines
      else if inContinuation then lineTypes false lines
      else (lineType trimmed).toList ++ lineTypes false lines

/-- The trimmed lines behind a backslash. -/
def continuedTexts : Bool → List (List Char) → List (List Char)
  | _, [] => []
  | inContinuation, line :: lines =>
      let trimmed := trimWhitespace (cstr line)
      if trimmed = [] ∨ trimmed.head? = some '#' then continuedTexts inContinuation lines
      else if isContinuationLine trimmed then continuedTexts true lines
      else if inContinuation then trimmed :: continuedTexts false lines
      else continuedTexts false lines

/-- The requests for memory that so many instructions make are granted:
the array has ten elements and doubles when it is full. -/
def MemoryLasts (env : ParseEnv) (count : Nat) : Prop :=
  ∀ i, 10 * 2 ^ i < count → env.resized (10 * 2 ^ (i + 1)) = true

/-- Behind instructions of these types the lines hold no more ENV and no
more LABEL instructions than the arrays have elements, and what follows a
backslash fits the buffer. -/
structure InsideArrays (types : List InstructionType) (inContinuation : Bool)
    (lines : List (List Char)) : Prop where
  envVars : (types ++ lineTypes inContinuation lines).count .ENV ≤ DECLARED_ENV_VAR_LEN
  labels : (types ++ lineTypes inContinuation lines).count .LABEL ≤ DECLARED_ENV_VAR_LEN
  continued : ∀ trimmed ∈ continuedTexts inContinuation lines, trimmed.length + 2 ≤ MAX_LINE_LEN

instance (types : List InstructionType) (inContinuation : Bool) (lines : List (List Char)) :
    Decidable (InsideArrays types inContinuation lines) :=
  decidable_of_iff ((types ++ lineTypes inContinuation lines).count .ENV ≤ DECLARED_ENV_VAR_LEN ∧
      (types ++ lineTypes inContinuation lines).count .LABEL ≤ DECLARED_ENV_VAR_LEN ∧
      ∀ trimmed ∈ continuedTexts inContinuation lines, trimmed.length + 2 ≤ MAX_LINE_LEN)
    ⟨fun h => ⟨h.1, h.2.1, h.2.2⟩, fun h => ⟨h.envVars, h.labels, h.continued⟩⟩

/-! ## 2. One iteration -/

/-- The counts of the summary, from the types stored so far. -/
structure Counted (types : List InstructionType) (dockerfile : Dockerfile) : Prop where
  envVars : dockerfile.envVars.length = min (types.count .ENV) MAX_ENV_VAR_LEN
  exposedPorts : dockerfile.exposedPorts.length = min (types.count .EXPOSE) MAX_PORT_LEN
  volumes : dockerfile.volumes.length = min (types.count .VOLUME) MAX_VOLUME_LEN
  labels : dockerfile.labels.length = min (types.count .LABEL) MAX_ENV_VAR_LEN

section Iteration

variable {env : ParseEnv} {s s' : ParseState} {types : List InstructionType}
  {dockerfile : Dockerfile}

theorem counted_empty : Counted [] emptyDockerfile := ⟨rfl, rfl, rfl, rfl⟩

/-- One array behind its guard. -/
theorem length_guarded {field : List (List Char)} {limit : Nat} {type t : InstructionType}
    (h : field.length = min (types.count type) limit) (args : List Char) :
    (if t = type then (if field.length < limit then field ++ [args] else field)
        else field).length = min ((types ++ [t]).count type) limit := by
  rw [List.count_append, List.count_singleton]
  by_cases ht : t = type
  · rw [if_pos ht, ht, if_pos (beq_self_eq_true type)]
    split
    · rw [List.length_append, List.length_singleton]
      omega
    · omega
  · rw [if_neg ht, if_neg (by simpa using ht), h, Nat.add_zero]

theorem Counted.addInstruction (h : Counted types dockerfile) (t : InstructionType)
    (word args : List Char) (n : Int32) :
    Counted (types ++ [t]) (addInstruction t word args n dockerfile) where
  envVars := by
    rw [Build.addInstruction, summarise_envVars]
    exact length_guarded h.envVars args
  exposedPorts := by
    rw [Build.addInstruction, summarise_exposedPorts]
    exact length_guarded h.exposedPorts args
  volumes := by
    rw [Build.addInstruction, summarise_volumes]
    exact length_guarded h.volumes args
  labels := by
    rw [Build.addInstruction, summarise_labels]
    exact length_guarded h.labels args

/-- More room for instructions leaves the summary alone. -/
theorem Counted.resized (h : Counted types dockerfile) (capacity : Nat) :
    Counted types { dockerfile with capacity := capacity } :=
  ⟨h.envVars, h.exposedPorts, h.volumes, h.labels⟩

/-- The array of the instructions has doubled as often as it was full. -/
structure Grown (types : List InstructionType) (dockerfile : Dockerfile) : Prop where
  stored : dockerfile.instructions.length = types.length
  doubled : ∃ m, dockerfile.capacity = 10 * 2 ^ m ∧ types.length ≤ 10 * 2 ^ m ∧
    ∀ i < m, 10 * 2 ^ i < types.length

theorem length_addInstruction (t : InstructionType) (word args : List Char) (n : Int32) :
    (addInstruction t word args n dockerfile).instructions.length
      = dockerfile.instructions.length + 1 := by
  rw [Build.addInstruction, summarise_instructions, List.length_append, List.length_singleton]

theorem capacity_addInstruction (t : InstructionType) (word args : List Char) (n : Int32) :
    (addInstruction t word args n dockerfile).capacity = dockerfile.capacity := by
  rw [Build.addInstruction, summarise_capacity]

/-- A full array is as long as its capacity. -/
theorem Grown.full_iff (h : Grown types dockerfile) {m : Nat}
    (hm : dockerfile.capacity = 10 * 2 ^ m) :
    dockerfile.instructions.length ≥ dockerfile.capacity ↔ types.length = 10 * 2 ^ m := by
  obtain ⟨m', hcapacity, hle, -⟩ := h.doubled
  rw [h.stored, hm]
  rw [hcapacity] at hm
  omega

/-- Storing where there is room needs no memory. -/
theorem Grown.stored_more (h : Grown types dockerfile)
    (hroom : ¬ dockerfile.instructions.length ≥ dockerfile.capacity)
    (hmemory : MemoryLasts env types.length) (t : InstructionType) (word args : List Char)
    (n : Int32) :
    Grown (types ++ [t]) (addInstruction t word args n dockerfile) ∧
      MemoryLasts env (types ++ [t]).length := by
  obtain ⟨m, hcapacity, hle, hbelow⟩ := h.doubled
  rw [h.full_iff hcapacity] at hroom
  have hlength : (types ++ [t]).length = types.length + 1 := by simp
  refine ⟨⟨?_, m, ?_, ?_, fun i hi => ?_⟩, fun i hi => ?_⟩
  · rw [length_addInstruction, h.stored, hlength]
  · rw [capacity_addInstruction, hcapacity]
  · omega
  · have := hbelow i hi
    omega
  · rw [hlength] at hi
    by_cases hlt : 10 * 2 ^ i < types.length
    · exact hmemory i hlt
    · -- the array would be full
      have him : 2 ^ i < 2 ^ m := by omega
      exact hmemory i (hbelow i ((Nat.pow_lt_pow_iff_right (by decide)).mp him))

/-- Storing in a full array needs it to double. -/
theorem Grown.stored_full (h : Grown types dockerfile)
    (hfull : dockerfile.instructions.length ≥ dockerfile.capacity)
    (hmemory : MemoryLasts env types.length) (t : InstructionType) (word args : List Char)
    (n : Int32) :
    Grown (types ++ [t]) (addInstruction t word args n
        { dockerfile with capacity := dockerfile.capacity * 2 }) ∧
      (MemoryLasts env (types ++ [t]).length ↔ env.resized (dockerfile.capacity * 2) = true) := by
  obtain ⟨m, hcapacity, hle, hbelow⟩ := h.doubled
  rw [ge_iff_le, ← ge_iff_le, h.full_iff hcapacity] at hfull
  have hlength : (types ++ [t]).length = types.length + 1 := by simp
  have hnext : dockerfile.capacity * 2 = 10 * 2 ^ (m + 1) := by
    rw [hcapacity, Nat.pow_succ, Nat.mul_assoc]
  refine ⟨⟨?_, m + 1, ?_, ?_, fun i hi => ?_⟩, fun hlasts => ?_, fun hgranted i hi => ?_⟩
  · rw [length_addInstruction, hlength]
    exact congrArg (· + 1) h.stored
  · rw [capacity_addInstruction]
    exact hnext
  · rw [Nat.pow_succ]
    have hpos : 0 < 2 ^ m := Nat.two_pow_pos m
    omega
  · have hpow : 2 ^ i ≤ 2 ^ m := Nat.pow_le_pow_right (by decide) (by omega)
    omega
  · rw [hnext]
    exact hlasts m (by omega)
  · rw [hlength] at hi
    by_cases him : i < m
    · exact hmemory i (hbelow i him)
    · have hpow : 2 ^ i ≤ 2 ^ m := by omega
      have hsame : i = m := by
        have hle := (Nat.pow_le_pow_iff_right (a := 2) (by decide)).mp hpow
        omega
      rw [hsame, ← hnext]
      exact hgranted

/-- The state behind lines with instructions of these types. -/
structure ReadTo (env : ParseEnv) (types : List InstructionType) (inContinuation : Bool)
    (s : ParseState) : Prop where
  counted : Counted types s.dockerfile
  grown : Grown types s.dockerfile
  memory : MemoryLasts env types.length
  flag : s.inContinuation = inContinuation

theorem readTo_start (env : ParseEnv) : ReadTo env [] false startState where
  counted := counted_empty
  grown := ⟨rfl, 0, rfl, by simp, fun i hi => absurd hi (Nat.not_lt_zero i)⟩
  memory := fun i hi => absurd hi (Nat.not_lt_zero _)
  flag := rfl

/-- One instruction: memory runs out, or the state has it. -/
theorem parseInstruction_spec {c : Bool} (h : ReadTo env types c s) (trimmed : List Char) :
    (parseInstruction env trimmed s = none ∧
      ¬ MemoryLasts env (types ++ (lineType trimmed).toList).length) ∨
    ∃ s', parseInstruction env trimmed s = some s' ∧
      ReadTo env (types ++ (lineType trimmed).toList) c s' := by
  rw [parseInstruction, lineType]
  cases hspace : strchr trimmed ' ' with
  | none =>
    refine Or.inr ⟨s, rfl, ?_⟩
    simpa using h
  | some space =>
    simp only
    split
    · refine Or.inr ⟨s, rfl, ?_⟩
      simpa using h
    · split
      · rename_i hfull
        rw [Option.toList_some]
        obtain ⟨hgrown, hlasts⟩ := h.grown.stored_full hfull h.memory
          (getInstructionType (trimmed.take (trimmed.length - space.length)))
          (trimmed.take (trimmed.length - space.length)) (space.drop 1) s.lineNumber
        split
        · rename_i hgranted
          exact Or.inr ⟨_, rfl, (h.counted.resized _).addInstruction _ _ _ _, hgrown,
            hlasts.mpr hgranted, h.flag⟩
        · rename_i hrefused
          exact Or.inl ⟨rfl, fun hmemory => hrefused (hlasts.mp hmemory)⟩
      · rename_i hroom
        rw [Option.toList_some]
        obtain ⟨hgrown, hlasts⟩ := h.grown.stored_more hroom h.memory
          (getInstructionType (trimmed.take (trimmed.length - space.length)))
          (trimmed.take (trimmed.length - space.length)) (space.drop 1) s.lineNumber
        exact Or.inr ⟨_, rfl, h.counted.addInstruction _ _ _ _, hgrown, hlasts, h.flag⟩

/-- `in_continuation` behind a line. -/
def flagBehind (inContinuation : Bool) (line : List Char) : Bool :=
  let trimmed := trimWhitespace (cstr line)
  if trimmed = [] ∨ trimmed.head? = some '#' then inContinuation
  else isContinuationLine trimmed

theorem append_lineTypes (types : List InstructionType) (c : Bool) (line : List Char)
    (lines : List (List Char)) :
    types ++ lineTypes c (line :: lines)
      = types ++ lineTypes c [line] ++ lineTypes (flagBehind c line) lines := by
  rw [List.append_assoc, List.append_right_inj]
  simp only [lineTypes, flagBehind]
  split
  · rfl
  · cases hcont : isContinuationLine (trimWhitespace (cstr line)) with
    | true => rfl
    | false => cases c <;> simp

theorem continuedTexts_cons (c : Bool) (line : List Char) (lines : List (List Char)) :
    continuedTexts c (line :: lines)
      = continuedTexts c [line] ++ continuedTexts (flagBehind c line) lines := by
  simp only [continuedTexts, flagBehind]
  split
  · rfl
  · cases hcont : isContinuationLine (trimWhitespace (cstr line)) with
    | true => rfl
    | false => cases c <;> simp

/-- One iteration: memory runs out, or the state has what the line
adds. -/
theorem parseLine_spec {c : Bool} (h : ReadTo env types c s) (line : List Char) :
    (parseLine env line s = none ∧ ¬ MemoryLasts env (types ++ lineTypes c [line]).length) ∨
    ∃ s', parseLine env line s = some s' ∧
      ReadTo env (types ++ lineTypes c [line]) (flagBehind c line) s' := by
  rw [parseLine]
  simp only [lineTypes, flagBehind, h.flag]
  split
  · refine Or.inr ⟨_, rfl, ?_⟩
    rw [List.append_nil]
    exact ⟨h.counted, h.grown, h.memory, rfl⟩
  · split
    · rename_i hcont
      refine Or.inr ⟨_, rfl, ?_⟩
      rw [List.append_nil, hcont]
      exact ⟨h.counted, h.grown, h.memory, rfl⟩
    · rename_i hcont
      rw [Bool.eq_false_iff.mpr hcont]
      split
      · -- the buffer that is parsed instead is empty
        rw [cstr_continuationBuffer, parseInstruction_no_space env _ (by simp)]
        refine Or.inr ⟨_, rfl, ?_⟩
        rw [List.append_nil]
        exact ⟨h.counted, h.grown, h.memory, rfl⟩
      · rename_i hin
        obtain rfl := Bool.eq_false_iff.mpr hin
        rw [List.append_nil]
        exact parseInstruction_spec (s := { s with lineNumber := s.lineNumber + 1,
                                                   inContinuation := false })
          ⟨h.counted, h.grown, h.memory, rfl⟩ _

/-- As long as the counts are in bounds: a slot is inside exactly when
the count stays in bounds. -/
theorem summaryWithin_iff (h : Counted types dockerfile)
    (henvs : types.count .ENV ≤ DECLARED_ENV_VAR_LEN)
    (hlabels : types.count .LABEL ≤ DECLARED_ENV_VAR_LEN) (t : InstructionType) :
    summaryWithin t dockerfile = true ↔
      (types ++ [t]).count .ENV ≤ DECLARED_ENV_VAR_LEN ∧
      (types ++ [t]).count .LABEL ≤ DECLARED_ENV_VAR_LEN := by
  have henv := h.envVars
  have hlabel := h.labels
  have hsizes : DECLARED_ENV_VAR_LEN < MAX_ENV_VAR_LEN := by decide
  rw [List.count_append, List.count_append, List.count_singleton, List.count_singleton]
  cases t with
  | ENV =>
    simp only [summaryWithin, slotWithin, Bool.or_eq_true, decide_eq_true_eq]
    rw [if_pos (by decide), if_neg (by decide)]
    omega
  | LABEL =>
    simp only [summaryWithin, slotWithin, Bool.or_eq_true, decide_eq_true_eq]
    rw [if_neg (by decide), if_pos (by decide)]
    omega
  | EXPOSE | VOLUME =>
    simp only [summaryWithin, slotWithin, Bool.or_eq_true, decide_eq_true_eq]
    rw [if_neg (by decide), if_neg (by decide)]
    omega
  | _ =>
    simp only [summaryWithin, true_iff]
    rw [if_neg (by decide), if_neg (by decide)]
    omega

theorem instructionWithin_iff (h : Counted types dockerfile)
    (henvs : types.count .ENV ≤ DECLARED_ENV_VAR_LEN)
    (hlabels : types.count .LABEL ≤ DECLARED_ENV_VAR_LEN) (trimmed : List Char) :
    instructionWithin trimmed dockerfile = true ↔
      (types ++ (lineType trimmed).toList).count .ENV ≤ DECLARED_ENV_VAR_LEN ∧
      (types ++ (lineType trimmed).toList).count .LABEL ≤ DECLARED_ENV_VAR_LEN := by
  rw [instructionWithin, lineType]
  cases hspace : strchr trimmed ' ' with
  | none => simp [henvs, hlabels]
  | some space =>
    simp only
    split
    · rename_i hunknown
      rw [hunknown, Option.toList_none, List.append_nil]
      exact iff_of_true rfl ⟨henvs, hlabels⟩
    · rw [Option.toList_some]
      exact summaryWithin_iff h henvs hlabels _

/-- The stores of one iteration. -/
theorem lineWithin_iff {c : Bool} (h : ReadTo env types c s) (hinside : InsideArrays types c [])
    (line : List Char) : lineWithin line s = true ↔ InsideArrays types c [line] := by
  have henvs := hinside.envVars
  have hlabels := hinside.labels
  rw [lineTypes, List.append_nil] at henvs hlabels
  have hnone : InsideArrays types c [line] ↔
      (types ++ lineTypes c [line]).count .ENV ≤ DECLARED_ENV_VAR_LEN ∧
      (types ++ lineTypes c [line]).count .LABEL ≤ DECLARED_ENV_VAR_LEN ∧
      ∀ trimmed ∈ continuedTexts c [line], trimmed.length + 2 ≤ MAX_LINE_LEN :=
    ⟨fun h => ⟨h.1, h.2, h.3⟩, fun h => ⟨h.1, h.2.1, h.2.2⟩⟩
  rw [hnone, lineWithin]
  simp only [lineTypes, continuedTexts, h.flag]
  split
  · simp [henvs, hlabels]
  · split
    · simp [henvs, hlabels]
    · split
      · rw [cstr_continuationBuffer]
        simp [henvs, hlabels, continuationWithin, instructionWithin, strchr]
      · rw [List.append_nil, instructionWithin_iff h.counted henvs hlabels]
        simp

end Iteration

/-! ## 3. All iterations -/

section Iterations

variable {env : ParseEnv} {types : List InstructionType} {c : Bool} {s : ParseState}

/-- The arrays fit exactly as long as there are no more ENV and no more
LABEL instructions than elements. -/
theorem Counted.fits_iff {dockerfile : Dockerfile}
    (h : Counted types dockerfile) : FitsArrays dockerfile ↔
      types.count .ENV ≤ DECLARED_ENV_VAR_LEN ∧ types.count .LABEL ≤ DECLARED_ENV_VAR_LEN := by
  have henv := h.envVars
  have hports := h.exposedPorts
  have hvolumes := h.volumes
  have hlabels := h.labels
  have hsizes : DECLARED_ENV_VAR_LEN < MAX_ENV_VAR_LEN := by decide
  constructor
  · intro hfits
    have henvs := hfits.envVars
    have hlabs := hfits.labels
    omega
  · rintro ⟨henvs, hlabs⟩
    exact ⟨by omega, by omega, by omega, by omega⟩

/-- Lines are inside the arrays when the first one is and the others are
behind it. -/
theorem insideArrays_cons (line : List Char) (lines : List (List Char)) :
    InsideArrays types c (line :: lines) ↔ InsideArrays types c [line] ∧
      InsideArrays (types ++ lineTypes c [line]) (flagBehind c line) lines := by
  have htypes := append_lineTypes types c line lines
  have hfirst : ∀ t, (types ++ lineTypes c [line]).count t
      ≤ (types ++ lineTypes c (line :: lines)).count t := fun t => by
    rw [htypes]
    exact (List.sublist_append_left _ _).count_le t
  constructor
  · rintro ⟨henvs, hlabels, hcontinued⟩
    rw [continuedTexts_cons] at hcontinued
    refine ⟨⟨(hfirst _).trans henvs, (hfirst _).trans hlabels, fun t ht => ?_⟩,
      ⟨htypes ▸ henvs, htypes ▸ hlabels, fun t ht => ?_⟩⟩
    · exact hcontinued t (List.mem_append_left _ ht)
    · exact hcontinued t (List.mem_append_right _ ht)
  · rintro ⟨hline, hlines⟩
    refine ⟨htypes ▸ hlines.envVars, htypes ▸ hlines.labels, fun t ht => ?_⟩
    rw [continuedTexts_cons] at ht
    rcases List.mem_append.mp ht with ht | ht
    · exact hline.continued t ht
    · exact hlines.continued t ht

/-- Lines that are inside leave the counts in bounds. -/
theorem insideArrays_behind {lines : List (List Char)} (h : InsideArrays types c lines)
    (c' : Bool) : InsideArrays (types ++ lineTypes c lines) c' [] := by
  refine ⟨?_, ?_, fun t ht => absurd ht List.not_mem_nil⟩
  · rw [lineTypes, List.append_nil]
    exact h.envVars
  · rw [lineTypes, List.append_nil]
    exact h.labels

/-- From any state the loop can be in: every iteration stays inside the
arrays exactly when its lines do, as long as memory lasts. -/
theorem parseLinesWithin_fits_iff (lines : List (List Char)) (h : ReadTo env types c s)
    (hinside : InsideArrays types c []) :
    (∀ j, (parseLinesWithin env (lines.take j) s).Fits) ↔
      ∀ j, MemoryLasts env (types ++ lineTypes c (lines.take j)).length →
        InsideArrays types c (lines.take j) := by
  induction lines generalizing s types c with
  | nil =>
    have hfits : FitsArrays s.dockerfile := by
      have henvs := hinside.envVars
      have hlabels := hinside.labels
      rw [lineTypes, List.append_nil] at henvs hlabels
      exact h.counted.fits_iff.mpr ⟨henvs, hlabels⟩
    simp only [List.take_nil, parseLinesWithin]
    exact iff_of_true (fun _ => hfits) (fun _ _ => hinside)
  | cons line lines ih =>
    -- before the first line, and behind it
    have hstart : (parseLinesWithin env ((line :: lines).take 0) s).Fits :=
      h.counted.fits_iff.mpr ⟨by simpa [lineTypes] using hinside.envVars,
        by simpa [lineTypes] using hinside.labels⟩
    have hempty : MemoryLasts env (types ++ lineTypes c ((line :: lines).take 0)).length →
        InsideArrays types c ((line :: lines).take 0) := fun _ => hinside
    rw [← Nat.and_forall_add_one, and_iff_right hstart,
      ← Nat.and_forall_add_one (p := fun j => MemoryLasts env
        (types ++ lineTypes c ((line :: lines).take j)).length →
          InsideArrays types c ((line :: lines).take j)), and_iff_right hempty]
    have hcons : ∀ j, InsideArrays types c (line :: lines.take j) ↔ InsideArrays types c [line] ∧
        InsideArrays (types ++ lineTypes c [line]) (flagBehind c line) (lines.take j) :=
      fun j => insideArrays_cons line _
    have htypes : ∀ j, types ++ lineTypes c (line :: lines.take j)
        = types ++ lineTypes c [line] ++ lineTypes (flagBehind c line) (lines.take j) :=
      fun j => append_lineTypes types c line _
    simp only [List.take_succ_cons, parseLinesWithin, parseLineWithin, hcons, htypes]
    have hwithin := lineWithin_iff h hinside line
    rcases parseLine_spec h line with ⟨hnone, hmemory⟩ | ⟨s', hsome, hread⟩
    · -- no memory for the line's instruction, and no more lines
      simp only [hnone, ParseRun.Fits, forall_const, true_iff]
      intro j hlasts
      refine absurd (fun i hi => hlasts i (hi.trans_le ?_)) hmemory
      exact (List.sublist_append_left _ _).length_le
    · by_cases hline : InsideArrays types c [line]
      · simp only [hsome, hwithin.mpr hline, if_true, hline, true_and]
        exact ih hread (insideArrays_behind hline _)
      · simp only [hsome, hwithin, hline, if_false, ParseRun.Fits, false_and, imp_false]
        refine iff_of_false (fun hall => hall 0) (fun hall => hall 0 ?_)
        rw [List.take_zero, lineTypes, List.append_nil]
        exact hread.memory

theorem take_linesRead (text : List Char) (j k : Nat) :
    (linesRead text k).take j = linesRead text (min j k) := by
  rw [linesRead, linesRead, List.take_take]

theorem insideArrays_start : InsideArrays [] false [] := by decide

/-- For every text and every iteration: no store up to here went past an
array, and all counts were in bounds, exactly when the lines read before
memory ran out hold at most 256 ENV and at most 256 LABEL instructions
and none behind a backslash that is longer than 1022 characters. -/
theorem summary_fits_iff (env : ParseEnv) (text : List Char) (k : Nat) :
    (∀ j ≤ k, (runAfter env text j).Fits) ↔
      ∀ j ≤ k, MemoryLasts env (lineTypes false (linesRead text j)).length →
        InsideArrays [] false (linesRead text j) := by
  have hmin : ∀ {P : Nat → Prop}, (∀ j, P (min j k)) ↔ ∀ j ≤ k, P j := fun {P} =>
    ⟨fun hall j hj => by simpa [Nat.min_eq_left hj] using hall j,
      fun hall j => hall _ (Nat.min_le_right j k)⟩
  have hrun := parseLinesWithin_fits_iff (linesRead text k) (readTo_start env) insideArrays_start
  simp only [take_linesRead, List.nil_append] at hrun
  exact (hmin (P := fun j => (runAfter env text j).Fits)).symm.trans (hrun.trans
    (hmin (P := fun j => MemoryLasts env (lineTypes false (linesRead text j)).length →
      InsideArrays [] false (linesRead text j))))

end Iterations

/-- The sample file is inside. -/
theorem sample_fits : ∀ j ≤ 2, (runAfter grantedEnv sampleText j).Fits := by
  have hinside : ∀ j ≤ 2, InsideArrays [] false (linesRead sampleText j) := by decide
  exact (summary_fits_iff grantedEnv sampleText 2).mpr fun j hj _ => hinside j hj

/-- A dockerfile of 257 ENV lines. -/
def manyText : List Char := (List.replicate 257 "ENV A=1\n".toList).flatten

/-- The last of them is written behind the array. -/
theorem many_overrun : ¬ ∀ j ≤ 257, (runAfter grantedEnv manyText j).Fits := by
  intro hall
  have hfits : ∀ j, (parseLinesWithin grantedEnv ((linesRead manyText 257).take j) startState).Fits :=
    fun j => by
      rw [take_linesRead]
      exact hall _ (Nat.min_le_right j 257)
  have hinside := (parseLinesWithin_fits_iff _ (readTo_start grantedEnv) insideArrays_start).mp
    hfits 257 (fun _ _ => rfl)
  rw [take_linesRead, Nat.min_self] at hinside
  revert hinside
  decide +kernel

end DockerClone.Build
