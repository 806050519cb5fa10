/-
DockerClone.Container.RecordTheorems — the round trip of a container's
metadata.

Of the ten fields the reader knows, the three numbers come back from any
quote-free record and into any struct. A string comes back exactly under
`Returns`. Since every record is created with `started` and `finished`
empty, a struct that held something there before keeps it.
-/
import DockerClone.Container.Record

namespace DockerClone.Container

open DockerClone.CLib DockerClone.Metadata

/-- Reading the text of `r` over the struct `c` gives back the ten
fields the reader knows. -/
def RoundTrip (r c : ContainerInfo) : Prop :=
  cstr (readContainerText (containerText r) c).id = cstr r.id ∧
  cstr (readContainerText (containerText r) c).name = cstr r.name ∧
  cstr (readContainerText (containerText r) c).image = cstr r.image ∧
  cstr (readContainerText (containerText r) c).command = cstr r.command ∧
  (readContainerText (containerText r) c).state = r.state ∧
  (readContainerText (containerText r) c).pid = r.pid ∧
  cstr (readContainerText (containerText r) c).created = cstr r.created ∧
  cstr (readContainerText (containerText r) c).started = cstr r.started ∧
  cstr (readContainerText (containerText r) c).finished = cstr r.finished ∧
  (readContainerText (containerText r) c).exitCode = r.exitCode

/-- The seven strings of `r` come back over what `c` held. -/
def StringsReturn (r c : ContainerInfo) : Prop :=
  Returns "id" (cstr r.id) (cstr c.id) ∧
  Returns "name" (cstr r.name) (cstr c.name) ∧
  Returns "image" (cstr r.image) (cstr c.image) ∧
  Returns "command" (cstr r.command) (cstr c.command) ∧
  Returns "created" (cstr r.created) (cstr c.created) ∧
  Returns "started" (cstr r.started) (cstr c.started) ∧
  Returns "finished" (cstr r.finished) (cstr c.finished)

instance (r c : ContainerInfo) : Decidable (StringsReturn r c) := by
  unfold StringsReturn; infer_instance

section Strings

variable {r : ContainerInfo} (h : QuoteFree r) (hone : OneLined r) (c : ContainerInfo)

include h hone

theorem id_returns : cstr (readContainerText (containerText r) c).id = cstr r.id ↔
    Returns "id" (cstr r.id) (cstr c.id) := by
  have hs : containerSlots[0] ∈ containerSlots := List.getElem_mem (by decide)
  exact returns_iff h hone c hs (by simp [containerEntries, Entry.textAt])

theorem name_returns : cstr (readContainerText (containerText r) c).name = cstr r.name ↔
    Returns "name" (cstr r.name) (cstr c.name) := by
  have hs : containerSlots[1] ∈ containerSlots := List.getElem_mem (by decide)
  exact returns_iff h hone c hs (by simp [containerEntries, Entry.textAt])

theorem image_returns : cstr (readContainerText (containerText r) c).image = cstr r.image ↔
    Returns "image" (cstr r.image) (cstr c.image) := by
  have hs : containerSlots[2] ∈ containerSlots := List.getElem_mem (by decide)
  exact returns_iff h hone c hs (by simp [containerEntries, Entry.textAt])

theorem command_returns : cstr (readContainerText (containerText r) c).command = cstr r.command ↔
    Returns "command" (cstr r.command) (cstr c.command) := by
  have hs : containerSlots[3] ∈ containerSlots := List.getElem_mem (by decide)
  exact returns_iff h hone c hs (by simp [containerEntries, Entry.textAt])

theorem created_returns : cstr (readContainerText (containerText r) c).created = cstr r.created ↔
    Returns "created" (cstr r.created) (cstr c.created) := by
  have hs : containerSlots[6] ∈ containerSlots := List.getElem_mem (by decide)
  exact returns_iff h hone c hs (by simp [containerEntries, Entry.textAt])

theorem started_returns : cstr (readContainerText (containerText r) c).started = cstr r.started ↔
    Returns "started" (cstr r.started) (cstr c.started) := by
  have hs : containerSlots[7] ∈ containerSlots := List.getElem_mem (by decide)
  exact returns_iff h hone c hs (by simp [containerEntries, Entry.textAt])

theorem finished_returns : cstr (readContainerText (containerText r) c).finished = cstr r.finished ↔
    Returns "finished" (cstr r.finished) (cstr c.finished) := by
  have hs : containerSlots[8] ∈ containerSlots := List.getElem_mem (by decide)
  exact returns_iff h hone c hs (by simp [containerEntries, Entry.textAt])

end Strings

/-- The round trip restores the ten fields exactly when the seven strings
return. -/
theorem round_trip_iff_strings_return (r c : ContainerInfo) (h : QuoteFree r)
    (hone : OneLined r) : RoundTrip r c ↔ StringsReturn r c := by
  unfold RoundTrip StringsReturn
  rw [id_returns h hone, name_returns h hone, image_returns h hone, command_returns h hone,
    created_returns h hone, started_returns h hone, finished_returns h hone]
  simp [state_readContainerText h, pid_readContainerText h, exitCode_readContainerText h]

/-- A record as `create_container` writes it: never started. -/
def freshRecord : ContainerInfo :=
  { ContainerInfo.zeroed with
    id := store (zeros MAX_CONTAINER_ID_LEN) "cont_65a3c1f000000000".toList
    name := store (zeros MAX_CONTAINER_NAME_LEN) "web".toList
    image := store (zeros MAX_IMAGE_NAME_LEN) "ubuntu".toList
    created := store (zeros 32) "1705230832".toList }

/-- A struct in which an earlier call left a start time. -/
def staleStruct : ContainerInfo :=
  { ContainerInfo.zeroed with started := store (zeros 32) "1705230000".toList }

theorem freshRecord_round_trip :
    QuoteFree freshRecord ∧ OneLined freshRecord ∧ RoundTrip freshRecord ContainerInfo.zeroed := by
  have hquote : QuoteFree freshRecord := by decide
  have hone : OneLined freshRecord := by decide
  exact ⟨hquote, hone,
    (round_trip_iff_strings_return freshRecord .zeroed hquote hone).mpr (by decide)⟩

theorem freshRecord_keeps_stale_start :
    QuoteFree freshRecord ∧ OneLined freshRecord ∧ ¬ RoundTrip freshRecord staleStruct := by
  have hquote : QuoteFree freshRecord := by decide
  have hone : OneLined freshRecord := by decide
  refine ⟨hquote, hone, fun h => ?_⟩
  have hstart := (started_returns hquote hone staleStruct).mp h.2.2.2.2.2.2.2.1
  exact absurd hstart (by decide)

/-- No string disturbs the three numbers: they need no lines of one piece,
and come back over anything. -/
theorem lifecycle_numbers_return (r : ContainerInfo) (h : QuoteFree r) (c : ContainerInfo) :
    (readContainerText (containerText r) c).state = r.state ∧
    (readContainerText (containerText r) c).pid = r.pid ∧
    (readContainerText (containerText r) c).exitCode = r.exitCode :=
  ⟨state_readContainerText h c, pid_readContainerText h c, exitCode_readContainerText h c⟩

/-- A record whose strings look like lines of the file. -/
def disguisedRecord : ContainerInfo :=
  { freshRecord with
    name := "state\x00".toList
    command := "sh\n  state: 0,\n  pid: 1,\n  exit_code: 2,\n\x7d\n\x00".toList
    envVars := "pid\n\n\x7b\nexit_code\x00".toList
    state := 5
    pid := -1
    exitCode := -2147483648 }

theorem disguisedRecord_numbers_return : QuoteFree disguisedRecord ∧
    (readContainerText (containerText disguisedRecord) staleStruct).state = 5 ∧
    (readContainerText (containerText disguisedRecord) staleStruct).pid = -1 ∧
    (readContainerText (containerText disguisedRecord) staleStruct).exitCode = -2147483648 := by
  have hquote : QuoteFree disguisedRecord := by decide
  exact ⟨hquote, lifecycle_numbers_return disguisedRecord hquote staleStruct⟩

end DockerClone.Container
