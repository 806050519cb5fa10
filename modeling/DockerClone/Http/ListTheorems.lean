/-
DockerClone.Http.ListTheorems — how long the two list replies get.

An entry is printed into 512 bytes and cut there; the entries are appended
to 4096 bytes and nothing stops the last of them. So a list is answered
whole exactly when every entry and their sum stay below these numbers, and
both are sums over the lengths of the fields (`list_replies_whole_iff`).
-/
import DockerClone.Http.StatusTheorems

namespace DockerClone.Http

open DockerClone.CLib DockerClone.Container

/-! ## 1. Entries -/

/-- The length of the entry of a container, from those of its fields. -/
def containerLength (c : ContainerSummary) : Nat :=
  69 + (cstr c.id).length + (cstr c.name).length + (cstr c.image).length
    + (cstr c.command).length + (cstr c.created).length
    + if c.state = ContainerState.running.code then 7 else 6

def imageLength (i : ImageSummary) : Nat :=
  45 + (cstr i.id).length + (cstr i.name).length + (cstr i.tag).length
    + (cstr i.created).length + (cstr i.size).length

theorem length_containerText (c : ContainerSummary) :
    (containerText c).length = containerLength c := by
  unfold containerText containerLength
  split <;> simp <;> omega

theorem length_imageText (i : ImageSummary) : (imageText i).length = imageLength i := by
  unfold imageText imageLength
  simp
  omega

/-! ## 2. A reply -/

/-- Entries of these lengths fit: each below 512, and with the brackets
and a comma between two of them below 4096. -/
def EntriesFit (lengths : List Nat) : Prop :=
  (∀ n ∈ lengths, n < 512) ∧ lengths.sum + (lengths.length - 1) + 2 < 4096

instance (lengths : List Nat) : Decidable (EntriesFit lengths) := by
  unfold EntriesFit; infer_instance

theorem snprintf_eq_iff {s : List Char} {size : Nat} (hsize : 0 < size) :
    snprintf size s = s ↔ s.length < size := by
  rw [snprintf, List.take_eq_self_iff]
  omega

section Replies

variable {α : Type}

/-- The entries with a comma between two of them. -/
theorem length_commas (f : α → List Char) : ∀ items : List α,
    ((",".toList).intercalate (items.map f)).length
      = (items.map fun x => (f x).length).sum + (items.length - 1)
  | [] => rfl
  | [x] => by simp
  | x :: y :: ys => by
      have hcomma : ",".toList.length = 1 := by decide
      have ih := length_commas f (y :: ys)
      simp only [List.map_cons, List.intercalate_cons_cons, List.length_append, hcomma,
        List.sum_cons, List.length_cons] at ih ⊢
      omega

theorem length_listText (f : α → List Char) (items : List α) :
    (listText f items).length
      = (items.map fun x => (f x).length).sum + (items.length - 1) + 2 := by
  have hopen : "[".toList.length = 1 := by decide
  have hclose : "]".toList.length = 1 := by decide
  rw [listText, List.length_append, List.length_append, length_commas, hopen, hclose]
  omega

/-- The reply is assembled within its array, and every entry in it is the
whole text. -/
def WholeReply (entry text : α → List Char) (items : List α) : Prop :=
  (listJson entry items).isSome = true ∧ ∀ x ∈ items, entry x = text x

theorem wholeReply_iff {entry text : α → List Char} {length : α → Nat} {items : List α}
    (hentry : ∀ x, entry x = snprintf 512 (text x)) (hnul : ∀ x, NulFree (entry x))
    (hlength : ∀ x, (text x).length = length x) :
    WholeReply entry text items ↔ EntriesFit (items.map length) := by
  have hwhole : ∀ x, entry x = text x ↔ length x < 512 := by
    intro x
    rw [hentry, snprintf_eq_iff (by omega), hlength]
  have hlist : (listJson entry items).isSome = true ↔ (listText entry items).length < 4096 := by
    rw [Option.isSome_iff_exists]
    constructor
    · rintro ⟨json, hjson⟩
      exact lt_of_listJson hnul hjson
    · intro hlen
      obtain ⟨json, hjson, -⟩ := listJson_of_lt hnul hlen
      exact ⟨json, hjson⟩
  have hsum : (∀ x ∈ items, entry x = text x) →
      (items.map fun x => (entry x).length) = items.map length := by
    intro hall
    refine List.map_congr_left fun x hx => ?_
    rw [hall x hx, hlength]
  rw [WholeReply, EntriesFit, hlist, length_listText, List.forall_mem_map, List.length_map,
    and_comm]
  simp only [← hwhole]
  refine and_congr_right fun hall => ?_
  rw [hsum hall]

end Replies

/-! ## 3. The two handlers -/

/-- Every answer to this list of containers fits and is whole. -/
def ContainerReplyWhole (items : List ContainerSummary) : Prop :=
  (∀ {σ : Type} (backend : Backend σ) (request : HttpRequest) (response : HttpResponse) (s : σ),
    (backend.listContainers s).1 = some items →
      (handleContainerList backend request response s).isSome = true) ∧
  ∀ c ∈ items, containerJson c = containerText c

/-- The same for images. -/
def ImageReplyWhole (items : List ImageSummary) : Prop :=
  (∀ {σ : Type} (backend : Backend σ) (request : HttpRequest) (response : HttpResponse) (s : σ),
    (backend.listImages s).1 = some items →
      (handleImageList backend request response s).isSome = true) ∧
  ∀ i ∈ items, imageJson i = imageText i

theorem handleList_isSome_iff {σ α : Type} {list : σ → Option (List α) × σ}
    (entry : α → List Char) (failure : String) (response : HttpResponse) {s : σ}
    {items : List α} (hlist : (list s).1 = some items) :
    (handleList list entry failure response s).isSome = true ↔
      (listJson entry items).isSome = true := by
  have hcall : list s = (some items, (list s).2) := Prod.ext hlist rfl
  rw [handleList, hcall]
  show ((listJson entry items).bind fun json =>
    some (0, createHttpResponse response 200 "OK".toList (cstr json), (list s).2)).isSome = true ↔ _
  rw [Option.isSome_bind]
  cases listJson entry items with
  | none => exact Iff.rfl
  | some json => exact Iff.rfl

theorem nulFree_containerJson (c : ContainerSummary) : NulFree (containerJson c) := by
  have hstatus : NulFree
      (if c.state = ContainerState.running.code then "running" else "exited").toList := by
    split <;> decide
  unfold containerJson containerText snprintf
  refine NulFree.take ?_ _
  simp only [nulFree_append, nulFree_cstr, hstatus, and_true]
  decide

theorem containerReplyWhole_iff (items : List ContainerSummary) :
    ContainerReplyWhole items ↔ EntriesFit (items.map containerLength) := by
  rw [← wholeReply_iff (fun _ => rfl) nulFree_containerJson length_containerText,
    ContainerReplyWhole, WholeReply]
  refine and_congr_left fun _ => ⟨fun h => ?_, fun h σ backend request response s hlist => ?_⟩
  · have hsome := h { willingBackend with listContainers := fun s => (some items, s) }
      emptyRequest emptyResponse () rfl
    exact (handleList_isSome_iff _ _ _ rfl).mp hsome
  · exact (handleList_isSome_iff _ _ _ hlist).mpr h

theorem imageReplyWhole_iff (items : List ImageSummary) :
    ImageReplyWhole items ↔ EntriesFit (items.map imageLength) := by
  rw [← wholeReply_iff (fun _ => rfl) nulFree_imageJson length_imageText,
    ImageReplyWhole, WholeReply]
  refine and_congr_left fun _ => ⟨fun h => ?_, fun h σ backend request response s hlist => ?_⟩
  · have hsome := h { willingBackend with listImages := fun s => (some items, s) }
      emptyRequest emptyResponse () rfl
    exact (handleList_isSome_iff _ _ _ rfl).mp hsome
  · exact (handleList_isSome_iff _ _ _ hlist).mpr h

/-- Both replies fit and are whole exactly when the entries of both
fit. -/
theorem list_replies_whole_iff (containers : List ContainerSummary) (images : List ImageSummary) :
    ContainerReplyWhole containers ∧ ImageReplyWhole images ↔
      EntriesFit (containers.map containerLength) ∧ EntriesFit (images.map imageLength) := by
  rw [containerReplyWhole_iff, imageReplyWhole_iff]

/-- Strings within the arrays of `container_info_t`. -/
structure WithinCapacity (c : ContainerSummary) : Prop where
  id : (cstr c.id).length < MAX_CONTAINER_ID_LEN
  name : (cstr c.name).length < MAX_CONTAINER_NAME_LEN
  image : (cstr c.image).length < MAX_IMAGE_NAME_LEN
  command : (cstr c.command).length < MAX_COMMAND_LEN
  created : (cstr c.created).length < 32

/-- A container with a command of 500 characters. -/
def longCommand : ContainerSummary where
  id := "cont_65a3c1f000000000".toList
  name := "web".toList
  image := "ubuntu".toList
  command := List.replicate 500 'x'
  created := "1705230832".toList
  state := ContainerState.running.code

/-- Its entry is cut. -/
theorem long_command_cut :
    WithinCapacity longCommand ∧ ¬ (ContainerReplyWhole [longCommand] ∧ ImageReplyWhole []) := by
  have hcommand : NulFree (List.replicate 500 'x') := by
    intro hmem
    have hx : nul = 'x' := List.eq_of_mem_replicate hmem
    exact absurd hx (by decide)
  have hlen : (cstr longCommand.command).length = 500 := by
    have hfield : longCommand.command = List.replicate 500 'x' := rfl
    rw [hfield, cstr_of_nulFree hcommand]
    exact List.length_replicate
  refine ⟨⟨by decide, by decide, by decide,
    by rw [hlen, MAX_COMMAND_LEN]; omega, by decide⟩, ?_⟩
  rintro ⟨hwhole, -⟩
  have hshort := ((containerReplyWhole_iff [longCommand]).mp hwhole).1 _ (List.mem_singleton.mpr rfl)
  rw [containerLength, hlen] at hshort
  omega

end DockerClone.Http
