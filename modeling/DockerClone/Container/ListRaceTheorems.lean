/-
DockerClone.Container.ListRaceTheorems — `list_containers` beside
creations and removals.

The array is allocated for the entries of one pass over the directory and
filled by another, and nothing compares the two. `Fits` is what would
have to be compared: the records stored so far and the entries that may
still come and can be opened are no more than were counted. A removal
keeps it, and so does every step of a list, but for the end of the
counting pass: there a file made during the pass may have been missed.
The other step that can break it is one that makes something in the file
system (`LeavesRoom`). A run in which nothing is made while a list is
under way has no such step (`quiet_within`).
-/
import DockerClone.Container.PathRaceTheorems
import DockerClone.Container.ListTheorems
import DockerClone.Os.DirStream

namespace DockerClone.Container

open DockerClone.CLib DockerClone.Os DockerClone.Os.FileSystem

/-! ## 1. The daemon -/

inductive StoreRequest where
  | list (env : ListCall)
  | dir (request : DirRequest)

inductive StorePhase where
  | list (p : ListPhase)
  | dir (p : DirPhase)

def StoreRequest.start : StoreRequest → StorePhase
  | .list _ => .list .malloc
  | .dir request => .dir request.start

/-- The machine and the open directory of each request. -/
structure Shared (ι : Type) where
  host : Host
  stream : ι → DirStream

section Daemon

variable {ι : Type} [DecidableEq ι] (request : ι → StoreRequest)

def storeStep (i : ι) : StorePhase → Shared ι → Option (StorePhase × Shared ι)
  | .list p, s =>
      match request i with
      | .list env =>
          (listStep env p s.host.world (s.stream i)).map fun r =>
            (.list r.1, { s with stream := Function.update s.stream i r.2 })
      | .dir _ => none
  | .dir p, s =>
      match request i with
      | .dir request =>
          (dirStep request p s.host).map fun r =>
            (.dir r.1,
              { host := r.2, stream := fun j => (s.stream j).changed s.host.world.fs r.2.world.fs })
      | .list _ => none

/-- A child of the daemon may end at any time. -/
def Shared.occur (e : Exit) (s : Shared ι) : Shared ι := { s with host := e.occur s.host }

abbrev StoreRequests (ι : Type) := Threads ι StorePhase (Shared ι)

/-- Every request is still to make its first step. -/
def requested (h : Host) (stream : ι → DirStream) : StoreRequests ι :=
  { shared := { host := h, stream := stream }, thread := fun i => (request i).start }

abbrev storeHistory (turns : List (Turn ι Exit)) (s : StoreRequests ι) :
    List (Transition (StoreRequests ι) (Turn ι Exit) Bool) :=
  History (storeStep request) Shared.occur turns s

/-- Nothing was stored behind the end of the array. -/
def StorePhase.Within : StorePhase → Prop
  | .list (.readdir allocated containers) => containers.length ≤ allocated
  | .list (.read allocated containers _) => containers.length ≤ allocated
  | .list (.done allocated (some containers)) => containers.length ≤ allocated
  | _ => True

instance (p : StorePhase) : Decidable p.Within := by
  unfold StorePhase.Within
  split <;> infer_instance

/-- Every list keeps to its array. -/
def AllWithin (s : StoreRequests ι) : Prop := ∀ i, (s.thread i).Within

instance (s : StoreRequests Bool) : Decidable (AllWithin s) := by
  unfold AllWithin; infer_instance

/-! ## 2. Room -/

/-- The file a name stands for can be opened; of a name that cannot be
scanned nothing is known. -/
def opens (w : World) (name : Name) : Bool :=
  match scannedText name "%[^.].json".toList with
  | some id => (w.fs.openRead w.cwd (metadataPath (cstr id)) false).isSome
  | none => true

/-- The entries among some names that would be stored. -/
def storable (w : World) (names : List Name) : Nat :=
  names.countP fun name => isJson name && opens w name

/-- There are no more records to come than there is room for. -/
def ListPhase.Fits (w : World) (s : DirStream) : ListPhase → Prop
  | .alloc found | .openRead found =>
      ∀ p ∈ w.fs.openDir w.cwd CONTAINER_METADATA_DIR.toList,
        storable w (w.fs.entryNames p) ≤ found
  | .readdir allocated containers => containers.length + storable w s.possible ≤ allocated
  | .read allocated containers name =>
      isJson name = true ∧
        containers.length + storable w [name] + storable w s.possible ≤ allocated
  | .done allocated (some containers) => containers.length ≤ allocated
  | _ => True

def StorePhase.Fits (w : World) (s : DirStream) : StorePhase → Prop
  | .list p => p.Fits w s
  | .dir _ => True

instance (w : World) (s : DirStream) (p : StorePhase) : Decidable (p.Fits w s) := by
  unfold StorePhase.Fits ListPhase.Fits
  split
  · split <;> infer_instance
  · infer_instance

def AllFit (s : StoreRequests ι) : Prop :=
  ∀ i, (s.thread i).Fits s.shared.host.world (s.shared.stream i)

instance (s : StoreRequests Bool) : Decidable (AllFit s) := by
  unfold AllFit; infer_instance

/-- Nothing is made. -/
def OnlyRemoves (w w' : World) : Prop := w'.cwd = w.cwd ∧ Shrinks w.fs w'.fs

/-- A step that makes something in the file system, and the end of a
counting pass, leave room in every list. -/
def LeavesRoom (i : ι) (s : StoreRequests ι) : Prop :=
  ∀ p shared, storeStep request i (s.thread i) s.shared = some (p, shared) →
    (∃ count, p = .list (.alloc count)) ∨ ¬ OnlyRemoves s.shared.host.world shared.host.world →
      AllFit (s.move i p shared)

end Daemon

/-! ## 3. What keeps the room -/

theorem OnlyRemoves.refl (w : World) : OnlyRemoves w w := ⟨rfl, Shrinks.refl w.fs⟩

section Removed

variable {w w' : World} (h : OnlyRemoves w w')

include h

theorem opens_of_onlyRemoves {name : Name} (hopens : opens w' name = true) :
    opens w name = true := by
  unfold opens at hopens ⊢
  cases hid : scannedText name "%[^.].json".toList with
  | none => rfl
  | some id =>
    rw [hid] at hopens
    simp only [h.1] at hopens ⊢
    exact Option.isSome_iff_ne_none.mpr
      (h.2.openRead (Option.isSome_iff_ne_none.mp hopens))

theorem storable_le_of_onlyRemoves (names : List Name) : storable w' names ≤ storable w names := by
  refine List.countP_mono_left fun name _ hname => ?_
  rw [Bool.and_eq_true] at hname ⊢
  exact ⟨hname.1, opens_of_onlyRemoves h hname.2⟩

/-- Removals leave room where there was room. -/
theorem ListPhase.Fits.onlyRemoves {p : ListPhase} {s : DirStream} (hfits : p.Fits w s) :
    p.Fits w' (s.changed w.fs w'.fs) := by
  have hstorable := storable_le_of_onlyRemoves h
  cases p with
  | alloc found | openRead found =>
    intro q hopen
    rw [h.1] at hopen
    have hnames : storable w (w'.fs.entryNames q) ≤ storable w (w.fs.entryNames q) :=
      ((w'.fs.nodup_entryNames q).subperm (h.2.entryNames q)).countP_le _
    exact ((hstorable _).trans hnames).trans (hfits q (h.2.openDir hopen))
  | readdir allocated containers =>
    rw [Fits, DirStream.possible_changed h.2]
    exact (Nat.add_le_add_left (hstorable _) _).trans hfits
  | read allocated containers name =>
    rw [Fits, DirStream.possible_changed h.2]
    rw [Fits] at hfits
    have hname := hstorable [name]
    have hrest := hstorable s.possible
    exact ⟨hfits.1, by omega⟩
  | malloc | openCount | count count => trivial
  | done allocated result => cases result <;> exact hfits

theorem StorePhase.Fits.onlyRemoves {s : DirStream} : ∀ {p : StorePhase}, p.Fits w s →
    p.Fits w' (s.changed w.fs w'.fs)
  | .list _, hfits => ListPhase.Fits.onlyRemoves h hfits
  | .dir _, _ => trivial

end Removed

/-- A record is stored only for an entry whose file can be opened. -/
theorem opens_of_read {w : World} {name : Name} {junk : List Char} {denied : Bool}
    {container c : ContainerInfo}
    (h : readContainerMetadata (cstr (scannedId name junk)) denied w container = some c) :
    opens w name = true := by
  unfold opens
  cases hid : scannedText name "%[^.].json".toList with
  | none => rfl
  | some id =>
    have hcut : cstr (scannedId name junk) = cstr id := by
      rw [scannedId, hid]
      exact cstr_append_nul_cut _ id
    rw [hcut, readContainerMetadata] at h
    cases denied with
    | true => simp [openRead] at h
    | false =>
      cases hopen : w.fs.openRead w.cwd (metadataPath (cstr id)) false with
      | none => simp [hopen] at h
      | some text =>
        show (w.fs.openRead w.cwd (metadataPath (cstr id)) false).isSome = true
        rw [hopen]
        rfl

section Listing

variable {env : ListCall} {w : World} {s s' : DirStream} {p p' : ListPhase}

/-- What is left when a name is taken. -/
theorem storable_take (w : World) {names : List Name} {name : Name} (h : name ∈ names) :
    storable w [name] + storable w (names.erase name) = storable w names := by
  have hperm : names.Perm (name :: names.erase name) := List.perm_cons_erase h
  have hcount := hperm.countP_eq fun name => isJson name && opens w name
  simp only [storable, hcount, List.countP_cons, List.countP_nil]
  omega

/-- What a step of a list can do. -/
inductive ListMoves (env : ListCall) (w : World) (s : DirStream) :
    ListPhase → ListPhase → DirStream → Prop where
  | noList : ListMoves env w s .malloc (.done 0 none) s
  | begun : ListMoves env w s .malloc .openCount s
  | noDirectory : ListMoves env w s .openCount (.done 0 none) s
  | opened {q : Path} (hopen : w.fs.openDir w.cwd CONTAINER_METADATA_DIR.toList = some q) :
      ListMoves env w s .openCount (.count 0) (.opened w.fs q)
  | counted {found : Nat} {name : Name} (hnext : env.counted.next s = some name) :
      ListMoves env w s (.count found) (.count (if isJson name then found + 1 else found))
        (s.take name)
  | countEnds {found : Nat} (hend : env.counted.next s = none) :
      ListMoves env w s (.count found) (.alloc found) s
  | empty : ListMoves env w s (.alloc 0) (.done 0 (some [])) s
  | noArray {found : Nat} : ListMoves env w s (.alloc found) (.done 0 none) s
  | allocated {found : Nat} : ListMoves env w s (.alloc found) (.openRead found) s
  | reopened {allocated : Nat} {q : Path}
      (hopen : w.fs.openDir w.cwd CONTAINER_METADATA_DIR.toList = some q) :
      ListMoves env w s (.openRead allocated) (.readdir allocated []) (.opened w.fs q)
  | entry {allocated : Nat} {containers : List ContainerInfo} {name : Name}
      (hnext : env.read.next s = some name) (hjson : isJson name = true) :
      ListMoves env w s (.readdir allocated containers) (.read allocated containers name)
        (s.take name)
  | passed {allocated : Nat} {containers : List ContainerInfo} {name : Name}
      (hnext : env.read.next s = some name) :
      ListMoves env w s (.readdir allocated containers) (.readdir allocated containers)
        (s.take name)
  | returned {allocated : Nat} {containers : List ContainerInfo} :
      ListMoves env w s (.readdir allocated containers) (.done allocated (some containers)) s
  | stored {allocated : Nat} {containers : List ContainerInfo} {name : Name}
      {container : ContainerInfo} (hopens : opens w name = true) :
      ListMoves env w s (.read allocated containers name)
        (.readdir allocated (containers ++ [container])) s
  | unread {allocated : Nat} {containers : List ContainerInfo} {name : Name} :
      ListMoves env w s (.read allocated containers name) (.readdir allocated containers) s

theorem listMoves_of_step (hstep : listStep env p w s = some (p', s')) :
    ListMoves env w s p p' s' := by
  cases p <;> rw [listStep] at hstep
  case malloc =>
    split at hstep <;> obtain ⟨rfl, rfl⟩ := Prod.mk.inj (Option.some.inj hstep)
    · exact .noList
    · exact .begun
  case openCount =>
    split at hstep <;> obtain ⟨rfl, rfl⟩ := Prod.mk.inj (Option.some.inj hstep)
    · exact .noDirectory
    · exact .opened ‹_›
  case count found =>
    split at hstep <;> obtain ⟨rfl, rfl⟩ := Prod.mk.inj (Option.some.inj hstep)
    · exact .counted ‹_›
    · exact .countEnds ‹_›
  case alloc found =>
    split at hstep
    · rename_i hzero
      obtain ⟨rfl, rfl⟩ := Prod.mk.inj (Option.some.inj hstep)
      rw [hzero]
      exact .empty
    · split at hstep <;> obtain ⟨rfl, rfl⟩ := Prod.mk.inj (Option.some.inj hstep)
      · exact .noArray
      · exact .allocated
  case openRead allocated =>
    split at hstep
    · simp at hstep
    · obtain ⟨rfl, rfl⟩ := Prod.mk.inj (Option.some.inj hstep)
      exact .reopened ‹_›
  case readdir allocated containers =>
    split at hstep
    · split at hstep <;> obtain ⟨rfl, rfl⟩ := Prod.mk.inj (Option.some.inj hstep)
      · exact .entry ‹_› ‹_›
      · exact .passed ‹_›
    · obtain ⟨rfl, rfl⟩ := Prod.mk.inj (Option.some.inj hstep)
      exact .returned
  case read allocated containers name =>
    split at hstep <;> obtain ⟨rfl, rfl⟩ := Prod.mk.inj (Option.some.inj hstep)
    · rename_i container hread
      exact .stored (opens_of_read hread)
    · exact .unread
  case done allocated result => simp at hstep

/-- A step of a list keeps the room, but for the end of its counting
pass. -/
theorem ListPhase.Fits.step (hfits : p.Fits w s) (hmoves : ListMoves env w s p p' s')
    (halloc : ∀ found, p' ≠ .alloc found) : p'.Fits w s' := by
  cases hmoves with
  | noList | begun | noDirectory | opened | counted | noArray => trivial
  | countEnds => exact absurd rfl (halloc _)
  | empty => exact Nat.le_refl 0
  | allocated => exact hfits
  | reopened hopen =>
    rw [Fits, List.length_nil, Nat.zero_add]
    exact hfits _ hopen
  | @entry allocated containers name hnext hjson =>
    rw [Fits] at hfits
    have htake := storable_take w (env.read.returns s name hnext)
    refine ⟨hjson, ?_⟩
    show containers.length + storable w [name] + storable w (s.possible.erase name) ≤ allocated
    omega
  | @passed allocated containers name hnext =>
    rw [Fits] at hfits
    have htake := storable_take w (env.read.returns s name hnext)
    show containers.length + storable w (s.possible.erase name) ≤ allocated
    omega
  | returned =>
    rw [Fits] at hfits
    exact (Nat.le_add_right _ _).trans hfits
  | @stored allocated containers name container hopens =>
    rw [Fits] at hfits
    have hone : storable w [name] = 1 := by simp [storable, hfits.1, hopens]
    rw [Fits, List.length_append, List.length_singleton]
    omega
  | @unread allocated containers name =>
    rw [Fits] at hfits
    show containers.length + storable w s.possible ≤ allocated
    omega

end Listing

/-! ## 4. Every run -/

section Run

variable {ι : Type} {i : ι} {s : StoreRequests ι}

theorem AllFit.occur (hfit : AllFit s) (e : Exit) :
    AllFit { s with shared := s.shared.occur e } := by
  intro i
  have hworld : (s.shared.occur e).host.world = s.shared.host.world := e.occur_world s.shared.host
  rw [hworld]
  exact hfit i

theorem StorePhase.Fits.within {w : World} {stream : DirStream} : ∀ {p : StorePhase},
    p.Fits w stream → p.Within
  | .list (.readdir ..), h => (Nat.le_add_right _ _).trans h
  | .list (.read ..), h => by
      have hle := h.2
      rw [Within]
      omega
  | .list (.done _ (some _)), h => h
  | .list (.done _ none), _ | .list .malloc, _ | .list .openCount, _ | .list (.count _), _
  | .list (.alloc _), _ | .list (.openRead _), _ | .dir _, _ => trivial

variable [DecidableEq ι] {request : ι → StoreRequest} {p : StorePhase} {shared : Shared ι}

/-- A turn is a step of a list, which leaves the machine alone, or one of
the operations, which every stream takes notice of. -/
theorem storeStep_cases {q : StorePhase} {before : Shared ι}
    (hstep : storeStep request i q before = some (p, shared)) :
    (∃ env r r' stream, request i = .list env ∧ q = .list r ∧ p = .list r' ∧
      listStep env r before.host.world (before.stream i) = some (r', stream) ∧
      shared = { before with stream := Function.update before.stream i stream }) ∨
    (∃ d r r' host, request i = .dir d ∧ q = .dir r ∧ p = .dir r' ∧
      dirStep d r before.host = some (r', host) ∧
      shared =
        { host := host
          stream := fun j =>
            (before.stream j).changed before.host.world.fs host.world.fs }) := by
  cases q with
  | list r =>
    rw [storeStep] at hstep
    cases hrequest : request i with
    | dir d => simp [hrequest] at hstep
    | list env =>
      rw [hrequest] at hstep
      obtain ⟨⟨r', stream⟩, hlist, hr⟩ := Option.map_eq_some_iff.mp hstep
      obtain ⟨rfl, rfl⟩ := Prod.mk.inj hr
      exact Or.inl ⟨env, r, r', stream, rfl, rfl, rfl, hlist, rfl⟩
  | dir r =>
    rw [storeStep] at hstep
    cases hrequest : request i with
    | list env => simp [hrequest] at hstep
    | dir d =>
      rw [hrequest] at hstep
      obtain ⟨⟨r', host⟩, hdir, hr⟩ := Option.map_eq_some_iff.mp hstep
      obtain ⟨rfl, rfl⟩ := Prod.mk.inj hr
      exact Or.inr ⟨d, r, r', host, rfl, rfl, rfl, hdir, rfl⟩

/-- What a step has to say for something to hold of every request
afterwards. -/
theorem forall_storeStep {Q : World → DirStream → StorePhase → Prop}
    (hdir : ∀ w stream r, Q w stream (.dir r))
    (hlist : ∀ env r r' stream, s.thread i = .list r → p = .list r' →
      ListMoves env s.shared.host.world (s.shared.stream i) r r' stream →
      Q s.shared.host.world stream (.list r'))
    (hkept : ∀ j, Q shared.host.world
      ((s.shared.stream j).changed s.shared.host.world.fs shared.host.world.fs) (s.thread j))
    (hall : ∀ j, Q s.shared.host.world (s.shared.stream j) (s.thread j))
    (hstep : storeStep request i (s.thread i) s.shared = some (p, shared)) :
    ∀ j, Q shared.host.world (shared.stream j) ((s.move i p shared).thread j) := by
  refine Threads.forall_move
    (P := fun j (q : StorePhase) => Q shared.host.world (shared.stream j) q) ?_ ?_
  · -- the request that moved
    rcases storeStep_cases hstep with
      ⟨env, r, r', stream, -, hthread, rfl, hmove, rfl⟩ | ⟨d, r, r', host, -, -, rfl, -, -⟩
    · show Q _ (Function.update s.shared.stream i stream i) _
      rw [Function.update_self]
      exact hlist env r r' stream hthread rfl (listMoves_of_step hmove)
    · exact hdir _ _ r'
  · -- the others
    intro j hj
    rcases storeStep_cases hstep with
      ⟨env, r, r', stream, -, -, rfl, -, rfl⟩ | ⟨d, r, r', host, -, -, rfl, -, rfl⟩
    · simpa [Function.update_of_ne hj] using hall j
    · exact hkept j

theorem allFit_step (hfit : AllFit s) (hroom : LeavesRoom request i s)
    (hstep : storeStep request i (s.thread i) s.shared = some (p, shared)) :
    AllFit (s.move i p shared) := by
  by_cases hrisky : (∃ found, p = .list (.alloc found)) ∨
      ¬ OnlyRemoves s.shared.host.world shared.host.world
  · exact hroom p shared hstep hrisky
  · obtain ⟨halloc, hremoves⟩ := not_or.mp hrisky
    rw [not_not] at hremoves
    refine forall_storeStep (Q := fun w stream q => q.Fits w stream) (fun _ _ _ => trivial) ?_
      (fun j => StorePhase.Fits.onlyRemoves hremoves (hfit j)) hfit hstep
    intro env r r' stream hthread hp hmove
    have hbefore := hfit i
    rw [hthread] at hbefore
    exact ListPhase.Fits.step hbefore hmove fun found hfound =>
      halloc ⟨found, hp.trans (congrArg StorePhase.list hfound)⟩

/-- In every run whose steps leave room every list keeps to its array. -/
theorem lists_within (request : ι → StoreRequest) (turns : List (Turn ι Exit)) (h : Host)
    (stream : ι → DirStream)
    (hroom : ∀ t ∈ storeHistory request turns (requested request h stream),
      AtTurn (LeavesRoom request) t) :
    ∀ t ∈ storeHistory request turns (requested request h stream),
      AllWithin t.before ∧ AllWithin t.after := by
  have hstart : AllFit (requested request h stream) := by
    intro i
    show ((request i).start).Fits h.world (stream i)
    cases request i <;> trivial
  have hinv := forall_turns (storeStep request) Shared.occur AllFit (LeavesRoom request)
    (fun i s p shared hfit hroom hstep => allFit_step hfit hroom hstep)
    (fun e s hfit => hfit.occur e) hstart hroom
  intro t ht
  obtain ⟨hbefore, hafter⟩ := hinv t ht
  exact ⟨fun i => (hbefore i).within, fun i => (hafter i).within⟩

end Run

/-- A list while `db` is created. -/
def listAndCreate : Bool → StoreRequest
  | false => .list
      { listAllocated := true
        containersAllocated := true
        counted := .inOrder
        read := .inOrder
        denied := fun _ => false
        junk := fun _ => .zeroed
        idJunk := fun _ => [] }
  | true => .dir (.create (request "db") nextSecond)

def unopened : Bool → DirStream := fun _ => .opened storedHost.world.fs []

/-- The creation is over when the list begins. -/
def createdFirst : List (Turn Bool Exit) :=
  List.replicate 5 (.of true) ++ List.replicate 18 (.of false)

/-- The creation comes between the two passes. -/
def createdBetween : List (Turn Bool Exit) :=
  List.replicate 7 (.of false) ++ List.replicate 5 (.of true) ++ List.replicate 7 (.of false)

/-- A step leaves room if the state behind it has room. -/
theorem leavesRoom_of_after {ι : Type} [DecidableEq ι] {request : ι → StoreRequest}
    {t : Transition (StoreRequests ι) (Turn ι Exit) Bool} {turns : List (Turn ι Exit)}
    {s : StoreRequests ι} (ht : t ∈ storeHistory request turns s) (hfit : AllFit t.after) :
    AtTurn (LeavesRoom request) t := by
  obtain ⟨turn, -, s', rfl⟩ := exists_of_mem_transitions ht
  intro i hturn p shared hstep _
  obtain rfl : turn = .of i := hturn
  rcases takeTurn_of_cases (storeStep request) Shared.occur i s' with
    ⟨q, shared', hmove, heq⟩ | ⟨hnone, -⟩
  · have hstep' : storeStep request i (s'.thread i) s'.shared = some (p, shared) := hstep
    obtain ⟨rfl, rfl⟩ := Prod.mk.inj (Option.some.inj (hstep'.symm.trans hmove))
    have hafter : AllFit (takeTurn (storeStep request) Shared.occur (.of i) s').2 := hfit
    rw [heq] at hafter
    exact hafter
  · have hstep' : storeStep request i (s'.thread i) s'.shared = some (p, shared) := hstep
    rw [hnone] at hstep'
    simp at hstep'

/-- Of a list that has returned: the room there was and the records. -/
def StorePhase.stored : StorePhase → Option (Nat × Nat)
  | .list (.done allocated (some containers)) => some (allocated, containers.length)
  | _ => none

/-- Both containers are counted, and both are stored. -/
theorem createdFirst_within :
    ((finalState (takeTurn (storeStep listAndCreate) Shared.occur) createdFirst
      (requested listAndCreate storedHost unopened)).thread false).stored = some (2, 2) ∧
    ∀ t ∈ storeHistory listAndCreate createdFirst (requested listAndCreate storedHost unopened),
      AllWithin t.before ∧ AllWithin t.after := by
  have hruns : ((finalState (takeTurn (storeStep listAndCreate) Shared.occur) createdFirst
      (requested listAndCreate storedHost unopened)).thread false).stored = some (2, 2) ∧
      ∀ t ∈ storeHistory listAndCreate createdFirst
        (requested listAndCreate storedHost unopened), AllFit t.after := by decide +kernel
  exact ⟨hruns.1, lists_within listAndCreate createdFirst storedHost unopened
    fun t ht => leavesRoom_of_after ht (hruns.2 t ht)⟩

/-- One container is counted and two are stored. -/
theorem createdBetween_overruns :
    ¬ ∀ turns, ∀ t ∈ storeHistory listAndCreate turns
      (requested listAndCreate storedHost unopened), AllWithin t.after := by
  intro h
  have hover : ∃ t ∈ storeHistory listAndCreate createdBetween
      (requested listAndCreate storedHost unopened), ¬ AllWithin t.after := by decide +kernel
  obtain ⟨t, ht, hover⟩ := hover
  exact hover (h createdBetween t ht)

/-! ## 5. Removals and quiet runs -/

/-- A step of a removal makes nothing, as long as its command line is an
`rm -rf`. -/
theorem removeStep_onlyRemoves {id : List Char} {env : RemoveEnv} {p p' : RemovePhase}
    {h h' : Host}
    (hrm : ∀ container path, p = .rm container path →
      parseRm (snprintf 1024 ("rm -rf ".toList ++ path)) ≠ none)
    (hstep : removeStep id env p h = some (p', h')) : OnlyRemoves h.world h'.world := by
  cases p with
  | rm container path =>
    have hshrinks := env.shell.system_shrinks h.world.cwd h.world.fs (hrm container path rfl)
    rw [removeStep] at hstep
    simp only at hstep
    split at hstep <;> obtain ⟨-, rfl⟩ := Prod.mk.inj (Option.some.inj hstep) <;>
      exact ⟨rfl, hshrinks⟩
  | unlinkConfig container | unlinkLog container =>
    rw [removeStep] at hstep
    split at hstep <;> obtain ⟨-, rfl⟩ := Prod.mk.inj (Option.some.inj hstep)
    all_goals
      first
      | exact .refl _
      | exact ⟨rfl, unlink_shrinks ‹_›⟩
  | check | read | test container =>
    rw [removeStep] at hstep
    split at hstep <;> obtain ⟨-, rfl⟩ := Prod.mk.inj (Option.some.inj hstep) <;> exact .refl _
  | format container | copy container =>
    obtain ⟨-, rfl⟩ := Prod.mk.inj (Option.some.inj hstep)
    exact .refl _
  | done result => simp [removeStep] at hstep

/-- The path of a container makes such a command line. -/
theorem parseRm_containerPath (now : Int64) :
    parseRm (snprintf 1024 ("rm -rf ".toList ++ getContainerFullPath (generateContainerId now)))
      ≠ none := by
  rw [rmCommand_eq, parseRm_literal (plainWord_containerDir now).literal
    (by rw [containerDir, head_absPath]; decide)]
  simp

/-- A removal leaves room, whoever asked for it, if it runs its command on
the path of a container. -/
theorem leavesRoom_remove {ι : Type} [DecidableEq ι] {request : ι → StoreRequest} {i : ι}
    {s : StoreRequests ι} {id : List Char} {env : RemoveEnv}
    (hrequest : request i = .dir (.remove id env))
    (hpath : ∀ container path, s.thread i = .dir (.remove (.rm container path)) →
      ∃ now, path = getContainerFullPath (generateContainerId now)) :
    LeavesRoom request i s := by
  intro p shared hstep hrisky
  rcases storeStep_cases hstep with
    ⟨_, _, _, _, hlist, -⟩ | ⟨d, r, r', host, hd, hthread, rfl, hmove, rfl⟩
  · simp [hlist] at hrequest
  · obtain rfl : DirRequest.remove id env = d :=
      StoreRequest.dir.inj (hrequest.symm.trans hd)
    cases r with
    | create q => simp [dirStep] at hmove
    | remove q =>
      rw [dirStep] at hmove
      obtain ⟨⟨q', host'⟩, hremove, hmoved⟩ := Option.map_eq_some_iff.mp hmove
      obtain ⟨-, rfl⟩ := Prod.mk.inj hmoved
      have hremoves := removeStep_onlyRemoves (fun container path hq => by
        obtain ⟨now, rfl⟩ := hpath container path (by rw [hthread, hq])
        exact parseRm_containerPath now) hremove
      rcases hrisky with ⟨found, hfound⟩ | hmade
      · simp at hfound
      · exact absurd hremoves hmade

/-- Between the first `opendir` and the return. -/
def StorePhase.UnderWay : StorePhase → Prop
  | .list (.count _) | .list (.alloc _) | .list (.openRead _) | .list (.readdir ..)
  | .list (.read ..) => True
  | .list .malloc | .list .openCount | .list (.done ..) | .dir _ => False

/-- What was there when the directory was opened for counting, and still
is, was counted or is still to come. -/
def StorePhase.Counts (w : World) (s : DirStream) : StorePhase → Prop
  | .list (.count found) =>
      ∀ p ∈ w.fs.openDir w.cwd CONTAINER_METADATA_DIR.toList, p = s.dir ∧
        storable w (s.settled (w.fs.entryNames p)) ≤ found
  | _ => True

section Counting

variable {w w' : World} {s s' : DirStream}

theorem StorePhase.Counts.onlyRemoves (h : OnlyRemoves w w') {p : StorePhase}
    (hcounts : p.Counts w s) : p.Counts w' (s.changed w.fs w'.fs) := by
  unfold Counts at hcounts ⊢
  split
  · intro q hopen
    rw [h.1] at hopen
    obtain ⟨hdir, hle⟩ := hcounts q (h.2.openDir hopen)
    refine ⟨hdir, (storable_le_of_onlyRemoves h _).trans (le_trans ?_ hle)⟩
    have hnodup := (s.changed w.fs w'.fs).nodup_settled (w'.fs.nodup_entryNames q)
    refine (hnodup.subperm fun n hn => ?_).countP_le _
    obtain ⟨hentry, hmissing⟩ := DirStream.mem_settled.mp hn
    refine DirStream.mem_settled.mpr ⟨h.2.entryNames q hentry, fun hrequired => hmissing ?_⟩
    exact DirStream.mem_required_changed.mpr ⟨hrequired, hdir ▸ hentry⟩
  · trivial

/-- A name that is taken is counted. -/
theorem storable_settled_take (w : World) {names : List Name} (hnodup : names.Nodup)
    (s : DirStream) (name : Name) :
    storable w ((s.take name).settled names)
      ≤ storable w [name] + storable w (s.settled names) := by
  have hsub : (s.take name).settled names ⊆ [name] ++ s.settled names := by
    intro n hn
    obtain ⟨hmem, hmissing⟩ := DirStream.mem_settled.mp hn
    by_cases hn : n = name
    · rw [hn]
      exact List.mem_append_left _ (List.mem_singleton_self name)
    · refine List.mem_append_right _ (DirStream.mem_settled.mpr ⟨hmem, fun hrequired => ?_⟩)
      exact hmissing ((List.mem_erase_of_ne hn).mpr hrequired)
  have hle := (((s.take name).nodup_settled hnodup).subperm hsub).countP_le
    fun name => isJson name && opens w name
  rwa [List.countP_append] at hle

theorem StorePhase.Counts.step {env : ListCall} {p p' : ListPhase}
    (hcounts : (StorePhase.list p).Counts w s) (hmoves : ListMoves env w s p p' s') :
    (StorePhase.list p').Counts w s' := by
  cases hmoves with
  | @opened q hopen =>
    intro q' hopen'
    obtain rfl : q = q' := Option.some.inj (hopen.symm.trans hopen')
    refine ⟨rfl, ?_⟩
    -- every entry is still to come
    have hnone : (DirStream.opened w.fs q).settled (w.fs.entryNames q) = [] :=
      List.eq_nil_iff_forall_not_mem.mpr fun n hn =>
        (DirStream.mem_settled.mp hn).2 (DirStream.mem_settled.mp hn).1
    rw [hnone]
    exact Nat.le_refl 0
  | @counted found name hnext =>
    intro q hopen
    obtain ⟨hdir, hle⟩ := hcounts q hopen
    refine ⟨hdir, ?_⟩
    have htake := storable_settled_take w (w.fs.nodup_entryNames q) s name
    cases hjson : isJson name with
    | true =>
      have hname : storable w [name] ≤ 1 := List.countP_le_length
      rw [if_pos rfl]
      omega
    | false =>
      have hname : storable w [name] = 0 := by simp [storable, hjson]
      rw [if_neg Bool.false_ne_true]
      omega
  | _ => trivial

/-- At the end of the pass everything that is still there was counted. -/
theorem StorePhase.Counts.fits {env : ListCall} {p : ListPhase} {found : Nat}
    (hcounts : (StorePhase.list p).Counts w s)
    (hmoves : ListMoves env w s p (.alloc found) s') : (ListPhase.alloc found).Fits w s' := by
  cases hmoves with
  | countEnds hend =>
    intro q hopen
    have hle := (hcounts q hopen).2
    have hall : s.settled (w.fs.entryNames q) = w.fs.entryNames q := by
      simp [DirStream.settled, env.counted.ends s hend]
    rwa [hall] at hle

end Counting

/-- A list that is not under way has room whatever becomes of the
directory. -/
theorem StorePhase.Fits.idle {w w' : World} {s s' : DirStream} : ∀ {p : StorePhase},
    ¬ p.UnderWay → p.Fits w s → p.Fits w' s'
  | .list .malloc, _, _ | .list .openCount, _, _ | .list (.done _ none), _, _ | .dir _, _, _ =>
      trivial
  | .list (.done _ (some _)), _, hfits => hfits
  | .list (.count _), hidle, _ | .list (.alloc _), hidle, _ | .list (.openRead _), hidle, _
  | .list (.readdir ..), hidle, _ | .list (.read ..), hidle, _ => absurd trivial hidle

theorem StorePhase.Counts.idle {w : World} {s : DirStream} {p : StorePhase}
    (hidle : ¬ p.UnderWay) : p.Counts w s := by
  unfold Counts
  split
  · exact absurd trivial hidle
  · trivial

section Quiet

variable {ι : Type} [DecidableEq ι] {request : ι → StoreRequest} {i : ι} {s : StoreRequests ι}

/-- Nothing is made while a list is under way. -/
def Quiet (request : ι → StoreRequest) (i : ι) (s : StoreRequests ι) : Prop :=
  ∀ p shared, storeStep request i (s.thread i) s.shared = some (p, shared) →
    ¬ OnlyRemoves s.shared.host.world shared.host.world → ∀ j, ¬ (s.thread j).UnderWay

def AllCount (s : StoreRequests ι) : Prop :=
  ∀ i, (s.thread i).Counts s.shared.host.world (s.shared.stream i)

theorem allCount_step {p : StorePhase} {shared : Shared ι} (hcount : AllCount s)
    (hquiet : Quiet request i s)
    (hstep : storeStep request i (s.thread i) s.shared = some (p, shared)) :
    AllCount (s.move i p shared) := by
  refine forall_storeStep (Q := fun w stream q => q.Counts w stream) (fun _ _ _ => trivial) ?_
    ?_ hcount hstep
  · intro env r r' stream hthread _ hmove
    have hbefore := hcount i
    rw [hthread] at hbefore
    exact hbefore.step hmove
  · intro j
    by_cases hremoves : OnlyRemoves s.shared.host.world shared.host.world
    · exact (hcount j).onlyRemoves hremoves
    · exact .idle (hquiet p shared hstep hremoves j)

theorem Quiet.leavesRoom (hquiet : Quiet request i s) (hfit : AllFit s) (hcount : AllCount s) :
    LeavesRoom request i s := by
  intro p shared hstep _
  refine forall_storeStep (Q := fun w stream q => q.Fits w stream) (fun _ _ _ => trivial) ?_
    ?_ hfit hstep
  · intro env r r' stream hthread hp hmove
    have hbefore := hfit i
    have hcounted := hcount i
    rw [hthread] at hbefore hcounted
    by_cases halloc : ∃ found, r' = .alloc found
    · obtain ⟨found, rfl⟩ := halloc
      exact hcounted.fits hmove
    · exact ListPhase.Fits.step hbefore hmove fun found hfound => halloc ⟨found, hfound⟩
  · intro j
    by_cases hremoves : OnlyRemoves s.shared.host.world shared.host.world
    · exact (hfit j).onlyRemoves hremoves
    · exact (hfit j).idle (hquiet p shared hstep hremoves j)

/-- In every run in which nothing is made while a list is under way every
list keeps to its array. -/
theorem quiet_within (request : ι → StoreRequest) (turns : List (Turn ι Exit)) (h : Host)
    (stream : ι → DirStream)
    (hquiet : ∀ t ∈ storeHistory request turns (requested request h stream),
      AtTurn (Quiet request) t) :
    ∀ t ∈ storeHistory request turns (requested request h stream),
      AllWithin t.before ∧ AllWithin t.after := by
  have hstart : AllFit (requested request h stream) ∧ AllCount (requested request h stream) := by
    constructor <;> intro i <;> simp only [requested] <;> cases request i <;> trivial
  have hinv := forall_turns (storeStep request) Shared.occur
    (fun s => AllFit s ∧ AllCount s) (Quiet request)
    (fun i s p shared hinv hquiet hstep =>
      ⟨allFit_step hinv.1 (hquiet.leavesRoom hinv.1 hinv.2) hstep,
        allCount_step hinv.2 hquiet hstep⟩)
    (fun e s hinv => ⟨hinv.1.occur e, fun i => by
      have hworld : (s.shared.occur e).host.world = s.shared.host.world :=
        e.occur_world s.shared.host
      rw [hworld]
      exact hinv.2 i⟩) hstart hquiet
  intro t ht
  obtain ⟨hbefore, hafter⟩ := hinv t ht
  exact ⟨fun i => (hbefore.1 i).within, fun i => (hafter.1 i).within⟩

end Quiet

end DockerClone.Container
