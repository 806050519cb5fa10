/-
DockerClone.Os.Effect — what a call that succeeds does to a file system.

An `Effect` is the change a successful call makes, as a function of the
path and of what was there. It never looks anywhere else, so what a run
of calls leaves at a path depends only on what was there before the run
(`leavesAll`), wherever the rest of the two file systems differ.

Section 2 gives each call of a process its effect. Section 3 follows one
file through a run: the calls that append to it put their texts one
behind the other, of the calls that overwrite it the last one counts, and
no call that makes a directory changes a file.
-/
import DockerClone.Os.Process

namespace DockerClone.Os

open FileSystem

/-- The content of a regular file. -/
def regular : Option Node → Option (List Char)
  | some (.file content) => some content
  | _ => none

@[simp] theorem regular_none : regular none = none := rfl

@[simp] theorem regular_dir : regular (some .dir) = none := rfl

@[simp] theorem regular_file (content : List Char) : regular (some (.file content)) = some content :=
  rfl

theorem regular_eq_some {x : Option Node} {content : List Char} :
    regular x = some content ↔ x = some (.file content) := by
  constructor
  · intro h
    cases x with
    | none => simp at h
    | some x =>
      cases x with
      | dir => simp at h
      | file c => rw [← Option.some.inj h]
  · rintro rfl
    rfl

/-! ## 1. Effects -/

inductive Effect where
  | keep
  /-- A file with this content. -/
  | write (file : Path) (text : List Char)
  /-- A file with this text behind what was in it. -/
  | append (file : Path) (text : List Char)
  /-- A directory, where nothing was. -/
  | make (dir : Path)
  deriving DecidableEq, Repr

namespace Effect

/-- What the effect leaves at a path. -/
def leaves (e : Effect) (q : Path) (x : Option Node) : Option Node :=
  match e with
  | .keep => x
  | .write file text => if q = file then some (.file text) else x
  | .append file text => if q = file then some (.file ((regular x).getD [] ++ text)) else x
  | .make dir => if q = dir ∧ x = none then some .dir else x

/-- What effects leave at a path, one after the other. -/
def leavesAll (es : List Effect) (q : Path) (x : Option Node) : Option Node :=
  es.foldl (fun x e => e.leaves q x) x

theorem leavesAll_cons (e : Effect) (es : List Effect) (q : Path) (x : Option Node) :
    leavesAll (e :: es) q x = leavesAll es q (e.leaves q x) := rfl

/-- The one file system comes from the other by this effect. -/
def Leads (e : Effect) (fs fs' : FileSystem) : Prop := ∀ q, fs'.node q = e.leaves q (fs.node q)

/-- The path an effect changes. -/
def place : Effect → Option Path
  | .keep => none
  | .write file _ => some file
  | .append file _ => some file
  | .make dir => some dir

theorem leaves_elsewhere {e : Effect} {q : Path} (h : e.place ≠ some q) (x : Option Node) :
    e.leaves q x = x := by
  cases e with
  | keep => rfl
  | write file text => exact if_neg fun he => h (by rw [he]; rfl)
  | append file text => exact if_neg fun he => h (by rw [he]; rfl)
  | make dir => exact if_neg fun he => h (by rw [he.1]; rfl)

/-- An effect removes nothing. -/
theorem leaves_ne_none (e : Effect) (q : Path) {x : Option Node} (h : x ≠ none) :
    e.leaves q x ≠ none := by
  cases e with
  | keep => exact h
  | write file text =>
    rw [leaves]
    split
    · simp
    · exact h
  | append file text =>
    rw [leaves]
    split
    · simp
    · exact h
  | make dir =>
    rw [leaves]
    split
    · simp
    · exact h

/-- Where an effect has its place it leaves something. -/
theorem leaves_place {e : Effect} {q : Path} (h : e.place = some q) (x : Option Node) :
    e.leaves q x ≠ none := by
  cases e with
  | keep => simp [place] at h
  | write file text =>
    rw [leaves, if_pos (Option.some.inj h).symm]
    simp
  | append file text =>
    rw [leaves, if_pos (Option.some.inj h).symm]
    simp
  | make dir =>
    rw [leaves]
    split
    · simp
    · rename_i hx
      exact fun hnone => hx ⟨(Option.some.inj h).symm, hnone⟩

theorem leavesAll_elsewhere {q : Path} : ∀ {es : List Effect} {x : Option Node},
    (∀ e ∈ es, e.place ≠ some q) → leavesAll es q x = x
  | [], _, _ => rfl
  | e :: es, x, h => by
      rw [leavesAll_cons, leaves_elsewhere (h e (by simp))]
      exact leavesAll_elsewhere fun e' he' => h e' (List.mem_cons_of_mem e he')

section Place

variable {q : Path}

/-- Something is at a path afterwards exactly when it was there before or
an effect has its place there. -/
theorem leavesAll_ne_none : ∀ {es : List Effect} {x : Option Node},
    leavesAll es q x ≠ none ↔ x ≠ none ∨ ∃ e ∈ es, e.place = some q
  | [], x => by simp [leavesAll]
  | e :: es, x => by
      rw [leavesAll_cons, leavesAll_ne_none]
      simp only [List.mem_cons, exists_eq_or_imp]
      rw [← or_assoc]
      refine or_congr_left ?_
      by_cases he : e.place = some q
      · exact iff_of_true (leaves_place he x) (Or.inr he)
      · rw [leaves_elsewhere he]
        exact (or_iff_left he).symm

/-- A directory is at a path that no file is written to exactly when it
was there before or is made. -/
theorem leavesAll_eq_dir : ∀ {es : List Effect} {x : Option Node},
    (∀ e ∈ es, e.place = some q → e = .make q) → regular x = none →
      (leavesAll es q x = some .dir ↔ x = some .dir ∨ .make q ∈ es)
  | [], x, _, _ => by simp [leavesAll]
  | e :: es, x, h, hx => by
      have hrest := fun e' he' => h e' (List.mem_cons_of_mem e he')
      rw [leavesAll_cons]
      by_cases he : e.place = some q
      · obtain rfl := h e List.mem_cons_self he
        have hdir : (make q).leaves q x = some .dir := by
          rw [leaves]
          split
          · rfl
          · rename_i hne
            cases x with
            | none => exact absurd ⟨rfl, rfl⟩ hne
            | some x =>
              cases x with
              | dir => rfl
              | file content => simp at hx
        rw [hdir]
        refine iff_of_true ?_ (Or.inr List.mem_cons_self)
        exact (leavesAll_eq_dir hrest rfl).mpr (Or.inl rfl)
      · have hne : make q ≠ e := by
          rintro rfl
          exact he rfl
        rw [leaves_elsewhere he, leavesAll_eq_dir hrest hx, List.mem_cons, or_iff_right hne]

/-- No directory comes to a path where none is made. -/
theorem leavesAll_ne_dir : ∀ {es : List Effect} {x : Option Node}, .make q ∉ es →
    x ≠ some .dir → leavesAll es q x ≠ some .dir
  | [], _, _, hx => hx
  | e :: es, x, h, hx => by
      rw [leavesAll_cons]
      refine leavesAll_ne_dir (fun hm => h (List.mem_cons_of_mem e hm)) ?_
      cases e with
      | keep => exact hx
      | write file text =>
        rw [leaves]
        split
        · simp
        · exact hx
      | append file text =>
        rw [leaves]
        split
        · simp
        · exact hx
      | make dir =>
        rw [leaves, if_neg]
        · exact hx
        · rintro ⟨rfl, -⟩
          exact h List.mem_cons_self

end Place

end Effect

/-! ## 2. Calls -/

section Calls

variable {p p' : Process} {raw text : List Char} {denied : Bool}

theorem openWrite_leads (h : p.openWrite raw denied text = some p') :
    (Effect.write (leadsTo p.cwd raw) text).Leads p.fs p'.fs := by
  obtain ⟨hok, -, -⟩ := Process.openWrite_some h
  obtain ⟨f, hf, -, hnode⟩ := openWrite_ok hok
  intro q
  rw [hnode, resolve_eq_leadsTo hf]
  rfl

theorem openAppend_leads (h : p.openAppend raw denied text = some p') :
    (Effect.append (leadsTo p.cwd raw) text).Leads p.fs p'.fs := by
  obtain ⟨hok, -, -⟩ := Process.openAppend_some h
  obtain ⟨f, hf, hdir, hnode⟩ := openWrite_ok hok
  have hread : (p.fs.openRead p.cwd raw false).getD [] = (regular (p.fs.node f)).getD [] := by
    rw [openRead, if_neg Bool.false_ne_true, hf]
    simp only
    cases p.fs.node f with
    | none => rfl
    | some x =>
      cases x with
      | file content => rfl
      | dir => rfl
  intro q
  rw [hnode, hread, Effect.leaves, ← resolve_eq_leadsTo hf]
  by_cases hq : q = f
  · rw [if_pos hq, if_pos hq, hq]
  · rw [if_neg hq, if_neg hq]

theorem mkdirExistOk_leads (h : p.mkdirExistOk raw denied = some p') :
    (Effect.make (leadsTo p.cwd raw)).Leads p.fs p'.fs := by
  obtain ⟨hmk, -, -⟩ := Process.mkdirExistOk_some h
  obtain ⟨d, hd, -, hmade, hkeep, hframe⟩ := mkdirExistOk_some hmk
  intro q
  rw [Effect.leaves, ← resolveNew_eq_leadsTo hd]
  by_cases hq : q = d ∧ p.fs.node q = none
  · rw [if_pos hq, hq.1]
    exact hmade (hq.1 ▸ hq.2)
  · rw [if_neg hq]
    by_cases hqd : q = d
    · exact hkeep q fun hnone => hq ⟨hqd, hnone⟩
    · exact hframe q hqd

end Calls

/-! ## 3. One file in a run -/

namespace Effect

/-- The effect leaves the content of a regular file at this path alone. -/
def Quiet (e : Effect) (q : Path) : Prop := ∀ x, regular (e.leaves q x) = regular x

theorem quiet_make (dir q : Path) : (make dir).Quiet q := by
  intro x
  rw [leaves]
  split
  · rename_i h
    rw [h.2]
    rfl
  · rfl

theorem quiet_of_place {e : Effect} {q : Path} (h : e.place ≠ some q) : e.Quiet q :=
  fun x => by rw [leaves_elsewhere h]

section Run

variable {ι : Type} {q : Path} {effect : ι → Effect} {text : ι → Option (List Char)}

/-- A file that a run only appends to. -/
theorem regular_appends (happend : ∀ i t, text i = some t → effect i = .append q t)
    (hquiet : ∀ i, text i = none → (effect i).Quiet q) : ∀ (is : List ι) (x : Option Node),
      regular (leavesAll (is.map effect) q x)
        = if is.filterMap text = [] then regular x
          else some ((regular x).getD [] ++ (is.filterMap text).flatten)
  | [], _ => rfl
  | i :: is, x => by
      have ih := regular_appends happend hquiet is ((effect i).leaves q x)
      rw [List.map_cons, leavesAll_cons, ih]
      cases ht : text i with
      | none => rw [List.filterMap_cons_none ht, hquiet i ht]
      | some t =>
        have hfile : regular ((effect i).leaves q x) = some ((regular x).getD [] ++ t) := by
          rw [happend i t ht, leaves, if_pos rfl, regular_file]
        rw [List.filterMap_cons_some ht, hfile, if_neg (List.cons_ne_nil t _), List.flatten_cons,
          Option.getD_some, List.append_assoc]
        split
        · rename_i hnil
          rw [hnil, List.flatten_nil, List.append_nil]
        · rfl

/-- A file that a run only overwrites. -/
theorem regular_writes (hwrite : ∀ i t, text i = some t → effect i = .write q t)
    (hquiet : ∀ i, text i = none → (effect i).Quiet q) : ∀ (is : List ι) (x : Option Node),
      regular (leavesAll (is.map effect) q x)
        = ((is.filterMap text).getLast?).or (regular x)
  | [], _ => rfl
  | i :: is, x => by
      have ih := regular_writes hwrite hquiet is ((effect i).leaves q x)
      rw [List.map_cons, leavesAll_cons, ih]
      cases ht : text i with
      | none => rw [List.filterMap_cons_none ht, hquiet i ht]
      | some t =>
        have hfile : regular ((effect i).leaves q x) = some t := by
          rw [hwrite i t ht, leaves, if_pos rfl, regular_file]
        rw [List.filterMap_cons_some ht, hfile]
        cases is.filterMap text with
        | nil => rfl
        | cons u us => rw [List.getLast?_cons_cons, Option.or_of_isSome (by simp),
            Option.or_of_isSome (by simp)]

end Run

end Effect
end DockerClone.Os
