/-
DockerClone.CLib.Strtok — `strtok` with its single saved position.

`strtok` keeps one hidden pointer. A call on a string starts there, a
call on NULL starts at the saved pointer, and either way the pointer is
left behind the token just returned. Since a call never looks past the
first NUL from where it starts, the whole state is the C string at the
saved pointer: `strtok s delims` takes the string it starts on and
returns the token, if any, with the string now saved.

A call on a new string discards the old saved pointer. That is why
restarting `strtok` on a token of its own loses the text behind that
token: the token is a C string that ends where the token ends, so the
saved string can only be a piece of it (`strtok_saved_suffix`).
-/
import DockerClone.CLib.Search
import Mathlib.Data.List.TakeWhile
import Mathlib.Data.List.Infix

namespace DockerClone.CLib

/-- One call: skip leading delimiters, return the characters up to the
next delimiter, save what is behind that delimiter. -/
def strtok (s delims : List Char) : Option (List Char) × List Char :=
  match s.dropWhile (fun c => delims.contains c) with
  | [] => (none, [])
  | c :: t =>
      (some ((c :: t).takeWhile (fun c => !delims.contains c)),
        ((c :: t).dropWhile (fun c => !delims.contains c)).drop 1)

@[simp] theorem strtok_nil (delims : List Char) : strtok [] delims = (none, []) := rfl

/-- Leading delimiters are skipped. -/
theorem strtok_skip {c : Char} {delims : List Char} (h : c ∈ delims) (s : List Char) :
    strtok (c :: s) delims = strtok s delims := by
  have hc : delims.contains c = true := by simpa using h
  rw [strtok, List.dropWhile_cons, if_pos hc, strtok]

/-- A word followed by a delimiter is the token, and what is behind that
delimiter is saved. -/
theorem strtok_word {w delims : List Char} {d : Char} (hne : w ≠ [])
    (hw : ∀ c ∈ w, c ∉ delims) (hd : d ∈ delims) (t : List Char) :
    strtok (w ++ d :: t) delims = (some w, t) := by
  have hkeep : ∀ c ∈ w, (!delims.contains c) = true := by
    intro c hc; simpa using hw c hc
  obtain ⟨c, w', rfl⟩ := List.exists_cons_of_ne_nil hne
  have hc : ¬ delims.contains c = true := by simpa using hw c (by simp)
  have hstart : (c :: w' ++ d :: t).dropWhile (fun c => delims.contains c)
      = c :: (w' ++ d :: t) := by
    rw [List.cons_append, List.dropWhile_cons, if_neg hc]
  rw [strtok, hstart]
  simp only
  rw [← List.cons_append, List.takeWhile_append_of_pos hkeep,
    List.dropWhile_append_of_pos hkeep]
  simp [hd]

/-- A word that ends the string is the token, and nothing is left. -/
theorem strtok_last {w delims : List Char} (hne : w ≠ []) (hw : ∀ c ∈ w, c ∉ delims) :
    strtok w delims = (some w, []) := by
  have hkeep : ∀ c ∈ w, (!delims.contains c) = true := by
    intro c hc; simpa using hw c hc
  obtain ⟨c, w', rfl⟩ := List.exists_cons_of_ne_nil hne
  have hc : ¬ delims.contains c = true := by simpa using hw c (by simp)
  have hstart : (c :: w').dropWhile (fun c => delims.contains c) = c :: w' := by
    rw [List.dropWhile_cons, if_neg hc]
  rw [strtok, hstart]
  simp only
  rw [List.takeWhile_eq_self_iff.mpr hkeep, List.dropWhile_eq_nil_iff.mpr hkeep]
  rfl

/-- What is saved is a piece of the string the call started on. -/
theorem strtok_saved_suffix (s delims : List Char) : (strtok s delims).2 <:+ s := by
  rw [strtok]
  split
  · exact List.nil_suffix
  · rename_i c t h
    calc ((c :: t).dropWhile (fun c => !delims.contains c)).drop 1
        <:+ (c :: t).dropWhile (fun c => !delims.contains c) := List.drop_suffix _ _
      _ <:+ c :: t := List.dropWhile_suffix _
      _ <:+ s := h ▸ List.dropWhile_suffix _

/-- Every token consumes at least one character. -/
theorem strtok_saved_length {s delims w : List Char} (h : (strtok s delims).1 = some w) :
    (strtok s delims).2.length < s.length := by
  have hs : (s.dropWhile (fun c => delims.contains c)).length ≤ s.length :=
    (List.dropWhile_suffix _).length_le
  rw [strtok] at h ⊢
  split at h
  · simp at h
  · rename_i c t hd
    rw [hd] at hs
    simp only [List.length_drop]
    have := (List.dropWhile_suffix (fun c => !delims.contains c) (l := c :: t)).length_le
    simp only [List.length_cons] at this hs
    omega

/-! ## Words -/

/-- The words of a text: its non-empty segments between separators. -/
def words (sep : Char) (s : List Char) : List (List Char) :=
  (s.splitOn sep).filter (fun w => w != [])

theorem words_sep (sep : Char) (a b : List Char) :
    words sep (a ++ sep :: b) = words sep a ++ words sep b := by
  rw [words, splitOn_sep, List.filter_append, words, words]

theorem words_word {sep : Char} {w : List Char} (hne : w ≠ []) (hw : sep ∉ w) :
    words sep w = [w] := by
  rw [words, splitOn_word hw]
  simp [hne]

theorem not_mem_separator {sep : Char} {w : List Char} (hw : sep ∉ w) : ∀ d ∈ w, d ∉ [sep] :=
  fun _ hd he => hw (List.mem_singleton.mp he ▸ hd)

/-- `strtok` takes the words one after the other. -/
theorem strtok_words (sep : Char) : ∀ s : List Char,
    (strtok s [sep]).1 = (words sep s).head? ∧
      words sep (strtok s [sep]).2 = (words sep s).tail
  | [] => ⟨rfl, rfl⟩
  | c :: s => by
      by_cases hc : c = sep
      · subst hc
        have hskip : words c (c :: s) = words c s := words_sep c [] s
        rw [strtok_skip (List.mem_singleton.mpr rfl), hskip]
        exact strtok_words c s
      · by_cases hmem : sep ∈ c :: s
        · obtain ⟨w, rest, htext, hw⟩ := List.eq_append_cons_of_mem hmem
          have hne : w ≠ [] := by
            rintro rfl
            exact hc (List.cons.inj htext).1
          rw [htext, strtok_word hne (not_mem_separator hw)
            (List.mem_singleton.mpr rfl), words_sep, words_word hne hw]
          exact ⟨rfl, rfl⟩
        · rw [strtok_last (List.cons_ne_nil c _) (not_mem_separator hmem),
            words_word (by simp) hmem]
          exact ⟨rfl, rfl⟩

/-- A token with something saved behind it is the token of every longer
text, and more is saved. -/
theorem strtok_prefix {sep : Char} {p t w saved : List Char} (hpre : p <+: t)
    (h : strtok p [sep] = (some w, saved)) (hsaved : saved ≠ []) :
    ∃ more, strtok t [sep] = (some w, more) ∧ saved <+: more := by
  induction p generalizing t with
  | nil => simp at h
  | cons c p ih =>
    obtain ⟨rest, rfl⟩ := hpre
    by_cases hc : c = sep
    · subst hc
      rw [strtok_skip (List.mem_singleton.mpr rfl)] at h
      rw [List.cons_append, strtok_skip (List.mem_singleton.mpr rfl)]
      exact ih (List.prefix_append _ _) h
    · by_cases hmem : sep ∈ c :: p
      · obtain ⟨v, tail, htext, hv⟩ := List.eq_append_cons_of_mem hmem
        have hne : v ≠ [] := by
          rintro rfl
          exact hc (List.cons.inj htext).1
        have htok : ∀ tail, strtok (v ++ sep :: tail) [sep] = (some v, tail) :=
          strtok_word hne (not_mem_separator hv)
            (List.mem_singleton.mpr rfl)
        rw [htext, htok] at h
        obtain ⟨hw, rfl⟩ := Prod.mk.inj h
        refine ⟨tail ++ rest, ?_, List.prefix_append _ _⟩
        rw [htext, List.append_assoc, List.cons_append, htok, hw]
      · rw [strtok_last (List.cons_ne_nil c _) (not_mem_separator hmem)] at h
        exact absurd (Prod.mk.inj h).2.symm hsaved

/-- A longer text has a token where a shorter one has. -/
theorem strtok_isSome_of_prefix {sep : Char} {p t : List Char} (hpre : p <+: t)
    (h : (strtok p [sep]).1.isSome = true) : (strtok t [sep]).1.isSome = true := by
  have hmem : ∀ s : List Char, (strtok s [sep]).1.isSome = true ↔ ∃ c ∈ s, c ≠ sep := by
    intro s
    rw [strtok]
    cases hs : s.dropWhile (fun c => [sep].contains c) with
    | nil =>
      rw [List.dropWhile_eq_nil_iff] at hs
      simpa using hs
    | cons c rest =>
      have hc := List.head?_dropWhile_not (fun c => [sep].contains c) s
      rw [hs] at hc
      refine iff_of_true rfl ⟨c, (List.dropWhile_suffix _).subset (hs ▸ List.mem_cons_self), ?_⟩
      simpa using hc
  rw [hmem] at h ⊢
  obtain ⟨c, hc, hne⟩ := h
  exact ⟨c, hpre.subset hc, hne⟩

end DockerClone.CLib
