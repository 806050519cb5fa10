/-
DockerClone.CLib.Stream — a text read by `while (fgets(line, size, fp))`.

`fgetsLines size text` is the list of the strings `line` holds in the
successive rounds of that loop. A call stops behind a newline, after
`size - 1` characters, or at the end of the text, so a physical line of
the text longer than that comes in several pieces.

A newline always ends a piece. Hence the pieces of two texts joined at a
newline are the pieces of the one followed by the pieces of the other
(`fgetsLines_append`), and a reader of `key: value` lines can be analysed
one written line at a time, however the values cut the line into pieces.
-/
import Mathlib.Data.List.Infix

namespace DockerClone.CLib

/-- The pieces of a text, given the room left in the current call and the
characters it has read so far. -/
def fgetsFrom (size : Nat) : List Char → Nat → List Char → List (List Char)
  | [], _, part => if part = [] then [] else [part]
  | c :: cs, room, part =>
      if c = '\n' ∨ room ≤ 1 then (part ++ [c]) :: fgetsFrom size cs (size - 1) []
      else fgetsFrom size cs (room - 1) (part ++ [c])

/-- What the successive calls `fgets(line, size, fp)` read. -/
def fgetsLines (size : Nat) (text : List Char) : List (List Char) :=
  fgetsFrom size text (size - 1) []

@[simp] theorem fgetsLines_nil (size : Nat) : fgetsLines size [] = [] := rfl

/-- Nothing is lost or repeated. -/
theorem fgetsFrom_flatten (size : Nat) : ∀ (text : List Char) (room : Nat) (part : List Char),
    (fgetsFrom size text room part).flatten = part ++ text
  | [], _, part => by
      rw [fgetsFrom]
      split <;> simp_all
  | c :: cs, room, part => by
      rw [fgetsFrom]
      split
      · rw [List.flatten_cons, fgetsFrom_flatten size cs]; simp
      · rw [fgetsFrom_flatten size cs]; simp

theorem fgetsLines_flatten (size : Nat) (text : List Char) :
    (fgetsLines size text).flatten = text :=
  fgetsFrom_flatten size text _ _

/-- Every piece is a contiguous part of the text. -/
theorem infix_of_mem_fgetsLines {size : Nat} {text piece : List Char}
    (h : piece ∈ fgetsLines size text) : piece <:+: text := by
  obtain ⟨before, after, hsplit⟩ := List.append_of_mem h
  refine ⟨before.flatten, after.flatten, ?_⟩
  have hflat := fgetsLines_flatten size text
  rw [hsplit] at hflat
  simpa using hflat

/-- A newline ends the piece it is in, whatever was read before it. -/
theorem fgetsFrom_newline (size : Nat) (rest : List Char) :
    ∀ (text : List Char) (room : Nat) (part : List Char),
      fgetsFrom size (text ++ '\n' :: rest) room part
        = fgetsFrom size (text ++ ['\n']) room part ++ fgetsLines size rest
  | [], room, part => by simp [fgetsFrom, fgetsLines]
  | c :: cs, room, part => by
      rw [List.cons_append, fgetsFrom, List.cons_append, fgetsFrom]
      split
      · rw [fgetsFrom_newline size rest cs]; rfl
      · exact fgetsFrom_newline size rest cs _ _

/-- The pieces of two texts joined at a newline. -/
theorem fgetsLines_append (size : Nat) {text : List Char} (h : text.getLast? = some '\n')
    (rest : List Char) :
    fgetsLines size (text ++ rest) = fgetsLines size text ++ fgetsLines size rest := by
  obtain ⟨init, rfl⟩ : ∃ init, text = init ++ ['\n'] := by
    obtain ⟨init, hinit⟩ := List.getLast?_eq_some_iff.mp h
    exact ⟨init, hinit⟩
  rw [List.append_assoc, List.singleton_append]
  exact fgetsFrom_newline size rest init _ _

/-- A piece is not empty, and a newline can only be its last character. -/
theorem mem_fgetsFrom (size : Nat) : ∀ {text : List Char} {room : Nat} {part piece : List Char},
    '\n' ∉ part → piece ∈ fgetsFrom size text room part →
      piece ≠ [] ∧ ∃ w, '\n' ∉ w ∧ (piece = w ∨ piece = w ++ ['\n'])
  | [], _, part, piece, hpart, h => by
      rw [fgetsFrom] at h
      split at h
      · simp at h
      · rename_i hne
        obtain rfl := List.mem_singleton.mp h
        exact ⟨hne, piece, hpart, Or.inl rfl⟩
  | c :: cs, room, part, piece, hpart, h => by
      have hnext : c ≠ '\n' → '\n' ∉ part ++ [c] := by
        intro hc hm
        rcases List.mem_append.mp hm with hm | hm
        · exact hpart hm
        · exact hc (List.mem_singleton.mp hm).symm
      rw [fgetsFrom] at h
      split at h
      · rcases List.mem_cons.mp h with rfl | h
        · refine ⟨by simp, ?_⟩
          by_cases hc : c = '\n'
          · exact ⟨part, hpart, Or.inr (by rw [hc])⟩
          · exact ⟨part ++ [c], hnext hc, Or.inl rfl⟩
        · exact mem_fgetsFrom size (by simp) h
      · rename_i hc
        exact mem_fgetsFrom size (hnext fun he => hc (Or.inl he)) h

theorem mem_fgetsLines {size : Nat} {text piece : List Char} (h : piece ∈ fgetsLines size text) :
    piece ≠ [] ∧ ∃ w, '\n' ∉ w ∧ (piece = w ∨ piece = w ++ ['\n']) :=
  mem_fgetsFrom size (by simp) h

/-- The buffer is full before the line ends. -/
theorem fgetsFrom_full (size : Nat) (rest : List Char) : ∀ (w : List Char) (c : Char)
    (part : List Char), '\n' ∉ w →
      fgetsFrom size (w ++ c :: rest) (w.length + 1) part
        = (part ++ w ++ [c]) :: fgetsLines size rest
  | [], c, part, _ => by
      rw [List.nil_append, fgetsFrom, if_pos (Or.inr (by simp)), List.append_nil]
      rfl
  | d :: w, c, part, hw => by
      have hd : d ≠ '\n' := fun e => hw (by simp [e])
      rw [List.cons_append, fgetsFrom, if_neg (by simp [hd]),
        List.length_cons, Nat.add_sub_cancel,
        fgetsFrom_full size rest w c _ (fun hm => hw (List.mem_cons_of_mem d hm))]
      simp

theorem fgetsLines_full {size : Nat} {w : List Char} (hw : '\n' ∉ w) (hne : w ≠ [])
    (hsize : w.length + 1 = size) (rest : List Char) :
    fgetsLines size (w ++ rest) = w :: fgetsLines size rest := by
  obtain ⟨init, c, rfl⟩ : ∃ init c, w = init ++ [c] :=
    ⟨w.dropLast, w.getLast hne, (List.dropLast_concat_getLast hne).symm⟩
  have hinit : '\n' ∉ init := fun hm => hw (List.mem_append_left _ hm)
  rw [List.length_append, List.length_singleton] at hsize
  have hroom : size - 1 = init.length + 1 := by omega
  rw [fgetsLines, hroom, List.append_assoc, List.singleton_append, fgetsFrom_full size rest init c
    [] hinit, List.nil_append]

/-- A line that fits the buffer is one piece. -/
theorem fgetsFrom_line (size : Nat) : ∀ (w : List Char) (room : Nat) (part : List Char),
    '\n' ∉ w → w.length < room →
    fgetsFrom size (w ++ ['\n']) room part = [part ++ w ++ ['\n']]
  | [], _, part, _, _ => by simp [fgetsFrom]
  | c :: cs, room, part, hw, hroom => by
      have hc : c ≠ '\n' := fun e => hw (by simp [e])
      simp only [List.length_cons] at hroom
      rw [List.cons_append, fgetsFrom, if_neg (by simp only [hc, false_or]; omega),
        fgetsFrom_line size cs (room - 1) _ (fun hm => hw (List.mem_cons_of_mem _ hm))
          (by omega)]
      simp

theorem fgetsLines_line {size : Nat} {w : List Char} (hw : '\n' ∉ w)
    (hsize : w.length + 1 < size) : fgetsLines size (w ++ ['\n']) = [w ++ ['\n']] := by
  have := fgetsFrom_line size w (size - 1) [] hw (by omega)
  simpa [fgetsLines] using this

/-- A last line without a newline is one piece as well. -/
theorem fgetsFrom_last (size : Nat) : ∀ (w : List Char) (room : Nat) (part : List Char),
    '\n' ∉ w → w.length < room → part ++ w ≠ [] → fgetsFrom size w room part = [part ++ w]
  | [], _, part, _, _, hne => by
      rw [List.append_nil] at hne
      rw [fgetsFrom, if_neg hne, List.append_nil]
  | c :: cs, room, part, hw, hroom, _ => by
      have hc : c ≠ '\n' := fun e => hw (by simp [e])
      simp only [List.length_cons] at hroom
      rw [fgetsFrom, if_neg (by simp only [hc, false_or]; omega),
        fgetsFrom_last size cs (room - 1) _ (fun hm => hw (List.mem_cons_of_mem _ hm))
          (by omega) (by simp)]
      simp

theorem fgetsLines_last {size : Nat} {w : List Char} (hw : '\n' ∉ w) (hne : w ≠ [])
    (hsize : w.length + 1 < size) : fgetsLines size w = [w] :=
  fgetsFrom_last size w (size - 1) [] hw (by omega) (by simpa using hne)

end DockerClone.CLib
