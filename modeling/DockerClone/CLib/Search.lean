/-
DockerClone.CLib.Search — `strstr`, `strchr` and what a quoted word can
match.

`strstr` and `strchr` return the suffix of the text that starts at the
match, which is what the C pointers denote.

The second half is about texts cut at a separator character.
`List.splitOn` turns a text into its segments, and a word enclosed in two
separators that occurs anywhere in the text is one of the INNER segments
(`segment_of_infix`). For the separator `"` this is the fact every reader
of `"key": "value"` lines rests on: such a text has few quotes, so a
quoted word found in it by substring search is one of few.
-/
import Mathlib.Data.List.Infix
import Mathlib.Data.List.TakeWhile

namespace DockerClone.CLib

/-- `strstr(hay, needle)`: the suffix of `hay` at the first occurrence. -/
def strstr (hay needle : List Char) : Option (List Char) :=
  match hay with
  | [] => if needle = [] then some [] else none
  | c :: cs =>
      if needle.isPrefixOf (c :: cs) then some (c :: cs) else strstr cs needle

/-- `strchr(s, c)`: the suffix of `s` at the first `c`. -/
def strchr (s : List Char) (c : Char) : Option (List Char) :=
  match s.dropWhile (fun d => d != c) with
  | [] => none
  | t => some t

/-- The test `if (strstr(hay, needle))`. -/
def found (hay needle : List Char) : Bool := (strstr hay needle).isSome

/-! ## Occurrence -/

/-- `strstr` succeeds exactly on the texts the needle occurs in. -/
theorem found_iff (hay needle : List Char) : found hay needle = true ↔ needle <:+: hay := by
  unfold found
  induction hay with
  | nil => by_cases h : needle = [] <;> simp [strstr, h]
  | cons c cs ih =>
    rw [strstr]
    split
    · rename_i h
      simp [(List.isPrefixOf_iff_prefix.mp h).isInfix]
    · rename_i h
      rw [ih, List.infix_cons_iff]
      have hp : ¬ needle <+: c :: cs := fun hc => h (List.isPrefixOf_iff_prefix.mpr hc)
      simp [hp]

theorem not_found_iff (hay needle : List Char) :
    found hay needle = false ↔ ¬ needle <:+: hay := by
  rw [← found_iff, Bool.not_eq_true]

/-- A needle at the very start is the first occurrence. -/
theorem strstr_of_prefix {hay needle : List Char} (h : needle <+: hay) :
    strstr hay needle = some hay := by
  cases hay with
  | nil => simp [strstr, List.prefix_nil.mp h]
  | cons c cs => rw [strstr, if_pos (List.isPrefixOf_iff_prefix.mpr h)]

/-- What `strstr` returns starts with the needle. -/
theorem prefix_of_strstr {hay needle s : List Char} (h : strstr hay needle = some s) :
    needle <+: s := by
  induction hay with
  | nil =>
    rw [strstr] at h
    split at h
    · rename_i hn; simp [hn]
    · simp at h
  | cons c cs ih =>
    rw [strstr] at h
    split at h
    · rename_i hp
      rw [← Option.some.inj h]
      exact List.isPrefixOf_iff_prefix.mp hp
    · exact ih h

theorem suffix_of_strstr {hay needle s : List Char} (h : strstr hay needle = some s) :
    s <:+ hay := by
  induction hay with
  | nil =>
    rw [strstr] at h
    split at h
    · rw [← Option.some.inj h]
    · simp at h
  | cons c cs ih =>
    rw [strstr] at h
    split at h
    · rw [← Option.some.inj h]
    · exact (ih h).trans (List.suffix_cons c cs)

/-- The first occurrence stays the first when the text goes on. -/
theorem strstr_append {hay needle s : List Char} (h : strstr hay needle = some s)
    (rest : List Char) : strstr (hay ++ rest) needle = some (s ++ rest) := by
  induction hay with
  | nil =>
    rw [strstr] at h
    split at h
    · rename_i hnil
      rw [hnil, ← Option.some.inj h]
      exact strstr_of_prefix List.nil_prefix
    · simp at h
  | cons c cs ih =>
    rw [strstr] at h
    split at h
    · rename_i hpre
      rw [← Option.some.inj h]
      exact strstr_of_prefix ((List.isPrefixOf_iff_prefix.mp hpre).trans (List.prefix_append _ _))
    · rename_i hpre
      have hlong : ¬ needle <+: c :: (cs ++ rest) := by
        intro hlong
        have hfound := prefix_of_strstr h
        have hshort : needle.length ≤ (c :: cs).length :=
          hfound.length_le.trans ((suffix_of_strstr h).length_le.trans (Nat.le_succ _))
        exact hpre (List.isPrefixOf_iff_prefix.mpr
          (List.prefix_of_prefix_length_le hlong (List.prefix_append (c :: cs) rest) hshort))
      rw [List.cons_append, strstr, if_neg fun hp => hlong (List.isPrefixOf_iff_prefix.mp hp)]
      exact ih h

/-- A needle behind a text that holds no earlier one. -/
theorem strstr_of_first {front needle : List Char} (hne : needle ≠ [])
    (h : ¬ needle <:+: front ++ needle.dropLast) (rest : List Char) :
    strstr (front ++ needle ++ rest) needle = some (needle ++ rest) := by
  induction front with
  | nil => exact strstr_of_prefix (List.prefix_append needle rest)
  | cons c front ih =>
    have htail : ¬ needle <:+: front ++ needle.dropLast :=
      fun hin => h (List.infix_cons_iff.mpr (Or.inr hin))
    have hhead : ¬ needle <+: c :: front ++ needle ++ rest := by
      intro hpre
      have hlast := List.dropLast_append_getLast hne
      have hcut : (c :: front) ++ needle.dropLast <+: c :: front ++ needle ++ rest := by
        refine ⟨[needle.getLast hne] ++ rest, ?_⟩
        rw [← List.append_assoc, List.append_assoc (c :: front), hlast]
      have hshort : needle.length ≤ ((c :: front) ++ needle.dropLast).length := by
        simp only [List.length_append, List.length_cons, List.length_dropLast]
        omega
      exact h (List.prefix_of_prefix_length_le hpre hcut hshort).isInfix
    rw [List.cons_append, List.cons_append] at hhead ⊢
    rw [strstr, if_neg fun hpre => hhead (List.isPrefixOf_iff_prefix.mp hpre)]
    exact ih htail

theorem strchr_of_append {s : List Char} {c : Char} (h : c ∉ s) (t : List Char) :
    strchr (s ++ c :: t) c = some (c :: t) := by
  have hs : ∀ d ∈ s, (fun d => d != c) d = true := by
    intro d hd
    have : d ≠ c := fun e => h (e ▸ hd)
    simpa using this
  rw [strchr, List.dropWhile_append_of_pos hs]
  simp

theorem strchr_of_not_mem {s : List Char} {c : Char} (h : c ∉ s) : strchr s c = none := by
  have hs : s.dropWhile (fun d => d != c) = [] := by
    rw [List.dropWhile_eq_nil_iff]
    intro d hd
    have : d ≠ c := fun e => h (e ▸ hd)
    simpa using this
  rw [strchr, hs]

/-- A needle that starts with a character the text has only at its front
occurs only there. -/
theorem infix_cons_of_not_mem {c : Char} {needle t : List Char} (h : c ∉ t) :
    c :: needle <:+: c :: t ↔ needle <+: t := by
  rw [List.infix_cons_iff]
  constructor
  · rintro (hp | ⟨a, b, hab⟩)
    · exact (List.cons_prefix_cons.mp hp).2
    · exact absurd (hab ▸ by simp) h
  · exact fun hp => Or.inl (List.cons_prefix_cons.mpr ⟨rfl, hp⟩)

/-- A place where the needle does not start is passed over. -/
theorem strstr_cons_of_not_pre {c : Char} {t needle : List Char} (h : ¬ needle <+: c :: t) :
    strstr (c :: t) needle = strstr t needle := by
  rw [strstr, if_neg fun hpre => h (List.isPrefixOf_iff_prefix.mp hpre)]

/-- So is a text without the first character of the needle. -/
theorem strstr_append_of_not_mem {c : Char} {a : List Char} (h : c ∉ a) (t needle : List Char) :
    strstr (a ++ t) (c :: needle) = strstr t (c :: needle) := by
  induction a with
  | nil => rfl
  | cons d a ih =>
    obtain ⟨hd, ha⟩ : c ≠ d ∧ c ∉ a := by simpa using h
    rw [List.cons_append, strstr_cons_of_not_pre fun hp => hd (List.cons_prefix_cons.mp hp).1,
      ih ha]

/-- Characters other than its first cannot start a needle. -/
theorem infix_append_of_not_mem {c : Char} {needle a t : List Char} (h : c ∉ a) :
    c :: needle <:+: a ++ t ↔ c :: needle <:+: t := by
  induction a with
  | nil => rfl
  | cons d a ih =>
    obtain ⟨hd, ha⟩ : c ≠ d ∧ c ∉ a := by simpa using h
    rw [List.cons_append, List.infix_cons_iff, ih ha]
    exact or_iff_right fun hp => hd (List.cons_prefix_cons.mp hp).1

theorem strchr_append_of_not_mem {s : List Char} {c : Char} (h : c ∉ s) (t : List Char) :
    strchr (s ++ t) c = strchr t c := by
  have hs : ∀ d ∈ s, (fun d => d != c) d = true := by
    intro d hd
    have : d ≠ c := fun e => h (e ▸ hd)
    simpa using this
  rw [strchr, List.dropWhile_append_of_pos hs, strchr]

theorem strchr_length_le {s found : List Char} {c : Char} (h : strchr s c = some found) :
    found.length ≤ s.length := by
  rw [strchr] at h
  split at h
  · simp at h
  · rw [← Option.some.inj h]
    exact (List.dropWhile_suffix _).length_le

/-! ## Separators -/

/-- What starts before a separator and does not hold it ends before it. -/
theorem prefix_of_prefix_sep {q : Char} {needle a b : List Char} (hq : q ∉ needle)
    (h : needle <+: a ++ q :: b) : needle <+: a := by
  rcases List.prefix_or_prefix_of_prefix h (List.prefix_append a (q :: b)) with hshort | hlong
  · exact hshort
  · obtain ⟨t, rfl⟩ := hlong
    cases t with
    | nil => rw [List.append_nil]
    | cons c t =>
      have hc : c :: t <+: q :: b := (List.prefix_append_right_inj a).mp h
      have hqc : c = q := (List.cons_prefix_cons.mp hc).1
      exact absurd (by simp [hqc]) hq

/-- Texts that start alike up to a separator go on alike. -/
theorem prefix_append_sep_iff {q : Char} {a b c d : List Char} (ha : q ∉ a) (hc : q ∉ c) :
    a ++ q :: b <+: c ++ q :: d ↔ a = c ∧ b <+: d := by
  constructor
  · intro h
    have hac : a <+: c := prefix_of_prefix_sep ha ((List.prefix_append a _).trans h)
    obtain ⟨t, rfl⟩ := hac
    rw [List.append_assoc, List.prefix_append_right_inj] at h
    cases t with
    | nil =>
      rw [List.nil_append, List.cons_prefix_cons] at h
      exact ⟨(List.append_nil a).symm, h.2⟩
    | cons e t =>
      rw [List.cons_append, List.cons_prefix_cons] at h
      rw [h.1] at hc
      simp at hc
  · rintro ⟨rfl, h⟩
    exact (List.prefix_append_right_inj a).mpr (List.cons_prefix_cons.mpr ⟨rfl, h⟩)

/-- The first separator cuts a text in one way. -/
theorem append_sep_inj {q : Char} {a b c d : List Char} (ha : q ∉ a) (hc : q ∉ c)
    (h : a ++ q :: b = c ++ q :: d) : a = c ∧ b = d := by
  have hpre : a ++ q :: b <+: c ++ q :: d := by rw [h]
  have hac : a = c := ((prefix_append_sep_iff ha hc).mp hpre).1
  rw [hac] at h
  exact ⟨hac, (List.cons.inj (List.append_cancel_left h)).2⟩

/-- A needle that starts with a separator starts at one of them. -/
theorem infix_cons_append_iff {q : Char} {needle a t : List Char} (ha : q ∉ a) :
    q :: needle <:+: q :: (a ++ q :: t) ↔
      needle <+: a ++ q :: t ∨ q :: needle <:+: q :: t := by
  rw [List.infix_cons_iff, List.cons_prefix_cons, infix_append_of_not_mem ha]
  simp only [true_and]

/-- So a search that fails before a separator goes on behind it. -/
theorem strstr_append_sep {q : Char} {hay needle : List Char} (hq : q ∉ needle)
    (h : strstr hay needle = none) (rest : List Char) :
    strstr (hay ++ q :: rest) needle = strstr rest needle := by
  induction hay with
  | nil =>
    refine strstr_cons_of_not_pre fun hpre => ?_
    have hnil := List.prefix_nil.mp (prefix_of_prefix_sep hq (a := []) hpre)
    rw [hnil, strstr_of_prefix List.nil_prefix] at h
    simp at h
  | cons c hay ih =>
    have hstart : ¬ needle <+: c :: hay := by
      intro hpre
      rw [ strstr_of_prefix hpre] at h
      simp at h
    rw [strstr_cons_of_not_pre hstart] at h
    have hlong : ¬ needle <+: c :: (hay ++ q :: rest) :=
      fun hpre => hstart (prefix_of_prefix_sep hq hpre)
    rw [List.cons_append, strstr_cons_of_not_pre hlong]
    exact ih h

/-- Cutting at a separator is cutting the two sides. -/
theorem splitOn_sep (q : Char) (a b : List Char) :
    (a ++ q :: b).splitOn q = a.splitOn q ++ b.splitOn q :=
  List.splitOn_append_cons_self a b

theorem splitOn_word {q : Char} {w : List Char} (h : q ∉ w) : w.splitOn q = [w] :=
  List.splitOn_eq_singleton h

/-- Lines, each with its end, and what is behind them. -/
theorem splitOn_lines {q : Char} (tail : List Char) : ∀ {lines : List (List Char)},
    (∀ line ∈ lines, q ∉ line) →
      (lines.flatMap (· ++ [q]) ++ tail).splitOn q = lines ++ tail.splitOn q
  | [], _ => rfl
  | line :: lines, h => by
      have ih := splitOn_lines tail fun l hl => h l (List.mem_cons_of_mem line hl)
      rw [List.flatMap_cons, List.append_assoc, List.append_assoc, List.singleton_append,
        splitOn_sep, splitOn_word (h line (List.mem_cons_self ..)), ih]
      rfl

/-- A join cut at its separator: the segments of what was joined. -/
theorem splitOn_intercalate_flatMap (q : Char) : ∀ {values : List (List Char)}, values ≠ [] →
    (List.intercalate [q] values).splitOn q = values.flatMap fun value => value.splitOn q
  | [], h => absurd rfl h
  | [value], _ => by simp
  | value :: second :: rest, _ => by
      have ih := splitOn_intercalate_flatMap q (List.cons_ne_nil second rest)
      rw [List.intercalate_cons_cons, List.append_assoc, List.singleton_append, splitOn_sep, ih]
      rfl

/-- The first of the joined texts, and each other behind a separator. -/
theorem intercalate_cons (q : Char) (value : List Char) : ∀ rest : List (List Char),
    List.intercalate [q] (value :: rest) = value ++ rest.flatMap fun v => q :: v
  | [] => by simp
  | second :: rest => by
      rw [List.intercalate_cons_cons, intercalate_cons q second rest, List.flatMap_cons]
      simp

/-- No segment holds the separator. -/
theorem not_mem_of_mem_splitOn {q : Char} : ∀ {t w : List Char}, w ∈ t.splitOn q → q ∉ w
  | [], w, hw => by
      rw [List.splitOn_nil, List.mem_singleton] at hw
      simp [hw]
  | c :: t, w, hw => by
      rw [List.splitOn_cons_eq_if_modifyHead] at hw
      split at hw
      · rcases List.mem_cons.mp hw with rfl | hw
        · simp
        · exact not_mem_of_mem_splitOn hw
      · rename_i hc
        obtain ⟨u, us, hu⟩ := List.exists_cons_of_ne_nil (List.splitOn_ne_nil q t)
        rw [hu, List.modifyHead_cons] at hw
        rcases List.mem_cons.mp hw with rfl | hw
        · have hne : q ≠ c := fun e => hc (by simp [e])
          have hrest : q ∉ u := not_mem_of_mem_splitOn (hu ▸ List.mem_cons_self)
          simp [hne, hrest]
        · exact not_mem_of_mem_splitOn (hu ▸ List.mem_cons_of_mem u hw)

/-- A segment holds characters of the text only. -/
theorem subset_of_mem_splitOn {q : Char} : ∀ {t w : List Char}, w ∈ t.splitOn q → w ⊆ t
  | [], w, hw => by
      rw [List.splitOn_nil, List.mem_singleton] at hw
      simp [hw]
  | c :: t, w, hw => by
      rw [List.splitOn_cons_eq_if_modifyHead] at hw
      split at hw
      · rcases List.mem_cons.mp hw with rfl | hw
        · exact List.nil_subset _
        · exact List.subset_cons_of_subset c (subset_of_mem_splitOn hw)
      · obtain ⟨u, us, hu⟩ := List.exists_cons_of_ne_nil (List.splitOn_ne_nil q t)
        rw [hu, List.modifyHead_cons] at hw
        rcases List.mem_cons.mp hw with rfl | hw
        · exact List.cons_subset_cons c (subset_of_mem_splitOn (hu ▸ List.mem_cons_self))
        · have hseg : w ∈ t.splitOn q := hu ▸ List.mem_cons_of_mem u hw
          exact List.subset_cons_of_subset c (subset_of_mem_splitOn hseg)

/-- The first segment of a text starts with any separator-free prefix of
it. -/
theorem splitOn_prefix {q : Char} {w : List Char} (h : q ∉ w) (t : List Char) :
    ∃ u us, t.splitOn q = u :: us ∧ (w ++ t).splitOn q = (w ++ u) :: us := by
  induction w with
  | nil =>
    cases hs : t.splitOn q with
    | nil => exact absurd hs (List.splitOn_ne_nil q t)
    | cons u us => exact ⟨u, us, rfl, hs⟩
  | cons c w ih =>
    obtain ⟨u, us, hu, hw⟩ := ih (fun hm => h (List.mem_cons_of_mem _ hm))
    have hc : ¬ (c == q) = true := by
      have : c ≠ q := fun e => h (e ▸ List.mem_cons_self)
      simpa using this
    refine ⟨u, us, hu, ?_⟩
    rw [List.cons_append, List.splitOn_cons_eq_if_modifyHead, if_neg hc, hw]
    rfl

/-- A word enclosed in two separators that occurs in a text is one of its
inner segments: there is at least one segment before it and one after. -/
theorem segment_of_infix {q : Char} {w t : List Char} (hw : q ∉ w)
    (h : q :: w ++ [q] <:+: t) :
    ∃ before after, before ≠ [] ∧ after ≠ [] ∧ t.splitOn q = before ++ w :: after := by
  obtain ⟨a, b, rfl⟩ := h
  refine ⟨a.splitOn q, b.splitOn q, List.splitOn_ne_nil q a, List.splitOn_ne_nil q b, ?_⟩
  rw [show a ++ (q :: w ++ [q]) ++ b = a ++ q :: (w ++ q :: b) by simp,
    splitOn_sep, splitOn_sep, splitOn_word hw]
  rfl

end DockerClone.CLib
