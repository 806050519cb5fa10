/-
DockerClone.CLib.CString — C strings in character arrays, as `<string.h>`
and the output half of `<stdio.h>` treat them.

A character is a `Char`, one for each byte. A `char a[N]` is the list of
the characters it holds, terminator and stale tail included; the string
`a` denotes is `cstr a`, everything before the first NUL. A library call
that writes a string with its terminator is `store`; the bytes after the
terminator keep what they held, which is how the contents of an
uninitialised array reach the program.

Arrays carry no length of their own. A write that runs past the declared
size of its array makes the list longer than that size, so an overrun is
visible as a length and is never silently cut. `strcatWithin` and
`scanWithin` are for the arrays callers can overrun: their result is
`none` when the write does not fit.

Nor does a list show the memory behind its array. Where an array holds no
NUL, `cstr` ends with the list, and a C call would read on into whatever
lies behind; `HoldsString` is the condition under which the two are the
same, and results about an array that may be stale ask for it.

`strncpy` is the one call that may leave its target unterminated
(`cstr_strncpy_full`): when the source has `n` characters or more it
writes exactly `n` of them and no NUL.
-/
import Mathlib.Data.List.TakeWhile

namespace DockerClone.CLib

-- A statement about every character of a string is decided along the
-- string, ahead of the instance that runs over the whole of `Char`.
instance (priority := 1100) decidableForallMem (p : Char → Prop) [DecidablePred p]
    (s : List Char) : Decidable (∀ c ∈ s, p c) := List.decidableBAll p s

/-- The terminator of a C string. -/
def nul : Char := '\x00'

/-- The string an array denotes: its characters before the first NUL. -/
def cstr (buf : List Char) : List Char := buf.takeWhile (fun c => c != nul)

/-- A text a C string can hold. -/
def NulFree (s : List Char) : Prop := nul ∉ s

instance (s : List Char) : Decidable (NulFree s) := by
  unfold NulFree; infer_instance

/-- `memset(buf, 0, n)`, also the initialiser `= {0}`. -/
def zeros (n : Nat) : List Char := List.replicate n nul

/-- Write `s` and its terminator at the start of `buf`: the effect of
`strcpy` and of a `%[` conversion. -/
def store (buf s : List Char) : List Char := s ++ nul :: buf.drop (s.length + 1)

/-- `strcpy(dst, src)`. -/
def strcpy (dst src : List Char) : List Char := store dst src

/-- `strncpy(dst, src, n)`: at most `n` characters of `src`, padded with
NULs up to `n`; no terminator when `src` has `n` characters or more. -/
def strncpy (dst src : List Char) (n : Nat) : List Char :=
  src.take n ++ List.replicate (n - src.length) nul ++ dst.drop n

/-- `strcat(dst, src)`. -/
def strcat (dst src : List Char) : List Char := store dst (cstr dst ++ src)

/-- `dst[0] = '\0'`. -/
def clear (dst : List Char) : List Char := store dst []

/-- The string `snprintf(buf, size, …)` leaves in `buf` when the full
expansion of its format is `s`. -/
def snprintf (size : Nat) (s : List Char) : List Char := s.take (size - 1)

/-- `snprintf(array, size, …)`: the array afterwards. -/
def printed (size : Nat) (array s : List Char) : List Char := store array (snprintf size s)

/-- `strcat` into an array of `size` bytes; `none` when it writes past
the end. -/
def strcatWithin (size : Nat) (dst src : List Char) : Option (List Char) :=
  if (cstr dst ++ src).length < size then some (strcat dst src) else none

/-! ## Texts without NUL -/

@[simp] theorem nulFree_nil : NulFree [] := by simp [NulFree]

@[simp] theorem nulFree_append (a b : List Char) :
    NulFree (a ++ b) ↔ NulFree a ∧ NulFree b := by
  simp [NulFree, not_or]

@[simp] theorem nulFree_cons (c : Char) (s : List Char) :
    NulFree (c :: s) ↔ c ≠ nul ∧ NulFree s := by
  simp only [NulFree, List.mem_cons, not_or, ne_eq]
  exact and_congr_left fun _ => ⟨fun h e => h e.symm, fun h e => h e.symm⟩

theorem NulFree.of_subset {s t : List Char} (h : NulFree t) (hs : s ⊆ t) : NulFree s :=
  fun hm => h (hs hm)

theorem NulFree.take {s : List Char} (h : NulFree s) (n : Nat) : NulFree (s.take n) :=
  h.of_subset (List.take_subset n s)

theorem NulFree.drop {s : List Char} (h : NulFree s) (n : Nat) : NulFree (s.drop n) :=
  h.of_subset (List.drop_subset n s)

/-- The string an array denotes has no NUL. -/
theorem nulFree_cstr (buf : List Char) : NulFree (cstr buf) := by
  intro h
  have := List.mem_takeWhile_imp h
  simp at this

/-! ## Reading an array after a write -/

/-- A text without NUL is the string it denotes. -/
theorem cstr_of_nulFree {s : List Char} (h : NulFree s) : cstr s = s := by
  rw [cstr, List.takeWhile_eq_self_iff]
  intro c hc
  have : c ≠ nul := fun e => h (e ▸ hc)
  simpa using this

/-- A C string ends at its first NUL, wherever that came from. -/
theorem cstr_append_nul_cut (t : List Char) : ∀ s : List Char, cstr (s ++ nul :: t) = cstr s
  | [] => by simp [cstr]
  | c :: s => by
      have ih := cstr_append_nul_cut t s
      simp only [cstr] at ih ⊢
      rw [List.cons_append, List.takeWhile_cons, List.takeWhile_cons, ih]

theorem cstr_append_nul {s : List Char} (h : NulFree s) (t : List Char) :
    cstr (s ++ nul :: t) = s :=
  (cstr_append_nul_cut t s).trans (cstr_of_nulFree h)

@[simp] theorem cstr_cstr (buf : List Char) : cstr (cstr buf) = cstr buf :=
  cstr_of_nulFree (nulFree_cstr buf)

@[simp] theorem cstr_zeros (n : Nat) : cstr (zeros n) = [] := by
  cases n <;> simp [cstr, zeros, List.replicate_succ]

theorem cstr_store {s : List Char} (h : NulFree s) (buf : List Char) :
    cstr (store buf s) = s :=
  cstr_append_nul h _

@[simp] theorem cstr_store_cstr (buf src : List Char) :
    cstr (store buf (cstr src)) = cstr src :=
  cstr_store (nulFree_cstr src) buf

@[simp] theorem cstr_clear (buf : List Char) : cstr (clear buf) = [] :=
  cstr_store nulFree_nil buf

/-- A source shorter than the bound is copied whole and terminated,
whatever the target held. -/
theorem cstr_strncpy_of_lt {s : List Char} (h : NulFree s) {n : Nat} (hn : s.length < n)
    (dst : List Char) : cstr (strncpy dst s n) = s := by
  obtain ⟨k, hk⟩ : ∃ k, n - s.length = k + 1 := ⟨n - s.length - 1, by omega⟩
  rw [strncpy, List.take_of_length_le (by omega), hk, List.replicate_succ,
    List.append_assoc, List.cons_append]
  exact cstr_append_nul h _

/-- A source of `n` characters or more is cut to `n`, and the string runs
on into whatever the target held from position `n`. -/
theorem cstr_strncpy_full {s : List Char} (h : NulFree s) {n : Nat} (hn : n ≤ s.length)
    (dst : List Char) : cstr (strncpy dst s n) = s.take n ++ cstr (dst.drop n) := by
  have hz : n - s.length = 0 := by omega
  rw [strncpy, hz, List.replicate_zero, List.append_nil, cstr, List.takeWhile_append_of_pos]
  · rfl
  · intro c hc
    have : c ≠ nul := fun e => h (List.mem_of_mem_take (e ▸ hc))
    simpa using this

/-- A source that fits the bound is the string afterwards if it leaves
room for a terminator, or if the target has nothing behind the bound. -/
theorem cstr_strncpy_eq_iff {dst s : List Char} {n : Nat} (h : NulFree s) (hn : s.length ≤ n) :
    cstr (strncpy dst s n) = s ↔ s.length < n ∨ cstr (dst.drop n) = [] := by
  by_cases hlt : s.length < n
  · exact iff_of_true (cstr_strncpy_of_lt h hlt dst) (Or.inl hlt)
  · rw [cstr_strncpy_full h (by omega), List.take_of_length_le hn, or_iff_right hlt]
    exact List.append_right_eq_self

/-- `strncpy` with bound `n` writes the first `n` characters and no other. -/
theorem drop_strncpy (dst s : List Char) (n : Nat) : (strncpy dst s n).drop n = dst.drop n := by
  have hlen : (s.take n ++ List.replicate (n - s.length) nul).length = n := by
    simp only [List.length_append, List.length_take, List.length_replicate]
    omega
  rw [strncpy]
  exact List.drop_left' hlen

theorem drop_store_of_lt {buf s : List Char} {n : Nat} (h : s.length < n) :
    (store buf s).drop n = buf.drop n := by
  obtain ⟨m, rfl⟩ := Nat.exists_eq_add_of_le' (Nat.succ_le_of_lt h)
  have hm : m + s.length.succ = s.length + (m + 1) := by omega
  have hn : s.length + 1 + m = s.length + (m + 1) := by omega
  rw [store, hm, List.drop_length_add_append, List.drop_succ_cons, List.drop_drop, hn]

/-- Strings stored over each other end the array at a byte if one of them
does, or if it ended there before. -/
theorem cstr_drop_foldl_store {n : Nat} {vs : List (List Char)} (h : ∀ v ∈ vs, v.length ≤ n)
    (array : List Char) : cstr ((vs.foldl store array).drop n) = [] ↔
      cstr (array.drop n) = [] ∨ ∃ v ∈ vs, v.length = n := by
  induction vs generalizing array with
  | nil => simp
  | cons v vs ih =>
    have hcons : (∃ u ∈ v :: vs, u.length = n) ↔ v.length = n ∨ ∃ u ∈ vs, u.length = n := by simp
    rw [List.foldl_cons, ih (fun u hu => h u (List.mem_cons_of_mem v hu)), hcons, ← or_assoc]
    refine or_congr_left ?_
    rcases (h v List.mem_cons_self).lt_or_eq with hlt | rfl
    · rw [drop_store_of_lt hlt, or_iff_left (by omega)]
    · have hend : cstr ((store array v).drop v.length) = [] := by
        rw [store, List.drop_left]
        rfl
      exact iff_of_true hend (Or.inr rfl)

/-- A target that is terminated at position `n` ends up with the cut
source. -/
theorem cstr_strncpy_terminated {dst s : List Char} {n : Nat} (h : NulFree s)
    (hdst : cstr (dst.drop n) = []) : cstr (strncpy dst s n) = s.take n := by
  by_cases hn : s.length < n
  · rw [cstr_strncpy_of_lt h hn, List.take_of_length_le (by omega)]
  · rw [cstr_strncpy_full h (by omega), hdst, List.append_nil]

/-- Into zeroed memory `strncpy` always leaves the cut source. -/
theorem cstr_strncpy_zeros {s : List Char} (h : NulFree s) {n m : Nat} :
    cstr (strncpy (zeros m) s n) = s.take n := by
  have hrest : (zeros m).drop n = zeros (m - n) := List.drop_replicate
  exact cstr_strncpy_terminated h (by rw [hrest, cstr_zeros])

/-- An empty source leaves zeroed memory as it is. -/
theorem strncpy_nil_zeros {n m : Nat} (h : n ≤ m) : strncpy (zeros m) [] n = zeros m := by
  have hrest : (zeros m).drop n = zeros (m - n) := List.drop_replicate
  rw [strncpy, hrest, List.take_nil, List.nil_append, List.length_nil, Nat.sub_zero, zeros,
    List.replicate_append_replicate, Nat.add_sub_cancel' h, zeros]

/-! ## Terminated arrays -/

/-- An array of its declared size that holds a terminated string. -/
def HoldsString (size : Nat) (array : List Char) : Prop :=
  array.length = size ∧ (cstr array).length < size

instance (size : Nat) (array : List Char) : Decidable (HoldsString size array) := by
  unfold HoldsString; infer_instance

theorem holdsString_zeros {size : Nat} (hsize : 0 < size) : HoldsString size (zeros size) :=
  ⟨List.length_replicate, by rw [cstr_zeros]; exact hsize⟩

/-- A string ends at a NUL, or before. -/
theorem length_cstr_le {array : List Char} {i : Nat} (h : array[i]? = some nul) :
    (cstr array).length ≤ i := by
  by_contra hlong
  obtain ⟨tail, hsplit⟩ : cstr array <+: array := List.takeWhile_prefix _
  rw [← hsplit, List.getElem?_append_left (by omega)] at h
  exact nulFree_cstr array (List.mem_of_getElem? h)

/-- A string stored with room for its terminator. -/
theorem holdsString_store {size : Nat} {buf s : List Char} (hs : NulFree s)
    (hlen : s.length < size) (hbuf : buf.length = size) : HoldsString size (store buf s) := by
  refine ⟨?_, by rw [cstr_store hs]; exact hlen⟩
  simp only [store, List.length_append, List.length_cons, List.length_drop]
  omega

/-- `strncpy` with all but the last byte of an array as its bound: the
last byte decides about a source that fills the bound. -/
theorem holdsString_strncpy_iff {dst s : List Char} {n : Nat} (hs : NulFree s)
    (hdst : dst.length = n + 1) :
    HoldsString (n + 1) (strncpy dst s n) ↔ s.length < n ∨ dst[n]? = some nul := by
  have hlen : (strncpy dst s n).length = n + 1 := by
    simp only [strncpy, List.length_append, List.length_take, List.length_replicate,
      List.length_drop]
    omega
  rw [HoldsString, hlen, and_iff_right rfl]
  by_cases hn : s.length < n
  · rw [cstr_strncpy_of_lt hs hn]
    exact iff_of_true (by omega) (Or.inl hn)
  · have hlast : dst.drop n = [dst[n]] := by
      rw [List.drop_eq_getElem_cons (by omega), List.drop_of_length_le (by omega)]
    rw [cstr_strncpy_full hs (by omega), hlast, List.length_append, List.length_take,
      List.getElem?_eq_getElem (by omega), Option.some.injEq, or_iff_right hn]
    by_cases hnul : dst[n] = nul
    · have hempty : cstr [dst[n]] = [] := by rw [hnul]; rfl
      rw [hempty, List.length_nil]
      exact iff_of_true (by omega) hnul
    · have hkeep : cstr [dst[n]] = [dst[n]] := cstr_of_nulFree (by simpa using hnul)
      rw [hkeep, List.length_singleton]
      exact iff_of_false (by omega) hnul

/-- With the last byte of a zeroed array left alone, that byte ends the
string. -/
theorem length_cstr_strncpy_zeros (s : List Char) (n : Nat) :
    (cstr (strncpy (zeros (n + 1)) s n)).length ≤ n := by
  refine length_cstr_le ?_
  have hlast := congrArg (·[0]?) (drop_strncpy (zeros (n + 1)) s n)
  simpa [List.getElem?_drop, zeros] using hlast

theorem mem_of_mem_cstr_strncpy_zeros {s : List Char} {n m : Nat} {c : Char}
    (h : c ∈ cstr (strncpy (zeros m) s n)) : c ∈ s := by
  have hne : c ≠ nul := fun e => nulFree_cstr _ (e ▸ h)
  have hmem := (List.takeWhile_prefix _).subset h
  simp only [strncpy, zeros, List.drop_replicate, List.mem_append, List.mem_replicate] at hmem
  rcases hmem with (hmem | ⟨-, hc⟩) | ⟨-, hc⟩
  · exact List.mem_of_mem_take hmem
  · exact absurd hc hne
  · exact absurd hc hne

theorem snprintf_of_lt {s : List Char} {size : Nat} (h : s.length < size) :
    snprintf size s = s :=
  List.take_of_length_le (by omega)

theorem snprintf_subset (size : Nat) (s : List Char) : snprintf size s ⊆ s :=
  List.take_subset _ _

theorem cstr_printed {size : Nat} {s : List Char} (hs : NulFree s) (hlen : s.length < size)
    (array : List Char) : cstr (printed size array s) = s := by
  rw [printed, snprintf_of_lt hlen, cstr_store hs]

theorem length_cstr_printed_le (size : Nat) (array s : List Char) :
    (cstr (printed size array s)).length ≤ size - 1 := by
  rw [printed, store, cstr_append_nul_cut]
  exact (List.takeWhile_prefix _).length_le.trans (List.length_take_le _ _)

/-- `snprintf` with the size of an array stays inside it. -/
theorem length_printed {size : Nat} (hsize : 0 < size) {array : List Char}
    (harray : array.length = size) (s : List Char) : (printed size array s).length = size := by
  simp only [printed, store, snprintf, List.length_append, List.length_cons, List.length_take,
    List.length_drop]
  omega

theorem holdsString_printed {size : Nat} (hsize : 0 < size) {array : List Char}
    (h : array.length = size) (s : List Char) : HoldsString size (printed size array s) := by
  refine ⟨length_printed hsize h s, ?_⟩
  have hlen := length_cstr_printed_le size array s
  omega

end DockerClone.CLib
