/-
DockerClone.Metadata.Quotes — what a reader assigns holds no quote.

`%[^"]` stops at the first double quote, so a field that held none before
a file is read holds none afterwards, whatever is in the file. A record
that is read and written again is therefore as free of quotes as the
struct it was read into.
-/
import DockerClone.Metadata.File

namespace DockerClone.Metadata

open DockerClone.CLib

/-- A scan whose values all stop at a character assigns no text with it. -/
theorem not_mem_of_scan {stop : Char} : ∀ {ds : List Directive} {s v : List Char}
    {rest : List Conversion}, (∀ c, Directive.scanset c ∈ ds → c = stop) →
      scan ds s = .text v :: rest → stop ∉ v
  | [], s, v, rest, _, h => by simp [scan] at h
  | d :: ds, s, v, rest, hstop, h => by
      have hds : ∀ c, Directive.scanset c ∈ ds → c = stop :=
        fun c hc => hstop c (List.mem_cons_of_mem d hc)
      cases d with
      | space => exact not_mem_of_scan hds h
      | lit c =>
        cases s with
        | nil => simp [scan] at h
        | cons d t =>
          rw [scan] at h
          split at h
          · exact not_mem_of_scan hds h
          · simp at h
      | scanset c =>
        obtain rfl := hstop c List.mem_cons_self
        rw [scan] at h
        by_cases hnil : s.takeWhile (fun d => d != c) = []
        · simp [hnil] at h
        · simp only [if_neg hnil] at h
          rw [← Conversion.text.inj (List.cons.inj h).1]
          intro hmem
          simpa using List.mem_takeWhile_imp hmem
      | int =>
        rw [scan] at h
        split at h <;> simp at h

theorem parseFormat_textFormat (key : Key) : parseFormat (textFormat key.name)
    = [.space, .space, .lit '"'] ++ key.name.toList.map .lit
      ++ [.lit '"', .lit ':', .space, .lit '"', .scanset '"', .lit '"'] := by
  have hformat : textFormat key.name
      = "  \"".toList ++ (key.name.toList ++ "\": \"%[^\"]\"".toList) := by
    simp [textFormat_chars]
  have hfront : ∀ rest, parseFormat ("  \"".toList ++ rest)
      = [.space, .space, .lit '"'] ++ parseFormat rest := by
    intro rest
    rfl
  have hback : parseFormat "\": \"%[^\"]\"".toList
      = [.lit '"', .lit ':', .space, .lit '"', .scanset '"', .lit '"'] := by decide
  rw [hformat, hfront, parseFormat_plain key.isKey.plain, hback, List.append_assoc]

theorem not_mem_of_scannedText {key : Key} {line v : List Char}
    (h : scannedText line (textFormat key.name) = some v) : '"' ∉ v := by
  rw [scannedText] at h
  split at h
  · rename_i w more hscan
    obtain rfl := Option.some.inj h
    rw [sscanf, parseFormat_textFormat] at hscan
    refine not_mem_of_scan (fun c hc => ?_) hscan
    simpa using hc
  · simp at h

section Reader

variable {σ : Type} {slots : List (Slot σ)}

/-- A text field without a quote has none after a file was read. -/
theorem not_mem_readText (h : Lawful slots) {key : Key} {get : σ → List Char}
    {set : σ → List Char → σ} (hs : Slot.text key get set ∈ slots) (size : Nat)
    (text : List Char) (c : σ) (hc : '"' ∉ cstr (get c)) :
    '"' ∉ cstr (get (readText slots size text c)) := by
  rw [readText]
  generalize fgetsLines size text = pieces
  induction pieces generalizing c with
  | nil => exact hc
  | cons piece pieces ih =>
    rw [List.foldl_cons]
    refine ih _ ?_
    by_cases hsel : select slots (cstr piece) = some (Slot.text key get set)
    · rw [readLine_of_select hsel]
      simp only [Slot.scan]
      split
      · rename_i v hv
        have hreads : get (set c (store (get c) v)) = store (get c) v := h.reads _ hs c _
        rw [hreads]
        intro hmem
        refine not_mem_of_scannedText hv ?_
        have hcut : cstr (store (get c) v) = cstr v := by
          rw [store]
          exact cstr_append_nul_cut _ v
        rw [hcut] at hmem
        exact (List.takeWhile_prefix _).subset hmem
      · exact hc
    · have hview := view_readLine h hs hsel c
      have hsame : get (readLine slots c (cstr piece)) = get c := Sum.inl.inj hview
      rw [hsame]
      exact hc

end Reader

end DockerClone.Metadata
