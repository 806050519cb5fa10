/-
DockerClone.Container.IdTheorems — generated ids.

Both generators print a word and the two words of the clock, eight digits
each (`clockText`), into arrays of 64 bytes. The text is as good as the
clock: no two readings give the same one, and it comes back unchanged
from wherever the stores put it (`FaithfulIds`).
-/
import DockerClone.Container.ListTheorems
import DockerClone.Image.CreateTheorems

namespace DockerClone.Container

open DockerClone.CLib DockerClone.Os DockerClone.Os.FileSystem DockerClone.Metadata

/-- A generator prints this word and the clock, and every id can be a file
name, the name of a metadata file and a value of a metadata text. -/
structure FaithfulIds (word : String) (size : Nat) (generate : Int64 → List Char) : Prop where
  same_iff : ∀ a b, generate a = generate b ↔ a = b
  uncut : ∀ now, generate now = clockText word.toList now ∧
    (clockText word.toList now).length < size
  clean : ∀ now, ∀ c ∈ ['.', '/', ' ', '"'], c ∉ generate now
  fileName : ∀ now, Ordinary (generate now) ∧ Ordinary (jsonName (generate now))
  /-- The scan of a name in `list_containers`. -/
  scanned : ∀ now junk, cstr (scannedId (jsonName (generate now)) junk) = generate now
  /-- A line of a metadata text, written and read. -/
  written : ∀ now key, IsKey key →
    scannedText (textLine key (generate now)) (textFormat key) = some (generate now)

/-- A short word of ordinary characters is enough. -/
theorem faithfulIds {word : String} {size : Nat} {generate : Int64 → List Char}
    (heq : ∀ now, generate now = clockText word.toList now)
    (hword : ∀ c ∈ ['.', '/', ' ', '"', nul], c ∉ word.toList)
    (hsize : word.toList.length + 16 < size) : FaithfulIds word size generate := by
  have hclean : ∀ now, ∀ c ∈ ['.', '/', ' ', '"', nul], c ∉ generate now := by
    intro now c hc hmem
    rw [heq] at hmem
    have hdigits : ∀ c ∈ ['.', '/', ' ', '"', nul], c ∉ "0123456789abcdef".toList := by decide
    rcases mem_clockText hmem with h | h
    · exact hword c hc h
    · exact hdigits c hc h
  have hlong : ∀ now, 16 ≤ (generate now).length := by
    intro now
    rw [heq, length_clockText]
    omega
  have hne : ∀ now, generate now ≠ [] := by
    intro now hnil
    have hlen := hlong now
    rw [hnil] at hlen
    simp at hlen
  have hordinary : ∀ name : Name, 16 ≤ name.length → '/' ∉ name → Ordinary name := by
    intro name hlen hslash
    refine ⟨?_, ?_, ?_, hslash⟩ <;> (rintro rfl; simp at hlen)
  exact {
    same_iff := fun a b => by
      rw [heq, heq]
      exact ⟨clockText_inj, congrArg _⟩
    uncut := fun now => ⟨heq now, by rw [length_clockText]; exact hsize⟩
    clean := fun now c hc => hclean now c (by simp at hc ⊢; tauto)
    fileName := fun now => by
      have hslash := hclean now '/' (by simp)
      refine ⟨hordinary _ (hlong now) hslash, hordinary _ ?_ ?_⟩
      · rw [jsonName, List.length_append]
        exact Nat.le_add_right_of_le (hlong now)
      · rw [jsonName, List.mem_append, not_or]
        exact ⟨hslash, by decide⟩
    scanned := fun now junk => scannedId_of_no_dot (hne now) (hclean now '.' (by simp))
      (hclean now nul (by simp)) junk
    written := fun now key hkey => by
      rw [scannedText_textLine hkey (hclean now '"' (by simp)), if_neg (hne now)] }

/-- Both generators, for every reading of a 64-bit clock. -/
theorem generated_ids_faithful :
    FaithfulIds "cont_" MAX_CONTAINER_ID_LEN generateContainerId ∧
      FaithfulIds "layer_" Image.MAX_LAYER_ID_LEN Image.generateLayerId :=
  ⟨faithfulIds generateContainerId_eq (by decide) (by decide),
    faithfulIds Image.generateLayerId_eq (by decide) (by decide)⟩

end DockerClone.Container
