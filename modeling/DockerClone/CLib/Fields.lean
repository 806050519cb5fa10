/-
DockerClone.CLib.Fields — the first match of a key in a text of fields.

A reader that has no parser looks for `"key":` with `strstr` and reads on
from there. In a text that is made of fields, with no quote in a key or a
value, it finds the field of that key: a value can be the key word, but
then no colon follows it, and what follows a value starts with a
separator (`strstr_fields`). The text behind the field can be anything,
so of several fields with one key it is the first that is found.
-/
import DockerClone.CLib.CString
import DockerClone.CLib.Search

namespace DockerClone.CLib

/-! ## 1. Fields -/

inductive Field where
  /-- `"key":`, an opening, the value in quotes, a closing. -/
  | quoted (key opening value closing : List Char)
  /-- `"key":`, the value, a closing. -/
  | bare (key value closing : List Char)

namespace Field

def key : Field → List Char
  | quoted key .. => key
  | bare key .. => key

/-- What stands behind the colon. -/
def content : Field → List Char
  | quoted _ opening value closing => opening ++ '"' :: (value ++ '"' :: closing)
  | bare _ value closing => value ++ closing

def text (f : Field) : List Char := '"' :: (f.key ++ '"' :: ':' :: f.content)

/-- No quote in a part, and a closing that cannot be taken for the colon
of a key. -/
def Sound : Field → Prop
  | quoted key opening value closing =>
      '"' ∉ key ∧ '"' ∉ opening ∧ '"' ∉ value ∧ '"' ∉ closing ∧
        ∃ c ∈ closing.head?, c = ',' ∨ c = ']' ∨ c = '}'
  | bare key value closing => '"' ∉ key ∧ '"' ∉ value ∧ '"' ∉ closing

end Field

/-- A word that can be looked for: none of the characters that structure
a text. -/
def KeyWord (w : List Char) : Prop := ∀ c ∈ w, c ∉ "\":,]\x7d".toList

instance (w : List Char) : Decidable (KeyWord w) := by unfold KeyWord; infer_instance

theorem KeyWord.not_mem {w : List Char} (h : KeyWord w) {c : Char}
    (hc : c ∈ "\":,]\x7d".toList) : c ∉ w :=
  fun hm => h c hm hc

/-! ## 2. One step of the search -/

section Search

variable {w : List Char} (hw : KeyWord w) (z : List Char)

include hw

/-- A quoted text is passed over unless it is the word and the rest of
the needle follows. -/
theorem strstr_quoted {s t : List Char} (hs : '"' ∉ s) (h : s = w → ¬ z <+: t) :
    strstr ('"' :: (s ++ '"' :: t)) ('"' :: (w ++ '"' :: z))
      = strstr ('"' :: t) ('"' :: (w ++ '"' :: z)) := by
  have hnot : ¬ '"' :: (w ++ '"' :: z) <+: '"' :: (s ++ '"' :: t) := by
    intro hpre
    obtain ⟨rest, hrest⟩ := (List.cons_prefix_cons.mp hpre).2
    rw [List.append_assoc, List.cons_append] at hrest
    have hword := congrArg (List.takeWhile (· != '"')) hrest
    have hkeep : ∀ {u : List Char} {v : List Char}, '"' ∉ u →
        (u ++ '"' :: v).takeWhile (· != '"') = u := by
      intro u v hu
      rw [List.takeWhile_append_of_pos]
      · simp
      · intro c hc
        have : c ≠ '"' := fun e => hu (e ▸ hc)
        simpa using this
    rw [hkeep (hw.not_mem (by decide)), hkeep hs] at hword
    subst hword
    exact h rfl ⟨rest, (List.cons.inj (List.append_cancel_left hrest)).2⟩
  rw [strstr_cons_of_not_pre hnot, strstr_append_of_not_mem hs]

/-- A quote in front of a character of the structure opens no match. -/
theorem strstr_quote_structure {c : Char} (hc : c ∈ ":,]\x7d".toList) (t : List Char) :
    strstr ('"' :: c :: t) ('"' :: (w ++ '"' :: z))
      = strstr t ('"' :: (w ++ '"' :: z)) := by
  have hquote : '"' ≠ c := by
    rintro rfl
    exact absurd hc (by decide)
  have hnot : ¬ '"' :: (w ++ '"' :: z) <+: '"' :: c :: t := by
    intro hpre
    have htail := (List.cons_prefix_cons.mp hpre).2
    cases w with
    | nil => exact hquote (List.cons_prefix_cons.mp htail).1
    | cons d w =>
      have hd : d = c := (List.cons_prefix_cons.mp htail).1
      exact hw d (by simp) (hd ▸ List.mem_cons_of_mem '"' hc)
  rw [strstr_cons_of_not_pre hnot]
  exact strstr_append_of_not_mem (a := [c]) (by simpa using hquote) t _

/-! ## 3. Passing over fields -/

/-- The search for a key passes over a field of another key. -/
theorem strstr_field {f : Field} (hf : f.Sound) (hkey : f.key ≠ w) (t : List Char) :
    strstr (f.text ++ t) ('"' :: (w ++ '"' :: ':' :: z))
      = strstr t ('"' :: (w ++ '"' :: ':' :: z)) := by
  cases f with
  | bare key value closing =>
    obtain ⟨hk, hv, hc⟩ := hf
    have htext : (Field.bare key value closing).text ++ t
        = '"' :: (key ++ '"' :: ':' :: ((value ++ closing) ++ t)) := by
      simp [Field.text, Field.key, Field.content]
    rw [htext, strstr_quoted hw _ hk (fun h => absurd h hkey),
      strstr_quote_structure hw _ (by decide)]
    exact strstr_append_of_not_mem (by simp [hv, hc]) t _
  | quoted key opening value closing =>
    obtain ⟨hk, ho, hv, hc, c, hhead, hsep⟩ := hf
    obtain ⟨closing, rfl⟩ : ∃ more, closing = c :: more :=
      List.head?_eq_some_iff.mp hhead
    have htext : (Field.quoted key opening value (c :: closing)).text ++ t
        = '"' :: (key ++ '"' :: ((':' :: opening) ++ '"' :: (value ++ '"' ::
          c :: (closing ++ t)))) := by
      simp [Field.text, Field.key, Field.content]
    have hopening : ':' :: opening ≠ w := by
      rintro rfl
      exact hw ':' (by simp) (by decide)
    have hcolon : ¬ ':' :: z <+: c :: (closing ++ t) := by
      intro hpre
      rw [← (List.cons_prefix_cons.mp hpre).1] at hsep
      simp at hsep
    have hstructure : c ∈ ":,]\x7d".toList := by
      rcases hsep with rfl | rfl | rfl <;> decide
    rw [htext, strstr_quoted hw _ hk (fun h => absurd h hkey),
      strstr_quoted hw _ (by simp [ho]) (fun h => absurd h hopening),
      strstr_quoted hw _ hv (fun _ => hcolon), strstr_quote_structure hw _ hstructure]
    exact strstr_append_of_not_mem (fun hm => hc (List.mem_cons_of_mem c hm)) t _

/-- A key is found in its field, behind fields of other keys. -/
theorem strstr_fields {fields : List Field} (hsound : ∀ f ∈ fields, f.Sound)
    (hkeys : ∀ f ∈ fields, f.key ≠ w) {f : Field} (hf : f.key = w) (hz : z <+: f.content)
    (rest : List Char) :
    strstr (fields.flatMap Field.text ++ (f.text ++ rest)) ('"' :: (w ++ '"' :: ':' :: z))
      = some (f.text ++ rest) := by
  induction fields with
  | nil =>
    refine strstr_of_prefix ?_
    obtain ⟨more, hmore⟩ := hz
    exact ⟨more ++ rest, by simp [Field.text, hf, ← hmore]⟩
  | cons g fields ih =>
    rw [List.flatMap_cons, List.append_assoc,
      strstr_field hw z (hsound g (by simp)) (hkeys g (by simp))]
    exact ih (fun x hx => hsound x (List.mem_cons_of_mem g hx))
      (fun x hx => hkeys x (List.mem_cons_of_mem g hx))

end Search

/-! ## 4. The value of a field -/

section Value

variable {front key opening value closing : List Char} {fields before after : List Field}
  (hfront : '"' ∉ front) (hsound : ∀ f ∈ fields, f.Sound) (hkey : KeyWord key)
  (hbefore : ∀ f ∈ before, f.key ≠ key)

include hfront hsound hkey hbefore

/-- The search for a key ends at its first field, whatever follows. -/
theorem strstr_key {f : Field} (hfields : fields = before ++ f :: after) (hf : f.key = key)
    {z : List Char} (hz : z <+: f.content) (more : List Char) :
    strstr (front ++ (fields.flatMap Field.text ++ more)) ('"' :: (key ++ '"' :: ':' :: z))
      = some (f.text ++ (after.flatMap Field.text ++ more)) := by
  have hpassed : ∀ g ∈ before, g.Sound := by
    intro g hg
    refine hsound g ?_
    rw [hfields]
    exact List.mem_append_left _ hg
  have htext : fields.flatMap Field.text ++ more
      = before.flatMap Field.text ++ (f.text ++ (after.flatMap Field.text ++ more)) := by
    simp [hfields]
  rw [htext, strstr_append_of_not_mem hfront]
  exact strstr_fields hkey z hpassed hbefore hf hz _

/-- With the opening quote in the needle, the value follows the needle. -/
theorem strstr_quotedValue
    (hfields : fields = before ++ .quoted key opening value closing :: after) (more : List Char) :
    strstr (front ++ (fields.flatMap Field.text ++ more))
        ('"' :: (key ++ '"' :: ':' :: (opening ++ ['"'])))
      = some ('"' :: (key ++ '"' :: ':' :: (opening ++ ['"'])) ++ (value ++ '"' ::
          (closing ++ (after.flatMap Field.text ++ more)))) := by
  rw [strstr_key hfront hsound hkey hbefore hfields rfl (z := opening ++ ['"'])
    (by simp [Field.content]) more]
  simp [Field.text, Field.key, Field.content]

theorem strstr_bareValue (hfields : fields = before ++ .bare key value closing :: after)
    (more : List Char) :
    strstr (front ++ (fields.flatMap Field.text ++ more)) ('"' :: (key ++ ['"', ':']))
      = some ('"' :: (key ++ ['"', ':']) ++ (value ++
          (closing ++ (after.flatMap Field.text ++ more)))) := by
  rw [strstr_key hfront hsound hkey hbefore hfields rfl (z := []) List.nil_prefix more]
  simp [Field.text, Field.key, Field.content]

end Value

end DockerClone.CLib
