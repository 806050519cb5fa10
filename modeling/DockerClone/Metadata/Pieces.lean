/-
DockerClone.Metadata.Pieces — what the first piece of a line shows.

`fgets` cuts a text line behind a newline in its string and behind
`size - 1` characters, whichever comes first. The quoted key is in the
first piece and in no other, so the later pieces assign nothing, and the
first one assigns the part of the string it shows. A string therefore
comes back from its own line exactly when all of it is in the first piece
(`Visible`), it is not empty, and it is not the key of an earlier slot;
when it is empty or such a key the field keeps what it held
(`cstr_readText_own_iff`).

`Fits` is the other side of reading without a bound: `%[^"]` takes no
account of the array it fills. A text whose scanned strings all fit is
read inside the struct.
-/
import DockerClone.Metadata.File

namespace DockerClone.Metadata

open DockerClone.CLib

section Pieces

variable {σ : Type} {slots : List (Slot σ)}

/-! ## 1. The first piece -/

/-- The piece ends behind the first newline, or fills the buffer. -/
theorem fgetsLines_first {size : Nat} (hsize : 2 ≤ size) {text : List Char}
    (h : text.getLast? = some '\n') : ∃ piece rest, text = piece ++ rest ∧
      fgetsLines size text = piece :: fgetsLines size rest ∧ piece.length < size ∧
      '\n' ∉ piece.dropLast ∧ (piece.length + 1 = size ∨ piece.getLast? = some '\n') := by
  by_cases hnewline : '\n' ∈ text.take (size - 1)
  · obtain ⟨w, v, hsplit, hw⟩ := List.eq_append_cons_of_mem hnewline
    have hlen := congrArg List.length hsplit
    simp only [List.length_take, List.length_append, List.length_cons] at hlen
    refine ⟨w ++ ['\n'], v ++ text.drop (size - 1), ?_, ?_, ?_, by simpa using hw, by simp⟩
    · rw [← List.append_assoc, List.append_assoc w, List.singleton_append, ← hsplit,
        List.take_append_drop]
    · have htext : text = (w ++ ['\n']) ++ (v ++ text.drop (size - 1)) := by
        rw [← List.append_assoc, List.append_assoc w, List.singleton_append, ← hsplit,
          List.take_append_drop]
      conv_lhs => rw [htext, fgetsLines_append size (by simp), fgetsLines_line hw (by omega)]
      rfl
    · rw [List.length_append, List.length_singleton]
      omega
  · -- the text ends with a newline, so it does not end before the buffer is full
    have hfull : size - 1 < text.length := by
      by_contra hshort
      rw [List.take_of_length_le (by omega)] at hnewline
      exact hnewline (List.mem_of_getLast? h)
    have hlen : (text.take (size - 1)).length = size - 1 := by
      rw [List.length_take]
      omega
    refine ⟨text.take (size - 1), text.drop (size - 1), (List.take_append_drop _ _).symm, ?_,
      by omega, fun hm => hnewline (List.mem_of_mem_dropLast hm), Or.inl (by omega)⟩
    have hne : text.take (size - 1) ≠ [] := List.ne_nil_of_length_pos (by omega)
    conv_lhs => rw [← List.take_append_drop (size - 1) text,
      fgetsLines_full hnewline hne (by omega)]

/-- What stands in front of the string on its line. -/
def lineHead (key : String) : List Char := "  \"".toList ++ key.toList ++ "\": \"".toList

theorem lineHead_chars (key : String) : lineHead key
    = ' ' :: ' ' :: '"' :: (key.toList ++ ['"', ':', ' ', '"']) := by
  unfold lineHead
  simp

theorem textLine_eq (key : String) (value : List Char) :
    textLine key value = lineHead key ++ (value ++ "\",\n".toList) := by
  simp [textLine_chars, lineHead_chars]

theorem Key.lineHead_length_lt (key : Key) : (lineHead key.name).length < 80 := by
  have hshort := key.short
  have hhead : (lineHead key.name).length = 3 + key.name.toList.length + 4 := by
    simp [lineHead_chars]
    omega
  omega

theorem Key.newline_not_mem_lineHead (key : Key) : '\n' ∉ lineHead key.name := by
  have hk : '\n' ∉ key.name.toList := key.isKey.not_mem (by decide) (by decide)
  simp [lineHead_chars, hk]

/-- The first piece of a text line has the whole head and something behind
it. -/
theorem first_textLine (key : Key) {size : Nat} (hsize : 100 ≤ size) (value : List Char) :
    ∃ shown rest, shown ≠ [] ∧ value ++ "\",\n".toList = shown ++ rest ∧
      fgetsLines size (textLine key.name value)
        = (lineHead key.name ++ shown) :: fgetsLines size rest ∧
      (lineHead key.name ++ shown).length < size ∧ '\n' ∉ shown.dropLast ∧
      ((lineHead key.name ++ shown).length + 1 = size ∨ shown.getLast? = some '\n') := by
  obtain ⟨piece, rest, htext, hpieces, hlen, hnewline, hend⟩ :=
    fgetsLines_first (by omega : 2 ≤ size) (Entry.text key value).getLast_line
  have hhead := key.lineHead_length_lt
  have hsplit : lineHead key.name ++ (value ++ "\",\n".toList) = piece ++ rest := by
    rw [← textLine_eq]
    exact htext
  have hlong : (lineHead key.name).length < piece.length := by
    rcases hend with hfull | hlast
    · omega
    · by_contra hshort
      have hpre : piece <+: lineHead key.name :=
        List.prefix_of_prefix_length_le ⟨rest, hsplit.symm⟩ (List.prefix_append _ _) (by omega)
      exact key.newline_not_mem_lineHead (hpre.subset (List.mem_of_getLast? hlast))
  obtain ⟨shown, rfl⟩ : lineHead key.name <+: piece :=
    List.prefix_of_prefix_length_le (List.prefix_append _ _) ⟨rest, hsplit.symm⟩ (by omega)
  have hne : shown ≠ [] := by
    rintro rfl
    simp at hlong
  rw [List.append_assoc] at hsplit
  refine ⟨shown, rest, hne, List.append_cancel_left hsplit, hpieces, hlen, ?_, ?_⟩
  · intro hm
    rw [List.dropLast_append_of_ne_nil hne] at hnewline
    exact hnewline (List.mem_append_right _ hm)
  · rwa [List.getLast?_append_of_ne_nil _ hne] at hend

/-- The string is scanned as far as the piece shows it. -/
theorem scannedText_lineHead (key : Key) {shown : List Char}
    (hne : shown.takeWhile (fun c => c != '"') ≠ []) :
    scannedText (lineHead key.name ++ shown) (textFormat key.name)
      = some (shown.takeWhile (fun c => c != '"')) := by
  have hline : lineHead key.name ++ shown
      = [' ', ' '] ++ (fieldWord key.name.toList ++ (' ' :: '"' :: shown)) := by
    simp [lineHead_chars, fieldWord, quoted]
  have hspace : (' ' :: '"' :: shown).dropWhile isSpace = '"' :: shown := rfl
  rw [scannedText, sscanf, parse_textFormat key.isKey, hline, scan_fieldWord _ _ (by decide), scan,
    hspace, scan, if_pos rfl, scan]
  simp only [if_neg hne]

/-! ## 2. The line of a string -/

/-- All of the string is in the first piece of its line. -/
def Visible (key : Key) (size : Nat) (value : List Char) : Prop :=
  '\n' ∉ value.dropLast ∧ (lineHead key.name).length + value.length < size

/-- When a string comes back into a field that held `old`: it is read, or
it is not but was there already. -/
def Returned (slots : List (Slot σ)) (key : Key) (size : Nat) (value old : List Char) : Prop :=
  (value ≠ [] ∧ ¬ Shadowed slots key.name value ∧ Visible key size value) ∨
    ((value = [] ∨ Shadowed slots key.name value) ∧ old = value)

instance (key : Key) (size : Nat) (value : List Char) : Decidable (Visible key size value) := by
  unfold Visible; infer_instance

instance (slots : List (Slot σ)) (key : Key) (size : Nat) (value old : List Char) :
    Decidable (Returned slots key size value old) := by
  unfold Returned; infer_instance

/-- An empty string and one that is a key are short. -/
theorem onePiece_of_hidden {key : Key} {size : Nat} (hsize : 200 ≤ size) {value : List Char}
    (h : value = [] ∨ Shadowed slots key.name value) : (Entry.text key value).OnePiece size := by
  have hhead := key.lineHead_length_lt
  have hshort : '\n' ∉ value ∧ value.length ≤ 64 := by
    rcases h with rfl | ⟨s, -, rfl⟩
    · simp
    · exact ⟨s.key.isKey.not_mem (by decide) (by decide), s.key.short⟩
  refine ⟨hshort.1, ?_⟩
  rw [textLine_eq, List.length_append, List.length_append]
  have htail : "\",\n".toList.length = 3 := rfl
  omega

theorem visible_of_onePiece {key : Key} {size : Nat} {value : List Char}
    (h : (Entry.text key value).OnePiece size) : Visible key size value := by
  obtain ⟨hnewline, hlen⟩ := h
  refine ⟨fun hm => hnewline (List.mem_of_mem_dropLast hm), ?_⟩
  rw [textLine_eq, List.length_append, List.length_append] at hlen
  omega

/-- Behind the first piece there is at most one quote, so no key. -/
theorem readText_rest {size : Nat} {value shown rest : List Char} (hv : '"' ∉ value)
    (hsplit : value ++ "\",\n".toList = shown ++ rest) (hnul : NulFree rest) (c : σ) :
    readText slots size rest c = c := by
  have hone : (value ++ "\",\n".toList).count '"' = 1 := by
    rw [List.count_append, List.count_eq_zero_of_not_mem hv]
    rfl
  rw [hsplit, List.count_append] at hone
  refine view_readText_line id hnul (fun piece hp c => ?_) size c
  have hnone : select slots piece = none := by
    rw [select, List.find?_eq_none]
    intro s _ hs
    rw [hasKey, found_iff] at hs
    have htwo := (hs.trans hp).sublist.count_le '"'
    have hquoted : 2 ≤ (quoted s.key.name.toList).count '"' := by
      simp [quoted]
    omega
  rw [id, id, readLine, hnone]

/-- The part of the string in the piece. -/
theorem takeWhile_shown {key : Key} {size : Nat} {value shown rest : List Char} (hv : '"' ∉ value)
    (hvalue : value ≠ []) (hne : shown ≠ []) (hsplit : value ++ "\",\n".toList = shown ++ rest)
    (hlen : (lineHead key.name ++ shown).length < size) (hnewline : '\n' ∉ shown.dropLast)
    (hend : (lineHead key.name ++ shown).length + 1 = size ∨ shown.getLast? = some '\n') :
    shown.takeWhile (fun c => c != '"') ≠ [] ∧ shown.takeWhile (fun c => c != '"') <+: value ∧
      (shown.takeWhile (fun c => c != '"') = value ↔ Visible key size value) := by
  rw [List.length_append] at hlen hend
  have hkeep : ∀ c ∈ value, (c != '"') = true := by
    intro c hc
    have hc' : c ≠ '"' := fun e => hv (e ▸ hc)
    simpa using hc'
  rcases List.append_eq_append_iff.mp hsplit with ⟨t, rfl, htail⟩ | ⟨a, rfl, -⟩
  · -- the piece has the whole string
    have hshown : (value ++ t).takeWhile (fun c => c != '"') = value := by
      rw [List.takeWhile_append_of_pos hkeep]
      cases t with
      | nil => simp
      | cons c t =>
        have hc : '"' = c := (List.cons.inj htail).1
        simp [← hc]
    rw [hshown]
    refine ⟨hvalue, List.prefix_refl _, iff_of_true rfl ⟨fun hm => hnewline ?_, ?_⟩⟩
    · by_cases ht : t = []
      · rwa [ht, List.append_nil]
      · rw [List.dropLast_append_of_ne_nil ht]
        exact List.mem_append_left _ (List.mem_of_mem_dropLast hm)
    · rw [List.length_append] at hlen
      omega
  · -- the piece ends inside the string
    have hshown : shown.takeWhile (fun c => c != '"') = shown :=
      List.takeWhile_eq_self_iff.mpr fun c hc => hkeep c (List.mem_append_left _ hc)
    rw [hshown]
    refine ⟨hne, List.prefix_append _ _, fun he => ?_, ?_⟩
    · rw [← he]
      exact ⟨hnewline, hlen⟩
    · rintro ⟨hvisible, hfits⟩
      by_contra hcut
      have ha : a ≠ [] := fun e => hcut (by rw [e, List.append_nil])
      rw [List.length_append] at hfits
      have hpos := List.length_pos_iff.mpr ha
      rcases hend with hfull | hlast
      · omega
      · rw [List.dropLast_append_of_ne_nil ha] at hvisible
        exact hvisible (List.mem_append_left _ (List.mem_of_getLast? hlast))

section Own

variable {key : Key} {get : σ → List Char} {set : σ → List Char → σ}

/-- What the line of a string leaves in its slot. -/
theorem text_readEntry_own (h : Lawful slots) (ht : Slot.text key get set ∈ slots)
    {value : List Char} (hv : '"' ∉ value) (hnul : NulFree value) {size : Nat}
    (hsize : 200 ≤ size) : ∃ shown, shown <+: value ∧ (shown = value ↔ Visible key size value) ∧
      ∀ c : σ, get (readText slots size (Entry.text key value).line c)
        = if value ≠ [] ∧ ¬ Shadowed slots key.name value then store (get c) shown else get c := by
  by_cases hone : (Entry.text key value).OnePiece size
  · refine ⟨value, List.prefix_refl _, iff_of_true rfl (visible_of_onePiece hone), fun c => ?_⟩
    have hread := text_readEntry h ht (e := .text key value) ⟨hv, hnul⟩
      (fun v hv => by cases hv; exact hone) (by omega) c
    rw [hread]
    simp [Entry.textAt]
  have hplain : ¬ (value = [] ∨ Shadowed slots key.name value) :=
    fun hhidden => hone (onePiece_of_hidden hsize hhidden)
  rw [not_or] at hplain
  obtain ⟨shown, rest, hne, hsplit, hpieces, hlen, hnewline, hend⟩ :=
    first_textLine key (by omega : 100 ≤ size) value
  have hline := nulFree_textLine key hnul
  have hinf : lineHead key.name ++ shown <:+: textLine key.name value :=
    infix_of_mem_fgetsLines (hpieces ▸ List.mem_cons_self)
  have hsel : select slots (lineHead key.name ++ shown) = some (.text key get set) := by
    have hown : hasKey (lineHead key.name ++ shown) key.name = true := by
      rw [hasKey, found_iff]
      exact ⟨[' ', ' '], ": \"".toList ++ shown, by simp [lineHead_chars, quoted]⟩
    rw [select_eq_some h ht hown]
    intro s hs
    rw [← Bool.not_eq_true]
    intro hkey
    rw [hasKey, found_iff] at hkey
    rcases (quoted_infix_textLine key.isKey s.key.isKey hv).mp (hkey.trans hinf) with heq | heq
    · have hother := List.mem_takeWhile_imp hs
      simp only [Slot.key, bne_iff_ne, ne_eq] at hother
      exact hother heq
    · exact hplain.2 ⟨s, hs, heq⟩
  obtain ⟨hfound, hpre, hwhole⟩ := takeWhile_shown hv hplain.1 hne hsplit hlen hnewline hend
  refine ⟨_, hpre, hwhole, fun c => ?_⟩
  have hrest : NulFree rest := by
    have hall : NulFree (value ++ "\",\n".toList) := by
      rw [nulFree_append]
      exact ⟨hnul, by decide⟩
    rw [hsplit, nulFree_append] at hall
    exact hall.2
  have hread : readText slots size (Entry.text key value).line c
      = readLine slots c (lineHead key.name ++ shown) := by
    rw [Entry.line, readText, hpieces, List.foldl_cons, cstr_of_nulFree (hline.of_subset hinf.subset)]
    exact readText_rest hv hsplit hrest _
  rw [hread, readLine_of_select hsel, Slot.scan, scannedText_lineHead key hfound, if_pos hplain]
  exact h.reads _ ht c _

/-- A string comes back from a record in which its key is printed once,
whatever the other strings are. -/
theorem cstr_readText_own_iff (h : Lawful slots) (ht : Slot.text key get set ∈ slots) {size : Nat}
    (hsize : 200 ≤ size) {before after : List Entry} {value : List Char}
    (hes : ∀ e ∈ before ++ .text key value :: after, e.QuoteFree)
    (honce : ∀ e ∈ before ++ after, ∀ v, e ≠ .text key v) (c : σ) :
    cstr (get (readText slots size (entriesText (before ++ .text key value :: after)) c)) = value ↔
      Returned slots key size value (cstr (get c)) := by
  have hother : ∀ es : List Entry, (∀ e ∈ es, e.QuoteFree ∧ ∀ v, e ≠ .text key v) → ∀ c : σ,
      get (es.foldl (fun c e => readText slots size e.line c) c) = get c :=
    fun es hes => @foldl_keeps σ Entry (List Char) _ get es
      fun e he c => text_readEntry_other h ht (hes e he).1 (hes e he).2 (by omega) c
  have hbefore := hother before fun e he =>
    ⟨hes e (List.mem_append_left _ he), honce e (List.mem_append_left _ he)⟩
  have hafter := hother after fun e he =>
    ⟨hes e (by simp [he]), honce e (List.mem_append_right _ he)⟩
  obtain ⟨hv, hnul⟩ : '"' ∉ value ∧ NulFree value := hes (.text key value) (by simp)
  obtain ⟨shown, hpre, hwhole, hown⟩ := text_readEntry_own h ht hv hnul hsize
  rw [readText_entriesText, List.foldl_append, List.foldl_cons, hafter, hown, hbefore]
  by_cases hhidden : value = [] ∨ Shadowed slots key.name value
  · rw [if_neg (by tauto), Returned, or_iff_right (by tauto), and_iff_right hhidden]
  · rw [not_or] at hhidden
    rw [if_pos hhidden, cstr_store (hnul.of_subset hpre.subset), hwhole, Returned,
      or_iff_left (by tauto)]
    tauto

end Own

/-! ## 3. Strings that fit their arrays -/

/-- Every string a text has for one of these fields is shorter than the
field's array. -/
def Fits (slots : List (Slot σ)) (arrays : List (Key × Nat)) (size : Nat) (text : List Char) :
    Prop :=
  ∀ array ∈ arrays, ∀ v ∈ assigned slots array.1 size text, v.length < array.2

instance (slots : List (Slot σ)) (arrays : List (Key × Nat)) (size : Nat) (text : List Char) :
    Decidable (Fits slots arrays size text) := by
  unfold Fits; infer_instance

/-- A printed string that belongs to an array is shorter than it. -/
def Entry.FitsIn (array : Key × Nat) : Entry → Prop
  | .text key value => key.name = array.1.name → value.length < array.2
  | _ => True

instance (array : Key × Nat) : DecidablePred (Entry.FitsIn array) := fun e =>
  match e with
  | .text _ _ => by unfold Entry.FitsIn; infer_instance
  | .brace _ | .number .. => isTrue trivial

/-- What a text assigns, the second part behind a newline. -/
theorem assigned_append {key : Key} {size : Nat} {text : List Char}
    (h : text.getLast? = some '\n') (rest : List Char) : assigned slots key size (text ++ rest)
      = assigned slots key size text ++ assigned slots key size rest := by
  rw [assigned, fgetsLines_append size h, List.filterMap_append]
  rfl

theorem assigned_entriesText (key : Key) (size : Nat) (entries : List Entry) :
    assigned slots key size (entriesText entries)
      = entries.flatMap (fun e => assigned slots key size e.line) := by
  induction entries with
  | nil => rfl
  | cons e es ih =>
    have hcons : entriesText (e :: es) = e.line ++ entriesText es := rfl
    rw [hcons, assigned_append e.getLast_line, ih, List.flatMap_cons]

/-- What the line of an entry assigns is a leading part of its string. -/
theorem mem_assigned_line {key : Key} {size : Nat} {e : Entry} (he : e.QuoteFree) {v : List Char}
    (h : v ∈ assigned slots key size e.line) : ∃ value, e = .text key value ∧ v <+: value := by
  obtain ⟨piece, hpiece, hv⟩ := List.mem_filterMap.mp h
  have hinf := infix_of_mem_fgetsLines hpiece
  rw [assignedBy, cstr_of_nulFree ((Entry.nulFree_line he).of_subset hinf.subset),
    Option.ite_none_right_eq_some] at hv
  obtain ⟨hkey, hv⟩ := hv
  cases e with
  | brace c =>
    have hnone : select slots piece = none := by
      refine select_of_no_quote fun hm => ?_
      have hline := hinf.subset hm
      simp [Entry.line, Ne.symm he.1] at hline
    rw [hnone] at hkey
    simp at hkey
  | number k n comma =>
    have hq : '"' ∉ (numberTail comma).toList := by cases comma <;> decide
    rw [scannedText_intLine_piece k.isKey key.isKey n hq hinf] at hv
    simp at hv
  | text k value =>
    obtain ⟨hk, hpre⟩ := scannedText_piece k.isKey key.isKey he.1 hinf hv
    exact ⟨value, by rw [Key.ext_name hk], hpre⟩

/-- A line of one piece assigns to its own key and no other, whatever
quotes are in its string. -/
theorem mem_assigned_oneLine {key k : Key} {size : Nat} {value v : List Char}
    (hone : (Entry.text k value).OnePiece size) (hnul : NulFree value)
    (h : v ∈ assigned slots key size (Entry.text k value).line) : k = key ∧ v <+: value := by
  obtain ⟨hnewline, hlen⟩ := hone
  have hk : '\n' ∉ k.name.toList := k.isKey.not_mem (by decide) (by decide)
  have hpieces : fgetsLines size (textLine k.name value) = [textLine k.name value] := by
    have hline : textLine k.name value = lineHead k.name ++ value ++ "\",".toList ++ ['\n'] := by
      simp [textLine_chars, lineHead_chars]
    rw [hline]
    rw [hline, List.length_append, List.length_singleton] at hlen
    exact fgetsLines_line (by simp [lineHead_chars, hk, hnewline]) hlen
  rw [Entry.line, assigned, hpieces, List.filterMap_cons] at h
  cases hassign : assignedBy slots key (textLine k.name value) with
  | none => simp [hassign] at h
  | some w =>
    obtain rfl : v = w := by simpa [hassign] using h
    rw [assignedBy, cstr_of_nulFree (nulFree_textLine k hnul),
      Option.ite_none_right_eq_some] at hassign
    obtain ⟨-, hscan⟩ := hassign
    have hword : textLine k.name value = "  ".toList ++ '"' :: (k.name.toList
        ++ '"' :: (": \"".toList ++ value ++ "\",\n".toList)) := by
      simp [textLine_chars]
    have hkey : key.name.toList = k.name.toList := by
      rw [hword] at hscan
      exact (scannedText_word key.isKey (by decide : ∀ c ∈ "  ".toList, isSpace c = true)
        k.isKey.quote hscan).1
    obtain rfl : k = key := Key.ext_name (String.ext hkey.symm)
    refine ⟨rfl, ?_⟩
    obtain ⟨ws, ws', rest, hws, hws', hv, hline⟩ := inv_scannedText k.isKey hscan
    have hleft : textLine k.name value = "  ".toList ++ '"' :: (k.name.toList ++ '"' ::
        (": ".toList ++ '"' :: (value ++ '"' :: ",\n".toList))) := by
      simp [textLine_chars]
    have hright : textLine k.name value
        = ws ++ '"' :: (k.name.toList ++ '"' :: ((':' :: ws') ++ '"' :: (v ++ rest))) := by
      rw [hline]
      simp [fieldWord, quoted]
    have hcolon : '"' ∉ ':' :: ws' := by
      have hspace := quote_not_mem_space hws'
      simp [hspace]
    obtain ⟨-, hkeys⟩ := append_sep_inj (by decide) (quote_not_mem_space hws)
      (hleft.symm.trans hright)
    obtain ⟨-, hcolons⟩ := append_sep_inj k.isKey.quote k.isKey.quote hkeys
    obtain ⟨-, hvalues⟩ := append_sep_inj (by decide) hcolon hcolons
    rcases List.append_eq_append_iff.mp hvalues with ⟨a, rfl, ha⟩ | ⟨a, rfl, -⟩
    · cases a with
      | nil => simp
      | cons c a =>
        obtain rfl : '"' = c := (List.cons.inj ha).1
        simp at hv
    · exact List.prefix_append _ _

/-- The line of another key, or none, assigns nothing. -/
theorem assigned_line_other {key : Key} {size : Nat} {e : Entry} (he : e.QuoteFree)
    (hother : ∀ value, e ≠ .text key value) : assigned slots key size e.line = [] := by
  refine List.eq_nil_iff_forall_not_mem.mpr fun v hv => ?_
  obtain ⟨value, hvalue, -⟩ := mem_assigned_line he hv
  exact hother value hvalue

/-- The line of its own key assigns a string that is neither empty nor the
key of an earlier slot. -/
theorem assigned_line_own (h : Lawful slots) {key : Key} {get : σ → List Char}
    {set : σ → List Char → σ} (ht : Slot.text key get set ∈ slots) {value : List Char}
    (hquote : (Entry.text key value).QuoteFree) {size : Nat}
    (hone : (Entry.text key value).OnePiece size) (hne : value ≠ [])
    (hshadow : ¬ Shadowed slots key.name value) :
    assigned slots key size (Entry.text key value).line = [value] := by
  obtain ⟨w, hline, hw⟩ : ∃ w, textLine key.name value = w ++ ['\n'] ∧ '\n' ∉ w := by
    have hk : '\n' ∉ key.name.toList := key.isKey.not_mem (by decide) (by decide)
    exact ⟨"  \"".toList ++ key.name.toList ++ "\": \"".toList ++ value ++ "\",".toList,
      by simp [textLine_chars], by simp [hk, hone.1]⟩
  have hlen := hone.2
  rw [hline, List.length_append, List.length_singleton] at hlen
  have hsel := (select_textLine h ht hquote.1).mpr hshadow
  have hnul := nulFree_textLine key hquote.2
  have hassign : assignedBy slots key (textLine key.name value) = some value := by
    rw [assignedBy, cstr_of_nulFree hnul]
    simp only [Slot.key] at hsel
    rw [hsel, if_pos (by rfl), scannedText_textLine key.isKey hquote.1, if_neg hne]
  rw [Entry.line, assigned, hline, fgetsLines_line hw hlen, ← hline, List.filterMap_cons, hassign]
  rfl

/-- The string of a line, if the line is that of the key. -/
def Entry.valueFor (key : Key) : Entry → List (List Char)
  | .text k value => if k.name = key.name then [value] else []
  | .brace _ | .number .. => []

/-- A line of one piece whose slot, if it has one, gets all of its
string. -/
structure Entry.ReadWhole (slots : List (Slot σ)) (size : Nat) (e : Entry) : Prop where
  quote : e.QuoteFree
  piece : e.OnePiece size
  own : ∀ s ∈ slots, ∀ value, e = .text s.key value →
    value ≠ [] ∧ ¬ Shadowed slots s.key.name value

theorem Entry.ReadWhole.assigned_line (h : Lawful slots) {key : Key} {get : σ → List Char}
    {set : σ → List Char → σ} (ht : Slot.text key get set ∈ slots) {size : Nat} {e : Entry}
    (he : e.ReadWhole slots size) : assigned slots key size e.line = e.valueFor key := by
  cases e with
  | brace c => exact assigned_line_other he.quote (by simp)
  | number k n comma => exact assigned_line_other he.quote (by simp)
  | text k value =>
    by_cases hk : k.name = key.name
    · obtain rfl := Key.ext_name hk
      obtain ⟨hne, hshadow⟩ := he.own _ ht value rfl
      rw [assigned_line_own h ht he.quote he.piece hne hshadow, Entry.valueFor, if_pos rfl]
    · have hother : ∀ v, Entry.text k value ≠ .text key v := by
        intro v hv
        exact hk (congrArg Key.name (Entry.text.inj hv).1)
      rw [assigned_line_other he.quote hother, Entry.valueFor, if_neg hk]

/-- A record free of quotes whose strings fit is read inside the struct. -/
theorem fits_entriesText {arrays : List (Key × Nat)} {size : Nat}
    {entries : List Entry} (hes : ∀ e ∈ entries, e.QuoteFree)
    (hfit : ∀ array ∈ arrays, ∀ e ∈ entries, e.FitsIn array) :
    Fits slots arrays size (entriesText entries) := by
  intro array harray v hv
  rw [assigned_entriesText, List.mem_flatMap] at hv
  obtain ⟨e, he, hv⟩ := hv
  obtain ⟨value, rfl, hpre⟩ := mem_assigned_line (hes e he) hv
  exact lt_of_le_of_lt hpre.length_le (hfit array harray _ he rfl)

end Pieces

end DockerClone.Metadata
