/-
DockerClone.Metadata.File — a metadata file, written as entries and read
into slots.

A writer is a list of `Entry`s: the lines it prints, in order. A reader
is a list of `Slot`s: the fields of a struct it knows, in the order its
`if … else if …` chain tests them. `readText` is the reader's loop: the
file in `fgets` pieces, each piece given to the first slot whose quoted
key occurs in it.

Keys carry the proof that they are words, so that no lemma below asks
for it again. `Lawful` collects what every concrete list of slots has to
satisfy once; the laws of sections 4 and 5 then hold of any reader and
any writer:

* a number slot ends up with the number written under its key, whatever
  quote-free strings stand in the other lines (`number_readText`);
* a text slot ends up with the string written under its key exactly when
  that string is not empty and is not the key of an earlier slot
  (`text_readText`); otherwise it keeps what it held.
-/
import DockerClone.Metadata.Line
import Mathlib.Data.List.Nodup
import Mathlib.Data.List.Pairwise

namespace DockerClone.Metadata

open DockerClone.CLib

/-! ## 1. Entries -/

/-- A short word of letters and underscores. -/
def isShortKey (name : String) : Bool :=
  decide (IsKey name) && decide (name.toList.length ≤ 64)

/-- A key: a word that passes the check. -/
structure Key where
  name : String
  checked : isShortKey name = true := by exact Eq.refl true

theorem Key.isKey (key : Key) : IsKey key.name := by
  have h := key.checked
  rw [isShortKey, Bool.and_eq_true, decide_eq_true_eq] at h
  exact h.1

theorem Key.short (key : Key) : key.name.toList.length ≤ 64 := by
  have h := key.checked
  rw [isShortKey, Bool.and_eq_true, decide_eq_true_eq, decide_eq_true_eq] at h
  exact h.2

theorem Key.ext_name {j k : Key} (h : j.name = k.name) : j = k := by
  cases j; cases k; simp_all

theorem Key.eq_iff {j k : Key} : j = k ↔ j.name = k.name :=
  ⟨congrArg Key.name, Key.ext_name⟩

/-- One printed line. -/
inductive Entry where
  /-- A brace on a line of its own. -/
  | brace (c : Char)
  | text (key : Key) (value : List Char)
  /-- The last field of a record is printed without a comma. -/
  | number (key : Key) (n : Int32) (comma : Bool)

def numberTail (comma : Bool) : String := if comma then ",\n" else "\n"

theorem numberTail_head (comma : Bool) :
    ∀ c ∈ (numberTail comma).toList.head?, c.isDigit = false := by
  intro c hc
  cases comma with
  | true =>
    obtain rfl : ',' = c := Option.some.inj hc
    decide
  | false =>
    obtain rfl : '\n' = c := Option.some.inj hc
    decide

def Entry.line : Entry → List Char
  | .brace c => [c, '\n']
  | .text key value => textLine key.name value
  | .number key n comma => intLine key.name n (numberTail comma)

/-- The text a writer prints. -/
def entriesText (entries : List Entry) : List Char := entries.flatMap Entry.line

/-- What the round-trip laws ask of an entry: its string holds no quote
and no NUL. -/
def Entry.QuoteFree : Entry → Prop
  | .brace c => c ≠ '"' ∧ c ≠ '\n' ∧ c ≠ nul
  | .text _ value => '"' ∉ value ∧ NulFree value
  | .number .. => True

/-- The line is one piece for `fgets`. -/
def Entry.OnePiece (size : Nat) : Entry → Prop
  | .text key value => '\n' ∉ value ∧ (textLine key.name value).length < size
  | _ => True

instance : DecidablePred Entry.QuoteFree := fun e =>
  match e with
  | .brace _ | .text _ _ => by unfold Entry.QuoteFree; infer_instance
  | .number .. => isTrue trivial

instance (size : Nat) : DecidablePred (Entry.OnePiece size) := fun e =>
  match e with
  | .text _ _ => by unfold Entry.OnePiece; infer_instance
  | .brace _ | .number .. => isTrue trivial

/-! ## 2. Slots -/

/-- A field of the struct a reader fills. -/
inductive Slot (σ : Type) where
  | text (key : Key) (get : σ → List Char) (set : σ → List Char → σ)
  | number (key : Key) (get : σ → Int32) (set : σ → Int32 → σ)

namespace Slot

variable {σ : Type}

def key : Slot σ → Key
  | .text key .. => key
  | .number key .. => key

/-- What the struct holds in this field. -/
def view : Slot σ → σ → List Char ⊕ Int32
  | .text _ get _, c => .inl (get c)
  | .number _ get _, c => .inr (get c)

/-- The `sscanf` call of the field's branch. -/
def scan : Slot σ → List Char → σ → σ
  | .text key get set, line, c =>
      match scannedText line (textFormat key.name) with
      | some v => set c (store (get c) v)
      | none => c
  | .number key _ set, line, c =>
      match scannedInt line (intFormat key.name) with
      | some n => set c n
      | none => c

/-- An assignment to the field leaves a view alone. -/
def Frames {β : Type} (s : Slot σ) (view : σ → β) : Prop :=
  match s with
  | .text _ _ set => ∀ c v, view (set c v) = view c
  | .number _ _ set => ∀ c n, view (set c n) = view c

theorem Frames.scan {β : Type} {s : Slot σ} {view : σ → β} (h : s.Frames view)
    (line : List Char) (c : σ) : view (s.scan line c) = view c := by
  cases s with
  | text key get set =>
    simp only [Slot.scan]
    split
    · exact h c _
    · rfl
  | number key get set =>
    simp only [Slot.scan]
    split
    · exact h c _
    · rfl

/-- The field reads back what is assigned to it. -/
def Reads : Slot σ → Prop
  | .text _ get set => ∀ c v, get (set c v) = v
  | .number _ get set => ∀ c n, get (set c n) = n

end Slot

/-- A list of slots over one struct: distinct keys, and fields that do
not overlap. -/
structure Lawful {σ : Type} (slots : List (Slot σ)) : Prop where
  distinct : (slots.map (fun s => s.key.name)).Nodup
  reads : ∀ s ∈ slots, s.Reads
  frames : slots.Pairwise (fun s t => s.Frames t.view ∧ t.Frames s.view)

namespace Lawful

variable {σ : Type} {slots : List (Slot σ)} {s t : Slot σ}

theorem eq_of_key (h : Lawful slots) (hs : s ∈ slots) (ht : t ∈ slots)
    (hkey : s.key.name = t.key.name) : s = t :=
  List.inj_on_of_nodup_map h.distinct hs ht hkey

theorem frame (h : Lawful slots) (hs : s ∈ slots) (ht : t ∈ slots) (hne : s ≠ t) :
    s.Frames t.view := by
  have : Std.Symm (fun s t : Slot σ => s.Frames t.view ∧ t.Frames s.view) :=
    ⟨fun _ _ hst => ⟨hst.2, hst.1⟩⟩
  exact (h.frames.forall hs ht hne).1

end Lawful

/-! ## 3. The reader's loop -/

section Reader

variable {σ : Type}

/-- The branch the `else if` chain takes for a line. -/
def select (slots : List (Slot σ)) (line : List Char) : Option (Slot σ) :=
  slots.find? (fun s => hasKey line s.key.name)

/-- One turn of the reader's loop. -/
def readLine (slots : List (Slot σ)) (c : σ) (line : List Char) : σ :=
  match select slots line with
  | some s => s.scan line c
  | none => c

/-- `while (fgets(line, size, fp)) …`; a piece is the string in `line`. -/
def readText (slots : List (Slot σ)) (size : Nat) (text : List Char) (c : σ) : σ :=
  (fgetsLines size text).foldl (fun c piece => readLine slots c (cstr piece)) c

variable {slots : List (Slot σ)} {t : Slot σ} {line : List Char}

theorem readLine_of_select (h : select slots line = some t) (c : σ) :
    readLine slots c line = t.scan line c := by
  rw [readLine, h]

/-- A line given to another slot leaves this one alone. -/
theorem view_readLine (h : Lawful slots) (ht : t ∈ slots) (hne : select slots line ≠ some t)
    (c : σ) : t.view (readLine slots c line) = t.view c := by
  unfold readLine
  cases hs : select slots line with
  | none => rfl
  | some s =>
    have hst : s ≠ t := by
      rintro rfl; exact hne hs
    exact (h.frame (List.mem_of_find?_eq_some hs) ht hst).scan line c

/-- A line no field's call assigns from changes nothing. -/
theorem readLine_idle {c : σ} (h : ∀ s ∈ slots, s.scan line c = c) :
    readLine slots c line = c := by
  unfold readLine
  cases hs : select slots line with
  | none => rfl
  | some s => exact h s (List.mem_of_find?_eq_some hs)

/-- The slots tested before a key. -/
def earlier (slots : List (Slot σ)) (key : String) : List (Slot σ) :=
  slots.takeWhile (fun s => s.key.name != key)

/-- A value that is the key of a slot tested before its own. -/
def Shadowed (slots : List (Slot σ)) (key : String) (value : List Char) : Prop :=
  ∃ s ∈ earlier slots key, s.key.name.toList = value

instance (slots : List (Slot σ)) (key : String) (value : List Char) :
    Decidable (Shadowed slots key value) := by
  unfold Shadowed; infer_instance

theorem split_at_key (h : Lawful slots) (ht : t ∈ slots) :
    ∃ rest, slots = earlier slots t.key.name ++ t :: rest := by
  have hsplit := List.takeWhile_append_dropWhile (p := fun s => s.key.name != t.key.name)
    (l := slots)
  cases hd : slots.dropWhile (fun s => s.key.name != t.key.name) with
  | nil =>
    rw [List.dropWhile_eq_nil_iff] at hd
    have := hd t ht
    simp at this
  | cons s rest =>
    rw [hd] at hsplit
    have hs : s ∈ slots := by rw [← hsplit]; simp
    have hkey : s.key.name = t.key.name := by
      have := List.dropWhile_get_zero_not (fun s => s.key.name != t.key.name) slots
        (by rw [hd]; simp)
      simpa [hd] using this
    obtain rfl := h.eq_of_key hs ht hkey
    exact ⟨rest, hsplit.symm⟩

/-- Which slot a line goes to, when its own key occurs in it. -/
theorem select_eq_some (h : Lawful slots) (ht : t ∈ slots) (hk : hasKey line t.key.name = true) :
    select slots line = some t ↔
      ∀ s ∈ earlier slots t.key.name, hasKey line s.key.name = false := by
  obtain ⟨rest, hsplit⟩ := split_at_key h ht
  constructor
  · intro hsel
    rw [select, hsplit, List.find?_append] at hsel
    intro s hs
    cases he : (earlier slots t.key.name).find? (fun s => hasKey line s.key.name) with
    | none => simpa using List.find?_eq_none.mp he s hs
    | some u =>
      rw [he] at hsel
      obtain rfl : u = t := by simpa using hsel
      have := List.mem_takeWhile_imp (List.mem_of_find?_eq_some he)
      simp at this
  · intro hall
    rw [select, hsplit, List.find?_append,
      List.find?_eq_none.mpr (fun s hs => by simp [hall s hs])]
    simp [hk]

/-! ## 4. From the file to its entries -/

theorem Entry.getLast_line (e : Entry) : e.line.getLast? = some '\n' := by
  rw [List.getLast?_eq_some_iff]
  cases e with
  | brace c => exact ⟨[c], rfl⟩
  | text key value =>
    exact ⟨"  \"".toList ++ key.name.toList ++ "\": \"".toList ++ value ++ "\",".toList,
      by simp [Entry.line, textLine_chars]⟩
  | number key n comma =>
    exact ⟨"  \"".toList ++ key.name.toList ++ "\": ".toList ++ renderInt n.toInt
      ++ (if comma then [','] else []), by cases comma <;> simp [Entry.line, intLine_chars, numberTail]⟩

theorem getLast_entriesText {entries : List Entry} (h : entries ≠ []) :
    (entriesText entries).getLast? = some '\n' := by
  have hsplit := List.dropLast_append_getLast h
  rw [← hsplit, entriesText, List.flatMap_append, List.flatMap_singleton, List.getLast?_append,
    Entry.getLast_line]
  rfl

/-- The loop over two texts joined at a newline. -/
theorem readText_append (slots : List (Slot σ)) (size : Nat) {text : List Char}
    (h : text.getLast? = some '\n') (rest : List Char) (c : σ) :
    readText slots size (text ++ rest) c = readText slots size rest (readText slots size text c) := by
  rw [readText, fgetsLines_append size h, List.foldl_append]
  rfl

/-- The loop over a file is the loop over its lines. -/
theorem readText_entriesText (slots : List (Slot σ)) (size : Nat) :
    ∀ (entries : List Entry) (c : σ),
      readText slots size (entriesText entries) c
        = entries.foldl (fun c e => readText slots size e.line c) c
  | [], _ => rfl
  | e :: es, c => by
      have hcons : entriesText (e :: es) = e.line ++ entriesText es := rfl
      have ih := readText_entriesText slots size es (readText slots size e.line c)
      rw [List.foldl_cons, ← ih, hcons, readText_append slots size e.getLast_line]

theorem foldl_keeps {α β : Type} {step : σ → α → σ} {view : σ → β} :
    ∀ {xs : List α}, (∀ x ∈ xs, ∀ c, view (step c x) = view c) → ∀ c : σ,
      view (xs.foldl step c) = view c
  | [], _, _ => rfl
  | x :: xs, h, c => by
      rw [List.foldl_cons, foldl_keeps (fun y hy => h y (List.mem_cons_of_mem _ hy)),
        h x (by simp)]

theorem nulFree_textLine (key : Key) {value : List Char} (hv : NulFree value) :
    NulFree (textLine key.name value) := by
  have hk : '\x00' ∉ key.name.toList := key.isKey.not_mem (by decide) (by decide)
  have hv' : '\x00' ∉ value := hv
  simp [NulFree, textLine_chars, hk, hv', nul]

theorem nulFree_intLine (key : Key) (n : Int32) (comma : Bool) :
    NulFree (intLine key.name n (numberTail comma)) := by
  have hk : '\x00' ∉ key.name.toList := key.isKey.not_mem (by decide) (by decide)
  have hn : '\x00' ∉ renderInt n.toInt := not_mem_renderInt (by decide) (by decide) _
  cases comma <;> simp [NulFree, intLine_chars, numberTail, hk, hn, nul]

theorem Entry.nulFree_line {e : Entry} (h : e.QuoteFree) : NulFree e.line := by
  cases e with
  | brace c => simp [NulFree, Entry.line, Ne.symm h.2.2]; decide
  | text key value => exact nulFree_textLine key h.2
  | number key n comma => exact nulFree_intLine key n comma

/-- A view that no piece of a line can change survives the line. -/
theorem view_readText_line {β : Type} (view : σ → β) (hnul : NulFree line)
    (h : ∀ piece, piece <:+: line → ∀ c, view (readLine slots c piece) = view c)
    (size : Nat) (c : σ) : view (readText slots size line c) = view c := by
  refine foldl_keeps (fun piece hp c => ?_) c
  have hinf := infix_of_mem_fgetsLines hp
  rw [cstr_of_nulFree (hnul.of_subset hinf.subset)]
  exact h piece hinf c

/-- A line that is one piece is read in one turn. -/
theorem readText_one {w : List Char} {size : Nat} (hnul : NulFree (w ++ ['\n']))
    (hw : '\n' ∉ w) (hsize : w.length + 1 < size) (c : σ) :
    readText slots size (w ++ ['\n']) c = readLine slots c (w ++ ['\n']) := by
  rw [readText, fgetsLines_line hw hsize, List.foldl_cons, List.foldl_nil, cstr_of_nulFree hnul]

/-- Lines of one piece that assign nothing are passed over. -/
theorem readText_idle {size : Nat} : ∀ {ws : List (List Char)}, (∀ w ∈ ws, NulFree w ∧ '\n' ∉ w ∧
    w.length + 1 < size ∧ ∀ s ∈ slots, ∀ c, s.scan (w ++ ['\n']) c = c) → ∀ c : σ,
      readText slots size (ws.flatMap (· ++ ['\n'])) c = c
  | [], _, _ => rfl
  | w :: ws, h, c => by
      obtain ⟨hnul, hnewline, hlen, hidle⟩ := h w List.mem_cons_self
      have hline : NulFree (w ++ ['\n']) := by simp [hnul, nul]
      rw [List.flatMap_cons, readText_append slots size (by simp),
        readText_one hline hnewline hlen, readLine_idle (fun s hs => hidle s hs c)]
      exact readText_idle (fun x hx => h x (List.mem_cons_of_mem w hx)) c

/-- Quote-free text mentions no key. -/
theorem select_of_no_quote (h : '"' ∉ line) : select slots line = none := by
  rw [select, List.find?_eq_none]
  intro s _ hs
  rw [hasKey, found_iff] at hs
  exact h (hs.subset (by simp [quoted]))

theorem readText_brace (slots : List (Slot σ)) {ch : Char} (h : (Entry.brace ch).QuoteFree)
    (size : Nat) (c : σ) : readText slots size (Entry.brace ch).line c = c := by
  refine view_readText_line id (Entry.nulFree_line h) (fun piece hp c => ?_) size c
  have hline : '"' ∉ (Entry.brace ch).line := by
    simp [Entry.line, Ne.symm h.1]
  rw [id, id, readLine, select_of_no_quote (fun hm => hline (hp.subset hm))]

/-- A number line is one piece and is read in one turn. -/
theorem readText_number (slots : List (Slot σ)) {size : Nat} (hsize : 100 ≤ size) (key : Key)
    (n : Int32) (comma : Bool) (c : σ) :
    readText slots size (Entry.number key n comma).line c
      = readLine slots c (intLine key.name n (numberTail comma)) := by
  obtain ⟨w, hline, hw, hlen⟩ : ∃ w, intLine key.name n (numberTail comma) = w ++ ['\n'] ∧
      '\n' ∉ w ∧ w.length < 90 := by
    have hk : '\n' ∉ key.name.toList := key.isKey.not_mem (by decide) (by decide)
    have hn : '\n' ∉ renderInt n.toInt := not_mem_renderInt (by decide) (by decide) _
    have hshort := key.short
    have hnum := length_renderInt_le n
    refine ⟨"  \"".toList ++ key.name.toList ++ "\": ".toList ++ renderInt n.toInt
      ++ (if comma then [','] else []), ?_, ?_, ?_⟩
    · cases comma <;> simp [intLine_chars, numberTail]
    · cases comma <;> simp [hk, hn]
    · cases comma <;> simp <;> omega
  have hnul := nulFree_intLine key n comma
  rw [Entry.line]
  rw [hline] at hnul ⊢
  exact readText_one hnul hw (by omega) c

/-- What no slot assigns, no file changes. -/
theorem frames_readText {β : Type} {view : σ → β} (h : ∀ s ∈ slots, s.Frames view)
    (size : Nat) (text : List Char) (c : σ) : view (readText slots size text c) = view c := by
  refine foldl_keeps (fun piece _ c => ?_) c
  unfold readLine
  cases hs : select slots (cstr piece) with
  | none => rfl
  | some s => exact (h s (List.mem_of_find?_eq_some hs)).scan _ c

/-! ## 5. Number slots -/

section Numbers

variable {key : Key} {get : σ → Int32} {set : σ → Int32 → σ}

/-- What an entry leaves in the number slot of a key. -/
def Entry.numberAt (key : String) (old : Int32) : Entry → Int32
  | .number k n _ => if k.name = key then n else old
  | _ => old

theorem number_readEntry (h : Lawful slots) (ht : Slot.number key get set ∈ slots) {e : Entry}
    (he : e.QuoteFree) {size : Nat} (hsize : 100 ≤ size) (c : σ) :
    get (readText slots size e.line c) = e.numberAt key.name (get c) := by
  have hview : ∀ {line c}, select slots line ≠ some (.number key get set) →
      get (readLine slots c line) = get c := by
    intro line c hne
    exact Sum.inr.inj (view_readLine h ht hne c)
  cases e with
  | brace ch => rw [readText_brace slots he]; rfl
  | text k value =>
    -- no piece of a text line scans as a number
    refine view_readText_line get (nulFree_textLine k he.2) (fun piece hp c => ?_) size c
    by_cases hsel : select slots piece = some (.number key get set)
    · rw [readLine_of_select hsel, Slot.scan,
        scannedInt_textLine_piece k.isKey key.isKey he.1 hp]
    · exact hview hsel
  | number k n comma =>
    have hq : '"' ∉ (numberTail comma).toList := by cases comma <;> decide
    rw [readText_number slots hsize, Entry.numberAt]
    by_cases hk : k.name = key.name
    · rw [if_pos hk]
      have hown : hasKey (intLine k.name n (numberTail comma)) key.name = true :=
        (hasKey_intLine k.isKey key.isKey n hq).mpr hk.symm
      have hsel : select slots (intLine k.name n (numberTail comma))
          = some (.number key get set) := by
        rw [select_eq_some h ht hown]
        intro s hs
        have hne := List.mem_takeWhile_imp hs
        simp only [Slot.key, bne_iff_ne, ne_eq] at hne
        rw [← Bool.not_eq_true, hasKey_intLine k.isKey s.key.isKey n hq, hk]
        exact hne
      rw [readLine_of_select hsel, Slot.scan, ← hk,
        scannedInt_intLine k.isKey n (numberTail_head comma)]
      exact h.reads _ ht c n
    · rw [if_neg hk]
      refine hview (fun hsel => hk ?_)
      have hown := List.find?_some hsel
      exact ((hasKey_intLine k.isKey key.isKey n hq).mp hown).symm

/-- No quote-free string, of any length and with any newlines, disturbs
the numbers of a record. -/
theorem number_readText (h : Lawful slots) (ht : Slot.number key get set ∈ slots) {size : Nat}
    (hsize : 100 ≤ size) : ∀ {entries : List Entry}, (∀ e ∈ entries, e.QuoteFree) → ∀ c : σ,
      get (readText slots size (entriesText entries) c)
        = entries.foldl (fun n e => e.numberAt key.name n) (get c)
  | [], _, _ => rfl
  | e :: es, hes, c => by
      have ih := number_readText h ht hsize (fun x hx => hes x (List.mem_cons_of_mem _ hx))
        (readText slots size e.line c)
      rw [readText_entriesText] at ih ⊢
      rw [List.foldl_cons, ih, List.foldl_cons, number_readEntry h ht (hes e (by simp)) hsize]

end Numbers

/-! ## 6. Text slots -/

section Texts

variable {key : Key} {get : σ → List Char} {set : σ → List Char → σ}

/-- What an entry leaves in the text slot of a key. -/
def Entry.textAt (slots : List (Slot σ)) (key : String) (old : List Char) :
    Entry → List Char
  | .text k value =>
      if k.name = key ∧ value ≠ [] ∧ ¬ Shadowed slots key value then store old value else old
  | _ => old

/-- The line of a key leaves its string in the slot unless the string is
empty or hidden; then the slot must have held it. -/
theorem cstr_textAt_iff {value : List Char} (hv : NulFree value) (old : List Char) :
    cstr ((Entry.text key value).textAt slots key.name old) = value ↔
      (value ≠ [] ∧ ¬ Shadowed slots key.name value) ∨ cstr old = value := by
  simp only [Entry.textAt, true_and]
  split
  · rename_i hc
    simp [cstr_store hv, hc]
  · rename_i hc
    simp [hc]

/-- The line of a key goes to the slot of that key unless its value
hides it. -/
theorem select_textLine (h : Lawful slots) {t : Slot σ} (ht : t ∈ slots) {value : List Char}
    (hv : '"' ∉ value) : select slots (textLine t.key.name value) = some t ↔
      ¬ Shadowed slots t.key.name value := by
  have hown : hasKey (textLine t.key.name value) t.key.name = true :=
    (hasKey_textLine t.key.isKey t.key.isKey hv).mpr (Or.inl rfl)
  rw [select_eq_some h ht hown]
  constructor
  · rintro hall ⟨s, hs, hval⟩
    have hkey := (hasKey_textLine t.key.isKey s.key.isKey hv).mpr (Or.inr hval)
    rw [hall s hs] at hkey
    simp at hkey
  · intro hshadow s hs
    have hne := List.mem_takeWhile_imp hs
    simp only [bne_iff_ne, ne_eq] at hne
    rw [← Bool.not_eq_true, hasKey_textLine t.key.isKey s.key.isKey hv]
    rintro (heq | heq)
    · exact hne heq
    · exact hshadow ⟨s, hs, heq⟩

/-- No line but that of its key changes a text slot, however it is cut. -/
theorem text_readEntry_other (h : Lawful slots) (ht : Slot.text key get set ∈ slots) {e : Entry}
    (he : e.QuoteFree) (hother : ∀ value, e ≠ .text key value) {size : Nat} (hsize : 100 ≤ size)
    (c : σ) : get (readText slots size e.line c) = get c := by
  have hview : ∀ {line c}, select slots line ≠ some (.text key get set) →
      get (readLine slots c line) = get c := by
    intro line c hne
    exact Sum.inl.inj (view_readLine h ht hne c)
  cases e with
  | brace ch => rw [readText_brace slots he]
  | number k n comma =>
    have hq : '"' ∉ (numberTail comma).toList := by cases comma <;> decide
    rw [readText_number slots hsize]
    by_cases hsel : select slots (intLine k.name n (numberTail comma))
        = some (.text key get set)
    · rw [readLine_of_select hsel, Slot.scan,
        scannedText_intLine_piece k.isKey key.isKey n hq (List.infix_refl _)]
    · exact hview hsel
  | text k value =>
    refine view_readText_line get (nulFree_textLine k he.2) (fun piece hp c => ?_) size c
    by_cases hsel : select slots piece = some (.text key get set)
    · rw [readLine_of_select hsel, Slot.scan]
      cases hs : scannedText piece (textFormat key.name) with
      | none => rfl
      | some u =>
        have hkey := (scannedText_piece k.isKey key.isKey he.1 hp hs).1
        exact absurd (by rw [Key.ext_name hkey]) (hother value)
    · exact hview hsel

theorem text_readEntry (h : Lawful slots) (ht : Slot.text key get set ∈ slots) {e : Entry}
    (he : e.QuoteFree) {size : Nat} (hone : ∀ value, e = .text key value → e.OnePiece size)
    (hsize : 100 ≤ size) (c : σ) :
    get (readText slots size e.line c) = e.textAt slots key.name (get c) := by
  by_cases hother : ∀ value, e ≠ .text key value
  · rw [text_readEntry_other h ht he hother hsize]
    cases e with
    | brace ch => rfl
    | number k n comma => rfl
    | text k value =>
      have hk : k.name ≠ key.name := fun hk => hother value (by rw [Key.ext_name hk])
      rw [Entry.textAt, if_neg (fun hc => hk hc.1)]
  · obtain ⟨value, rfl⟩ := not_forall_not.mp hother
    obtain ⟨hnewline, hfits⟩ := hone value rfl
    obtain ⟨w, hline, hw⟩ : ∃ w, textLine key.name value = w ++ ['\n'] ∧ '\n' ∉ w := by
      have hk : '\n' ∉ key.name.toList := key.isKey.not_mem (by decide) (by decide)
      exact ⟨"  \"".toList ++ key.name.toList ++ "\": \"".toList ++ value ++ "\",".toList,
        by simp [textLine_chars], by simp [hk, hnewline]⟩
    have hlen : w.length + 1 < size := by
      rw [hline, List.length_append] at hfits
      simpa using hfits
    have hread : readText slots size (Entry.text key value).line c
        = readLine slots c (textLine key.name value) := by
      have hnul := nulFree_textLine key he.2
      rw [Entry.line]
      rw [hline] at hnul ⊢
      exact readText_one hnul hw hlen c
    have hsel := select_textLine h ht he.1
    simp only [Slot.key] at hsel
    rw [hread, Entry.textAt]
    by_cases hshadow : Shadowed slots key.name value
    · rw [if_neg (fun hc => hc.2.2 hshadow)]
      exact Sum.inl.inj (view_readLine h ht (fun hs => hsel.mp hs hshadow) c)
    · rw [readLine_of_select (hsel.mpr hshadow), Slot.scan, scannedText_textLine key.isKey he.1]
      by_cases hnil : value = []
      · simp [hnil]
      · rw [if_neg hnil, if_pos ⟨rfl, hnil, hshadow⟩]
        exact h.reads _ ht c _

/-- What the reader holds in a text slot after a whole record. Only the
lines of its own key have to be one piece. -/
theorem text_readText (h : Lawful slots) (ht : Slot.text key get set ∈ slots) {size : Nat}
    (hsize : 100 ≤ size) : ∀ {entries : List Entry}, (∀ e ∈ entries, e.QuoteFree) →
      (∀ value, .text key value ∈ entries → (Entry.text key value).OnePiece size) → ∀ c : σ,
      get (readText slots size (entriesText entries) c)
        = entries.foldl (fun old e => e.textAt slots key.name old) (get c)
  | [], _, _, _ => rfl
  | e :: es, hes, hone, c => by
      have ih := text_readText h ht hsize (fun x hx => hes x (List.mem_cons_of_mem _ hx))
        (fun value hx => hone value (List.mem_cons_of_mem _ hx)) (readText slots size e.line c)
      have hfirst : ∀ value, e = .text key value → e.OnePiece size := by
        rintro value rfl
        exact hone value (by simp)
      rw [readText_entriesText] at ih ⊢
      rw [List.foldl_cons, ih, List.foldl_cons, text_readEntry h ht (hes e (by simp)) hfirst hsize]

end Texts

/-! ## 7. Any text -/

section Any

variable {key : Key} {get : σ → List Char} {set : σ → List Char → σ}

/-- The string a piece assigns to the text slot of a key: what is scanned,
if the piece is that slot's. -/
def assignedBy (slots : List (Slot σ)) (key : Key) (piece : List Char) : Option (List Char) :=
  if (select slots (cstr piece)).map (fun s => s.key.name) = some key.name then
    scannedText (cstr piece) (textFormat key.name)
  else none

/-- The strings the pieces of a text assign to it, in order. -/
def assigned (slots : List (Slot σ)) (key : Key) (size : Nat) (text : List Char) :
    List (List Char) :=
  (fgetsLines size text).filterMap (assignedBy slots key)

theorem nulFree_assignedBy {piece v : List Char} (h : assignedBy slots key piece = some v) :
    NulFree v := by
  unfold assignedBy at h
  split at h
  · obtain ⟨ws, ws', rest, -, -, -, htext⟩ := inv_scannedText key.isKey h
    refine (nulFree_cstr piece).of_subset fun ch hc => ?_
    rw [htext]
    simp [hc]
  · simp at h

theorem nulFree_of_mem_assigned {size : Nat} {text v : List Char}
    (h : v ∈ assigned slots key size text) : NulFree v := by
  obtain ⟨piece, -, hv⟩ := List.mem_filterMap.mp h
  exact nulFree_assignedBy hv

theorem get_readLine (h : Lawful slots) (ht : Slot.text key get set ∈ slots) (piece : List Char)
    (c : σ) : get (readLine slots c (cstr piece))
      = ((assignedBy slots key piece).map (store (get c))).getD (get c) := by
  rw [assignedBy]
  by_cases hsel : select slots (cstr piece) = some (.text key get set)
  · have hkey : (some (Slot.text key get set)).map (fun s => s.key.name) = some key.name := rfl
    rw [readLine_of_select hsel, hsel, if_pos hkey]
    simp only [Slot.scan]
    cases scannedText (cstr piece) (textFormat key.name) with
    | none => rfl
    | some v => exact h.reads _ ht c _
  · have hview := Sum.inl.inj (view_readLine h ht hsel c)
    have hkey : ¬ (select slots (cstr piece)).map (fun s => s.key.name) = some key.name := by
      intro hmap
      obtain ⟨t, htsel, hkey⟩ := Option.map_eq_some_iff.mp hmap
      have hslot := h.eq_of_key (List.mem_of_find?_eq_some htsel) ht hkey
      exact hsel (htsel.trans (congrArg some hslot))
    rw [if_neg hkey]
    exact hview

/-- Whatever the text, a text slot has the strings that are assigned to it
stored over each other. -/
theorem get_readText (h : Lawful slots) (ht : Slot.text key get set ∈ slots) (size : Nat)
    (text : List Char) (c : σ) : get (readText slots size text c)
      = (assigned slots key size text).foldl store (get c) := by
  rw [readText, assigned]
  induction fgetsLines size text generalizing c with
  | nil => rfl
  | cons piece pieces ih =>
    rw [List.foldl_cons, ih, get_readLine h ht, List.filterMap_cons]
    cases assignedBy slots key piece with
    | none => rfl
    | some v => rfl

theorem cstr_foldl_store : ∀ {vs : List (List Char)}, (∀ v ∈ vs, NulFree v) →
    ∀ array : List Char, cstr (vs.foldl store array) = vs.getLast?.getD (cstr array)
  | [], _, _ => rfl
  | v :: vs, h, array => by
      rw [List.foldl_cons, cstr_foldl_store (fun u hu => h u (List.mem_cons_of_mem v hu)),
        cstr_store (h v List.mem_cons_self), List.getLast?_cons, Option.getD_some]

/-- It ends up with the last of them, and keeps its own string if there is
none. -/
theorem cstr_readText (h : Lawful slots) (ht : Slot.text key get set ∈ slots) (size : Nat)
    (text : List Char) (c : σ) : cstr (get (readText slots size text c))
      = ((assigned slots key size text).getLast?).getD (cstr (get c)) := by
  rw [get_readText h ht]
  exact cstr_foldl_store (fun _ => nulFree_of_mem_assigned) _

end Any

end Reader

end DockerClone.Metadata
