import Mathlib.Data.List.Induction
import BookAgent.Lib.Lines

/-!
# Environment files

A text of `key=value` lines between blank lines and comments. A value is read from the first line of its
key, without the blanks and the quotes around it; a key is set in the first line that begins with it, or
in a new line. What is white space is a parameter.
-/

namespace BookAgent.Lib

/-! ## Lines of a text -/

/-- Without a carriage return at the end. -/
def stripCr (line : List Char) : List Char :=
  if line.getLast? = some '\r' then line.dropLast else line

/-- `str::lines`: what stands after the last newline is a line if there is something. -/
def textLines (text : List Char) : List (List Char) :=
  let pieces := text.splitOn '\n'
  pieces.dropLast.map stripCr ++ (pieces.getLast?.filter fun last => decide (last ≠ [])).toList

/-- The lines joined by newlines, with one at the end. -/
def renderLines (lines : List (List Char)) : List Char := ['\n'].intercalate lines ++ ['\n']

theorem stripCr_front (line : List Char) : stripCr line <+: line := by
  unfold stripCr
  split
  · exact List.dropLast_prefix line
  · exact List.prefix_refl line

theorem notMem_splitOn {c : Char} {text piece : List Char} (h : piece ∈ text.splitOn c) : c ∉ piece := by
  induction text generalizing piece with
  | nil =>
    rw [List.splitOn_nil, List.mem_singleton] at h
    simp [h]
  | cons d text ih =>
    rw [List.splitOn_cons_eq_if_modifyHead] at h
    split at h
    · rcases List.mem_cons.mp h with rfl | h
      · simp
      · exact ih h
    · rename_i hne
      obtain ⟨first, rest, heq⟩ := List.exists_cons_of_ne_nil (List.splitOn_ne_nil c text)
      rw [heq, List.modifyHead_cons] at h
      rcases List.mem_cons.mp h with rfl | h
      · have hfirst : c ∉ first := ih (by rw [heq]; exact List.mem_cons_self)
        simp only [List.mem_cons, not_or]
        exact ⟨fun hc => hne (by simp [hc]), hfirst⟩
      · exact ih (by rw [heq]; exact List.mem_cons_of_mem _ h)

theorem notMem_textLines {text line : List Char} (h : line ∈ textLines text) : '\n' ∉ line := by
  rcases List.mem_append.mp h with h | h
  · obtain ⟨piece, hpiece, rfl⟩ := List.mem_map.mp h
    intro hc
    exact notMem_splitOn ((List.dropLast_subset _ hpiece)) ((stripCr_front piece).subset hc)
  · obtain ⟨hlast, -⟩ := Option.filter_eq_some_iff.mp (Option.mem_toList.mp h)
    exact notMem_splitOn (List.mem_of_getLast? hlast)

theorem intercalate_concat_nil {sep : List Char} {lines : List (List Char)} (hne : lines ≠ []) :
    sep.intercalate lines ++ sep = sep.intercalate (lines ++ [[]]) := by
  induction lines with
  | nil => exact absurd rfl hne
  | cons line lines ih =>
    cases lines with
    | nil => simp [List.intercalate_cons_cons]
    | cons next lines =>
      have hrest := ih (by simp)
      simp only [List.cons_append, List.intercalate_cons_cons, List.append_assoc] at hrest ⊢
      rw [hrest]

/-- Lines are read back, but for carriage returns at their ends. -/
theorem textLines_renderLines {lines : List (List Char)} (h : ∀ line ∈ lines, '\n' ∉ line)
    (hne : lines ≠ []) : textLines (renderLines lines) = lines.map stripCr := by
  have hsplit : (renderLines lines).splitOn '\n' = lines ++ [[]] := by
    rw [renderLines, intercalate_concat_nil hne]
    refine List.splitOn_intercalate '\n' (fun line hline => ?_) (by simp)
    rcases List.mem_append.mp hline with hline | hline
    · exact h line hline
    · simp [List.mem_singleton.mp hline]
  unfold textLines
  simp [hsplit]

/-! ## Trimming -/

/-- Without the white space at both ends. -/
def trimBlank (ws : Char → Bool) (cs : List Char) : List Char :=
  ((cs.dropWhile ws).reverse.dropWhile ws).reverse

section Trim

variable {ws : Char → Bool} {cs : List Char}

/-- Nothing goes from the front where no white space is. -/
theorem dropWhile_eq_self {c : Char} (hc : ws c = false) : (c :: cs).dropWhile ws = c :: cs := by
  simp [hc]

theorem trimBlank_append_blank {c : Char} (hc : ws c = true) :
    trimBlank ws (cs ++ [c]) = trimBlank ws cs := by
  unfold trimBlank
  rw [List.dropWhile_append]
  split
  · rename_i hblank
    rw [List.isEmpty_iff.mp hblank]
    simp [hc]
  · simp [hc]

theorem trimBlank_stripCr (hcr : ws '\r' = true) : trimBlank ws (stripCr cs) = trimBlank ws cs := by
  unfold stripCr
  split
  · rename_i hlast
    have hne : cs ≠ [] := fun hnil => by simp [hnil] at hlast
    have heq : cs.dropLast ++ ['\r'] = cs := by
      rw [List.getLast?_eq_getLast_of_ne_nil hne] at hlast
      rw [← Option.some.inj hlast, List.dropLast_append_getLast hne]
    rw [← trimBlank_append_blank hcr, heq]
  · rfl

theorem dropWhile_reverse_append {front back : List Char} {c : Char} (hc : ws c = false) :
    ((front ++ c :: back).reverse.dropWhile ws).reverse =
      front ++ c :: (back.reverse.dropWhile ws).reverse := by
  rw [List.reverse_append, List.reverse_cons, List.append_assoc, List.dropWhile_append]
  split
  · rename_i hblank
    rw [List.isEmpty_iff.mp hblank]
    simp [hc]
  · simp

/-- A text with a character in it that stays and no white space in front loses its end only. -/
theorem trimBlank_append {front back : List Char} {c : Char} (hc : ws c = false)
    (hfront : front.dropWhile ws = front) :
    trimBlank ws (front ++ c :: back) = front ++ c :: (back.reverse.dropWhile ws).reverse := by
  have hdrop : (front ++ c :: back).dropWhile ws = front ++ c :: back := by
    cases front with
    | nil => exact dropWhile_eq_self hc
    | cons d front =>
      have hd : ws d = false := by
        by_contra hblank
        rw [List.dropWhile_cons, if_pos (by simpa using hblank)] at hfront
        have hlength := congrArg List.length hfront
        have hle := (List.dropWhile_suffix (l := front) ws).length_le
        simp only [List.length_cons] at hlength
        omega
      exact dropWhile_eq_self hd
  rw [trimBlank, hdrop, dropWhile_reverse_append hc]

theorem trimBlank_end : trimBlank ws (cs.reverse.dropWhile ws).reverse = trimBlank ws cs := by
  induction cs using List.reverseRecOn with
  | nil => rfl
  | append_singleton cs c ih =>
    by_cases hc : ws c = true
    · rw [trimBlank_append_blank hc, ← ih]
      simp [hc]
    · simp [hc]

/-- Nothing is left to trim in front. -/
theorem dropWhile_trimBlank : (trimBlank ws cs).dropWhile ws = trimBlank ws cs := by
  unfold trimBlank
  generalize hfront : cs.dropWhile ws = rest
  cases rest with
  | nil => rfl
  | cons c rest =>
    have hc : ws c = false := by
      have hhead := List.head_dropWhile_not ws (l := cs) (by simp [hfront])
      simpa [hfront] using hhead
    have hends := @dropWhile_reverse_append ws [] rest c hc
    simp only [List.nil_append] at hends
    rw [hends, dropWhile_eq_self hc]

theorem trimBlank_subset {c : Char} (h : c ∈ trimBlank ws cs) : c ∈ cs := by
  have hback := (List.dropWhile_subset ws) (List.mem_reverse.mp h)
  exact (List.dropWhile_subset ws) (List.mem_reverse.mp hback)

/-- A text without white space is trimmed. -/
theorem trimBlank_eq_self (h : ∀ c ∈ cs, ws c = false) : trimBlank ws cs = cs := by
  have hnone : ∀ l : List Char, (∀ c ∈ l, ws c = false) → l.dropWhile ws = l := by
    intro l hl
    cases l with
    | nil => rfl
    | cons c l => exact dropWhile_eq_self (hl c List.mem_cons_self)
  unfold trimBlank
  rw [hnone cs h, hnone cs.reverse fun c hc => h c (List.mem_reverse.mp hc), List.reverse_reverse]

end Trim

/-! ## Values -/

/-- Without a pair of quotes around it. -/
def unquote (value : List Char) : List Char :=
  let inside (q : Char) : Option (List Char) :=
    if value.head? = some q ∧ 2 ≤ value.length ∧ value.getLast? = some q then some value.tail.dropLast
    else none
  ((inside '"').or (inside '\'')).getD value

def stripPrefix? (pre cs : List Char) : Option (List Char) :=
  if pre <+: cs then some (cs.drop pre.length) else none

/-- The value that a line gives to a key. -/
def readLine (ws : Char → Bool) (key line : List Char) : Option (List Char) :=
  let line := trimBlank ws line
  if line = [] ∨ line.head? = some '#' then none
  else (stripPrefix? (key ++ ['=']) line).map fun value => unquote (trimBlank ws value)

def readLines (ws : Char → Bool) (key : List Char) (lines : List (List Char)) : Option (List Char) :=
  lines.findSome? (readLine ws key)

def envLine (key value : List Char) : List Char := key ++ '=' :: value

/-- Set the key in the first line that begins with it, or in a new one. -/
def upsertLines (key value : List Char) : List (List Char) → List (List Char)
  | [] => [envLine key value]
  | line :: lines =>
    if key ++ ['='] <+: line then envLine key value :: lines else line :: upsertLines key value lines

theorem stripPrefix?_eq_some {pre cs rest : List Char} :
    stripPrefix? pre cs = some rest ↔ cs = pre ++ rest := by
  unfold stripPrefix?
  split
  · rename_i hpre
    obtain ⟨tail, rfl⟩ := hpre
    simp [eq_comm]
  · rename_i hpre
    simp only [reduceCtorEq, false_iff]
    rintro rfl
    exact hpre (List.prefix_append pre rest)

/-- A key that is read: it is not empty, has no `=`, no newline and no blank in front, and does not make
its line a comment. -/
structure ReadKey (ws : Char → Bool) (key : List Char) : Prop where
  nonempty : key ≠ []
  noEquals : '=' ∉ key
  oneLine : '\n' ∉ key
  front : key.dropWhile ws = key
  noComment : key.head? ≠ some '#'

/-- A key that is set: it has no `=` and no blank in front. -/
structure SetKey (ws : Char → Bool) (key : List Char) : Prop where
  noEquals : '=' ∉ key
  front : key.dropWhile ws = key

theorem ReadKey.set {ws : Char → Bool} {key : List Char} (h : ReadKey ws key) : SetKey ws key :=
  ⟨h.noEquals, h.front⟩

section Read

variable {ws : Char → Bool} {key other value line : List Char} {lines : List (List Char)}

theorem readLine_eq_some {v : List Char} (h : readLine ws key line = some v) :
    ∃ rest, trimBlank ws line = key ++ '=' :: rest ∧ v = unquote (trimBlank ws rest) := by
  unfold readLine at h
  dsimp only at h
  split at h
  · cases h
  · obtain ⟨rest, hrest, rfl⟩ := Option.map_eq_some_iff.mp h
    refine ⟨rest, ?_, rfl⟩
    simpa using stripPrefix?_eq_some.mp hrest

theorem readLine_stripCr (hcr : ws '\r' = true) : readLine ws key (stripCr line) = readLine ws key line := by
  unfold readLine
  rw [trimBlank_stripCr hcr]

/-- A line that sets a key gives no value to another. -/
theorem readLine_other (heq : ws '=' = false) (hkey : SetKey ws key) (hother : '=' ∉ other)
    (hne : other ≠ key) (hline : key ++ ['='] <+: line) : readLine ws other line = none := by
  by_contra hsome
  obtain ⟨v, hv⟩ := Option.ne_none_iff_exists'.mp hsome
  obtain ⟨rest, htrim, -⟩ := readLine_eq_some hv
  obtain ⟨tail, rfl⟩ := hline
  rw [List.append_assoc, List.singleton_append, trimBlank_append heq hkey.front] at htrim
  exact hne (append_delimiter_inj hkey.noEquals hother htrim).1.symm

theorem readLine_envLine (heq : ws '=' = false) (hkey : ReadKey ws key) :
    readLine ws key (envLine key value) = some (unquote (trimBlank ws value)) := by
  have htrim : trimBlank ws (key ++ '=' :: value) = key ++ '=' :: (value.reverse.dropWhile ws).reverse :=
    trimBlank_append heq hkey.front
  have hhead : (key ++ '=' :: (value.reverse.dropWhile ws).reverse).head? = key.head? := by
    obtain ⟨c, key', rfl⟩ := List.exists_cons_of_ne_nil hkey.nonempty
    rfl
  unfold readLine envLine
  dsimp only
  rw [htrim, if_neg (by rw [hhead]; simp [hkey.noComment])]
  have hstrip : stripPrefix? (key ++ ['=']) (key ++ '=' :: (value.reverse.dropWhile ws).reverse) =
      some (value.reverse.dropWhile ws).reverse := stripPrefix?_eq_some.mpr (by simp)
  rw [hstrip, Option.map_some, trimBlank_end]

/-- **Other keys read as before.** -/
theorem readLines_upsert_other (heq : ws '=' = false) (hkey : SetKey ws key) (hother : '=' ∉ other)
    (hne : other ≠ key) : readLines ws other (upsertLines key value lines) = readLines ws other lines := by
  have hset : readLine ws other (envLine key value) = none :=
    readLine_other heq hkey hother hne ⟨value, by simp [envLine]⟩
  induction lines with
  | nil => simp [upsertLines, readLines, hset]
  | cons line lines ih =>
    unfold upsertLines
    split
    · rename_i hline
      simp [readLines, hset, readLine_other heq hkey hother hne hline]
    · simp only [readLines, List.findSome?_cons] at ih ⊢
      rw [ih]

/-- Every line that gives the key a value begins with the key. -/
def Flush (ws : Char → Bool) (key : List Char) (lines : List (List Char)) : Prop :=
  ∀ line ∈ lines, (readLine ws key line).isSome = true → key ++ ['='] <+: line

/-- **A key that is set is read back.** -/
theorem readLines_upsert (heq : ws '=' = false) (hkey : ReadKey ws key) (hflush : Flush ws key lines) :
    readLines ws key (upsertLines key value lines) = some (unquote (trimBlank ws value)) := by
  induction lines with
  | nil => simp [upsertLines, readLines, readLine_envLine heq hkey]
  | cons line lines ih =>
    unfold upsertLines
    split
    · simp [readLines, readLine_envLine heq hkey]
    · rename_i hline
      have hnone : readLine ws key line = none := by
        by_contra hsome
        exact hline (hflush line List.mem_cons_self (Option.isSome_iff_ne_none.mpr hsome))
      have hrest := ih fun l hl => hflush l (List.mem_cons_of_mem _ hl)
      simpa only [readLines, List.findSome?_cons, hnone] using hrest

theorem mem_upsertLines (h : line ∈ upsertLines key value lines) :
    line ∈ lines ∨ line = envLine key value := by
  induction lines with
  | nil => exact .inr (List.mem_singleton.mp h)
  | cons first lines ih =>
    unfold upsertLines at h
    split at h
    · rcases List.mem_cons.mp h with rfl | h
      · exact .inr rfl
      · exact .inl (List.mem_cons_of_mem _ h)
    · rcases List.mem_cons.mp h with rfl | h
      · exact .inl List.mem_cons_self
      · exact (ih h).imp (List.mem_cons_of_mem _) id

theorem Flush.upsert (heq : ws '=' = false) (hother : '=' ∉ other) (hkey : SetKey ws key)
    (h : Flush ws other lines) : Flush ws other (upsertLines key value lines) := by
  intro line hline hsome
  rcases mem_upsertLines hline with hline | rfl
  · exact h line hline hsome
  · by_cases hne : other = key
    · exact hne ▸ ⟨value, by simp [envLine]⟩
    · have hset : readLine ws other (envLine key value) = none :=
        readLine_other heq hkey hother hne ⟨value, by simp [envLine]⟩
      simp [hset] at hsome

end Read

/-! ## Texts -/

section Text

variable {ws : Char → Bool} {key other value : List Char} {text : List Char}

def readText (ws : Char → Bool) (key text : List Char) : Option (List Char) :=
  readLines ws key (textLines text)

def upsertText (key value text : List Char) : List Char :=
  renderLines (upsertLines key value (textLines text))

theorem textLines_upsertText (hkey : '\n' ∉ key) (hvalue : '\n' ∉ value) :
    textLines (upsertText key value text) = (upsertLines key value (textLines text)).map stripCr := by
  refine textLines_renderLines (fun line hline => ?_) ?_
  · rcases mem_upsertLines hline with hline | rfl
    · exact notMem_textLines hline
    · simp [envLine, hkey, hvalue]
  · cases textLines text with
    | nil => simp [upsertLines]
    | cons line lines =>
      unfold upsertLines
      split <;> simp

theorem readLines_map_stripCr (hcr : ws '\r' = true) {lines : List (List Char)} :
    readLines ws key (lines.map stripCr) = readLines ws key lines := by
  induction lines with
  | nil => rfl
  | cons line lines ih =>
    simp only [readLines, List.map_cons, List.findSome?_cons, readLine_stripCr hcr] at ih ⊢
    rw [ih]

/-- A line keeps its key in front without its carriage return. -/
theorem prefix_stripCr {line : List Char} (h : key ++ ['='] <+: line) : key ++ ['='] <+: stripCr line := by
  unfold stripCr
  split
  · rename_i hlast
    obtain ⟨tail, rfl⟩ := h
    cases tail with
    | nil => simp at hlast
    | cons c tail =>
      rw [List.dropLast_append_of_ne_nil (by simp)]
      exact List.prefix_append ..
  · exact h

theorem Flush.map_stripCr (hcr : ws '\r' = true) {lines : List (List Char)} (h : Flush ws key lines) :
    Flush ws key (lines.map stripCr) := by
  intro line hline hsome
  obtain ⟨original, horiginal, rfl⟩ := List.mem_map.mp hline
  rw [readLine_stripCr hcr] at hsome
  exact prefix_stripCr (h original horiginal hsome)

/-- **Setting a key leaves the others as they are.** -/
theorem readText_upsert_other (heq : ws '=' = false) (hcr : ws '\r' = true) (hkey : SetKey ws key)
    (hline : '\n' ∉ key) (hvalue : '\n' ∉ value) (hother : '=' ∉ other) (hne : other ≠ key) :
    readText ws other (upsertText key value text) = readText ws other text := by
  rw [readText, textLines_upsertText hline hvalue, readLines_map_stripCr hcr,
    readLines_upsert_other heq hkey hother hne]
  rfl

/-- **A key that is set is read back**, without blanks and quotes around it. -/
theorem readText_upsert (heq : ws '=' = false) (hcr : ws '\r' = true) (hkey : ReadKey ws key)
    (hvalue : '\n' ∉ value) (hflush : Flush ws key (textLines text)) :
    readText ws key (upsertText key value text) = some (unquote (trimBlank ws value)) := by
  rw [readText, textLines_upsertText hkey.oneLine hvalue, readLines_map_stripCr hcr,
    readLines_upsert heq hkey hflush]

theorem Flush.upsertText (heq : ws '=' = false) (hcr : ws '\r' = true) (hkey : SetKey ws key)
    (hline : '\n' ∉ key) (hvalue : '\n' ∉ value) (hother : '=' ∉ other)
    (h : Flush ws other (textLines text)) :
    Flush ws other (textLines (Lib.upsertText key value text)) := by
  rw [textLines_upsertText hline hvalue]
  exact (h.upsert heq hother hkey).map_stripCr hcr

end Text

end BookAgent.Lib
