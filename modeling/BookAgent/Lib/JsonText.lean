import BookAgent.Lib.Text

/-!
# JSON texts

A reader of JSON texts as the standard defines them: strings with every escape, numbers,
literals, arrays and objects, white space anywhere between them. The rules below say what
a string, an object and an array read as once their parts are known.
-/

namespace BookAgent.Lib

/-- A JSON value; a number is its text, an object keeps its members in order. -/
inductive JsonValue
  | null
  | bool (b : Bool)
  | number (text : String)
  | string (s : String)
  | array (elements : List JsonValue)
  | object (members : List (String × JsonValue))

/-! ## Strings -/

/-- Four hexadecimal digits. -/
def readHex4 : List Char → Option (Nat × List Char)
  | a :: b :: c :: d :: rest => do
    let a ← hexDigit? a
    let b ← hexDigit? b
    let c ← hexDigit? c
    let d ← hexDigit? d
    return (((a * 16 + b) * 16 + c) * 16 + d, rest)
  | _ => none

/-- The character of a `\u` escape, which may be written as a pair of surrogates. -/
def readUnicode (cs : List Char) : Option (Char × List Char) := do
  let (n, rest) ← readHex4 cs
  if n < 0xd800 ∨ 0xdfff < n then
    return (Char.ofNat n, rest)
  else if 0xdbff < n then
    none
  else
    match rest with
    | '\\' :: 'u' :: rest => do
      let (m, rest) ← readHex4 rest
      if 0xdc00 ≤ m ∧ m ≤ 0xdfff then
        return (Char.ofNat (0x10000 + (n - 0xd800) * 0x400 + (m - 0xdc00)), rest)
      else none
    | _ => none

/-- The character of an escape, after its backslash. -/
def readEscape : List Char → Option (Char × List Char)
  | '"' :: rest => some ('"', rest)
  | '\\' :: rest => some ('\\', rest)
  | '/' :: rest => some ('/', rest)
  | 'b' :: rest => some ('\x08', rest)
  | 'f' :: rest => some ('\x0c', rest)
  | 'n' :: rest => some ('\n', rest)
  | 'r' :: rest => some ('\r', rest)
  | 't' :: rest => some ('\t', rest)
  | 'u' :: rest => readUnicode rest
  | _ => none

/-- The first `n` characters of a string, up to its closing quote. -/
def readCharacters : Nat → List Char → Option (List Char × List Char)
  | 0, _ => none
  | _ + 1, [] => none
  | n + 1, c :: cs =>
    if c = '"' then some ([], cs)
    else if c = '\\' then do
      let (c, rest) ← readEscape cs
      let (text, rest) ← readCharacters n rest
      return (c :: text, rest)
    else if c.toNat < 0x20 then none
    else do
      let (text, rest) ← readCharacters n cs
      return (c :: text, rest)

/-- A string, after its opening quote. -/
def readString (cs : List Char) : Option (String × List Char) := do
  let (text, rest) ← readCharacters (cs.length + 1) cs
  return (String.ofList text, rest)

/-! ## Numbers -/

def isNumberChar (c : Char) : Bool :=
  c.isDigit || c = '-' || c = '+' || c = '.' || c = 'e' || c = 'E'

def isExponent : List Char → Bool
  | [] => true
  | c :: cs =>
    let digits := if cs.head? = some '+' ∨ cs.head? = some '-' then cs.tail else cs
    (c = 'e' || c = 'E') && !digits.isEmpty && digits.all Char.isDigit

def isFraction : List Char → Bool
  | '.' :: cs =>
    !(cs.takeWhile Char.isDigit).isEmpty && isExponent (cs.dropWhile Char.isDigit)
  | cs => isExponent cs

/-- The text is a number: no leading zeros, a fraction and an exponent may follow. -/
def isNumber (cs : List Char) : Bool :=
  let cs := if cs.head? = some '-' then cs.tail else cs
  let whole := cs.takeWhile Char.isDigit
  !whole.isEmpty && (whole = ['0'] || whole.head? ≠ some '0') &&
    isFraction (cs.dropWhile Char.isDigit)

/-! ## Values -/

def isSpace (c : Char) : Bool := c = ' ' || c = '\t' || c = '\n' || c = '\r'

def skipSpace (cs : List Char) : List Char := cs.dropWhile isSpace

mutual

/-- A value with at most `n` levels and members ahead of it. -/
def readValue : Nat → List Char → Option (JsonValue × List Char)
  | 0, _ => none
  | n + 1, cs =>
    match skipSpace cs with
    | '"' :: cs => do
      let (s, rest) ← readString cs
      return (.string s, rest)
    | '[' :: cs =>
      match skipSpace cs with
      | ']' :: rest => some (.array [], rest)
      | _ => do
        let (elements, rest) ← readElements n cs
        return (.array elements, rest)
    | '\x7b' :: cs =>
      match skipSpace cs with
      | '\x7d' :: rest => some (.object [], rest)
      | _ => do
        let (members, rest) ← readMembers n cs
        return (.object members, rest)
    | 'n' :: 'u' :: 'l' :: 'l' :: rest => some (.null, rest)
    | 't' :: 'r' :: 'u' :: 'e' :: rest => some (.bool true, rest)
    | 'f' :: 'a' :: 'l' :: 's' :: 'e' :: rest => some (.bool false, rest)
    | cs =>
      let text := cs.takeWhile isNumberChar
      if isNumber text then some (.number (String.ofList text), cs.dropWhile isNumberChar)
      else none

/-- The elements of an array, up to its closing bracket. -/
def readElements : Nat → List Char → Option (List JsonValue × List Char)
  | 0, _ => none
  | n + 1, cs => do
    let (v, rest) ← readValue n cs
    match skipSpace rest with
    | ',' :: rest => do
      let (vs, rest) ← readElements n rest
      return (v :: vs, rest)
    | ']' :: rest => some ([v], rest)
    | _ => none

/-- The members of an object, up to its closing brace. -/
def readMembers : Nat → List Char → Option (List (String × JsonValue) × List Char)
  | 0, _ => none
  | n + 1, cs =>
    match skipSpace cs with
    | '"' :: cs => do
      let (key, rest) ← readString cs
      match skipSpace rest with
      | ':' :: rest => do
        let (v, rest) ← readValue n rest
        match skipSpace rest with
        | ',' :: rest => do
          let (members, rest) ← readMembers n rest
          return ((key, v) :: members, rest)
        | '\x7d' :: rest => some ([(key, v)], rest)
        | _ => none
      | _ => none
    | _ => none

end

/-- The value of a text, with nothing but white space after it. -/
def readJson (text : String) : Option JsonValue := do
  let (v, rest) ← readValue (text.toList.length + 1) text.toList
  if skipSpace rest = [] then return v else none

/-! ## Escaped strings -/

/-- A way to write characters in a string so that each is read back. -/
structure Escaping (escape : Char → List Char) : Prop where
  nonempty : ∀ c, escape c ≠ []
  read : ∀ c n rest, readCharacters (n + 1) (escape c ++ rest)
    = (readCharacters n rest).map fun r => (c :: r.1, r.2)

/-- A character that stands for itself. -/
theorem readCharacters_plain {c : Char} (hquote : c ≠ '"') (hslash : c ≠ '\\')
    (hcontrol : ¬ c.toNat < 0x20) (n : Nat) (rest : List Char) :
    readCharacters (n + 1) (c :: rest) =
      (readCharacters n rest).map fun r => (c :: r.1, r.2) := by
  rw [readCharacters, if_neg hquote, if_neg hslash, if_neg hcontrol]
  cases readCharacters n rest <;> rfl

/-- A character that is written with a backslash. -/
theorem readCharacters_escape {c : Char} {cs rest : List Char}
    (h : readEscape cs = some (c, rest)) (n : Nat) :
    readCharacters (n + 1) ('\\' :: cs) =
      (readCharacters n rest).map fun r => (c :: r.1, r.2) := by
  rw [readCharacters, if_neg (by decide), if_pos rfl, h, Option.bind_eq_bind, Option.bind_some]
  dsimp only
  cases readCharacters n rest <;> rfl

variable {escape : Char → List Char}

theorem readCharacters_flatMap (he : Escaping escape) (cs rest : List Char) {n : Nat}
    (hn : cs.length < n) : readCharacters n (cs.flatMap escape ++ '"' :: rest) = some (cs, rest) := by
  induction cs generalizing n with
  | nil =>
    obtain ⟨n, rfl⟩ : ∃ k, n = k + 1 := ⟨n - 1, by rw [List.length_nil] at hn; omega⟩
    exact if_pos rfl
  | cons c cs ih =>
    rw [List.length_cons] at hn
    obtain ⟨n, rfl⟩ : ∃ k, n = k + 1 := ⟨n - 1, by omega⟩
    rw [List.flatMap_cons, List.append_assoc, he.read, ih (by omega)]
    rfl

theorem length_le_length_flatMap (he : Escaping escape) (cs : List Char) :
    cs.length ≤ (cs.flatMap escape).length := by
  induction cs with
  | nil => exact le_refl 0
  | cons c cs ih =>
    have hc := List.length_pos_iff.mpr (he.nonempty c)
    rw [List.flatMap_cons, List.length_append, List.length_cons]
    omega

/-- A string in quotes. -/
def quoted (escape : Char → List Char) (s : String) : List Char :=
  '"' :: (s.toList.flatMap escape ++ ['"'])

theorem readString_escaped (he : Escaping escape) (s : String) (rest : List Char) :
    readString (s.toList.flatMap escape ++ '"' :: rest) = some (s, rest) := by
  have fuel : s.toList.length < (s.toList.flatMap escape ++ '"' :: rest).length + 1 := by
    have := length_le_length_flatMap he s.toList
    rw [List.length_append]
    omega
  rw [readString, readCharacters_flatMap he s.toList rest fuel]
  simp only [Option.bind_eq_bind, Option.bind_some, String.ofList_toList]
  rfl

/-! ## Texts of values -/

/-- Read as a value, the text is `v`, whatever follows it. -/
def ReadsAs (text : List Char) (v : JsonValue) : Prop :=
  ∀ n rest, text.length ≤ n → readValue (n + 1) (text ++ rest) = some (v, rest)

theorem readJson_of_reads {text : String} {v : JsonValue} (h : ReadsAs text.toList v) :
    readJson text = some v := by
  have hread := h text.toList.length [] le_rfl
  rw [List.append_nil] at hread
  rw [readJson, hread, Option.bind_eq_bind, Option.bind_some]
  exact if_pos rfl

/-- A character that is no space is where reading goes on. -/
theorem skipSpace_cons {c : Char} (h : isSpace c = false) (cs : List Char) :
    skipSpace (c :: cs) = c :: cs :=
  List.dropWhile_cons_of_neg (by rw [h]; decide)

theorem quoted_append (s : String) (rest : List Char) : quoted escape s ++ rest
    = '"' :: (s.toList.flatMap escape ++ '"' :: rest) := by
  rw [quoted, List.cons_append, List.append_assoc]
  rfl

theorem reads_string (he : Escaping escape) (s : String) :
    ReadsAs (quoted escape s) (.string s) := by
  intro n rest _
  rw [quoted_append, readValue, skipSpace_cons (by decide)]
  simp only [readString_escaped he]
  rfl

/-! ## Objects -/

/-- Texts with commas between them. -/
def commas : List (List Char) → List Char
  | [] => []
  | t :: ts => t ++ ts.flatMap (',' :: ·)

theorem commas_cons_cons (t u : List Char) (ts : List (List Char)) :
    commas (t :: u :: ts) = t ++ ',' :: commas (u :: ts) := by
  rw [commas, commas, List.flatMap_cons, List.cons_append]

/-- The text of a member reads as it. -/
def ReadsMember (text : List Char) (m : String × JsonValue) : Prop :=
  ∃ escape, Escaping escape ∧ ∃ value, ReadsAs value m.2 ∧
    text = quoted escape m.1 ++ ':' :: value

/-- The first member, and what follows its value. -/
theorem readMembers_member {text : List Char} {m : String × JsonValue} (h : ReadsMember text m)
    {n : Nat} (hn : text.length ≤ n) (rest : List Char) :
    readMembers (n + 1) (text ++ rest) = (match skipSpace rest with
      | ',' :: rest => do
        let (members, rest) ← readMembers n rest
        return (m :: members, rest)
      | '\x7d' :: rest => some ([m], rest)
      | _ => none : Option (List (String × JsonValue) × List Char)) := by
  obtain ⟨escape, he, value, hv, rfl⟩ := h
  have hvalue : value.length + 2 ≤ n := by
    rw [List.length_append, List.length_cons, quoted, List.length_cons] at hn
    omega
  obtain ⟨k, rfl⟩ : ∃ k, n = k + 1 := ⟨n - 1, by omega⟩
  have colon (cs : List Char) : skipSpace (':' :: cs) = ':' :: cs := skipSpace_cons (by decide) cs
  rw [List.append_assoc, quoted_append, readMembers, skipSpace_cons (by decide)]
  simp only [readString_escaped he, Option.bind_eq_bind, Option.bind_some, List.cons_append, colon,
    hv k rest (by omega)]

/-- The members of an object. -/
theorem readMembers_commas {ts : List (List Char × (String × JsonValue))}
    (h : ∀ t ∈ ts, ReadsMember t.1 t.2) (hne : ts ≠ []) (rest : List Char) {n : Nat}
    (hn : (commas (ts.map Prod.fst)).length + 2 ≤ n) :
    readMembers n (commas (ts.map Prod.fst) ++ '\x7d' :: rest) = some (ts.map Prod.snd, rest) := by
  induction ts generalizing n with
  | nil => exact absurd rfl hne
  | cons t ts ih =>
    obtain ⟨ht, hts⟩ := List.forall_mem_cons.mp h
    obtain ⟨n, rfl⟩ : ∃ k, n = k + 1 := ⟨n - 1, by omega⟩
    cases ts with
    | nil =>
      have text : commas ([t].map Prod.fst) = t.1 := List.append_nil _
      rw [text] at hn ⊢
      rw [readMembers_member ht (by omega), skipSpace_cons (by decide)]
      rfl
    | cons u ts =>
      rw [List.map_cons, List.map_cons, commas_cons_cons, ← List.map_cons] at hn ⊢
      rw [List.length_append, List.length_cons] at hn
      have hrest := ih hts (List.cons_ne_nil _ _) (n := n) (by omega)
      rw [List.append_assoc, readMembers_member ht (by omega), List.cons_append,
        skipSpace_cons (by decide)]
      simp only [hrest]
      rfl

theorem reads_object {ts : List (List Char × (String × JsonValue))}
    (h : ∀ t ∈ ts, ReadsMember t.1 t.2) (hne : ts ≠ []) :
    ReadsAs ('\x7b' :: (commas (ts.map Prod.fst) ++ ['\x7d'])) (.object (ts.map Prod.snd)) := by
  intro n rest hn
  rw [List.length_cons, List.length_append, List.length_singleton] at hn
  obtain ⟨cs, hquote⟩ : ∃ cs, commas (ts.map Prod.fst) = '"' :: cs := by
    obtain ⟨t, ts, rfl⟩ := List.exists_cons_of_ne_nil hne
    obtain ⟨escape, -, value, -, htext⟩ := h t List.mem_cons_self
    rw [List.map_cons, commas, htext]
    exact ⟨_, rfl⟩
  have hread := readMembers_commas h hne rest (n := n) (by omega)
  rw [hquote, List.cons_append] at hread
  rw [List.cons_append, List.append_assoc, hquote, readValue, skipSpace_cons (by decide)]
  simp only [List.cons_append, List.nil_append, skipSpace_cons (by decide : isSpace '"' = false),
    hread]
  rfl

/-! ## Arrays -/

/-- No element begins with a closing bracket. -/
theorem readElements_bracket {cs rest : List Char} (h : skipSpace cs = ']' :: rest) (n : Nat) :
    readElements n cs = none := by
  cases n with
  | zero => rfl
  | succ n =>
    have value : readValue n cs = none := by
      cases n with
      | zero => rfl
      | succ n =>
        rw [readValue, h]
        rfl
    rw [readElements, value]
    rfl

/-- The elements of an array. -/
theorem readElements_commas {ts : List (List Char × JsonValue)}
    (h : ∀ t ∈ ts, ReadsAs t.1 t.2) (hne : ts ≠ []) (rest : List Char) {n : Nat}
    (hn : (commas (ts.map Prod.fst)).length + 2 ≤ n) :
    readElements n (commas (ts.map Prod.fst) ++ ']' :: rest) = some (ts.map Prod.snd, rest) := by
  induction ts generalizing n with
  | nil => exact absurd rfl hne
  | cons t ts ih =>
    obtain ⟨ht, hts⟩ := List.forall_mem_cons.mp h
    obtain ⟨n, rfl⟩ : ∃ k, n = k + 2 := ⟨n - 2, by omega⟩
    cases ts with
    | nil =>
      have text : commas ([t].map Prod.fst) = t.1 := List.append_nil _
      rw [text] at hn ⊢
      rw [readElements, ht n _ (by omega), Option.bind_eq_bind, Option.bind_some]
      simp only [skipSpace_cons (by decide : isSpace ']' = false)]
      rfl
    | cons u ts =>
      rw [List.map_cons, List.map_cons, commas_cons_cons, ← List.map_cons] at hn ⊢
      rw [List.length_append, List.length_cons] at hn
      have hrest := ih hts (List.cons_ne_nil _ _) (n := n + 1) (by omega)
      rw [List.append_assoc, readElements, ht n _ (by omega), Option.bind_eq_bind,
        Option.bind_some, List.cons_append]
      simp only [skipSpace_cons (by decide : isSpace ',' = false), hrest]
      rfl

theorem reads_array {ts : List (List Char × JsonValue)} (h : ∀ t ∈ ts, ReadsAs t.1 t.2) :
    ReadsAs ('[' :: (commas (ts.map Prod.fst) ++ [']'])) (.array (ts.map Prod.snd)) := by
  intro n rest hn
  rw [List.length_cons, List.length_append, List.length_singleton] at hn
  rw [List.cons_append, List.append_assoc, List.singleton_append, readValue,
    skipSpace_cons (by decide)]
  cases ts with
  | nil => rfl
  | cons t ts =>
    have hread := readElements_commas h (List.cons_ne_nil _ _) rest (n := n) (by omega)
    simp only []
    split
    · next _ rest' hskip =>
      rw [readElements_bracket hskip] at hread
      cases hread
    · rw [hread]
      rfl

end BookAgent.Lib
