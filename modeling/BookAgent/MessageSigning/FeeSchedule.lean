import BookAgent.Lib.JsonText
import BookAgent.Lib.StableSort
import Mathlib.Data.Prod.Lex
import Mathlib.Data.String.Basic

/-!
# The fee schedule

The JSON text of a fee schedule, which both sides sign. Its entries are sorted by all three
of their texts, so the text does not depend on the order of the fees; and it reads back as
the sorted entries.
-/

namespace BookAgent.MessageSigning

open BookAgent.Lib

/-! ## Serializer -/

/-- What the serializer asks of a type of fees. -/
class AsCanonicalFee (F : Type) where
  entryType : F → String
  description : F → String
  amountCc : F → String

/-- Entry type, description and amount. -/
abbrev FeeEntry := String × String × String

def feeEntry {F : Type} [AsCanonicalFee F] (f : F) : FeeEntry :=
  (AsCanonicalFee.entryType f, AsCanonicalFee.description f, AsCanonicalFee.amountCc f)

/-- Entries are compared text by text; texts are compared by code points, as their bytes are. -/
def FeeEntry.key (e : FeeEntry) : String ×ₗ (String ×ₗ String) :=
  toLex (e.1, toLex (e.2.1, e.2.2))

/-- Four hexadecimal digits (`{:04x}`). -/
def hex4 (n : Nat) : String :=
  String.ofList [hexChar (n / 4096 % 16), hexChar (n / 256 % 16), hexChar (n / 16 % 16),
    hexChar (n % 16)]

def jsonEscape (c : Char) : String :=
  if c = '"' then "\\\""
  else if c = '\\' then "\\\\"
  else if c = '\n' then "\\n"
  else if c = '\r' then "\\r"
  else if c = '\t' then "\\t"
  else if c.toNat < 0x20 then "\\u" ++ hex4 c.toNat
  else c.toString

def jsonEscapeInto (s out : String) : String :=
  s.toList.foldl (fun out c => out ++ jsonEscape c) out

/-- Append an entry, after a comma unless it is the first. -/
def pushFee (out : String) (e : FeeEntry × Nat) : String :=
  let out := if 0 < e.2 then out ++ "," else out
  let out := jsonEscapeInto e.1.1 (out ++ "\x7b\"type\":\"")
  let out := jsonEscapeInto e.1.2.1 (out ++ "\",\"desc\":\"")
  let out := jsonEscapeInto e.1.2.2 (out ++ "\",\"amount\":\"")
  out ++ "\"\x7d"

def serializeFeesCanonical {F : Type} [AsCanonicalFee F] (fees : List F) : String :=
  let entries := (fees.map feeEntry).insertionSort fun a b => FeeEntry.key a ≤ FeeEntry.key b
  entries.zipIdx.foldl pushFee "[" ++ "]"

/-! ## Escapes -/

/-- What a character is written as. -/
def escaped (c : Char) : List Char := (jsonEscape c).toList

theorem readHex4_hex4 {n : Nat} (h : n < 65536) (rest : List Char) :
    readHex4 ((hex4 n).toList ++ rest) = some (n, rest) := by
  have digit (k : Nat) : hexDigit? (hexChar (k % 16)) = some (k % 16) :=
    hexDigit?_hexChar _ (Nat.mod_lt _ (by decide))
  have sum : ((n / 4096 % 16 * 16 + n / 256 % 16) * 16 + n / 16 % 16) * 16 + n % 16 = n := by
    omega
  rw [hex4, String.toList_ofList]
  simp only [List.cons_append, List.nil_append, readHex4, digit, Option.bind_eq_bind,
    Option.bind_some, sum]
  rfl

/-- A control character is read back from its code. -/
theorem readEscape_hex4 {c : Char} (h : c.toNat < 0x20) (rest : List Char) :
    readEscape ('u' :: ((hex4 c.toNat).toList ++ rest)) = some (c, rest) := by
  have unicode : readUnicode ((hex4 c.toNat).toList ++ rest) = some (c, rest) := by
    rw [readUnicode, readHex4_hex4 (by omega), Option.bind_eq_bind, Option.bind_some]
    dsimp only
    rw [if_pos (.inl (by omega)), Char.ofNat_toNat]
    rfl
  exact unicode

theorem escaping_escaped : Escaping escaped where
  nonempty c := by
    unfold escaped jsonEscape
    split_ifs with hquote hslash hnewline hreturn htab hcontrol
    · decide
    · decide
    · decide
    · decide
    · decide
    · rw [String.toList_append]
      exact List.cons_ne_nil _ _
    · rw [Char.toString, String.toList_singleton]
      exact List.cons_ne_nil _ _
  read c n rest := by
    unfold escaped jsonEscape
    split_ifs with hquote hslash hnewline hreturn htab hcontrol
    · exact hquote ▸ readCharacters_escape rfl n
    · exact hslash ▸ readCharacters_escape rfl n
    · exact hnewline ▸ readCharacters_escape rfl n
    · exact hreturn ▸ readCharacters_escape rfl n
    · exact htab ▸ readCharacters_escape rfl n
    · rw [String.toList_append, List.append_assoc]
      exact readCharacters_escape (readEscape_hex4 hcontrol rest) n
    · rw [Char.toString, String.toList_singleton]
      exact readCharacters_plain hquote hslash hcontrol n rest

theorem toList_jsonEscapeInto (s out : String) :
    (jsonEscapeInto s out).toList = out.toList ++ s.toList.flatMap escaped := by
  unfold jsonEscapeInto
  induction s.toList generalizing out with
  | nil => rw [List.foldl_nil, List.flatMap_nil, List.append_nil]
  | cons c cs ih =>
    rw [List.foldl_cons, ih, String.toList_append, List.flatMap_cons, List.append_assoc]
    rfl

/-! ## Entries -/

/-- The object of an entry. -/
def feeObject (e : FeeEntry) : JsonValue :=
  .object [("type", .string e.1), ("desc", .string e.2.1), ("amount", .string e.2.2)]

/-- A member that is a string. -/
def memberText (key value : String) : List Char :=
  quoted escaped key ++ ':' :: quoted escaped value

theorem readsMember_memberText (key value : String) :
    ReadsMember (memberText key value) (key, .string value) :=
  ⟨escaped, escaping_escaped, quoted escaped value, reads_string escaping_escaped value, rfl⟩

def feeText (e : FeeEntry) : List Char :=
  '\x7b' :: (commas [memberText "type" e.1, memberText "desc" e.2.1, memberText "amount" e.2.2]
    ++ ['\x7d'])

theorem reads_feeText (e : FeeEntry) : ReadsAs (feeText e) (feeObject e) := by
  have members : ∀ t ∈ [(memberText "type" e.1, ("type", JsonValue.string e.1)),
      (memberText "desc" e.2.1, ("desc", .string e.2.1)),
      (memberText "amount" e.2.2, ("amount", .string e.2.2))], ReadsMember t.1 t.2 := by
    simp only [List.forall_mem_cons]
    exact ⟨readsMember_memberText _ _, readsMember_memberText _ _, readsMember_memberText _ _,
      fun t ht => absurd ht List.not_mem_nil⟩
  exact reads_object members (List.cons_ne_nil _ _)

/-- An entry with the keys written out. -/
theorem feeText_eq (e : FeeEntry) : feeText e = "\x7b\"type\":\"".toList ++
    (e.1.toList.flatMap escaped ++ ("\",\"desc\":\"".toList ++ (e.2.1.toList.flatMap escaped ++
      ("\",\"amount\":\"".toList ++ (e.2.2.toList.flatMap escaped ++ "\"\x7d".toList))))) := by
  have key (k : String) : quoted escaped k = '"' :: (k.toList.flatMap escaped ++ ['"']) := rfl
  have names : "type".toList.flatMap escaped = "type".toList ∧
      "desc".toList.flatMap escaped = "desc".toList ∧
      "amount".toList.flatMap escaped = "amount".toList := by
    decide
  have texts : "\x7b\"type\":\"".toList = '\x7b' :: '"' :: ("type".toList ++ ['"', ':', '"']) ∧
      "\",\"desc\":\"".toList = '"' :: ',' :: '"' :: ("desc".toList ++ ['"', ':', '"']) ∧
      "\",\"amount\":\"".toList = '"' :: ',' :: '"' :: ("amount".toList ++ ['"', ':', '"']) ∧
      "\"\x7d".toList = ['"', '\x7d'] := by
    decide
  simp only [feeText, commas, memberText, key, names, texts, List.flatMap_cons, List.flatMap_nil,
    List.append_assoc, List.cons_append, List.nil_append]

theorem toList_pushFee (out : String) (e : FeeEntry) (i : Nat) :
    (pushFee out (e, i)).toList =
      out.toList ++ ((if 0 < i then [','] else []) ++ feeText e) := by
  have start : (if 0 < i then out ++ "," else out).toList
      = out.toList ++ if 0 < i then [','] else [] := by
    split_ifs
    · rw [String.toList_append]
      rfl
    · rw [List.append_nil]
  unfold pushFee
  dsimp only
  simp only [String.toList_append, toList_jsonEscapeInto, start, feeText_eq, List.append_assoc]

/-- Later entries follow a comma. -/
theorem toList_foldl_pushFee (entries : List FeeEntry) (out : String) {i : Nat} (hi : 0 < i) :
    ((entries.zipIdx i).foldl pushFee out).toList =
      out.toList ++ (entries.map feeText).flatMap (',' :: ·) := by
  induction entries generalizing out i with
  | nil => rw [List.zipIdx_nil, List.foldl_nil, List.map_nil, List.flatMap_nil, List.append_nil]
  | cons e entries ih =>
    rw [List.zipIdx_cons, List.foldl_cons, ih _ (Nat.succ_pos i), toList_pushFee, if_pos hi,
      List.map_cons, List.flatMap_cons, List.append_assoc, List.append_assoc]
    rfl

theorem toList_serialized (entries : List FeeEntry) :
    (entries.zipIdx.foldl pushFee "[" ++ "]").toList =
      '[' :: (commas (entries.map feeText) ++ [']']) := by
  cases entries with
  | nil => decide
  | cons e entries =>
    rw [String.toList_append, List.zipIdx_cons, List.foldl_cons,
      toList_foldl_pushFee entries _ (Nat.succ_pos 0), toList_pushFee, if_neg (Nat.lt_irrefl 0),
      List.nil_append, List.map_cons, commas, List.append_assoc, List.append_assoc,
      List.append_assoc]
    rfl

/-! ## Reading the text back -/

section Canonical

variable {F G : Type} [AsCanonicalFee F] [AsCanonicalFee G]

/-- The entries in the order of the text. -/
def sortedEntries (fees : List F) : List FeeEntry :=
  (fees.map feeEntry).insertionSort fun a b => FeeEntry.key a ≤ FeeEntry.key b

theorem readJson_serializeFeesCanonical (fees : List F) :
    readJson (serializeFeesCanonical fees) = some (.array ((sortedEntries fees).map feeObject)) := by
  refine readJson_of_reads ?_
  have elements : ∀ t ∈ (sortedEntries fees).map fun e => (feeText e, feeObject e),
      ReadsAs t.1 t.2 := by
    intro t ht
    obtain ⟨e, -, rfl⟩ := List.mem_map.mp ht
    exact reads_feeText e
  have array := reads_array elements
  rw [List.map_map, List.map_map] at array
  rw [serializeFeesCanonical, toList_serialized]
  exact array

theorem feeObject_injective : Function.Injective feeObject := by
  rintro ⟨type, desc, amount⟩ ⟨type', desc', amount'⟩ h
  simpa [feeObject] using h

/-- The text determines the sorted entries. -/
theorem sortedEntries_of_serialized {fees : List F} {fees' : List G}
    (h : serializeFeesCanonical fees = serializeFeesCanonical fees') :
    sortedEntries fees = sortedEntries fees' := by
  have hread : readJson (serializeFeesCanonical fees) = readJson (serializeFeesCanonical fees') :=
    congrArg readJson h
  rw [readJson_serializeFeesCanonical, readJson_serializeFeesCanonical] at hread
  exact feeObject_injective.list_map (JsonValue.array.inj (Option.some.inj hread))

theorem perm_sortedEntries (fees : List F) : (sortedEntries fees).Perm (fees.map feeEntry) :=
  List.perm_insertionSort _ _

theorem FeeEntry.key_injective : Function.Injective FeeEntry.key := by
  rintro ⟨type, desc, amount⟩ ⟨type', desc', amount'⟩ h
  simpa [FeeEntry.key] using h

theorem pairwise_sortedEntries (fees : List F) :
    (sortedEntries fees).Pairwise fun a b => a.key ≤ b.key :=
  (pairwise_insertionSort_stable
    (List.pairwise_of_forall (R := fun _ _ : FeeEntry => True) fun _ _ => trivial)).imp
    StableOrder.le

/-- **A fee schedule is canonical**: two lists of fees have one text exactly if they are
permutations of each other, and the text reads as the array of the sorted entries. -/
theorem serializeFeesCanonical_canonical (fees : List F) (fees' : List G) :
    (serializeFeesCanonical fees = serializeFeesCanonical fees' ↔
        (fees.map feeEntry).Perm (fees'.map feeEntry)) ∧
      ∃ entries : List FeeEntry, entries.Perm (fees.map feeEntry) ∧
        entries.Pairwise (fun a b => a.key ≤ b.key) ∧
        readJson (serializeFeesCanonical fees) = some (.array (entries.map feeObject)) := by
  refine ⟨⟨fun h => ?_, fun h => ?_⟩, sortedEntries fees, perm_sortedEntries fees,
    pairwise_sortedEntries fees, readJson_serializeFeesCanonical fees⟩
  · rw [← (perm_sortedEntries fees).congr_left, sortedEntries_of_serialized h]
    exact perm_sortedEntries fees'
  · have same : sortedEntries fees = sortedEntries fees' :=
      List.Perm.eq_of_pairwise (fun a b _ _ hab hba => FeeEntry.key_injective (le_antisymm hab hba))
        (pairwise_sortedEntries fees) (pairwise_sortedEntries fees')
        ((perm_sortedEntries fees).trans (h.trans (perm_sortedEntries fees').symm))
    exact congrArg (fun entries => entries.zipIdx.foldl pushFee "[" ++ "]") same

end Canonical

end BookAgent.MessageSigning
