import BookAgent.TxVerifier.UniqueReading

/-!
# What the bytes of a value determine

The encoding of a value, with anything after it, determines the value, but for the case of
the letters in contract ids, and what comes after.
-/

namespace BookAgent.TxVerifier

open BookAgent.Lib

/-! ## Values up to the case of contract ids -/

mutual

/-- The value with `f` applied to its contract ids. -/
def Value.mapContractIds (f : String → String) : Value → Value
  | .unset => .unset
  | .unit => .unit
  | .bool b => .bool b
  | .int64 v => .int64 v
  | .numeric s => .numeric s
  | .timestamp v => .timestamp v
  | .date v => .date v
  | .party s => .party s
  | .text s => .text s
  | .contractId s => .contractId (f s)
  | .optional value => .optional (mapMember f value)
  | .list elements => .list (mapElements f elements)
  | .textMap entries => .textMap (mapTextMap f entries)
  | .record ⟨recordId, fields⟩ => .record ⟨recordId, mapFields f fields⟩
  | .variant variantId constructor value => .variant variantId constructor (mapMember f value)
  | .enum enumId constructor => .enum enumId constructor
  | .genMap entries => .genMap (mapGenMap f entries)

def mapMember (f : String → String) : Option Value → Option Value
  | none => none
  | some v => some (v.mapContractIds f)

def mapElements (f : String → String) : List Value → List Value
  | [] => []
  | v :: vs => v.mapContractIds f :: mapElements f vs

def mapTextMap (f : String → String) : List (TextMapEntry Value) → List (TextMapEntry Value)
  | [] => []
  | ⟨key, value⟩ :: es => ⟨key, mapMember f value⟩ :: mapTextMap f es

def mapFields (f : String → String) : List (RecordField Value) → List (RecordField Value)
  | [] => []
  | ⟨label, value⟩ :: fs => ⟨label, mapMember f value⟩ :: mapFields f fs

def mapGenMap (f : String → String) : List (GenMapEntry Value) → List (GenMapEntry Value)
  | [] => []
  | ⟨key, value⟩ :: es => ⟨mapMember f key, mapMember f value⟩ :: mapGenMap f es

end

/-- The value with its contract ids in lower case. -/
def Value.lowerHex (v : Value) : Value := v.mapContractIds lowerCase

/-! ## The value that a meaning is written as -/

section Spelling

variable [Hex]

mutual

/-- The value with this meaning, its contract ids in lower case. -/
def LfValue.spell : LfValue → Value
  | .unit => .unit
  | .bool b => .bool b
  | .int64 v => .int64 v
  | .numeric s => .numeric s
  | .timestamp v => .timestamp v
  | .date v => .date v
  | .party s => .party s
  | .text s => .text s
  | .contractId cid => .contractId (Hex.encode cid)
  | .optional none => .optional none
  | .optional (some v) => .optional (some v.spell)
  | .list elements => .list (spellElements elements)
  | .textMap entries => .textMap (spellTextMap entries)
  | .record recordId fields => .record ⟨recordId, spellFields fields⟩
  | .variant variantId constructor value => .variant variantId constructor (some value.spell)
  | .enum enumId constructor => .enum enumId constructor
  | .genMap entries => .genMap (spellGenMap entries)

def spellElements : List LfValue → List Value
  | [] => []
  | v :: vs => v.spell :: spellElements vs

def spellTextMap : List (String × LfValue) → List (TextMapEntry Value)
  | [] => []
  | (key, v) :: es => ⟨key, some v.spell⟩ :: spellTextMap es

def spellFields : List (String × LfValue) → List (RecordField Value)
  | [] => []
  | (label, v) :: fs => ⟨label, some v.spell⟩ :: spellFields fs

def spellGenMap : List (LfValue × LfValue) → List (GenMapEntry Value)
  | [] => []
  | (k, v) :: es => ⟨some k.spell, some v.spell⟩ :: spellGenMap es

end

/-! ## A meaning determines its value -/

section Spell

variable {read : Value → Option LfValue}

/-- A member that is present and has a meaning. -/
theorem spell_member (h : ∀ v x, read v = some x → v.lowerHex = x.spell) {o : Option Value}
    {x : LfValue} (ho : o.bind read = some x) : mapMember lowerCase o = some x.spell := by
  obtain ⟨v, rfl, hv⟩ := Option.bind_eq_some_iff.mp ho
  rw [mapMember]
  exact congrArg some (h v x hv)

theorem spell_elements (h : ∀ v x, read v = some x → v.lowerHex = x.spell) {es : List Value}
    {xs : List LfValue} (hxs : es.mapM read = some xs) :
    mapElements lowerCase es = spellElements xs := by
  induction es generalizing xs with
  | nil =>
    obtain rfl : [] = xs := Option.some.inj hxs
    rw [mapElements, spellElements]
  | cons e es ih =>
    rw [List.mapM_cons] at hxs
    obtain ⟨x, hx, hxs⟩ := Option.bind_eq_some_iff.mp hxs
    obtain ⟨rest, hrest, hxs⟩ := Option.bind_eq_some_iff.mp hxs
    obtain rfl : x :: rest = xs := Option.some.inj hxs
    rw [mapElements, spellElements, ih hrest]
    exact congrArg (· :: _) (h e x hx)

theorem spell_textMap (h : ∀ v x, read v = some x → v.lowerHex = x.spell) {es : List (TextMapEntry Value)}
    {xs : List (String × LfValue)} (hxs : es.mapM (fun e => (e.value.bind read).map fun v => (e.key, v)) = some xs) :
    mapTextMap lowerCase es = spellTextMap xs := by
  induction es generalizing xs with
  | nil =>
    obtain rfl : [] = xs := Option.some.inj hxs
    rw [mapTextMap, spellTextMap]
  | cons e es ih =>
    rw [List.mapM_cons] at hxs
    obtain ⟨x, hx, hxs⟩ := Option.bind_eq_some_iff.mp hxs
    obtain ⟨rest, hrest, hxs⟩ := Option.bind_eq_some_iff.mp hxs
    obtain rfl : x :: rest = xs := Option.some.inj hxs
    obtain ⟨v, hv, rfl⟩ := Option.map_eq_some_iff.mp hx
    rw [mapTextMap, spellTextMap, ih hrest, spell_member h hv]

theorem spell_fields (h : ∀ v x, read v = some x → v.lowerHex = x.spell) {es : List (RecordField Value)}
    {xs : List (String × LfValue)} (hxs : es.mapM (fun e => (e.value.bind read).map fun v => (e.label, v)) = some xs) :
    mapFields lowerCase es = spellFields xs := by
  induction es generalizing xs with
  | nil =>
    obtain rfl : [] = xs := Option.some.inj hxs
    rw [mapFields, spellFields]
  | cons e es ih =>
    rw [List.mapM_cons] at hxs
    obtain ⟨x, hx, hxs⟩ := Option.bind_eq_some_iff.mp hxs
    obtain ⟨rest, hrest, hxs⟩ := Option.bind_eq_some_iff.mp hxs
    obtain rfl : x :: rest = xs := Option.some.inj hxs
    obtain ⟨v, hv, rfl⟩ := Option.map_eq_some_iff.mp hx
    rw [mapFields, spellFields, ih hrest, spell_member h hv]

theorem spell_genMap (h : ∀ v x, read v = some x → v.lowerHex = x.spell) {es : List (GenMapEntry Value)}
    {xs : List (LfValue × LfValue)} (hxs : es.mapM (fun e => (e.key.bind read).bind fun k =>
      (e.value.bind read).map fun v => (k, v)) = some xs) :
    mapGenMap lowerCase es = spellGenMap xs := by
  induction es generalizing xs with
  | nil =>
    obtain rfl : [] = xs := Option.some.inj hxs
    rw [mapGenMap, spellGenMap]
  | cons e es ih =>
    rw [List.mapM_cons] at hxs
    obtain ⟨x, hx, hxs⟩ := Option.bind_eq_some_iff.mp hxs
    obtain ⟨rest, hrest, hxs⟩ := Option.bind_eq_some_iff.mp hxs
    obtain rfl : x :: rest = xs := Option.some.inj hxs
    obtain ⟨k, hk, hx⟩ := Option.bind_eq_some_iff.mp hx
    obtain ⟨v, hv, rfl⟩ := Option.map_eq_some_iff.mp hx
    rw [mapGenMap, spellGenMap, ih hrest, spell_member h hk, spell_member h hv]

end Spell

/-- What a value means is written as the value itself, contract ids in lower case. -/
theorem lowerHex_of_lfValueAt {left : Nat} {v : Value} {x : LfValue}
    (h : lfValueAt left v = some x) : v.lowerHex = x.spell := by
  induction left generalizing v x with
  | zero => cases h
  | succ next ih =>
    have ih : ∀ v x, lfValueAt next v = some x → v.lowerHex = x.spell := fun v x => ih
    unfold Value.lowerHex
    cases v with
    | unset => cases h
    | contractId s =>
      obtain ⟨cid, hcid, rfl⟩ := Option.map_eq_some_iff.mp h
      rw [Value.mapContractIds, LfValue.spell, Hex.lowerCase_of_decode hcid]
    | optional o =>
      cases o with
      | none =>
        obtain rfl := Option.some.inj h
        rw [Value.mapContractIds, mapMember, LfValue.spell]
      | some v =>
        obtain ⟨y, hy, rfl⟩ := Option.map_eq_some_iff.mp h
        rw [Value.mapContractIds, LfValue.spell, spell_member ih (o := some v) hy]
    | list elements =>
      obtain ⟨xs, hxs, rfl⟩ := Option.map_eq_some_iff.mp h
      rw [Value.mapContractIds, LfValue.spell, spell_elements ih hxs]
    | textMap entries =>
      obtain ⟨xs, hxs, rfl⟩ := Option.map_eq_some_iff.mp h
      rw [Value.mapContractIds, LfValue.spell, spell_textMap ih hxs]
    | record r =>
      obtain ⟨xs, hxs, rfl⟩ := Option.map_eq_some_iff.mp h
      rw [Value.mapContractIds, LfValue.spell, spell_fields ih hxs]
    | variant variantId constructor o =>
      obtain ⟨y, hy, rfl⟩ := Option.map_eq_some_iff.mp h
      rw [Value.mapContractIds, LfValue.spell, spell_member ih hy]
    | genMap entries =>
      obtain ⟨xs, hxs, rfl⟩ := Option.map_eq_some_iff.mp h
      rw [Value.mapContractIds, LfValue.spell, spell_genMap ih hxs]
    | _ =>
      obtain rfl := Option.some.inj h
      rw [Value.mapContractIds, LfValue.spell]

/-- **The bytes of a value determine it**, but for the case of the letters in contract ids,
and what follows them. -/
theorem encodeValue_determines {v w : Value} {b c r s : Bytes} (hv : v.Fits) (hw : w.Fits)
    (hb : encodeValue v = .ok b) (hc : encodeValue w = .ok c) (h : b ++ r = c ++ s) :
    v.lowerHex = w.lowerHex ∧ r = s := by
  obtain ⟨hmeaning, hrest⟩ := sameRead_encodeValue hv hw hb hc r s h
  obtain ⟨x, hx⟩ := Option.isSome_iff_exists.mp (isSome_lfValueAt hb)
  refine ⟨?_, hrest⟩
  rw [lowerHex_of_lfValueAt hx, lowerHex_of_lfValueAt (hmeaning.symm.trans hx)]

end Spelling

section Example

local instance spelledHex : Hex := pairedHex

/-- A contract id and a text in a record. -/
def cidAndText (cid : String) : Value :=
  .record ⟨none, [⟨"cid", some (.contractId cid)⟩, ⟨"", some (.text "x")⟩]⟩

theorem fits_cidAndText {cid : String} (h : FitsHex cid) : (cidAndText cid).Fits := by
  have short : ∀ s ∈ ["cid", "", "x"], FitsStr s :=
    (by decide : ∀ s ∈ ["cid", "", "x"], (utf8 s).length + 1 < 2 ^ 32)
  have two : FitsLen 2 := (by decide : 2 + 1 < 2 ^ 32)
  refine ⟨fun id hid => absurd hid.symm (Option.some_ne_none id), two, fun f hf => ?_⟩
  rcases List.mem_cons.mp hf with rfl | hf
  · refine ⟨short "cid" (by decide), fun v hv => ?_⟩
    obtain rfl := Option.some.inj hv
    exact h
  · obtain rfl := List.mem_singleton.mp hf
    refine ⟨short "" (by decide), fun v hv => ?_⟩
    obtain rfl := Option.some.inj hv
    exact short "x" (by decide)

/-- One contract id in two spellings. -/
theorem encodeValue_determines_cidAndText :
    (cidAndText "0A").lowerHex = (cidAndText "0a").lowerHex ∧ ([7] : Bytes) = [7] := by
  have hfits {cid : String} (hcid : Hex.decode cid = some [10]) : (cidAndText cid).Fits :=
    fits_cidAndText fun d hd => by
      obtain rfl := Option.some.inj (hcid.symm.trans hd)
      exact (by decide : 1 + 1 < 2 ^ 32)
  exact encodeValue_determines (hfits rfl) (hfits rfl) rfl rfl rfl

end Example

end BookAgent.TxVerifier
