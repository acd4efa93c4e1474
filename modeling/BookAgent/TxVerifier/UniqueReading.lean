import BookAgent.TxVerifier.Content

/-!
# Unique reading of the accumulator

Two encodings of one kind that start a common stream encode the same content.
Lengths are written as `i32`, so the statements carry the bound below which the
cast keeps them apart (`FitsLen`); it is the only hypothesis up to the values.
-/

namespace BookAgent.TxVerifier

open BookAgent.Lib

/-! ## Lengths that fit -/

section Fits

variable [Hex]

/-- A length that the `i32` cast does not fold onto another one. -/
def FitsLen (n : Nat) : Prop := n + 1 < 2 ^ 32

def FitsStr (s : String) : Prop := FitsLen (utf8 s).length

def FitsStrs (l : List String) : Prop := FitsLen l.length ∧ ∀ s ∈ l, FitsStr s

/-- The decoded bytes fit. -/
def FitsHex (s : String) : Prop := ∀ d, Hex.decode s = some d → FitsLen d.length

def Identifier.Fits (id : Identifier) : Prop :=
  FitsStr id.packageId ∧ FitsStr id.moduleName ∧ FitsStr id.entityName

/-- The lengths inside a value, down to the nesting the encoder follows. -/
def Value.FitsAt : (left : Nat) → Value → Prop
  | 0, _ => True
  | next + 1, value =>
    match value with
    | .numeric s => FitsStr s
    | .party s => FitsStr s
    | .text s => FitsStr s
    | .contractId s => FitsHex s
    | .optional value => ∀ v, value = some v → v.FitsAt next
    | .list elements => FitsLen elements.length ∧ ∀ e ∈ elements, e.FitsAt next
    | .textMap entries => FitsLen entries.length ∧
        ∀ e ∈ entries, FitsStr e.key ∧ ∀ v, e.value = some v → v.FitsAt next
    | .record r => (∀ id, r.recordId = some id → id.Fits) ∧ FitsLen r.fields.length ∧
        ∀ f ∈ r.fields, FitsStr f.label ∧ ∀ v, f.value = some v → v.FitsAt next
    | .variant variantId constructor value => (∀ id, variantId = some id → id.Fits) ∧
        FitsStr constructor ∧ ∀ v, value = some v → v.FitsAt next
    | .enum enumId constructor => (∀ id, enumId = some id → id.Fits) ∧ FitsStr constructor
    | .genMap entries => FitsLen entries.length ∧
        ∀ e ∈ entries, (∀ v, e.key = some v → v.FitsAt next) ∧
          ∀ v, e.value = some v → v.FitsAt next
    | _ => True

def Value.Fits (v : Value) : Prop := v.FitsAt maxValueDepth

end Fits

/-! ## Fixed-width and length-prefixed fields -/

section Fields

theorem i32Val_lenAsI32 (n : Nat) : i32Val (lenAsI32 n) = beBytes 4 (n % 2 ^ 32) := by
  rw [i32Val, lenAsI32, UInt32.toUInt32_toInt32]
  simp

theorem sameRead_len {m n : Nat} (hm : m < 2 ^ 32) (hn : n < 2 ^ 32) :
    SameRead (i32Val (lenAsI32 m)) (i32Val (lenAsI32 n)) (m = n) := by
  rw [i32Val_lenAsI32, i32Val_lenAsI32, Nat.mod_eq_of_lt hm, Nat.mod_eq_of_lt hn]
  exact sameRead_beBytes hm hn

theorem FitsLen.lt {n : Nat} (h : FitsLen n) : n < 2 ^ 32 := Nat.lt_of_succ_lt h

theorem sameRead_i32Val (v w : Int32) : SameRead (i32Val v) (i32Val w) (v = w) :=
  (sameRead_beBytes v.toUInt32.toNat_lt w.toUInt32.toNat_lt).mono fun h =>
    congrArg Int32.ofUInt32 (UInt32.toNat_inj.mp h)

theorem sameRead_i64Val (v w : Int64) : SameRead (i64Val v) (i64Val w) (v = w) :=
  (sameRead_beBytes v.toUInt64.toNat_lt w.toUInt64.toNat_lt).mono fun h =>
    congrArg Int64.ofUInt64 (UInt64.toNat_inj.mp h)

theorem sameRead_u32Val (v w : UInt32) : SameRead (u32Val v) (u32Val w) (v = w) :=
  (sameRead_i32Val _ _).mono fun h => congrArg Int32.toUInt32 h

theorem sameRead_u64Val (v w : UInt64) : SameRead (u64Val v) (u64Val w) (v = w) :=
  (sameRead_i64Val _ _).mono fun h => congrArg Int64.toUInt64 h

theorem sameRead_boolVal (v w : Bool) : SameRead (boolVal v) (boolVal w) (v = w) := by
  refine (SameRead.of_length_eq (by simp [boolVal])).mono fun h => ?_
  revert h
  cases v <;> cases w <;> decide

theorem sameRead_bytesVal {b c : Bytes} (hb : b.length < 2 ^ 32) (hc : c.length < 2 ^ 32) :
    SameRead (bytesVal b) (bytesVal c) (b = c) :=
  (sameRead_len hb hc).prefixed id

theorem sameRead_strVal {s t : String} (hs : FitsStr s) (ht : FitsStr t) :
    SameRead (strVal s) (strVal t) (s = t) :=
  ((sameRead_len hs.lt ht.lt).prefixed id).mono utf8_inj

theorem sameRead_optionalVal {α : Type} {enc : α → Bytes} {o p : Option α}
    (h : ∀ a b, o = some a → p = some b → SameRead (enc a) (enc b) (a = b)) :
    SameRead (optionalVal enc o) (optionalVal enc p) (o = p) := by
  cases o with
  | none =>
    cases p with
    | none => exact (SameRead.of_length_eq rfl).mono fun _ => rfl
    | some b => exact SameRead.of_head_ne (by decide)
  | some a =>
    cases p with
    | none => exact SameRead.of_head_ne (by decide)
    | some b =>
      exact (SameRead.cons fun _ => h a b rfl rfl).mono fun ⟨_, hab⟩ => congrArg some hab

/-- A counted sequence of strings. -/
theorem sameRead_strVals {xs ys : List String} (hx : xs.length < 2 ^ 32)
    (hy : ys.length < 2 ^ 32) (hxs : ∀ s ∈ xs, FitsStr s) (hys : ∀ s ∈ ys, FitsStr s) :
    SameRead (i32Val (lenAsI32 xs.length) ++ (xs.map strVal).flatten)
      (i32Val (lenAsI32 ys.length) ++ (ys.map strVal).flatten) (xs = ys) := by
  have rel : ∀ l : List String, List.Forall₂ (fun s b => strVal s = b) l (l.map strVal) :=
    fun l => List.forall₂_map_right_iff.mpr (List.forall₂_same.mpr fun _ _ => rfl)
  refine ((sameRead_len hx hy).append fun hlen => SameRead.forall₂ (R := (· = ·)) ?_
    (rel xs) (rel ys) hlen).mono fun h => List.forall₂_eq_eq_eq ▸ h.2
  rintro s hs t ht _ _ rfl rfl
  exact sameRead_strVal (hxs s hs) (hys t ht)

/-- A sorted set of strings stands for its multiset. -/
theorem sameRead_stringSet {xs ys : List String} (hx : FitsStrs xs) (hy : FitsStrs ys) :
    SameRead (stringSet xs) (stringSet ys) ((xs : Multiset String) = ys) := by
  have px := List.perm_insertionSort (· ≤ ·) xs
  have py := List.perm_insertionSort (· ≤ ·) ys
  refine (sameRead_strVals (px.length_eq ▸ hx.1.lt) (py.length_eq ▸ hy.1.lt)
    (fun s hs => hx.2 s (px.mem_iff.mp hs)) fun s hs => hy.2 s (py.mem_iff.mp hs)).mono ?_
  intro h
  exact Multiset.coe_eq_coe.mpr (px.symm.trans (h ▸ py))

end Fields

/-! ## Names -/

section Names

/-- Joining pieces with a dot costs at least each piece and one dot less than
the number of pieces. -/
theorem length_intercalate_dots (pieces : List (List Char)) :
    pieces.length ≤ ((['.'].intercalate pieces).flatMap String.utf8EncodeChar).length + 1 ∧
      ∀ p ∈ pieces, (p.flatMap String.utf8EncodeChar).length ≤
        ((['.'].intercalate pieces).flatMap String.utf8EncodeChar).length := by
  induction pieces with
  | nil => simp
  | cons p ps ih =>
    cases ps with
    | nil => simp [List.intercalate]
    | cons q qs =>
      have step : (['.'].intercalate (p :: q :: qs)) = p ++ '.' :: ['.'].intercalate (q :: qs) := by
        simp [List.intercalate, List.intersperse]
      have hdot : (String.utf8EncodeChar '.').length = 1 := rfl
      rw [step]
      simp only [List.flatMap_append, List.flatMap_cons, List.length_append, hdot]
      refine ⟨?_, ?_⟩
      · have := ih.1
        simp only [List.length_cons] at this ⊢
        omega
      · intro r hr
        rcases List.mem_cons.mp hr with rfl | hr
        · omega
        · have := ih.2 r hr
          omega

theorem fits_splitDots {s : String} (h : FitsStr s) :
    (splitDots s).length < 2 ^ 32 ∧ ∀ p ∈ splitDots s, FitsStr p := by
  have hs : utf8 s =
      (['.'].intercalate (s.toList.splitOn '.')).flatMap String.utf8EncodeChar := by
    rw [List.intercalate_splitOn, ← utf8_ofList, String.ofList_toList]
  obtain ⟨hcount, hpiece⟩ := length_intercalate_dots (s.toList.splitOn '.')
  unfold FitsStr FitsLen at h
  rw [← hs] at hcount hpiece
  refine ⟨?_, ?_⟩
  · rw [splitDots, List.length_map]
    omega
  · intro p hp
    obtain ⟨cs, hcs, rfl⟩ := List.mem_map.mp hp
    have := hpiece cs hcs
    unfold FitsStr FitsLen
    rw [utf8_ofList]
    omega

theorem sameRead_dottedVal {s t : String} (hs : FitsStr s) (ht : FitsStr t) :
    SameRead (dottedVal s) (dottedVal t) (s = t) :=
  (sameRead_strVals (fits_splitDots hs).1 (fits_splitDots ht).1 (fits_splitDots hs).2
    (fits_splitDots ht).2).mono splitDots_inj

theorem sameRead_encodeIdentifier {a b : Identifier} (ha : a.Fits) (hb : b.Fits) :
    SameRead (encodeIdentifier a) (encodeIdentifier b) (a = b) := by
  refine ((sameRead_strVal ha.1 hb.1).append fun _ =>
    (sameRead_dottedVal ha.2.1 hb.2.1).append fun _ => sameRead_dottedVal ha.2.2 hb.2.2).mono ?_
  rintro ⟨h₁, h₂, h₃⟩
  cases a
  cases b
  simp_all

theorem sameRead_encodeOptionalIdentifier {a b : Option Identifier}
    (ha : ∀ i, a = some i → i.Fits) (hb : ∀ i, b = some i → i.Fits) :
    SameRead (encodeOptionalIdentifier a) (encodeOptionalIdentifier b) (a = b) :=
  sameRead_optionalVal fun i j hi hj => sameRead_encodeIdentifier (ha i hi) (hb j hj)

theorem sameRead_encodeLabel {s t : String} (hs : FitsStr s) (ht : FitsStr t) :
    SameRead (encodeLabel s) (encodeLabel t) (s = t) := by
  unfold encodeLabel
  split <;> split
  · next h₁ h₂ => exact (SameRead.of_length_eq rfl).mono fun _ => h₁.trans h₂.symm
  · exact SameRead.of_head_ne (by decide)
  · exact SameRead.of_head_ne (by decide)
  · exact (SameRead.cons fun _ => sameRead_strVal hs ht).mono And.right

theorem hexBytes_eq_ok [Hex] {s : String} {b : Bytes} :
    hexBytes s = .ok b ↔ ∃ d, Hex.decode s = some d ∧ bytesVal d = b := by
  unfold hexBytes
  simp only [bind_eq_ok, context_eq_ok, pure_eq_ok]

theorem sameRead_hexBytes [Hex] {s t : String} {b c : Bytes} (hs : FitsHex s) (ht : FitsHex t)
    (hb : hexBytes s = .ok b) (hc : hexBytes t = .ok c) :
    SameRead b c (Hex.decode s = Hex.decode t) := by
  obtain ⟨d, hd, rfl⟩ := hexBytes_eq_ok.mp hb
  obtain ⟨e, he, rfl⟩ := hexBytes_eq_ok.mp hc
  exact (sameRead_bytesVal (hs d hd).lt (ht e he).lt).mono fun h => by rw [hd, he, h]

end Names

/-! ## Values -/

section Values

variable [Hex]

/-- First byte of a value's encoding. -/
def Value.tag : Value → UInt8
  | .unset => 0xFF
  | .unit => unitTag
  | .bool _ => boolTag
  | .int64 _ => int64Tag
  | .numeric _ => numericTag
  | .timestamp _ => timestampTag
  | .date _ => dateTag
  | .party _ => partyTag
  | .text _ => textTag
  | .contractId _ => contractIdTag
  | .optional _ => optionalTag
  | .list _ => listTag
  | .textMap _ => textMapTag
  | .record _ => recordTag
  | .variant .. => variantTag
  | .enum .. => enumTag
  | .genMap _ => genMapTag

theorem encodeValueAt_head {left : Nat} {v : Value} {b : Bytes}
    (h : encodeValueAt left v = .ok b) : ∃ rest, b = v.tag :: rest := by
  cases left with
  | zero => cases h
  | succ next =>
    unfold encodeValueAt at h
    split at h <;> simp only [bind_eq_ok, pure_eq_ok, Except.ok.injEq, reduceCtorEq] at h
    any_goals exact ⟨_, h.symm⟩
    any_goals exact ⟨_, h.choose_spec.2.symm⟩
    obtain ⟨_, _, _, _, h⟩ := h
    exact ⟨_, h.symm⟩

omit [Hex] in
/-- Counted sequences whose members read alike. -/
theorem sameRead_counted {α : Type} {xs ys : List α} {bs cs : List Bytes}
    {E E' : α → Bytes → Prop} {R : α → α → Prop} (hx : FitsLen xs.length)
    (hy : FitsLen ys.length) (hbs : List.Forall₂ E xs bs) (hcs : List.Forall₂ E' ys cs)
    (h : ∀ x ∈ xs, ∀ y ∈ ys, ∀ b c, E x b → E' y c → SameRead b c (R x y)) :
    SameRead (i32Val (lenAsI32 xs.length) ++ bs.flatten)
      (i32Val (lenAsI32 ys.length) ++ cs.flatten) (List.Forall₂ R xs ys) :=
  ((sameRead_len hx.lt hy.lt).append fun hlen => SameRead.forall₂ h hbs hcs hlen).mono And.right

/-- **Values read alike.** By induction on the nesting still allowed; values of
different kinds differ in the tag, and within a kind the fields are read one
after the other. -/
theorem sameRead_encodeValueAt {left : Nat} {v w : Value} {b c : Bytes}
    (hv : v.FitsAt left) (hw : w.FitsAt left)
    (hb : encodeValueAt left v = .ok b) (hc : encodeValueAt left w = .ok c) :
    SameRead b c (lfValueAt left v = lfValueAt left w) := by
  induction left generalizing v w b c with
  | zero => cases hb
  | succ next ih =>
    by_cases htag : v.tag = w.tag
    case neg =>
      obtain ⟨_, rfl⟩ := encodeValueAt_head hb
      obtain ⟨_, rfl⟩ := encodeValueAt_head hc
      exact SameRead.of_head_ne htag
    -- a member that must be present, read after its own prefix
    have member : ∀ {o o' : Option Value} {x y : Value} {d e : Bytes},
        (∀ v, o = some v → v.FitsAt next) → (∀ v, o' = some v → v.FitsAt next) →
        o = some x → o' = some y →
        encodeValueAt next x = .ok d → encodeValueAt next y = .ok e →
        SameRead d e (o.bind (lfValueAt next) = o'.bind (lfValueAt next)) := by
      rintro _ _ x y d e ho ho' rfl rfl hd he
      exact ih (ho x rfl) (ho' y rfl) hd he
    cases v <;> cases w <;> first
      | exact absurd htag (by simp only [Value.tag]; decide)
      | skip
    case unset.unset => cases hb
    case unit.unit =>
      cases hb; cases hc
      exact (SameRead.of_length_eq rfl).mono fun _ => rfl
    case bool.bool v w =>
      cases hb; cases hc
      exact (SameRead.cons fun _ => sameRead_boolVal v w).mono fun h => by rw [h.2]
    case int64.int64 v w =>
      cases hb; cases hc
      exact (SameRead.cons fun _ => sameRead_i64Val v w).mono fun h => by rw [h.2]
    case numeric.numeric s t =>
      cases hb; cases hc
      exact (SameRead.cons fun _ => sameRead_strVal hv hw).mono fun h => by rw [h.2]
    case timestamp.timestamp v w =>
      cases hb; cases hc
      exact (SameRead.cons fun _ => sameRead_i64Val v w).mono fun h => by rw [h.2]
    case date.date v w =>
      cases hb; cases hc
      exact (SameRead.cons fun _ => sameRead_i32Val v w).mono fun h => by rw [h.2]
    case party.party s t =>
      cases hb; cases hc
      exact (SameRead.cons fun _ => sameRead_strVal hv hw).mono fun h => by rw [h.2]
    case text.text s t =>
      cases hb; cases hc
      exact (SameRead.cons fun _ => sameRead_strVal hv hw).mono fun h => by rw [h.2]
    case contractId.contractId s t =>
      obtain ⟨d, hd, rfl⟩ := map_eq_ok.mp hb
      obtain ⟨e, he, rfl⟩ := map_eq_ok.mp hc
      refine (SameRead.cons fun _ => sameRead_hexBytes hv hw hd he).mono fun h => ?_
      rw [lfValueAt, lfValueAt, h.2]
    case optional.optional o p =>
      cases o with
      | none =>
        cases p with
        | none =>
          cases hb; cases hc
          exact (SameRead.of_length_eq rfl).mono fun _ => rfl
        | some y =>
          cases hb
          obtain ⟨e, he, rfl⟩ := map_eq_ok.mp hc
          exact (SameRead.cons fun _ => SameRead.of_head_ne (by decide)).mono And.right
      | some x =>
        obtain ⟨d, hd, rfl⟩ := map_eq_ok.mp hb
        cases p with
        | none =>
          cases hc
          exact (SameRead.cons fun _ => SameRead.of_head_ne (by decide)).mono And.right
        | some y =>
          obtain ⟨e, he, rfl⟩ := map_eq_ok.mp hc
          refine (SameRead.cons fun _ => SameRead.cons fun _ =>
            ih (hv x rfl) (hw y rfl) hd he).mono fun h => ?_
          rw [lfValueAt, lfValueAt, h.2.2]
    case list.list xs ys =>
      obtain ⟨bs, hbs, rfl⟩ := map_eq_ok.mp hb
      obtain ⟨cs, hcs, rfl⟩ := map_eq_ok.mp hc
      refine (SameRead.cons fun _ => sameRead_counted hv.1 hw.1 (forall₂_of_mapM_ok hbs)
        (forall₂_of_mapM_ok hcs) fun x hx y hy d e hd he =>
          ih (hv.2 x hx) (hw.2 y hy) hd he).mono fun h => ?_
      rw [lfValueAt, lfValueAt, mapM_eq_of_forall₂ h.2]
    case textMap.textMap xs ys =>
      obtain ⟨bs, hbs, rfl⟩ := map_eq_ok.mp hb
      obtain ⟨cs, hcs, rfl⟩ := map_eq_ok.mp hc
      refine (SameRead.cons fun _ => sameRead_counted hv.1 hw.1 (forall₂_of_mapM_ok hbs)
        (forall₂_of_mapM_ok hcs) fun x hx y hy d e hd he => ?_).mono fun h => by
          rw [lfValueAt, lfValueAt, mapM_eq_of_forall₂ h.2]
      obtain ⟨u, hu, hd⟩ := bind_eq_ok.mp hd
      obtain ⟨d', hd', hd⟩ := bind_eq_ok.mp hd
      obtain ⟨t, ht, he⟩ := bind_eq_ok.mp he
      obtain ⟨e', he', he⟩ := bind_eq_ok.mp he
      rw [← pure_eq_ok.mp hd, ← pure_eq_ok.mp he]
      refine ((sameRead_strVal (hv.2 x hx).1 (hw.2 y hy).1).append fun _ =>
        member (hv.2 x hx).2 (hw.2 y hy).2 (context_eq_ok.mp hu) (context_eq_ok.mp ht)
          hd' he').mono fun h => ?_
      rw [h.1, h.2]
    case record.record r q =>
      obtain ⟨bs, hbs, rfl⟩ := map_eq_ok.mp hb
      obtain ⟨cs, hcs, rfl⟩ := map_eq_ok.mp hc
      refine (SameRead.cons fun _ => (sameRead_encodeOptionalIdentifier hv.1 hw.1).append
        fun _ => sameRead_counted hv.2.1 hw.2.1 (forall₂_of_mapM_ok hbs)
          (forall₂_of_mapM_ok hcs) fun x hx y hy d e hd he => ?_).mono fun h => by
            rw [lfValueAt, lfValueAt, h.2.1, mapM_eq_of_forall₂ h.2.2]
      obtain ⟨u, hu, hd⟩ := bind_eq_ok.mp hd
      obtain ⟨d', hd', hd⟩ := bind_eq_ok.mp hd
      obtain ⟨t, ht, he⟩ := bind_eq_ok.mp he
      obtain ⟨e', he', he⟩ := bind_eq_ok.mp he
      rw [← pure_eq_ok.mp hd, ← pure_eq_ok.mp he]
      refine ((sameRead_encodeLabel (hv.2.2 x hx).1 (hw.2.2 y hy).1).append fun _ =>
        member (hv.2.2 x hx).2 (hw.2.2 y hy).2 (context_eq_ok.mp hu) (context_eq_ok.mp ht)
          hd' he').mono fun h => ?_
      rw [h.1, h.2]
    case variant.variant vid con o wid con' p =>
      obtain ⟨u, hu, hb⟩ := bind_eq_ok.mp hb
      obtain ⟨d, hd, rfl⟩ := map_eq_ok.mp hb
      obtain ⟨t, ht, hc⟩ := bind_eq_ok.mp hc
      obtain ⟨e, he, rfl⟩ := map_eq_ok.mp hc
      refine (SameRead.cons fun _ => (sameRead_encodeOptionalIdentifier hv.1 hw.1).append
        fun _ => (sameRead_strVal hv.2.1 hw.2.1).append fun _ =>
          member hv.2.2 hw.2.2 (context_eq_ok.mp hu) (context_eq_ok.mp ht) hd he).mono
        fun h => ?_
      rw [lfValueAt, lfValueAt, h.2.1, h.2.2.1, h.2.2.2]
    case enum.enum eid con fid con' =>
      cases hb; cases hc
      refine (SameRead.cons fun _ => (sameRead_encodeOptionalIdentifier hv.1 hw.1).append
        fun _ => sameRead_strVal hv.2 hw.2).mono fun h => ?_
      rw [lfValueAt, lfValueAt, h.2.1, h.2.2]
    case genMap.genMap xs ys =>
      obtain ⟨bs, hbs, rfl⟩ := map_eq_ok.mp hb
      obtain ⟨cs, hcs, rfl⟩ := map_eq_ok.mp hc
      refine (SameRead.cons fun _ => sameRead_counted hv.1 hw.1 (forall₂_of_mapM_ok hbs)
        (forall₂_of_mapM_ok hcs) fun x hx y hy d e hd he => ?_).mono fun h => by
          rw [lfValueAt, lfValueAt, mapM_eq_of_forall₂ h.2]
      obtain ⟨k, hk, hd⟩ := bind_eq_ok.mp hd
      obtain ⟨dk, hdk, hd⟩ := bind_eq_ok.mp hd
      obtain ⟨u, hu, hd⟩ := bind_eq_ok.mp hd
      obtain ⟨du, hdu, rfl⟩ := map_eq_ok.mp hd
      obtain ⟨l, hl, he⟩ := bind_eq_ok.mp he
      obtain ⟨el, hel, he⟩ := bind_eq_ok.mp he
      obtain ⟨t, ht, he⟩ := bind_eq_ok.mp he
      obtain ⟨et, het, rfl⟩ := map_eq_ok.mp he
      refine ((member (hv.2 x hx).1 (hw.2 y hy).1 (context_eq_ok.mp hk)
        (context_eq_ok.mp hl) hdk hel).append fun _ => member (hv.2 x hx).2 (hw.2 y hy).2
          (context_eq_ok.mp hu) (context_eq_ok.mp ht) hdu het).mono fun h => ?_
      rw [h.1, h.2]

theorem sameRead_encodeValue {v w : Value} {b c : Bytes} (hv : v.Fits) (hw : w.Fits)
    (hb : encodeValue v = .ok b) (hc : encodeValue w = .ok c) :
    SameRead b c (lfValue v = lfValue w) :=
  sameRead_encodeValueAt hv hw hb hc

/-- An encoded value has a meaning. -/
theorem isSome_lfValueAt {left : Nat} {v : Value} {b : Bytes}
    (h : encodeValueAt left v = .ok b) : (lfValueAt left v).isSome := by
  induction left generalizing v b with
  | zero => cases h
  | succ next ih =>
    have member : ∀ {o : Option Value} {x : Value} {d : Bytes}, o = some x →
        encodeValueAt next x = .ok d → (o.bind (lfValueAt next)).isSome := by
      rintro _ x d rfl hd
      exact ih hd
    cases v with
    | unset => cases h
    | contractId s =>
      obtain ⟨_, hd, -⟩ := map_eq_ok.mp h
      obtain ⟨_, hx, -⟩ := hexBytes_eq_ok.mp hd
      simp [lfValueAt, hx]
    | optional o =>
      cases o with
      | none => rfl
      | some x =>
        obtain ⟨_, hd, -⟩ := map_eq_ok.mp h
        simpa [lfValueAt] using ih hd
    | list xs =>
      obtain ⟨_, hbs, -⟩ := map_eq_ok.mp h
      rw [lfValueAt, Option.isSome_map]
      refine isSome_mapM fun x hx => ?_
      obtain ⟨_, -, hd⟩ := mem_of_forall₂_left (forall₂_of_mapM_ok hbs) hx
      exact ih hd
    | textMap xs =>
      obtain ⟨_, hbs, -⟩ := map_eq_ok.mp h
      rw [lfValueAt, Option.isSome_map]
      refine isSome_mapM fun x hx => ?_
      obtain ⟨_, -, hd⟩ := mem_of_forall₂_left (forall₂_of_mapM_ok hbs) hx
      obtain ⟨u, hu, hd⟩ := bind_eq_ok.mp hd
      obtain ⟨_, hd, -⟩ := bind_eq_ok.mp hd
      rw [Option.isSome_map]
      exact member (context_eq_ok.mp hu) hd
    | record r =>
      obtain ⟨_, hbs, -⟩ := map_eq_ok.mp h
      rw [lfValueAt, Option.isSome_map]
      refine isSome_mapM fun x hx => ?_
      obtain ⟨_, -, hd⟩ := mem_of_forall₂_left (forall₂_of_mapM_ok hbs) hx
      obtain ⟨u, hu, hd⟩ := bind_eq_ok.mp hd
      obtain ⟨_, hd, -⟩ := bind_eq_ok.mp hd
      rw [Option.isSome_map]
      exact member (context_eq_ok.mp hu) hd
    | variant vid con o =>
      obtain ⟨u, hu, h⟩ := bind_eq_ok.mp h
      obtain ⟨_, hd, -⟩ := map_eq_ok.mp h
      rw [lfValueAt, Option.isSome_map]
      exact member (context_eq_ok.mp hu) hd
    | genMap xs =>
      obtain ⟨_, hbs, -⟩ := map_eq_ok.mp h
      rw [lfValueAt, Option.isSome_map]
      refine isSome_mapM fun x hx => ?_
      obtain ⟨_, -, hd⟩ := mem_of_forall₂_left (forall₂_of_mapM_ok hbs) hx
      obtain ⟨k, hk, hd⟩ := bind_eq_ok.mp hd
      obtain ⟨_, hdk, hd⟩ := bind_eq_ok.mp hd
      obtain ⟨u, hu, hd⟩ := bind_eq_ok.mp hd
      obtain ⟨_, hdu, -⟩ := map_eq_ok.mp hd
      obtain ⟨k', hk'⟩ := Option.isSome_iff_exists.mp (member (context_eq_ok.mp hk) hdk)
      rw [hk', Option.bind_some, Option.isSome_map]
      exact member (context_eq_ok.mp hu) hdu
    | _ => rfl

end Values

end BookAgent.TxVerifier
