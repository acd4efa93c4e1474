import BookAgent.MessageSigning.Payload

/-!
# The fee block of a settle

The count of the fees and four lines for each. Fees whose values are not cut are read
back from the block, and every block is that of such fees.
-/

namespace BookAgent.MessageSigning

open BookAgent.Lib KeyField

/-- Nothing follows. -/
def NoTail (x : List Char) : Prop := x = []

/-- No value of the fees is cut by the lines of the block after it. -/
def CleanFees (fees : List AtomicLpFee) : Prop := Unbroken NoTail [] (feeFields 0 fees)

/-! ## Keys -/

/-- The key of a fee's line. -/
def feeKey (i : Nat) (part : String) : String := "fee_" ++ toString i ++ part

/-- What the keys of a fee's lines end in. -/
def feeParts : List String := ["_receiver", "_admin", "_id", "_amount"]

theorem keys_feeFields_cons (i : Nat) (fee : AtomicLpFee) (fees : List AtomicLpFee) :
    (feeFields i (fee :: fees)).map KeyField.key =
      feeParts.map (feeKey i) ++ (feeFields (i + 1) fees).map KeyField.key := rfl

theorem isKey_feeKey (i : Nat) {part : String} (h : part ∈ feeParts) : IsKey (feeKey i part) := by
  have parts : ∀ p ∈ feeParts, IsKey p := by decide
  have digits : ∀ c : Char, c.isDigit = false → c ∉ "fee_".toList → c ∉ part.toList →
      c ∉ (feeKey i part).toList := by
    intro c hc hfee hpart
    unfold feeKey
    rw [String.toList_append, String.toList_append, List.mem_append, List.mem_append, not_or, not_or]
    exact ⟨⟨hfee, notMem_natText hc⟩, hpart⟩
  exact ⟨digits _ (by decide) (by decide) (parts part h).1,
    digits _ (by decide) (by decide) (parts part h).2⟩

/-- A fee's key determines its number and its part. -/
theorem feeKey_inj {i j : Nat} {p q : String} (hp : p ∈ feeParts) (hq : q ∈ feeParts)
    (h : feeKey i p = feeKey j q) : i = j ∧ p = q := by
  have split : ∀ s ∈ feeParts, ∃ t : String, s.toList = '_' :: t.toList := by
    intro s hs
    have lists : ∀ s ∈ feeParts, s.toList = '_' :: s.toList.tail := by decide
    exact ⟨String.ofList s.toList.tail, by rw [String.toList_ofList, ← lists s hs]⟩
  obtain ⟨p', hp'⟩ := split p hp
  obtain ⟨q', hq'⟩ := split q hq
  have chars := congrArg String.toList h
  unfold feeKey at chars
  simp only [String.toList_append, List.append_assoc, List.append_cancel_left_eq] at chars
  rw [hp', hq'] at chars
  obtain ⟨hij, hpq⟩ :=
    append_delimiter_inj (notMem_natText (by decide)) (notMem_natText (by decide)) chars
  refine ⟨natText_injective (String.toList_inj.mp hij), String.toList_inj.mp ?_⟩
  rw [hp', hq', hpq]

/-- The keys are those of the fees from `i` on. -/
theorem mem_keys_feeFields {i : Nat} {fees : List AtomicLpFee} {k : String}
    (h : k ∈ (feeFields i fees).map KeyField.key) :
    ∃ j, i ≤ j ∧ ∃ part ∈ feeParts, k = feeKey j part := by
  induction fees generalizing i with
  | nil => cases h
  | cons fee fees ih =>
    rw [keys_feeFields_cons, List.mem_append] at h
    rcases h with h | h
    · obtain ⟨part, hpart, rfl⟩ := List.mem_map.mp h
      exact ⟨i, le_rfl, part, hpart, rfl⟩
    · obtain ⟨j, hj, part, hpart, rfl⟩ := ih h
      exact ⟨j, Nat.le_of_succ_le hj, part, hpart, rfl⟩

theorem nodup_keys_feeFields (i : Nat) (fees : List AtomicLpFee) :
    ((feeFields i fees).map KeyField.key).Nodup := by
  induction fees generalizing i with
  | nil => exact List.nodup_nil
  | cons fee fees ih =>
    rw [keys_feeFields_cons, List.nodup_append]
    refine ⟨?_, ih (i + 1), ?_⟩
    · refine List.Nodup.map_on ?_ (by decide)
      intro p hp q hq h
      exact (feeKey_inj hp hq h).2
    · rintro k hk l hl rfl
      obtain ⟨p, hp, rfl⟩ := List.mem_map.mp hk
      obtain ⟨j, hj, q, hq, h⟩ := mem_keys_feeFields hl
      have same := (feeKey_inj hp hq h).1
      omega

theorem format_feeFields (i : Nat) (fees : List AtomicLpFee) :
    Format NoTail (feeFields i fees) where
  keys k hk := by
    obtain ⟨j, -, part, hpart, rfl⟩ := mem_keys_feeFields hk
    exact isKey_feeKey j hpart
  nodup := nodup_keys_feeFields i fees
  fresh k _ z h := List.append_ne_nil_of_right_ne_nil _ (List.cons_ne_nil _ _) h

/-! ## Shapes -/

theorem feeFields_shape (i : Nat) {fees fees' : List AtomicLpFee}
    (h : fees.length = fees'.length) :
    List.Forall₂ SameShape (feeFields i fees) (feeFields i fees') := by
  induction fees generalizing i fees' with
  | nil =>
    cases fees' with
    | nil => exact .nil
    | cons => cases h
  | cons fee fees ih =>
    cases fees' with
    | nil => cases h
    | cons fee' fees' =>
      have rest := ih (i + 1) (Nat.succ.inj h)
      exact .cons ⟨rfl, rfl, rfl⟩ (.cons ⟨rfl, rfl, rfl⟩ (.cons ⟨rfl, rfl, rfl⟩
        (.cons ⟨rfl, rfl, rfl⟩ rest)))

/-- Fields of the shape of a fee block are those of fees. -/
theorem feeFields_of_shape {i : Nat} {fees : List AtomicLpFee} {gs : List KeyField}
    (h : List.Forall₂ SameShape gs (feeFields i fees)) :
    ∃ fees', fees'.length = fees.length ∧ gs = feeFields i fees' := by
  induction fees generalizing i gs with
  | nil =>
    cases h
    exact ⟨[], rfl, rfl⟩
  | cons fee fees ih =>
    unfold feeFields at h
    simp only [List.forall₂_cons_right_iff, sameShape_text, ↓existsAndEq, exists_and_left,
      true_and, and_true] at h
    obtain ⟨receiver, instrumentAdmin, instrumentId, amount, gs', hrest, rfl⟩ := h
    obtain ⟨fees', hlen, rfl⟩ := ih hrest
    exact ⟨⟨receiver, instrumentAdmin, instrumentId, amount⟩ :: fees',
      congrArg Nat.succ hlen, rfl⟩

theorem feeFields_injective {i : Nat} {fees fees' : List AtomicLpFee}
    (h : feeFields i fees = feeFields i fees') : fees = fees' := by
  induction fees generalizing i fees' with
  | nil =>
    cases fees' with
    | nil => rfl
    | cons => cases h
  | cons fee fees ih =>
    cases fees' with
    | nil => cases h
    | cons fee' fees' =>
      unfold feeFields at h
      simp only [List.cons.injEq, text_inj] at h
      obtain ⟨hr, ha, hd, hm, hrest⟩ := h
      cases fee
      cases fee'
      cases hr
      cases ha
      cases hd
      cases hm
      rw [ih hrest]

/-! ## The block -/

theorem feeBlock_cons (fee : AtomicLpFee) (fees : List AtomicLpFee) :
    feeBlock (fee :: fees) = "fee_count".toList ++ '=' ::
      ((toString (fee :: fees).length).toList ++
        '\n' :: renderFields (feeFields 0 (fee :: fees))) :=
  render_some rfl _

theorem feeBlock_ne_nil (fee : AtomicLpFee) (fees : List AtomicLpFee) :
    feeBlock (fee :: fees) ≠ [] := by
  rw [feeBlock_cons]
  exact List.append_ne_nil_of_right_ne_nil _ (List.cons_ne_nil _ _)

/-- Fees are counted by their block and have the lines of the block. -/
theorem fields_of_feeBlock {fees fees' : List AtomicLpFee} (h : feeBlock fees = feeBlock fees') :
    fees.length = fees'.length ∧
      renderFields (feeFields 0 fees) = renderFields (feeFields 0 fees') := by
  cases fees with
  | nil =>
    cases fees' with
    | nil => exact ⟨rfl, rfl⟩
    | cons fee' fees' => exact absurd h.symm (feeBlock_ne_nil fee' fees')
  | cons fee fees =>
    cases fees' with
    | nil => exact absurd h (feeBlock_ne_nil fee fees)
    | cons fee' fees' =>
      rw [feeBlock_cons, feeBlock_cons] at h
      have lines := (List.cons.inj (List.append_cancel_left h)).2
      obtain ⟨hcount, hfields⟩ :=
        append_delimiter_inj (notMem_natText (by decide)) (notMem_natText (by decide)) lines
      exact ⟨natText_injective (String.toList_inj.mp hcount), hfields⟩

theorem feeBlock_eq_of_fields {fees fees' : List AtomicLpFee} (hlen : fees.length = fees'.length)
    (h : renderFields (feeFields 0 fees) = renderFields (feeFields 0 fees')) :
    feeBlock fees = feeBlock fees' := by
  cases fees with
  | nil =>
    cases fees' with
    | nil => rfl
    | cons => cases hlen
  | cons fee fees =>
    cases fees' with
    | nil => cases hlen
    | cons fee' fees' => rw [feeBlock_cons, feeBlock_cons, hlen, h]

/-- Clean fees are read back from their block. -/
theorem feeBlock_injective {fees fees' : List AtomicLpFee} (hfees : CleanFees fees)
    (hfees' : CleanFees fees') (h : feeBlock fees = feeBlock fees') : fees = fees' := by
  obtain ⟨hlen, hfields⟩ := fields_of_feeBlock h
  have same := renderFields_injective (feeFields_shape 0 hlen) (format_feeFields 0 fees') rfl rfl
    hfees hfees' (congrArg (· ++ []) hfields)
  exact feeFields_injective same.1

/-- Every fee block is that of clean fees. -/
theorem exists_cleanFees (fees : List AtomicLpFee) :
    ∃ fees', CleanFees fees' ∧ feeBlock fees' = feeBlock fees := by
  have reads : Reads NoTail (feeFields 0 fees) (renderFields (feeFields 0 fees) ++ []) :=
    reads_renderFields rfl
  obtain ⟨gs, y, shape, rfl, unbroken, text⟩ := exists_unbroken reads
  obtain ⟨fees', hlen, rfl⟩ := feeFields_of_shape shape
  exact ⟨fees', unbroken, feeBlock_eq_of_fields hlen (List.append_cancel_right text)⟩

end BookAgent.MessageSigning
