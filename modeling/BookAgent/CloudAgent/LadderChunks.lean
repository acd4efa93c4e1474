import BookAgent.Lib.DecimalRounding
import BookAgent.CloudAgent.SplitWorker

/-!
# Splitting a ladder in chunks

A ladder with more outputs than a transaction takes is split chunk by chunk: each is cut off the
remaining request in the order of the rungs (`cap_split_outputs`) and subtracted from it by
denomination (`subtract_split_chunk`). Whatever the order of the rungs, and however often a
denomination comes up, nothing is split twice and nothing is left.
-/

namespace BookAgent.CloudAgent

open BookAgent.Lib Decimal

variable {D : Type} [Decimal D]

/-! ## The loop -/

/-- What is spent of a denomination. -/
def spentOf (spent : Pool ℚ Nat) (denom : ℚ) : Nat := (spent.lookup denom).getD 0

/-- The counts of a chunk by denomination, equal decimals being one key. -/
def spentBy (chunk : List (D × Nat)) : Pool ℚ Nat :=
  chunk.foldl (fun spent s =>
    spent.insert (value s.1) (min (spentOf spent (value s.1) + s.2) u32Max)) ∅

/-- `get_mut`, less what is used. -/
def useUp (spent : Pool ℚ Nat) (denom : ℚ) (used : Nat) : Pool ℚ Nat :=
  match spent.lookup denom with
  | some avail => spent.insert denom (avail - used)
  | none => spent

/-- Take what was spent off the rungs, and drop those that are exhausted. -/
def subtractSpent : Pool ℚ Nat → List (D × Nat) → List (D × Nat)
  | _, [] => []
  | spent, (denom, count) :: rest =>
    let used := min count (spentOf spent (value denom))
    let spent := useUp spent (value denom) used
    if count > used then (denom, count - used) :: subtractSpent spent rest
    else subtractSpent spent rest

def subtractSplitChunk (remaining chunk : List (D × Nat)) : List (D × Nat) :=
  subtractSpent (spentBy chunk) remaining

/-- The chunks of at most `max` outputs that are split until nothing remains; none when the fuel
runs out first. -/
def splitInChunks (max : Nat) : Nat → List (D × Nat) → Option (List (List (D × Nat)))
  | _, [] => some []
  | 0, _ :: _ => none
  | fuel + 1, s :: rest =>
    let chunk := capSplitOutputs max (s :: rest) 0
    (splitInChunks max fuel (subtractSplitChunk (s :: rest) chunk)).map (chunk :: ·)

/-! ## Counting by denomination -/

/-- All outputs of some rungs. -/
def outputs (splits : List (D × Nat)) : Nat := (splits.map Prod.snd).sum

/-- The outputs of one denomination. -/
def outputsOf (denom : ℚ) : List (D × Nat) → Nat
  | [] => 0
  | s :: rest => (if value s.1 = denom then s.2 else 0) + outputsOf denom rest

omit [Decimal D] in
@[simp] theorem outputs_nil : outputs ([] : List (D × Nat)) = 0 := rfl

omit [Decimal D] in
@[simp] theorem outputs_cons (s : D × Nat) (rest : List (D × Nat)) :
    outputs (s :: rest) = s.2 + outputs rest := by
  simp [outputs]

@[simp] theorem outputsOf_nil (denom : ℚ) : outputsOf denom ([] : List (D × Nat)) = 0 := rfl

@[simp] theorem outputsOf_cons (denom : ℚ) (s : D × Nat) (rest : List (D × Nat)) :
    outputsOf denom (s :: rest) = (if value s.1 = denom then s.2 else 0) + outputsOf denom rest := rfl

/-! ## A chunk -/

section Cap

variable {max used : Nat} {splits : List (D × Nat)}

/-- What a chunk takes of each denomination the request has. -/
theorem outputsOf_cap_le (splits : List (D × Nat)) (max used : Nat) (denom : ℚ) :
    outputsOf denom (capSplitOutputs max splits used) ≤ outputsOf denom splits := by
  induction splits generalizing used with
  | nil => simp [capSplitOutputs]
  | cons s rest ih =>
    simp only [capSplitOutputs]
    split
    · simp
    · split
      · exact (ih used).trans (by simp)
      · have := ih (min (used + min s.2 (max - used)) u32Max)
        simp only [outputsOf_cons]
        split <;> omega

omit [Decimal D] in
theorem outputs_cap_le (splits : List (D × Nat)) (hmax : max ≤ u32Max) (hused : used ≤ max) :
    used + outputs (capSplitOutputs max splits used) ≤ max := by
  induction splits generalizing used with
  | nil => simpa [capSplitOutputs] using hused
  | cons s rest ih =>
    simp only [capSplitOutputs]
    split
    · simpa using hused
    · split
      · exact ih hused
      · have hnext : min (used + min s.2 (max - used)) u32Max = used + min s.2 (max - used) := by
          omega
        have hnext' : used + min s.2 (max - used) ≤ max := by omega
        have := ih hnext'
        rw [hnext, outputs_cons]
        omega

omit [Decimal D] in
theorem counts_cap (max used : Nat) (hsplits : ∀ s ∈ splits, 1 ≤ s.2) :
    ∀ s ∈ capSplitOutputs max splits used, 1 ≤ s.2 := by
  induction splits generalizing used with
  | nil => simp [capSplitOutputs]
  | cons s rest ih =>
    obtain ⟨-, hrest⟩ := List.forall_mem_cons.mp hsplits
    simp only [capSplitOutputs]
    split
    · simp
    · split
      · exact ih used hrest
      · rename_i htake
        exact List.forall_mem_cons.mpr ⟨Nat.one_le_iff_ne_zero.mpr htake, ih _ hrest⟩

omit [Decimal D] in
/-- A request with something left gives a chunk with something in it. -/
theorem cap_ne_nil (hmax : 1 ≤ max) (hsplits : ∀ s ∈ splits, 1 ≤ s.2) (hne : splits ≠ []) :
    capSplitOutputs max splits 0 ≠ [] := by
  obtain ⟨s, rest, rfl⟩ := List.exists_cons_of_ne_nil hne
  have hs := hsplits s List.mem_cons_self
  have htake : ¬ min s.2 (max - 0) = 0 := by omega
  have hfree : ¬ 0 ≥ max := by omega
  simp only [capSplitOutputs]
  rw [if_neg hfree, if_neg htake]
  exact List.cons_ne_nil _ _

end Cap

/-! ## What is left -/

section Subtract

variable {spent : Pool ℚ Nat} {splits chunk : List (D × Nat)} {denom : ℚ}

theorem spentOf_insert (spent : Pool ℚ Nat) (key denom : ℚ) (count : Nat) :
    spentOf (spent.insert key count) denom = if key = denom then count else spentOf spent denom := by
  unfold spentOf
  rw [Pool.lookup_insert_eq_ite]
  split <;> rename_i h
  · simp [h]
  · simp [Ne.symm h]

theorem spentOf_useUp (spent : Pool ℚ Nat) (key denom : ℚ) (used : Nat) :
    spentOf (useUp spent key used) denom
      = if key = denom then spentOf spent denom - used else spentOf spent denom := by
  unfold useUp
  cases hlookup : spent.lookup key with
  | some avail =>
    rw [spentOf_insert]
    split
    · rename_i h
      rw [← h, spentOf, hlookup, Option.getD_some]
    · rfl
  | none =>
    dsimp only
    split
    · rename_i h
      rw [← h, spentOf, hlookup, Option.getD_none, Nat.zero_sub]
    · rfl

/-- The spent counts are those of the chunk, as long as none is beyond a `u32`. -/
theorem spentOf_spentBy (hchunk : outputs chunk ≤ u32Max) :
    spentOf (spentBy chunk) denom = outputsOf denom chunk := by
  have hfold (spent : Pool ℚ Nat) (chunk : List (D × Nat))
      (hbound : ∀ denom, spentOf spent denom + outputs chunk ≤ u32Max) :
      spentOf (chunk.foldl (fun spent s => spent.insert (value s.1)
        (min (spentOf spent (value s.1) + s.2) u32Max)) spent) denom
        = spentOf spent denom + outputsOf denom chunk := by
    induction chunk generalizing spent with
    | nil => simp
    | cons s rest ih =>
      have hs := hbound (value s.1)
      simp only [outputs_cons] at hbound hs
      have hsum : min (spentOf spent (value s.1) + s.2) u32Max = spentOf spent (value s.1) + s.2 := by
        omega
      rw [List.foldl_cons, hsum, ih, spentOf_insert, outputsOf_cons]
      · split
        · rename_i h
          rw [h]
          omega
        · omega
      · intro denom
        have := hbound denom
        rw [spentOf_insert]
        split <;> omega
  have hempty (denom : ℚ) : spentOf ∅ denom = 0 := rfl
  have := hfold ∅ chunk fun denom => by
    rw [hempty]
    omega
  rw [hempty, Nat.zero_add] at this
  exact this

/-- Off each denomination comes what was spent of it, up to what there is. -/
theorem outputsOf_subtractSpent :
    outputsOf denom (subtractSpent spent splits)
      = outputsOf denom splits - spentOf spent denom := by
  induction splits generalizing spent with
  | nil => simp [subtractSpent]
  | cons s rest ih =>
    obtain ⟨rung, count⟩ := s
    simp only [subtractSpent]
    split
    · rw [outputsOf_cons, ih, spentOf_useUp, outputsOf_cons]
      dsimp only
      split
      · rename_i hdenom
        rw [hdenom]
        omega
      · omega
    · rw [ih, spentOf_useUp, outputsOf_cons]
      dsimp only
      split
      · rename_i hdenom
        rw [← hdenom] at *
        omega
      · omega

/-- Rungs that are exhausted are dropped. -/
theorem counts_subtractSpent : ∀ s ∈ subtractSpent spent splits, 1 ≤ s.2 := by
  induction splits generalizing spent with
  | nil => simp [subtractSpent]
  | cons s rest ih =>
    simp only [subtractSpent]
    split
    · rename_i hleft
      exact List.forall_mem_cons.mpr ⟨by dsimp only; omega, ih⟩
    · exact ih

/-- The other denominations do not grow either. -/
theorem outputs_subtractSpent_le (spent : Pool ℚ Nat) (splits : List (D × Nat)) (denom : ℚ) :
    outputs (subtractSpent spent splits) + outputsOf denom splits
      ≤ outputs splits + outputsOf denom (subtractSpent spent splits) := by
  induction splits generalizing spent with
  | nil => simp [subtractSpent]
  | cons s rest ih =>
    obtain ⟨rung, count⟩ := s
    simp only [subtractSpent]
    have := ih (useUp spent (value rung) (min count (spentOf spent (value rung))))
    split
    · rw [outputs_cons, outputsOf_cons, outputs_cons, outputsOf_cons]
      dsimp only
      split <;> omega
    · rw [outputs_cons, outputsOf_cons]
      dsimp only
      split <;> omega

end Subtract

/-! ## All chunks -/

/-- Chunks of a request: none is empty or above the cap, and together they split every
denomination as often as requested. -/
structure ChunksOf (max : Nat) (splits : List (D × Nat)) (chunks : List (List (D × Nat))) :
    Prop where
  nonempty : ∀ chunk ∈ chunks, chunk ≠ []
  counts : ∀ chunk ∈ chunks, ∀ s ∈ chunk, 1 ≤ s.2
  capped : ∀ chunk ∈ chunks, outputs chunk ≤ max
  conserved : ∀ denom, (chunks.map (outputsOf denom)).sum = outputsOf denom splits

section Chunk

variable {max : Nat} {splits : List (D × Nat)}

/-- What a chunk leaves of each denomination. -/
theorem outputsOf_subtractSplitChunk (splits : List (D × Nat)) (hu32 : max ≤ u32Max) (denom : ℚ) :
    outputsOf denom (subtractSplitChunk splits (capSplitOutputs max splits 0))
      = outputsOf denom splits - outputsOf denom (capSplitOutputs max splits 0) := by
  have hcap := outputs_cap_le splits hu32 (Nat.zero_le max)
  rw [Nat.zero_add] at hcap
  rw [subtractSplitChunk, outputsOf_subtractSpent, spentOf_spentBy (hcap.trans hu32)]

/-- Each chunk leaves less to split. -/
theorem outputs_subtractSplitChunk_lt (hmax : 1 ≤ max) (hu32 : max ≤ u32Max)
    (hsplits : ∀ s ∈ splits, 1 ≤ s.2) (hne : splits ≠ []) :
    outputs (subtractSplitChunk splits (capSplitOutputs max splits 0)) < outputs splits := by
  obtain ⟨first, others, hchunk⟩ :=
    List.exists_cons_of_ne_nil (cap_ne_nil hmax hsplits hne)
  have hfirst : 1 ≤ first.2 := by
    refine counts_cap max 0 hsplits first ?_
    rw [hchunk]
    exact List.mem_cons_self
  have hle := outputs_subtractSpent_le (spentBy (capSplitOutputs max splits 0)) splits
    (value first.1)
  have hleft := outputsOf_subtractSplitChunk splits hu32 (value first.1)
  have htaken := outputsOf_cap_le splits max 0 (value first.1)
  have hcount : 1 ≤ outputsOf (value first.1) (capSplitOutputs max splits 0) := by
    rw [hchunk, outputsOf_cons, if_pos rfl]
    omega
  unfold subtractSplitChunk at hleft ⊢
  omega

end Chunk

/-- **The chunks end, and conserve the ladder.** -/
theorem splitInChunks_conserves {max : Nat} {splits : List (D × Nat)} (hmax : 1 ≤ max)
    (hu32 : max ≤ u32Max) (hsplits : ∀ s ∈ splits, 1 ≤ s.2) :
    ∃ chunks, (∀ fuel ≥ outputs splits, splitInChunks max fuel splits = some chunks) ∧
      ChunksOf max splits chunks := by
  induction hn : outputs splits using Nat.strong_induction_on generalizing splits with
  | _ n ih =>
    subst hn
    cases splits with
    | nil =>
      refine ⟨[], fun fuel _ => by cases fuel <;> rfl, ?_⟩
      exact ⟨by simp, by simp, by simp, by simp⟩
    | cons s rest =>
      have hne : s :: rest ≠ [] := List.cons_ne_nil s rest
      have hlt := outputs_subtractSplitChunk_lt hmax hu32 hsplits hne
      have hcounts : ∀ left ∈ subtractSplitChunk (s :: rest) (capSplitOutputs max (s :: rest) 0),
          1 ≤ left.2 := fun left hleft => counts_subtractSpent left hleft
      obtain ⟨chunks, hrun, hchunks⟩ := ih _ hlt hcounts rfl
      refine ⟨capSplitOutputs max (s :: rest) 0 :: chunks, fun fuel hfuel => ?_, ?_⟩
      · obtain ⟨fuel, rfl⟩ : ∃ k, fuel = k + 1 := ⟨fuel - 1, by omega⟩
        rw [splitInChunks, hrun fuel (by omega)]
        rfl
      · have hcap := outputs_cap_le (s :: rest) hu32 (Nat.zero_le max)
        exact {
          nonempty := List.forall_mem_cons.mpr ⟨cap_ne_nil hmax hsplits hne, hchunks.nonempty⟩
          counts := List.forall_mem_cons.mpr ⟨counts_cap max 0 hsplits, hchunks.counts⟩
          capped := List.forall_mem_cons.mpr ⟨by omega, hchunks.capped⟩
          conserved := fun denom => by
            have htaken := outputsOf_cap_le (s :: rest) max 0 denom
            rw [List.map_cons, List.sum_cons, hchunks.conserved,
              outputsOf_subtractSplitChunk (s :: rest) hu32]
            omega }

/-! ## A ladder that names a denomination twice -/

/-- Of 150 first forty and later sixty more. -/
def repeatedLadder : List (RoundedDecimal × Nat) :=
  [(⟨150, by decide +kernel⟩, 40), (⟨300, by decide +kernel⟩, 20), (⟨150, by decide +kernel⟩, 60)]

theorem splitInChunks_conserves_repeated :
    ∃ chunks, (∀ fuel ≥ outputs repeatedLadder,
        splitInChunks maxSplitOutputsPerTx fuel repeatedLadder = some chunks) ∧
      ChunksOf maxSplitOutputsPerTx repeatedLadder chunks :=
  splitInChunks_conserves (by decide) (by decide) (by decide)

example : (splitInChunks maxSplitOutputsPerTx 2 repeatedLadder).map (List.map outputs)
    = some [90, 30] := by
  decide +kernel

end BookAgent.CloudAgent
