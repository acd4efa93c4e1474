import BookAgent.Lib.LargestFirst
import BookAgent.Lib.ReachedSum
import BookAgent.CloudAgent.PaymentQueue

/-!
# Selecting amulets

The amulets of an allocation (`select_amulet_indices`): the smallest one that covers the target,
else the largest ones, as few as reach it. There is a selection exactly if the hundred largest
amulets reach the target.
-/

namespace BookAgent.CloudAgent

open BookAgent.Lib Decimal

variable {D : Type} [Decimal D] {ascending : List D} {target : D}

/-- The amounts at the indices. -/
def amountsAt (ascending : List D) (indices : List Nat) : List D := indices.filterMap (ascending[·]?)

/-- What a selection from ascending amounts is, if it is none too. -/
structure AmuletsSelected (ascending : List D) (target : D) (selected : List Nat) : Prop where
  distinct : selected.Nodup
  valid : ∀ i ∈ selected, i < ascending.length
  reaches : selected ≠ [] → Reaches target (amountsAt ascending selected)
  /-- Fewer amounts, added up the largest first, fall short. -/
  fewest : ∀ others, others.Sublist ascending.reverse → others.length < selected.length →
    ¬ Reaches target others
  /-- The same in any order where the sums of the largest amounts are decimal numbers. -/
  exactly : (∀ largest, largest <+: ascending.reverse → IsDecimal (weight value largest)) →
    (selected ≠ [] → value target ≤ weight value (amountsAt ascending selected)) ∧
      ∀ others : List D, others.Subperm ascending → others.length < selected.length →
        weight value others < value target
  /-- Of the amounts that cover the target, the smallest. -/
  single : ∀ a ∈ ascending, value target ≤ value a → ∃ i b, selected = [i] ∧
    ascending[i]? = some b ∧ value target ≤ value b ∧
      ∀ c ∈ ascending, value target ≤ value c → value b ≤ value c

/-! ## From the largest on -/

section LargestFirst

omit [Decimal D] in
theorem fst_zipIdx_reverse (amounts : List D) :
    amounts.zipIdx.reverse.map Prod.fst = amounts.reverse := by
  rw [List.map_reverse, List.zipIdx_map_fst]

omit [Decimal D] in
theorem amountsAt_reverse (amounts : List D) (k : Nat) :
    amountsAt amounts ((amounts.zipIdx.reverse.take k).map Prod.snd) = amounts.reverse.take k := by
  have hread : ∀ e ∈ amounts.zipIdx.reverse.take k, amounts[e.2]? = some e.1 := fun e he =>
    List.mem_zipIdx_iff_getElem?.mp (List.mem_reverse.mp (List.mem_of_mem_take he))
  have htake : amounts.reverse.take k = (amounts.zipIdx.reverse.take k).map Prod.fst := by
    rw [List.map_take, fst_zipIdx_reverse]
  rw [htake]
  generalize amounts.zipIdx.reverse.take k = taken at hread
  induction taken with
  | nil => rfl
  | cons e taken ih =>
    obtain ⟨he, hread⟩ := List.forall_mem_cons.mp hread
    unfold amountsAt at ih ⊢
    simp only [List.map_cons, List.filterMap_cons, he, ih hread]

/-- The shortest run of the largest that reaches the target, or none within the inputs. -/
theorem largestFirst_spec (rest : List (D × Nat)) (selected : List Nat) {total : D}
    (hshort : ¬ value target ≤ value total) :
    (∃ k, selected.length + k < maxAmuletInputs ∧ k < rest.length ∧
      largestFirst target rest selected total = selected ++ (rest.take (k + 1)).map Prod.snd ∧
      ReachesFrom target total ((rest.take (k + 1)).map Prod.fst) ∧
      ∀ j ≤ k, ¬ ReachesFrom target total ((rest.take j).map Prod.fst)) ∨
    largestFirst target rest selected total = [] ∧
      ¬ ReachesFrom target total
        ((rest.take (maxAmuletInputs - selected.length)).map Prod.fst) := by
  induction rest generalizing selected total with
  | nil => exact .inr ⟨rfl, by simpa using hshort⟩
  | cons e rest ih =>
    obtain ⟨amount, i⟩ := e
    rw [largestFirst]
    split
    · rename_i hfull
      rw [Nat.sub_eq_zero_of_le hfull]
      exact .inr ⟨rfl, by simpa using hshort⟩
    · rename_i hfull
      have hzero : ∀ j ≤ 0, ¬ ReachesFrom target total
          ((((amount, i) :: rest).take j).map Prod.fst) := by
        intro j hj
        obtain rfl : j = 0 := by omega
        simpa using hshort
      cases hsum : checkedAdd total amount with
      | none =>
        refine .inl ⟨0, by omega, by simp, rfl, ?_, hzero⟩
        exact reachesFrom_cons_none hsum
      | some next =>
        dsimp only
        split
        · rename_i hle
          refine .inl ⟨0, by omega, by simp, rfl, ?_, hzero⟩
          have hnext : value target ≤ value next := of_decide_eq_true hle
          exact (reachesFrom_cons_some hsum).mpr hnext
        · rename_i hle
          have hnext : ¬ value target ≤ value next := fun h => hle (decide_eq_true h)
          rcases ih (selected ++ [i]) hnext with
            ⟨k, hcap, hk, hresult, hreaches, hleast⟩ | ⟨hresult, hnone⟩
          · refine .inl ⟨k + 1, ?_, by simpa using hk, ?_, ?_, ?_⟩
            · simp only [List.length_append, List.length_singleton] at hcap
              omega
            · simp [hresult]
            · rw [List.take_succ_cons, List.map_cons]
              exact (reachesFrom_cons_some hsum).mpr hreaches
            · intro j hj
              cases j with
              | zero => exact hzero 0 le_rfl
              | succ j =>
                rw [List.take_succ_cons, List.map_cons, reachesFrom_cons_some hsum]
                exact hleast j (by omega)
          · refine .inr ⟨hresult, ?_⟩
            have hleft : maxAmuletInputs - selected.length
                = (maxAmuletInputs - (selected ++ [i]).length) + 1 := by
              simp only [List.length_append, List.length_singleton]
              omega
            rw [hleft, List.take_succ_cons, List.map_cons, reachesFrom_cons_some hsum]
            exact hnone

end LargestFirst

/-! ## The selection -/

section Selection

variable [Rounding D] (hasc : ascending.Pairwise fun a b => value a ≤ value b)
  (hpos : ∀ a ∈ ascending, 0 < value a)

include hasc hpos

/-- As many of the largest reach what the others reach, and so do more of the largest. -/
theorem reaches_take {others : List D} (hothers : others.Sublist ascending.reverse) {k : Nat}
    (hk : others.length ≤ k) (h : Reaches target others) :
    Reaches target (ascending.reverse.take k) := by
  have hnonneg : ∀ d ∈ ascending.reverse, 0 ≤ value d := fun d hd =>
    (hpos d (List.mem_reverse.mp hd)).le
  have hdesc : ascending.reverse.Pairwise fun a b => value b ≤ value a :=
    List.pairwise_reverse.mpr hasc
  refine h.mono (List.sublistForall₂_iff.mpr ⟨_, forall₂_take hdesc hothers, ?_⟩) ?_ ?_
  · exact (List.take_prefix_take_left hk).sublist
  · exact fun d hd => hnonneg d (hothers.subset hd)
  · exact fun d hd => hnonneg d (List.mem_of_mem_take hd)

omit hasc hpos in
theorem reaches_singleton {d : D} : Reaches target [d] ↔ value target ≤ value d := by
  have hdecimal : IsDecimal (value (zero : D) + value d) := by
    rw [Rounding.value_zero, zero_add]
    exact Rounding.isDecimal d
  obtain ⟨sum, hsum, hvalue⟩ := Lawful.checkedAdd hdecimal
  rw [Reaches, reachesFrom_cons_some hsum, reachesFrom_nil, hvalue, Rounding.value_zero, zero_add]

/-- Shorter parts of the list, if what is selected is no more than its shortest run. -/
theorem exactly_of_shortest {k : Nat}
    (hreaches : Reaches target (ascending.reverse.take (k + 1)))
    (hleast : ∀ j ≤ k, ¬ Reaches target (ascending.reverse.take j))
    (hexact : ∀ largest, largest <+: ascending.reverse → IsDecimal (weight value largest)) :
    value target ≤ weight value (ascending.reverse.take (k + 1)) ∧
      ∀ others : List D, others.Subperm ascending → others.length < k + 1 →
        weight value others < value target := by
  have hsum (j : Nat) : Reaches target (ascending.reverse.take j)
      ↔ value target ≤ weight value (ascending.reverse.take j) :=
    reaches_iff_of_exact fun front hfront => hexact front (hfront.trans (List.take_prefix _ _))
  refine ⟨(hsum _).mp hreaches, fun others hothers hlen => ?_⟩
  obtain ⟨others', hperm, hsub⟩ := hothers
  have hle : weight value others'.reverse ≤ weight value (ascending.reverse.take others.length) := by
    refine weight_le_take (List.pairwise_reverse.mpr hasc) ?_ hsub.reverse ?_
    · exact fun d hd => (hpos d (List.mem_reverse.mp hd)).le
    · rw [List.length_reverse, hperm.length_eq]
  rw [weight_perm (List.reverse_perm others'), weight_perm hperm] at hle
  refine hle.trans_lt (not_le.mp fun h => ?_)
  exact hleast others.length (by omega) ((hsum _).mpr h)

theorem amuletsSelected_single {i : Nat} (htarget : 0 < value target)
    (hfind : ascending.findIdx? (Decimal.le target) = some i) :
    AmuletsSelected ascending target [i] ∧
      Reaches target (ascending.reverse.take maxAmuletInputs) := by
  obtain ⟨hi, hcovers, hbefore⟩ := List.findIdx?_eq_some_iff_getElem.mp hfind
  have hle : value target ≤ value ascending[i] := of_decide_eq_true hcovers
  have hread : amountsAt ascending [i] = [ascending[i]] := by simp [amountsAt, hi]
  have hnone : ¬ Reaches target ([] : List D) := by
    rw [Reaches, reachesFrom_nil, Rounding.value_zero]
    exact not_le.mpr htarget
  have hmem : [ascending[i]].Sublist ascending.reverse :=
    List.singleton_sublist.mpr (List.mem_reverse.mpr (List.getElem_mem hi))
  have hreaches : Reaches target [ascending[i]] := reaches_singleton.mpr hle
  have hcap : [ascending[i]].length ≤ maxAmuletInputs := by simp [maxAmuletInputs]
  refine ⟨?_, reaches_take hasc hpos hmem hcap hreaches⟩
  exact {
    distinct := List.nodup_singleton i
    valid := by simpa using hi
    reaches := fun _ => hread ▸ hreaches
    fewest := fun others _ hlen => by
      rw [List.length_singleton, Nat.lt_one_iff, List.length_eq_zero_iff] at hlen
      exact hlen ▸ hnone
    exactly := fun _ => by
      refine ⟨fun _ => ?_, fun others _ hlen => ?_⟩
      · rw [hread]
        simpa using hle
      · rw [List.length_singleton, Nat.lt_one_iff, List.length_eq_zero_iff] at hlen
        rw [hlen]
        exact htarget
    single := fun a _ _ => by
      refine ⟨i, ascending[i], rfl, by simp [hi], hle, fun c hc hcle => ?_⟩
      obtain ⟨j, hj, rfl⟩ := List.mem_iff_getElem.mp hc
      -- an earlier one does not cover the target
      have hij : i ≤ j := not_lt.mp fun hlt => hbefore j hlt (decide_eq_true hcle)
      rcases hij.lt_or_eq with hlt | rfl
      · exact List.pairwise_iff_getElem.mp hasc i j hi hj hlt
      · exact le_rfl }

/-- **A selection is there exactly if the largest amulets reach the target, and is the
smallest one.** -/
theorem selectAmuletIndices_minimal (htarget : 0 < value target) :
    (selectAmuletIndices ascending target ≠ [] ↔
      Reaches target (ascending.reverse.take maxAmuletInputs)) ∧
    AmuletsSelected ascending target (selectAmuletIndices ascending target) := by
  have hstart : ¬ value target ≤ value (zero : D) := by
    rw [Rounding.value_zero]
    exact not_le.mpr htarget
  have hasked : ¬ Decimal.le target (zero : D) = true := fun h => hstart (of_decide_eq_true h)
  unfold selectAmuletIndices
  rw [if_neg hasked]
  cases hfind : ascending.findIdx? (Decimal.le target) with
  | some i =>
    obtain ⟨hselected, hreaches⟩ := amuletsSelected_single hasc hpos htarget hfind
    exact ⟨iff_of_true (List.cons_ne_nil i []) hreaches, hselected⟩
  | none =>
    have hsmall : ∀ a ∈ ascending, ¬ value target ≤ value a := fun a ha h => by
      have := List.findIdx?_eq_none_iff.mp hfind a ha
      exact Bool.false_ne_true (this.symm.trans (decide_eq_true h))
    have htake (k : Nat) : (ascending.zipIdx.reverse.take k).map Prod.fst
        = ascending.reverse.take k := by
      rw [List.map_take, fst_zipIdx_reverse]
    dsimp only
    rcases largestFirst_spec ascending.zipIdx.reverse [] hstart with
      ⟨k, hcap, hk, hresult, hreaches, hleast⟩ | ⟨hresult, hnone⟩
    · rw [hresult, List.nil_append]
      simp only [htake, List.length_nil, Nat.zero_add] at hreaches hleast hcap
      have hlen : ((ascending.zipIdx.reverse.take (k + 1)).map Prod.snd).length = k + 1 := by
        rw [List.length_map, List.length_take]
        omega
      have hne : (ascending.zipIdx.reverse.take (k + 1)).map Prod.snd ≠ [] := fun h => by
        simp [h] at hlen
      refine ⟨iff_of_true hne ?_, ?_⟩
      · have htaken : (ascending.reverse.take (k + 1)).length ≤ maxAmuletInputs :=
          (List.length_take_le _ _).trans hcap
        exact reaches_take hasc hpos (List.take_sublist _ _) htaken hreaches
      · exact {
          distinct := by
            refine List.Nodup.sublist ((List.take_sublist _ _).map _) ?_
            rw [List.map_reverse, List.nodup_reverse, List.zipIdx_map_snd]
            exact List.nodup_range'
          valid := fun i hi => by
            obtain ⟨e, he, rfl⟩ := List.mem_map.mp hi
            have hread := List.mem_zipIdx_iff_getElem?.mp
              (List.mem_reverse.mp (List.mem_of_mem_take he))
            exact (List.getElem?_eq_some_iff.mp hread).1
          reaches := fun _ => by
            rw [amountsAt_reverse]
            exact hreaches
          fewest := fun others hothers hshorter h => by
            rw [hlen] at hshorter
            exact hleast others.length (by omega) (reaches_take hasc hpos hothers le_rfl h)
          exactly := fun hexact => by
            rw [amountsAt_reverse, hlen]
            obtain ⟨hcovers, hfewest⟩ := exactly_of_shortest hasc hpos hreaches hleast hexact
            exact ⟨fun _ => hcovers, hfewest⟩
          single := fun a ha hle => absurd hle (hsmall a ha) }
    · rw [hresult]
      rw [htake] at hnone
      refine ⟨iff_of_false (not_not.mpr rfl) hnone, ?_⟩
      exact {
        distinct := List.nodup_nil
        valid := fun i hi => absurd hi List.not_mem_nil
        reaches := fun h => absurd rfl h
        fewest := fun others _ hlen => absurd hlen (Nat.not_lt_zero _)
        exactly := fun _ => ⟨fun h => absurd rfl h, fun _ _ hlen => absurd hlen (Nat.not_lt_zero _)⟩
        single := fun a ha hle => absurd hle (hsmall a ha) }

end Selection

/-! ## Three amulets -/

/-- Amulets of four, five and six. -/
def threeAmounts : List RoundedDecimal :=
  [Decimal.new 4 0, Decimal.new 5 0, Decimal.new 6 0]

def eightCc : RoundedDecimal := Decimal.new 8 0

/-- Eight takes the amulets of six and five. -/
theorem selectAmuletIndices_minimal_eight :
    (selectAmuletIndices threeAmounts eightCc ≠ [] ↔
      Reaches eightCc (threeAmounts.reverse.take maxAmuletInputs)) ∧
    AmuletsSelected threeAmounts eightCc (selectAmuletIndices threeAmounts eightCc) :=
  selectAmuletIndices_minimal (by decide +kernel) (by decide +kernel) (by decide +kernel)

example : selectAmuletIndices threeAmounts eightCc = [2, 1] := by
  decide +kernel

end BookAgent.CloudAgent
