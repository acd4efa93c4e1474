import Mathlib.Data.List.Infix
import BookAgent.Lib.DecimalRange
import BookAgent.Lib.LargestFirst
import BookAgent.CloudAgent.Selection

/-!
# The fewest inputs

`select_from` takes the largest holdings until they reach the target, so no fewer can reach
it, and then puts the smallest holding that will do in the place of the last. Amounts are
added up in `Decimal`, which is exact as long as the sums are decimal numbers.
-/

namespace BookAgent.CloudAgent.HoldingsCache

open BookAgent.Lib

variable {D : Type} [Decimal D]

/-- The exact sum of the amounts. -/
def amountOf (holdings : List (CachedHolding D)) : ℚ :=
  weight (fun h => Decimal.value h.amount) holdings

@[simp] theorem amountOf_nil : amountOf ([] : List (CachedHolding D)) = 0 := rfl

@[simp] theorem amountOf_cons (h : CachedHolding D) (hs : List (CachedHolding D)) :
    amountOf (h :: hs) = Decimal.value h.amount + amountOf hs :=
  weight_cons h hs

@[simp] theorem amountOf_append (hs hs' : List (CachedHolding D)) :
    amountOf (hs ++ hs') = amountOf hs + amountOf hs' :=
  weight_append hs hs'

theorem amountOf_singleton (h : CachedHolding D) : amountOf [h] = Decimal.value h.amount :=
  add_zero _

theorem amountOf_perm {hs hs' : List (CachedHolding D)} (h : hs.Perm hs') :
    amountOf hs = amountOf hs' :=
  weight_perm h

def contractIds (holdings : List (CachedHolding D)) : List String :=
  holdings.map CachedHolding.contractId

variable {selectable picks : List (CachedHolding D)} {target : D} {maxInputs : Nat}

/-! ## The greedy run -/

/-- The greedy run takes the largest holdings, up to the one that reaches the target. -/
theorem greedy_spec [Decimal.Lawful D] {n : Nat} {hs picks : List (CachedHolding D)} {total : D}
    (hshort : Decimal.value total < Decimal.value target)
    (hrange : ∀ front, front <+: hs → IsDecimal (Decimal.value total + amountOf front)) :
    ∃ taken total', greedy target n hs picks total = some (picks ++ taken, total') ∧
      taken <+: hs ∧ taken.length ≤ n ∧
      Decimal.value total' = Decimal.value total + amountOf taken ∧
      (Decimal.value total' < Decimal.value target ∧ taken = hs.take n ∨
        Decimal.value target ≤ Decimal.value total' ∧ ∃ init last, taken = init ++ [last] ∧
          Decimal.value total + amountOf init < Decimal.value target) := by
  induction n generalizing hs picks total with
  | zero =>
    refine ⟨[], total, ?_, List.nil_prefix, Nat.zero_le _, ?_, .inl ⟨hshort, rfl⟩⟩
    · rw [List.append_nil]
      rfl
    · rw [amountOf_nil, add_zero]
  | succ n ih =>
    cases hs with
    | nil =>
      refine ⟨[], total, ?_, List.nil_prefix, Nat.zero_le _, ?_, .inl ⟨hshort, rfl⟩⟩
      · rw [List.append_nil]
        rfl
      · rw [amountOf_nil, add_zero]
    | cons h hs =>
      have hfirst := hrange [h] ⟨hs, rfl⟩
      rw [amountOf_singleton] at hfirst
      obtain ⟨next, hnext, hvalue⟩ := Decimal.Lawful.checkedAdd hfirst
      rw [greedy, hnext]
      by_cases hreached : Decimal.value target ≤ Decimal.value next
      · refine ⟨[h], next, ?_, ⟨hs, rfl⟩, Nat.le_add_left 1 n, ?_, .inr ⟨hreached, [], h, rfl, ?_⟩⟩
        · exact if_pos (decide_eq_true hreached)
        · rw [hvalue, amountOf_singleton]
        · rwa [amountOf_nil, add_zero]
      · obtain ⟨taken, total', hrun, hfront, hlen, htotal, hend⟩ :=
          @ih hs (picks ++ [h]) next (not_le.mp hreached) fun front hfront => by
            have hrest := hrange (h :: front) ((List.prefix_cons_inj h).mpr hfront)
            rwa [amountOf_cons, ← add_assoc, ← hvalue] at hrest
        refine ⟨h :: taken, total', ?_, (List.prefix_cons_inj h).mpr hfront,
          Nat.succ_le_succ hlen, ?_, ?_⟩
        · refine (if_neg fun hle => hreached (of_decide_eq_true hle)).trans ?_
          rw [hrun, List.append_assoc]
          rfl
        · rw [htotal, hvalue, amountOf_cons, add_assoc]
        · rcases hend with ⟨hlt, htaken⟩ | ⟨hle, init, last, htaken, hinit⟩
          · exact .inl ⟨hlt, by rw [htaken, List.take_succ_cons]⟩
          · refine .inr ⟨hle, h :: init, last, by rw [htaken]; rfl, ?_⟩
            rwa [amountOf_cons, ← add_assoc, ← hvalue]

/-! ## The last pick -/

/-- The largest holdings, with the smallest that will do in the place of the last. -/
structure Tightened (selectable : List (CachedHolding D)) (target : D) (maxInputs : Nat)
    (init : List (CachedHolding D)) (last : CachedHolding D) : Prop where
  largest : init <+: selectable.reverse
  nonempty : init ≠ []
  capped : init.length < maxInputs
  short : amountOf init < Decimal.value target
  covers : Decimal.value target ≤ amountOf (init ++ [last])
  mem : last ∈ selectable
  fresh : last.contractId ∉ contractIds init
  smallest : ∀ h ∈ selectable, h.contractId ∉ contractIds init →
    Decimal.value target ≤ amountOf (init ++ [h]) →
    Decimal.value last.amount ≤ Decimal.value h.amount

/-- The holdings that a selection is made among. -/
structure Selectable (selectable : List (CachedHolding D)) : Prop where
  ascending : selectable.Pairwise fun a b => Decimal.value a.amount ≤ Decimal.value b.amount
  nonneg : ∀ h ∈ selectable, 0 ≤ Decimal.value h.amount
  nodup : (contractIds selectable).Nodup
  /-- The sums of the largest are decimal numbers. -/
  inRange : ∀ largest, largest <+: selectable.reverse → IsDecimal (amountOf largest)

theorem find?_ascending {p : CachedHolding D → Bool} {found : CachedHolding D}
    (hasc : selectable.Pairwise fun a b => Decimal.value a.amount ≤ Decimal.value b.amount)
    (hfind : selectable.find? p = some found) {h : CachedHolding D} (hmem : h ∈ selectable)
    (hp : p h = true) : Decimal.value found.amount ≤ Decimal.value h.amount := by
  obtain ⟨-, front, back, rfl, hfront⟩ := List.find?_eq_some_iff_append.mp hfind
  rcases List.mem_append.mp hmem with hmem | hmem
  · exact absurd hp (by simpa using hfront h hmem)
  · rcases List.mem_cons.mp hmem with rfl | hmem
    · exact le_rfl
    · exact List.rel_of_pairwise_cons (List.pairwise_append.mp hasc).2.1 hmem

namespace Selectable

variable {init : List (CachedHolding D)} {last : CachedHolding D}

theorem descending (hs : Selectable selectable) :
    selectable.reverse.Pairwise fun a b => Decimal.value b.amount ≤ Decimal.value a.amount :=
  List.pairwise_reverse.mpr hs.ascending

omit [Decimal D] in
theorem prefix_mem {largest : List (CachedHolding D)} (hfront : largest <+: selectable.reverse) :
    ∀ h ∈ largest, h ∈ selectable :=
  fun _ hh => List.mem_reverse.mp (hfront.subset hh)

theorem nodup_prefix (hs : Selectable selectable) {largest : List (CachedHolding D)}
    (hfront : largest <+: selectable.reverse) : (contractIds largest).Nodup := by
  refine List.Nodup.sublist (hfront.sublist.map _) ?_
  rw [List.map_reverse]
  exact List.nodup_reverse.mpr hs.nodup

theorem last_fresh (hs : Selectable selectable) (hfront : init ++ [last] <+: selectable.reverse) :
    last.contractId ∉ contractIds init := by
  have hnodup := hs.nodup_prefix hfront
  unfold contractIds at hnodup
  rw [List.map_append, List.map_singleton] at hnodup
  intro hmem
  exact List.disjoint_of_nodup_append hnodup hmem List.mem_cons_self

/-- The last of the largest is no larger than the others together. -/
theorem last_le (hs : Selectable selectable) (hfront : init ++ [last] <+: selectable.reverse)
    (hinit : init ≠ []) : Decimal.value last.amount ≤ amountOf init := by
  have hdesc := hs.descending.sublist hfront.sublist
  have hinitMem := prefix_mem ((List.prefix_append init [last]).trans hfront)
  cases init with
  | nil => exact absurd rfl hinit
  | cons h rest =>
    have hfirst : Decimal.value last.amount ≤ Decimal.value h.amount :=
      (List.pairwise_append.mp hdesc).2.2 h List.mem_cons_self last List.mem_cons_self
    have hrest : 0 ≤ amountOf rest :=
      weight_nonneg fun a ha => hs.nonneg a (hinitMem a (List.mem_cons_of_mem h ha))
    rw [amountOf_cons]
    exact hfirst.trans (le_add_of_nonneg_right hrest)

end Selectable

variable [Decimal.Lawful D]

/-- What stands in for the last of the largest holdings. -/
theorem tightenLast_spec (hs : Selectable selectable) {init : List (CachedHolding D)}
    {last : CachedHolding D} {total : D} (hfront : init ++ [last] <+: selectable.reverse)
    (hinit : init ≠ []) (hcap : init.length < maxInputs)
    (htotal : Decimal.value total = amountOf (init ++ [last]))
    (hshort : amountOf init < Decimal.value target)
    (hcovers : Decimal.value target ≤ amountOf (init ++ [last])) :
    Tightened selectable target maxInputs init
      ((tightenLast selectable target total init last).getD last) := by
  have hinitPrefix : init <+: selectable.reverse := (List.prefix_append init [last]).trans hfront
  have hlast : last ∈ selectable :=
    Selectable.prefix_mem hfront last (List.mem_append_right init List.mem_cons_self)
  have happend (h : CachedHolding D) : amountOf (init ++ [h]) =
      amountOf init + Decimal.value h.amount := by
    rw [amountOf_append, amountOf_singleton]
  have hle := hs.last_le hfront hinit
  rw [happend] at htotal hcovers
  -- both differences are exact
  have hothersEq : Decimal.value total - Decimal.value last.amount = amountOf init := by
    rw [htotal, add_sub_cancel_right]
  have hinitRange := hs.inRange init hinitPrefix
  obtain ⟨others, hothers, hothersValue⟩ := Decimal.Lawful.checkedSub (hothersEq ▸ hinitRange)
  rw [hothersEq] at hothersValue
  have hresRange : IsDecimal (Decimal.value target - Decimal.value others) := by
    rw [hothersValue]
    exact (Decimal.Lawful.isDecimal target).residual hinitRange hshort.le (by linarith)
  obtain ⟨residual, hresidual, hresValue⟩ := Decimal.Lawful.checkedSub hresRange
  rw [hothersValue] at hresValue
  let fits (h : CachedHolding D) : Bool :=
    Decimal.le residual h.amount && decide (h.contractId ∉ contractIds init)
  have hfits (h : CachedHolding D) : fits h = true ↔
      Decimal.value target ≤ amountOf (init ++ [h]) ∧ h.contractId ∉ contractIds init := by
    rw [Bool.and_eq_true, decide_eq_true_eq, Decimal.le, decide_eq_true_eq, hresValue, happend,
      sub_le_iff_le_add']
  have htighten : tightenLast selectable target total init last = selectable.find? fits := by
    unfold tightenLast
    rw [hothers, Option.bind_eq_bind, Option.bind_some, hresidual]
    rfl
  obtain ⟨found, hfound⟩ : ∃ found, selectable.find? fits = some found := by
    refine Option.isSome_iff_exists.mp (List.find?_isSome.mpr ⟨last, hlast, ?_⟩)
    exact (hfits last).mpr ⟨(happend last).symm ▸ hcovers, hs.last_fresh hfront⟩
  obtain ⟨hfoundCovers, hfoundFresh⟩ := (hfits found).mp (List.find?_some hfound)
  rw [htighten, hfound, Option.getD_some]
  exact {
    largest := hinitPrefix
    nonempty := hinit
    capped := hcap
    short := hshort
    covers := hfoundCovers
    mem := List.mem_of_find?_eq_some hfound
    fresh := hfoundFresh
    smallest := fun h hmem hfresh hcovers =>
      find?_ascending hs.ascending hfound hmem ((hfits h).mpr ⟨hcovers, hfresh⟩) }

/-! ## What a selection returns -/

/-- A single holding that covers the target, or the largest holdings with the last one
tightened; nothing when the largest do not cover it, and no holding when none is needed. -/
inductive Selected (selectable : List (CachedHolding D)) (target : D) (maxInputs : Nat) :
    Option (List (CachedHolding D)) → Prop
  | single (h : CachedHolding D) (mem : h ∈ selectable)
      (covers : Decimal.value target ≤ Decimal.value h.amount) : Selected selectable target
        maxInputs (some [h])
  | tightened (init : List (CachedHolding D)) (last : CachedHolding D)
      (picks : Tightened selectable target maxInputs init last) : Selected selectable target
        maxInputs (some (init ++ [last]))
  | unneeded (nonpos : Decimal.value target ≤ 0) : Selected selectable target maxInputs (some [])
  | short (each : ∀ h ∈ selectable, Decimal.value h.amount < Decimal.value target)
      (short : amountOf (selectable.reverse.take maxInputs) < Decimal.value target) :
      Selected selectable target maxInputs none

omit [Decimal.Lawful D] in
theorem greedy_nil (n : Nat) (picks : List (CachedHolding D)) (total : D) :
    greedy target n [] picks total = some (picks, total) := by
  cases n with
  | zero => rfl
  | succ n => rfl

theorem selectFrom_spec (hs : Selectable selectable) :
    Selected selectable target maxInputs (selectFrom selectable target maxInputs) := by
  have hzero : Decimal.value (Decimal.zero : D) = 0 := Decimal.Lawful.value_zero
  unfold selectFrom
  cases hsingle : selectable.find? fun h => Decimal.le target h.amount with
  | some h =>
    have hcovers := List.find?_some hsingle
    exact .single h (List.mem_of_find?_eq_some hsingle) (of_decide_eq_true hcovers)
  | none =>
    have heach : ∀ h ∈ selectable, Decimal.value h.amount < Decimal.value target := fun h hmem =>
      not_le.mp fun hle => List.find?_eq_none.mp hsingle h hmem (decide_eq_true hle)
    dsimp only
    rcases le_or_gt (Decimal.value target) 0 with hnonpos | htarget
    · -- any holding would have covered it
      obtain rfl : selectable = [] := List.eq_nil_iff_forall_not_mem.mpr fun h hmem =>
        (hs.nonneg h hmem).not_gt ((heach h hmem).trans_le hnonpos)
      have hlt : ¬ Decimal.lt (Decimal.zero : D) target = true := by
        rw [Decimal.lt, decide_eq_true_eq, hzero]
        exact hnonpos.not_gt
      rw [List.reverse_nil, greedy_nil, Option.bind_eq_bind, Option.bind_some, if_neg hlt]
      exact .unneeded hnonpos
    · have hstart : Decimal.value (Decimal.zero : D) < Decimal.value target := by
        rw [hzero]
        exact htarget
      obtain ⟨taken, total, hrun, hfront, hlen, htotal, hend⟩ :=
        @greedy_spec D _ target _ maxInputs selectable.reverse [] Decimal.zero hstart
          fun front hfront => by
            rw [hzero, zero_add]
            exact hs.inRange front hfront
      rw [hzero, zero_add] at htotal
      rw [hrun, Option.bind_eq_bind, Option.bind_some, List.nil_append]
      rcases hend with ⟨hshort, htaken⟩ | ⟨hcovers, init, last, rfl, hinit⟩
      · have hlt : Decimal.lt total target = true := decide_eq_true hshort
        rw [if_pos hlt]
        exact .short heach (by rwa [← htaken, ← htotal])
      · have hlt : ¬ Decimal.lt total target = true := fun h =>
          hcovers.not_gt (of_decide_eq_true h)
        rw [hzero, zero_add] at hinit
        rw [htotal] at hcovers
        -- a single pick would have covered the target on its own
        have hne : init ≠ [] := by
          rintro rfl
          rw [List.nil_append, amountOf_singleton] at hcovers
          exact (heach last (Selectable.prefix_mem hfront last List.mem_cons_self)).not_ge hcovers
        have hcap : init.length < maxInputs := by
          rwa [List.length_append, List.length_singleton] at hlen
        rw [if_neg hlt, List.getLast?_concat, List.dropLast_concat]
        obtain ⟨first, rest, rfl⟩ := List.exists_cons_of_ne_nil hne
        exact .tightened _ _ (tightenLast_spec hs hfront hne hcap htotal hinit hcovers)

omit [Decimal.Lawful D] in
/-- The largest holdings before the last do not reach the target, nor do as many others. -/
theorem Tightened.fewest (hs : Selectable selectable) {init sub : List (CachedHolding D)}
    {last : CachedHolding D} (h : Tightened selectable target maxInputs init last)
    (hsub : sub.Subperm selectable) (hlen : sub.length ≤ init.length) :
    amountOf sub < Decimal.value target := by
  obtain ⟨sub', hperm, hsub'⟩ := hsub
  have hle : amountOf sub'.reverse ≤ amountOf (selectable.reverse.take init.length) := by
    refine weight_le_take hs.descending (fun a ha => hs.nonneg a (List.mem_reverse.mp ha))
      hsub'.reverse ?_
    rwa [List.length_reverse, hperm.length_eq]
  rw [← List.prefix_iff_eq_take.mp h.largest, amountOf_perm (List.reverse_perm sub'),
    amountOf_perm hperm] at hle
  exact hle.trans_lt h.short

/-- **No fewer holdings reach the target**, and no smaller one could take the place of the
last. -/
theorem selectFrom_fewest (hs : Selectable selectable) (htarget : 0 < Decimal.value target)
    (h : selectFrom selectable target maxInputs = some picks) :
    (∀ sub : List (CachedHolding D), sub.Subperm selectable → sub.length < picks.length →
        amountOf sub < Decimal.value target) ∧
      ∀ (init : List (CachedHolding D)) (last : CachedHolding D), picks = init ++ [last] →
        init ≠ [] → ∀ other ∈ selectable, other ∉ picks →
        Decimal.value other.amount < Decimal.value last.amount →
        amountOf (init ++ [other]) < Decimal.value target := by
  have hspec : Selected selectable target maxInputs (some picks) := h ▸ selectFrom_spec hs
  cases hspec with
  | unneeded hnonpos => exact absurd htarget hnonpos.not_gt
  | single found mem covers =>
    refine ⟨fun sub _ hlen => ?_, fun init last heq hne => ?_⟩
    · rw [List.length_singleton, Nat.lt_one_iff, List.length_eq_zero_iff] at hlen
      rw [hlen]
      exact htarget
    · have hlen := congrArg List.length heq
      rw [List.length_append, List.length_singleton, List.length_singleton] at hlen
      exact absurd (List.length_eq_zero_iff.mp (by omega)) hne
  | tightened init last hpicks =>
    refine ⟨fun sub hsub hlen => hpicks.fewest hs hsub ?_, ?_⟩
    · rw [List.length_append, List.length_singleton] at hlen
      exact Nat.le_of_lt_succ hlen
    · intro init' last' heq _ other hother hfresh hsmaller
      obtain ⟨rfl, hlast⟩ := List.append_inj' heq rfl
      obtain rfl := List.singleton_inj.mp hlast
      refine not_le.mp fun hcovers => hsmaller.not_ge ?_
      refine hpicks.smallest other hother (fun hid => hfresh ?_) hcovers
      obtain ⟨same, hsame, hid⟩ := List.mem_map.mp hid
      have hmem := Selectable.prefix_mem hpicks.largest same hsame
      rw [← List.inj_on_of_nodup_map hs.nodup hmem hother hid]
      exact List.mem_append_left _ hsame

/-! ## Three holdings -/

/-- A holding whose blob is known. -/
def holdingOf (contractId : String) (amount : ExactDecimal) : CachedHolding ExactDecimal :=
  ⟨contractId, "Holding", "USDC", amount, some "blob", "global", 0⟩

def four : ExactDecimal := ⟨4, by decide +kernel⟩

def five : ExactDecimal := ⟨5, by decide +kernel⟩

def six : ExactDecimal := ⟨6, by decide +kernel⟩

def eight : ExactDecimal := ⟨8, by decide +kernel⟩

def threeHoldings : List (CachedHolding ExactDecimal) :=
  [holdingOf "a" four, holdingOf "b" five, holdingOf "c" six]

theorem selectable_threeHoldings : Selectable threeHoldings where
  ascending := by decide +kernel
  nonneg := by decide +kernel
  nodup := by decide
  inRange largest h :=
    (by decide +kernel : ∀ front ∈ threeHoldings.reverse.inits, IsDecimal (amountOf front)) largest
      ((List.mem_inits largest _).mpr h)

/-- Eight is funded with the holdings of six and of four. -/
theorem selectFrom_fewest_eight :
    (∀ sub : List (CachedHolding ExactDecimal), sub.Subperm threeHoldings →
        sub.length < [holdingOf "c" six, holdingOf "a" four].length →
        amountOf sub < Decimal.value eight) ∧
      ∀ (init : List (CachedHolding ExactDecimal)) (last : CachedHolding ExactDecimal),
        [holdingOf "c" six, holdingOf "a" four] = init ++ [last] → init ≠ [] →
        ∀ other ∈ threeHoldings, other ∉ [holdingOf "c" six, holdingOf "a" four] →
        Decimal.value other.amount < Decimal.value last.amount →
        amountOf (init ++ [other]) < Decimal.value eight := by
  have hselect : selectFrom threeHoldings eight 3 =
      some [holdingOf "c" six, holdingOf "a" four] := by
    decide +kernel
  exact selectFrom_fewest selectable_threeHoldings (by decide +kernel) hselect

end BookAgent.CloudAgent.HoldingsCache
