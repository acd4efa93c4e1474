import Mathlib.Algebra.Order.Field.Basic
import Mathlib.Tactic.Linarith
import Mathlib.Tactic.Ring
import BookAgent.Lib.Pool

/-!
# Decaying aggregates

Amounts that decay by a factor multiplicative in elapsed time, kept in a pool of
aggregates that are rebased when written and dropped when they are small. What an
aggregate reads and what its amounts add up to then differ by what was dropped:
`Below` bounds that difference by one drop for each amount of one sign.
-/

namespace BookAgent.Lib

/-- A decay factor over elapsed time. -/
structure Decay (K : Type) [Field K] [LinearOrder K] where
  factor : Int → K
  factor_zero : factor 0 = 1
  factor_add {s t : Int} : 0 ≤ s → 0 ≤ t → factor (s + t) = factor s * factor t
  factor_nonneg (t : Int) : 0 ≤ factor t
  factor_le_one {t : Int} : 0 ≤ t → factor t ≤ 1

variable {K : Type} [Field K] [LinearOrder K]

namespace Decay

variable (d : Decay K)

/-- The factor from one time to another, one where time runs back. -/
def between (earlier later : Int) : K := d.factor (max (later - earlier) 0)

@[simp] theorem between_self (t : Int) : d.between t t = 1 := by
  unfold between
  rw [sub_self, max_self, d.factor_zero]

theorem between_mul {s t u : Int} (hst : s ≤ t) (htu : t ≤ u) :
    d.between s t * d.between t u = d.between s u := by
  unfold between
  rw [max_eq_left (by omega), max_eq_left (by omega), max_eq_left (by omega),
    ← d.factor_add (by omega) (by omega)]
  congr 1
  omega

theorem between_nonneg (s t : Int) : 0 ≤ d.between s t := d.factor_nonneg _

theorem between_le_one (s t : Int) : d.between s t ≤ 1 := d.factor_le_one (le_max_right _ _)

end Decay

/-- A value as of a time. -/
structure Stamped (K : Type) where
  value : K
  time : Int

namespace Stamped

/-- The value decayed to `now`. -/
def read (d : Decay K) (s : Stamped K) (now : Int) : K := s.value * d.between s.time now

theorem read_later {d : Decay K} {s : Stamped K} {t u : Int} (hs : s.time ≤ t) (htu : t ≤ u) :
    s.read d u = s.read d t * d.between t u := by
  unfold read
  rw [mul_assoc, d.between_mul hs htu]

end Stamped

/-! ## Aggregates -/

/-- Aggregates by key. -/
abbrev Aggregates (κ K : Type) := Pool κ (Stamped K)

namespace Aggregates

variable {κ : Type} [DecidableEq κ] (d : Decay K)

/-- An absent aggregate reads zero. -/
def read (p : Aggregates κ K) (key : κ) (now : Int) : K :=
  match p.lookup key with
  | none => 0
  | some s => s.read d now

/-- Decay the aggregate to `now`, add `delta` and restamp; drop it when it is small. -/
def add (eps : K) (p : Aggregates κ K) (key : κ) (now : Int) (delta : K) : Aggregates κ K :=
  let value := read d p key now + delta
  if |value| ≤ eps then p.erase key else p.insert key ⟨value, now⟩

/-- Drop every aggregate that has decayed to a small value. -/
def sweep (eps : K) (p : Aggregates κ K) (now : Int) : Aggregates κ K :=
  p.retain fun _ s => eps < |s.read d now|

/-- No aggregate is stamped later than `t`. -/
def StampedBy (p : Aggregates κ K) (t : Int) : Prop := ∀ key s, p.lookup key = some s → s.time ≤ t

variable {d} {eps : K} {p : Aggregates κ K} {key other : κ} {t u now : Int} {delta : K}

theorem read_later (h : StampedBy p t) (htu : t ≤ u) :
    read d p key u = read d p key t * d.between t u := by
  unfold read
  cases hk : p.lookup key with
  | none => exact (zero_mul _).symm
  | some s => exact Stamped.read_later (h key s hk) htu

theorem lookup_add_ne (h : other ≠ key) :
    (add d eps p key now delta).lookup other = p.lookup other := by
  unfold add
  dsimp only
  split
  · exact AList.lookup_erase_ne h
  · exact AList.lookup_insert_ne h

/-- What is found after an addition was stamped by it. -/
theorem time_add {a : Stamped K} (h : (add d eps p key now delta).lookup key = some a) :
    a.time = now := by
  unfold add at h
  dsimp only at h
  split at h
  · rw [AList.lookup_erase] at h
    cases h
  · rw [AList.lookup_insert] at h
    obtain rfl := Option.some.inj h
    rfl

/-- What an aggregate reads after an addition, at the time of the addition. -/
theorem read_add :
    read d (add d eps p key now delta) key now
      = if |read d p key now + delta| ≤ eps then 0 else read d p key now + delta := by
  unfold add
  dsimp only
  split
  · rw [read, AList.lookup_erase]
  · unfold read
    rw [AList.lookup_insert]
    dsimp only
    unfold Stamped.read
    rw [d.between_self, mul_one]

theorem stampedBy_add (h : StampedBy p t) (htn : t ≤ now) : StampedBy (add d eps p key now delta) now := by
  intro other s hs
  unfold add at hs
  dsimp only at hs
  by_cases hother : other = key
  · subst hother
    split at hs
    · rw [AList.lookup_erase] at hs
      cases hs
    · rw [AList.lookup_insert] at hs
      obtain rfl := Option.some.inj hs
      exact le_rfl
  · refine (h other s ?_).trans htn
    split at hs
    · rwa [AList.lookup_erase_ne hother] at hs
    · rwa [AList.lookup_insert_ne hother] at hs

omit [Field K] [LinearOrder K] in
theorem stampedBy_retain (keep : κ → Stamped K → Bool) (h : StampedBy p t) :
    StampedBy (p.retain keep) t :=
  fun other s hs => h other s (Pool.lookup_retain_eq_some.mp hs).1

end Aggregates

/-! ## What dropping small values loses -/

section Below

variable [IsStrictOrderedRing K]

/-- The difference `err` between what an aggregate reads and its amounts, bounded from
below: each drop of a positive value took at most `eps`, and after a drop the value
only became positive again by one of the `ups` additions of a positive amount. The
drift is what was lost otherwise. -/
structure Below (eps drift value err : K) (ups : Nat) : Prop where
  bound : 0 ≤ eps * ups + drift + err
  spare : 0 < value → 1 ≤ ups ∧ 0 ≤ eps * (ups - 1 : Nat) + drift + err

namespace Below

variable {eps drift value err : K} {ups : Nat}

theorem zero (heps : 0 ≤ eps) (hdrift : 0 ≤ drift) (ups : Nat) : Below eps drift 0 0 ups := by
  refine ⟨?_, fun h => absurd h (lt_irrefl _)⟩
  have : 0 ≤ eps * ups := mul_nonneg heps (Nat.cast_nonneg ups)
  linarith

/-- Both sides decay. -/
theorem decay (h : Below eps drift value err ups) (heps : 0 ≤ eps) (hdrift : 0 ≤ drift) {c : K}
    (hc : 0 ≤ c) (hc1 : c ≤ 1) : Below eps drift (value * c) (err * c) ups := by
  have scaled : ∀ m : K, 0 ≤ m → 0 ≤ m + drift + err → 0 ≤ m + drift + err * c := by
    intro m hm hsum
    have hpos : 0 ≤ (m + drift + err) * c := mul_nonneg hsum hc
    have hrest : 0 ≤ (m + drift) * (1 - c) := mul_nonneg (add_nonneg hm hdrift) (sub_nonneg.mpr hc1)
    linarith [show (m + drift + err) * c + (m + drift) * (1 - c) = m + drift + err * c by ring]
  refine ⟨scaled _ (mul_nonneg heps (Nat.cast_nonneg _)) h.bound, fun hpos => ?_⟩
  obtain ⟨hups, hspare⟩ := h.spare (pos_of_mul_pos_left hpos hc)
  exact ⟨hups, scaled _ (mul_nonneg heps (Nat.cast_nonneg _)) hspare⟩

theorem mono_drift (h : Below eps drift value err ups) {drift' : K} (hd : drift ≤ drift') :
    Below eps drift' value err ups := by
  refine ⟨?_, fun hpos => ?_⟩
  · linarith [h.bound]
  · obtain ⟨hups, hspare⟩ := h.spare hpos
    exact ⟨hups, by linarith⟩

theorem mono (h : Below eps drift value err ups) (heps : 0 ≤ eps) {ups' : Nat} (hups : ups ≤ ups') :
    Below eps drift value err ups' := by
  have scaled : ∀ {m n : Nat}, m ≤ n → eps * (m : K) ≤ eps * n := fun hmn =>
    mul_le_mul_of_nonneg_left (Nat.cast_le.mpr hmn) heps
  refine ⟨by linarith [h.bound, scaled hups], fun hpos => ?_⟩
  obtain ⟨hone, hspare⟩ := h.spare hpos
  exact ⟨hone.trans hups, by linarith [scaled (Nat.sub_le_sub_right hups 1)]⟩

/-- An addition of a positive amount, part of it lost to the drift. -/
theorem up (h : Below eps drift value err ups) (heps : 0 ≤ eps) {e g : K} (value' : K)
    (he : -g ≤ e) : Below eps (drift + g) value' (err + e) (ups + 1) := by
  have bound := h.bound
  refine ⟨?_, fun _ => ⟨Nat.le_add_left 1 ups, ?_⟩⟩
  · push_cast
    linarith
  · rw [Nat.add_sub_cancel]
    linarith

/-- An addition of an amount that is not positive. -/
theorem down (h : Below eps drift value err ups) {e g value' : K} (hvalue : value' ≤ value)
    (he : -g ≤ e) : Below eps (drift + g) value' (err + e) ups := by
  refine ⟨by linarith [h.bound], fun hpos => ?_⟩
  obtain ⟨hups, hspare⟩ := h.spare (hpos.trans_le hvalue)
  exact ⟨hups, by linarith⟩

/-- A small value is dropped. -/
theorem drop (h : Below eps drift value err ups) (hsmall : |value| ≤ eps) :
    Below eps drift 0 (err - value) ups := by
  refine ⟨?_, fun hpos => absurd hpos (lt_irrefl _)⟩
  by_cases hpos : 0 < value
  · obtain ⟨hups, hspare⟩ := h.spare hpos
    have hle : value ≤ eps := (le_abs_self value).trans hsmall
    have split : eps * (ups : K) = eps * (ups - 1 : Nat) + eps := by
      rw [Nat.cast_sub hups]
      push_cast
      ring
    linarith
  · linarith [h.bound]

end Below

/-- The two-sided bound: `ups` additions of positive amounts, `downs` of negative ones. -/
structure Tracks (eps drift value err : K) (ups downs : Nat) : Prop where
  low : Below eps drift value err ups
  high : Below eps drift (-value) (-err) downs

namespace Tracks

variable {eps drift value err : K} {ups downs : Nat}

theorem zero (heps : 0 ≤ eps) (hdrift : 0 ≤ drift) (ups downs : Nat) :
    Tracks eps drift 0 0 ups downs := by
  refine ⟨.zero heps hdrift ups, ?_⟩
  rw [neg_zero]
  exact .zero heps hdrift downs

theorem abs_err_le (h : Tracks eps drift value err ups downs) (heps : 0 ≤ eps) {n : Nat}
    (hups : ups ≤ n) (hdowns : downs ≤ n) : |err| ≤ eps * n + drift := by
  have cast : ∀ {m : Nat}, m ≤ n → eps * (m : K) ≤ eps * n := fun hm =>
    mul_le_mul_of_nonneg_left (Nat.cast_le.mpr hm) heps
  rw [abs_le]
  constructor
  · linarith [h.low.bound, cast hups]
  · linarith [h.high.bound, cast hdowns]

theorem decay (h : Tracks eps drift value err ups downs) (heps : 0 ≤ eps) (hdrift : 0 ≤ drift)
    {c : K} (hc : 0 ≤ c) (hc1 : c ≤ 1) : Tracks eps drift (value * c) (err * c) ups downs := by
  refine ⟨h.low.decay heps hdrift hc hc1, ?_⟩
  rw [← neg_mul, ← neg_mul]
  exact h.high.decay heps hdrift hc hc1

theorem mono_drift (h : Tracks eps drift value err ups downs) {drift' : K} (hd : drift ≤ drift') :
    Tracks eps drift' value err ups downs :=
  ⟨h.low.mono_drift hd, h.high.mono_drift hd⟩

/-- An addition moves the value by `delta` and the difference by at most the drift. -/
theorem add (h : Tracks eps drift value err ups downs) (heps : 0 ≤ eps) (delta : K) {e g : K}
    (he : |e| ≤ g) :
    Tracks eps (drift + g) (value + delta) (err + e) (if 0 < delta then ups + 1 else ups)
      (if delta < 0 then downs + 1 else downs) := by
  obtain ⟨hlow, hhigh⟩ := abs_le.mp he
  constructor
  · split
    · exact h.low.up heps _ hlow
    · rename_i hdelta
      exact h.low.down (by linarith [not_lt.mp hdelta]) hlow
  · rw [neg_add err e]
    split
    · exact h.high.up heps _ (by linarith)
    · rename_i hdelta
      exact h.high.down (by linarith [not_lt.mp hdelta]) (by linarith)

/-- A small value is dropped. -/
theorem drop (h : Tracks eps drift value err ups downs) (hsmall : |value| ≤ eps) :
    Tracks eps drift 0 (err - value) ups downs := by
  refine ⟨h.low.drop hsmall, ?_⟩
  have dropped := h.high.drop ((abs_neg value).trans_le hsmall)
  rw [neg_zero, neg_sub]
  rw [sub_neg_eq_add, neg_add_eq_sub] at dropped
  exact dropped

/-- An aggregate that takes `delta` while its amounts take `amount`. -/
theorem write {flow amount : K} (h : Tracks eps drift value (value - flow) ups downs) (heps : 0 ≤ eps)
    {delta g : K} (hg : |delta - amount| ≤ g) {value' : K}
    (hvalue : value' = if |value + delta| ≤ eps then 0 else value + delta) :
    Tracks eps (drift + g) value' (value' - (flow + amount)) (if 0 < delta then ups + 1 else ups)
      (if delta < 0 then downs + 1 else downs) := by
  have added := h.add heps delta hg
  have err : value - flow + (delta - amount) = value + delta - (flow + amount) := by ring
  rw [err] at added
  by_cases hsmall : |value + delta| ≤ eps
  · rw [if_pos hsmall] at hvalue
    subst hvalue
    have dropped := added.drop hsmall
    rwa [show value + delta - (flow + amount) - (value + delta) = 0 - (flow + amount) by ring]
      at dropped
  · rw [if_neg hsmall] at hvalue
    subst hvalue
    exact added

/-- More additions than there were. -/
theorem mono (h : Tracks eps drift value err ups downs) (heps : 0 ≤ eps) {ups' downs' : Nat}
    (hups : ups ≤ ups') (hdowns : downs ≤ downs') : Tracks eps drift value err ups' downs' :=
  ⟨h.low.mono heps hups, h.high.mono heps hdowns⟩

end Tracks

end Below

end BookAgent.Lib
