import Mathlib.Data.List.Nodup
import Mathlib.Data.List.Pairwise
import Mathlib.Data.List.Perm.Basic

/-!
# Forests

The members below a list of roots, each with a list of children. They are a forest of a
given depth if no level is deeper and each is named in one place only, counting the roots;
which is so exactly if a walk to that depth meets every member once.
-/

namespace BookAgent.Lib

/-- A place where a member is named: among the roots, or among the children of a parent. -/
inductive Place (α : Type)
  | root (i : Nat)
  | child (parent : α) (i : Nat)

section Levels

variable {α : Type} (children : α → List α)

/-- The members below the roots down to a depth, parents before their children. -/
def below : Nat → List α → List α
  | 0, _ => []
  | depth + 1, roots => roots.flatMap fun a => a :: below depth (children a)

/-- Nothing below the roots lies deeper. -/
def WithinDepth : Nat → List α → Prop
  | 0, roots => roots = []
  | depth + 1, roots => ∀ a ∈ roots, WithinDepth depth (children a)

/-- A member at a level; the roots are at the first. -/
inductive AtLevel (roots : List α) : Nat → α → Prop
  | root {a : α} : a ∈ roots → AtLevel roots 1 a
  | child {n : Nat} {p a : α} : AtLevel roots n p → a ∈ children p → AtLevel roots (n + 1) a

/-- The member named at a place. -/
def Place.Names (roots : List α) : Place α → α → Prop
  | .root i, a => roots[i]? = some a
  | .child p i, a => (∃ n, AtLevel children roots n p) ∧ (children p)[i]? = some a

/-- Each member is named in one place, and none is deeper. -/
structure IsForest (roots : List α) (depth : Nat) : Prop where
  once : ∀ {n a}, AtLevel children roots n a → ∃! p : Place α, p.Names children roots a
  shallow : ∀ {n a}, AtLevel children roots n a → n ≤ depth

variable {children} {roots : List α} {depth n k : Nat} {a p : α}

/-! ## Levels -/

/-- Below a root, one level down. -/
theorem AtLevel.of_root {r : α} (hr : r ∈ roots) (h : AtLevel children (children r) n a) :
    AtLevel children roots (n + 1) a := by
  induction h with
  | root ha => exact .child (.root hr) ha
  | child _ ha ih => exact .child ih ha

/-- From a member, further down. -/
theorem AtLevel.trans (hp : AtLevel children roots n p)
    (ha : AtLevel children (children p) k a) : AtLevel children roots (n + k) a := by
  induction ha with
  | root ha => exact .child hp ha
  | child _ ha ih => exact .child ih ha

/-- A member is a root or is below one. -/
theorem AtLevel.cases_root (h : AtLevel children roots n a) :
    (n = 1 ∧ a ∈ roots) ∨
      ∃ k, n = k + 1 ∧ ∃ r ∈ roots, AtLevel children (children r) k a := by
  induction h with
  | root ha => exact .inl ⟨rfl, ha⟩
  | child _ ha ih =>
    right
    rcases ih with ⟨rfl, hp⟩ | ⟨k, rfl, r, hr, hp⟩
    · exact ⟨1, rfl, _, hp, .root ha⟩
    · exact ⟨k + 1, rfl, r, hr, .child hp ha⟩

theorem AtLevel.pos (h : AtLevel children roots n a) : 1 ≤ n := by
  cases h <;> omega

theorem withinDepth_iff :
    WithinDepth children depth roots ↔ ∀ n a, AtLevel children roots n a → n ≤ depth := by
  induction depth generalizing roots with
  | zero =>
    constructor
    · rintro rfl n a h
      rcases h.cases_root with ⟨-, hr⟩ | ⟨_, -, r, hr, -⟩ <;> cases hr
    · intro h
      refine List.eq_nil_iff_forall_not_mem.mpr fun a ha => ?_
      have := h 1 a (.root ha)
      omega
  | succ depth ih =>
    constructor
    · intro h n a ha
      rcases ha.cases_root with ⟨rfl, -⟩ | ⟨k, rfl, r, hr, hk⟩
      · omega
      · have := ih.mp (h r hr) k a hk
        omega
    · intro h r hr
      refine ih.mpr fun n a ha => ?_
      have := h (n + 1) a (.of_root hr ha)
      omega

/-! ## The walk, level by level -/

theorem below_cons (depth : Nat) (a : α) (roots : List α) :
    below children (depth + 1) (a :: roots) =
      a :: (below children depth (children a) ++ below children (depth + 1) roots) := rfl

/-- One level more is the roots and the children of what was met before. -/
theorem below_succ_perm (depth : Nat) (roots : List α) : (below children (depth + 1) roots).Perm
    (roots ++ (below children depth roots).flatMap children) := by
  induction depth generalizing roots with
  | zero =>
    induction roots with
    | nil => exact .refl []
    | cons a l ihl => exact ihl.cons a
  | succ depth ih =>
    induction roots with
    | nil => exact .refl []
    | cons a l ihl =>
      rw [below_cons, below_cons, List.flatMap_cons, List.flatMap_append, List.cons_append,
        ← List.append_assoc (children a)]
      exact (((ih (children a)).append ihl).trans (List.perm_append_comm_assoc _ _ _)).cons a

theorem mem_below : a ∈ below children depth roots ↔ ∃ n ≤ depth, AtLevel children roots n a := by
  induction depth generalizing a with
  | zero =>
    refine iff_of_false List.not_mem_nil ?_
    rintro ⟨n, hn, ha⟩
    have := ha.pos
    omega
  | succ depth ih =>
    rw [(below_succ_perm depth roots).mem_iff, List.mem_append, List.mem_flatMap]
    constructor
    · rintro (ha | ⟨p, hp, ha⟩)
      · exact ⟨1, by omega, .root ha⟩
      · obtain ⟨n, hn, hp⟩ := ih.mp hp
        exact ⟨n + 1, by omega, .child hp ha⟩
    · rintro ⟨n, hn, ha⟩
      cases ha with
      | root ha => exact .inl ha
      | child hp ha => exact .inr ⟨_, ih.mpr ⟨_, by omega, hp⟩, ha⟩

/-- Where nothing lies deeper, another level adds nothing. -/
theorem below_succ_of_withinDepth (h : WithinDepth children depth roots) :
    below children (depth + 1) roots = below children depth roots := by
  induction depth generalizing roots with
  | zero =>
    cases h
    rfl
  | succ depth ih =>
    refine List.flatMap_congr fun a ha => ?_
    rw [ih (h a ha)]

/-! ## Forests -/

theorem exists_place (h : AtLevel children roots n a) : ∃ p : Place α, p.Names children roots a := by
  cases h with
  | root ha =>
    obtain ⟨i, hi⟩ := List.mem_iff_getElem?.mp ha
    exact ⟨.root i, hi⟩
  | child hp ha =>
    obtain ⟨i, hi⟩ := List.mem_iff_getElem?.mp ha
    exact ⟨.child _ i, ⟨_, hp⟩, hi⟩

/-- Equal entries of a list without duplicates stand at one index. -/
theorem index_unique {l : List α} (h : l.Nodup) {i j : Nat} (hi : l[i]? = some a)
    (hj : l[j]? = some a) : i = j := by
  obtain ⟨hlt, -⟩ := List.getElem?_eq_some_iff.mp hi
  exact (List.getElem?_inj hlt h).mp (hi.trans hj.symm)

theorem nodup_of_index_unique {l : List α}
    (h : ∀ (i j : Nat) (a : α), l[i]? = some a → l[j]? = some a → i = j) : l.Nodup := by
  refine List.nodup_iff_getElem?_ne_getElem?.mpr fun i j hij hj heq => ?_
  have hl := List.getElem?_eq_getElem hj
  have := h i j _ (heq.trans hl) hl
  omega

/-- Without duplicates, two places that name one member are one place. -/
theorem place_unique (hdepth : WithinDepth children depth roots)
    (hnodup : (below children depth roots).Nodup) {p q : Place α}
    (hp : p.Names children roots a) (hq : q.Names children roots a) : p = q := by
  have named : (roots ++ (below children depth roots).flatMap children).Nodup := by
    rw [← (below_succ_perm depth roots).nodup_iff, below_succ_of_withinDepth hdepth]
    exact hnodup
  obtain ⟨hroots, hchildren, hdisjoint⟩ := List.nodup_append'.mp named
  obtain ⟨hown, hothers⟩ := List.nodup_flatMap.mp hchildren
  have met {p : α} (hp : ∃ n, AtLevel children roots n p) : p ∈ below children depth roots := by
    obtain ⟨n, hn⟩ := hp
    exact mem_below.mpr ⟨n, withinDepth_iff.mp hdepth n p hn, hn⟩
  have apart {i : Nat} {p : α} {j : Nat} (hi : roots[i]? = some a)
      (hp : ∃ n, AtLevel children roots n p) (hj : (children p)[j]? = some a) : False :=
    hdisjoint (List.mem_of_getElem? hi)
      (List.mem_flatMap.mpr ⟨p, met hp, List.mem_of_getElem? hj⟩)
  cases p with
  | root i =>
    cases q with
    | root j => rw [index_unique hroots hp hq]
    | child q j => exact (apart hp hq.1 hq.2).elim
  | child p i =>
    cases q with
    | root j => exact (apart hq hp.1 hp.2).elim
    | child q j =>
      have : Std.Symm (Function.onFun List.Disjoint children) := ⟨fun _ _ h a hq hp => h hp hq⟩
      have same : p = q := by
        by_contra hne
        exact hothers.forall (met hp.1) (met hq.1) hne (List.mem_of_getElem? hp.2)
          (List.mem_of_getElem? hq.2)
      subst same
      rw [index_unique (hown p (met hp.1)) hp.2 hq.2]

/-- Members that are named in one place are met once, down to any depth. -/
theorem nodup_below
    (h : ∀ {n a}, AtLevel children roots n a → ∃! p : Place α, p.Names children roots a)
    (depth : Nat) : (below children depth roots).Nodup := by
  have unique {n : Nat} {a : α} (ha : AtLevel children roots n a) {p q : Place α}
      (hp : p.Names children roots a) (hq : q.Names children roots a) : p = q :=
    (h ha).unique hp hq
  induction depth with
  | zero => exact List.nodup_nil
  | succ depth ih =>
    have level {p : α} (hp : p ∈ below children depth roots) : ∃ n, AtLevel children roots n p := by
      obtain ⟨n, -, hn⟩ := mem_below.mp hp
      exact ⟨n, hn⟩
    rw [(below_succ_perm depth roots).nodup_iff, List.nodup_append', List.nodup_flatMap]
    refine ⟨?_, ⟨fun p hp => ?_, ?_⟩, ?_⟩
    · refine nodup_of_index_unique fun i j a hi hj => ?_
      exact Place.root.inj (unique (.root (List.mem_of_getElem? hi)) (p := .root i)
        (q := .root j) hi hj)
    · obtain ⟨n, hn⟩ := level hp
      refine nodup_of_index_unique fun i j a hi hj => ?_
      exact (Place.child.inj (unique (.child hn (List.mem_of_getElem? hi)) (p := .child p i)
        (q := .child p j) ⟨⟨n, hn⟩, hi⟩ ⟨⟨n, hn⟩, hj⟩)).2
    · refine (List.Pairwise.and_mem.mp ih).imp fun {p q} hne a ha ha' => ?_
      obtain ⟨hp, hq, hne⟩ := hne
      obtain ⟨i, hi⟩ := List.mem_iff_getElem?.mp ha
      obtain ⟨j, hj⟩ := List.mem_iff_getElem?.mp ha'
      obtain ⟨n, hn⟩ := level hp
      exact hne (Place.child.inj (unique (.child hn ha) (p := .child p i) (q := .child q j)
        ⟨level hp, hi⟩ ⟨level hq, hj⟩)).1
    · intro a ha hbelow
      obtain ⟨p, hp, ha'⟩ := List.mem_flatMap.mp hbelow
      obtain ⟨i, hi⟩ := List.mem_iff_getElem?.mp ha
      obtain ⟨j, hj⟩ := List.mem_iff_getElem?.mp ha'
      cases (unique (.root ha) (p := .root i) (q := .child p j) hi
        ⟨level hp, hj⟩)

/-- **A forest is what a walk meets once.** -/
theorem isForest_iff : IsForest children roots depth ↔
    WithinDepth children depth roots ∧ (below children depth roots).Nodup := by
  constructor
  · intro h
    exact ⟨withinDepth_iff.mpr fun _ _ => h.shallow, nodup_below h.once depth⟩
  · rintro ⟨hdepth, hnodup⟩
    refine ⟨fun ha => ?_, fun ha => withinDepth_iff.mp hdepth _ _ ha⟩
    obtain ⟨p, hp⟩ := exists_place ha
    exact ⟨p, hp, fun q hq => place_unique hdepth hnodup hq hp⟩

/-- Nothing below a member of a forest is the member itself. -/
theorem IsForest.acyclic (h : IsForest children roots depth) (hp : AtLevel children roots n p) :
    ¬ AtLevel children (children p) k p := by
  intro hcycle
  have deeper (m : Nat) : AtLevel children roots (n + m * k) p := by
    induction m with
    | zero =>
      rw [Nat.zero_mul, Nat.add_zero]
      exact hp
    | succ m ih =>
      rw [Nat.succ_mul, ← Nat.add_assoc]
      exact ih.trans hcycle
  have far := h.shallow (deeper (depth + 1))
  have := Nat.le_mul_of_pos_right (depth + 1) hcycle.pos
  omega

end Levels

end BookAgent.Lib
