import Mathlib.Data.List.AList

/-!
# Keyed pools

The parts of a hash map's interface that `AList` lacks: dropping the entries a
predicate rejects (`retain`), and inserting or removing a list of keys one after
another. Each comes with what a lookup finds afterwards.
-/

namespace BookAgent.Lib

/-- A map with one entry for each key; the order of the entries is not specified. -/
abbrev Pool (κ : Type) (α : Type) := AList fun _ : κ => α

namespace Pool

variable {κ α β : Type} [DecidableEq κ]

def values (p : Pool κ α) : List α := p.entries.map Sigma.snd

theorem mem_values {p : Pool κ α} {v : α} : v ∈ p.values ↔ ∃ k, p.lookup k = some v := by
  constructor
  · intro hv
    obtain ⟨⟨k, w⟩, hmem, rfl⟩ := List.mem_map.mp hv
    exact ⟨k, AList.mem_lookup_iff.mpr hmem⟩
  · rintro ⟨k, hk⟩
    exact List.mem_map.mpr ⟨⟨k, v⟩, AList.mem_lookup_iff.mp hk, rfl⟩

/-- The entries as pairs. -/
def toPairs (p : Pool κ α) : List (κ × α) := p.entries.map fun e => (e.1, e.2)

theorem mem_toPairs {p : Pool κ α} {k : κ} {v : α} : (k, v) ∈ p.toPairs ↔ p.lookup k = some v := by
  have entry : p.lookup k = some v ↔ ⟨k, v⟩ ∈ p.entries := AList.mem_lookup_iff
  rw [entry, toPairs, List.mem_map]
  constructor
  · rintro ⟨⟨k', v'⟩, hmem, heq⟩
    obtain ⟨rfl, rfl⟩ := Prod.mk.inj heq
    exact hmem
  · intro hmem
    exact ⟨⟨k, v⟩, hmem, rfl⟩

omit [DecidableEq κ] in
theorem fst_toPairs (p : Pool κ α) : p.toPairs.map Prod.fst = p.keys := by
  rw [toPairs, List.map_map]
  rfl

theorem mem_iff_lookup {p : Pool κ α} {k : κ} : k ∈ p ↔ ∃ v, p.lookup k = some v := by
  rw [← AList.lookup_isSome, Option.isSome_iff_exists]

/-- What is found after a removal was there before. -/
theorem lookup_of_erase {p : Pool κ α} {k other : κ} {v : α}
    (h : (AList.erase k p).lookup other = some v) : p.lookup other = some v := by
  by_cases hk : other = k
  · subst hk
    rw [AList.lookup_erase] at h
    cases h
  · rwa [AList.lookup_erase_ne hk] at h

theorem erase_of_lookup {p : Pool κ α} {k : κ} (h : p.lookup k = none) : AList.erase k p = p := by
  apply AList.ext
  exact List.kerase_of_notMem_keys fun hkey =>
    AList.lookup_eq_none.mp h (AList.mem_keys.mpr hkey)

theorem lookup_insert_eq_ite (p : Pool κ α) (k other : κ) (v : α) :
    (AList.insert k v p).lookup other = if other = k then some v else p.lookup other := by
  split
  · rename_i heq
    rw [heq, AList.lookup_insert]
  · rename_i hne
    rw [AList.lookup_insert_ne hne]

theorem lookup_erase_eq_ite (p : Pool κ α) (k other : κ) :
    (AList.erase k p).lookup other = if other = k then none else p.lookup other := by
  split
  · rename_i heq
    rw [heq, AList.lookup_erase]
  · rename_i hne
    rw [AList.lookup_erase_ne hne]

/-! ## Retain -/

/-- The entries the predicate keeps. -/
def retain (p : Pool κ α) (keep : κ → α → Bool) : Pool κ α where
  entries := p.entries.filter fun e => keep e.1 e.2
  nodupKeys := p.nodupKeys.sublist List.filter_sublist

theorem lookup_retain_eq_some {p : Pool κ α} {keep : κ → α → Bool} {k : κ} {v : α} :
    (p.retain keep).lookup k = some v ↔ p.lookup k = some v ∧ keep k v = true := by
  have left : (p.retain keep).lookup k = some v ↔ ⟨k, v⟩ ∈ (p.retain keep).entries :=
    AList.mem_lookup_iff
  have right : p.lookup k = some v ↔ ⟨k, v⟩ ∈ p.entries := AList.mem_lookup_iff
  rw [left, right, retain, List.mem_filter]

theorem lookup_retain_of_none {p : Pool κ α} {keep : κ → α → Bool} {k : κ}
    (h : p.lookup k = none) : (p.retain keep).lookup k = none := by
  rw [Option.eq_none_iff_forall_ne_some]
  intro v hv
  rw [lookup_retain_eq_some, h] at hv
  cases hv.1

theorem lookup_retain_of_dropped {p : Pool κ α} {keep : κ → α → Bool} {k : κ} {v : α}
    (h : p.lookup k = some v) (hkeep : keep k v = false) : (p.retain keep).lookup k = none := by
  rw [Option.eq_none_iff_forall_ne_some]
  intro w hw
  rw [lookup_retain_eq_some, h] at hw
  obtain ⟨heq, hw⟩ := hw
  obtain rfl := Option.some.inj heq
  rw [hkeep] at hw
  cases hw

theorem mem_retain {p : Pool κ α} {keep : κ → α → Bool} {k : κ} :
    k ∈ p.retain keep ↔ ∃ v, p.lookup k = some v ∧ keep k v = true := by
  simp only [mem_iff_lookup, lookup_retain_eq_some]

/-- A predicate on keys alone keeps exactly the members it accepts. -/
theorem mem_retain_keys {p : Pool κ α} {keep : κ → Bool} {k : κ} :
    (k ∈ p.retain fun k _ => keep k) ↔ k ∈ p ∧ keep k = true := by
  rw [mem_retain, mem_iff_lookup]
  exact ⟨fun ⟨v, hv, hk⟩ => ⟨⟨v, hv⟩, hk⟩, fun ⟨⟨v, hv⟩, hk⟩ => ⟨v, hv, hk⟩⟩

/-! ## Mapping the values -/

/-- Each value replaced by what `f` makes of it; the keys stay. -/
def mapVal (p : Pool κ α) (f : κ → α → β) : Pool κ β where
  entries := p.entries.map fun e => ⟨e.1, f e.1 e.2⟩
  nodupKeys := by
    have keys : (p.entries.map fun e => (⟨e.1, f e.1 e.2⟩ : Sigma fun _ : κ => β)).keys
        = p.entries.keys := by
      rw [List.keys, List.map_map]
      rfl
    rw [List.NodupKeys, keys]
    exact p.nodupKeys

theorem lookup_mapVal {p : Pool κ α} {f : κ → α → β} {k : κ} :
    (p.mapVal f).lookup k = (p.lookup k).map (f k) := by
  ext v
  have left : (p.mapVal f).lookup k = some v ↔ ⟨k, v⟩ ∈ (p.mapVal f).entries :=
    AList.mem_lookup_iff
  rw [left, mapVal, List.mem_map, Option.map_eq_some_iff]
  constructor
  · rintro ⟨⟨k', a⟩, hmem, heq⟩
    cases heq
    exact ⟨a, AList.mem_lookup_iff.mpr hmem, rfl⟩
  · rintro ⟨a, ha, rfl⟩
    exact ⟨⟨k, a⟩, AList.mem_lookup_iff.mp ha, rfl⟩

/-! ## Inserting and removing lists -/

/-- Insert the entries in order; a later entry replaces an earlier one. -/
def insertAll (p : Pool κ α) (entries : List (κ × α)) : Pool κ α :=
  entries.foldl (fun q e => q.insert e.1 e.2) p

@[simp] theorem insertAll_nil (p : Pool κ α) : p.insertAll [] = p := rfl

@[simp] theorem insertAll_cons (p : Pool κ α) (e : κ × α) (es : List (κ × α)) :
    p.insertAll (e :: es) = insertAll (AList.insert e.1 e.2 p) es := rfl

theorem mem_insertAll {es : List (κ × α)} {p : Pool κ α} {k : κ} :
    k ∈ p.insertAll es ↔ k ∈ es.map Prod.fst ∨ k ∈ p := by
  induction es generalizing p with
  | nil => simp
  | cons e es ih =>
    rw [insertAll_cons, ih, AList.mem_insert, List.map_cons, List.mem_cons]
    constructor
    · rintro (h | h | h)
      · exact .inl (.inr h)
      · exact .inl (.inl h)
      · exact .inr h
    · rintro ((h | h) | h)
      · exact .inr (.inl h)
      · exact .inl h
      · exact .inr (.inr h)

/-- What is found after inserting a list is one of its values or was there. -/
theorem lookup_insertAll {es : List (κ × α)} {p : Pool κ α} {k : κ} {v : α}
    (h : (p.insertAll es).lookup k = some v) : (k, v) ∈ es ∨ p.lookup k = some v := by
  induction es generalizing p with
  | nil => exact .inr h
  | cons e es ih =>
    rcases ih h with hmem | hold
    · exact .inl (List.mem_cons_of_mem _ hmem)
    · by_cases hk : k = e.1
      · subst hk
        rw [AList.lookup_insert] at hold
        obtain rfl := Option.some.inj hold
        exact .inl List.mem_cons_self
      · rw [AList.lookup_insert_ne hk] at hold
        exact .inr hold

theorem lookup_insertAll_of_notMem {es : List (κ × α)} {p : Pool κ α} {k : κ}
    (h : k ∉ es.map Prod.fst) : (p.insertAll es).lookup k = p.lookup k := by
  induction es generalizing p with
  | nil => rfl
  | cons e es ih =>
    rw [List.map_cons, List.mem_cons, not_or] at h
    rw [insertAll_cons, ih h.2, AList.lookup_insert_ne h.1]

theorem lookup_insertAll_of_nodup {es : List (κ × α)} {p : Pool κ α} {k : κ} {v : α}
    (hnodup : (es.map Prod.fst).Nodup) (h : (k, v) ∈ es) : (p.insertAll es).lookup k = some v := by
  induction es generalizing p with
  | nil => cases h
  | cons e es ih =>
    rw [List.map_cons, List.nodup_cons] at hnodup
    rw [insertAll_cons]
    rcases List.mem_cons.mp h with rfl | hmem
    · rw [lookup_insertAll_of_notMem hnodup.1, AList.lookup_insert]
    · exact ih hnodup.2 hmem

/-- A pool written out, its values changed, and read into an empty pool. -/
theorem lookup_insertAll_toPairs {p : Pool κ α} {f : κ → α → β} {k : κ} :
    (insertAll ∅ (p.toPairs.map fun e => (e.1, f e.1 e.2))).lookup k = (p.lookup k).map (f k) := by
  have keys : (p.toPairs.map fun e => (e.1, f e.1 e.2)).map Prod.fst = p.keys := by
    rw [List.map_map]
    exact fst_toPairs p
  cases hk : p.lookup k with
  | none =>
    rw [lookup_insertAll_of_notMem]
    · rfl
    · rw [keys]
      exact fun hmem => AList.lookup_eq_none.mp hk (AList.mem_keys.mpr hmem)
  | some v =>
    refine lookup_insertAll_of_nodup ?_ (List.mem_map.mpr ⟨(k, v), mem_toPairs.mpr hk, rfl⟩)
    rw [keys]
    exact p.nodupKeys

/-- A pool written out in any order, some entries left out, and read into an empty pool. -/
theorem lookup_insertAll_filter {p : Pool κ α} {entries : List (κ × α)} (h : entries.Perm p.toPairs)
    (keep : κ × α → Bool) {k : κ} :
    (insertAll ∅ (entries.filter keep)).lookup k = (p.retain fun k v => keep (k, v)).lookup k := by
  have hnodup : (entries.map Prod.fst).Nodup := by
    rw [(h.map Prod.fst).nodup_iff, fst_toPairs]
    exact p.nodupKeys
  ext v
  rw [lookup_retain_eq_some, ← mem_toPairs (p := p), ← h.mem_iff]
  constructor
  · intro hv
    rcases lookup_insertAll hv with hmem | hempty
    · exact List.mem_filter.mp hmem
    · cases hempty
  · intro hv
    refine lookup_insertAll_of_nodup ?_ (List.mem_filter.mpr hv)
    exact hnodup.sublist (List.filter_sublist.map Prod.fst)

/-- Inserting one value under every key of a list. -/
theorem lookup_insertAll_const {ks : List κ} {p : Pool κ α} {k : κ} {v : α} (h : k ∈ ks) :
    (p.insertAll (ks.map (·, v))).lookup k = some v := by
  induction ks generalizing p with
  | nil => cases h
  | cons x ks ih =>
    rw [List.map_cons, insertAll_cons]
    by_cases hk : k ∈ ks
    · exact ih hk
    · have hx : k = x := (List.mem_cons.mp h).resolve_right hk
      subst hx
      have rest : k ∉ (ks.map (·, v)).map Prod.fst := by
        simpa only [List.map_map, Function.comp_def, List.map_id'] using hk
      rw [lookup_insertAll_of_notMem rest, AList.lookup_insert]

/-- Remove the keys in order. -/
def eraseAll (p : Pool κ α) (ks : List κ) : Pool κ α := ks.foldl (fun q k => q.erase k) p

@[simp] theorem eraseAll_cons (p : Pool κ α) (k : κ) (ks : List κ) :
    p.eraseAll (k :: ks) = eraseAll (AList.erase k p) ks := rfl

theorem lookup_eraseAll_of_none {ks : List κ} {p : Pool κ α} {k : κ} (h : p.lookup k = none) :
    (p.eraseAll ks).lookup k = none := by
  induction ks generalizing p with
  | nil => exact h
  | cons x ks ih =>
    by_cases hk : k = x
    · exact ih (hk ▸ AList.lookup_erase x p)
    · exact ih ((AList.lookup_erase_ne hk).trans h)

theorem lookup_eraseAll_of_mem {ks : List κ} {p : Pool κ α} {k : κ} (h : k ∈ ks) :
    (p.eraseAll ks).lookup k = none := by
  induction ks generalizing p with
  | nil => cases h
  | cons x ks ih =>
    rw [eraseAll_cons]
    rcases List.mem_cons.mp h with rfl | hmem
    · exact lookup_eraseAll_of_none (AList.lookup_erase k p)
    · exact ih hmem

theorem lookup_eraseAll_of_notMem {ks : List κ} {p : Pool κ α} {k : κ} (h : k ∉ ks) :
    (p.eraseAll ks).lookup k = p.lookup k := by
  induction ks generalizing p with
  | nil => rfl
  | cons x ks ih =>
    rw [List.mem_cons, not_or] at h
    rw [eraseAll_cons, ih h.2, AList.lookup_erase_ne h.1]

end Pool

end BookAgent.Lib
