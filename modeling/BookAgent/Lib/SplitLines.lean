import BookAgent.Lib.KeyLines

/-!
# Splitting key lines

A text is split at its newlines and each line at its first `=`. The text of fields whose
values are on one line splits into these fields.
-/

namespace BookAgent.Lib

/-- The lines of a text; a newline at the end opens no other line. -/
def splitLines (text : List Char) : List (List Char) :=
  let pieces := text.splitOn '\n'
  if pieces.getLast? = some [] then pieces.dropLast else pieces

/-- What stands before the first `=`, and what after it. -/
def splitKey (line : List Char) : String × Option String :=
  (String.ofList (line.takeWhile (· ≠ '=')),
    match line.dropWhile (· ≠ '=') with
    | [] => none
    | _ :: value => some (String.ofList value))

/-- The keys and values of a text. -/
def keyLines (text : String) : List (String × Option String) :=
  (splitLines text.toList).map splitKey

theorem splitLines_append {lines : List (List Char)} (h : ∀ l ∈ lines, '\n' ∉ l) :
    splitLines (lines.flatMap (· ++ ['\n'])) = lines := by
  have split : (lines.flatMap (· ++ ['\n'])).splitOn '\n' = lines ++ [[]] := by
    induction lines with
    | nil => rfl
    | cons l ls ih =>
      obtain ⟨hl, hls⟩ := List.forall_mem_cons.mp h
      rw [List.flatMap_cons, List.append_assoc, List.singleton_append,
        List.splitOn_append_cons_self, List.splitOn_eq_singleton hl, ih hls]
      rfl
  unfold splitLines
  dsimp only
  rw [split, List.getLast?_concat, if_pos rfl, List.dropLast_concat]

theorem splitKey_body {f : KeyField} (h : IsKey f.key) (v : String) :
    splitKey (f.body v) = (f.key, some v) := by
  have key : ∀ c ∈ f.key.toList, decide (c ≠ '=') = true := fun c hc =>
    decide_eq_true fun heq => h.2 (heq ▸ hc)
  unfold splitKey KeyField.body
  rw [List.takeWhile_append_of_pos key, List.dropWhile_append_of_pos key,
    List.takeWhile_cons_of_neg (by decide), List.dropWhile_cons_of_neg (by decide),
    List.append_nil, String.ofList_toList]
  simp only [String.ofList_toList]

/-- The lines of fields, one for each that has a value. -/
def fieldLines (fs : List KeyField) : List (String × Option String) :=
  fs.filterMap fun f => f.value.map fun v => (f.key, some v)

theorem renderFields_eq (fs : List KeyField) : renderFields fs =
    (fs.filterMap fun f => f.value.map f.body).flatMap (· ++ ['\n']) := by
  induction fs with
  | nil => rfl
  | cons f fs ih =>
    rw [renderFields_cons, ih, List.filterMap_cons]
    unfold KeyField.render
    cases f.value with
    | none => rfl
    | some v => rfl

/-- **Fields on one line each are read back from their text.** -/
theorem keyLines_renderFields {fs : List KeyField} (hkeys : ∀ f ∈ fs, IsKey f.key)
    (hvalues : ∀ f ∈ fs, ∀ v, f.value = some v → OneLine v) :
    keyLines (String.ofList (renderFields fs)) = fieldLines fs := by
  have oneLine : ∀ l ∈ fs.filterMap fun f => f.value.map f.body, '\n' ∉ l := by
    intro l hl
    obtain ⟨f, hf, hline⟩ := List.mem_filterMap.mp hl
    obtain ⟨v, hv, rfl⟩ := Option.map_eq_some_iff.mp hline
    unfold KeyField.body
    rw [List.mem_append, List.mem_cons]
    exact not_or.mpr ⟨(hkeys f hf).1, not_or.mpr ⟨by decide, hvalues f hf v hv⟩⟩
  unfold keyLines fieldLines
  rw [String.toList_ofList, renderFields_eq, splitLines_append oneLine, List.map_filterMap]
  refine List.filterMap_congr fun f hf => ?_
  rw [Option.map_map]
  cases f.value with
  | none => rfl
  | some v => exact congrArg some (splitKey_body (hkeys f hf) v)

end BookAgent.Lib
