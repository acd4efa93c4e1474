import Mathlib.Data.Set.Operations
import Mathlib.Data.List.Forall2
import BookAgent.Lib.Lines
import BookAgent.Lib.Numeral

/-!
# Key lines with free text

A list of fields printed as `key=value` lines and followed by a tail. A value may be
any text some type prints, free text with newlines included, so a text can be read
as one list of fields in several ways. Every text that can be read has exactly one
*unbroken* reading: the one in which no value could have ended at a newline inside it.
-/

namespace BookAgent.Lib

/-- A key has no newline and no `=`. -/
def IsKey (k : String) : Prop := '\n' ∉ k.toList ∧ '=' ∉ k.toList

instance (k : String) : Decidable (IsKey k) := inferInstanceAs (Decidable (_ ∧ _))

theorem isKey_ofList {cs : List Char} (h : '\n' ∉ cs ∧ '=' ∉ cs) : IsKey (String.ofList cs) := by
  unfold IsKey
  rwa [String.toList_ofList]

/-- A field of a format with its value. -/
structure KeyField where
  key : String
  value : Option String
  /-- A field that is not required is omitted when it has no value. -/
  required : Bool
  /-- The texts a value can be. -/
  texts : Set String
  present : required = true → ∃ v, value = some v
  printed : ∀ v, value = some v → v ∈ texts

namespace KeyField

/-- The same place in a format. -/
def SameShape (f g : KeyField) : Prop :=
  f.key = g.key ∧ f.required = g.required ∧ f.texts = g.texts

theorem SameShape.symm {f g : KeyField} (h : f.SameShape g) : g.SameShape f :=
  ⟨h.1.symm, h.2.1.symm, h.2.2.symm⟩

theorem eq_of_sameShape {f g : KeyField} (h : f.SameShape g) (hv : f.value = g.value) : f = g := by
  obtain ⟨hkey, hreq, htexts⟩ := h
  cases f
  cases g
  cases hkey
  cases hreq
  cases htexts
  cases hv
  rfl

/-- The line without its newline. -/
def body (f : KeyField) (v : String) : List Char := f.key.toList ++ '=' :: v.toList

/-- The field's line, nothing when it is absent. -/
def render (f : KeyField) : List Char :=
  match f.value with
  | none => []
  | some v => f.body v ++ ['\n']

theorem body_append (f : KeyField) (v : String) (x : List Char) :
    f.body v ++ x = f.key.toList ++ '=' :: (v.toList ++ x) :=
  List.append_assoc _ _ _

theorem render_some {f : KeyField} {v : String} (h : f.value = some v) (x : List Char) :
    f.render ++ x = f.key.toList ++ '=' :: (v.toList ++ '\n' :: x) := by
  unfold render
  rw [h, List.append_assoc, body_append, List.singleton_append]

theorem render_none {f : KeyField} (h : f.value = none) : f.render = [] := by
  unfold render
  rw [h]

theorem required_of_none {f : KeyField} (h : f.value = none) : f.required = false := by
  by_contra hreq
  obtain ⟨v, hv⟩ := f.present (Bool.not_eq_false _ ▸ hreq)
  rw [h] at hv
  cases hv

/-! ### Kinds of fields -/

section Kinds

variable {α : Type} {print : α → String} {key : String}

/-- A value some type prints. -/
def printedAs (print : α → String) (key : String) (a : α) : KeyField where
  key
  value := some (print a)
  required := true
  texts := Set.range print
  present _ := ⟨_, rfl⟩
  printed _ hv := ⟨a, Option.some.inj hv⟩

/-- A value some type prints, which may be absent. -/
def optPrintedAs (print : α → String) (key : String) (a : Option α) : KeyField where
  key
  value := a.map print
  required := false
  texts := Set.range print
  present h := nomatch h
  printed v hv := by
    obtain ⟨b, -, hb⟩ := Option.map_eq_some_iff.mp hv
    exact ⟨b, hb⟩

/-- A value as its type displays it. -/
def display [ToString α] (key : String) (a : α) : KeyField := printedAs toString key a

/-- Such a value, which may be absent. -/
def optDisplay [ToString α] (key : String) (a : Option α) : KeyField := optPrintedAs toString key a

/-- Free text. -/
def text (key value : String) : KeyField := printedAs id key value

/-- Free text that may be absent. -/
def opt (key : String) (value : Option String) : KeyField := optPrintedAs id key value

theorem printedAs_inj (hinj : Function.Injective print) {a b : α} :
    printedAs print key a = printedAs print key b ↔ a = b :=
  ⟨fun heq => hinj (Option.some.inj (congrArg value heq)), fun heq => heq ▸ rfl⟩

theorem optPrintedAs_inj (hinj : Function.Injective print) {a b : Option α} :
    optPrintedAs print key a = optPrintedAs print key b ↔ a = b :=
  ⟨fun heq => Option.map_injective hinj (congrArg value heq), fun heq => heq ▸ rfl⟩

@[simp] theorem text_inj {v w : String} : text key v = text key w ↔ v = w :=
  printedAs_inj Function.injective_id

@[simp] theorem opt_inj {v w : Option String} : opt key v = opt key w ↔ v = w :=
  optPrintedAs_inj Function.injective_id

@[simp] theorem display_inj [ToString α] [InjectiveDisplay α] {a b : α} :
    display key a = display key b ↔ a = b :=
  printedAs_inj InjectiveDisplay.injective

@[simp] theorem optDisplay_inj [ToString α] [InjectiveDisplay α] {a b : Option α} :
    optDisplay key a = optDisplay key b ↔ a = b :=
  optPrintedAs_inj InjectiveDisplay.injective

/-- What has the shape of a printed value is one. -/
theorem sameShape_printedAs {f : KeyField} {a : α} :
    f.SameShape (printedAs print key a) ↔ ∃ b, f = printedAs print key b := by
  constructor
  · intro h
    obtain ⟨v, hv⟩ := f.present h.2.1
    have hmem : v ∈ (printedAs print key a).texts := h.2.2 ▸ f.printed v hv
    obtain ⟨b, rfl⟩ := hmem
    exact ⟨b, eq_of_sameShape h hv⟩
  · rintro ⟨b, rfl⟩
    exact ⟨rfl, rfl, rfl⟩

theorem sameShape_optPrintedAs {f : KeyField} {a : Option α} :
    f.SameShape (optPrintedAs print key a) ↔ ∃ b, f = optPrintedAs print key b := by
  constructor
  · intro h
    cases hv : f.value with
    | none => exact ⟨none, eq_of_sameShape h hv⟩
    | some v =>
      have hmem : v ∈ (optPrintedAs print key a).texts := h.2.2 ▸ f.printed v hv
      obtain ⟨b, rfl⟩ := hmem
      exact ⟨some b, eq_of_sameShape h hv⟩
  · rintro ⟨b, rfl⟩
    exact ⟨rfl, rfl, rfl⟩

theorem sameShape_display [ToString α] {f : KeyField} {a : α} :
    f.SameShape (display key a) ↔ ∃ b : α, f = display key b := sameShape_printedAs

theorem sameShape_optDisplay [ToString α] {f : KeyField} {a : Option α} :
    f.SameShape (optDisplay key a) ↔ ∃ b : Option α, f = optDisplay key b := sameShape_optPrintedAs

theorem sameShape_text {f : KeyField} {v : String} :
    f.SameShape (text key v) ↔ ∃ w, f = text key w := sameShape_printedAs

theorem sameShape_opt {f : KeyField} {v : Option String} :
    f.SameShape (opt key v) ↔ ∃ w, f = opt key w := sameShape_optPrintedAs

end Kinds

end KeyField

open KeyField

/-- The text of the fields. -/
def renderFields (fs : List KeyField) : List Char := fs.flatMap KeyField.render

@[simp] theorem renderFields_nil : renderFields [] = [] := rfl

@[simp] theorem renderFields_cons (f : KeyField) (fs : List KeyField) :
    renderFields (f :: fs) = f.render ++ renderFields fs := rfl

theorem keys_eq_of_shape {fs gs : List KeyField} (h : List.Forall₂ SameShape fs gs) :
    fs.map KeyField.key = gs.map KeyField.key := by
  induction h with
  | nil => rfl
  | cons hfg _ ih => rw [List.map_cons, List.map_cons, hfg.1, ih]

theorem shape_symm {fs gs : List KeyField} (h : List.Forall₂ SameShape fs gs) :
    List.Forall₂ SameShape gs fs :=
  (h.imp fun _ _ => SameShape.symm).flip

/-! ## Readings -/

section Readings

variable (tail : List Char → Prop)

/-- The text reads as lines of the fields, whatever their values, and then a tail. -/
def Reads : List KeyField → List Char → Prop
  | [], x => tail x
  | f :: fs, x =>
    (f.required = false ∧ Reads fs x) ∨
      ∃ v ∈ f.texts, ∃ y, x = f.body v ++ '\n' :: y ∧ Reads fs y

/-- A value could end at a newline inside it: what stands before is a text the field
can have, and the text from there on, `after` included, reads as the fields after it. -/
def Cut (f : KeyField) (fs : List KeyField) (after v : List Char) : Prop :=
  ∃ w ∈ f.texts, ∃ t, v = w.toList ++ '\n' :: t ∧ Reads tail fs (t ++ '\n' :: after)

/-- No value could end at a newline inside it; `x` is the tail. -/
def Unbroken (x : List Char) : List KeyField → Prop
  | [] => True
  | f :: fs =>
    (∀ v, f.value = some v → ¬ Cut tail f fs (renderFields fs ++ x) v.toList) ∧ Unbroken x fs

end Readings

/-- Distinct keys, none of which opens the tail. -/
structure Format (tail : List Char → Prop) (fs : List KeyField) : Prop where
  keys : ∀ k ∈ fs.map KeyField.key, IsKey k
  nodup : (fs.map KeyField.key).Nodup
  fresh : ∀ k ∈ fs.map KeyField.key, ∀ z, ¬ tail (k.toList ++ '=' :: z)

section Reading

variable {tail : List Char → Prop} {fs gs : List KeyField} {x y : List Char}

theorem Format.rest {f : KeyField} (h : Format tail (f :: fs)) : Format tail fs where
  keys k hk := h.keys k (List.mem_cons_of_mem _ hk)
  nodup := (List.nodup_cons.mp h.nodup).2
  fresh k hk := h.fresh k (List.mem_cons_of_mem _ hk)

theorem Format.congr (h : List.Forall₂ SameShape fs gs) (hg : Format tail gs) :
    Format tail fs where
  keys := keys_eq_of_shape h ▸ hg.keys
  nodup := keys_eq_of_shape h ▸ hg.nodup
  fresh := keys_eq_of_shape h ▸ hg.fresh

theorem Reads.congr (h : List.Forall₂ SameShape fs gs) (hx : Reads tail fs x) :
    Reads tail gs x := by
  induction h generalizing x with
  | nil => exact hx
  | @cons f g fs gs hfg _ ih =>
    obtain ⟨hkey, hreq, htexts⟩ := hfg
    rcases hx with ⟨hskip, hrest⟩ | ⟨v, hv, y, rfl, hrest⟩
    · exact .inl ⟨hreq ▸ hskip, ih hrest⟩
    · refine .inr ⟨v, htexts ▸ hv, y, ?_, ih hrest⟩
      rw [body_append, hkey, body_append]

theorem Cut.congr {f g : KeyField} {v : List Char} (hfg : f.SameShape g)
    (h : List.Forall₂ SameShape fs gs) (hcut : Cut tail f fs x v) : Cut tail g gs x v := by
  obtain ⟨w, hw, t, ht, hreads⟩ := hcut
  exact ⟨w, hfg.2.2 ▸ hw, t, ht, hreads.congr h⟩

/-- The text of the fields and a tail reads as the fields. -/
theorem reads_renderFields (hx : tail x) : Reads tail fs (renderFields fs ++ x) := by
  induction fs with
  | nil => exact hx
  | cons f fs ih =>
    cases hf : f.value with
    | none =>
      rw [renderFields_cons, render_none hf, List.nil_append]
      exact .inl ⟨required_of_none hf, ih⟩
    | some v =>
      refine .inr ⟨v, f.printed v hf, _, ?_, ih⟩
      rw [renderFields_cons, List.append_assoc, render_some hf, body_append]

theorem unbroken_of_oneLine (h : ∀ f ∈ fs, ∀ v, f.value = some v → OneLine v) :
    Unbroken tail x fs := by
  induction fs with
  | nil => trivial
  | cons f fs ih =>
    refine ⟨?_, ih fun g hg => h g (List.mem_cons_of_mem _ hg)⟩
    rintro v hv ⟨w, -, t, ht, -⟩
    refine h f List.mem_cons_self v hv ?_
    rw [ht]
    exact List.mem_append_right _ List.mem_cons_self

/-! ## At most one unbroken reading -/

/-- A key that opens a text is the key of a field the text reads as, or opens the tail. -/
theorem mem_keys_of_reads {k : String} {z : List Char} (hk : IsKey k)
    (hkeys : ∀ l ∈ fs.map KeyField.key, IsKey l) (h : Reads tail fs (k.toList ++ '=' :: z)) :
    k ∈ fs.map KeyField.key ∨ tail (k.toList ++ '=' :: z) := by
  induction fs with
  | nil => exact .inr h
  | cons f fs ih =>
    rcases h with ⟨-, hrest⟩ | ⟨v, -, y, hopen, -⟩
    · rcases ih (fun l hl => hkeys l (List.mem_cons_of_mem _ hl)) hrest with hmem | htail
      · exact .inl (List.mem_cons_of_mem _ hmem)
      · exact .inr htail
    · rw [body_append] at hopen
      have same := (append_delimiter_inj hk.2 (hkeys f.key List.mem_cons_self).2 hopen).1
      rw [String.toList_inj.mp same]
      exact .inl List.mem_cons_self

/-- A text that reads as the fields after one does not open with its key. -/
theorem not_reads_opening {f : KeyField} (format : Format tail (f :: fs)) {z : List Char} :
    ¬ Reads tail fs (f.key.toList ++ '=' :: z) := by
  intro h
  rcases mem_keys_of_reads (format.keys f.key List.mem_cons_self) format.rest.keys h with
    hmem | htail
  · exact (List.nodup_cons.mp format.nodup).1 hmem
  · exact format.fresh f.key List.mem_cons_self z htail

/-- **Unbroken fields are read back from their text.** -/
theorem renderFields_injective (shape : List.Forall₂ SameShape fs gs) (format : Format tail gs)
    (hx : tail x) (hy : tail y) (hfs : Unbroken tail x fs) (hgs : Unbroken tail y gs)
    (h : renderFields fs ++ x = renderFields gs ++ y) : fs = gs ∧ x = y := by
  induction shape with
  | nil => exact ⟨rfl, h⟩
  | @cons f g fs gs hfg htail ih =>
    rw [renderFields_cons, renderFields_cons, List.append_assoc, List.append_assoc] at h
    cases hf : f.value with
    | none =>
      rw [render_none hf, List.nil_append] at h
      cases hg : g.value with
      | none =>
        rw [render_none hg, List.nil_append] at h
        obtain ⟨rfl, rfl⟩ := ih format.rest hfs.2 hgs.2 h
        rw [eq_of_sameShape hfg (hf.trans hg.symm)]
        exact ⟨rfl, rfl⟩
      | some w =>
        have reads : Reads tail gs (renderFields fs ++ x) := (reads_renderFields hx).congr htail
        rw [h, render_some hg] at reads
        exact absurd reads (not_reads_opening format)
    | some v =>
      rw [render_some hf, hfg.1] at h
      cases hg : g.value with
      | none =>
        have reads : Reads tail gs (renderFields gs ++ y) := reads_renderFields hy
        rw [render_none hg, List.nil_append] at h
        rw [← h] at reads
        exact absurd reads (not_reads_opening format)
      | some w =>
        rw [render_some hg] at h
        have values := (List.cons.inj (List.append_cancel_left h)).2
        rcases cut_cases values with ⟨hvw, hrest⟩ | ⟨t, hcut, hrest⟩ | ⟨t, hcut, hrest⟩
        · obtain ⟨rfl, rfl⟩ := ih format.rest hfs.2 hgs.2 hrest
          rw [eq_of_sameShape hfg (by rw [hf, hg, String.toList_inj.mp hvw])]
          exact ⟨rfl, rfl⟩
        · -- `f`'s value goes on past `g`'s, so it could have ended there
          have reads : Reads tail gs (t ++ '\n' :: (renderFields fs ++ x)) :=
            hrest ▸ reads_renderFields hy
          exact absurd ⟨w, hfg.2.2 ▸ g.printed w hg, t, hcut, reads.congr (shape_symm htail)⟩
            (hfs.1 v hf)
        · have reads : Reads tail fs (t ++ '\n' :: (renderFields gs ++ y)) :=
            hrest ▸ reads_renderFields hx
          exact absurd ⟨v, hfg.2.2 ▸ f.printed v hf, t, hcut, reads.congr htail⟩ (hgs.1 w hg)

/-! ## An unbroken reading -/

/-- A line that can be read with some value can be read with a shortest one. -/
theorem exists_shortest {p : String → List Char → Prop} {v : String} (h : p v y) :
    ∃ w z, p w z ∧ ∀ u a, p u a → w.toList.length ≤ u.toList.length := by
  have some : ∃ n w z, p w z ∧ w.toList.length = n := ⟨_, v, y, h, rfl⟩
  classical
  obtain ⟨w, z, hw, hn⟩ := Nat.find_spec some
  refine ⟨w, z, hw, ?_⟩
  intro u a hu
  rw [hn]
  exact Nat.find_min' some ⟨u, a, hu, rfl⟩

/-- **Every text that reads as the fields has an unbroken reading.** -/
theorem exists_unbroken (h : Reads tail fs x) :
    ∃ gs y, List.Forall₂ SameShape gs fs ∧ tail y ∧ Unbroken tail y gs ∧
      renderFields gs ++ y = x := by
  induction fs generalizing x with
  | nil => exact ⟨[], x, .nil, h, trivial, rfl⟩
  | cons f fs ih =>
    rcases h with ⟨hskip, hrest⟩ | ⟨v, hv, z, hx, hrest⟩
    · obtain ⟨gs, y, shape, hy, unbroken, rfl⟩ := ih hrest
      let g : KeyField := { f with
        value := none
        present := fun hreq => by rw [hskip] at hreq; cases hreq
        printed := fun _ hv => nomatch hv }
      refine ⟨g :: gs, y, .cons ⟨rfl, rfl, rfl⟩ shape, hy, ⟨?_, unbroken⟩, rfl⟩
      intro v hv
      cases hv
    · obtain ⟨w, z, ⟨hw, hx, hrest⟩, shortest⟩ :=
        exists_shortest (p := fun v z => v ∈ f.texts ∧ x = f.body v ++ '\n' :: z ∧ Reads tail fs z)
          ⟨hv, hx, hrest⟩
      obtain ⟨gs, y, shape, hy, unbroken, rfl⟩ := ih hrest
      let g : KeyField := { f with
        value := some w
        present := fun _ => ⟨w, rfl⟩
        printed := fun u hu => Option.some.inj hu ▸ hw }
      refine ⟨g :: gs, y, .cons ⟨rfl, rfl, rfl⟩ shape, hy, ⟨?_, unbroken⟩, ?_⟩
      · rintro u hu ⟨u', hu', t, hcut, hreads⟩
        obtain rfl := Option.some.inj hu
        have shorter := shortest u' _ ⟨hu', ?_, hreads.congr shape⟩
        · rw [hcut, List.length_append, List.length_cons] at shorter
          omega
        · rw [hx, body_append, body_append, hcut, List.append_assoc, List.cons_append]
      · rw [hx, renderFields_cons, List.append_assoc, render_some (f := g) rfl, body_append]

end Reading

end BookAgent.Lib
