import BookAgent.Lib.Fallible

/-!
# Inspections

An inspector goes through its checks in order. A failed check ends it early,
with an error or with a rejection that carries the warnings collected so far;
the other findings are warnings, and an inspector that reaches its summary
accepts. `Inspect` is that discipline, and the lemmas say what a check that is
passed establishes.
-/

namespace BookAgent.TxVerifier

open BookAgent.Lib

structure InspectionResult where
  accepted : Bool
  summary : String
  warnings : List String
  rejectionReason : Option String
deriving DecidableEq

/-- Why an inspector ends before its summary. -/
inductive Stop where
  | error (msg : String)
  | rejected (summary : String) (warnings : List String) (reason : String)

/-- A part of an inspector: it reads and extends the warnings. -/
abbrev Inspect := StateT (List String) (Except Stop)

namespace Inspect

/-- The value an option must carry, or an error (`.context(msg)?`). -/
def require {α : Type} (msg : String) : Option α → Inspect α
  | some a => pure a
  | none => throw (.error msg)

def reject {α : Type} (summary reason : String) : Inspect α := fun warnings =>
  .error (.rejected summary warnings reason)

/-- The value an option must carry, or a rejection. -/
def orReject {α : Type} (o : Option α) (summary reason : String) : Inspect α :=
  match o with
  | some a => pure a
  | none => reject summary reason

def ensure (c : Prop) [Decidable c] (summary reason : String) : Inspect Unit :=
  if c then pure () else reject summary reason

def warn (msg : String) : Inspect Unit := fun warnings => .ok ((), warnings ++ [msg])

def warnUnless (c : Prop) [Decidable c] (msg : String) : Inspect Unit :=
  if c then pure () else warn msg

/-- Checks on a value that may be absent (`if let Some(a) = o { .. } else { .. }`). -/
def onValue {α : Type} (o : Option α) (present : α → Inspect Unit) (absent : Inspect Unit) :
    Inspect Unit :=
  match o with
  | some a => present a
  | none => absent

/-- A check on a value that may be absent (`if let Some(a) = o { .. }`). -/
def ensureValue {α : Type} (o : Option α) (c : α → Prop) [DecidablePred c]
    (summary reason : α → String) : Inspect Unit :=
  onValue o (fun a => ensure (c a) (summary a) (reason a)) (pure ())

/-- The same where absence is worth a warning. -/
def ensureOrWarn {α : Type} (o : Option α) (c : α → Prop) [DecidablePred c]
    (summary reason : α → String) (absent : String) : Inspect Unit :=
  onValue o (fun a => ensure (c a) (summary a) (reason a)) (warn absent)

/-- A finding on a value, and the warnings when it is absent. -/
def warnValue {α : Type} (o : Option α) (c : α → Prop) [DecidablePred c] (msg : α → String)
    (absent : List String) : Inspect Unit :=
  onValue o (fun a => warnUnless (c a) (msg a)) fun warnings => .ok ((), warnings ++ absent)

/-- One check on every member, in order. -/
def ensureAll {α : Type} (l : List α) (c : α → Prop) [DecidablePred c]
    (summary reason : α → String) : Inspect Unit :=
  l.forM fun a => ensure (c a) (summary a) (reason a)

/-- The result of an inspector that starts without warnings. -/
def result (x : Inspect String) : Except String InspectionResult :=
  match x [] with
  | .ok (summary, warnings) =>
    .ok { accepted := true, summary, warnings, rejectionReason := none }
  | .error (.error msg) => .error msg
  | .error (.rejected summary warnings reason) =>
    .ok { accepted := false, summary, warnings, rejectionReason := some reason }

/-! ## Passing a check -/

section Passing

variable {α β : Type} {w w' : List String} {summary reason msg : String}

@[simp] theorem bind_ok {x : Inspect α} {f : α → Inspect β} {b : β} :
    (x >>= f) w = .ok (b, w') ↔ ∃ a w₁, x w = .ok (a, w₁) ∧ f a w₁ = .ok (b, w') := by
  simp only [bind, StateT.bind]
  cases h : x w with
  | error e => simp [Except.bind]
  | ok p => simp [Except.bind, Prod.ext_iff]

@[simp] theorem pure_ok {a b : α} : (pure a : Inspect α) w = .ok (b, w') ↔ a = b ∧ w' = w := by
  change Except.ok (a, w) = Except.ok (b, w') ↔ _
  rw [Except.ok.injEq, Prod.mk.injEq, eq_comm (a := w)]

@[simp] theorem reject_ok {a : α} : (reject summary reason : Inspect α) w = .ok (a, w') ↔ False := by
  simp [reject]

@[simp] theorem require_ok {o : Option α} {a : α} :
    require msg o w = .ok (a, w') ↔ o = some a ∧ w' = w := by
  cases o with
  | none => simp [require, throw, throwThe, MonadExceptOf.throw, StateT.lift, bind, Except.bind]
  | some b => simp [require]

@[simp] theorem orReject_ok {o : Option α} {a : α} :
    orReject o summary reason w = .ok (a, w') ↔ o = some a ∧ w' = w := by
  cases o <;> simp [orReject]

@[simp] theorem ensure_ok {c : Prop} [Decidable c] {u : Unit} :
    ensure c summary reason w = .ok (u, w') ↔ c ∧ w' = w := by
  by_cases h : c <;> simp [ensure, h]

@[simp] theorem warn_ok {u : Unit} : warn msg w = .ok (u, w') ↔ w' = w ++ [msg] := by
  simp [warn, eq_comm]

@[simp] theorem warnUnless_ok {c : Prop} [Decidable c] {u : Unit} :
    warnUnless c msg w = .ok (u, w') ↔ w' = w ++ if c then [] else [msg] := by
  by_cases h : c
  · rw [warnUnless, if_pos h, if_pos h, List.append_nil, pure_ok]
    simp
  · rw [warnUnless, if_neg h, if_neg h, warn_ok]

@[simp] theorem onValue_ok {o : Option α} {present : α → Inspect Unit} {absent : Inspect Unit}
    {u : Unit} : onValue o present absent w = .ok (u, w') ↔
      (∃ a, o = some a ∧ present a w = .ok (u, w')) ∨ (o = none ∧ absent w = .ok (u, w')) := by
  cases o <;> simp [onValue]

@[simp] theorem ensureValue_ok {o : Option α} {c : α → Prop} [DecidablePred c]
    {summary reason : α → String} {u : Unit} :
    ensureValue o c summary reason w = .ok (u, w') ↔ (∀ a, o = some a → c a) ∧ w' = w := by
  cases o <;> simp [ensureValue, onValue]

@[simp] theorem ensureOrWarn_ok {o : Option α} {c : α → Prop} [DecidablePred c]
    {summary reason : α → String} {absent : String} {u : Unit} :
    ensureOrWarn o c summary reason absent w = .ok (u, w') ↔
      (∀ a, o = some a → c a) ∧ w' = w ++ if o.isSome then [] else [absent] := by
  cases o <;> simp [ensureOrWarn, onValue]

@[simp] theorem warnValue_ok {o : Option α} {c : α → Prop} [DecidablePred c] {msg : α → String}
    {absent : List String} {u : Unit} : warnValue o c msg absent w = .ok (u, w') ↔
      w' = w ++ o.elim absent fun a => if c a then [] else [msg a] := by
  cases o with
  | none => simp [warnValue, onValue, eq_comm]
  | some a => simp [warnValue, onValue]

@[simp] theorem ensureAll_ok {l : List α} {c : α → Prop} [DecidablePred c]
    {summary reason : α → String} {u : Unit} :
    ensureAll l c summary reason w = .ok (u, w') ↔ (∀ a ∈ l, c a) ∧ w' = w := by
  induction l with
  | nil => simp [ensureAll]
  | cons a l ih =>
    have step : ensureAll (a :: l) c summary reason =
        ensure (c a) (summary a) (reason a) >>= fun _ => ensureAll l c summary reason := rfl
    simp only [step, bind_ok, ensure_ok, List.forall_mem_cons]
    constructor
    · rintro ⟨_, _, ⟨ha, rfl⟩, hrest⟩
      obtain ⟨hl, rfl⟩ := ih.mp hrest
      exact ⟨⟨ha, hl⟩, rfl⟩
    · rintro ⟨⟨ha, hl⟩, rfl⟩
      exact ⟨(), _, ⟨ha, rfl⟩, ih.mpr ⟨hl, rfl⟩⟩

/-- Acceptance is reaching the summary. -/
theorem accepted_iff {x : Inspect String} {r : InspectionResult} :
    (result x = .ok r ∧ r.accepted = true) ↔ ∃ summary warnings, x [] = .ok (summary, warnings) ∧
      r = { accepted := true, summary, warnings, rejectionReason := none } := by
  unfold result
  split
  · next s w h =>
    simp only [h, Except.ok.injEq, Prod.mk.injEq]
    constructor
    · rintro ⟨rfl, -⟩
      exact ⟨s, w, ⟨rfl, rfl⟩, rfl⟩
    · rintro ⟨_, _, ⟨rfl, rfl⟩, rfl⟩
      exact ⟨rfl, rfl⟩
  · next h => simp [h]
  · next h =>
    simp only [h, Except.ok.injEq, reduceCtorEq, false_and, exists_false, iff_false, not_and]
    rintro rfl
    simp

/-- Whether a run of an inspector ends in acceptance. -/
def accepts (x : Except String InspectionResult) : Bool := x.toOption.any (·.accepted)

theorem accepts_iff {x : Except String InspectionResult} :
    accepts x = true ↔ ∃ r, x = .ok r ∧ r.accepted = true := by
  cases x <;> simp [accepts, Except.toOption]

end Passing

end Inspect

end BookAgent.TxVerifier
