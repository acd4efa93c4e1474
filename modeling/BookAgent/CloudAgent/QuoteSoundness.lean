import BookAgent.CloudAgent.ConfirmOutcome

/-!
# Who answers for a resource

Every task plays a role for the quotes it is about, which says what their entries can be
meanwhile, and answers for some of what they hold. The state is sound for a quote when
the entry, or some task, answers for each of the quote's resources. A step of one task
keeps this for every quote (`Sound.step`) if it accounts for what that task answered for.
-/

namespace BookAgent.CloudAgent

open BookAgent.Lib BookAgent.AgentLogic

variable {D K E : Type}

/-! ## Roles -/

inductive Role
  | registering
  /-- A confirm that claimed the quote, before and after it committed the funds. -/
  | working (committed : Bool)
  /-- The end of such a confirm that issues no envelope. -/
  | closing
  /-- A confirm that found the quote past its validity. -/
  | stale
  /-- A settle or a sweep. -/
  | ending

def Role.claims : Role → Bool
  | .working _ => true
  | .closing => true
  | _ => false

def RegisterTask.quoteId : RegisterTask → String
  | .available call _ => call.quoteId
  | .select call _ _ => call.quoteId

namespace ConfirmTask

/-- The reject or withholding that a confirm carries out. -/
def rejecting : ConfirmTask D → Option Rejecting
  | .reject r => some r
  | .rejectHoldings r => some r
  | .withhold r => some r
  | .withholdHoldings r => some r
  | _ => none

def quoteId : ConfirmTask D → String
  | .mids c => c.req.quoteId
  | .staleness c _ => c.req.quoteId
  | .commit c _ => c.req.quoteId
  | .select c _ => c.req.quoteId
  | .sleep c _ _ => c.req.quoteId
  | .poll c _ _ => c.req.quoteId
  | .reserve c _ _ _ => c.req.quoteId
  | .reselect c _ _ => c.req.quoteId
  | .reject r => r.quoteId
  | .rejectHoldings r => r.quoteId
  | .withhold r => r.quoteId
  | .withholdHoldings r => r.quoteId

def role (t : ConfirmTask D) : Role :=
  match t.rejecting with
  | none => .working t.committed
  | some r => if r.claimed then .closing else .stale

/-- The funds, if there are any, are still to be released. -/
def answersFunds : ConfirmTask D → Bool
  | .rejectHoldings _ => false
  | .withholdHoldings _ => false
  | _ => true

/-- What a confirm that claimed its quote answers for. -/
def Answers (t : ConfirmTask D) : Resource → Prop
  | .funds => t.answersFunds = true
  | .net => t.answersFunds = true
  | .holding cid => ∃ r, t.rejecting = some r ∧ cid ∈ r.holdingCids
  | .ticket _ => ∃ r, t.rejecting = some r ∧ r.ticketAssigned = true

end ConfirmTask

def SettleTask.quoteId : SettleTask → String
  | .outflow quoteId _ => quoteId
  | .release quoteId => quoteId

/-- What a release of the sweep will give back. -/
def Release.Answers (x : Release) (quoteId : String) (r : Resource) : Prop :=
  x.quoteId = quoteId ∧
    match r with
    | .funds => x.lm = true
    | .net => x.lm = true
    | .holding cid => cid ∈ x.holdingCids
    | .ticket _ => False

/-- A ticket that runs out by `now`. -/
def Resource.Past (now : Instant) : Resource → Prop
  | .ticket expiresAt => expiresAt ≤ now
  | _ => False

namespace SweepTask

/-- What a sweep has still to release. -/
def releases : SweepTask → List Release
  | .funds _ r rest => r :: rest
  | .holdings _ r rest => { r with lm := false } :: rest

def now : SweepTask → Instant
  | .funds now _ _ => now
  | .holdings now _ _ => now

end SweepTask

namespace Task

/-- The task plays the role for the quote. -/
def Plays (quoteId : String) (role : Role) : Task D → Prop
  | .register t => t.quoteId = quoteId ∧ role = .registering
  | .confirm t => t.quoteId = quoteId ∧ role = t.role
  | .settle t => t.quoteId = quoteId ∧ role = .ending
  | .sweep t => (∃ x ∈ t.releases, x.quoteId = quoteId) ∧ role = .ending

/-- The task answers for a resource of the quote. -/
def Answers (quoteId : String) (r : Resource) : Task D → Prop
  | .register _ => False
  | .confirm t => t.quoteId = quoteId ∧ t.role.claims = true ∧ t.Answers r
  | .settle t => t.quoteId = quoteId ∧ (r = .funds ∨ r = .net)
  | .sweep t => (∃ x ∈ t.releases, x.Answers quoteId r) ∨ r.Past t.now

end Task

theorem Gone.not_inProgress {entry : Option (PendingV2 E)} (h : Gone entry) : ¬ InProgress entry := by
  rintro ⟨since, rfl⟩
  exact h

theorem Gone.not_confirmed {c : ConfirmedQuote E} : ¬ Gone (some (PendingV2.confirmed c)) := id

namespace Quotes

/-! ## Soundness -/

/-- The quote's entry in the map. -/
def entry (w : Quotes D K E) (q : String) : Option (PendingV2 E) := w.state.pending.lookup q

/-- What the entry of a quote can be while a task plays the role. -/
def Fits (w : Quotes D K E) (q : String) : Role → Prop
  | .registering => w.entry q = none ∧ q ∉ w.settled
  | .working _ => InProgress (w.entry q) ∨ Gone (w.entry q)
  | .closing => InProgress (w.entry q) ∨ Gone (w.entry q)
  | .stale => Gone (w.entry q) ∨
      ∃ quote validUntil, w.entry q = some (.indicative quote validUntil) ∧ validUntil ≤ w.clock
  | .ending => Gone (w.entry q)

/-- The resource is a holding or a ticket. -/
def Lasting : Resource → Prop
  | .funds => False
  | .net => False
  | .holding _ => True
  | .ticket _ => True

/-- The entry stands for the resource, or a settle left it behind. -/
def Backed (w : Quotes D K E) (q : String) (r : Resource) : Prop :=
  w.state.Backs q r ∨ (q ∈ w.settled ∧ Lasting r)

/-- The entry, or some task, answers for every resource of the quote. -/
structure Sound (w : Quotes D K E) (q : String) : Prop where
  fits : ∀ i t role, w.tasks.lookup i = some t → t.Plays q role → w.Fits q role
  /-- A registration plays alone, and one confirm at a time has claimed the quote. -/
  unique : ∀ i j t u a b, i ≠ j → w.tasks.lookup i = some t → w.tasks.lookup j = some u →
    t.Plays q a → u.Plays q b → a ≠ .registering ∧ ¬ (a.claims = true ∧ b.claims = true)
  registered : w.entry q ≠ none ∨ q ∈ w.settled ∨
      (∃ i t role, w.tasks.lookup i = some t ∧ t.Plays q role) → q ∈ w.registered
  answered : ∀ r, w.state.Has q r →
    w.Backed q r ∨ ∃ i t, w.tasks.lookup i = some t ∧ t.Answers q r
  funded : ∀ c, w.entry q = some (.confirmed c) → w.state.Has q .funds
  committed : ∀ i t, w.tasks.lookup i = some t → t.Plays q (.working true) →
    InProgress (w.entry q) → w.state.Has q .funds
  settled : q ∈ w.settled →
    (w.entry q = none ∨ ∃ since, w.entry q = some (.settled since)) ∧ ∃ cid, (q, cid) ∈ w.observed

variable {w w' : Quotes D K E} {i : Nat} {q : String}

/-- No task but `i` plays a role for the quote. -/
def Alone (w : Quotes D K E) (i : Nat) (q : String) : Prop :=
  ∀ j t role, j ≠ i → w.tasks.lookup j = some t → ¬ t.Plays q role

/-- A step of the task `i`: the other tasks stay, time and history go forward. -/
structure Moves (w w' : Quotes D K E) (i : Nat) : Prop where
  tasks : ∀ j, j ≠ i → w'.tasks.lookup j = w.tasks.lookup j
  clock : w.clock ≤ w'.clock
  registered : ∀ q ∈ w.registered, q ∈ w'.registered
  observed : ∀ e ∈ w.observed, e ∈ w'.observed

/-- How the entry of a quote may change in a step of the task `i`. -/
inductive EntryStep (w w' : Quotes D K E) (i : Nat) (q : String) : Prop
  | same (hentry : w'.entry q = w.entry q) (hsettled : q ∈ w'.settled → q ∈ w.settled)
  | gone (hgone : Gone (w'.entry q)) (hentry : w.entry q ≠ none)
  | alone (h : Alone w i q)

/-- A role that the task takes up in the step, or already played. -/
inductive RoleStep (w : Quotes D K E) (i : Nat) (q : String) (b : Role) : Prop
  | kept {t : Task D} {a : Role} (htask : w.tasks.lookup i = some t) (hplays : t.Plays q a)
      (hclaims : b.claims = true → a.claims = true) (hb : b ≠ .registering)
  | late (hentry : w.entry q ≠ none) (hclaims : b.claims = false) (hb : b ≠ .registering)
  | alone (h : Alone w i q)

/-- A role fits as before where the entry stays. -/
theorem Fits.of_entry {role : Role} (h : w.Fits q role) (hentry : w'.entry q = w.entry q)
    (hclock : w.clock ≤ w'.clock) (hsettled : q ∈ w'.settled → q ∈ w.settled) :
    w'.Fits q role := by
  cases role with
  | registering => exact ⟨hentry.trans h.1, fun hmem => h.2 (hsettled hmem)⟩
  | working committed =>
    unfold Fits at h ⊢
    rwa [hentry]
  | closing =>
    unfold Fits at h ⊢
    rwa [hentry]
  | stale =>
    unfold Fits at h ⊢
    rw [hentry]
    rcases h with hgone | ⟨quote, validUntil, hlookup, hpast⟩
    · exact .inl hgone
    · exact .inr ⟨quote, validUntil, hlookup, hpast.trans hclock⟩
  | ending =>
    unfold Fits at h ⊢
    rwa [hentry]

/-- Every role but a registration fits a quote that is over. -/
theorem Fits.of_gone {role : Role} (hgone : Gone (w.entry q)) (hrole : role ≠ .registering) :
    w.Fits q role := by
  cases role with
  | registering => exact absurd rfl hrole
  | working committed => exact .inr hgone
  | closing => exact .inr hgone
  | stale => exact .inl hgone
  | ending => exact hgone

/-- The role of another task still fits after the step. -/
theorem EntryStep.fits (hentry : EntryStep w w' i q) (hclock : w.clock ≤ w'.clock) {j : Nat}
    {t : Task D} {role : Role} (hj : j ≠ i) (ht : w.tasks.lookup j = some t)
    (hplays : t.Plays q role) (hfits : w.Fits q role) : w'.Fits q role := by
  cases hentry with
  | same hentry hsettled => exact hfits.of_entry hentry hclock hsettled
  | gone hgone hentry =>
    refine .of_gone hgone ?_
    rintro rfl
    exact hentry hfits.1
  | alone h => exact absurd hplays (h j t role hj ht)

/-- A role of the stepping task does not clash with another task's. -/
theorem RoleStep.compatible (h : w.Sound q) {b : Role} (hrole : RoleStep w i q b) {j : Nat}
    {u : Task D} {c : Role} (hj : j ≠ i) (hu : w.tasks.lookup j = some u) (hplays : u.Plays q c) :
    b ≠ .registering ∧ c ≠ .registering ∧ ¬ (b.claims = true ∧ c.claims = true) := by
  cases hrole with
  | kept htask hold hclaims hb =>
    refine ⟨hb, (h.unique j i _ _ _ _ hj hu htask hplays hold).1, ?_⟩
    rintro ⟨hbc, hcc⟩
    exact (h.unique j i _ _ _ _ hj hu htask hplays hold).2 ⟨hcc, hclaims hbc⟩
  | late hentry hclaims hb =>
    refine ⟨hb, ?_, ?_⟩
    · rintro rfl
      exact hentry (h.fits j u _ hu hplays).1
    · rw [hclaims]
      exact fun hboth => Bool.false_ne_true hboth.1
  | alone halone => exact absurd hplays (halone j u c hj hu)

/-- A step of one task keeps the state sound for a quote. -/
theorem Sound.step (h : w.Sound q) (hmoves : Moves w w' i) (hentry : EntryStep w w' i q)
    (hroles : ∀ t b, w'.tasks.lookup i = some t → t.Plays q b →
      w'.Fits q b ∧ q ∈ w'.registered ∧ RoleStep w i q b)
    (hregistered : w'.entry q ≠ none ∨ q ∈ w'.settled → q ∈ w'.registered)
    (hanswered : ∀ r, w'.state.Has q r →
      (w'.Backed q r ∨ ∃ t, w'.tasks.lookup i = some t ∧ t.Answers q r) ∨
      (w.state.Has q r ∧
        (w.Backed q r → w'.Backed q r ∨ ∃ t, w'.tasks.lookup i = some t ∧ t.Answers q r) ∧
        ∀ t, w.tasks.lookup i = some t → t.Answers q r →
          w'.Backed q r ∨ ∃ t, w'.tasks.lookup i = some t ∧ t.Answers q r))
    (hfunded : ∀ c, w'.entry q = some (.confirmed c) → w'.state.Has q .funds)
    (hothers : ∀ j t, j ≠ i → w.tasks.lookup j = some t → t.Plays q (.working true) →
      InProgress (w'.entry q) → w'.state.Has q .funds)
    (hcommitted : ∀ t, w'.tasks.lookup i = some t → t.Plays q (.working true) →
      InProgress (w'.entry q) → w'.state.Has q .funds)
    (hsettled : q ∈ w'.settled →
      (w'.entry q = none ∨ ∃ since, w'.entry q = some (.settled since)) ∧
        ∃ cid, (q, cid) ∈ w'.observed) :
    w'.Sound q := by
  have answeredBy : ∀ r, (w'.Backed q r ∨ ∃ t, w'.tasks.lookup i = some t ∧ t.Answers q r) →
      w'.Backed q r ∨ ∃ j t, w'.tasks.lookup j = some t ∧ t.Answers q r := by
    intro r hr
    exact hr.imp_right fun ⟨t, ht, hans⟩ => ⟨i, t, ht, hans⟩
  refine ⟨?_, ?_, ?_, ?_, hfunded, ?_, hsettled⟩
  · intro j t role ht hplays
    by_cases hj : j = i
    · subst hj
      exact (hroles t role ht hplays).1
    · rw [hmoves.tasks j hj] at ht
      exact hentry.fits hmoves.clock hj ht hplays (h.fits j t role ht hplays)
  · intro j k t u a b hjk ht hu ha hb
    by_cases hj : j = i
    · subst hj
      rw [hmoves.tasks k (Ne.symm hjk)] at hu
      obtain ⟨hareg, -, hclash⟩ := (hroles t a ht ha).2.2.compatible h (Ne.symm hjk) hu hb
      exact ⟨hareg, hclash⟩
    · rw [hmoves.tasks j hj] at ht
      by_cases hk : k = i
      · subst hk
        obtain ⟨-, hareg, hclash⟩ := (hroles u b hu hb).2.2.compatible h hj ht ha
        exact ⟨hareg, fun hboth => hclash ⟨hboth.2, hboth.1⟩⟩
      · rw [hmoves.tasks k hk] at hu
        exact h.unique j k t u a b hjk ht hu ha hb
  · rintro (hnone | hsome | ⟨j, t, role, ht, hplays⟩)
    · exact hregistered (.inl hnone)
    · exact hregistered (.inr hsome)
    · by_cases hj : j = i
      · subst hj
        exact (hroles t role ht hplays).2.1
      · rw [hmoves.tasks j hj] at ht
        exact hmoves.registered q (h.registered (.inr (.inr ⟨j, t, role, ht, hplays⟩)))
  · intro r hr
    rcases hanswered r hr with hnow | ⟨hhad, hbacked, hown⟩
    · exact answeredBy r hnow
    · rcases h.answered r hhad with hback | ⟨j, t, ht, hans⟩
      · exact answeredBy r (hbacked hback)
      · by_cases hj : j = i
        · subst hj
          exact answeredBy r (hown t ht hans)
        · exact .inr ⟨j, t, (hmoves.tasks j hj).trans ht, hans⟩
  · intro j t ht hplays hprogress
    by_cases hj : j = i
    · subst hj
      exact hcommitted t ht hplays hprogress
    · rw [hmoves.tasks j hj] at ht
      exact hothers j t hj ht hplays hprogress

end Quotes

end BookAgent.CloudAgent
