import BookAgent.CloudAgent.QuoteSoundness

/-!
# The steps of the handlers

The kinds of step a task takes, seen from one quote: it leaves the quote alone, it gives
resources back at the end of the quote, it works towards an envelope, or it issues one.
-/

namespace BookAgent.CloudAgent

open BookAgent.Lib BookAgent.AgentLogic RfqV2State

variable {D K E : Type}

/-- Where a stretch leaves its task. -/
def Step.task {T R : Type} : Step T R → Option T
  | .await t => some t
  | .done _ => none

namespace Quotes

variable {w w' : Quotes D K E} {i : Nat} {q : String}

/-! ## Moves of one task -/

theorem lookup_after {T R : Type} {kind : T → Task D} {r : Stretch D K E T R} :
    (w.after i kind r).tasks.lookup i = r.2.task.map kind := by
  unfold after
  cases r.2 with
  | await t => exact AList.lookup_insert _
  | done result => exact AList.lookup_erase _ _

theorem lookup_after_ne {T R : Type} {kind : T → Task D} {r : Stretch D K E T R} {j : Nat}
    (hj : j ≠ i) : (w.after i kind r).tasks.lookup j = w.tasks.lookup j := by
  unfold after
  cases r.2 with
  | await t => exact AList.lookup_insert_ne hj
  | done result => exact AList.lookup_erase_ne hj

/-- The history after a move, seen from one quote. -/
theorem moves_after {T R : Type} {kind : T → Task D} {r : Stretch D K E T R}
    (htasks : w'.tasks = w.tasks) (hclock : w.clock ≤ w'.clock)
    (hregistered : ∀ q ∈ w.registered, q ∈ w'.registered) (hobserved : w'.observed = w.observed) :
    Moves w (w'.after i kind r) i := by
  refine ⟨?_, hclock, hregistered, ?_⟩
  · intro j hj
    rw [lookup_after_ne hj, htasks]
  · intro e he
    exact (congrArg (e ∈ ·) hobserved).mpr he

/-- The entry and the history stand for a resource as before. -/
theorem Backed.of_entry {r : Resource} (h : w.Backed q r) (hentry : w'.entry q = w.entry q)
    (hsettled : q ∈ w.settled → q ∈ w'.settled) : w'.Backed q r := by
  rcases h with ⟨c, hc, hr⟩ | ⟨hmem, hlasting⟩
  · exact .inl ⟨c, hentry.trans hc, hr⟩
  · exact .inr ⟨hsettled hmem, hlasting⟩

theorem Sound.known (h : w.Sound q) (hmoves : Moves w w' i) (hentry : w'.entry q = w.entry q)
    (hsettled : q ∈ w'.settled ↔ q ∈ w.settled) :
    w'.entry q ≠ none ∨ q ∈ w'.settled → q ∈ w'.registered := by
  rw [hentry, hsettled]
  exact fun hor => hmoves.registered q
    (h.registered (hor.elim (fun hne => .inl hne) fun hmem => .inr (.inl hmem)))

/-- A settled quote stays settled where its entry and the history stay, or the entry goes. -/
theorem Sound.stillSettled (h : w.Sound q) (hmoves : Moves w w' i)
    (hentry : w'.entry q = w.entry q ∨ w'.entry q = none)
    (hsettled : q ∈ w'.settled → q ∈ w.settled) (hmem : q ∈ w'.settled) :
    (w'.entry q = none ∨ ∃ since, w'.entry q = some (.settled since)) ∧
      ∃ cid, (q, cid) ∈ w'.observed := by
  obtain ⟨hburied, cid, hcid⟩ := h.settled (hsettled hmem)
  refine ⟨?_, cid, hmoves.observed _ hcid⟩
  rcases hentry with hsame | hnone
  · rwa [hsame]
  · exact .inl hnone

/-! ## Steps that leave the quote alone -/

theorem Sound.frame (h : w.Sound q) (hmoves : Moves w w' i) (hkeeps : Keeps w.state w'.state q)
    (hsettled : q ∈ w'.settled ↔ q ∈ w.settled)
    (hroles : ∀ t b, w'.tasks.lookup i = some t → t.Plays q b →
      ∃ u, w.tasks.lookup i = some u ∧ u.Plays q b)
    (hanswers : ∀ u r, w.tasks.lookup i = some u → u.Answers q r → w'.state.Has q r →
      ∃ t, w'.tasks.lookup i = some t ∧ t.Answers q r) : w'.Sound q := by
  have hentry : w'.entry q = w.entry q := hkeeps.pending
  refine h.step hmoves (.same hentry hsettled.mp) ?_ (h.known hmoves hentry hsettled) ?_ ?_ ?_ ?_
    (h.stillSettled hmoves (.inl hentry) hsettled.mp)
  · intro t b ht hb
    obtain ⟨u, hu, hplays⟩ := hroles t b ht hb
    have hregistered := hmoves.registered q (h.registered (.inr (.inr ⟨i, u, b, hu, hplays⟩)))
    refine ⟨(h.fits i u b hu hplays).of_entry hentry hmoves.clock hsettled.mp, hregistered, ?_⟩
    · by_cases hreg : b = .registering
      · subst hreg
        refine .alone fun j v c hj hv hc => ?_
        exact (h.unique i j u v _ _ (Ne.symm hj) hu hv hplays hc).1 rfl
      · exact .kept hu hplays (fun hclaims => hclaims) hreg
  · intro r hr
    refine .inr ⟨hkeeps.gains r hr, ?_, ?_⟩
    · exact fun hbacked => .inl (hbacked.of_entry hentry hsettled.mpr)
    · exact fun u hu hans => .inr (hanswers u r hu hans hr)
  · intro c hc
    exact hkeeps.funds.mpr (h.funded c (hentry ▸ hc))
  · intro j t _ ht hplays hprogress
    exact hkeeps.funds.mpr (h.committed j t ht hplays (hentry ▸ hprogress))
  · intro t ht hplays hprogress
    obtain ⟨u, hu, hplayed⟩ := hroles t _ ht hplays
    exact hkeeps.funds.mpr (h.committed i u hu hplayed (hentry ▸ hprogress))

/-- A step outside all tasks. -/
theorem Sound.outside (h : w.Sound q) (htasks : w'.tasks = w.tasks)
    (hclock : w'.clock = w.clock) (hregistered : w'.registered = w.registered)
    (hsettled : w'.settled = w.settled) (hobserved : ∀ e ∈ w.observed, e ∈ w'.observed)
    (hkeeps : Keeps w.state w'.state q) : w'.Sound q := by
  refine h.frame (i := 0) ⟨fun _ _ => by rw [htasks], hclock.ge, ?_, hobserved⟩ hkeeps (by rw [hsettled])
    ?_ ?_
  · exact fun _ hmem => hregistered ▸ hmem
  · intro t b ht hb
    rw [htasks] at ht
    exact ⟨t, ht, hb⟩
  · intro u r hu hans _
    exact ⟨u, by rw [htasks]; exact hu, hans⟩

/-! ## Giving back -/

/-- Roles that give back what is left of a quote. -/
def Role.gives : Role → Bool
  | .closing => true
  | .stale => true
  | .ending => true
  | _ => false

theorem Fits.not_confirmed {role : Role} (h : w.Fits q role) {c : ConfirmedQuote E} :
    w.entry q ≠ some (.confirmed c) := by
  intro hc
  cases role with
  | registering =>
    rw [h.1] at hc
    cases hc
  | stale =>
    rcases h with hgone | ⟨quote, validUntil, hlookup, -⟩
    · rw [hc] at hgone
      exact hgone
    · rw [hlookup] at hc
      cases hc
  | ending =>
    unfold Fits at h
    rw [hc] at h
    exact h
  | working committed =>
    rcases h with ⟨since, hlookup⟩ | hgone
    · rw [hlookup] at hc
      cases hc
    · rw [hc] at hgone
      exact hgone
  | closing =>
    rcases h with ⟨since, hlookup⟩ | hgone
    · rw [hlookup] at hc
      cases hc
    · rw [hc] at hgone
      exact hgone

/-- A resource is not confirmed while a role is played, so only a settle can back it. -/
theorem Backed.of_fits {role : Role} {r : Resource} (h : w.Backed q r) (hfits : w.Fits q role)
    (hsettled : q ∈ w.settled → q ∈ w'.settled) : w'.Backed q r := by
  rcases h with ⟨c, hc, -⟩ | ⟨hmem, hlasting⟩
  · exact absurd hc hfits.not_confirmed
  · exact .inr ⟨hsettled hmem, hlasting⟩

/-- A task that gives back resources of the quote: nothing is acquired, the entry stays or goes,
and what the task answered for is given back or still answered for. -/
theorem Sound.gives (h : w.Sound q) (hmoves : Moves w w' i) {t : Task D} {a : Role}
    (ht : w.tasks.lookup i = some t) (hplays : t.Plays q a) (ha : Role.gives a = true)
    (hentry : w'.entry q = w.entry q ∨ w'.entry q = none)
    (hsettled : q ∈ w'.settled ↔ q ∈ w.settled)
    (hloses : ∀ r, w'.state.Has q r → w.state.Has q r)
    (hroles : ∀ u b, w'.tasks.lookup i = some u → u.Plays q b → b = a)
    (hanswers : ∀ r, t.Answers q r → w'.state.Has q r →
      ∃ u, w'.tasks.lookup i = some u ∧ u.Answers q r) : w'.Sound q := by
  have hfits : w.Fits q a := h.fits i t a ht hplays
  have hstep : EntryStep w w' i q := by
    rcases hentry with hsame | hnone
    · exact .same hsame hsettled.mp
    · by_cases hold : w.entry q = none
      · exact .same (hnone.trans hold.symm) hsettled.mp
      · exact .gone (hnone ▸ trivial) hold
  have hregistered : q ∈ w'.registered :=
    hmoves.registered q (h.registered (.inr (.inr ⟨i, t, a, ht, hplays⟩)))
  have notRegistering : a ≠ .registering := by
    rintro rfl
    cases ha
  have notWorking : ∀ committed, a ≠ .working committed := by
    rintro committed rfl
    cases ha
  refine h.step hmoves hstep ?_ (fun _ => hregistered) ?_ ?_ ?_ ?_
    (h.stillSettled hmoves hentry hsettled.mp)
  · intro u b hu hb
    obtain rfl := hroles u b hu hb
    refine ⟨?_, hregistered, .kept ht hplays (fun hclaims => hclaims) notRegistering⟩
    rcases hentry with hsame | hnone
    · exact hfits.of_entry hsame hmoves.clock hsettled.mp
    · exact .of_gone (hnone ▸ trivial) notRegistering
  · intro r hr
    refine .inr ⟨hloses r hr, fun hbacked => .inl (hbacked.of_fits hfits hsettled.mpr), ?_⟩
    intro u hu hans
    obtain rfl := Option.some.inj (ht.symm.trans hu)
    exact .inr (hanswers r hans hr)
  · intro c hc
    rcases hentry with hsame | hnone
    · exact absurd (hsame.symm.trans hc) hfits.not_confirmed
    · rw [hnone] at hc
      cases hc
  · intro j u hj hu hworks hprogress
    exfalso
    rcases hentry with hsame | hnone
    · rw [hsame] at hprogress
      cases a with
      | registering => exact notRegistering rfl
      | working committed => exact notWorking committed rfl
      | closing => exact (h.unique i j t u _ _ (Ne.symm hj) ht hu hplays hworks).2 ⟨rfl, rfl⟩
      | stale =>
        rcases hfits with hgone | ⟨quote, validUntil, hlookup, -⟩
        · exact hgone.not_inProgress hprogress
        · obtain ⟨since, hsince⟩ := hprogress
          rw [hlookup] at hsince
          cases hsince
      | ending => exact Gone.not_inProgress hfits hprogress
    · obtain ⟨since, hsince⟩ := hprogress
      rw [hnone] at hsince
      cases hsince
  · intro u hu hworks _
    exact absurd (hroles u _ hu hworks).symm (notWorking true)

/-! ## Working towards an envelope -/

theorem plays_of_claim {t : ConfirmTask D} {c : Claim} (h : t.claim = some c) :
    (Task.confirm t).Plays c.req.quoteId (.working t.committed) := by
  cases t <;> cases h <;> exact ⟨rfl, rfl⟩

theorem not_answers_of_claim {t : ConfirmTask D} {c : Claim} (h : t.claim = some c) {r : Resource}
    (hr : Lasting r) : ¬ t.Answers r := by
  have hrejecting : t.rejecting = none := by
    cases t <;> first | rfl | cases h
  cases r with
  | funds => exact hr.elim
  | net => exact hr.elim
  | holding cid =>
    rintro ⟨x, hx, -⟩
    rw [hrejecting] at hx
    cases hx
  | ticket e =>
    rintro ⟨x, hx, -⟩
    rw [hrejecting] at hx
    cases hx

/-- The confirm goes on for its quote, or turns to a reject with all it acquired. -/
theorem Sound.works (h : w.Sound q) (hmoves : Moves w w' i) {t t' : ConfirmTask D} {c : Claim}
    (ht : w.tasks.lookup i = some (.confirm t)) (hclaim : t.claim = some c)
    (hq : c.req.quoteId = q) (ht' : w'.tasks.lookup i = some (.confirm t')) (hq' : t'.quoteId = q)
    (hclaims : t'.role.claims = true) {cids : List String} {ticketUntil : Option Instant}
    (hacquires : Acquires w.state w'.state q cids ticketUntil)
    (hsettled : q ∈ w'.settled ↔ q ∈ w.settled)
    (hfunds : t'.role = .working true → t.committed = true ∨ w'.state.Has q .funds)
    (hanswersFunds : t'.answersFunds = true) (hcids : ∀ cid ∈ cids, t'.Answers (.holding cid))
    (hticket : ∀ e, ticketUntil = some e → t'.Answers (.ticket e)) : w'.Sound q := by
  have hplays : (Task.confirm t).Plays q (.working t.committed) := hq ▸ plays_of_claim hclaim
  have hfits := h.fits i _ _ ht hplays
  have hentry : w'.entry q = w.entry q := hacquires.pending
  have alone : ∀ j u, j ≠ i → w.tasks.lookup j = some u → ¬ u.Plays q (.working true) := by
    intro j u hj hu hworks
    exact (h.unique i j _ u _ _ (Ne.symm hj) ht hu hplays hworks).2 ⟨rfl, rfl⟩
  have answers : ∀ r, t'.Answers r → ∃ u, w'.tasks.lookup i = some u ∧ u.Answers q r :=
    fun r hr => ⟨_, ht', hq', hclaims, hr⟩
  have keptOrNew : ∀ r, Lasting r → w.state.Has q r →
      w.state.Has q r ∧
        (w.Backed q r → w'.Backed q r ∨ ∃ u, w'.tasks.lookup i = some u ∧ u.Answers q r) ∧
        ∀ u, w.tasks.lookup i = some u → u.Answers q r →
          w'.Backed q r ∨ ∃ u, w'.tasks.lookup i = some u ∧ u.Answers q r := by
    intro r hr hhas
    refine ⟨hhas, fun hbacked => .inl (hbacked.of_entry hentry hsettled.mpr), ?_⟩
    intro u hu hans
    obtain rfl := Option.some.inj (ht.symm.trans hu)
    exact absurd hans.2.2 (not_answers_of_claim hclaim hr)
  refine h.step hmoves (.same hentry hsettled.mp) ?_ (h.known hmoves hentry hsettled) ?_ ?_ ?_ ?_
    (h.stillSettled hmoves (.inl hentry) hsettled.mp)
  · intro u b hu hb
    obtain rfl := Option.some.inj (ht'.symm.trans hu)
    obtain ⟨-, rfl⟩ := hb
    refine ⟨?_, ?_, ?_⟩
    · have hfits' : InProgress (w'.entry q) ∨ Gone (w'.entry q) := hentry ▸ hfits
      cases hrole : t'.role with
      | working committed => exact hfits'
      | closing => exact hfits'
      | registering => rw [hrole] at hclaims; cases hclaims
      | stale => rw [hrole] at hclaims; cases hclaims
      | ending => rw [hrole] at hclaims; cases hclaims
    · exact hmoves.registered q (h.registered (.inr (.inr ⟨i, _, _, ht, hplays⟩)))
    · refine .kept ht hplays (fun _ => rfl) ?_
      intro hreg
      rw [hreg] at hclaims
      cases hclaims
  · intro r hr
    cases r with
    | funds => exact .inl (.inr (answers _ hanswersFunds))
    | net => exact .inl (.inr (answers _ hanswersFunds))
    | holding cid =>
      rcases hacquires.holding cid hr with hold | hnew
      · exact .inr (keptOrNew _ trivial hold)
      · exact .inl (.inr (answers _ (hcids cid hnew)))
    | ticket e =>
      rcases hacquires.ticket e hr with hold | hnew
      · exact .inr (keptOrNew _ trivial hold)
      · exact .inl (.inr (answers _ (hticket e hnew)))
  · intro c' hc'
    exact hacquires.funds (h.funded c' (hentry ▸ hc'))
  · exact fun j u hj hu hworks _ => absurd hworks (alone j u hj hu)
  · intro u hu hworks hprogress
    obtain rfl := Option.some.inj (ht'.symm.trans hu)
    rcases hfunds hworks.2.symm with hcommitted | hhas
    · exact hacquires.funds (h.committed i _ ht (hcommitted ▸ hplays) (hentry ▸ hprogress))
    · exact hhas

/-- The confirm issues the envelope. -/
theorem Sound.issues (h : w.Sound q) (hmoves : Moves w w' i) {t : ConfirmTask D} {c : Claim}
    (ht : w.tasks.lookup i = some (.confirm t)) (hclaim : t.claim = some c)
    (hq : c.req.quoteId = q) (ht' : w'.tasks.lookup i = none) {issued : ConfirmedQuote E}
    (hsettled : q ∈ w'.settled ↔ q ∈ w.settled) (hprogress : InProgress (w.entry q))
    (hcommitted : t.committed = true) (hconfirmed : w'.entry q = some (.confirmed issued))
    (hfunds : w.state.Has q .funds → w'.state.Has q .funds)
    (hholding : ∀ cid, w'.state.Has q (.holding cid) →
      w.state.Has q (.holding cid) ∨ cid ∈ issued.holdingCids)
    (hticket : ∀ e, w'.state.Has q (.ticket e) →
      w.state.Has q (.ticket e) ∨ issued.expiresAt = e) : w'.Sound q := by
  have hplays : (Task.confirm t).Plays q (.working t.committed) := hq ▸ plays_of_claim hclaim
  have notGone : ¬ Gone (w.entry q) := fun hgone => hgone.not_inProgress hprogress
  have alone : Alone w i q := by
    intro j u b hj hu hb
    have hfits := h.fits j u b hu hb
    cases b with
    | registering => exact (h.unique j i u _ _ _ hj hu ht hb hplays).1 rfl
    | working committed => exact (h.unique i j _ u _ _ (Ne.symm hj) ht hu hplays hb).2 ⟨rfl, rfl⟩
    | closing => exact (h.unique i j _ u _ _ (Ne.symm hj) ht hu hplays hb).2 ⟨rfl, rfl⟩
    | stale =>
      rcases hfits with hgone | ⟨quote, validUntil, hlookup, -⟩
      · exact notGone hgone
      · obtain ⟨since, hsince⟩ := hprogress
        rw [hlookup] at hsince
        cases hsince
    | ending => exact notGone hfits
  have notSettled : q ∉ w.settled := by
    intro hmem
    obtain ⟨since, hsince⟩ := hprogress
    rcases (h.settled hmem).1 with hnone | ⟨since', hsettledEntry⟩
    · rw [hnone] at hsince
      cases hsince
    · rw [hsettledEntry] at hsince
      cases hsince
  have hregistered : q ∈ w'.registered :=
    hmoves.registered q (h.registered (.inr (.inr ⟨i, _, _, ht, hplays⟩)))
  have lasting : ∀ r, Lasting r → w.state.Has q r →
      w.state.Has q r ∧
        (w.Backed q r → w'.Backed q r ∨ ∃ u, w'.tasks.lookup i = some u ∧ u.Answers q r) ∧
        ∀ u, w.tasks.lookup i = some u → u.Answers q r →
          w'.Backed q r ∨ ∃ u, w'.tasks.lookup i = some u ∧ u.Answers q r := by
    intro r hr hhas
    refine ⟨hhas, fun hbacked => ?_, ?_⟩
    · exact .inl (hbacked.of_fits (h.fits i _ _ ht hplays) hsettled.mpr)
    · intro u hu hans
      obtain rfl := Option.some.inj (ht.symm.trans hu)
      exact absurd hans.2.2 (not_answers_of_claim hclaim hr)
  refine h.step hmoves (.alone alone) ?_ (fun _ => hregistered) ?_ ?_ ?_ ?_ ?_
  · intro u b hu _
    rw [ht'] at hu
    cases hu
  · intro r hr
    cases r with
    | funds => exact .inl (.inl (.inl ⟨issued, hconfirmed, trivial⟩))
    | net => exact .inl (.inl (.inl ⟨issued, hconfirmed, trivial⟩))
    | holding cid =>
      rcases hholding cid hr with hold | hnew
      · exact .inr (lasting _ trivial hold)
      · exact .inl (.inl (.inl ⟨issued, hconfirmed, hnew⟩))
    | ticket e =>
      rcases hticket e hr with hold | hnew
      · exact .inr (lasting _ trivial hold)
      · exact .inl (.inl (.inl ⟨issued, hconfirmed, hnew⟩))
  · exact fun _ _ => hfunds (h.committed i _ ht (hcommitted ▸ hplays) hprogress)
  · exact fun j u hj hu hworks _ => absurd hworks (alone j u _ hj hu)
  · intro u hu _ _
    rw [ht'] at hu
    cases hu
  · exact fun hmem => absurd (hsettled.mp hmem) notSettled

theorem answersFunds_of_claim {t : ConfirmTask D} {c : Claim} (h : t.claim = some c) :
    t.quoteId = c.req.quoteId ∧ t.answersFunds = true := by
  cases t <;> cases h <;> exact ⟨rfl, rfl⟩

/-- A stretch of a confirm that has claimed the quote. -/
theorem Sound.outcome {c : Claim} (h : w.Sound c.req.quoteId) (hmoves : Moves w w' i)
    {t : ConfirmTask D} (ht : w.tasks.lookup i = some (.confirm t)) (hclaim : t.claim = some c)
    {r : ConfirmStretch D K E} (houtcome : Outcome w.state c t.committed r) (hstate : w'.state = r.1)
    (htask : w'.tasks.lookup i = r.2.task.map .confirm)
    (hsettled : c.req.quoteId ∈ w'.settled ↔ c.req.quoteId ∈ w.settled) :
    w'.Sound c.req.quoteId := by
  have carried : ∀ {x : Rejecting} {ticketUntil : Option Instant} {e : Instant},
      x.ticketAssigned = ticketUntil.isSome → ticketUntil = some e → x.ticketAssigned = true := by
    rintro x ticketUntil e hassigned rfl
    exact hassigned
  cases houtcome with
  | waits hclaim' hacquires hfunds =>
    rename_i s' t'
    obtain rfl : w'.state = s' := hstate
    obtain ⟨hquote, hanswers⟩ := answersFunds_of_claim hclaim'
    obtain ⟨-, hrole⟩ := plays_of_claim hclaim'
    refine h.works hmoves ht hclaim rfl htask hquote (hrole ▸ rfl) hacquires hsettled ?_
      hanswers (fun cid hcid => absurd hcid List.not_mem_nil) (fun e he => by cases he)
    intro hworking
    rw [← hrole] at hworking
    exact hfunds (Role.working.inj hworking)
  | rejects hquote hclaimed hacquires hticket =>
    rename_i s' x ticketUntil
    obtain rfl : w'.state = s' := hstate
    have hrole : (ConfirmTask.reject (D := D) x).role = .closing := if_pos hclaimed
    refine h.works hmoves ht hclaim rfl htask hquote (hrole ▸ rfl) hacquires hsettled ?_
      rfl (fun cid hcid => ⟨x, rfl, hcid⟩) fun e he => ⟨x, rfl, carried hticket he⟩
    rw [hrole]
    rintro ⟨⟩
  | withholds hquote hclaimed hacquires hticket =>
    rename_i s' x ticketUntil
    obtain rfl : w'.state = s' := hstate
    have hrole : (ConfirmTask.withhold (D := D) x).role = .closing := if_pos hclaimed
    refine h.works hmoves ht hclaim rfl htask hquote (hrole ▸ rfl) hacquires hsettled ?_
      rfl (fun cid hcid => ⟨x, rfl, hcid⟩) fun e he => ⟨x, rfl, carried hticket he⟩
    rw [hrole]
    rintro ⟨⟩
  | issues hcommitted hprogress hconfirmed hothers hfunds hholding hticket =>
    rename_i s' issued result
    obtain rfl : w'.state = s' := hstate
    exact h.issues hmoves ht hclaim rfl htask hsettled hprogress hcommitted hconfirmed hfunds
      hholding hticket

/-- A step of a task that is about other quotes before and after. -/
theorem Sound.elsewhere (h : w.Sound q) (hmoves : Moves w w' i)
    (hkeeps : Keeps w.state w'.state q) (hsettled : q ∈ w'.settled ↔ q ∈ w.settled)
    (hnew : ∀ t b, w'.tasks.lookup i = some t → ¬ t.Plays q b)
    (hold : ∀ t r, w.tasks.lookup i = some t → ¬ t.Answers q r) : w'.Sound q :=
  h.frame hmoves hkeeps hsettled (fun t b ht hb => absurd hb (hnew t b ht))
    fun t r ht hans _ => absurd hans (hold t r ht)

/-- A stretch of a confirm that has claimed a quote, seen from any quote. -/
theorem Sound.confirms {c : Claim} (h : w.Sound q) (hmoves : Moves w w' i)
    {t : ConfirmTask D} (ht : w.tasks.lookup i = some (.confirm t)) (hclaim : t.claim = some c)
    {r : ConfirmStretch D K E} (houtcome : Outcome w.state c t.committed r) (hstate : w'.state = r.1)
    (htask : w'.tasks.lookup i = r.2.task.map .confirm) (hsettled : w'.settled = w.settled) :
    w'.Sound q := by
  by_cases hq : q = c.req.quoteId
  · subst hq
    exact h.outcome hmoves ht hclaim houtcome hstate htask (by rw [hsettled])
  · refine h.elsewhere hmoves (hstate ▸ houtcome.keeps hq) (by rw [hsettled]) ?_ ?_
    · intro u b hu hb
      rw [htask, Option.map_eq_some_iff] at hu
      obtain ⟨t', ht', rfl⟩ := hu
      refine hq (hb.1.symm.trans ?_)
      cases houtcome with
      | waits hclaim' hacquires hfunds =>
        cases ht'
        exact (answersFunds_of_claim hclaim').1
      | rejects hquote hclaimed hacquires hticket =>
        cases ht'
        exact hquote
      | withholds hquote hclaimed hacquires hticket =>
        cases ht'
        exact hquote
      | issues hcommitted hprogress hconfirmed hothers hfunds hholding hticket => cases ht'
    · intro u r hu hans
      obtain rfl := Option.some.inj (ht.symm.trans hu)
      exact hq (hans.1.symm.trans (answersFunds_of_claim hclaim).1)

end Quotes

end BookAgent.CloudAgent
