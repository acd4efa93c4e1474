import BookAgent.CloudAgent.QuoteReleases

/-!
# Every event keeps the quotes sound

One lemma for each event: the first stretch of a handler, a resumption, and what other
code does to the stores.
-/

namespace BookAgent.CloudAgent

open BookAgent.Lib BookAgent.AgentLogic RfqV2State

variable {D K E : Type}

namespace Quotes

variable {w : Quotes D K E} {i : Nat} {q : String}

/-! ## Quotes without a task -/

/-- A live indicative quote has no task. -/
theorem Sound.no_task_of_indicative (h : w.Sound q) {quote : LiveQuote} {validUntil : Instant}
    (hentry : w.entry q = some (.indicative quote validUntil)) (hlive : w.clock < validUntil) :
    ∀ j t role, w.tasks.lookup j = some t → ¬ t.Plays q role := by
  intro j t role ht hplays
  have hfits := h.fits j t role ht hplays
  cases role with
  | registering =>
    rw [hfits.1] at hentry
    cases hentry
  | working committed =>
    rcases hfits with ⟨since, hsince⟩ | hgone
    · rw [hsince] at hentry
      cases hentry
    · rw [hentry] at hgone
      exact hgone
  | closing =>
    rcases hfits with ⟨since, hsince⟩ | hgone
    · rw [hsince] at hentry
      cases hentry
    · rw [hentry] at hgone
      exact hgone
  | stale =>
    rcases hfits with hgone | ⟨quote', validUntil', hlookup, hpast⟩
    · rw [hentry] at hgone
      exact hgone
    · rw [hentry] at hlookup
      cases hlookup
      exact absurd hlive (not_lt.mpr hpast)
  | ending =>
    unfold Fits at hfits
    rw [hentry] at hfits
    exact hfits

/-- A quote that was never registered has no task, no entry and no history. -/
theorem Sound.fresh (h : w.Sound q) (hfresh : q ∉ w.registered) :
    w.entry q = none ∧ q ∉ w.settled ∧
      ∀ j t role, w.tasks.lookup j = some t → ¬ t.Plays q role := by
  refine ⟨?_, ?_, ?_⟩
  · by_contra hentry
    exact hfresh (h.registered (.inl hentry))
  · exact fun hmem => hfresh (h.registered (.inr (.inl hmem)))
  · exact fun j t role ht hplays => hfresh (h.registered (.inr (.inr ⟨j, t, role, ht, hplays⟩)))

section Events

variable [Field K] [LinearOrder K] {cfg : RfqV2Config K}

/-! ## Registrations -/

theorem sound_register (h : w.Sound q) {call : RegisterCall} (hid : i ∉ w.tasks)
    (hfresh : call.quoteId ∉ w.registered) : (w.apply cfg (.register i call)).Sound q := by
  have hnone : w.tasks.lookup i = none := AList.lookup_eq_none.mpr hid
  have hstate : (w.state.registerIndicative cfg call).1 = w.state := by
    unfold registerIndicative
    split <;> rfl
  have htask : ∀ t, (w.state.registerIndicative cfg call).2.task = some t →
      t.quoteId = call.quoteId := by
    unfold registerIndicative
    split
    · rintro t ⟨⟩
    · rintro t ⟨⟩
      rfl
  have hmoves : Moves w (w.apply cfg (.register i call)) i :=
    moves_after rfl le_rfl (fun _ hmem => List.mem_cons_of_mem _ hmem) rfl
  have hkeeps : Keeps w.state (w.apply cfg (.register i call)).state q := by
    change Keeps w.state (w.state.registerIndicative cfg call).1 q
    rw [hstate]
    exact .refl _ q
  have hplays : ∀ t b, (w.apply cfg (.register i call)).tasks.lookup i = some t → t.Plays q b →
      q = call.quoteId ∧ b = .registering := by
    intro t b ht hb
    rw [apply, lookup_after, Option.map_eq_some_iff] at ht
    obtain ⟨u, hu, rfl⟩ := ht
    exact ⟨hb.1.symm.trans (htask u hu), hb.2⟩
  by_cases hq : q = call.quoteId
  · subst hq
    obtain ⟨hentry, hsettled, hidle⟩ := h.fresh hfresh
    have hentry' := hkeeps.pending.trans hentry
    refine h.step hmoves (.same hkeeps.pending id) ?_ (fun _ => List.mem_cons_self) ?_ ?_ ?_ ?_
      fun hmem => absurd hmem hsettled
    · intro t b ht hb
      obtain ⟨-, rfl⟩ := hplays t b ht hb
      exact ⟨⟨hentry', hsettled⟩, List.mem_cons_self,
        .alone fun j u role _ hu hplayed => hidle j u role hu hplayed⟩
    · intro r hr
      refine .inr ⟨hkeeps.gains r hr, fun hbacked => ?_, fun t ht => ?_⟩
      · exact .inl (hbacked.of_entry hkeeps.pending id)
      · rw [hnone] at ht
        cases ht
    · intro c hc
      rw [entry, hentry'] at hc
      cases hc
    · exact fun j t _ ht hworks => absurd hworks (hidle j t _ ht)
    · intro t ht hworks
      cases (hplays t _ ht hworks).2
  · refine h.elsewhere hmoves hkeeps Iff.rfl ?_ ?_
    · exact fun t b ht hb => hq (hplays t b ht hb).1
    · intro t r ht
      rw [hnone] at ht
      cases ht

theorem sound_resumeRegister (h : w.Sound q) {t : RegisterTask} {now : Instant}
    (ht : w.tasks.lookup i = some (.register t)) (hclock : w.clock ≤ now) :
    ({ w with clock := now }.after i .register (w.state.resumeRegister cfg now t)).Sound q := by
  have hmoves : ∀ {r : RegisterStretch D K E},
      Moves w ({ w with clock := now }.after i Task.register r) i :=
    moves_after rfl hclock (fun _ hmem => hmem) rfl
  have noAnswer : ∀ u r, w.tasks.lookup i = some u → ¬ u.Answers q r := by
    intro u r hu
    obtain rfl := Option.some.inj (ht.symm.trans hu)
    exact id
  cases t with
  | available call lpPaysKey =>
    have hstate : (w.state.resumeRegister cfg now (.available call lpPaysKey)).1 = w.state := by
      unfold resumeRegister
      dsimp only
      split_ifs <;> rfl
    have htask : ∀ t, (w.state.resumeRegister cfg now (.available call lpPaysKey)).2.task = some t →
        t.quoteId = call.quoteId := by
      unfold resumeRegister
      dsimp only
      split_ifs
      · rintro t ⟨⟩
      · rintro t ⟨⟩
      · rintro t ⟨⟩
        rfl
    refine h.frame hmoves ?_ Iff.rfl ?_ fun u r hu hans => absurd hans (noAnswer u r hu)
    · change Keeps w.state (w.state.resumeRegister cfg now (.available call lpPaysKey)).1 q
      rw [hstate]
      exact .refl _ q
    · intro u b hu hb
      rw [lookup_after, Option.map_eq_some_iff] at hu
      obtain ⟨v, hv, rfl⟩ := hu
      exact ⟨_, ht, (htask v hv).symm.trans hb.1, hb.2⟩
  | select call lpPaysKey validUntil =>
    have hgone : ({ w with clock := now }.after i Task.register
        (w.state.resumeRegister cfg now (.select call lpPaysKey validUntil))).tasks.lookup i
        = none := lookup_after
    have noTask : ∀ u, ({ w with clock := now }.after i Task.register
        (w.state.resumeRegister cfg now (.select call lpPaysKey validUntil))).tasks.lookup i
        ≠ some u := by
      intro u hu
      rw [hgone] at hu
      cases hu
    by_cases hq : q = call.quoteId
    · subst hq
      have hplays : (Task.register (.select call lpPaysKey validUntil) : Task D).Plays call.quoteId
          .registering := ⟨rfl, rfl⟩
      have hfits := h.fits i _ _ ht hplays
      have alone : Alone w i call.quoteId := fun j u b hj hu hb =>
        (h.unique i j _ u _ _ (Ne.symm hj) ht hu hplays hb).1 rfl
      have hentry : ({ w with clock := now }.after i Task.register
          (w.state.resumeRegister cfg now (.select call lpPaysKey validUntil))).entry call.quoteId
          = some (.indicative _ validUntil) := AList.lookup_insert _
      refine h.step hmoves (.alone alone) (fun u b hu => absurd hu (noTask u)) ?_ ?_ ?_ ?_
        (fun u hu => absurd hu (noTask u)) fun hmem => absurd hmem hfits.2
      · exact fun _ => h.registered (.inr (.inr ⟨i, _, _, ht, hplays⟩))
      · intro r hr
        refine .inr ⟨by cases r <;> exact hr, fun hbacked => .inl (hbacked.of_fits hfits id), ?_⟩
        exact fun u hu hans => absurd hans (noAnswer u r hu)
      · intro c hc
        rw [hentry] at hc
        cases hc
      · exact fun j u hj hu hworks => absurd hworks (alone j u _ hj hu)
    · refine h.elsewhere hmoves (keeps_setPending hq) Iff.rfl
        (fun u b hu => absurd hu (noTask u)) noAnswer

/-! ## Confirms -/

omit [Field K] [LinearOrder K] in
/-- A confirm claims a live indicative quote. -/
theorem sound_claim (h : w.Sound q) {now : Instant} {quote : LiveQuote} {validUntil : Instant}
    {t : ConfirmTask D} {c : Claim} (hid : i ∉ w.tasks) (hclock : w.clock ≤ now)
    (hentry : w.entry q = some (.indicative quote validUntil)) (hlive : now < validUntil)
    (hclaim : t.claim = some c) (hq : c.req.quoteId = q) (hcommitted : t.committed = false) :
    Sound { w with
      state := w.state.setPending q (.confirming now)
      clock := now
      tasks := w.tasks.insert i (.confirm t) } q := by
  have hidle := h.no_task_of_indicative hentry (lt_of_le_of_lt hclock hlive)
  have alone : Alone w i q := fun j u b _ hu => hidle j u b hu
  have hentry' : (w.state.setPending q (.confirming now)).pending.lookup q
      = some (.confirming now) := AList.lookup_insert _
  have hregistered : q ∈ w.registered := h.registered (.inl (hentry ▸ Option.some_ne_none _))
  have htask : (w.tasks.insert i (.confirm t)).lookup i = some (.confirm t) := AList.lookup_insert _
  have hplays := hcommitted ▸ hq ▸ plays_of_claim hclaim
  have notSettled : q ∉ w.settled := by
    intro hmem
    rcases (h.settled hmem).1 with hnone | ⟨since, hsince⟩
    · rw [hnone] at hentry
      cases hentry
    · rw [hsince] at hentry
      cases hentry
  have hrole : ∀ u b, (w.tasks.insert i (.confirm t)).lookup i = some u → u.Plays q b →
      b = .working false := by
    intro u b hu hb
    obtain rfl := Option.some.inj (htask.symm.trans hu)
    exact hb.2.trans hplays.2.symm
  refine h.step ⟨fun j hj => AList.lookup_insert_ne hj, hclock, fun _ hmem => hmem, fun _ he => he⟩
    (.alone alone) ?_ (fun _ => hregistered) ?_ ?_ ?_ ?_ fun hmem => absurd hmem notSettled
  · intro u b hu hb
    obtain rfl := hrole u b hu hb
    exact ⟨.inl ⟨now, hentry'⟩, hregistered, .alone alone⟩
  · intro r hr
    refine .inr ⟨by cases r <;> exact hr, ?_, ?_⟩
    · rintro (⟨c', hc', -⟩ | hback)
      · rw [show w.state.pending.lookup q = w.entry q from rfl, hentry] at hc'
        cases hc'
      · exact .inl (.inr hback)
    · intro u hu
      rw [AList.lookup_eq_none.mpr hid] at hu
      cases hu
  · intro c' hc'
    cases hentry'.symm.trans hc'
  · exact fun j u hj hu hworks => absurd hworks (alone j u _ hj hu)
  · intro u hu hworks
    cases hrole u _ hu hworks

omit [Field K] [LinearOrder K] in
/-- A confirm finds an indicative quote past its validity and turns to a reject. -/
theorem sound_stale (h : w.Sound q) {now : Instant} {x : Rejecting} {quote : LiveQuote}
    {validUntil : Instant} {r : ConfirmStretch D K E} (hid : i ∉ w.tasks) (hclock : w.clock ≤ now)
    (hentry : w.entry x.quoteId = some (.indicative quote validUntil)) (hpast : validUntil ≤ now)
    (hstate : r.1 = w.state) (htask : r.2.task = some (.reject x)) (hclaimed : x.claimed = false) :
    Sound ({ w with clock := now }.after i .confirm r) q := by
  have hmoves : Moves w ({ w with clock := now }.after i Task.confirm r) i :=
    moves_after rfl hclock (fun _ hmem => hmem) rfl
  have hkeeps : Keeps w.state ({ w with clock := now }.after i Task.confirm r).state q := by
    change Keeps w.state r.1 q
    rw [hstate]
    exact .refl _ q
  have noTask : ∀ u, w.tasks.lookup i ≠ some u := by
    intro u hu
    rw [AList.lookup_eq_none.mpr hid] at hu
    cases hu
  have hplays : ∀ u b, ({ w with clock := now }.after i Task.confirm r).tasks.lookup i = some u →
      u.Plays q b → x.quoteId = q ∧ b = .stale := by
    intro u b hu hb
    rw [lookup_after, htask] at hu
    obtain rfl := Option.some.inj hu
    refine ⟨hb.1, hb.2.trans ?_⟩
    exact if_neg (by rw [hclaimed]; exact Bool.false_ne_true)
  by_cases hq : x.quoteId = q
  · subst hq
    have hne : w.entry x.quoteId ≠ none := by
      rw [hentry]
      exact Option.some_ne_none _
    have hregistered : x.quoteId ∈ w.registered := h.registered (.inl hne)
    have hsame := hkeeps.pending
    refine h.step hmoves (.same hsame id) ?_ (fun _ => hregistered) ?_ ?_ ?_ ?_
      (h.stillSettled hmoves (.inl hsame) id)
    · intro u b hu hb
      obtain ⟨-, rfl⟩ := hplays u b hu hb
      refine ⟨.inr ⟨quote, validUntil, hsame.trans hentry, hpast⟩, hregistered, ?_⟩
      exact .late hne rfl (by rintro ⟨⟩)
    · intro res hres
      refine .inr ⟨hkeeps.gains res hres, fun hbacked => .inl (hbacked.of_entry hsame id), ?_⟩
      exact fun u hu => absurd hu (noTask u)
    · exact fun c hc => hkeeps.funds.mpr (h.funded c (hsame.symm.trans hc))
    · intro j u _ hu hworks ⟨since, hsince⟩
      exact hkeeps.funds.mpr (h.committed j u hu hworks ⟨since, hsame.symm.trans hsince⟩)
    · intro u hu hworks
      cases (hplays u _ hu hworks).2
  · refine h.elsewhere hmoves hkeeps Iff.rfl ?_ fun u _ hu => absurd hu (noTask u)
    exact fun u b hu hb => hq (hplays u b hu hb).1

theorem sound_confirm (h : w.Sound q) {req : RfqConfirmRequest} {startMicros : Int}
    {a : ConfirmAnswers D K E} (hid : i ∉ w.tasks) (hclock : w.clock ≤ a.now) :
    (w.apply cfg (.confirm i req startMicros a)).Sound q := by
  have hnone : w.tasks.lookup i = none := AList.lookup_eq_none.mpr hid
  have noTask : ∀ {P : Prop} u, w.tasks.lookup i = some u → P := by
    intro P u hu
    rw [hnone] at hu
    cases hu
  have hmoves : ∀ {r : ConfirmStretch D K E},
      Moves w ({ w with clock := a.now }.after i Task.confirm r) i :=
    moves_after rfl hclock (fun _ hmem => hmem) rfl
  change Sound ({ w with clock := a.now }.after i .confirm
    (w.state.handleConfirm cfg req startMicros a)) q
  generalize hr : w.state.handleConfirm cfg req startMicros a = r
  have hconfirms : Confirms w.state req.quoteId a.now r := hr ▸ confirms_handleConfirm
  cases hconfirms with
  | answers =>
    refine h.elsewhere hmoves (.refl _ q) Iff.rfl ?_ fun u _ hu => noTask u hu
    intro u b hu
    rw [lookup_after] at hu
    cases hu
  | stale hentry hpast =>
    rename_i reject
    exact sound_stale (x := ⟨req.quoteId, false, [], false, reject⟩) h hid hclock hentry hpast
      rfl rfl rfl
  | claims hentry hlive hquote houtcome =>
    rename_i quote validUntil c
    -- The claim first, then the stretch that follows it.
    have hclaimed : Sound { w with
        state := w.state.setPending req.quoteId (.confirming a.now)
        clock := a.now
        tasks := w.tasks.insert i (.confirm (.mids c)) } q := by
      by_cases hq : q = req.quoteId
      · subst hq
        exact sound_claim h hid hclock hentry hlive rfl hquote rfl
      · refine h.elsewhere ⟨fun j hj => AList.lookup_insert_ne hj, hclock, fun _ hmem => hmem,
          fun _ he => he⟩ (keeps_setPending hq) Iff.rfl ?_ fun u _ hu => noTask u hu
        intro u b hu hb
        rw [AList.lookup_insert] at hu
        obtain rfl := Option.some.inj hu
        exact hq (hb.1.symm.trans hquote)
    refine hclaimed.confirms (i := i) ⟨?_, le_rfl, fun _ hmem => hmem, fun _ he => he⟩
      (AList.lookup_insert _) rfl houtcome rfl lookup_after rfl
    intro j hj
    rw [lookup_after_ne hj, AList.lookup_insert_ne hj]

theorem sound_resumeConfirm (h : w.Sound q) {t : ConfirmTask D} {a : ConfirmAnswers D K E}
    (ht : w.tasks.lookup i = some (.confirm t)) (hclock : w.clock ≤ a.now) :
    ({ w with clock := a.now }.after i .confirm (w.state.resumeConfirm cfg a t)).Sound q := by
  have hmoves : Moves w
      ({ w with clock := a.now }.after i Task.confirm (w.state.resumeConfirm cfg a t)) i :=
    moves_after rfl hclock (fun _ hmem => hmem) rfl
  cases hclaim : t.claim with
  | some c => exact h.confirms hmoves ht hclaim (outcome_resume hclaim) rfl lookup_after rfl
  | none =>
    have hrejecting : ∃ x, t.rejecting = some x := by
      cases t <;> first | exact ⟨_, rfl⟩ | cases hclaim
    obtain ⟨x, hx⟩ := hrejecting
    have hgives : GivesBack w.state t (w.state.resumeConfirm cfg a t) := givesBack_resume hx
    by_cases hq : q = t.quoteId
    · subst hq
      have hrole : Role.gives t.role = true := by
        unfold ConfirmTask.role
        rw [hx]
        dsimp only
        split <;> rfl
      refine h.gives hmoves ht ⟨rfl, rfl⟩ hrole hgives.entry Iff.rfl hgives.loses ?_ ?_
      · intro u b hu hb
        rw [lookup_after, Option.map_eq_some_iff] at hu
        obtain ⟨t', ht', rfl⟩ := hu
        exact hb.2.trans (hgives.task t' ht').2
      · rintro r ⟨-, hclaims, hans⟩ hr
        obtain ⟨t', ht', hans'⟩ := hgives.answers r hans hr
        obtain ⟨hquote, hrole'⟩ := hgives.task t' ht'
        refine ⟨.confirm t', ?_, hquote, hrole' ▸ hclaims, hans'⟩
        rw [lookup_after, ht']
        rfl
    · refine h.elsewhere hmoves (hgives.others q hq) Iff.rfl ?_ ?_
      · intro u b hu hb
        rw [lookup_after, Option.map_eq_some_iff] at hu
        obtain ⟨t', ht', rfl⟩ := hu
        exact hq (hb.1.symm.trans (hgives.task t' ht').1)
      · intro u r hu hans
        obtain rfl := Option.some.inj (ht.symm.trans hu)
        exact hq hans.1.symm

/-! ## Settles -/

theorem sound_settle (h : w.Sound q) {quoteId : String} {now : Instant} (hid : i ∉ w.tasks)
    (hclock : w.clock ≤ now) (hobserved : ∃ cid, (quoteId, cid) ∈ w.observed) :
    (w.apply cfg (.settle i quoteId now)).Sound q := by
  have noTask : ∀ u, w.tasks.lookup i ≠ some u := by
    intro u hu
    rw [AList.lookup_eq_none.mpr hid] at hu
    cases hu
  by_cases hconfirmed : ∃ c, w.entry quoteId = some (.confirmed c)
  · obtain ⟨c, hc⟩ := hconfirmed
    have hsettled : (w.apply cfg (.settle i quoteId now)).settled = quoteId :: w.settled := by
      change (if isConfirmed w.state quoteId = true then quoteId :: w.settled else w.settled) = _
      unfold isConfirmed
      rw [show w.state.pending.lookup quoteId = _ from hc]
      rfl
    obtain ⟨t, htask, hquote, hentry, hkeeps⟩ :
        ∃ t, (w.state.handleSettleObserved quoteId now).2.task = some t ∧ t.quoteId = quoteId ∧
          (w.state.handleSettleObserved quoteId now).1.pending.lookup quoteId = some (.settled now) ∧
          ∀ other, other ≠ quoteId →
            Keeps w.state (w.state.handleSettleObserved quoteId now).1 other := by
      unfold handleSettleObserved
      rw [show w.state.pending.lookup quoteId = _ from hc]
      dsimp only
      split
      · exact ⟨_, rfl, rfl, AList.lookup_insert _, fun other hother => keeps_setPending hother⟩
      · refine ⟨_, rfl, rfl, keeps_spendTicket.pending.trans (AList.lookup_insert _), ?_⟩
        exact fun other hother => (keeps_setPending hother).trans keeps_spendTicket
    have hmoves : Moves w (w.apply cfg (.settle i quoteId now)) i :=
      moves_after rfl hclock (fun _ hmem => hmem) rfl
    have htask' : (w.apply cfg (.settle i quoteId now)).tasks.lookup i = some (.settle t) := by
      rw [apply, lookup_after, htask]
      rfl
    have hplays : ∀ u b, (w.apply cfg (.settle i quoteId now)).tasks.lookup i = some u →
        u.Plays q b → quoteId = q ∧ b = .ending := by
      intro u b hu hb
      obtain rfl := Option.some.inj (htask'.symm.trans hu)
      exact ⟨hquote.symm.trans hb.1, hb.2⟩
    by_cases hq : quoteId = q
    · subst hq
      have hne : w.entry quoteId ≠ none := hc ▸ Option.some_ne_none _
      have hregistered : quoteId ∈ w.registered := h.registered (.inl hne)
      have hgone : Gone ((w.apply cfg (.settle i quoteId now)).entry quoteId) :=
        (congrArg Gone hentry).mpr trivial
      have lasting : ∀ r, Lasting r → (w.apply cfg (.settle i quoteId now)).Backed quoteId r :=
        fun r hr => .inr ⟨hsettled ▸ List.mem_cons_self, hr⟩
      refine h.step hmoves (.gone hgone hne) ?_ (fun _ => hregistered) ?_ ?_ ?_ ?_
        fun _ => ⟨.inr ⟨now, hentry⟩, hobserved⟩
      · intro u b hu hb
        obtain ⟨-, rfl⟩ := hplays u b hu hb
        exact ⟨hgone, hregistered, .late hne rfl (by rintro ⟨⟩)⟩
      · intro r _
        cases r with
        | funds => exact .inl (.inr ⟨_, htask', hquote, .inl rfl⟩)
        | net => exact .inl (.inr ⟨_, htask', hquote, .inr rfl⟩)
        | holding cid => exact .inl (.inl (lasting _ trivial))
        | ticket e => exact .inl (.inl (lasting _ trivial))
      · intro c' hc'
        cases hentry.symm.trans hc'
      · exact fun j u _ _ _ hprogress => absurd hprogress hgone.not_inProgress
      · exact fun u _ _ hprogress => absurd hprogress hgone.not_inProgress
    · refine h.elsewhere hmoves (hkeeps q (Ne.symm hq)) ?_ ?_ fun u _ hu => absurd hu (noTask u)
      · rw [hsettled, List.mem_cons]
        exact or_iff_right (Ne.symm hq)
      · exact fun u b hu hb => hq (hplays u b hu hb).1
  · have hnone : w.state.handleSettleObserved quoteId now = (w.state, .done ()) := by
      unfold handleSettleObserved
      split
      · rename_i c hc
        exact absurd ⟨c, hc⟩ hconfirmed
      · rfl
    have hsettled : (w.apply cfg (.settle i quoteId now)).settled = w.settled := by
      refine if_neg ?_
      unfold isConfirmed
      split
      · rename_i c hc
        exact absurd ⟨c, hc⟩ hconfirmed
      · exact Bool.false_ne_true
    refine h.elsewhere (moves_after rfl hclock (fun _ hmem => hmem) rfl) ?_ (by rw [hsettled]) ?_
      fun u _ hu => absurd hu (noTask u)
    · change Keeps w.state (w.state.handleSettleObserved quoteId now).1 q
      rw [hnone]
      exact .refl _ q
    · intro u b hu
      rw [apply, lookup_after, hnone] at hu
      cases hu

omit [Field K] [LinearOrder K] in
theorem sound_resumeSettle (h : w.Sound q) {t : SettleTask}
    (ht : w.tasks.lookup i = some (.settle t)) :
    (w.after i .settle (w.state.resumeSettle t)).Sound q := by
  have hmoves : Moves w (w.after i Task.settle (w.state.resumeSettle t)) i :=
    moves_after rfl le_rfl (fun _ hmem => hmem) rfl
  have hsettles : Settles w.state t (w.state.resumeSettle t) := settles_resume
  have hplays : ∀ u b, (w.after i Task.settle (w.state.resumeSettle t)).tasks.lookup i = some u →
      u.Plays q b → t.quoteId = q ∧ b = .ending := by
    intro u b hu hb
    rw [lookup_after, Option.map_eq_some_iff] at hu
    obtain ⟨t', ht', rfl⟩ := hu
    exact ⟨(hsettles.task t' ht').symm.trans hb.1, hb.2⟩
  by_cases hq : t.quoteId = q
  · subst hq
    refine h.gives hmoves ht ⟨rfl, rfl⟩ rfl (.inl hsettles.entry) Iff.rfl hsettles.loses ?_ ?_
    · exact fun u b hu hb => (hplays u b hu hb).2
    · rintro r ⟨-, hr⟩ hhas
      obtain ⟨t', ht'⟩ := Option.ne_none_iff_exists'.mp (hsettles.answers r hr hhas)
      refine ⟨.settle t', ?_, hsettles.task t' ht', hr⟩
      rw [lookup_after, ht']
      rfl
  · refine h.elsewhere hmoves (hsettles.others q (Ne.symm hq)) Iff.rfl ?_ ?_
    · exact fun u b hu hb => hq (hplays u b hu hb).1
    · intro u r hu hans
      obtain rfl := Option.some.inj (ht.symm.trans hu)
      exact hq hans.1

/-! ## Sweeps -/

omit [Field K] [LinearOrder K] in
theorem quoteId_of_expire {e : PendingV2 E} {now : Instant} {x : Release}
    (h : e.sweep q now = .expire x) : x.quoteId = q := by
  cases e with
  | indicative quote validUntil =>
    dsimp only [PendingV2.sweep] at h
    split at h <;> cases h
    rfl
  | confirming since =>
    dsimp only [PendingV2.sweep] at h
    split at h <;> cases h
    rfl
  | confirmed c =>
    dsimp only [PendingV2.sweep] at h
    split at h <;> cases h
    rfl
  | settled since =>
    dsimp only [PendingV2.sweep] at h
    split at h <;> cases h
  | expired since =>
    dsimp only [PendingV2.sweep] at h
    split at h <;> cases h

omit [Field K] [LinearOrder K] in
/-- The entry of a quote after the first pass of a sweep: as it was, or gone, and then what
the quote was backed by is about to be released. -/
theorem sweep_entry (s : RfqV2State D K E) (q : String) (now : Instant) {entries : Pool String (PendingV2 E)}
    (hentries : entries = (s.pending.retain fun q e => !collects now q e).mapVal (sweepEntry now)) :
    (entries.lookup q = s.pending.lookup q ∧ ∀ x ∈ s.sweepReleases now, x.quoteId ≠ q) ∨
      (s.pending.lookup q ≠ none ∧ Gone (entries.lookup q) ∧
        (∀ since, s.pending.lookup q = some (.settled since) → entries.lookup q = none) ∧
        ∀ r, s.Backs q r → (∃ x ∈ s.sweepReleases now, x.Answers q r) ∨ r.Past now) := by
  have released : ∀ {e : PendingV2 E} {x : Release}, s.pending.lookup q = some e →
      e.sweep q now = .expire x → x ∈ s.sweepReleases now := by
    intro e x he hx
    refine List.mem_filterMap.mpr ⟨(q, e), Pool.mem_toPairs.mpr he, ?_⟩
    dsimp only
    rw [hx]
  have onlyOf : ∀ x ∈ s.sweepReleases now, x.quoteId = q →
      ∃ e, s.pending.lookup q = some e ∧ e.sweep q now = .expire x := by
    intro x hx hquote
    obtain ⟨⟨p, e⟩, hmem, hfound⟩ := List.mem_filterMap.mp hx
    dsimp only at hfound
    split at hfound
    · rename_i y hy
      obtain rfl := Option.some.inj hfound
      obtain rfl : p = q := (quoteId_of_expire hy).symm.trans hquote
      exact ⟨e, Pool.mem_toPairs.mp hmem, hy⟩
    · cases hfound
  have lookup : ∀ {e : PendingV2 E}, s.pending.lookup q = some e → collects now q e = false →
      entries.lookup q = some (sweepEntry now q e) := by
    intro e he hcollects
    rw [hentries, Pool.lookup_mapVal, Pool.lookup_retain_eq_some.mpr ⟨he, by rw [hcollects]; rfl⟩]
    rfl
  cases he : s.pending.lookup q with
  | none =>
    refine .inl ⟨?_, fun x hx hquote => ?_⟩
    · rw [hentries, Pool.lookup_mapVal, Pool.lookup_retain_of_none he]
      rfl
    · obtain ⟨e, he', -⟩ := onlyOf x hx hquote
      rw [he] at he'
      cases he'
  | some e =>
    cases hsweep : e.sweep q now with
    | keep =>
      refine .inl ⟨?_, fun x hx hquote => ?_⟩
      · rw [lookup he (by unfold collects; rw [hsweep]), sweepEntry, hsweep]
      · obtain ⟨e', he', hx'⟩ := onlyOf x hx hquote
        obtain rfl := Option.some.inj (he.symm.trans he')
        rw [hsweep] at hx'
        cases hx'
    | collect =>
      refine .inr ⟨Option.some_ne_none _, ?_, ?_, ?_⟩
      · rw [hentries, Pool.lookup_mapVal, Pool.lookup_retain_of_dropped he
          (by unfold collects; rw [hsweep]; rfl)]
        trivial
      · intro _ _
        rw [hentries, Pool.lookup_mapVal, Pool.lookup_retain_of_dropped he
          (by unfold collects; rw [hsweep]; rfl)]
        rfl
      · rintro r ⟨c, hc, -⟩
        obtain rfl := Option.some.inj (he.symm.trans hc)
        dsimp only [PendingV2.sweep] at hsweep
        split at hsweep <;> cases hsweep
    | expire x =>
      refine .inr ⟨Option.some_ne_none _, ?_, ?_, ?_⟩
      · rw [lookup he (by unfold collects; rw [hsweep]), sweepEntry, hsweep]
        trivial
      · rintro since hsince
        obtain rfl := Option.some.inj hsince
        dsimp only [PendingV2.sweep] at hsweep
        split at hsweep <;> cases hsweep
      · rintro r ⟨c, hc, hr⟩
        obtain rfl := Option.some.inj (he.symm.trans hc)
        have hx := released he hsweep
        dsimp only [PendingV2.sweep] at hsweep
        split at hsweep
        · rename_i hpast
          cases hsweep
          cases r with
          | funds => exact .inl ⟨_, hx, rfl, rfl⟩
          | net => exact .inl ⟨_, hx, rfl, rfl⟩
          | holding cid => exact .inl ⟨_, hx, rfl, hr⟩
          | ticket e => exact .inr (hr ▸ hpast)
        · cases hsweep

theorem sound_sweep (h : w.Sound q) {now : Instant} {visit : List Release → List Release}
    {order : NetOrder K} {b : SweepAnswers} (hid : i ∉ w.tasks) (hvisit : ∀ l, (visit l).Perm l) :
    (w.apply cfg (.sweep i now visit order b)).Sound q := by
  have noTask : ∀ u, w.tasks.lookup i ≠ some u := by
    intro u hu
    rw [AList.lookup_eq_none.mpr hid] at hu
    cases hu
  have hmoves : Moves w (w.apply cfg (.sweep i now visit order b)) i :=
    moves_after rfl le_rfl (fun _ hmem => hmem) rfl
  let swept : RfqV2State D K E :=
    { w.state with
      pending := (w.state.pending.retain fun q e => !collects now q e).mapVal (sweepEntry now)
      correlation := w.state.correlation.retain fun _ q =>
        !(w.state.pending.lookup q).any (collects now q) }
  have hreleased : Released swept (visit (w.state.sweepReleases now)) now
      (w.state.sweep cfg now visit order b) := released_releaseAll
  have hkeeps : Keeps swept (w.apply cfg (.sweep i now visit order b)).state q := keeps_releaseAll
  have hhas : ∀ r, (w.apply cfg (.sweep i now visit order b)).state.Has q r → w.state.Has q r := by
    intro r hr
    have := hkeeps.gains r hr
    cases r <;> exact this
  have hfunds : w.state.Has q .funds →
      (w.apply cfg (.sweep i now visit order b)).state.Has q .funds := hkeeps.funds.mpr
  have htask : ∀ u, (w.apply cfg (.sweep i now visit order b)).tasks.lookup i = some u →
      ∃ t, u = .sweep t ∧ (w.state.sweep cfg now visit order b).2.task = some t := by
    intro u hu
    rw [apply, lookup_after, Option.map_eq_some_iff] at hu
    obtain ⟨t, ht, rfl⟩ := hu
    exact ⟨t, rfl, ht⟩
  have hplays : ∀ u role, (w.apply cfg (.sweep i now visit order b)).tasks.lookup i = some u →
      u.Plays q role → role = .ending ∧ ∃ x ∈ w.state.sweepReleases now, x.quoteId = q := by
    intro u role hu hrole
    obtain ⟨t, rfl, ht⟩ := htask u hu
    obtain ⟨⟨x, hx, hquote⟩, hending⟩ := hrole
    obtain ⟨y, hy, hyx⟩ := hreleased.task t ht x hx
    exact ⟨hending, y, (hvisit _).mem_iff.mp hy, hyx.trans hquote⟩
  rcases sweep_entry w.state q now rfl with
    ⟨hsame, hnot⟩ | ⟨hne, hgone, hcollected, hbacks⟩
  · have hentry : (w.apply cfg (.sweep i now visit order b)).entry q = w.entry q :=
      hkeeps.pending.trans hsame
    refine h.elsewhere hmoves ⟨hentry, hkeeps.funds, hhas⟩ Iff.rfl ?_
      fun u _ hu => absurd hu (noTask u)
    intro u role hu hrole
    obtain ⟨-, x, hx, hquote⟩ := hplays u role hu hrole
    exact hnot x hx hquote
  · have hgone' : Gone ((w.apply cfg (.sweep i now visit order b)).entry q) :=
      (congrArg Gone hkeeps.pending).mpr hgone
    have hregistered : q ∈ w.registered := h.registered (.inl hne)
    refine h.step hmoves (.gone hgone' hne) ?_ (fun _ => hregistered) ?_ ?_ ?_ ?_ ?_
    · intro u role hu hrole
      obtain ⟨rfl, -⟩ := hplays u role hu hrole
      exact ⟨hgone', hregistered, .late hne rfl (by rintro ⟨⟩)⟩
    · intro r hr
      refine .inr ⟨hhas r hr, ?_, fun u hu => absurd hu (noTask u)⟩
      rintro (hback | hback)
      · have hlist := (hbacks r hback).imp_left fun ⟨x, hx, hans⟩ =>
          (⟨x, (hvisit _).mem_iff.mpr hx, hans⟩ :
            ∃ x ∈ visit (w.state.sweepReleases now), x.Answers q r)
        obtain ⟨t, ht, hans⟩ := hreleased.answers q r hlist hr
        refine .inr ⟨.sweep t, ?_, hans⟩
        rw [apply, lookup_after, ht]
        rfl
      · exact .inl (.inr hback)
    · intro c hc
      rw [hc] at hgone'
      exact hgone'.elim
    · exact fun j u _ _ _ hprogress => absurd hprogress hgone'.not_inProgress
    · exact fun u _ _ hprogress => absurd hprogress hgone'.not_inProgress
    · intro hmem
      obtain ⟨hburied, hobserved⟩ := h.settled hmem
      refine ⟨.inl ?_, hobserved⟩
      rcases hburied with hnone | ⟨since, hsince⟩
      · exact absurd hnone hne
      · exact hkeeps.pending.trans (hcollected since hsince)

theorem sound_resumeSweep (h : w.Sound q) {t : SweepTask} {order : NetOrder K} {b : SweepAnswers}
    (ht : w.tasks.lookup i = some (.sweep t)) :
    (w.after i .sweep (w.state.resumeSweep cfg order b t)).Sound q := by
  have hmoves : Moves w (w.after i Task.sweep (w.state.resumeSweep cfg order b t)) i :=
    moves_after rfl le_rfl (fun _ hmem => hmem) rfl
  have hreleased : Released w.state t.releases t.now (w.state.resumeSweep cfg order b t) :=
    released_resume
  have hplays : ∀ u role,
      (w.after i Task.sweep (w.state.resumeSweep cfg order b t)).tasks.lookup i = some u →
      u.Plays q role → role = .ending ∧ ∃ x ∈ t.releases, x.quoteId = q := by
    intro u role hu hrole
    rw [lookup_after, Option.map_eq_some_iff] at hu
    obtain ⟨t', ht', rfl⟩ := hu
    obtain ⟨⟨x, hx, hquote⟩, hending⟩ := hrole
    obtain ⟨y, hy, hyx⟩ := hreleased.task t' ht' x hx
    exact ⟨hending, y, hy, hyx.trans hquote⟩
  have hanswers : ∀ u r, w.tasks.lookup i = some u → u.Answers q r →
      (w.after i Task.sweep (w.state.resumeSweep cfg order b t)).state.Has q r →
      ∃ u, (w.after i Task.sweep (w.state.resumeSweep cfg order b t)).tasks.lookup i = some u ∧
        u.Answers q r := by
    intro u r hu hans hr
    obtain rfl := Option.some.inj (ht.symm.trans hu)
    obtain ⟨t', ht', hans'⟩ := hreleased.answers q r hans hr
    refine ⟨.sweep t', ?_, hans'⟩
    rw [lookup_after, ht']
    rfl
  by_cases hq : ∃ x ∈ t.releases, x.quoteId = q
  · refine h.gives hmoves ht ⟨hq, rfl⟩ rfl (.inl (hreleased.entry q)) Iff.rfl (hreleased.loses q)
      ?_ fun r => hanswers _ r ht
    exact fun u role hu hrole => (hplays u role hu hrole).1
  · refine h.frame hmoves (hreleased.others q fun x hx hquote => hq ⟨x, hx, hquote⟩) Iff.rfl ?_
      hanswers
    exact fun u role hu hrole => absurd (hplays u role hu hrole).2 hq

/-! ## All events -/

/-- Every event keeps every quote sound. -/
theorem sound_apply (h : w.Sound q) {e : QuoteEvent D K E} (hallowed : w.Allowed e) :
    (w.apply cfg e).Sound q := by
  cases e with
  | register id call => exact sound_register h hallowed.1 hallowed.2
  | confirm id req startMicros a => exact sound_confirm h hallowed.1 hallowed.2
  | settle id quoteId now => exact sound_settle h hallowed.1 hallowed.2.1 hallowed.2.2
  | sweep id now visit order b => exact sound_sweep h hallowed.1 hallowed.2.1
  | resume id a order b =>
    unfold apply
    dsimp only
    split
    · exact h
    · rename_i t ht
      exact sound_resumeRegister h ht hallowed.1
    · rename_i t ht
      exact sound_resumeConfirm h ht hallowed.1
    · rename_i t ht
      exact sound_resumeSettle h ht
    · rename_i t ht
      exact sound_resumeSweep h ht
  | consumed cid reason now =>
    refine h.outside rfl rfl rfl rfl (fun e he => List.mem_append_right _ he) ?_
    refine keeps_cache fun cid' hcid' => ?_
    have hreleased : (w.state.releaseReservations [cid]).Has q (.holding cid') := hcid'
    exact (holding_releaseReservations hreleased).1
  | balances updates =>
    refine h.outside rfl rfl rfl rfl (fun _ he => he) (keeps_liquidity ?_)
    exact LiquidityManager.hasCommitment_updateTokenBalances updates
  | holdings created => exact h.outside rfl rfl rfl rfl (fun _ he => he) (keeps_cache fun _ h => h)
  | refresh holdings snapshotStart =>
    exact h.outside rfl rfl rfl rfl (fun _ he => he) (keeps_cache fun _ h => h)
  | cleanup now =>
    refine h.outside rfl rfl rfl rfl (fun _ he => he) (keeps_cache ?_)
    rintro cid ⟨entry, expiresAt, hlookup, hkind⟩
    exact ⟨entry, expiresAt, (Pool.lookup_retain_eq_some.mp hlookup).1, hkind⟩
  | reconcile onLedger =>
    refine h.outside rfl rfl rfl rfl (fun _ he => he) (keeps_mapTickets ?_)
    exact fun pool t hholds => TicketPool.holds_reconcileFromAcs hholds
  | reserve cids kind now =>
    refine h.outside rfl rfl rfl rfl (fun _ he => he) (keeps_cache ?_)
    rintro cid ⟨entry, expiresAt, hlookup, hkind⟩
    rcases HoldingsCache.reserveWithKind_eq w.state.cache cids kind now with hno | hyes
    · rw [hno] at hlookup
      exact ⟨entry, expiresAt, hlookup, hkind⟩
    · rw [hyes] at hlookup
      rcases Pool.lookup_insertAll hlookup with hmem | hold
      · obtain ⟨cid', -, heq⟩ := List.mem_map.mp hmem
        obtain ⟨-, rfl⟩ := Prod.mk.inj heq
        exact absurd hkind (hallowed q expiresAt)
      · exact ⟨entry, expiresAt, hold, hkind⟩
  | release cids =>
    exact h.outside rfl rfl rfl rfl (fun _ he => he) keeps_releaseReservations

end Events

end Quotes

end BookAgent.CloudAgent
