import BookAgent.CloudAgent.UpdateReplay
import Mathlib.Data.Int.ConditionallyCompleteOrder
import Mathlib.Order.Interval.Set.Basic

/-!
# Nothing is skipped between two seeds

Runs of the updates watcher against a ledger: polls that answer with a whole batch, a part of
one or not at all, reconnects, panics at any point of a batch and restarts, and other tasks on
the same caches. From where the cursor was last seeded, every transaction up to the recorded
cursor was applied, each after the ones before it. Only when the retries at one cursor are
exhausted is the cursor seeded anew, and what lies between is then left out.
-/

namespace BookAgent.CloudAgent.UpdatesWorker

open BookAgent.Lib BookAgent.AtomicQuote

/-! ## The ledger -/

/-- The transactions that pass the filters, by their offsets. -/
structure UpdateLedger where
  entry : Int → Option LedgerTransaction
  offset_entry : ∀ o tx, entry o = some tx → tx.offset = o

/-- The updates are the next ones after a position, in order and none left out; what comes
after them may be missing. -/
inductive Follows (ledger : UpdateLedger) : Int → List GetUpdatesResponse → Prop
  | nil (pos : Int) : Follows ledger pos []
  | transaction {pos : Int} {tx : LedgerTransaction} {rest : List GetUpdatesResponse} :
      pos < tx.offset → ledger.entry tx.offset = some tx →
      (∀ o, pos < o → o < tx.offset → ledger.entry o = none) →
      Follows ledger tx.offset rest → Follows ledger pos (.transaction tx :: rest)
  | checkpoint {pos offset : Int} {rest : List GetUpdatesResponse} :
      (∀ o, pos < o → o ≤ offset → ledger.entry o = none) →
      Follows ledger (max pos offset) rest → Follows ledger pos (.offsetCheckpoint offset :: rest)
  | unset {pos : Int} {rest : List GetUpdatesResponse} :
      Follows ledger pos rest → Follows ledger pos (.unset :: rest)

namespace Watcher

variable {D : Type} [EnvelopeCrates D]

/-- What the server and the other tasks promise: a poll answers with the updates after the
cursor, holdings are entered with the data of their contracts, and the saved reservations and
tickets are restored before the watcher starts. -/
def Allowed (ledger : UpdateLedger) (data : Contracts) (w : Watcher D) : WatcherEvent D → Prop
  | .getUpdates (.batch updates _) =>
    ∀ r ∈ w.run, ∀ cur ∈ r.cursor, Follows ledger cur updates
  | .holdings (.addCreated holdings) => ∀ h ∈ holdings, Carries data h
  | .holdings (.refresh holdings _) => ∀ h ∈ holdings, Carries data h
  | .holdings (.restore _ _ _ _) => False
  | .tickets step => ∀ ttl, step.op ≠ .restore ttl
  | _ => True

/-- The start that gives up on the recorded cursor. -/
def Exhausts (w : Watcher D) (e : WatcherEvent D) : Prop :=
  e = .start ∧ w.run = none ∧ w.resume.cursor.isSome ∧ resumeRetries ≤ w.resume.retriesAtCursor

end Watcher

/-! ## What the log says -/

/-- Where the cursor was last seeded. -/
def seedOf : List Mark → Option Int
  | [] => none
  | .seeded offset :: _ => some offset
  | _ :: log => seedOf log

/-- What happened since. -/
def sinceSeed : List Mark → List Mark
  | [] => []
  | .seeded _ :: _ => []
  | m :: log => m :: sinceSeed log

/-- The transaction was begun and these events of it were handled, one after the other. -/
def handledSince (tx : LedgerTransaction) (events : List LedgerEvent) : List Mark :=
  (events.map (.handled tx)).reverse ++ [.begun tx]

/-- All events of the transaction were handled, in order and in one go. -/
def Applied (tx : LedgerTransaction) (log : List Mark) : Prop := handledSince tx tx.events <:+: log

/-- Every transaction after the seed at an offset in `reached` was applied since. -/
def Covers (ledger : UpdateLedger) (log : List Mark) (reached : Set Int) : Prop :=
  ∃ seed, seedOf log = some seed ∧ ∀ o tx, ledger.entry o = some tx → seed < o → o ∈ reached →
    Applied tx (sinceSeed log)

section Log

variable {ledger : UpdateLedger} {log : List Mark} {reached reached' : Set Int} {pos : Int}
  {tx : LedgerTransaction}

theorem handledSince_snoc (events : List LedgerEvent) (event : LedgerEvent) :
    handledSince tx (events ++ [event]) = .handled tx event :: handledSince tx events := by
  unfold handledSince
  rw [List.map_append, List.reverse_append]
  rfl

theorem covers_seeded (offset : Int) : Covers ledger (.seeded offset :: log) (Set.Iic offset) := by
  refine ⟨offset, rfl, fun o tx _ hafter hreached => ?_⟩
  exact absurd hafter (not_lt.mpr hreached)

/-- A mark that is no seed keeps what was covered. -/
theorem Covers.cons (h : Covers ledger log reached) {m : Mark} (hm : ∀ o, m ≠ .seeded o) :
    Covers ledger (m :: log) reached := by
  obtain ⟨seed, hseed, happlied⟩ := h
  cases m with
  | seeded o => exact absurd rfl (hm o)
  | begun _ | handled _ _ =>
    refine ⟨seed, hseed, fun o tx hentry hafter hreached => ?_⟩
    exact (happlied o tx hentry hafter hreached).trans (List.suffix_cons _ _).isInfix

/-- The offsets that are reached too have no transactions. -/
theorem Covers.extend (h : Covers ledger log reached)
    (hnone : ∀ o ∈ reached', o ∉ reached → ledger.entry o = none) : Covers ledger log reached' := by
  obtain ⟨seed, hseed, happlied⟩ := h
  refine ⟨seed, hseed, fun o tx hentry hafter hreached => ?_⟩
  by_cases hold : o ∈ reached
  · exact happlied o tx hentry hafter hold
  · rw [hnone o hreached hold] at hentry
    cases hentry

/-- Up to a transaction that was applied itself. -/
theorem Covers.snoc (h : Covers ledger log (Set.Iio pos)) (hentry : ledger.entry pos = some tx)
    (happlied : Applied tx (sinceSeed log)) : Covers ledger log (Set.Iic pos) := by
  obtain ⟨seed, hseed, hbefore⟩ := h
  refine ⟨seed, hseed, fun o tx' hentry' hafter hreached => ?_⟩
  rcases lt_or_eq_of_le (Set.mem_Iic.mp hreached) with hlt | rfl
  · exact hbefore o tx' hentry' hafter hlt
  · obtain rfl := Option.some.inj (hentry'.symm.trans hentry)
    exact happlied

/-- Whatever was begun came after all that is before it on the ledger. -/
def InOrder (ledger : UpdateLedger) (log : List Mark) : Prop :=
  ∀ later tx earlier, log = later ++ .begun tx :: earlier →
    Covers ledger earlier (Set.Iio tx.offset)

theorem InOrder.cons (h : InOrder ledger log) {m : Mark}
    (hm : ∀ tx, m = .begun tx → Covers ledger log (Set.Iio tx.offset)) :
    InOrder ledger (m :: log) := by
  intro later tx earlier heq
  cases later with
  | nil =>
    obtain ⟨rfl, rfl⟩ := List.cons.inj heq
    exact hm tx rfl
  | cons m' later =>
    obtain ⟨-, heq⟩ := List.cons.inj heq
    exact h later tx earlier heq

end Log

/-! ## The invariant -/

/-- The transaction in hand: those before it were applied, and of its own events those that
are no longer left. -/
structure InHand (ledger : UpdateLedger) (log : List Mark) (pos : Int) (tx : LedgerTransaction)
    (left : List LedgerEvent) : Prop where
  entry : ledger.entry pos = some tx
  before : Covers ledger log (Set.Iio pos)
  done : ∃ events, tx.events = events ++ left ∧ handledSince tx events <+: sinceSeed log

/-- A batch in progress, polled from a cursor. -/
structure Progress (ledger : UpdateLedger) (log : List Mark) (cur : Int) (b : Batch) : Prop where
  cursor_le : cur ≤ b.maxOffset
  rest : Follows ledger b.maxOffset b.rest
  idle : b.current = none → Covers ledger log (Set.Iic b.maxOffset)
  current : ∀ tx left o, b.current = some (tx, left, o) → InHand ledger log b.maxOffset tx left

/-- The cursor a run goes by is the recorded one, and everything up to it was applied. -/
structure Tracks {D : Type} (ledger : UpdateLedger) (w : Watcher D) : Prop where
  cursor : ∀ r, w.run = some r → r.cursor = w.resume.cursor
  recorded : ∀ c, w.resume.cursor = some c → Covers ledger w.log (Set.Iic c)
  batch : ∀ r b, w.run = some r → r.batch = some b →
    ∃ cur, w.resume.cursor = some cur ∧ Progress ledger w.log cur b
  inOrder : InOrder ledger w.log

namespace Resume

theorem seed_spec (r : Resume) :
    r.seed.1 = r.seed.2.cursor ∧
      (r.seed.2.cursor = r.cursor ∨
        r.cursor.isSome ∧ resumeRetries ≤ r.retriesAtCursor ∧ r.seed.2 = default) := by
  unfold seed
  cases hcursor : r.cursor with
  | none => exact ⟨hcursor.symm, .inl hcursor⟩
  | some c =>
    dsimp only
    split
    · exact ⟨rfl, .inl rfl⟩
    · rename_i hretries
      exact ⟨rfl, .inr ⟨rfl, Nat.le_of_not_lt hretries, rfl⟩⟩

end Resume

section Steps

variable {D : Type} {ledger : UpdateLedger} {w : Watcher D} {r : TaskRun} {b : Batch}

theorem tracks_fresh (shared : Shared D) : Tracks ledger (Watcher.fresh shared) where
  cursor r hr := by cases hr
  recorded c hc := by cases hc
  batch r b hr := by cases hr
  inOrder later tx earlier heq := by cases later <;> cases heq

theorem Tracks.idle (h : Tracks ledger w) {run : Option TaskRun}
    (hrun : ∀ r, run = some r → r.cursor = w.resume.cursor ∧ r.batch = none) :
    Tracks ledger { w with run } where
  cursor r hr := (hrun r hr).1
  recorded := h.recorded
  batch r b hr hb := by
    rw [(hrun r hr).2] at hb
    cases hb
  inOrder := h.inOrder

/-- Recording a position up to which everything was applied ends the poll. -/
theorem Tracks.record (h : Tracks ledger w) {pos : Int} (hpos : Covers ledger w.log (Set.Iic pos))
    (connected : Bool) :
    Tracks ledger
      { w with resume := w.resume.record pos, run := some ⟨connected, some pos, none⟩ } where
  cursor r hr := by
    obtain rfl := Option.some.inj hr
    rfl
  recorded c hc := by
    obtain rfl := Option.some.inj hc
    exact hpos
  batch r b hr hb := by
    obtain rfl := Option.some.inj hr
    cases hb
  inOrder := h.inOrder

theorem Tracks.start (h : Tracks ledger w) : Tracks ledger w.start := by
  unfold Watcher.start
  split
  · exact h
  · obtain ⟨hsame, hcursor⟩ := w.resume.seed_spec
    constructor
    · rintro r ⟨⟩
      exact hsame
    · intro c hc
      rcases hcursor with hkept | ⟨-, -, hreset⟩
      · exact h.recorded c (hkept ▸ hc)
      · change w.resume.seed.2.cursor = some c at hc
        rw [hreset] at hc
        cases hc
    · rintro r b ⟨⟩ ⟨⟩
    · exact h.inOrder

theorem Tracks.createClient (h : Tracks ledger w) (hrun : w.run = some r) (created : Bool) :
    Tracks ledger (w.createClient r created) := by
  unfold Watcher.createClient
  split
  · exact h
  · rename_i hbatch
    refine h.idle fun r' hr' => ?_
    obtain rfl := Option.some.inj hr'
    exact ⟨h.cursor r hrun, hbatch⟩

theorem Tracks.getLedgerEnd (h : Tracks ledger w) (hrun : w.run = some r) (answer : Option Int) :
    Tracks ledger (w.getLedgerEnd r answer) := by
  have noBatch (hcursor : r.cursor = none) : r.batch = none := by
    cases hb : r.batch with
    | none => rfl
    | some b =>
      obtain ⟨cur, hcur, -⟩ := h.batch r b hrun hb
      rw [← h.cursor r hrun, hcursor] at hcur
      cases hcur
  unfold Watcher.getLedgerEnd
  split
  · rename_i offset _ hcursor
    constructor
    · rintro _ ⟨⟩
      rfl
    · rintro _ ⟨⟩
      exact covers_seeded offset
    · rintro _ b ⟨⟩ hb
      exact absurd ((noBatch hcursor).symm.trans hb) (by simp)
    · exact h.inOrder.cons fun tx heq => by cases heq
  · rename_i _ hcursor
    refine h.idle fun r' hr' => ?_
    obtain rfl := Option.some.inj hr'
    exact ⟨h.cursor r hrun, noBatch hcursor⟩
  · exact h

/-- A batch in progress takes over from a position. -/
theorem Tracks.progress (h : Tracks ledger w) (hrun : w.run = some r) {cur : Int}
    (hcur : w.resume.cursor = some cur) (hb : Progress ledger w.log cur b) :
    Tracks ledger (w.goOn { r with batch := some b }) where
  cursor r' hr' := by
    obtain rfl := Option.some.inj hr'
    exact h.cursor r hrun
  recorded := h.recorded
  batch r' b' hr' hb' := by
    obtain rfl := Option.some.inj hr'
    obtain rfl := Option.some.inj hb'
    exact ⟨cur, hcur, hb⟩
  inOrder := h.inOrder

theorem Tracks.getUpdates (h : Tracks ledger w) (hrun : w.run = some r) {fetched : Fetch}
    (hfollows : ∀ updates complete, fetched = .batch updates complete → ∀ cur ∈ r.cursor,
      Follows ledger cur updates) : Tracks ledger (w.getUpdates r fetched) := by
  unfold Watcher.getUpdates
  split
  · rename_i cur _ hcursor _
    have hcur : w.resume.cursor = some cur := (h.cursor r hrun).symm.trans hcursor
    have covered := h.recorded cur hcur
    split
    · rename_i updates complete
      refine h.progress hrun hcur ⟨le_rfl, hfollows updates complete rfl cur hcursor, ?_, ?_⟩
      · exact fun _ => covered
      · rintro tx left o ⟨⟩
    · exact h.record covered false
    · exact h.record covered false
  · exact h

/-- A new mark after which the batch goes on. -/
theorem Tracks.mark {shared : Shared D} {recent : List (LedgerTransaction × LedgerEvent)}
    (h : Tracks ledger w) (hrun : w.run = some r) {cur : Int} (hcur : w.resume.cursor = some cur)
    {m : Mark} (hm : ∀ o, m ≠ .seeded o) (hb : Progress ledger (m :: w.log) cur b)
    (hbegun : ∀ tx, m = .begun tx → Covers ledger w.log (Set.Iio tx.offset)) :
    Tracks ledger { resume := w.resume, run := some { r with batch := some b }, shared,
                    log := m :: w.log, recent } where
  cursor r' hr' := by
    obtain rfl := Option.some.inj hr'
    exact h.cursor r hrun
  recorded c hc := (h.recorded c hc).cons hm
  batch r' b' hr' hb' := by
    obtain rfl := Option.some.inj hr'
    obtain rfl := Option.some.inj hb'
    exact ⟨cur, hcur, hb⟩
  inOrder := h.inOrder.cons hbegun

/-- **One iteration on a batch.** -/
theorem Tracks.next [EnvelopeCrates D] {partyId : String} (h : Tracks ledger w)
    (hrun : w.run = some r) (hbatch : r.batch = some b) (now : Instant) (refreshElapsed : Bool) :
    Tracks ledger (w.next partyId r b now refreshElapsed) := by
  obtain ⟨cur, hcur, hprogress⟩ := h.batch r b hrun hbatch
  obtain ⟨current, rest, complete, maxOffset, venueChanged⟩ := b
  obtain ⟨hle, hrest, hidle, hcurrent⟩ := hprogress
  dsimp only at hle hrest hidle hcurrent
  unfold Watcher.next
  cases current with
  | some hand =>
    obtain ⟨tx, left, o⟩ := hand
    obtain ⟨hentry, hbefore, events, hevents, hdone⟩ := hcurrent tx left o rfl
    cases left with
    | cons event left =>
      refine h.mark hrun hcur (by rintro o ⟨⟩) ⟨hle, hrest, ?_, ?_⟩ (by rintro tx ⟨⟩)
      · rintro ⟨⟩
      · rintro _ _ _ ⟨⟩
        refine ⟨hentry, hbefore.cons (by rintro o ⟨⟩), events ++ [event], ?_, ?_⟩
        · rw [hevents, List.append_assoc]
          rfl
        · rw [handledSince_snoc]
          exact List.cons_prefix_cons.mpr ⟨rfl, hdone⟩
    | nil =>
      refine h.progress hrun hcur ⟨hle, hrest, fun _ => ?_, by rintro _ _ _ ⟨⟩⟩
      rw [List.append_nil] at hevents
      refine hbefore.snoc hentry ?_
      unfold Applied
      rw [hevents]
      exact hdone.isInfix
  | none =>
    have covered := hidle rfl
    cases hrest with
    | nil => exact h.record covered _
    | @transaction _ tx rest hlt hentry hnone hrest =>
      have hmax : max maxOffset tx.offset = tx.offset := max_eq_right hlt.le
      have before : Covers ledger w.log (Set.Iio tx.offset) :=
        covered.extend fun o ho hnot => hnone o (not_le.mp hnot) ho
      refine h.mark hrun hcur (by rintro o ⟨⟩) ⟨?_, ?_, ?_, ?_⟩ ?_
      · exact hle.trans (le_max_left _ _)
      · dsimp only
        rwa [hmax]
      · rintro ⟨⟩
      · rintro _ _ _ ⟨⟩
        dsimp only
        rw [hmax]
        exact ⟨hentry, before.cons (by rintro o ⟨⟩), [], rfl, List.cons_prefix_cons.mpr ⟨rfl,
          List.nil_prefix⟩⟩
      · rintro _ ⟨⟩
        exact before
    | @checkpoint _ offset rest hnone hrest =>
      refine h.progress hrun hcur ⟨hle.trans (le_max_left _ _), hrest, fun _ => ?_,
        by rintro _ _ _ ⟨⟩⟩
      refine covered.extend fun o ho hnot => ?_
      have hlt : maxOffset < o := not_le.mp hnot
      exact hnone o hlt ((le_max_iff.mp ho).resolve_left (not_le.mpr hlt))
    | @unset _ rest hrest =>
      exact h.progress hrun hcur ⟨hle, hrest, fun _ => covered, by rintro _ _ _ ⟨⟩⟩

/-- Other tasks change nothing of it. -/
theorem Tracks.others (h : Tracks ledger w) (shared : Shared D)
    (recent : List (LedgerTransaction × LedgerEvent)) : Tracks ledger { w with shared, recent } :=
  ⟨h.cursor, h.recorded, h.batch, h.inOrder⟩

/-- **What one event preserves.** -/
theorem Tracks.apply [EnvelopeCrates D] {partyId : String} {data : Contracts} {e : WatcherEvent D}
    (h : Tracks ledger w) (hallowed : w.Allowed ledger data e) :
    Tracks ledger (w.apply partyId e) := by
  unfold Watcher.apply
  cases e with
  | start => exact h.start
  | panic => exact h.idle (by rintro r ⟨⟩)
  | holdings event => exact h.others _ _
  | tickets step => exact h.others _ _
  | createClient created =>
    cases hrun : w.run with
    | none => exact h
    | some r => exact h.createClient hrun created
  | getLedgerEnd answer =>
    cases hrun : w.run with
    | none => exact h
    | some r => exact h.getLedgerEnd hrun answer
  | getUpdates fetched =>
    cases hrun : w.run with
    | none => exact h
    | some r =>
      refine h.getUpdates hrun ?_
      rintro updates complete rfl
      exact hallowed r hrun
  | next now refreshElapsed =>
    cases hrun : w.run with
    | none => exact h
    | some r =>
      dsimp only
      cases hbatch : r.batch with
      | none => exact h
      | some b => exact h.next hrun hbatch now refreshElapsed

/-! ## The recorded cursor -/

theorem cursor_next [EnvelopeCrates D] {partyId : String} (h : Tracks ledger w)
    (hrun : w.run = some r) (hbatch : r.batch = some b) {now : Instant} {refreshElapsed : Bool}
    {c : Int} (hc : w.resume.cursor = some c) :
    ∃ c', (w.next partyId r b now refreshElapsed).resume.cursor = some c' ∧ c ≤ c' := by
  obtain ⟨cur, hcur, hprogress⟩ := h.batch r b hrun hbatch
  obtain rfl := Option.some.inj (hc.symm.trans hcur)
  unfold Watcher.next
  split
  · exact ⟨c, hc, le_rfl⟩
  · exact ⟨c, hc, le_rfl⟩
  · exact ⟨c, hc, le_rfl⟩
  · exact ⟨c, hc, le_rfl⟩
  · exact ⟨c, hc, le_rfl⟩
  · exact ⟨b.maxOffset, rfl, hprogress.cursor_le⟩

/-- An event does not lower the recorded cursor, unless it gives up on it. -/
theorem cursor_apply [EnvelopeCrates D] {partyId : String} {e : WatcherEvent D}
    (h : Tracks ledger w) (hkept : ¬ w.Exhausts e) {c : Int} (hc : w.resume.cursor = some c) :
    ∃ c', (w.apply partyId e).resume.cursor = some c' ∧ c ≤ c' := by
  unfold Watcher.apply
  cases e with
  | panic | holdings event | tickets step => exact ⟨c, hc, le_rfl⟩
  | start =>
    dsimp only
    unfold Watcher.start
    split
    · exact ⟨c, hc, le_rfl⟩
    · rename_i hrun
      rcases w.resume.seed_spec.2 with hsame | ⟨hsome, hretries, -⟩
      · exact ⟨c, hsame.trans hc, le_rfl⟩
      · exact absurd ⟨rfl, hrun, hsome, hretries⟩ hkept
  | createClient created =>
    cases hrun : w.run with
    | none => exact ⟨c, hc, le_rfl⟩
    | some r =>
      dsimp only
      unfold Watcher.createClient
      split
      · exact ⟨c, hc, le_rfl⟩
      · exact ⟨c, hc, le_rfl⟩
  | getLedgerEnd answer =>
    cases hrun : w.run with
    | none => exact ⟨c, hc, le_rfl⟩
    | some r =>
      dsimp only
      unfold Watcher.getLedgerEnd
      split
      · -- a run with no cursor goes by a record with none
        rename_i hcursor
        have hnone := (h.cursor r hrun).symm.trans hcursor
        rw [hc] at hnone
        cases hnone
      · exact ⟨c, hc, le_rfl⟩
      · exact ⟨c, hc, le_rfl⟩
  | getUpdates fetched =>
    cases hrun : w.run with
    | none => exact ⟨c, hc, le_rfl⟩
    | some r =>
      dsimp only
      unfold Watcher.getUpdates
      split
      · rename_i cur _ hcursor _
        obtain rfl := Option.some.inj ((h.cursor r hrun).symm.trans hcursor |>.symm.trans hc)
        split
        · exact ⟨cur, hc, le_rfl⟩
        · exact ⟨cur, rfl, le_rfl⟩
        · exact ⟨cur, rfl, le_rfl⟩
      · exact ⟨c, hc, le_rfl⟩
  | next now refreshElapsed =>
    cases hrun : w.run with
    | none => exact ⟨c, hc, le_rfl⟩
    | some r =>
      dsimp only
      cases hbatch : r.batch with
      | none => exact ⟨c, hc, le_rfl⟩
      | some b => exact cursor_next h hrun hbatch hc

/-- **A run that gives up nowhere never lowers the recorded cursor.** -/
theorem cursor_run [EnvelopeCrates D] {partyId : String} {data : Contracts} {w' : Watcher D}
    (h : Tracks ledger w) (run : Reachable
      (fun s e => Watcher.Allowed ledger data s e ∧ ¬ Watcher.Exhausts s e)
      (Watcher.apply partyId) w w') {c : Int} (hc : w.resume.cursor = some c) :
    Tracks ledger w' ∧ ∃ c', w'.resume.cursor = some c' ∧ c ≤ c' := by
  refine Reachable.invariant
    (fun s => Tracks ledger s ∧ ∃ c', s.resume.cursor = some c' ∧ c ≤ c') ⟨h, c, hc, le_rfl⟩ ?_ run
  rintro s e ⟨htracks, c', hc', hle⟩ ⟨hallowed, hkept⟩
  obtain ⟨c'', hc'', hle'⟩ : ∃ c'', (s.apply partyId e).resume.cursor = some c'' ∧ c' ≤ c'' :=
    cursor_apply htracks hkept hc'
  exact ⟨htracks.apply hallowed, c'', hc'', hle.trans hle'⟩

end Steps

/-! ## What the caches remember -/

/-- The ledger's created contracts have the data that the other tasks enter them with. -/
def UpdateLedger.Describes (D : Type) [EnvelopeCrates D] (ledger : UpdateLedger) (partyId : String)
    (data : Contracts) : Prop :=
  ∀ o tx, ledger.entry o = some tx → ∀ event ∈ tx.events,
    UpdatesWorker.Describes D partyId data (tx, event)

/-- The entries have the data of their contracts, and what was handled since the last refresh
is absorbed. -/
structure Remembers {D : Type} [EnvelopeCrates D] (partyId : String) (data : Contracts)
    (w : Watcher D) : Prop where
  carried : Carried data w.shared
  recent : ∀ x ∈ w.recent, Absorbed partyId w.shared x ∧ Describes D partyId data x

section Remembers

variable {D : Type} [EnvelopeCrates D] {ledger : UpdateLedger} {partyId : String}
  {data : Contracts} {w : Watcher D} {r : TaskRun} {b : Batch}

/-- A change that keeps what events have left. -/
theorem Remembers.keep (h : Remembers partyId data w) {shared : Shared D} {resume : Resume}
    {run : Option TaskRun} {log : List Mark} (hcarried : Carried data shared)
    (hkeeps : Keeps w.shared shared) :
    Remembers partyId data { resume, run, shared, log, recent := w.recent } :=
  ⟨hcarried, fun x hx => ⟨(h.recent x hx).1.mono hkeeps, (h.recent x hx).2⟩⟩

theorem Remembers.next (h : Remembers partyId data w) (htracks : Tracks ledger w)
    (hdata : ledger.Describes D partyId data) (hrun : w.run = some r) (hbatch : r.batch = some b)
    (now : Instant) (refreshElapsed : Bool) :
    Remembers partyId data (w.next partyId r b now refreshElapsed) := by
  obtain ⟨cur, -, hprogress⟩ := htracks.batch r b hrun hbatch
  unfold Watcher.next
  split
  · rename_i tx event left o hcurrent
    obtain ⟨hentry, -, events, hevents, -⟩ := hprogress.current tx (event :: left) o hcurrent
    have described : Describes D partyId data (tx, event) := by
      refine hdata _ tx hentry event ?_
      rw [hevents]
      exact List.mem_append_right _ List.mem_cons_self
    have hstep : HandledBy partyId tx event now w.shared
        (processEvent partyId tx now w.shared o event).1 := handledBy_processEvent
    refine ⟨hstep.carried h.carried described, List.forall_mem_cons.mpr ⟨?_, ?_⟩⟩
    · exact ⟨hstep.absorbed, described⟩
    · exact fun x hx => ⟨(h.recent x hx).1.mono hstep.keeps, (h.recent x hx).2⟩
  · exact ⟨h.carried, h.recent⟩
  · exact ⟨h.carried, h.recent⟩
  · exact ⟨h.carried, h.recent⟩
  · exact ⟨h.carried, h.recent⟩
  · exact ⟨h.carried, h.recent⟩

/-- Another task's holdings, with the memory of the events lost at a refresh. -/
theorem Remembers.holdings (h : Remembers partyId data w) {event : CacheEvent D}
    (hallowed : w.Allowed ledger data (.holdings event)) :
    Remembers partyId data (w.apply partyId (.holdings event)) := by
  have carried (hnew : ∀ g ∈ event.enters, Carries data g) :
      Carried data { w.shared with cache := w.shared.cache.apply event } :=
    carries_apply h.carried hnew
  cases event with
  | addCreated created => exact h.keep (carried hallowed) (keeps_cacheEvent trivial)
  | refresh listed snapshotStart => exact ⟨carried hallowed, fun x hx => by cases hx⟩
  | restore => cases hallowed
  | markConsumed | reserve | release | cleanup =>
    exact h.keep (carried (by rintro g ⟨⟩)) (keeps_cacheEvent trivial)

theorem Remembers.tickets (h : Remembers partyId data w) {step : TicketStep}
    (hallowed : w.Allowed ledger data (.tickets step)) :
    Remembers partyId data (w.apply partyId (.tickets step)) := by
  unfold Watcher.apply
  dsimp only
  split
  · exact ⟨h.carried, fun x hx => by cases hx⟩
  · rename_i hop
    exact h.keep h.carried (keeps_tickets hop hallowed)

/-- **What one event preserves.** -/
theorem Remembers.apply (h : Remembers partyId data w) (htracks : Tracks ledger w)
    (hdata : ledger.Describes D partyId data) {e : WatcherEvent D}
    (hallowed : w.Allowed ledger data e) : Remembers partyId data (w.apply partyId e) := by
  cases e with
  | holdings event => exact h.holdings hallowed
  | tickets step => exact h.tickets hallowed
  | panic => exact ⟨h.carried, h.recent⟩
  | start =>
    unfold Watcher.apply Watcher.start
    dsimp only
    split
    · exact h
    · exact ⟨h.carried, h.recent⟩
  | createClient created =>
    unfold Watcher.apply Watcher.createClient
    cases w.run with
    | none => exact h
    | some r =>
      dsimp only
      split
      · exact h
      · exact ⟨h.carried, h.recent⟩
  | getLedgerEnd answer =>
    unfold Watcher.apply Watcher.getLedgerEnd
    cases w.run with
    | none => exact h
    | some r =>
      dsimp only
      split
      · exact ⟨h.carried, h.recent⟩
      · exact ⟨h.carried, h.recent⟩
      · exact h
  | getUpdates fetched =>
    unfold Watcher.apply Watcher.getUpdates
    cases w.run with
    | none => exact h
    | some r =>
      dsimp only
      split
      · split
        · exact ⟨h.carried, h.recent⟩
        · exact ⟨h.carried, h.recent⟩
        · exact ⟨h.carried, h.recent⟩
      · exact h
  | next now refreshElapsed =>
    unfold Watcher.apply
    cases hrun : w.run with
    | none => exact h
    | some r =>
      dsimp only
      cases hbatch : r.batch with
      | none => exact h
      | some b => exact h.next htracks hdata hrun hbatch now refreshElapsed

end Remembers

/-! ## The guarantees -/

/-- What holds of the watcher in any state: the cursor is only given up when the retries are
exhausted, transactions are applied in order and none up to the cursor is left out, and events
handled since the last ACS refresh can be handled again. When that goes on to later events with
no other task in between, it is as if they had been handled once. -/
structure SkipsNothing {D : Type} [EnvelopeCrates D] (ledger : UpdateLedger) (data : Contracts)
    (partyId : String) (w : Watcher D) : Prop where
  monotone : ∀ w' c, Reachable (fun s e => Watcher.Allowed ledger data s e ∧ ¬ Watcher.Exhausts s e)
    (Watcher.apply partyId) w w' → w.resume.cursor = some c →
    ∃ c', w'.resume.cursor = some c' ∧ c ≤ c'
  inOrder : ∀ later tx earlier, w.log = later ++ .begun tx :: earlier →
    Covers ledger earlier (Set.Iio tx.offset)
  applied : ∀ c, w.resume.cursor = some c → Covers ledger w.log (Set.Iic c)
  replayed : ∀ again : List Handling, (∀ x ∈ again, (x.tx, x.event) ∈ w.recent) →
    Same w.shared (again.foldl (handle partyId) w.shared)
  once : ∀ first events : List Handling, (∀ x ∈ first, ∃ y ∈ events, x.Like y) →
    Identical (events.foldl (handle partyId) w.shared)
      ((first ++ events).foldl (handle partyId) w.shared)

section Guarantees

variable {D : Type} [EnvelopeCrates D]

/-- **The watcher skips nothing between two seeds.** -/
theorem skipsNothing {ledger : UpdateLedger} {data : Contracts} {partyId : String}
    (hdata : ledger.Describes D partyId data) {shared : Shared D} (hshared : Carried data shared)
    {w : Watcher D} (run : Reachable (Watcher.Allowed ledger data) (Watcher.apply partyId)
      (Watcher.fresh shared) w) : SkipsNothing ledger data partyId w := by
  obtain ⟨htracks, hremembers⟩ : Tracks ledger w ∧ Remembers partyId data w := by
    refine Reachable.invariant (fun w => Tracks ledger w ∧ Remembers partyId data w) ?_ ?_ run
    · exact ⟨tracks_fresh shared, hshared, fun x hx => by cases hx⟩
    · rintro w e ⟨htracks, hremembers⟩ hallowed
      exact ⟨htracks.apply hallowed, hremembers.apply htracks hdata hallowed⟩
  refine ⟨?_, htracks.inOrder, htracks.recorded, ?_, ?_⟩
  · intro w' c run hc
    exact (cursor_run htracks run hc).2
  · intro again hrecent
    exact same_handle (fun x hx => (hremembers.recent _ (hrecent x hx)).1) hremembers.carried
      fun x hx => (hremembers.recent _ (hrecent x hx)).2
  · exact fun first events hagain => identical_handle hagain w.shared

end Guarantees

/-! ## A batch that is applied again, and one that is given up -/

/-- Where the cursor was seeded first. -/
def firstSeed : List Mark → Option Int
  | [] => none
  | .seeded offset :: log => (firstSeed log).or (some offset)
  | _ :: log => firstSeed log

/-- Whatever was begun came after all that lies between it and the first seed. -/
def AppliedFromFirst {D : Type} (ledger : UpdateLedger) (w : Watcher D) : Prop :=
  ∀ later tx earlier, w.log = later ++ .begun tx :: earlier →
    ∀ seed, firstSeed earlier = some seed → ∀ o t, ledger.entry o = some t → seed < o →
      o < tx.offset → Applied t earlier

/-- Handling recent events again leaves each entry its blob. -/
def KeepsBlobs {D : Type} [EnvelopeCrates D] (partyId : String) (w : Watcher D) : Prop :=
  ∀ again : List Handling, (∀ x ∈ again, (x.tx, x.event) ∈ w.recent) → ∀ cid,
    ((again.foldl (handle partyId) w.shared).cache.available.lookup cid).map
        CachedHolding.createdEventBlob
      = (w.shared.cache.available.lookup cid).map CachedHolding.createdEventBlob

section Sample

/-- Integers are decimals. -/
local instance watcherCrates : EnvelopeCrates ScaledInt where
  fromStr s := context "invalid decimal" ((plainNat s.toList).map fun n => ⟨n, 0⟩)
  verifyQuote _ _ _ := true

/-- An Amulet of ten is created, then archived. -/
def amuletOfTen : LedgerCreatedEvent where
  contractId := "00aa"
  templateId := "#splice-amulet:Splice.Amulet:Amulet"
  createArguments := some (.object
    [("owner", .string "lp"), ("amount", .object [("initialAmount", .string "10")])])

def amuletCreated : LedgerTransaction where
  updateId := "u1"
  offset := 1
  synchronizerId := "sync"
  events := [.created amuletOfTen]

def amuletArchived (offset : Int) : LedgerTransaction where
  updateId := "u2"
  offset := offset
  synchronizerId := "sync"
  events := [.archived ⟨"00aa", "#splice-amulet:Splice.Amulet:Amulet"⟩]

/-- Two transactions, the second one at the given offset. -/
def amuletLedger (offset : Int) : UpdateLedger where
  entry o :=
    if o = offset then some (amuletArchived offset) else if o = 1 then some amuletCreated else none
  offset_entry o tx h := by
    split at h
    · rename_i ho
      obtain rfl := Option.some.inj h
      exact ho.symm
    · split at h
      · rename_i ho
        obtain rfl := Option.some.inj h
        exact ho.symm
      · cases h

def amuletContracts : Contracts := fun _ => ("CC", 10)

def emptyShared : Shared ScaledInt := ⟨.new false, some ∅, []⟩

theorem emptyShared_carried : Carried amuletContracts emptyShared := by
  intro cid h hlookup
  have empty : AList.lookup cid (∅ : Pool String (CachedHolding ScaledInt)) = some h := hlookup
  rw [AList.lookup_empty] at empty
  cases empty

theorem amuletLedger_describes (offset : Int) :
    (amuletLedger offset).Describes ScaledInt "lp" amuletContracts := by
  intro o tx hentry event hevent now h hparse
  unfold amuletLedger at hentry
  dsimp only at hentry
  split at hentry
  · obtain rfl := Option.some.inj hentry
    cases List.mem_singleton.mp hevent
    cases hparse
  · split at hentry
    · obtain rfl := Option.some.inj hentry
      cases List.mem_singleton.mp hevent
      have carried : ((createdEntry "lp" amuletCreated (.created amuletOfTen) 0).all
          fun g : CachedHolding ScaledInt => decide
            (amuletContracts g.contractId = (g.instrument, Decimal.value g.amount))) = true := by
        decide +kernel
      have entry := of_decide_eq_true
        ((Option.all_eq_true _ _).mp carried _ (createdEntry_at 0 hparse))
      exact entry
    · cases hentry

theorem amuletLedger_none {offset o : Int} (hsecond : o ≠ offset) (hfirst : o ≠ 1) :
    (amuletLedger offset).entry o = none := by
  unfold amuletLedger
  dsimp only
  rw [if_neg hsecond, if_neg hfirst]

theorem follows_archived {offset pos : Int} (hpos : 1 ≤ pos) (hlt : pos < offset) :
    Follows (amuletLedger offset) pos [.transaction (amuletArchived offset)] := by
  refine .transaction hlt (if_pos rfl) (fun o hafter hbefore => ?_) (.nil _)
  exact amuletLedger_none hbefore.ne (hpos.trans_lt hafter).ne'

theorem follows_created {offset : Int} (hlt : 1 < offset) {rest : List GetUpdatesResponse}
    (hrest : Follows (amuletLedger offset) 1 rest) :
    Follows (amuletLedger offset) 0 (.transaction amuletCreated :: rest) := by
  refine .transaction (by decide) ?_ (fun o hafter hbefore => ?_) hrest
  · exact (if_neg hlt.ne).trans (if_pos rfl)
  · exact absurd hafter (not_lt.mpr (Int.lt_add_one_iff.mp hbefore))

/-- A poll of a run at a cursor. -/
theorem allowed_poll {ledger : UpdateLedger} {data : Contracts} {w : Watcher ScaledInt} {cur : Int}
    {updates : List GetUpdatesResponse} {complete : Bool}
    (hrun : w.run = some ⟨true, some cur, none⟩) (h : Follows ledger cur updates) :
    w.Allowed ledger data (.getUpdates (.batch updates complete)) := by
  intro r hr cur' hcur'
  obtain rfl := Option.some.inj (hrun.symm.trans hr)
  obtain rfl := Option.some.inj hcur'
  exact h

def listedAmulet : CachedHolding ScaledInt :=
  ⟨"00aa", "#splice-amulet:Splice.Amulet:Amulet", "CC", ⟨10, 0⟩, some "blob", "sync", 0⟩

theorem listedAmulet_carries : Carries amuletContracts listedAmulet := by
  unfold Carries
  decide +kernel

/-- A run of the task up to its first poll. -/
def untilPoll (answer : List (WatcherEvent ScaledInt)) (updates : List GetUpdatesResponse) :
    List (WatcherEvent ScaledInt) :=
  .start :: .createClient true :: answer ++ [.getUpdates (.batch updates false)]

/-- Both transactions are applied but not recorded; a panic, and they are applied again. -/
def replayedEvents : List (WatcherEvent ScaledInt) :=
  let updates := [.transaction amuletCreated, .transaction (amuletArchived 2)]
  let applied := List.replicate 6 (.next 0 false)
  untilPoll [.getLedgerEnd (some 0)] updates ++ applied ++ .panic ::
    untilPoll [] updates ++ applied ++ [.next 0 false]

def replayedRun : Watcher ScaledInt :=
  replayedEvents.foldl (Watcher.apply "lp") (Watcher.fresh emptyShared)

/-- Three runs panic before the first event of a transaction; the fourth goes on after it. -/
def givenUpEvents : List (WatcherEvent ScaledInt) :=
  let updates := [.transaction amuletCreated]
  untilPoll [.getLedgerEnd (some 0)] updates ++ .next 0 false :: .panic ::
    untilPoll [] updates ++ .next 0 false :: .panic ::
    untilPoll [] updates ++ .next 0 false :: .panic ::
    untilPoll [.getLedgerEnd (some 5)] [.transaction (amuletArchived 6)] ++ [.next 0 false]

def givenUpRun : Watcher ScaledInt :=
  givenUpEvents.foldl (Watcher.apply "lp") (Watcher.fresh emptyShared)

/-- The watcher enters the amulet, and an incomplete ACS snapshot is merged with its blob. -/
def mergedEvents : List (WatcherEvent ScaledInt) :=
  untilPoll [.getLedgerEnd (some 0)] [.transaction amuletCreated] ++
    [.next 0 false, .next 0 false, .holdings (.addCreated [listedAmulet])]

def mergedRun : Watcher ScaledInt :=
  mergedEvents.foldl (Watcher.apply "lp") (Watcher.fresh emptyShared)

theorem replayedRun_reachable : Reachable (Watcher.Allowed (amuletLedger 2) amuletContracts)
    (Watcher.apply "lp") (Watcher.fresh emptyShared) replayedRun := by
  have follows : Follows (amuletLedger 2) 0 [.transaction amuletCreated,
      .transaction (amuletArchived 2)] :=
    follows_created (by decide) (follows_archived le_rfl (by decide))
  exact Reachable.foldl .start ⟨trivial, trivial, trivial, allowed_poll rfl follows, trivial,
    trivial, trivial, trivial, trivial, trivial, trivial, trivial, trivial,
    allowed_poll rfl follows, trivial, trivial, trivial, trivial, trivial, trivial, trivial, trivial⟩

theorem givenUpRun_reachable : Reachable (Watcher.Allowed (amuletLedger 6) amuletContracts)
    (Watcher.apply "lp") (Watcher.fresh emptyShared) givenUpRun := by
  have first : Follows (amuletLedger 6) 0 [.transaction amuletCreated] :=
    follows_created (by decide) (.nil _)
  have second : Follows (amuletLedger 6) 5 [.transaction (amuletArchived 6)] :=
    follows_archived (by decide) (by decide)
  exact Reachable.foldl .start ⟨trivial, trivial, trivial, allowed_poll rfl first, trivial, trivial,
    trivial, trivial, allowed_poll rfl first, trivial, trivial, trivial, trivial,
    allowed_poll rfl first, trivial, trivial, trivial, trivial, trivial, allowed_poll rfl second,
    trivial, trivial⟩

theorem mergedRun_reachable : Reachable (Watcher.Allowed (amuletLedger 2) amuletContracts)
    (Watcher.apply "lp") (Watcher.fresh emptyShared) mergedRun := by
  have follows : Follows (amuletLedger 2) 0 [.transaction amuletCreated] :=
    follows_created (by decide) (.nil _)
  exact Reachable.foldl .start ⟨trivial, trivial, trivial, allowed_poll rfl follows, trivial,
    trivial, List.forall_mem_singleton.mpr listedAmulet_carries, trivial⟩

/-- What the watcher guarantees after the amulet was applied twice. -/
theorem skipsNothing_replayed : replayedRun.resume.cursor = some 2 ∧
    SkipsNothing (amuletLedger 2) amuletContracts "lp" replayedRun :=
  ⟨rfl, skipsNothing (amuletLedger_describes 2) emptyShared_carried replayedRun_reachable⟩

/-- After three panics at one cursor a transaction is passed over. -/
theorem not_appliedFromFirst_givenUp : ¬ AppliedFromFirst (amuletLedger 6) givenUpRun := by
  intro applied
  have handled := applied [] (amuletArchived 6) _ rfl 0 rfl 1 amuletCreated rfl (by decide)
    (by decide)
  have mem : Mark.handled amuletCreated (.created amuletOfTen) ∈
      [Mark.seeded 5, .begun amuletCreated, .begun amuletCreated, .begun amuletCreated,
        .seeded 0] :=
    handled.subset List.mem_cons_self
  simp only [List.mem_cons, reduceCtorEq, List.not_mem_nil, or_self] at mem

/-- An entry with a blob is blob-pending once its creation is handled again. -/
theorem blob_replayed : ¬ KeepsBlobs "lp" mergedRun := by
  intro kept
  have same := kept [⟨amuletCreated, .created amuletOfTen, 0, ⟨false, []⟩⟩]
    (List.forall_mem_singleton.mpr List.mem_cons_self) "00aa"
  exact absurd same (by decide +kernel)

/-- A transaction after the first seed can be passed over, and a replay can drop a blob. -/
theorem passes_over_and_drops_blob :
    (¬ ∀ (ledger : UpdateLedger) (data : Contracts) (partyId : String) (shared : Shared ScaledInt)
        (w : Watcher ScaledInt),
      ledger.Describes ScaledInt partyId data → Carried data shared →
      Reachable (Watcher.Allowed ledger data) (Watcher.apply partyId) (Watcher.fresh shared) w →
      AppliedFromFirst ledger w) ∧
    ¬ ∀ (ledger : UpdateLedger) (data : Contracts) (partyId : String) (shared : Shared ScaledInt)
        (w : Watcher ScaledInt),
      ledger.Describes ScaledInt partyId data → Carried data shared →
      Reachable (Watcher.Allowed ledger data) (Watcher.apply partyId) (Watcher.fresh shared) w →
      KeepsBlobs partyId w := by
  constructor
  · intro claim
    exact not_appliedFromFirst_givenUp (claim (amuletLedger 6) amuletContracts "lp" emptyShared _
      (amuletLedger_describes 6) emptyShared_carried givenUpRun_reachable)
  · intro claim
    exact blob_replayed (claim (amuletLedger 2) amuletContracts "lp" emptyShared _
      (amuletLedger_describes 2) emptyShared_carried mergedRun_reachable)

end Sample

end BookAgent.CloudAgent.UpdatesWorker
